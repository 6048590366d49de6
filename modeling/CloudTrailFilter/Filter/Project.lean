import CloudTrailFilter.Filter.Engine
import CloudTrailFilter.Json.Decode

/-!
# Projected evaluation

`project` walks the text of a record once against the projection trie and fills one slot for
each path; `evaluateRaw` decides the record from those slots. The walk fails exactly when the
tokens of the text do not decode, and otherwise leaves in each slot the scalar its path reaches
in the fully parsed record.
-/

namespace CloudTrailFilter.Filter
open Json

/-- One captured scalar, or nothing, for each path id. -/
abbrev Slots := List (Option String)

def captureTerminals (node : Node) (value : Option String) (out : Slots) : Slots :=
  match node.terminals with
  | [] => out
  | first :: rest => (rest.foldl (fun out id => out.set id value) out).set first value

/-- Nulls the slots of a whole subtree. -/
def clearSubtree (child : Node) (out : Slots) : Slots :=
  child.subtreeTerminals.foldl (fun out id => out.set id none) out

/-- Whether some slot below a wildcard child is still empty. -/
def unfilled (child : Node) (out : Slots) : Bool :=
  child.subtreeTerminals.any (fun id => (out.getD id none).isNone)

section Visitors
variable (float : FloatParser)

mutual

/-- `Skip`: a value outside the projection is decoded and discarded. -/
def skip (depth : ℕ) : Lex → Option Unit
  | .null | .bool _ => some ()
  | .num lexeme => (parseNumber float lexeme).map (fun _ => ())
  | .str raw => (decodeString raw).map (fun _ => ())
  | .arr items => if depth ≤ 1 then none else skipItems (depth - 1) items
  | .obj members => if depth ≤ 1 then none else skipMembers (depth - 1) members

def skipItems (depth : ℕ) : List (Bytes × Lex) → Option Unit
  | [] => some ()
  | (_, v) :: rest => do
    skip depth v
    skipItems depth rest

def skipMembers (depth : ℕ) : List (Bytes × Lex) → Option Unit
  | [] => some ()
  | (key, v) :: rest => do
    let _ ← decodeString key
    skip depth v
    skipMembers depth rest

end

mutual

/-- `LevelSeed`: walks one value against one trie node. -/
def levelSeed (depth : ℕ) (node : Node) : Lex → Slots → Option Slots
  | .null, out => some out
  | .bool b, out => some (captureTerminals node (some (if b then "true" else "false")) out)
  | .num lexeme, out =>
    (parseNumber float lexeme).map (fun n => captureTerminals node (some n.toText) out)
  | .str raw, out => (decodeString raw).map (fun s => captureTerminals node (some s) out)
  | .arr items, out =>
    if depth ≤ 1 then none
    else if node.indices.isEmpty && node.wildcard.isNone then do
      skipItems float (depth - 1) items
      some out
    else visitSeq (depth - 1) node 0 items out
  | .obj members, out => if depth ≤ 1 then none else visitMap (depth - 1) node members out

/-- A repeated key is walked again over a cleared subtree, so its last occurrence wins. -/
def visitMap (depth : ℕ) (node : Node) : List (Bytes × Lex) → Slots → Option Slots
  | [], out => some out
  | (key, v) :: rest, out => do
    let key ← decodeString key
    match Node.lookup key node.keys with
    | none => do
      skip float depth v
      visitMap depth node rest out
    | some child => do
      let out ← levelSeed depth child v (clearSubtree child out)
      visitMap depth node rest out

/-- The child a fixed subscript names, else the wildcard child while it has empty slots. -/
def visitSeq (depth : ℕ) (node : Node) (position : ℕ) : List (Bytes × Lex) → Slots → Option Slots
  | [], out => some out
  | (_, v) :: rest, out =>
    match Node.lookup position node.indices, node.wildcard with
    | some child, _ => do
      let out ← levelSeed depth child v out
      visitSeq depth node (position + 1) rest out
    | none, some child =>
      if unfilled child out then do
        let out ← levelSeed depth child v out
        visitSeq depth node (position + 1) rest out
      else do
        skip float depth v
        visitSeq depth node (position + 1) rest out
    | none, none => do
      skip float depth v
      visitSeq depth node (position + 1) rest out

end

def project (json : Bytes) (projection : Projection) : Option Slots :=
  match scanDocument json with
  | .ok v => levelSeed float recursionLimit projection.root v (List.replicate projection.len none)
  | .error _ => none

end Visitors

/-- Whether a condition holds of the scalar captured for its path. -/
def Op.holdsOn (op : Op) (value : Option String) : Bool :=
  match op with
  | .regex re => value.any re.isMatch
  | .equals want => value = some want
  | .anyOf set => value.any (fun v => v ∈ set)
  | .absent wantAbsent => value.isSome != wantAbsent

def matchFiresProjected (m : CompiledMatch) (slots : Slots) : Bool :=
  m.op.holdsOn (slots.getD m.pathId none) != m.negate

/-- The decision on a record's text, `none` where it does not parse. A ruleset with a `[*]`
path takes the full parse. -/
def Engine.evaluateRaw (float : FloatParser) (engine : Engine) (record : Bytes) : Option Decision :=
  if engine.projection.hasWildcard then (Value.fromSlice float record).map engine.evaluate
  else do
    let slots ← project float record engine.projection
    let candidates := engine.index.candidatesFor (slots.getD engine.eventSourceSlot none)
      (slots.getD engine.eventNameSlot none)
    some (firstFiring engine.index.ruleCount (fun ruleIdx =>
      candidates.permits ruleIdx &&
        (engine.rules[ruleIdx]?).any (fun rule => rule.matches.all (matchFiresProjected · slots))))

section Tokens
variable (float : FloatParser)

mutual

/-- The slots `levelSeed` leaves, read off the decoded tokens. -/
def fill (node : Node) : Tree → Slots → Slots
  | .null, out => out
  | .bool b, out => captureTerminals node (some (if b then "true" else "false")) out
  | .number n, out => captureTerminals node (some n.toText) out
  | .string s, out => captureTerminals node (some s) out
  | .array items, out =>
    if node.indices.isEmpty && node.wildcard.isNone then out else fillItems node 0 items out
  | .object members, out => fillMembers node members out

def fillMembers (node : Node) : List (String × Tree) → Slots → Slots
  | [], out => out
  | (key, v) :: rest, out =>
    match Node.lookup key node.keys with
    | none => fillMembers node rest out
    | some child => fillMembers node rest (fill child v (clearSubtree child out))

def fillItems (node : Node) (position : ℕ) : List Tree → Slots → Slots
  | [], out => out
  | v :: rest, out =>
    match Node.lookup position node.indices, node.wildcard with
    | some child, _ => fillItems node (position + 1) rest (fill child v out)
    | none, some child =>
      fillItems node (position + 1) rest (if unfilled child out then fill child v out else out)
    | none, none => fillItems node (position + 1) rest out

end

mutual

theorem skip_eq (depth : ℕ) : ∀ v : Lex, skip float depth v = (v.decode float depth).map (fun _ => ())
  | .null | .bool _ => rfl
  | .num lexeme => by
    rw [skip, Lex.decode, Option.map_map]
  | .str raw => by
    rw [skip, Lex.decode, Option.map_map]
  | .arr items => by
    rw [skip, Lex.decode, skipItems_eq]
    split
    · rfl
    · rw [Option.map_map]
  | .obj members => by
    rw [skip, Lex.decode, skipMembers_eq]
    split
    · rfl
    · rw [Option.map_map]

theorem skipItems_eq (depth : ℕ) : ∀ items : List (Bytes × Lex),
    skipItems float depth items = (decodeItems float depth items).map (fun _ => ())
  | [] => rfl
  | (_, v) :: rest => by
    rw [skipItems, decodeItems, skip_eq depth v, skipItems_eq depth rest]
    cases v.decode float depth <;> cases decodeItems float depth rest <;> rfl

theorem skipMembers_eq (depth : ℕ) : ∀ members : List (Bytes × Lex),
    skipMembers float depth members = (decodeMembers float depth members).map (fun _ => ())
  | [] => rfl
  | (key, v) :: rest => by
    rw [skipMembers, decodeMembers, skip_eq depth v, skipMembers_eq depth rest]
    cases decodeString key <;> cases v.decode float depth <;>
      cases decodeMembers float depth rest <;> rfl

end

mutual

/-- The walk fails exactly when the tokens do not decode: a skipped subtree is still decoded. -/
theorem levelSeed_eq (depth : ℕ) (node : Node) : ∀ (v : Lex) (out : Slots),
    levelSeed float depth node v out = (v.decode float depth).map (fill node · out)
  | .null, out | .bool _, out => by
    rw [levelSeed, Lex.decode, Option.map_some, fill]
  | .num lexeme, out => by
    rw [levelSeed, Lex.decode, Option.map_map]
    simp only [Function.comp_def, fill]
  | .str raw, out => by
    rw [levelSeed, Lex.decode, Option.map_map]
    simp only [Function.comp_def, fill]
  | .arr items, out => by
    rw [levelSeed, Lex.decode]
    by_cases hd : depth ≤ 1
    · rw [if_pos hd, if_pos hd]
      rfl
    · rw [if_neg hd, if_neg hd, Option.map_map, skipItems_eq, visitSeq_eq]
      by_cases hn : (node.indices.isEmpty && node.wildcard.isNone) = true
      · simp only [hn, if_true, Function.comp_def, fill]
        cases decodeItems float (depth - 1) items <;> rfl
      · simp only [hn, Bool.false_eq_true, if_false, Function.comp_def, fill]
  | .obj members, out => by
    rw [levelSeed, Lex.decode]
    by_cases hd : depth ≤ 1
    · rw [if_pos hd, if_pos hd]
      rfl
    · rw [if_neg hd, if_neg hd, Option.map_map, visitMap_eq]
      simp only [Function.comp_def, fill]

theorem visitMap_eq (depth : ℕ) (node : Node) : ∀ (members : List (Bytes × Lex)) (out : Slots),
    visitMap float depth node members out =
      (decodeMembers float depth members).map (fillMembers node · out)
  | [], out => by rw [visitMap, decodeMembers, Option.map_some, fillMembers]
  | (key, v) :: rest, out => by
    rw [visitMap, decodeMembers]
    cases decodeString key with
    | none => rfl
    | some key =>
      simp only [Option.bind_eq_bind, Option.bind_some]
      cases hl : Node.lookup key node.keys with
      | none =>
        simp only [skip_eq, visitMap_eq depth node rest]
        cases v.decode float depth <;> cases decodeMembers float depth rest <;>
          simp [fillMembers, hl]
      | some child =>
        simp only [levelSeed_eq depth child v, visitMap_eq depth node rest]
        cases v.decode float depth <;> cases decodeMembers float depth rest <;>
          simp [fillMembers, hl]

theorem visitSeq_eq (depth : ℕ) (node : Node) (position : ℕ) :
    ∀ (items : List (Bytes × Lex)) (out : Slots), visitSeq float depth node position items out =
      (decodeItems float depth items).map (fillItems node position · out)
  | [], out => by rw [visitSeq, decodeItems, Option.map_some, fillItems]
  | (_, v) :: rest, out => by
    rw [visitSeq, decodeItems]
    cases hi : Node.lookup position node.indices with
    | some child =>
      simp only [levelSeed_eq depth child v, visitSeq_eq depth node (position + 1) rest,
        Option.bind_eq_bind]
      cases v.decode float depth <;> cases decodeItems float depth rest <;> simp [fillItems, hi]
    | none =>
      cases hw : node.wildcard with
      | none =>
        simp only [skip_eq, visitSeq_eq depth node (position + 1) rest, Option.bind_eq_bind]
        cases v.decode float depth <;> cases decodeItems float depth rest <;>
          simp [fillItems, hi, hw]
      | some child =>
        simp only [skip_eq, levelSeed_eq depth child v, visitSeq_eq depth node (position + 1) rest,
          Option.bind_eq_bind]
        cases v.decode float depth <;> cases decodeItems float depth rest <;>
          by_cases hu : unfilled child out = true <;> simp [fillItems, hi, hw, hu]

end

theorem project_eq (json : Bytes) (projection : Projection) :
    project float json projection = (Tree.fromSlice float json).map
      (fill projection.root · (List.replicate projection.len none)) := by
  unfold project Tree.fromSlice
  cases scanDocument json with
  | error e => rfl
  | ok v => exact levelSeed_eq float recursionLimit projection.root v _

end Tokens

section Slots

/-- The slot of each route holds the first scalar its remaining path reaches in `v`. -/
def Filled (routes : List Route) (v : Value) (out : Slots) : Prop :=
  ∀ id rest, (id, rest) ∈ routes → out[id]? = some (reached rest v).head?

/-- The slot of each route is empty. -/
def Clear (routes : List Route) (out : Slots) : Prop :=
  ∀ id rest, (id, rest) ∈ routes → out[id]? = some none

/-- Only slots of the given routes differ. -/
def Untouched (routes : List Route) (out out' : Slots) : Prop :=
  ∀ id, (∀ rest, (id, rest) ∉ routes) → out'[id]? = out[id]?

/-- Each id has one route, and no route has a wildcard. -/
structure Proper (routes : List Route) : Prop where
  unique : ∀ id rest rest', (id, rest) ∈ routes → (id, rest') ∈ routes → rest = rest'
  wildcardFree : ∀ id rest, (id, rest) ∈ routes → Segment.wildcard ∉ rest

lemma Proper.via {routes : List Route} (h : Proper routes) (s : Segment) :
    Proper (routesVia s routes) where
  unique id rest rest' hm hm' := by
    have := h.unique id _ _ (mem_routesVia.mp hm) (mem_routesVia.mp hm')
    exact (List.cons.inj this).2
  wildcardFree id rest hm hw := by
    exact h.wildcardFree id _ (mem_routesVia.mp hm) (List.mem_cons_of_mem _ hw)

lemma Proper.via_wildcard {routes : List Route} (h : Proper routes) :
    routesVia .wildcard routes = [] := by
  apply List.eq_nil_iff_forall_not_mem.mpr
  rintro ⟨id, rest⟩ hm
  exact h.wildcardFree id _ (mem_routesVia.mp hm) (by simp)

lemma getElem?_setAll (ids : List ℕ) (value : Option String) (out : Slots) (id : ℕ) :
    (ids.foldl (fun out id => out.set id value) out)[id]? =
      if id ∈ ids then (out[id]?).map (fun _ => value) else out[id]? := by
  induction ids generalizing out with
  | nil => rfl
  | cons i ids ih =>
    rw [List.foldl_cons, ih, List.getElem?_set]
    by_cases hi : i = id
    · subst hi
      by_cases hlt : i < out.length <;> simp [hlt]
    · simp [hi, Ne.symm hi]

lemma getElem?_captureTerminals (node : Node) (value : Option String) (out : Slots) (id : ℕ) :
    (captureTerminals node value out)[id]? =
      if id ∈ node.terminals then (out[id]?).map (fun _ => value) else out[id]? := by
  unfold captureTerminals
  cases node.terminals with
  | nil => rfl
  | cons first rest =>
    have hset := getElem?_setAll (rest ++ [first]) value out id
    rw [List.foldl_append] at hset
    rw [List.foldl_cons, List.foldl_nil] at hset
    simpa [or_comm] using hset

lemma reached_cons_of_scalar {v : Value} {text : String} (h : v.scalarText = some text)
    (s : Segment) (rest : List Segment) : reached (s :: rest) v = [] := by
  cases v <;> cases s <;> first | rfl | simp [Value.scalarText] at h

/-- Capturing a scalar fills the finished routes and leaves the longer ones empty. -/
lemma filled_captureTerminals {node : Node} {routes : List Route} (hrep : node.Represents routes)
    (hproper : Proper routes) {out : Slots} (hclear : Clear routes out) {v : Value} {text : String}
    (htext : v.scalarText = some text) :
    Filled routes v (captureTerminals node (some text) out) ∧
      Untouched routes out (captureTerminals node (some text) out) := by
  obtain ⟨hterm, -, -, -, -, -, -, -⟩ := hrep
  constructor
  · intro id rest hm
    rw [getElem?_captureTerminals, hclear id rest hm]
    cases rest with
    | nil => simp [(hterm id).mpr hm, reached, htext]
    | cons s rest =>
      have hnot : id ∉ node.terminals := by
        intro hin
        exact absurd (hproper.unique id _ _ hm ((hterm id).mp hin)) (by simp)
      simp [hnot, reached_cons_of_scalar htext]
  · intro id hid
    rw [getElem?_captureTerminals, if_neg (fun hin => hid [] ((hterm id).mp hin))]

/-- One child has been walked: routes through it hold what they reach in `next`, the others
what they held, and that is the state for `v'`, which differs from `v` at that child only. -/
lemma Filled.dispatch {routes : List Route} (hproper : Proper routes) {s : Segment}
    {v v' next : Value} {out out' : Slots} (hfilled : Filled routes v out)
    (hchild : Filled (routesVia s routes) next out')
    (hframe : Untouched (routesVia s routes) out out')
    (hthrough : ∀ rest, reached (s :: rest) v' = reached rest next)
    (hother : ∀ rest, Segment.wildcard ∉ rest → rest.head? ≠ some s → reached rest v' = reached rest v) :
    Filled routes v' out' := by
  intro id rest hm
  by_cases hs : rest.head? = some s
  · obtain ⟨rest, rfl⟩ : ∃ rest', rest = s :: rest' := by
      cases rest with
      | nil => simp at hs
      | cons s' rest => simp at hs; exact ⟨rest, by rw [hs]⟩
    rw [hthrough, hchild id rest (mem_routesVia.mpr hm)]
  · have hnot : ∀ r, (id, r) ∉ routesVia s routes := by
      intro r hr
      rw [hproper.unique id _ _ hm (mem_routesVia.mp hr)] at hs
      simp at hs
    rw [hframe id hnot, hother rest (hproper.wildcardFree id rest hm) hs, hfilled id rest hm]

lemma Untouched.of_via {routes : List Route} {s : Segment} {out out' : Slots}
    (h : Untouched (routesVia s routes) out out') : Untouched routes out out' :=
  fun id hid => h id (fun _ hm => hid _ (mem_routesVia.mp hm))

lemma Untouched.trans {routes : List Route} {a b c : Slots} (h : Untouched routes a b)
    (h' : Untouched routes b c) : Untouched routes a c :=
  fun id hid => (h' id hid).trans (h id hid)

lemma filled_nil (v : Value) (out : Slots) : Filled [] v out := by
  intro id rest hm
  simp at hm

lemma reached_insert {entries : List (String × Value)} {key : String} {v : Value}
    {rest : List Segment} (h : rest.head? ≠ some (.key key)) :
    reached rest (.object (Value.insert entries key v)) = reached rest (.object entries) := by
  match rest with
  | [] => rfl
  | .key k :: rest =>
    have hk : key ≠ k := by simpa [eq_comm] using h
    simp [reached, Value.get_insert, hk]
  | .index _ :: _ | .wildcard :: _ => rfl

lemma reached_concat {done : List Value} {v : Value} {rest : List Segment}
    (hw : Segment.wildcard ∉ rest) (h : rest.head? ≠ some (.index done.length)) :
    reached rest (.array (done ++ [v])) = reached rest (.array done) := by
  match rest with
  | [] => rfl
  | .index i :: rest =>
    have hi : i ≠ done.length := by simpa using h
    simp only [reached]
    congr 2
    rcases Nat.lt_or_gt_of_ne hi with hlt | hgt
    · rw [List.getElem?_append_left hlt]
    · rw [List.getElem?_eq_none (by simp; omega), List.getElem?_eq_none (by omega)]
  | .key _ :: _ => rfl
  | .wildcard :: _ => simp at hw

/-- The slots below a child are empty once its subtree has been cleared. -/
lemma clear_clearSubtree {child : Node} {routes : List Route} {s : Segment}
    (hrep : child.Represents (routesVia s routes)) {v : Value} {out : Slots}
    (hfilled : Filled routes v out) :
    Clear (routesVia s routes) (clearSubtree child out) ∧
      Untouched (routesVia s routes) out (clearSubtree child out) := by
  obtain ⟨-, hsub, -, -, -, -, -, -⟩ := hrep
  constructor
  · intro id rest hm
    rw [clearSubtree, getElem?_setAll, if_pos ((hsub id).mpr ⟨rest, hm⟩),
      hfilled id _ (mem_routesVia.mp hm)]
    rfl
  · intro id hid
    have hnot : id ∉ child.subtreeTerminals := by
      intro hin
      obtain ⟨rest, hm⟩ := (hsub id).mp hin
      exact hid rest hm
    rw [clearSubtree, getElem?_setAll, if_neg hnot]

mutual

/-- One pass over the tokens fills every slot with what its path reaches in the plain reading. -/
theorem fill_spec {node : Node} {routes : List Route} (hrep : node.Represents routes)
    (hproper : Proper routes) : ∀ (t : Tree) (out : Slots), Clear routes out →
      Filled routes t.plain (fill node t out) ∧ Untouched routes out (fill node t out)
  | .null, out, hclear => by
    rw [fill]
    refine ⟨?_, fun _ _ => rfl⟩
    intro id rest hm
    rw [hclear id rest hm]
    cases rest with
    | nil => rfl
    | cons s rest => cases s <;> rfl
  | .bool b, out, hclear => by
    rw [fill]
    exact filled_captureTerminals hrep hproper hclear (by rw [Tree.plain]; rfl)
  | .number n, out, hclear => by
    rw [fill]
    exact filled_captureTerminals hrep hproper hclear (by rw [Tree.plain]; rfl)
  | .string s, out, hclear => by
    rw [fill]
    exact filled_captureTerminals hrep hproper hclear (by rw [Tree.plain]; rfl)
  | .array items, out, hclear => by
    have hstart : Filled routes (.array []) out := by
      intro id rest hm
      rw [hclear id rest hm]
      match rest with
      | [] | .key _ :: _ | .index _ :: _ | .wildcard :: _ => rfl
    rw [fill, Tree.plain]
    split
    · rename_i hempty
      refine ⟨?_, fun _ _ => rfl⟩
      obtain ⟨-, -, -, -, hin, -, -, -⟩ := hrep
      simp only [Bool.and_eq_true, List.isEmpty_iff] at hempty
      intro id rest hm
      rw [hclear id rest hm]
      match rest with
      | [] | .key _ :: _ => rfl
      | .wildcard :: _ => exact absurd (hproper.wildcardFree id _ hm) (by simp)
      | .index i :: _ =>
        have hnone := hin i (by rw [hempty.1]; rfl)
        have := mem_routesVia.mpr hm
        simp [hnone] at this
    · exact fillItems_spec hrep hproper items [] out hstart
  | .object members, out, hclear => by
    have hstart : Filled routes (.object []) out := by
      intro id rest hm
      rw [hclear id rest hm]
      match rest with
      | [] | .key _ :: _ | .index _ :: _ | .wildcard :: _ => rfl
    rw [fill, Tree.plain]
    exact fillMembers_spec hrep hproper members [] out hstart

theorem fillMembers_spec {node : Node} {routes : List Route} (hrep : node.Represents routes)
    (hproper : Proper routes) : ∀ (members : List (String × Tree)) (entries : List (String × Value))
      (out : Slots), Filled routes (.object entries) out →
      Filled routes (.object (membersPlain entries members)) (fillMembers node members out) ∧
        Untouched routes out (fillMembers node members out)
  | [], entries, out, hfilled => by
    rw [fillMembers, membersPlain]
    exact ⟨hfilled, fun _ _ => rfl⟩
  | (key, t) :: rest, entries, out, hfilled => by
    have hrep' := hrep
    obtain ⟨-, -, hkn, hks, -, -, -, -⟩ := hrep'
    rw [fillMembers, membersPlain]
    have hthrough : ∀ rest, reached (.key key :: rest)
        (.object (Value.insert entries key t.plain)) = reached rest t.plain := by
      intro rest
      simp [reached, Value.get_insert]
    cases hl : Node.lookup key node.keys with
    | none =>
      refine fillMembers_spec hrep hproper rest _ out ?_
      refine hfilled.dispatch hproper (hkn key hl ▸ filled_nil t.plain out) (fun _ _ => rfl)
        hthrough (fun _ _ => reached_insert)
    | some child =>
      have hchild := hks key child hl
      obtain ⟨hclear, hframe⟩ := clear_clearSubtree hchild hfilled
      obtain ⟨hfill, hframe'⟩ := fill_spec hchild (hproper.via _) t _ hclear
      have hstep := hframe.trans hframe'
      obtain ⟨hrest, hframeRest⟩ := fillMembers_spec hrep hproper rest _ _
        (hfilled.dispatch hproper hfill hstep hthrough (fun _ _ => reached_insert))
      exact ⟨hrest, hstep.of_via.trans hframeRest⟩

theorem fillItems_spec {node : Node} {routes : List Route} (hrep : node.Represents routes)
    (hproper : Proper routes) : ∀ (items : List Tree) (done : List Value) (out : Slots),
      Filled routes (.array done) out →
      Filled routes (.array (done ++ itemsPlain items)) (fillItems node done.length items out) ∧
        Untouched routes out (fillItems node done.length items out)
  | [], done, out, hfilled => by
    rw [fillItems, itemsPlain, List.append_nil]
    exact ⟨hfilled, fun _ _ => rfl⟩
  | t :: rest, done, out, hfilled => by
    have hrep' := hrep
    obtain ⟨-, -, -, -, hin, his, hwn, hws⟩ := hrep'
    have hthrough : ∀ rest, reached (.index done.length :: rest) (.array (done ++ [t.plain])) =
        reached rest t.plain := by
      intro rest
      simp [reached]
    -- whatever the dispatch at this position did to the slots
    have hstep : ∀ out', Filled (routesVia (.index done.length) routes) t.plain out' →
        Untouched (routesVia (.index done.length) routes) out out' →
        Filled routes (.array (done ++ itemsPlain (t :: rest)))
            (fillItems node (done.length + 1) rest out') ∧
          Untouched routes out (fillItems node (done.length + 1) rest out') := by
      intro out' hfill hframe
      have hnext := hfilled.dispatch hproper hfill hframe hthrough (fun _ => reached_concat)
      obtain ⟨hrest, hframeRest⟩ := fillItems_spec hrep hproper rest (done ++ [t.plain]) out' hnext
      simp only [List.length_append, List.length_singleton, List.append_assoc,
        List.singleton_append] at hrest hframeRest
      rw [itemsPlain]
      exact ⟨hrest, hframe.of_via.trans hframeRest⟩
    rw [fillItems]
    cases hi : Node.lookup done.length node.indices with
    | some child =>
      have hchild := his _ child hi
      have hclear : Clear (routesVia (.index done.length) routes) out := by
        intro id rest hm
        rw [hfilled id _ (mem_routesVia.mp hm)]
        simp [reached]
      obtain ⟨hfill, hframe⟩ := fill_spec hchild (hproper.via _) t out hclear
      exact hstep _ hfill hframe
    | none =>
      have hnone := hin _ hi
      cases hw : node.wildcard with
      | none => exact hstep out (hnone ▸ filled_nil _ _) (fun _ _ => rfl)
      | some child =>
        -- no route passes a wildcard, so its child has nothing to fill
        have hchild := hws child hw
        rw [hproper.via_wildcard] at hchild
        have hsame : Untouched [] out (if unfilled child out then fill child t out else out) := by
          split
          · exact (fill_spec hchild ⟨by simp, by simp⟩ t out (by simp [Clear])).2
          · exact fun _ _ => rfl
        exact hstep _ (hnone ▸ filled_nil _ _) (hnone ▸ hsame)

end

lemma proper_routesOf {paths : List Path} (h : ∀ path ∈ paths, path.wildcardFree) :
    Proper (routesOf paths) where
  unique id rest rest' hm hm' := by
    obtain ⟨_, rfl⟩ := mem_routesOf.mp hm
    obtain ⟨_, rfl⟩ := mem_routesOf.mp hm'
    rfl
  wildcardFree id rest hm := by
    obtain ⟨hlt, rfl⟩ := mem_routesOf.mp hm
    exact h _ (List.getElem_mem hlt)

/-- From empty slots one walk leaves exactly the first scalar of each path. -/
theorem fill_build {paths : List Path} (hfree : ∀ path ∈ paths, path.wildcardFree) (t : Tree) :
    fill (Projection.build paths).root t (List.replicate paths.length none) =
      paths.map (firstValue t.plain) := by
  have hclear : Clear (routesOf paths) (List.replicate paths.length none) := by
    intro id rest hm
    obtain ⟨hlt, -⟩ := mem_routesOf.mp hm
    rw [List.getElem?_replicate, if_pos hlt]
  obtain ⟨hfilled, hframe⟩ := fill_spec (Projection.represents_build paths)
    (proper_routesOf hfree) t _ hclear
  apply List.ext_getElem?
  intro id
  by_cases hid : id < paths.length
  · rw [hfilled id paths[id].segments (mem_routesOf.mpr ⟨hid, rfl⟩), List.getElem?_map,
      List.getElem?_eq_getElem hid, Option.map_some, firstValue_eq]
  · rw [hframe id (fun rest hm => hid (mem_routesOf.mp hm).1), List.getElem?_replicate, if_neg hid,
      List.getElem?_map, List.getElem?_eq_none (by omega), Option.map_none]

end Slots

section Evaluation

/-- On a wildcard-free path a condition asks only about the first value. -/
lemma Op.holdsOn_eq (op : Op) {path : Path} (hfree : path.wildcardFree) (record : Value) :
    op.holdsOn (firstValue record path) = op.holds path record := by
  cases op with
  | regex re => simp only [Op.holds, Op.holdsOn, anyValue_wildcardFree hfree]
  | equals want =>
    simp only [Op.holds, Op.holdsOn, anyValue_wildcardFree hfree]
    cases firstValue record path <;> simp
  | anyOf set => simp only [Op.holds, Op.holdsOn, anyValue_wildcardFree hfree]
  | absent wantAbsent =>
    simp only [Op.holds, Op.holdsOn, anyValue_wildcardFree hfree]
    cases firstValue record path <;> simp

lemma wildcardFree_of_build {paths : List Path} (h : (Projection.build paths).hasWildcard = false) :
    ∀ path ∈ paths, path.wildcardFree := by
  intro path hm hw
  simp only [Projection.build, List.any_eq_false] at h
  exact h path hm (by simpa using hw)

lemma firstValue_keyPath_eventSource (record : Value) :
    firstValue record (keyPath "eventSource") = resolve record "eventSource" :=
  firstValue_singleKey (by decide) splitDots_eventSource record

lemma firstValue_keyPath_eventName (record : Value) :
    firstValue record (keyPath "eventName") = resolve record "eventName" :=
  firstValue_singleKey (by decide) splitDots_eventName record

/-- Slots that hold the first value of each path decide a record as the record itself does. -/
lemma Engine.Built.decision_eq {engine : Engine} (hbuilt : engine.Built)
    (hwild : engine.projection.hasWildcard = false) (record : Value) :
    ∃ paths, engine.projection = .build paths ∧ (∀ path ∈ paths, path.wildcardFree) ∧
      ∀ slots, slots = paths.map (firstValue record) →
      firstFiring engine.index.ruleCount (fun ruleIdx =>
        (engine.index.candidatesFor (slots.getD engine.eventSourceSlot none)
          (slots.getD engine.eventNameSlot none)).permits ruleIdx &&
        (engine.rules[ruleIdx]?).any (fun rule => rule.matches.all (matchFiresProjected · slots))) =
      engine.evaluate record := by
  obtain ⟨paths, hproj, hids, hsource, hname⟩ := hbuilt.slots
  have hfree := wildcardFree_of_build (hproj ▸ hwild)
  refine ⟨paths, hproj, hfree, ?_⟩
  rintro slots rfl
  have hslot : ∀ id path, paths[id]? = some path →
      (paths.map (firstValue record)).getD id none = firstValue record path := by
    intro id path hget
    rw [List.getD_eq_getElem?_getD, List.getElem?_map, hget]
    rfl
  rw [hslot _ _ hsource, hslot _ _ hname, firstValue_keyPath_eventSource,
    firstValue_keyPath_eventName, Engine.evaluate]
  apply firstFiring_congr
  intro i _
  congr 1
  rw [Engine.ruleFires]
  cases hr : engine.rules[i]? with
  | none => rfl
  | some rule =>
    have hrule := List.mem_of_getElem? hr
    simp only [Option.any_some]
    have hfires : ∀ m ∈ rule.matches,
        matchFiresProjected m (paths.map (firstValue record)) = matchFires m record := by
      intro m hm
      have hpath := hids rule hrule m hm
      rw [matchFiresProjected, matchFires, hslot _ _ hpath,
        Op.holdsOn_eq m.op (hfree _ (List.mem_of_getElem? hpath))]
    rw [Bool.eq_iff_iff, List.all_eq_true, List.all_eq_true]
    exact forall₂_congr (fun m hm => by rw [hfires m hm])

/-- A record without raw values is decided by what its text means. -/
lemma Engine.Built.evaluateRaw_eq {engine : Engine} (hbuilt : engine.Built) {float : FloatParser} {text : Bytes}
    {tree : Tree} (htree : Tree.fromSlice float text = some tree) (hfree : tree.tokenFree = true) :
    engine.evaluateRaw float text = some (engine.evaluate tree.plain) := by
  rw [Engine.evaluateRaw]
  cases hwild : engine.projection.hasWildcard with
  | true => rw [if_pos rfl, Value.fromSlice_eq_plain float htree hfree, Option.map_some]
  | false =>
    obtain ⟨paths, hproj, hpaths, hdecide⟩ := hbuilt.decision_eq hwild tree.plain
    have hslots : project float text (.build paths) = some (paths.map (firstValue tree.plain)) := by
      rw [project_eq, htree, Option.map_some]
      exact congrArg some (fill_build hpaths tree)
    rw [if_neg (by simp), hproj, hslots, Option.bind_eq_bind, Option.bind_some]
    exact congrArg some (hdecide _ rfl)

/-- A record whose tokens do not decode is not decided. -/
lemma evaluateRaw_eq_none {engine : Engine} {float : FloatParser} {text : Bytes} (h : Tree.fromSlice float text = none) :
    engine.evaluateRaw float text = none := by
  rw [Engine.evaluateRaw]
  split_ifs
  · rw [(Value.fromSlice_eq_none_iff float text).mpr (by simp [h]), Option.map_none]
  · rw [project_eq, h]
    rfl

/-- The projected walk and the full parse agree: `project` fills each slot with the scalar
`visitValues` yields first, and `evaluateRaw` decides as `evaluate` on the parsed record. -/
theorem projected_eq_full_parse (float : FloatParser) {text : Bytes} {record : Value}
    (hparse : Value.fromSlice float text = some record)
    (htoken : ∀ tree, Tree.fromSlice float text = some tree → tree.tokenFree = true) :
    (∀ paths : List Path, (∀ path ∈ paths, path.wildcardFree) →
      project float text (.build paths) = some (paths.map (firstValue record))) ∧
    ∀ (B : RulesBackend) (rs : RuleSet) (engine : Engine), Engine.new B rs = .ok engine →
      engine.evaluateRaw float text = some (engine.evaluate record) := by
  obtain ⟨tree, htree⟩ := Tree.of_fromSlice float hparse
  have hplain : record = tree.plain := by
    have := Value.fromSlice_eq_plain float htree (htoken tree htree)
    rw [hparse] at this
    exact Option.some.inj this
  subst hplain
  have hproject : ∀ paths : List Path, (∀ path ∈ paths, path.wildcardFree) →
      project float text (.build paths) = some (paths.map (firstValue tree.plain)) := by
    intro paths hfree
    rw [project_eq, htree, Option.map_some]
    exact congrArg some (fill_build hfree tree)
  refine ⟨hproject, ?_⟩
  intro B rs engine hnew
  have hbuilt := Engine.new_built B hnew
  rw [Engine.evaluateRaw]
  cases hwild : engine.projection.hasWildcard with
  | true => simp [hparse]
  | false =>
    obtain ⟨paths, hproj, hfree, hdecide⟩ := hbuilt.decision_eq hwild tree.plain
    simp only [Bool.false_eq_true, if_false]
    rw [hproj, hproject paths hfree, Option.bind_eq_bind, Option.bind_some]
    exact congrArg some (hdecide _ rfl)

/-- A record with a repeated key, an array and a number. -/
def sampleText : Bytes :=
  "\x7b\"eventName\":\"Encrypt\",\"a\":[7,\x7b\"b\":true\x7d],\"eventName\":\"Decrypt\"\x7d".toUTF8.toList

def samplePaths : List Path :=
  [⟨[.key "eventName"]⟩, ⟨[.key "a", .index 1, .key "b"]⟩, ⟨[.key "a", .index 1]⟩, ⟨[.key "a", .index 0]⟩]

theorem projected_eq_full_parse_sample :
    ∃ record, Value.fromSlice (fun _ => none) sampleText = some record ∧
      project (fun _ => none) sampleText (.build samplePaths) =
        some (samplePaths.map (firstValue record)) ∧
      samplePaths.map (firstValue record) = [some "Decrypt", some "true", none, some "7"] ∧
      ∃ engine, Engine.new sampleBackend sampleRules = .ok engine ∧
        engine.evaluateRaw (fun _ => none) sampleText = some (engine.evaluate record) := by
  have hsome : (Value.fromSlice (fun _ => none) sampleText).isSome = true := by decide +kernel
  have hfree : (Tree.fromSlice (fun _ => none) sampleText).all Tree.tokenFree = true := by
    decide +kernel
  have hslots : project (fun _ => none) sampleText (.build samplePaths) =
      some [some "Decrypt", some "true", none, some "7"] := by decide +kernel
  obtain ⟨record, hparse⟩ := Option.isSome_iff_exists.mp hsome
  obtain ⟨hproject, hraw⟩ := projected_eq_full_parse (fun _ => none) hparse
    (fun tree ht => by simpa [ht] using hfree)
  have hpaths := hproject samplePaths (by simp [samplePaths, Path.wildcardFree])
  obtain ⟨engine, hnew⟩ := Engine.new_of_parse sampleBackend sampleRules_parse
  refine ⟨record, hparse, hpaths, ?_, engine, hnew, hraw sampleBackend sampleRules engine hnew⟩
  rw [hpaths] at hslots
  exact Option.some.inj hslots

/-- When the two evaluators fail on the same text: exactly if a path of the ruleset has a wildcard,
or every raw value among the tokens of the text parses. The projected walk knows no raw values. -/
theorem evaluators_fail_alike_iff (float : FloatParser) (engine : Engine) (text : Bytes) :
    (engine.evaluateRaw float text = none ↔ Value.fromSlice float text = none) ↔
      engine.projection.hasWildcard = true ∨ ∀ tree, Tree.fromSlice float text = some tree →
        tree.rawValuesParse (Value.nestedParses float text) = true := by
  cases hwild : engine.projection.hasWildcard with
  | true =>
    have hraw : engine.evaluateRaw float text = (Value.fromSlice float text).map engine.evaluate := by
      simp [Engine.evaluateRaw, hwild]
    simp [hraw]
  | false =>
    have hraw : engine.evaluateRaw float text = none ↔ Tree.fromSlice float text = none := by
      rw [Engine.evaluateRaw, hwild, project_eq]
      cases Tree.fromSlice float text <;> simp
    rw [hraw, Value.fromSlice_eq_none_iff]
    cases Tree.fromSlice float text with
    | none => simp
    | some tree =>
      simp only [reduceCtorEq, Option.some.injEq, forall_eq', false_iff, false_or]
      simp

/-- A record whose only key is the private token, with a number. -/
def tokenText : Bytes := ("\x7b\"" ++ rawValueToken ++ "\":1\x7d").toUTF8.toList

/-- The full parse refuses the record, and the projected walk of a ruleset without wildcards
accepts it. -/
theorem projected_walk_accepts_raw_value :
    (Engine.assemble []).evaluateRaw (fun _ => none) tokenText = some .keep ∧
      (Value.fromSlice (fun _ => none) tokenText).isNone = true := by
  constructor <;> decide +kernel

end Evaluation

end CloudTrailFilter.Filter
