import CloudTrailFilter.Filter.Path

/-!
# The projection trie

`Projection.build` arranges the field paths of a ruleset as a trie, so that one pass over a
record can fill a slot for each of them. `Node.Represents` says what a node stands for: a
list of paths still to be followed from it, each with the id of its slot.
-/

namespace CloudTrailFilter.Filter

structure Node where
  keys : List (String × Node)
  indices : List (ℕ × Node)
  wildcard : Option Node
  terminals : List ℕ
  subtreeTerminals : List ℕ

namespace Node

/-- `Node::default()`. -/
def empty : Node := ⟨[], [], none, [], []⟩

/-- The child at `k`, created if there is none yet, replaced by `f` of it. -/
def upsert {κ : Type} [DecidableEq κ] (k : κ) (f : Node → Node) : List (κ × Node) → List (κ × Node)
  | [] => [(k, f empty)]
  | (k', child) :: rest => if k' = k then (k', f child) :: rest else (k', child) :: upsert k f rest

def lookup {κ : Type} [DecidableEq κ] (k : κ) (children : List (κ × Node)) : Option Node :=
  (children.find? (fun c => c.1 = k)).map Prod.snd

/-- Adds path id `id` along `segments`. Every node on the way records the id. -/
def insertPath (id : ℕ) : List Segment → Node → Node
  | [], node =>
    { node with subtreeTerminals := node.subtreeTerminals ++ [id], terminals := node.terminals ++ [id] }
  | segment :: rest, node =>
    let node := { node with subtreeTerminals := node.subtreeTerminals ++ [id] }
    match segment with
    | .key k => { node with keys := upsert k (insertPath id rest) node.keys }
    | .index i => { node with indices := upsert i (insertPath id rest) node.indices }
    | .wildcard => { node with wildcard := some (insertPath id rest (node.wildcard.getD empty)) }

end Node

structure Projection where
  root : Node
  len : ℕ
  hasWildcard : Bool

/-- Path id `i` is `paths[i]`. -/
def Projection.build (paths : List Path) : Projection where
  root := paths.zipIdx.foldl (fun node p => node.insertPath p.2 p.1.segments) .empty
  len := paths.length
  hasWildcard := paths.any (fun p => p.segments.contains .wildcard)

/-- A path id with the segments still to be followed. -/
abbrev Route := ℕ × List Segment

/-- The routes that continue through `segment`, past it. -/
def routesVia (segment : Segment) (routes : List Route) : List Route :=
  routes.filterMap (fun r =>
    match r.2 with
    | s :: rest => if s = segment then some (r.1, rest) else none
    | [] => none)

@[simp] lemma routesVia_nil (segment : Segment) : routesVia segment [] = [] := rfl

lemma routesVia_append (segment : Segment) (a b : List Route) :
    routesVia segment (a ++ b) = routesVia segment a ++ routesVia segment b := by
  simp [routesVia, List.filterMap_append]

lemma mem_routesVia {segment : Segment} {routes : List Route} {id : ℕ} {rest : List Segment} :
    (id, rest) ∈ routesVia segment routes ↔ (id, segment :: rest) ∈ routes := by
  simp only [routesVia, List.mem_filterMap, Prod.exists]
  constructor
  · rintro ⟨i, segments, hm, h⟩
    cases segments with
    | nil => simp at h
    | cons s rest' =>
      by_cases hs : s = segment
      · simp only [hs, if_true, Option.some.injEq, Prod.mk.injEq] at h
        obtain ⟨rfl, rfl⟩ := h
        exact hs ▸ hm
      · simp [hs] at h
  · intro h
    exact ⟨id, segment :: rest, h, by simp⟩

/-- A node stands for a list of routes: its terminals are the finished ones, its subtree
lists all of them, and each child stands for the routes that continue through it. -/
inductive Node.Represents : Node → List Route → Prop
  | intro {node : Node} {routes : List Route}
    (terminals : ∀ id, id ∈ node.terminals ↔ (id, []) ∈ routes)
    (subtree : ∀ id, id ∈ node.subtreeTerminals ↔ ∃ rest, (id, rest) ∈ routes)
    (keyNone : ∀ k, Node.lookup k node.keys = none → routesVia (.key k) routes = [])
    (keySome : ∀ k child, Node.lookup k node.keys = some child →
      Node.Represents child (routesVia (.key k) routes))
    (indexNone : ∀ i, Node.lookup i node.indices = none → routesVia (.index i) routes = [])
    (indexSome : ∀ i child, Node.lookup i node.indices = some child →
      Node.Represents child (routesVia (.index i) routes))
    (wildcardNone : node.wildcard = none → routesVia .wildcard routes = [])
    (wildcardSome : ∀ child, node.wildcard = some child →
      Node.Represents child (routesVia .wildcard routes)) :
    Node.Represents node routes

namespace Node

lemma lookup_upsert {κ : Type} [DecidableEq κ] (k k' : κ) (f : Node → Node)
    (children : List (κ × Node)) :
    lookup k' (upsert k f children) =
      if k = k' then some (f ((lookup k children).getD empty)) else lookup k' children := by
  induction children with
  | nil => by_cases h : k = k' <;> simp [upsert, lookup, h]
  | cons c rest ih =>
    obtain ⟨c, child⟩ := c
    by_cases hc : c = k
    · subst hc
      by_cases h : c = k' <;> simp [upsert, lookup, h]
    · by_cases hk : c = k'
      · subst hk
        simp [upsert, lookup, hc, Ne.symm hc]
      · simp only [upsert, hc, if_false]
        simp only [lookup, List.find?_cons, hk, hc, decide_false] at ih ⊢
        exact ih

lemma represents_empty : Represents empty [] := by
  refine .intro ?_ ?_ ?_ ?_ ?_ ?_ ?_ ?_ <;> simp [empty, lookup]

lemma routesVia_snoc (s segment : Segment) (routes : List Route) (id : ℕ) (rest : List Segment) :
    routesVia s (routes ++ [(id, segment :: rest)]) =
      routesVia s routes ++ (if segment = s then [(id, rest)] else []) := by
  rw [routesVia_append]
  by_cases hs : segment = s <;> simp [routesVia, hs]

section Children
variable {κ : Type} [DecidableEq κ] {toSegment : κ → Segment} {children : List (κ × Node)} {routes : List Route}

/-- The children of one kind stand for the routes that continue through them. -/
structure Matches (toSegment : κ → Segment) (children : List (κ × Node)) (routes : List Route) : Prop where
  absent : ∀ k, lookup k children = none → routesVia (toSegment k) routes = []
  present : ∀ k child, lookup k children = some child → Represents child (routesVia (toSegment k) routes)

/-- A route that goes through none of the children leaves them as they are. -/
lemma Matches.keep (h : Matches toSegment children routes) (id : ℕ) (segment : Segment) (rest : List Segment)
    (hother : ∀ k, segment ≠ toSegment k) : Matches toSegment children (routes ++ [(id, segment :: rest)]) := by
  have hvia : ∀ k, routesVia (toSegment k) (routes ++ [(id, segment :: rest)]) =
      routesVia (toSegment k) routes := by
    intro k
    rw [routesVia_snoc, if_neg (hother k), List.append_nil]
  constructor
  · intro k hk
    rw [hvia]
    exact h.absent k hk
  · intro k child hk
    rw [hvia]
    exact h.present k child hk

/-- A route that goes through a child is inserted into it, and the child is created if need be. -/
lemma Matches.insert (h : Matches toSegment children routes) (hinj : Function.Injective toSegment) (id : ℕ)
    {rest : List Segment} (k : κ) (hinsert : ∀ {node : Node} {routes : List Route}, Represents node routes →
      Represents (insertPath id rest node) (routes ++ [(id, rest)])) :
    Matches toSegment (upsert k (insertPath id rest) children) (routes ++ [(id, toSegment k :: rest)]) := by
  constructor
  · intro k' hk'
    rw [lookup_upsert] at hk'
    split_ifs at hk' with hkk
    have hother : toSegment k ≠ toSegment k' := fun heq => hkk (hinj heq)
    rw [routesVia_snoc, if_neg hother, h.absent k' hk', List.append_nil]
  · intro k' child hk'
    rw [lookup_upsert] at hk'
    rw [routesVia_snoc]
    split_ifs at hk' with hkk
    · subst hkk
      obtain rfl := Option.some.inj hk'
      rw [if_pos rfl]
      cases hl : lookup k children with
      | none =>
        rw [h.absent k hl]
        exact hinsert represents_empty
      | some c => exact hinsert (h.present k c hl)
    · have hother : toSegment k ≠ toSegment k' := fun heq => hkk (hinj heq)
      rw [if_neg hother, List.append_nil]
      exact h.present k' child hk'

end Children

/-- A path that ends at a node is recorded there and changes no child. -/
lemma represents_insertPath_nil (id : ℕ) {node : Node} {routes : List Route} (h : Represents node routes) :
    Represents (insertPath id [] node) (routes ++ [(id, [])]) := by
  obtain ⟨ht, hs, hkn, hks, hin, his, hwn, hws⟩ := h
  have hvia : ∀ s, routesVia s (routes ++ [(id, [])]) = routesVia s routes := by
    intro s
    rw [routesVia_append]
    simp [routesVia]
  refine .intro ?_ ?_ ?_ ?_ ?_ ?_ ?_ ?_
  · intro j; simp [insertPath, ht, eq_comm]
  · intro j; simp [insertPath, hs, exists_or, eq_comm]
  · intro k hk; rw [hvia]; exact hkn k hk
  · intro k child hk; rw [hvia]; exact hks k child hk
  · intro i hi; rw [hvia]; exact hin i hi
  · intro i child hi; rw [hvia]; exact his i child hi
  · intro hw; rw [hvia]; exact hwn hw
  · intro child hw; rw [hvia]; exact hws child hw

/-- The children after an insertion still match the routes, one case for each kind of segment
the new route begins with. -/
lemma represents_insertPath (id : ℕ) (segments : List Segment) {node : Node} {routes : List Route}
    (h : Represents node routes) :
    Represents (insertPath id segments node) (routes ++ [(id, segments)]) := by
  induction segments generalizing node routes with
  | nil => exact represents_insertPath_nil id h
  | cons segment rest ih =>
    obtain ⟨ht, hs, hkn, hks, hin, his, hwn, hws⟩ := h
    have hkeys : Matches .key node.keys routes := ⟨hkn, hks⟩
    have hindices : Matches .index node.indices routes := ⟨hin, his⟩
    have hterm : ∀ j, j ∈ (insertPath id (segment :: rest) node).terminals ↔
        (j, []) ∈ routes ++ [(id, segment :: rest)] := by
      intro j
      cases segment <;> simp [insertPath, ht]
    have hsub : ∀ j, j ∈ (insertPath id (segment :: rest) node).subtreeTerminals ↔
        ∃ r, (j, r) ∈ routes ++ [(id, segment :: rest)] := by
      intro j
      cases segment <;> simp [insertPath, hs, exists_or, eq_comm]
    have hwild : segment ≠ .wildcard →
        routesVia .wildcard (routes ++ [(id, segment :: rest)]) = routesVia .wildcard routes := by
      intro hne
      rw [routesVia_snoc, if_neg hne, List.append_nil]
    cases segment with
    | key k =>
      have hkeys := hkeys.insert (fun _ _ => Segment.key.inj) id k ih
      have hindices := hindices.keep id (.key k) rest (by simp)
      refine .intro hterm hsub hkeys.absent hkeys.present hindices.absent hindices.present ?_ ?_
      · rw [hwild (by simp)]
        exact hwn
      · rw [hwild (by simp)]
        exact hws
    | index i =>
      have hkeys := hkeys.keep id (.index i) rest (by simp)
      have hindices := hindices.insert (fun _ _ => Segment.index.inj) id i ih
      refine .intro hterm hsub hkeys.absent hkeys.present hindices.absent hindices.present ?_ ?_
      · rw [hwild (by simp)]
        exact hwn
      · rw [hwild (by simp)]
        exact hws
    | wildcard =>
      have hkeys := hkeys.keep id .wildcard rest (by simp)
      have hindices := hindices.keep id .wildcard rest (by simp)
      refine .intro hterm hsub hkeys.absent hkeys.present hindices.absent hindices.present ?_ ?_
      · intro hw
        simp [insertPath] at hw
      · intro child hw
        obtain rfl := Option.some.inj hw
        rw [routesVia_snoc, if_pos rfl]
        cases hnode : node.wildcard with
        | none =>
          rw [hwn hnode]
          exact ih represents_empty
        | some c => exact ih (hws c hnode)

end Node

/-- The routes of a list of paths. -/
def routesOf (paths : List Path) : List Route :=
  paths.zipIdx.map (fun p => (p.2, p.1.segments))

theorem Projection.represents_build (paths : List Path) :
    (Projection.build paths).root.Represents (routesOf paths) := by
  have hfold : ∀ (ps : List (Path × ℕ)) (node : Node) (routes : List Route),
      node.Represents routes →
      (ps.foldl (fun node p => node.insertPath p.2 p.1.segments) node).Represents
        (routes ++ ps.map (fun p => (p.2, p.1.segments))) := by
    intro ps
    induction ps with
    | nil => intro node routes h; simpa using h
    | cons p ps ih =>
      intro node routes h
      have := ih _ _ (Node.represents_insertPath p.2 p.1.segments h)
      simpa using this
  simpa [Projection.build, routesOf] using hfold paths.zipIdx .empty [] Node.represents_empty

lemma mem_routesOf {paths : List Path} {id : ℕ} {segments : List Segment} :
    (id, segments) ∈ routesOf paths ↔ ∃ h : id < paths.length, paths[id].segments = segments := by
  simp only [routesOf, List.mem_map, Prod.mk.injEq, Prod.exists]
  constructor
  · rintro ⟨p, i, hm, rfl, rfl⟩
    obtain ⟨hi, hp⟩ := List.mem_zipIdx_iff_getElem?.mp hm |> List.getElem?_eq_some_iff.mp
    exact ⟨hi, by rw [hp]⟩
  · rintro ⟨h, rfl⟩
    exact ⟨paths[id], id, List.mem_zipIdx_iff_getElem?.mpr (List.getElem?_eq_getElem h), rfl, rfl⟩

end CloudTrailFilter.Filter
