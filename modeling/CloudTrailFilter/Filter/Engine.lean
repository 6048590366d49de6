import CloudTrailFilter.Filter.Index
import CloudTrailFilter.Filter.Projection

/-!
# The rule engine

`Engine.new` compiles a `RuleSet`; `evaluateLinear` tries every rule in order and `evaluate`
only the candidates of the rule index. The file ends with the agreement of the two.
-/

namespace CloudTrailFilter.Filter
open Json Fallible

inductive Decision where
  | keep
  | drop (ruleIdx : ℕ)
deriving DecidableEq, Repr

/-- What a condition tests once its path has been resolved. -/
inductive Op where
  | regex (re : Regex)
  | equals (want : String)
  | anyOf (set : List String)
  | absent (wantAbsent : Bool)

structure CompiledMatch where
  path : Path
  op : Op
  negate : Bool
  pathId : ℕ

structure CompiledRule where
  name : String
  «matches» : List CompiledMatch

structure Engine where
  rules : List CompiledRule
  index : RuleIndex
  projection : Projection
  eventSourceSlot : ℕ
  eventNameSlot : ℕ

def selectivityRank (pattern : String) : ℕ :=
  if ".*".toList <+: pattern.toList ∨ "^.*".toList <+: pattern.toList then 1 else 0

def CompiledMatch.rank (m : CompiledMatch) : ℕ :=
  match m.op with
  | .regex re => selectivityRank re.pattern
  | .equals _ | .anyOf _ | .absent _ => 0

/-- Whether a path is exactly the single top-level key `field`. -/
def isSingleKey (path : Path) (field : String) : Bool :=
  path.segments = [.key field]

/-- The literals a rule's conditions restrict `field` to. A negated condition says which
values must not appear, which excludes nothing. -/
def indexLiterals (ms : List CompiledMatch) (field : String) : Option (List String) :=
  (ms.find? (fun m => !m.negate && isSingleKey m.path field)).bind (fun m =>
    match m.op with
    | .regex re => extractLiterals re.pattern
    | .equals s => some [s]
    | .anyOf set => some (set.insertionSort (· ≤ ·))
    | .absent _ => none)

section Compile
variable (B : RulesBackend)

def compileOp (rule : String) : MatchOp → Except ConfigError Op
  | .regex pattern => do
    let re ← compileRegex B rule pattern
    .ok (.regex re)
  | .equals s => .ok (.equals s)
  | .anyOf v => .ok (.anyOf v.dedup)
  | .absent b => .ok (.absent b)

/-- A v1 field lowers to literal keys, a v2 field goes through the path parser. -/
def compilePath (major : ℕ) (rule field : String) : Except ConfigError Path :=
  if major = 1 then .ok (literalPath field)
  else
    match parsePath field with
    | .ok path => .ok path
    | .error e => .error (.invalidPath rule field e)

def compileMatch (major : ℕ) (rule : String) (m : Match) : Except ConfigError CompiledMatch := do
  let op ← compileOp B rule m.op
  let path ← compilePath major rule m.field
  .ok ⟨path, op, m.negate, 0⟩

def compileRule (major : ℕ) (rule : Rule) : Except ConfigError CompiledRule := do
  let ms ← rule.matches.mapM (compileMatch B major rule.name)
  .ok ⟨rule.name, ms.insertionSort (fun a b => a.rank ≤ b.rank)⟩

/-- The slot of a path: the one of an equal path seen before, or a new one. -/
def intern (paths : List Path) (path : Path) : List Path × ℕ :=
  if path ∈ paths then (paths, paths.idxOf path) else (paths ++ [path], paths.length)

def internMatches (paths : List Path) : List CompiledMatch → List Path × List CompiledMatch
  | [] => (paths, [])
  | m :: ms =>
    let (paths, id) := intern paths m.path
    let (paths, ms) := internMatches paths ms
    (paths, { m with pathId := id } :: ms)

def internRules (paths : List Path) : List CompiledRule → List Path × List CompiledRule
  | [] => (paths, [])
  | r :: rules =>
    let (paths, ms) := internMatches paths r.matches
    let (paths, rules) := internRules paths rules
    (paths, { r with «matches» := ms } :: rules)

/-- `parse_path(field).expect(..)` for the two index keys. -/
def keyPath (field : String) : Path :=
  match parsePath field with
  | .ok path => path
  | .error _ => ⟨[]⟩

def ruleKeys (rule : CompiledRule) : RuleKeys :=
  ⟨indexLiterals rule.matches "eventSource", indexLiterals rule.matches "eventName"⟩

/-- The engine over compiled rules: path interning, the projection and the index. -/
def Engine.assemble (compiled : List CompiledRule) : Engine :=
  let (paths, rules) := internRules [] compiled
  let (paths, eventSourceSlot) := intern paths (keyPath "eventSource")
  let (paths, eventNameSlot) := intern paths (keyPath "eventName")
  { rules := rules
    index := .build (rules.map ruleKeys)
    projection := .build paths
    eventSourceSlot := eventSourceSlot
    eventNameSlot := eventNameSlot }

/-- The version is one the loader has validated; an unreadable one is a panic of the source
and an error here. -/
def Engine.new (rs : RuleSet) : Except ConfigError Engine :=
  match B.semverMajor rs.version with
  | .error e => .error (.invalidVersion rs.version e)
  | .ok major => do
    let compiled ← rs.rules.mapM (compileRule B major)
    .ok (Engine.assemble compiled)

end Compile

def Op.holds (op : Op) (path : Path) (record : Value) : Bool :=
  match op with
  | .regex re => anyValue record path re.isMatch
  | .equals want => anyValue record path (fun v => v = want)
  | .anyOf set => anyValue record path (fun v => v ∈ set)
  | .absent wantAbsent => anyValue record path (fun _ => true) != wantAbsent

def matchFires (m : CompiledMatch) (record : Value) : Bool :=
  m.op.holds m.path record != m.negate

/-- The first index of `0..n` a test accepts, as a decision. -/
def firstFiring (n : ℕ) (fires : ℕ → Bool) : Decision :=
  match (List.range n).find? fires with
  | some ruleIdx => .drop ruleIdx
  | none => .keep

lemma firstFiring_congr {n : ℕ} {f g : ℕ → Bool} (h : ∀ i < n, f i = g i) :
    firstFiring n f = firstFiring n g := by
  have hfind : ∀ l : List ℕ, (∀ i ∈ l, f i = g i) → l.find? f = l.find? g := by
    intro l hl
    induction l with
    | nil => rfl
    | cons i l ih =>
      rw [List.find?_cons, List.find?_cons, hl i (by simp), ih (fun j hj => hl j (by simp [hj]))]
  rw [firstFiring, firstFiring, hfind _ (fun i hi => h i (List.mem_range.mp hi))]

namespace Engine

def ruleName (engine : Engine) (ruleIdx : ℕ) : String :=
  (engine.rules[ruleIdx]?).elim "" (·.name)

def ruleFires (engine : Engine) (ruleIdx : ℕ) (record : Value) : Bool :=
  (engine.rules[ruleIdx]?).any (fun rule => rule.matches.all (matchFires · record))

def evaluateLinear (engine : Engine) (record : Value) : Decision :=
  firstFiring engine.rules.length (engine.ruleFires · record)

def evaluate (engine : Engine) (record : Value) : Decision :=
  let candidates := engine.index.candidatesFor (resolve record "eventSource")
    (resolve record "eventName")
  firstFiring engine.index.ruleCount (fun ruleIdx =>
    candidates.permits ruleIdx && engine.ruleFires ruleIdx record)

end Engine

/-- What an engine's own construction guarantees: the index is the one of its rules, and
the projection has a slot for each path, at the id the conditions carry. -/
structure Engine.Built (engine : Engine) : Prop where
  index_eq : engine.index = .build (engine.rules.map ruleKeys)
  slots : ∃ paths, engine.projection = .build paths ∧
    (∀ rule ∈ engine.rules, ∀ m ∈ rule.matches, paths[m.pathId]? = some m.path) ∧
    paths[engine.eventSourceSlot]? = some (keyPath "eventSource") ∧
    paths[engine.eventNameSlot]? = some (keyPath "eventName")

section Intern

lemma intern_get (paths : List Path) (path : Path) :
    (intern paths path).1[(intern paths path).2]? = some path := by
  by_cases h : path ∈ paths
  · simp only [intern, h, if_true]
    rw [List.getElem?_eq_getElem (List.idxOf_lt_length_iff.mpr h), List.getElem_idxOf]
  · simp [intern, h]

lemma intern_extends (paths : List Path) (path : Path) : paths <+: (intern paths path).1 := by
  by_cases h : path ∈ paths
  · simp [intern, h]
  · simp [intern, h]

lemma get_of_extends {paths paths' : List Path} (h : paths <+: paths') {id : ℕ} {path : Path}
    (hid : paths[id]? = some path) : paths'[id]? = some path := by
  obtain ⟨t, rfl⟩ := h
  obtain ⟨hlt, -⟩ := List.getElem?_eq_some_iff.mp hid
  rw [List.getElem?_append_left hlt, hid]

lemma internMatches_spec (paths : List Path) (ms : List CompiledMatch) :
    paths <+: (internMatches paths ms).1 ∧
      ∀ m ∈ (internMatches paths ms).2, (internMatches paths ms).1[m.pathId]? = some m.path := by
  induction ms generalizing paths with
  | nil => simp [internMatches]
  | cons m ms ih =>
    obtain ⟨hpre, hget⟩ := ih (intern paths m.path).1
    simp only [internMatches]
    refine ⟨(intern_extends paths m.path).trans hpre, ?_⟩
    intro m' hm'
    rcases List.mem_cons.mp hm' with rfl | hm'
    · exact get_of_extends hpre (intern_get paths m.path)
    · exact hget m' hm'

lemma internRules_spec (paths : List Path) (rules : List CompiledRule) :
    paths <+: (internRules paths rules).1 ∧
      ∀ r ∈ (internRules paths rules).2, ∀ m ∈ r.matches,
        (internRules paths rules).1[m.pathId]? = some m.path := by
  induction rules generalizing paths with
  | nil => simp [internRules]
  | cons r rules ih =>
    obtain ⟨hpre, hget⟩ := ih (internMatches paths r.matches).1
    obtain ⟨hpre', hget'⟩ := internMatches_spec paths r.matches
    simp only [internRules]
    refine ⟨hpre'.trans hpre, ?_⟩
    intro r' hr'
    rcases List.mem_cons.mp hr' with rfl | hr'
    · exact fun m hm => get_of_extends hpre (hget' m hm)
    · exact hget r' hr'

/-- Interning assigns slots and changes nothing else. -/
lemma mem_internMatches {paths : List Path} {ms : List CompiledMatch} {m : CompiledMatch}
    (h : m ∈ (internMatches paths ms).2) :
    ∃ m' ∈ ms, m.path = m'.path ∧ m.op = m'.op ∧ m.negate = m'.negate := by
  induction ms generalizing paths with
  | nil => simp [internMatches] at h
  | cons m₀ ms ih =>
    simp only [internMatches, List.mem_cons] at h
    rcases h with rfl | h
    · exact ⟨m₀, by simp, rfl, rfl, rfl⟩
    · obtain ⟨m', hm', hp⟩ := ih h
      exact ⟨m', by simp [hm'], hp⟩

lemma mem_internRules {paths : List Path} {rules : List CompiledRule} {r : CompiledRule}
    (h : r ∈ (internRules paths rules).2) :
    ∃ r' ∈ rules, ∀ m ∈ r.matches, ∃ m' ∈ r'.matches, m.op = m'.op := by
  induction rules generalizing paths with
  | nil => simp [internRules] at h
  | cons r₀ rules ih =>
    simp only [internRules, List.mem_cons] at h
    rcases h with rfl | h
    · refine ⟨r₀, by simp, fun m hm => ?_⟩
      obtain ⟨m', hm', -, hop, -⟩ := mem_internMatches hm
      exact ⟨m', hm', hop⟩
    · obtain ⟨r', hr', hm⟩ := ih h
      exact ⟨r', by simp [hr'], hm⟩

end Intern

theorem Engine.assemble_built (compiled : List CompiledRule) : (Engine.assemble compiled).Built := by
  obtain ⟨-, hrules⟩ := internRules_spec [] compiled
  refine ⟨rfl, _, rfl, ?_, ?_, ?_⟩
  · intro rule hrule m hm
    exact get_of_extends ((intern_extends _ _).trans (intern_extends _ _)) (hrules rule hrule m hm)
  · exact get_of_extends (intern_extends _ _) (intern_get _ _)
  · exact intern_get _ _

section Correctness
variable (B : RulesBackend)

theorem Engine.new_built {rs : RuleSet} {engine : Engine} (h : Engine.new B rs = .ok engine) :
    engine.Built := by
  unfold Engine.new at h
  cases hv : B.semverMajor rs.version with
  | error e => simp [hv] at h
  | ok major =>
    simp only [hv] at h
    obtain ⟨compiled, -, h⟩ := bind_ok_iff.mp h
    cases h
    exact Engine.assemble_built compiled

lemma compileMatch_ok {major : ℕ} {rule : Rule} (hv : rule.Valid B major) {m : Match}
    (hm : m ∈ rule.matches) : ∃ c, compileMatch B major rule.name m = .ok c := by
  have hop : ∃ op, compileOp B rule.name m.op = .ok op := by
    cases h : m.op with
    | regex pattern =>
      obtain ⟨f, hf⟩ := hv.regex_ok m hm pattern h
      exact ⟨.regex ⟨pattern, f⟩, by simp [compileOp, compileRegex, hf]⟩
    | equals s => exact ⟨_, rfl⟩
    | anyOf v => exact ⟨_, rfl⟩
    | absent b => exact ⟨_, rfl⟩
  have hpath : ∃ p, compilePath major rule.name m.field = .ok p := by
    by_cases h1 : major = 1
    · exact ⟨literalPath m.field, by simp [compilePath, h1]⟩
    · obtain ⟨p, hp⟩ := hv.path_ok h1 m hm
      exact ⟨p, by simp [compilePath, h1, hp]⟩
  obtain ⟨op, hop⟩ := hop
  obtain ⟨p, hp⟩ := hpath
  exact ⟨⟨p, op, m.negate, 0⟩, by simp [compileMatch, hop, hp]⟩

/-- A ruleset the loader accepted always builds. -/
theorem Engine.new_of_parse {bytes : List UInt8} {rs : RuleSet}
    (h : RuleSet.parse B bytes = .ok rs) : ∃ engine, Engine.new B rs = .ok engine := by
  obtain ⟨major, hmajor, -, hvalid⟩ := RuleSet.parse_ok B h
  have hrules : ∃ compiled, rs.rules.mapM (compileRule B major) = .ok compiled := by
    apply mapM_ok_of_forall
    intro rule hrule
    obtain ⟨ms, hms⟩ := mapM_ok_of_forall (fun m hm => compileMatch_ok B (hvalid rule hrule) hm)
    exact ⟨_, by rw [compileRule, hms]; rfl⟩
  obtain ⟨compiled, hc⟩ := hrules
  exact ⟨Engine.assemble compiled, by simp [Engine.new, hmajor, hc]⟩

/-- Every regex of the engine is the compilation of a regex condition of the ruleset. -/
lemma Engine.new_regex {rs : RuleSet} {engine : Engine} (h : Engine.new B rs = .ok engine)
    {rule : CompiledRule} (hr : rule ∈ engine.rules) {m : CompiledMatch} (hm : m ∈ rule.matches)
    {re : Regex} (hre : m.op = .regex re) :
    ∃ r ∈ rs.rules, ∃ m' ∈ r.matches, m'.op = .regex re.pattern ∧
      B.regexBuild re.pattern = .ok re.isMatch := by
  unfold Engine.new at h
  cases hv : B.semverMajor rs.version with
  | error e => simp [hv] at h
  | ok major =>
    simp only [hv] at h
    obtain ⟨compiled, hc, h⟩ := bind_ok_iff.mp h
    cases h
    obtain ⟨cr, hcr, hops⟩ := mem_internRules hr
    obtain ⟨cm, hcm, hop⟩ := hops m hm
    obtain ⟨i, hi, rfl⟩ := List.mem_iff_getElem.mp hcr
    have hall := mapM_ok_iff.mp hc
    have hi' : i < rs.rules.length := by rw [hall.length_eq]; exact hi
    have hrule := hall.get hi' hi
    obtain ⟨ms, hms, hrule⟩ := bind_ok_iff.mp hrule
    have hmatches : compiled[i].matches = ms.insertionSort (fun a b => a.rank ≤ b.rank) := by
      have := congrArg CompiledRule.matches (Except.ok.inj hrule)
      simpa using this.symm
    rw [hmatches, (List.perm_insertionSort _ ms).mem_iff] at hcm
    obtain ⟨j, hj, rfl⟩ := List.mem_iff_getElem.mp hcm
    have hallm := mapM_ok_iff.mp hms
    have hj' : j < rs.rules[i].matches.length := by rw [← List.get_eq_getElem (i := ⟨i, hi'⟩), hallm.length_eq]; exact hj
    have hmatch := hallm.get hj' hj
    obtain ⟨op, hcop, hmatch⟩ := bind_ok_iff.mp hmatch
    obtain ⟨path, -, hmatch⟩ := bind_ok_iff.mp hmatch
    have hopeq : ms[j].op = op := by
      have := congrArg CompiledMatch.op (Except.ok.inj hmatch)
      simpa using this.symm
    refine ⟨rs.rules[i], by simp, rs.rules[i].matches[j], by simp, ?_⟩
    rw [hop, hopeq] at hre
    subst hre
    simp only [List.get_eq_getElem] at hcop
    cases hmo : rs.rules[i].matches[j].op with
    | regex pattern =>
      rw [hmo] at hcop
      obtain ⟨re', hre', hcop⟩ := bind_ok_iff.mp hcop
      cases hcop
      unfold compileRegex at hre'
      cases hb : B.regexBuild pattern with
      | error e => simp [hb] at hre'
      | ok f =>
        simp only [hb, Except.ok.injEq] at hre'
        subst hre'
        exact ⟨rfl, hb⟩
    | equals s => rw [hmo] at hcop; simp [compileOp] at hcop
    | anyOf v => rw [hmo] at hcop; simp [compileOp] at hcop
    | absent b => rw [hmo] at hcop; simp [compileOp] at hcop

end Correctness

section Agreement

/-- No regex of the engine matches a string outside its extracted literals. -/
def Engine.LiteralsSound (engine : Engine) : Prop :=
  ∀ rule ∈ engine.rules, ∀ m ∈ rule.matches, ∀ re, m.op = .regex re →
    ∀ L, extractLiterals re.pattern = some L → ∀ s, re.isMatch s = true → s ∈ L

lemma firstValue_singleKey {path : Path} {field : String} (h : isSingleKey path field = true)
    (hfield : splitDots field = [field]) (record : Value) :
    firstValue record path = resolve record field := by
  rw [← firstValue_literalPath, literalPath, hfield]
  obtain ⟨segments⟩ := path
  simp only [isSingleKey, decide_eq_true_eq] at h
  rw [h]
  rfl

/-- A condition that holds on a value restricts it to the literals the index uses. -/
lemma Op.holds_admits {m : CompiledMatch} {field : String} (hkey : isSingleKey m.path field = true)
    (hfield : splitDots field = [field]) {record : Value} (hneg : m.negate = false)
    (hfires : matchFires m record = true)
    (hsound : ∀ re, m.op = .regex re → ∀ L, extractLiterals re.pattern = some L →
      ∀ s, re.isMatch s = true → s ∈ L) :
    Admits (indexLiterals [m] field) (resolve record field) := by
  intro L v hL hv
  have hwf : m.path.wildcardFree := by
    simp only [isSingleKey, decide_eq_true_eq] at hkey
    simp [Path.wildcardFree, hkey]
  have hfirst := firstValue_singleKey hkey hfield record
  rw [hv] at hfirst
  have hany : ∀ p, anyValue record m.path p = p v := by
    intro p
    rw [anyValue_wildcardFree hwf, hfirst]
    rfl
  simp only [matchFires, hneg, bne_iff_ne, ne_eq, Bool.not_eq_false] at hfires
  simp only [indexLiterals, hneg, hkey, List.find?_cons, Bool.not_false, Bool.true_and,
    Option.bind_some] at hL
  cases hop : m.op with
  | regex re =>
    simp only [hop, Op.holds, hany] at hfires hL
    exact hsound re hop L hL v hfires
  | equals want =>
    simp only [hop, Op.holds, hany, decide_eq_true_eq, Option.some.injEq] at hfires hL
    simp [← hL, hfires]
  | anyOf set =>
    simp only [hop, Op.holds, hany, decide_eq_true_eq, Option.some.injEq] at hfires hL
    rw [← hL, (List.perm_insertionSort _ set).mem_iff]
    exact hfires
  | absent b => simp [hop] at hL

lemma indexLiterals_of_find {ms : List CompiledMatch} {field : String} {m : CompiledMatch}
    (h : ms.find? (fun m => !m.negate && isSingleKey m.path field) = some m) :
    indexLiterals ms field = indexLiterals [m] field := by
  have hm := List.find?_some h
  simp [indexLiterals, h, hm]

/-- A rule that fires on a record never contradicts it on an index key. -/
lemma admits_of_fires {ms : List CompiledMatch} {field : String} (hfield : splitDots field = [field])
    {record : Value} (hfires : ms.all (matchFires · record) = true)
    (hsound : ∀ m ∈ ms, ∀ re, m.op = .regex re → ∀ L, extractLiterals re.pattern = some L →
      ∀ s, re.isMatch s = true → s ∈ L) :
    Admits (indexLiterals ms field) (resolve record field) := by
  cases hf : ms.find? (fun m => !m.negate && isSingleKey m.path field) with
  | none =>
    intro L v hL
    simp [indexLiterals, hf] at hL
  | some m =>
    rw [indexLiterals_of_find hf]
    have hmem := List.mem_of_find?_eq_some hf
    have hm := List.find?_some hf
    simp only [Bool.and_eq_true, Bool.not_eq_true'] at hm
    exact Op.holds_admits hm.2 hfield hm.1 (List.all_eq_true.mp hfires m hmem) (hsound m hmem)

lemma splitDots_eventSource : splitDots "eventSource" = ["eventSource"] := by decide

lemma splitDots_eventName : splitDots "eventName" = ["eventName"] := by decide

/-- Indexed and linear evaluation agree on every engine whose extracted literals are sound. -/
theorem Engine.evaluate_of_sound {engine : Engine} (hbuilt : engine.Built)
    (hsound : engine.LiteralsSound) (record : Value) :
    engine.evaluate record = engine.evaluateLinear record := by
  have hcount : engine.index.ruleCount = engine.rules.length := by
    rw [hbuilt.index_eq]
    simp [RuleIndex.build]
  simp only [evaluate, evaluateLinear]
  rw [← hcount]
  apply firstFiring_congr
  intro i hi
  rw [hcount] at hi
  cases hfires : engine.ruleFires i record with
  | false => simp
  | true =>
    rw [Bool.and_true]
    rw [ruleFires, List.getElem?_eq_getElem hi, Option.any_some] at hfires
    have hmem : engine.rules[i] ∈ engine.rules := List.getElem_mem hi
    have hs := hsound _ hmem
    rw [hbuilt.index_eq]
    refine RuleIndex.permits_of_admits _ _ _ (by simpa using hi) ?_ ?_
    · simpa [ruleKeys] using admits_of_fires splitDots_eventSource hfires hs
    · simpa [ruleKeys] using admits_of_fires splitDots_eventName hfires hs

/-- The rule index never changes a decision, the index of the firing rule included. -/
theorem evaluate_eq_evaluateLinear (B : RulesBackend) {bytes : List UInt8} {rs : RuleSet}
    (hparse : RuleSet.parse B bytes = .ok rs)
    (hliterals : ∀ rule ∈ rs.rules, ∀ m ∈ rule.matches, ∀ pattern, m.op = .regex pattern →
      ∀ isMatch, B.regexBuild pattern = .ok isMatch → ∀ L, extractLiterals pattern = some L →
      ∀ s, isMatch s = true → s ∈ L) :
    ∃ engine, Engine.new B rs = .ok engine ∧
      ∀ record, engine.evaluate record = engine.evaluateLinear record := by
  obtain ⟨engine, hnew⟩ := Engine.new_of_parse B hparse
  refine ⟨engine, hnew, Engine.evaluate_of_sound (Engine.new_built B hnew) ?_⟩
  intro rule hrule m hm re hre L hL s hs
  obtain ⟨r, hr, m', hm', hop, hbuild⟩ := Engine.new_regex B hnew hrule hm hre
  exact hliterals r hr m' hm' re.pattern hop re.isMatch hbuild L hL s hs

/-- A v2 document with every operator, as the YAML reader hands it over. -/
def sampleRules : RuleSet :=
  ⟨"2.0.0", [
    ⟨"decrypt", [⟨"eventSource", .anyOf ["kms.amazonaws.com", "s3.amazonaws.com"], false⟩,
      ⟨"eventName", .regex "^Decrypt$", false⟩, ⟨"eventName", .equals "Encrypt", true⟩]⟩,
    ⟨"anonymous", [⟨"userIdentity.type", .absent true, false⟩]⟩]⟩

def sampleWireRule (rule : Rule) : WireRuleV2 :=
  ⟨rule.name, rule.matches.map (fun m =>
    match m.op with
    | .regex p => ⟨m.field, some p, none, none, none, m.negate⟩
    | .equals s => ⟨m.field, none, some s, none, none, m.negate⟩
    | .anyOf v => ⟨m.field, none, none, some v, none, m.negate⟩
    | .absent b => ⟨m.field, none, none, none, some b, m.negate⟩)⟩

def sampleBackend : RulesBackend where
  Yaml := Rule
  yamlRuleSet _ := .ok ⟨sampleRules.version, sampleRules.rules⟩
  yamlRuleV1 _ := .error "missing field `field_name`"
  yamlRuleV2 rule := .ok (sampleWireRule rule)
  semverMajor version := if version = "2.0.0" then .ok 2 else .error "unexpected end of input"
  regexBuild pattern :=
    if pattern = "^Decrypt$" then .ok (fun s => s = "Decrypt") else .error "regex parse error"

lemma sampleRules_parse : RuleSet.parse sampleBackend [] = .ok sampleRules := by rfl

theorem evaluate_eq_evaluateLinear_sample :
    ∃ engine, Engine.new sampleBackend sampleRules = .ok engine ∧
      ∀ record, engine.evaluate record = engine.evaluateLinear record := by
  refine evaluate_eq_evaluateLinear sampleBackend sampleRules_parse ?_
  have hlit : extractLiterals "^Decrypt$" = some ["Decrypt"] := by decide
  intro rule hrule m hm pattern hop isMatch hbuild L hL s hs
  by_cases hp : pattern = "^Decrypt$"
  · subst hp
    simp only [sampleBackend, if_true, Except.ok.injEq] at hbuild
    subst hbuild
    rw [hlit, Option.some.injEq] at hL
    simpa [← hL] using hs
  · simp [sampleBackend, hp] at hbuild

end Agreement

end CloudTrailFilter.Filter
