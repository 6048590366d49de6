import CloudTrailFilter.Filter.Engine

/-!
# What a ruleset means

A rule drops a record when all its conditions hold of the scalars its fields reach, whatever the order
they are written in. Compiling a ruleset keeps this meaning: the sorting of the conditions by
selectivity, the interning of their paths and the index only make it faster. What is kept depends on
the set of rules alone; their order decides which rule a drop is attributed to.
-/

namespace CloudTrailFilter.Filter
open Json Fallible

section Meaning
variable (B : RulesBackend) (major : ℕ)

/-- The path of a field: literal keys in version 1, the parsed path after it. -/
def fieldPath (field : String) : Path := if major = 1 then literalPath field else keyPath field

/-- The condition without its negation, on the scalars its field reaches. -/
def MatchOp.Holds (op : MatchOp) (texts : List String) : Prop :=
  match op with
  | .regex pattern => ∃ isMatch, B.regexBuild pattern = .ok isMatch ∧ ∃ text ∈ texts, isMatch text = true
  | .equals s => s ∈ texts
  | .anyOf v => ∃ text ∈ texts, text ∈ v
  | .absent b => texts = [] ↔ b = true

def Match.Holds (m : Match) (record : Value) : Prop :=
  m.op.Holds B (reached (fieldPath major m.field).segments record) ↔ m.negate = false

def Rule.Drops (rule : Rule) (record : Value) : Prop := ∀ m ∈ rule.matches, m.Holds B major record

end Meaning

section Compiled
variable {B : RulesBackend} {major : ℕ}

/-- A compiled condition is about the same scalars and fires when the condition holds. -/
lemma compileMatch_fires {rule : String} {m : Match} {c : CompiledMatch} (h : compileMatch B major rule m = .ok c)
    (record : Value) : matchFires c record = true ↔ m.Holds B major record := by
  obtain ⟨op, hop, h⟩ := bind_ok_iff.mp h
  obtain ⟨path, hpath, h⟩ := bind_ok_iff.mp h
  cases h
  have hfield : path = fieldPath major m.field := by
    unfold compilePath at hpath
    unfold fieldPath keyPath
    split_ifs at hpath ⊢ with hone
    · exact (Except.ok.inj hpath).symm
    · cases hparse : parsePath m.field with
      | error e => simp [hparse] at hpath
      | ok p =>
        rw [hparse] at hpath
        exact (Except.ok.inj hpath).symm
  subst hfield
  have hholds : op.holds (fieldPath major m.field) record = true ↔
      m.op.Holds B (reached (fieldPath major m.field).segments record) := by
    generalize fieldPath major m.field = path
    cases hmop : m.op with
    | regex pattern =>
      rw [hmop] at hop
      obtain ⟨re, hre, hop⟩ := bind_ok_iff.mp hop
      cases hop
      unfold compileRegex at hre
      cases hbuild : B.regexBuild pattern with
      | error e => simp [hbuild] at hre
      | ok isMatch =>
        rw [hbuild] at hre
        cases hre
        simp [Op.holds, anyValue_eq, MatchOp.Holds, hbuild]
    | equals s =>
      rw [hmop] at hop
      cases hop
      simp [Op.holds, anyValue_eq, MatchOp.Holds]
    | anyOf v =>
      rw [hmop] at hop
      cases hop
      simp [Op.holds, anyValue_eq, MatchOp.Holds]
    | absent b =>
      rw [hmop] at hop
      cases hop
      simp only [Op.holds, anyValue_eq, MatchOp.Holds]
      cases b <;> cases reached path.segments record <;> simp
  unfold matchFires Match.Holds
  rw [← hholds]
  cases op.holds (fieldPath major m.field) record <;> cases m.negate <;> simp

/-- A compiled rule fires when the rule drops: the order of its conditions does not matter. -/
lemma compileRule_fires {rule : Rule} {c : CompiledRule} (h : compileRule B major rule = .ok c) (record : Value) :
    c.matches.all (matchFires · record) = true ↔ rule.Drops B major record := by
  obtain ⟨ms, hms, h⟩ := bind_ok_iff.mp h
  cases h
  have hall := mapM_ok_iff.mp hms
  simp only [List.all_eq_true, (List.perm_insertionSort _ ms).mem_iff, Rule.Drops]
  generalize rule.matches = matches' at hall
  clear hms h
  induction hall with
  | nil => simp
  | cons hm _ ih => simp [compileMatch_fires hm record, ih]

lemma matchFires_congr {m m' : CompiledMatch} (hpath : m.path = m'.path) (hop : m.op = m'.op)
    (hnegate : m.negate = m'.negate) (record : Value) : matchFires m record = matchFires m' record := by
  unfold matchFires
  rw [hpath, hop, hnegate]

lemma internMatches_fires (paths : List Path) (ms : List CompiledMatch) (record : Value) :
    (internMatches paths ms).2.all (matchFires · record) = ms.all (matchFires · record) := by
  induction ms generalizing paths with
  | nil => rfl
  | cons m ms ih =>
    simp only [internMatches, List.all_cons, ih]
    exact congrArg (· && _) (matchFires_congr rfl rfl rfl record)

lemma internRules_fires (paths : List Path) (rules : List CompiledRule) (record : Value) :
    (internRules paths rules).2.map (fun rule => rule.matches.all (matchFires · record)) =
      rules.map (fun rule => rule.matches.all (matchFires · record)) := by
  induction rules generalizing paths with
  | nil => rfl
  | cons rule rules ih => simp [internRules, internMatches_fires, ih]

/-- Rule by rule, what the engine tests is whether the rule drops. -/
lemma ruleFires_iff {rs : RuleSet} {engine : Engine} (h : Engine.new B rs = .ok engine)
    (hmajor : B.semverMajor rs.version = .ok major) :
    engine.rules.length = rs.rules.length ∧ ∀ (i : ℕ) (record : Value),
      engine.ruleFires i record = true ↔ ∃ rule, rs.rules[i]? = some rule ∧ rule.Drops B major record := by
  unfold Engine.new at h
  rw [hmajor] at h
  obtain ⟨compiled, hcompiled, h⟩ := bind_ok_iff.mp h
  cases h
  have hall := mapM_ok_iff.mp hcompiled
  have hrules : (Engine.assemble compiled).rules = (internRules [] compiled).2 := rfl
  have hfires : ∀ record, (Engine.assemble compiled).rules.map (fun rule => rule.matches.all (matchFires · record)) =
      compiled.map (fun rule => rule.matches.all (matchFires · record)) :=
    fun record => internRules_fires [] compiled record
  have hlength : (Engine.assemble compiled).rules.length = compiled.length := by
    have := congrArg List.length (hfires .null)
    simpa using this
  refine ⟨hlength.trans hall.length_eq.symm, fun i record => ?_⟩
  have hget := congrArg (fun l => l[i]?) (hfires record)
  simp only [List.getElem?_map] at hget
  have hfire : (Engine.assemble compiled).ruleFires i record =
      (compiled[i]?).any (fun rule => rule.matches.all (matchFires · record)) := by
    unfold Engine.ruleFires
    cases hleft : (Engine.assemble compiled).rules[i]? <;> cases hright : compiled[i]? <;>
      simp_all
  rw [hfire]
  by_cases hi : i < compiled.length
  · have hi' : i < rs.rules.length := by rw [hall.length_eq]; exact hi
    have hrule := hall.get hi' hi
    simp only [List.get_eq_getElem] at hrule
    rw [List.getElem?_eq_getElem hi, List.getElem?_eq_getElem hi', Option.any_some, compileRule_fires hrule]
    simp
  · have hi' : ¬ i < rs.rules.length := by rw [hall.length_eq]; exact hi
    rw [List.getElem?_eq_none (by omega), List.getElem?_eq_none (by omega)]
    simp

lemma firstFiring_drop_iff {n i : ℕ} {fires : ℕ → Bool} :
    firstFiring n fires = .drop i ↔ i < n ∧ fires i = true ∧ ∀ j < i, fires j = false := by
  unfold firstFiring
  constructor
  · intro h
    cases hfind : (List.range n).find? fires with
    | none => simp [hfind] at h
    | some k =>
      simp only [hfind, Decision.drop.injEq] at h
      subst h
      obtain ⟨hk, before, after, hrange, hbefore⟩ := List.find?_eq_some_iff_append.mp hfind
      have hmem : k ∈ List.range n := by simp [hrange]
      refine ⟨List.mem_range.mp hmem, hk, fun j hj => ?_⟩
      have hj' : j ∈ List.range n := List.mem_range.mpr (by have := List.mem_range.mp hmem; omega)
      have hsorted : (List.range n).Pairwise (· < ·) := List.pairwise_lt_range
      rw [hrange, List.mem_append, List.mem_cons] at hj'
      rw [hrange, List.pairwise_append, List.pairwise_cons] at hsorted
      rcases hj' with hj' | rfl | hj'
      · simpa using hbefore j hj'
      · omega
      · have := hsorted.2.1.1 j hj'
        omega
  · rintro ⟨hi, hfires, hbefore⟩
    have hfind : (List.range n).find? fires = some i := by
      refine List.find?_eq_some_iff_append.mpr ⟨hfires, List.range i, List.range' (i + 1) (n - i - 1), ?_, ?_⟩
      · have hsplit : n = i + (1 + (n - i - 1)) := by omega
        conv_lhs => rw [hsplit]
        rw [List.range_add]
        simp [List.range'_eq_map_range, List.range_succ_eq_map, add_comm 1, Nat.add_assoc, Function.comp_def]
      · intro j hj
        simp [hbefore j (List.mem_range.mp hj)]
    rw [hfind]

lemma firstFiring_keep_iff {n : ℕ} {fires : ℕ → Bool} :
    firstFiring n fires = .keep ↔ ∀ i < n, fires i = false := by
  unfold firstFiring
  cases hfind : (List.range n).find? fires with
  | none =>
    rw [List.find?_eq_none] at hfind
    simpa using hfind
  | some k =>
    have hk := List.find?_some hfind
    have hmem := List.mem_range.mp (List.mem_of_find?_eq_some hfind)
    simp only [reduceCtorEq, false_iff, not_forall]
    exact ⟨k, hmem, by simp [hk]⟩

end Compiled

section Verdict
variable {B : RulesBackend} {major : ℕ} {rs : RuleSet} {engine : Engine}

lemma getElem?_drops {i : ℕ} {record : Value} :
    (∃ rule, rs.rules[i]? = some rule ∧ rule.Drops B major record) ↔
      ∃ hi : i < rs.rules.length, rs.rules[i].Drops B major record := by
  constructor
  · rintro ⟨rule, hrule, hdrops⟩
    obtain ⟨hi, rfl⟩ := List.getElem?_eq_some_iff.mp hrule
    exact ⟨hi, hdrops⟩
  · rintro ⟨hi, hdrops⟩
    exact ⟨_, List.getElem?_eq_getElem hi, hdrops⟩

/-- A record is dropped by the first rule that drops it. -/
lemma evaluateLinear_drop_iff (h : Engine.new B rs = .ok engine) (hmajor : B.semverMajor rs.version = .ok major)
    (record : Value) (i : ℕ) : engine.evaluateLinear record = .drop i ↔
      (∃ hi : i < rs.rules.length, rs.rules[i].Drops B major record) ∧
        ∀ j (hj : j < rs.rules.length), j < i → ¬rs.rules[j].Drops B major record := by
  obtain ⟨hlength, hfires⟩ := ruleFires_iff h hmajor
  rw [Engine.evaluateLinear, firstFiring_drop_iff, hlength, hfires, getElem?_drops]
  constructor
  · rintro ⟨-, hdrops, hbefore⟩
    refine ⟨hdrops, fun j hj hji hdrop => ?_⟩
    have hfire := (hfires j record).mpr (getElem?_drops.mpr ⟨hj, hdrop⟩)
    simp [hbefore j hji] at hfire
  · rintro ⟨⟨hi, hdrops⟩, hbefore⟩
    refine ⟨hi, ⟨hi, hdrops⟩, fun j hj => ?_⟩
    rw [← Bool.not_eq_true, hfires, getElem?_drops]
    rintro ⟨hj', hdrop⟩
    exact hbefore j hj' hj hdrop

lemma evaluateLinear_keep_iff (h : Engine.new B rs = .ok engine) (hmajor : B.semverMajor rs.version = .ok major)
    (record : Value) :
    engine.evaluateLinear record = .keep ↔ ∀ rule ∈ rs.rules, ¬rule.Drops B major record := by
  obtain ⟨hlength, hfires⟩ := ruleFires_iff h hmajor
  rw [Engine.evaluateLinear, firstFiring_keep_iff, hlength]
  constructor
  · intro hkeep rule hrule hdrops
    obtain ⟨i, hi, rfl⟩ := List.mem_iff_getElem.mp hrule
    have hfire := (hfires i record).mpr (getElem?_drops.mpr ⟨hi, hdrops⟩)
    simp [hkeep i hi] at hfire
  · intro hnone i hi
    rw [← Bool.not_eq_true, hfires, getElem?_drops]
    rintro ⟨hi', hdrops⟩
    exact hnone _ (List.getElem_mem hi') hdrops

/-- The version that a ruleset was built under. -/
lemma major_of_new (h : Engine.new B rs = .ok engine) : ∃ major, B.semverMajor rs.version = .ok major := by
  unfold Engine.new at h
  cases hmajor : B.semverMajor rs.version with
  | error e => simp [hmajor] at h
  | ok major => exact ⟨major, rfl⟩

/-- The engine means what its ruleset says. An accepted document builds, and for every record the engine
drops it under the first rule all of whose conditions hold of the scalars their fields reach, and
keeps it when there is none; so does the index, when no regex matches outside its literals. -/
theorem engine_means_ruleset (B : RulesBackend) {bytes : List UInt8} {rs : RuleSet}
    (hparse : RuleSet.parse B bytes = .ok rs) :
    ∃ engine major, Engine.new B rs = .ok engine ∧ B.semverMajor rs.version = .ok major ∧ ∀ record,
      (∀ i, engine.evaluateLinear record = .drop i ↔
        (∃ hi : i < rs.rules.length, rs.rules[i].Drops B major record) ∧
          ∀ j (hj : j < rs.rules.length), j < i → ¬rs.rules[j].Drops B major record) ∧
      (engine.evaluateLinear record = .keep ↔ ∀ rule ∈ rs.rules, ¬rule.Drops B major record) ∧
      (engine.LiteralsSound → engine.evaluate record = engine.evaluateLinear record) := by
  obtain ⟨engine, hnew⟩ := Engine.new_of_parse B hparse
  obtain ⟨major, hmajor⟩ := major_of_new hnew
  exact ⟨engine, major, hnew, hmajor, fun record => ⟨evaluateLinear_drop_iff hnew hmajor record,
    evaluateLinear_keep_iff hnew hmajor record,
    fun hsound => Engine.evaluate_of_sound (Engine.new_built B hnew) hsound record⟩⟩

theorem engine_means_ruleset_sample :
    ∃ engine, Engine.new sampleBackend sampleRules = .ok engine ∧ ∀ record,
      (engine.evaluateLinear record = .keep ↔ ∀ rule ∈ sampleRules.rules, ¬rule.Drops sampleBackend 2 record) := by
  obtain ⟨engine, major, hnew, hmajor, hmeans⟩ := engine_means_ruleset sampleBackend sampleRules_parse
  have htwo : sampleBackend.semverMajor sampleRules.version = .ok 2 := rfl
  rw [htwo, Except.ok.injEq] at hmajor
  subst hmajor
  exact ⟨engine, hnew, fun record => (hmeans record).2.1⟩

end Verdict

section Algebra
variable {B : RulesBackend} {rs rs' : RuleSet} {engine engine' : Engine}

/-- The conditions of a rule, without its name and their order. -/
def Rule.SameConditions (rule rule' : Rule) : Prop := ∀ m, m ∈ rule.matches ↔ m ∈ rule'.matches

lemma Rule.SameConditions.drops {rule rule' : Rule} (h : rule.SameConditions rule') (major : ℕ) (record : Value) :
    rule.Drops B major record ↔ rule'.Drops B major record := by
  unfold Rule.Drops
  constructor
  · intro hdrops m hm
    exact hdrops m ((h m).mpr hm)
  · intro hdrops m hm
    exact hdrops m ((h m).mp hm)

/-- Editing a ruleset. Rulesets of one version whose rules have the same conditions, in whatever order,
under whatever names and however often, keep the same records. A record is kept under the rules of
two sets together exactly when it is kept under each; and rules that are added at the end take no
drop away from the rules before them. -/
theorem ruleset_algebra (B : RulesBackend) (version : String) (rules more : List Rule)
    {engine both : Engine} (hengine : Engine.new B ⟨version, rules⟩ = .ok engine)
    (hboth : Engine.new B ⟨version, rules ++ more⟩ = .ok both) (record : Value) :
    (∀ rules' engine', Engine.new B ⟨version, rules'⟩ = .ok engine' →
      (∀ rule ∈ rules, ∃ rule' ∈ rules', rule.SameConditions rule') →
      (∀ rule' ∈ rules', ∃ rule ∈ rules, rule.SameConditions rule') →
      (engine.evaluateLinear record = .keep ↔ engine'.evaluateLinear record = .keep)) ∧
    (∀ engine', Engine.new B ⟨version, more⟩ = .ok engine' →
      (both.evaluateLinear record = .keep ↔
        engine.evaluateLinear record = .keep ∧ engine'.evaluateLinear record = .keep)) ∧
    ∀ i < rules.length, both.evaluateLinear record = .drop i ↔ engine.evaluateLinear record = .drop i := by
  obtain ⟨major, hmajor⟩ := major_of_new hengine
  have hmajor' : ∀ rules', B.semverMajor (RuleSet.mk version rules').version = .ok major := fun _ => hmajor
  refine ⟨?_, ?_, ?_⟩
  · intro rules' engine' hengine' hto hfrom
    rw [evaluateLinear_keep_iff hengine (hmajor' _), evaluateLinear_keep_iff hengine' (hmajor' _)]
    constructor
    · intro hkeep rule' hrule' hdrops
      obtain ⟨rule, hrule, hsame⟩ := hfrom rule' hrule'
      exact hkeep rule hrule ((hsame.drops major record).mpr hdrops)
    · intro hkeep rule hrule hdrops
      obtain ⟨rule', hrule', hsame⟩ := hto rule hrule
      exact hkeep rule' hrule' ((hsame.drops major record).mp hdrops)
  · intro engine' hengine'
    rw [evaluateLinear_keep_iff hboth (hmajor' _), evaluateLinear_keep_iff hengine (hmajor' _),
      evaluateLinear_keep_iff hengine' (hmajor' _)]
    exact List.forall_mem_append
  · intro i hi
    have hget : ∀ j (hj : j < rules.length) (hj' : j < (rules ++ more).length), (rules ++ more)[j] = rules[j] :=
      fun j hj hj' => List.getElem_append_left hj
    have hle : i < (rules ++ more).length := by
      rw [List.length_append]
      omega
    rw [evaluateLinear_drop_iff hboth (hmajor' _), evaluateLinear_drop_iff hengine (hmajor' _)]
    constructor
    · rintro ⟨⟨_, hdrops⟩, hbefore⟩
      refine ⟨⟨hi, by rwa [hget i hi] at hdrops⟩, fun j hj hji hdrop => ?_⟩
      refine hbefore j (by rw [List.length_append]; omega) hji ?_
      rwa [hget j hj]
    · rintro ⟨⟨_, hdrops⟩, hbefore⟩
      refine ⟨⟨hle, by rwa [hget i hi]⟩, fun j hj hji hdrop => ?_⟩
      refine hbefore j (by omega) hji ?_
      rwa [hget j (by omega)] at hdrop

/-- The two rules of the sample, one after the other and together. -/
theorem ruleset_algebra_sample : ∃ engine both, Engine.new sampleBackend ⟨"2.0.0", sampleRules.rules.take 1⟩ = .ok engine ∧
    Engine.new sampleBackend ⟨"2.0.0", sampleRules.rules.take 1 ++ sampleRules.rules.drop 1⟩ = .ok both ∧
    ∀ record, (both.evaluateLinear record = .drop 0 ↔ engine.evaluateLinear record = .drop 0) := by
  obtain ⟨engine, hengine⟩ : ∃ engine, Engine.new sampleBackend ⟨"2.0.0", sampleRules.rules.take 1⟩ = .ok engine :=
    ⟨_, rfl⟩
  obtain ⟨both, hboth⟩ : ∃ both, Engine.new sampleBackend
      ⟨"2.0.0", sampleRules.rules.take 1 ++ sampleRules.rules.drop 1⟩ = .ok both := ⟨_, rfl⟩
  exact ⟨engine, both, hengine, hboth,
    fun record => (ruleset_algebra sampleBackend "2.0.0" _ _ hengine hboth record).2.2 0 (by decide)⟩

end Algebra

end CloudTrailFilter.Filter
