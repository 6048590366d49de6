import CloudTrailFilter.Filter.Meaning

/-!
# What the index narrows

The index is exact: a rule is a candidate for a record when its literals admit the record's values, and
the rules it reports as never narrowed are those that are candidates for every record. What
`validate` says of such a rule is true of it.
-/

namespace CloudTrailFilter.Filter
open Json Fallible

section Exact
variable (keys : List RuleKeys)

/-- No under-exclusion either: a candidate's literals admit the value. -/
lemma Dimension.contains_iff {len : ℕ} (keys : List (Option (List String))) (hlen : keys.length = len)
    (value : Option String) {i : ℕ} (hi : i < keys.length) :
    ((Dimension.build len keys).bits (.allSet len) value).contains i = true ↔ Admits keys[i] value := by
  refine ⟨fun h => ?_, Dimension.contains_of_admits keys hlen value hi⟩
  subst hlen
  rintro L v hL rfl
  rw [Dimension.contains_bits keys _ v hi] at h
  exact h L (by rw [List.getElem?_eq_getElem hi, hL])

lemma RuleIndex.permits_iff (eventSource eventName : Option String) {i : ℕ} (hi : i < keys.length) :
    ((RuleIndex.build keys).candidatesFor eventSource eventName).permits i = true ↔
      Admits keys[i].eventSource eventSource ∧ Admits keys[i].eventName eventName := by
  have hi' : ∀ f : RuleKeys → Option (List String), i < (keys.map f).length := fun f => by simpa using hi
  have hsource := Dimension.contains_iff (keys.map RuleKeys.eventSource) (List.length_map _) eventSource (hi' _)
  have hname := Dimension.contains_iff (keys.map RuleKeys.eventName) (List.length_map _) eventName (hi' _)
  rw [List.getElem_map] at hsource hname
  simp only [Candidates.permits, RuleIndex.candidatesFor, RuleIndex.build, Bool.and_eq_true, hsource, hname]

/-- Some value is none of the literals. -/
lemma admits_all_iff (literals : Option (List String)) : (∀ v, Admits literals (some v)) ↔ literals = none := by
  constructor
  · intro h
    cases literals with
    | none => rfl
    | some L =>
      obtain ⟨v, hv⟩ := Infinite.exists_notMem_finset L.toFinset
      exact (hv (List.mem_toFinset.mpr (h v L v rfl rfl))).elim
  · rintro rfl v L w hL
    cases hL

lemma RuleIndex.mem_always_iff {i : ℕ} : i ∈ (RuleIndex.build keys).always ↔
    ∃ hi : i < keys.length, keys[i].eventSource = none ∧ keys[i].eventName = none := by
  simp only [RuleIndex.build, List.mem_map, List.mem_filter, Bool.and_eq_true, Option.isNone_iff_eq_none, Prod.exists,
    List.mk_mem_zipIdx_iff_getElem?]
  constructor
  · rintro ⟨k, j, ⟨hget, hnone⟩, rfl⟩
    obtain ⟨hj, rfl⟩ := List.getElem?_eq_some_iff.mp hget
    exact ⟨hj, hnone⟩
  · rintro ⟨hi, hnone⟩
    exact ⟨keys[i], i, ⟨List.getElem?_eq_getElem hi, hnone⟩, rfl⟩

lemma RuleIndex.always_sorted : (RuleIndex.build keys).always.Pairwise (· < ·) := by
  have hsorted : (keys.zipIdx.map Prod.snd).Pairwise (· < ·) := by
    rw [List.zipIdx_map_snd]
    exact List.pairwise_lt_range'
  exact hsorted.sublist (List.Sublist.map _ List.filter_sublist)

end Exact

section Considered
variable {B : RulesBackend} {rs : RuleSet} {engine : Engine}

/-- Whether the index leaves a rule to be checked against a record. -/
def Engine.considers (engine : Engine) (record : Value) (i : ℕ) : Bool :=
  (engine.index.candidatesFor (resolve record "eventSource") (resolve record "eventName")).permits i

/-- A record with these two values. -/
def recordOf (eventSource eventName : String) : Value :=
  .object [("eventSource", .string eventSource), ("eventName", .string eventName)]

lemma resolve_recordOf (eventSource eventName : String) :
    resolve (recordOf eventSource eventName) "eventSource" = some eventSource ∧
      resolve (recordOf eventSource eventName) "eventName" = some eventName := by
  unfold resolve
  rw [splitDots_eventSource, splitDots_eventName]
  exact ⟨rfl, rfl⟩

lemma Engine.considers_iff (h : Engine.new B rs = .ok engine) (record : Value) {i : ℕ} (hi : i < engine.rules.length) :
    engine.considers record i = true ↔
      Admits (indexLiterals engine.rules[i].matches "eventSource") (resolve record "eventSource") ∧
        Admits (indexLiterals engine.rules[i].matches "eventName") (resolve record "eventName") := by
  have hi' : i < (engine.rules.map ruleKeys).length := by simpa using hi
  have hpermits := RuleIndex.permits_iff (engine.rules.map ruleKeys) (resolve record "eventSource")
    (resolve record "eventName") hi'
  rw [← (Engine.new_built B h).index_eq, List.getElem_map] at hpermits
  exact hpermits

/-- A rule that `always_rules` reports restricts neither key, which every record notices. -/
lemma Engine.mem_always_iff (h : Engine.new B rs = .ok engine) {i : ℕ} : i ∈ engine.index.always ↔
    i < engine.rules.length ∧ ∀ record, engine.considers record i = true := by
  rw [(Engine.new_built B h).index_eq, RuleIndex.mem_always_iff]
  constructor
  · rintro ⟨hi, hsource, hname⟩
    have hi' : i < engine.rules.length := by simpa using hi
    rw [List.getElem_map] at hsource hname
    refine ⟨hi', fun record => (Engine.considers_iff h record hi').mpr ⟨?_, ?_⟩⟩
    · intro L v hL
      exact absurd (hsource.symm.trans hL) (by simp)
    · intro L v hL
      exact absurd (hname.symm.trans hL) (by simp)
  · rintro ⟨hi, hall⟩
    refine ⟨by simpa using hi, ?_, ?_⟩
    · rw [List.getElem_map]
      refine (admits_all_iff _).mp fun v => ?_
      have := ((Engine.considers_iff h (recordOf v "") hi).mp (hall _)).1
      rwa [(resolve_recordOf v "").1] at this
    · rw [List.getElem_map]
      refine (admits_all_iff _).mp fun v => ?_
      have := ((Engine.considers_iff h (recordOf "" v) hi).mp (hall _)).2
      rwa [(resolve_recordOf "" v).2] at this

lemma Engine.always_sorted (h : Engine.new B rs = .ok engine) : engine.index.always.Pairwise (· < ·) := by
  rw [(Engine.new_built B h).index_eq]
  exact RuleIndex.always_sorted _

/-- The index is exact. A rule is checked against a record exactly when the record's `eventSource` is
missing or not excluded by the rule's literals, and its `eventName` likewise; and the rules that
`always_rules` reports, each once and in order, are those that are checked against every record. -/
theorem index_exact (B : RulesBackend) {rs : RuleSet} {engine : Engine} (h : Engine.new B rs = .ok engine) :
    (∀ record i (hi : i < engine.rules.length), engine.considers record i = true ↔
      Admits (indexLiterals engine.rules[i].matches "eventSource") (resolve record "eventSource") ∧
        Admits (indexLiterals engine.rules[i].matches "eventName") (resolve record "eventName")) ∧
    (∀ i, i ∈ engine.index.always ↔ i < engine.rules.length ∧ ∀ record, engine.considers record i = true) ∧
    engine.index.always.Pairwise (· < ·) :=
  ⟨fun record _ hi => Engine.considers_iff h record hi, fun _ => Engine.mem_always_iff h, Engine.always_sorted h⟩

theorem index_exact_sample : ∃ engine, Engine.new sampleBackend sampleRules = .ok engine ∧
    engine.index.always = [1] ∧ ∀ record, engine.considers record 1 = true := by
  obtain ⟨engine, hengine⟩ : ∃ engine, Engine.new sampleBackend sampleRules = .ok engine := ⟨_, rfl⟩
  have halways : engine.index.always = [1] := by
    cases hengine
    decide
  exact ⟨engine, hengine, halways, (((index_exact sampleBackend hengine).2.1 1).mp (by simp [halways])).2⟩

end Considered

end CloudTrailFilter.Filter
