import CloudTrailFilter.Filter.Candidates
import CloudTrailFilter.Filter.Grammar
import CloudTrailFilter.Filter.Literals

/-!
# Why a rule is not indexed

`validate` warns about the rules the index never narrows and names the conditions on `eventSource` and
`eventName` that could not be reduced. It reads them off the ruleset in the order they are written,
while the index reads the compiled rule, whose conditions are sorted; the two pick different
conditions only where the one that is named cannot be reduced either.
-/

namespace CloudTrailFilter.Filter
open Json Fallible

section Describe

def MatchOp.describe : MatchOp → String
  | .regex p => "regex \"" ++ p ++ "\""
  | .equals s => "equals \"" ++ s ++ "\""
  | .anyOf v => "any_of [" ++ ", ".intercalate (v.map (fun s => "\"" ++ s ++ "\"")) ++ "]"
  | .absent b => "absent " ++ toString b

/-- The condition on a field that is described: the first that is not negated, else the first. -/
def keyCondition (matches' : List Match) (field : String) : Option Match :=
  (matches'.find? (fun m => !m.negate && m.field = field)).or (matches'.find? (fun m => m.field = field))

def describeCondition (field : String) (m : Match) : String :=
  field ++ " " ++ if m.negate then "negated " ++ m.op.describe else m.op.describe

def RuleSet.indexKeyDescription (rs : RuleSet) (ruleIdx : ℕ) : Option String := do
  let rule ← rs.rules[ruleIdx]?
  let parts := ["eventSource", "eventName"].filterMap (fun field =>
    (keyCondition rule.matches field).map (describeCondition field))
  if parts = [] then none else some (", ".intercalate parts)

/-- The literals a condition restricts its field to, negation aside. -/
def MatchOp.literals : MatchOp → Option (List String)
  | .regex pattern => extractLiterals pattern
  | .equals s => some [s]
  | .anyOf v => some (v.dedup.insertionSort (· ≤ ·))
  | .absent _ => none

end Describe

section Compiled
variable {B : RulesBackend} {major : ℕ}

lemma compileMatch_spec {rule : String} {m : Match} {c : CompiledMatch} (h : compileMatch B major rule m = .ok c) :
    compilePath major rule m.field = .ok c.path ∧ compileOp B rule m.op = .ok c.op ∧ c.negate = m.negate := by
  obtain ⟨op, hop, h⟩ := bind_ok_iff.mp h
  obtain ⟨path, hpath, h⟩ := bind_ok_iff.mp h
  cases h
  exact ⟨hpath, hop, rfl⟩

lemma splitDots_eq_singleton {s field : String} (h : splitDots s = [field]) : s = field := by
  obtain ⟨part, hpart, hfield⟩ := List.map_eq_singleton_iff.mp h
  have hjoin : ['.'].intercalate (s.toList.splitOn '.') = s.toList := List.intercalate_splitOn '.'
  rw [hpart] at hjoin
  apply String.toList_injective
  rw [← hjoin, ← hfield]
  simp

/-- Only the field itself has the path of a single key. -/
lemma fieldPath_singleKey {text : List Char} {field : String} (h : FieldPath text [.key field]) :
    text = field.toList := by
  generalize hsegments : [Segment.key field] = segments at h
  cases h with
  | one _ _ hpart =>
    cases hpart with
    | mk name tail more hname htail =>
      simp only [List.cons.injEq, Segment.key.injEq] at hsegments
      obtain ⟨hfield, rfl⟩ := hsegments
      cases htail
      simp [hfield]
  | dot text rest first more hpart hrest =>
    cases hpart with
    | mk name tail segments' hname htail =>
      cases hrest with
      | one _ _ hpart' => cases hpart'; simp at hsegments
      | dot _ _ _ _ hpart' _ => cases hpart'; simp at hsegments

lemma isSingleKey_iff {rule field' field : String} {path : Path} (hfield : splitDots field = [field])
    (hparse : parsePath field = .ok ⟨[.key field]⟩) (h : compilePath major rule field' = .ok path) :
    isSingleKey path field = true ↔ field' = field := by
  unfold compilePath at h
  simp only [isSingleKey, decide_eq_true_eq]
  split_ifs at h with hone
  · cases h
    constructor
    · intro hsegments
      apply splitDots_eq_singleton
      obtain ⟨name, hname, hkey⟩ := List.map_eq_singleton_iff.mp hsegments
      rw [hname, Segment.key.inj hkey]
    · rintro rfl
      simp [literalPath, hfield]
  · cases hp : parsePath field' with
    | error e => simp [hp] at h
    | ok path' =>
      rw [hp] at h
      cases h
      constructor
      · intro hsegments
        have hpath := (parsePath_iff field' path).mp hp
        rw [hsegments] at hpath
        exact String.toList_injective (fieldPath_singleKey hpath)
      · rintro rfl
        rw [hparse] at hp
        cases hp
        rfl

/-- What the index uses of a compiled condition. -/
lemma compileOp_literals {rule : String} {m : Match} {c : CompiledMatch} (h : compileOp B rule m.op = .ok c.op) :
    (match c.op with
      | .regex re => extractLiterals re.pattern
      | .equals s => some [s]
      | .anyOf set => some (set.insertionSort (· ≤ ·))
      | .absent _ => none) = m.op.literals := by
  cases hop : m.op with
  | regex pattern =>
    rw [hop] at h
    obtain ⟨re, hre, h⟩ := bind_ok_iff.mp h
    unfold compileRegex at hre
    cases hbuild : B.regexBuild pattern with
    | error e => simp [hbuild] at hre
    | ok isMatch =>
      rw [hbuild] at hre
      cases hre
      rw [← Except.ok.inj h]
      rfl
  | equals s =>
    rw [hop] at h
    rw [← Except.ok.inj h]
    rfl
  | anyOf v =>
    rw [hop] at h
    rw [← Except.ok.inj h]
    rfl
  | absent b =>
    rw [hop] at h
    rw [← Except.ok.inj h]
    rfl

/-- A pattern that is sorted last has no literals. -/
lemma extractLiterals_of_rank {pattern : String} (h : selectivityRank pattern ≠ 0) :
    extractLiterals pattern = none := by
  have hstart : ".*".toList <+: pattern.toList ∨ "^.*".toList <+: pattern.toList := by
    by_contra hno
    exact h (if_neg hno)
  unfold extractLiterals
  split_ifs
  · rfl
  rcases hstart with ⟨rest, hrest⟩ | ⟨rest, hrest⟩
  · rw [← hrest]
    rfl
  · -- the dot that is left after the anchor is refused as a literal and as the start of one
    rw [← hrest]
    have hstrip : ∀ inner, stripAnchors ("^.*".toList ++ rest) = some inner → ∃ more, inner = '.' :: more := by
      intro inner hinner
      cases rest with
      | nil => simp [stripAnchors] at hinner
      | cons c cs =>
        simp only [stripAnchors, String.reduceToList, List.cons_append, List.nil_append] at hinner
        split_ifs at hinner
        cases hinner
        exact ⟨_, List.dropLast_cons_cons⟩
    cases hinner : stripAnchors ("^.*".toList ++ rest) with
    | none => rfl
    | some inner =>
      obtain ⟨more, rfl⟩ := hstrip inner hinner
      have hdot : ∀ l, unescapeLiteral ('.' :: l) = none := fun l => by simp [unescapeLiteral, metacharacters]
      simp only [Option.bind_eq_bind, Option.bind_some]
      split
      · simp [hdot]
      · rename_i op cl hparens
        have hop : op ≠ 0 := by
          rintro rfl
          have hmem : (0, '(') ∈ findUnescapedParens false 1 more := by
            have hskip : findUnescapedParens false 0 ('.' :: more) = findUnescapedParens false 1 more := by
              simp [findUnescapedParens]
            rw [← hskip, hparens]
            exact List.mem_cons_self
          exact absurd (mem_findUnescapedParens hmem).1 (by decide)
        obtain ⟨n, rfl⟩ := Nat.exists_eq_succ_of_ne_zero hop
        simp [hdot]
      · rfl

section Sorting

lemma find?_orderedInsert_of_not {α : Type} (r : α → α → Prop) [DecidableRel r] {p : α → Bool} {a : α} (ha : p a = false)
    (l : List α) : (l.orderedInsert r a).find? p = l.find? p := by
  induction l with
  | nil => simp [ha]
  | cons b l ih =>
    rw [List.orderedInsert_cons]
    split_ifs
    · rw [List.find?_cons_of_neg (by simp [ha])]
    · rw [List.find?_cons, List.find?_cons, ih]

/-- The sort is stable: the first condition of its kind stays the first if nothing is sorted before it. -/
lemma find?_insertionSort_of_rank {p : CompiledMatch → Bool} {ms : List CompiledMatch} {c : CompiledMatch}
    (h : ms.find? p = some c) (hrank : c.rank = 0) :
    (ms.insertionSort (fun a b => a.rank ≤ b.rank)).find? p = some c := by
  induction ms with
  | nil => simp at h
  | cons m ms ih =>
    rw [List.insertionSort_cons]
    rw [List.find?_cons] at h
    cases hm : p m with
    | true =>
      simp only [hm, Option.some.injEq] at h
      subst h
      cases hsorted : ms.insertionSort (fun a b => a.rank ≤ b.rank) with
      | nil => simp [hm]
      | cons b rest => rw [List.orderedInsert_cons, if_pos (by rw [hrank]; exact Nat.zero_le _), List.find?_cons, hm]
    | false =>
      rw [hm] at h
      rw [find?_orderedInsert_of_not _ hm]
      exact ih h

lemma internMatches_indexLiterals (paths : List Path) (ms : List CompiledMatch) (field : String) :
    indexLiterals (internMatches paths ms).2 field = indexLiterals ms field := by
  induction ms generalizing paths with
  | nil => rfl
  | cons m ms ih =>
    simp only [indexLiterals, internMatches, List.find?_cons] at ih ⊢
    cases !m.negate && isSingleKey m.path field with
    | true => rfl
    | false => exact ih _

lemma internRules_keys (paths : List Path) (rules : List CompiledRule) (field : String) :
    (internRules paths rules).2.map (fun rule => indexLiterals rule.matches field) =
      rules.map (fun rule => indexLiterals rule.matches field) := by
  induction rules generalizing paths with
  | nil => rfl
  | cons rule rules ih => simp [internRules, internMatches_indexLiterals, ih]

end Sorting

/-- The conditions as written and as compiled, searched for the same thing. -/
lemma find?_compiled {rule field : String} (hfield : splitDots field = [field])
    (hparse : parsePath field = .ok ⟨[.key field]⟩) {written : List Match} {ms : List CompiledMatch}
    (hall : List.Forall₂ (fun m c => compileMatch B major rule m = .ok c) written ms) {m : Match}
    (hm : written.find? (fun m => !m.negate && m.field = field) = some m) :
    ∃ c, ms.find? (fun c => !c.negate && isSingleKey c.path field) = some c ∧
      compileMatch B major rule m = .ok c := by
  induction hall with
  | nil => simp at hm
  | @cons m' c' _ _ hc _ ih =>
    obtain ⟨hpath, -, hnegate⟩ := compileMatch_spec hc
    have hsame : (!c'.negate && isSingleKey c'.path field) = (!m'.negate && decide (m'.field = field)) := by
      rw [hnegate, Bool.eq_iff_iff]
      simp [isSingleKey_iff hfield hparse hpath]
    rw [List.find?_cons] at hm ⊢
    rw [hsame]
    cases hp : !m'.negate && decide (m'.field = field) with
    | true =>
      simp only [hp, Option.some.injEq] at hm
      subst hm
      exact ⟨c', rfl, hc⟩
    | false =>
      rw [hp] at hm
      exact ih hm

/-- The condition that is described is the one the index looked at, or cannot be reduced either. -/
lemma keyCondition_literals {rule : Rule} {c : CompiledRule} (h : compileRule B major rule = .ok c) {field : String}
    (hfield : splitDots field = [field]) (hparse : parsePath field = .ok ⟨[.key field]⟩)
    (hnone : indexLiterals c.matches field = none) {m : Match} (hm : keyCondition rule.matches field = some m) :
    m.field = field ∧ (m.negate = true ∧ (∀ m' ∈ rule.matches, m'.field = field → m'.negate = true) ∨
      m.negate = false ∧ m.op.literals = none) := by
  obtain ⟨ms, hms, h⟩ := bind_ok_iff.mp h
  cases h
  have hall := mapM_ok_iff.mp hms
  unfold keyCondition at hm
  cases hfirst : rule.matches.find? (fun m => !m.negate && m.field = field) with
  | some m₀ =>
    rw [hfirst, Option.some_or, Option.some.injEq] at hm
    subst hm
    have hm₀ := List.find?_some hfirst
    simp only [Bool.and_eq_true, Bool.not_eq_true', decide_eq_true_eq] at hm₀
    refine ⟨hm₀.2, .inr ⟨hm₀.1, ?_⟩⟩
    obtain ⟨c₀, hc₀, hcompiled⟩ := find?_compiled hfield hparse hall hfirst
    obtain ⟨-, hop, -⟩ := compileMatch_spec hcompiled
    rw [← compileOp_literals hop]
    by_cases hrank : c₀.rank = 0
    · have hsorted := find?_insertionSort_of_rank hc₀ hrank
      unfold indexLiterals at hnone
      rw [hsorted] at hnone
      exact hnone
    · cases hcop : c₀.op with
      | regex re =>
        have hpattern : selectivityRank re.pattern ≠ 0 := by simpa [CompiledMatch.rank, hcop] using hrank
        exact extractLiterals_of_rank hpattern
      | equals s => simp [CompiledMatch.rank, hcop] at hrank
      | anyOf set => simp [CompiledMatch.rank, hcop] at hrank
      | absent b => rfl
  | none =>
    rw [hfirst, Option.none_or] at hm
    have hm' := List.find?_some hm
    have hnegated : ∀ m' ∈ rule.matches, m'.field = field → m'.negate = true := by
      intro m' hmem heq
      have := List.find?_eq_none.mp hfirst m' hmem
      simpa [heq] using this
    have hfieldEq : m.field = field := by simpa using hm'
    exact ⟨hfieldEq, .inl ⟨hnegated m (List.mem_of_find?_eq_some hm) hfieldEq, hnegated⟩⟩

end Compiled

section Warning
variable {B : RulesBackend}

lemma parsePath_eventSource : parsePath "eventSource" = .ok ⟨[.key "eventSource"]⟩ := by decide

lemma parsePath_eventName : parsePath "eventName" = .ok ⟨[.key "eventName"]⟩ := by decide

/-- What `validate` says of a rule it warns about is so. For a rule that is checked against every record it
gives no description exactly when no condition is on `eventSource` or `eventName`; and a condition it
does describe is a negated one, with no other kind on that field, or one that no set of literals
stands for. -/
theorem warning_truthful (B : RulesBackend) {rs : RuleSet} {engine : Engine} (h : Engine.new B rs = .ok engine)
    {i : ℕ} (hi : i ∈ engine.index.always) :
    ∃ rule, rs.rules[i]? = some rule ∧
      (rs.indexKeyDescription i = none ↔ ∀ m ∈ rule.matches, m.field ≠ "eventSource" ∧ m.field ≠ "eventName") ∧
      ∀ field ∈ ["eventSource", "eventName"], ∀ m, keyCondition rule.matches field = some m →
        m.field = field ∧ (m.negate = true ∧ (∀ m' ∈ rule.matches, m'.field = field → m'.negate = true) ∨
          m.negate = false ∧ m.op.literals = none) := by
  have hindex := (Engine.new_built B h).index_eq
  rw [hindex, RuleIndex.mem_always_iff] at hi
  obtain ⟨hi, hsource, hname⟩ := hi
  obtain ⟨major, hmajor⟩ := major_of_new h
  unfold Engine.new at h
  rw [hmajor] at h
  obtain ⟨compiled, hcompiled, h⟩ := bind_ok_iff.mp h
  cases h
  have hall := mapM_ok_iff.mp hcompiled
  have hkeys : ∀ field, (Engine.assemble compiled).rules.map (fun rule => indexLiterals rule.matches field) =
      compiled.map (fun rule => indexLiterals rule.matches field) := fun field => internRules_keys [] compiled field
  have hlength : (Engine.assemble compiled).rules.length = compiled.length := by
    simpa using congrArg List.length (hkeys "")
  have hi' : i < compiled.length := by simpa [hlength] using hi
  have hir : i < rs.rules.length := by rw [hall.length_eq]; exact hi'
  have hrule := hall.get hir hi'
  simp only [List.get_eq_getElem] at hrule
  have hia : i < (Engine.assemble compiled).rules.length := by omega
  have hliterals : ∀ field, indexLiterals (Engine.assemble compiled).rules[i].matches field =
      indexLiterals compiled[i].matches field := by
    intro field
    have hget := congrArg (fun l => l[i]?) (hkeys field)
    simpa [List.getElem?_eq_getElem hi', List.getElem?_eq_getElem hia] using hget
  simp only [List.getElem_map, ruleKeys, hliterals] at hsource hname
  refine ⟨rs.rules[i], List.getElem?_eq_getElem hir, ?_, ?_⟩
  · unfold RuleSet.indexKeyDescription
    rw [List.getElem?_eq_getElem hir]
    simp only [Option.bind_eq_bind, Option.bind_some]
    split_ifs with hparts
    · simp only [true_iff]
      rw [List.filterMap_eq_nil_iff] at hparts
      have hno : ∀ field ∈ ["eventSource", "eventName"], ∀ m ∈ rs.rules[i].matches, m.field ≠ field := by
        intro field hfield m hm heq
        have hcond := hparts field hfield
        rw [Option.map_eq_none_iff, keyCondition, Option.or_eq_none_iff, List.find?_eq_none, List.find?_eq_none] at hcond
        exact hcond.2 m hm (by simpa using heq)
      exact fun m hm => ⟨hno _ (by simp) m hm, hno _ (by simp) m hm⟩
    · refine iff_of_false (by simp) fun hnone => ?_
      refine hparts (List.filterMap_eq_nil_iff.mpr fun field hfield => ?_)
      have hcond : keyCondition rs.rules[i].matches field = none := by
        rw [keyCondition, Option.or_eq_none_iff, List.find?_eq_none, List.find?_eq_none]
        have hne : ∀ m ∈ rs.rules[i].matches, m.field ≠ field := by
          intro m hm
          obtain ⟨hs, hn⟩ := hnone m hm
          rcases List.mem_pair.mp hfield with rfl | rfl
          · exact hs
          · exact hn
        exact ⟨fun m hm => by simp [hne m hm], fun m hm => by simp [hne m hm]⟩
      rw [hcond]
      rfl
  · intro field hfield m hm
    rcases List.mem_pair.mp hfield with rfl | rfl
    · exact keyCondition_literals hrule splitDots_eventSource parsePath_eventSource hsource hm
    · exact keyCondition_literals hrule splitDots_eventName parsePath_eventName hname hm

/-- A rule with a condition on either key, neither of which the index can use. -/
def describedRules : RuleSet :=
  ⟨"2.0.0", [⟨"nameless", [⟨"eventSource", .equals "kms.amazonaws.com", true⟩, ⟨"eventName", .absent true, false⟩]⟩]⟩

/-- A rule without a condition on the keys is not described, and of one with two both are. -/
theorem warning_truthful_sample :
    (∃ rule, sampleRules.rules[1]? = some rule ∧ sampleRules.indexKeyDescription 1 = none ∧
      ∀ m ∈ rule.matches, m.field ≠ "eventSource" ∧ m.field ≠ "eventName") ∧
    ∃ rule source name, describedRules.rules[0]? = some rule ∧ describedRules.indexKeyDescription 0 ≠ none ∧
      keyCondition rule.matches "eventSource" = some source ∧ source.negate = true ∧
      keyCondition rule.matches "eventName" = some name ∧ name.negate = false ∧ name.op.literals = none := by
  constructor
  · obtain ⟨engine, hengine⟩ : ∃ engine, Engine.new sampleBackend sampleRules = .ok engine := ⟨_, rfl⟩
    have halways : 1 ∈ engine.index.always := by
      cases hengine
      decide
    obtain ⟨rule, hrule, hdescription, -⟩ := warning_truthful sampleBackend hengine halways
    have hnone : sampleRules.indexKeyDescription 1 = none := by decide
    exact ⟨rule, hrule, hnone, hdescription.mp hnone⟩
  · obtain ⟨engine, hengine⟩ : ∃ engine, Engine.new sampleBackend describedRules = .ok engine := ⟨_, rfl⟩
    have halways : 0 ∈ engine.index.always := by
      cases hengine
      decide
    obtain ⟨rule, hrule, hdescription, hdescribed⟩ := warning_truthful sampleBackend hengine halways
    obtain rfl := Option.some.inj hrule
    obtain ⟨-, hsource⟩ := hdescribed "eventSource" (by simp) _ rfl
    obtain ⟨-, hname⟩ := hdescribed "eventName" (by simp) _ rfl
    refine ⟨_, _, _, rfl, ?_, rfl, ?_, rfl, ?_⟩
    · intro hnone
      exact absurd rfl (hdescription.mp hnone _ (List.mem_cons_self ..)).1
    · rcases hsource with ⟨hnegated, -⟩ | ⟨hplain, -⟩
      · exact hnegated
      · cases hplain
    · rcases hname with ⟨hnegated, -⟩ | hplain
      · cases hnegated
      · exact hplain

end Warning

end CloudTrailFilter.Filter
