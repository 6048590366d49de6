import CloudTrailFilter.Filter.Grammar
import CloudTrailFilter.Filter.Project

/-!
# Old rulesets

A v1 ruleset names its fields by literal keys, a v2 ruleset by parsed paths. On names without
subscript syntax the two lowerings agree, so a v1 document and the v2 document with `field_name`
renamed to `field` build the same engine.
-/

namespace CloudTrailFilter.Filter
open Json Fallible

section Literal

/-- A literal path reaches the value `resolve` finds, and nothing where it finds none. -/
lemma visitValues_literalPath {σ : Type} (v : Value) (s : String) (f : String → σ → Bool × σ) (st : σ) :
    visitValues v (literalPath s) f st =
      match resolve v s with
      | some text => f text st
      | none => (false, st) := by
  rw [visitValues, walk_eq_visitList, literalPath, reached_keys, resolve]
  cases resolveKeys v (splitDots s) <;> rfl

/-- A field name without subscript syntax and without an empty segment. -/
structure PlainField (s : String) : Prop where
  noBracket : '[' ∉ s.toList
  noEmpty : "" ∉ splitDots s

lemma parsePath_literal {s : String} (h : PlainField s) : parsePath s = .ok (literalPath s) := by
  have hempty : s.toList ≠ [] := by
    intro hnil
    apply h.noEmpty
    simp [splitDots, hnil]
  have hparts : ∀ part ∈ s.toList.splitOn '.', parsePart s part = .ok [.key (String.ofList part)] := by
    intro part hpart
    have hdot := Split.notMem_of_mem_splitOn hpart
    have hne : part ≠ [] := by
      rintro rfl
      exact h.noEmpty (List.mem_map_of_mem hpart)
    have hbracket : '[' ∉ part := fun hmem => h.noBracket (Split.of_mem_splitOn hpart hmem).1
    have hplain : PlainName (String.ofList part).toList := by
      rw [String.toList_ofList]
      exact ⟨hne, hdot, hbracket⟩
    have hread := part_of_plain hplain
    rw [String.toList_ofList] at hread
    exact (parsePart_iff s hdot _).mpr hread
  have hsegments : ((s.toList.splitOn '.').map (fun part => [Segment.key (String.ofList part)])).flatten =
      (literalPath s).segments := by
    rw [← List.flatMap_def, ← List.map_eq_flatMap]
    simp [literalPath, splitDots]
  unfold parsePath
  rw [if_neg hempty, mapM_ok_map hparts, ok_bind, hsegments]

end Literal

section Upgrade

/-- The v2 form of a v1 condition, `field_name` renamed to `field`. -/
def WireMatchV1.renamed (m : WireMatchV1) : WireMatchV2 := ⟨m.fieldName, some m.regex, none, none, none, false⟩

def WireRuleV1.renamed (rule : WireRuleV1) : WireRuleV2 := ⟨rule.name, rule.matches.map WireMatchV1.renamed⟩

/-- Two documents that differ in the version and in the name of the field key. -/
structure Renamed (B : RulesBackend) (old new : WireRuleSet B.Yaml) : Prop where
  major_old : B.semverMajor old.version = .ok 1
  major_new : B.semverMajor new.version = .ok 2
  rules : List.Forall₂ (fun raw raw' => ∀ rule, B.yamlRuleV1 raw = .ok rule → B.yamlRuleV2 raw' = .ok rule.renamed)
    old.rules new.rules

def Rule.PlainFields (rule : Rule) : Prop := ∀ m ∈ rule.matches, PlainField m.field

variable {B : RulesBackend}

lemma intoMatch_renamed (m : WireMatchV1) (rule : String) :
    m.renamed.intoMatch rule = .ok ⟨m.fieldName, .regex m.regex, false⟩ := by
  simp [WireMatchV1.renamed, WireMatchV2.intoMatch]

/-- Both readers make the same rule of a condition list and its renamed form. -/
lemma readRuleV2_renamed {raw raw' : B.Yaml}
    (hraw : ∀ rule, B.yamlRuleV1 raw = .ok rule → B.yamlRuleV2 raw' = .ok rule.renamed) {rule : Rule}
    (h : readRuleV1 B raw = .ok rule) : readRuleV2 B raw' = .ok rule := by
  unfold readRuleV1 at h
  cases hread : B.yamlRuleV1 raw with
  | error e => simp [hread] at h
  | ok wire =>
    rw [hread] at h
    cases h
    unfold readRuleV2
    simp only [hraw wire hread, WireRuleV1.renamed, List.mapM_map, Function.comp_def]
    have hmatches : wire.matches.mapM (fun m => m.renamed.intoMatch wire.name) =
        .ok (wire.matches.map (fun m => ⟨m.fieldName, .regex m.regex, false⟩)) :=
      mapM_ok_map (fun m _ => intoMatch_renamed m wire.name)
    rw [hmatches, ok_bind]

lemma readRules_renamed {old new : WireRuleSet B.Yaml} (h : Renamed B old new) {rules : List Rule}
    (hread : readRules B old 1 = .ok rules) : readRules B new 2 = .ok rules := by
  have hone : old.rules.mapM (readRuleV1 B) = .ok rules := by simpa [readRules] using hread
  have htwo : new.rules.mapM (readRuleV2 B) = .ok rules := by
    rw [mapM_ok_iff] at hone ⊢
    have hlen : new.rules.length = rules.length := by rw [← h.rules.length_eq, hone.length_eq]
    apply List.forall₂_iff_get.mpr
    refine ⟨hlen, fun i hi hi' => ?_⟩
    have hi'' : i < old.rules.length := by rw [h.rules.length_eq]; exact hi
    exact readRuleV2_renamed (h.rules.get hi'' hi) (hone.get hi'' hi')
  simpa [readRules] using htwo

/-- On plain fields the check of v2 paths refuses nothing. -/
lemma validateMatch_plain {m : Match} (h : PlainField m.field) (rule : String) :
    validateMatch B 2 rule m = validateMatch B 1 rule m := by
  have hpath := parsePath_literal h
  simp [validateMatch, hpath]

lemma validateRules_plain {rules : List Rule} (h : ∀ rule ∈ rules, rule.PlainFields) (names : List String) :
    validateRules B 2 names rules = validateRules B 1 names rules := by
  induction rules generalizing names with
  | nil => rfl
  | cons rule rules ih =>
    have hmatches : rule.matches.forM (validateMatch B 2 rule.name) =
        rule.matches.forM (validateMatch B 1 rule.name) :=
      forM_congr_mem (fun m hm => validateMatch_plain (h rule List.mem_cons_self m hm) rule.name)
    have hrest := ih (fun r hr => h r (List.mem_cons_of_mem _ hr)) (rule.name :: names)
    simp only [validateRules, hmatches, hrest]

lemma compilePath_plain {field : String} (h : PlainField field) (rule : String) :
    compilePath 2 rule field = compilePath 1 rule field := by
  simp [compilePath, parsePath_literal h]

lemma compileRule_plain {rule : Rule} (h : rule.PlainFields) : compileRule B 2 rule = compileRule B 1 rule := by
  have hmatches : rule.matches.mapM (compileMatch B 2 rule.name) = rule.matches.mapM (compileMatch B 1 rule.name) :=
    mapM_congr_mem (fun m hm => by simp only [compileMatch, compilePath_plain (h m hm)])
  simp only [compileRule, hmatches]

/-- Two versions of a ruleset with plain fields build the same engine, or fail alike. -/
lemma engine_new_plain {old new : RuleSet} (hone : B.semverMajor old.version = .ok 1)
    (htwo : B.semverMajor new.version = .ok 2) (hrules : new.rules = old.rules)
    (hplain : ∀ rule ∈ old.rules, rule.PlainFields) : Engine.new B new = Engine.new B old := by
  have hcompiled : old.rules.mapM (compileRule B 2) = old.rules.mapM (compileRule B 1) :=
    mapM_congr_mem (fun rule hrule => compileRule_plain (hplain rule hrule))
  simp only [Engine.new, hone, htwo, hrules, hcompiled]

/-- The renamed document is accepted with the rules of the old one. -/
lemma parse_renamed {bytes bytes' : List UInt8} {old new : WireRuleSet B.Yaml} (hold : B.yamlRuleSet bytes = .ok old)
    (hnew : B.yamlRuleSet bytes' = .ok new) (h : Renamed B old new) {rules : RuleSet}
    (hparse : RuleSet.parse B bytes = .ok rules) (hplain : ∀ rule ∈ rules.rules, rule.PlainFields) :
    rules.version = old.version ∧ RuleSet.parse B bytes' = .ok ⟨new.version, rules.rules⟩ := by
  unfold RuleSet.parse at hparse ⊢
  simp only [hold, h.major_old] at hparse
  obtain ⟨read, hread, hparse⟩ := bind_ok_iff.mp hparse
  obtain ⟨u, hvalid, hparse⟩ := bind_ok_iff.mp hparse
  cases hparse
  have hread' := readRules_renamed h hread
  have hvalid' : RuleSet.validate B ⟨new.version, read⟩ 2 = .ok u := by
    rw [← hvalid]
    exact validateRules_plain hplain []
  simp only [hnew, h.major_new]
  rw [hread', ok_bind, hvalid', ok_bind]
  exact ⟨trivial, rfl⟩

end Upgrade

section Meaning

/-- Old rulesets keep their meaning. A literal path calls its callback with the value `resolve`
finds, once, and not at all where it finds none; the path parser lowers a plain field as the v1
lowering does; and a v1 document with plain fields and its v2 form are decided alike, by each of
the three evaluators. -/
theorem v1_rulesets_keep_meaning (B : RulesBackend) (float : FloatParser) :
    (∀ (σ : Type) (v : Value) (s : String) (f : String → σ → Bool × σ) (st : σ),
      visitValues v (literalPath s) f st =
        match resolve v s with
        | some text => f text st
        | none => (false, st)) ∧
    (∀ s, PlainField s → parsePath s = .ok (literalPath s)) ∧
    (∀ old new : RuleSet, B.semverMajor old.version = .ok 1 → B.semverMajor new.version = .ok 2 →
      new.rules = old.rules → (∀ rule ∈ old.rules, rule.PlainFields) → Engine.new B new = Engine.new B old) ∧
    ∀ (bytes bytes' : List UInt8) (old new : WireRuleSet B.Yaml) (rules : RuleSet),
      B.yamlRuleSet bytes = .ok old → B.yamlRuleSet bytes' = .ok new → Renamed B old new →
      RuleSet.parse B bytes = .ok rules → (∀ rule ∈ rules.rules, rule.PlainFields) →
      ∃ rules' engine engine', RuleSet.parse B bytes' = .ok rules' ∧
        Engine.new B rules = .ok engine ∧ Engine.new B rules' = .ok engine' ∧
        (∀ record, engine'.evaluate record = engine.evaluate record) ∧
        (∀ record, engine'.evaluateLinear record = engine.evaluateLinear record) ∧
        ∀ text, engine'.evaluateRaw float text = engine.evaluateRaw float text := by
  refine ⟨fun σ => visitValues_literalPath, fun s => parsePath_literal, fun old new => engine_new_plain, ?_⟩
  intro bytes bytes' old new rules hold hnew hrenamed hparse hplain
  obtain ⟨hversion, hparse'⟩ := parse_renamed hold hnew hrenamed hparse hplain
  obtain ⟨engine, hengine⟩ := Engine.new_of_parse B hparse
  have hmajor : B.semverMajor rules.version = .ok 1 := by
    rw [hversion]
    exact hrenamed.major_old
  have hsame : Engine.new B ⟨new.version, rules.rules⟩ = Engine.new B rules :=
    engine_new_plain hmajor hrenamed.major_new rfl hplain
  exact ⟨_, engine, engine, hparse', hengine, by rw [hsame, hengine], fun _ => rfl, fun _ => rfl, fun _ => rfl⟩

def legacyRule : WireRuleV1 := ⟨"decrypt", [⟨"userIdentity.type", "^AWSService$"⟩, ⟨"eventName", "^Decrypt$"⟩]⟩

/-- A backend that reads one v1 document from empty bytes and its v2 form from any others. -/
def legacyBackend : RulesBackend where
  Yaml := WireRuleV1 ⊕ WireRuleV2
  yamlRuleSet bytes := if bytes = [] then .ok ⟨"1.0.0", [.inl legacyRule]⟩ else .ok ⟨"2.0.0", [.inr legacyRule.renamed]⟩
  yamlRuleV1 raw := raw.elim .ok (fun _ => .error "missing field `field_name`")
  yamlRuleV2 raw := raw.elim (fun _ => .error "unknown field `field_name`") .ok
  semverMajor version :=
    if version = "1.0.0" then .ok 1 else if version = "2.0.0" then .ok 2 else .error "unexpected end of input"
  regexBuild pattern :=
    if pattern = "^AWSService$" then .ok (fun s => s = "AWSService")
    else if pattern = "^Decrypt$" then .ok (fun s => s = "Decrypt")
    else .error "regex parse error"

theorem v1_rulesets_keep_meaning_sample :
    ∃ rules' engine engine', RuleSet.parse legacyBackend [0] = .ok rules' ∧
      Engine.new legacyBackend ⟨"1.0.0", [⟨"decrypt", [⟨"userIdentity.type", .regex "^AWSService$", false⟩,
        ⟨"eventName", .regex "^Decrypt$", false⟩]⟩]⟩ = .ok engine ∧
      Engine.new legacyBackend rules' = .ok engine' ∧
      (∀ record, engine'.evaluate record = engine.evaluate record) ∧
      (∀ record, engine'.evaluateLinear record = engine.evaluateLinear record) ∧
      ∀ text, engine'.evaluateRaw (fun _ => none) text = engine.evaluateRaw (fun _ => none) text := by
  obtain ⟨-, -, -, hdocuments⟩ := v1_rulesets_keep_meaning legacyBackend (fun _ => none)
  have hplain : ∀ s ∈ ["userIdentity.type", "eventName"], PlainField s := by
    intro s hs
    rcases List.mem_cons.mp hs with rfl | hs
    · exact ⟨by decide, by decide⟩
    · rw [List.mem_singleton.mp hs]
      exact ⟨by decide, by decide⟩
  refine hdocuments [] [0] _ _ _ rfl rfl ⟨rfl, rfl, ?_⟩ rfl ?_
  · refine .cons ?_ .nil
    intro rule hread
    cases hread
    rfl
  · intro rule hrule m hm
    rw [List.mem_singleton.mp hrule] at hm
    apply hplain
    rcases List.mem_cons.mp hm with rfl | hm
    · simp
    · rw [List.mem_singleton.mp hm]
      simp

end Meaning

end CloudTrailFilter.Filter
