import CloudTrailFilter.Lib.Fallible
import CloudTrailFilter.Filter.Path

/-!
# The rules document

Both schema versions of the rules document normalise into one `RuleSet`. The YAML reader,
the version parser and the regex compiler are libraries the loader calls, bundled in
`RulesBackend`; everything the loader itself decides is here.
-/

namespace CloudTrailFilter.Filter
open Fallible

/-- A compiled regular expression: its source pattern and what it matches. -/
structure Regex where
  pattern : String
  isMatch : String → Bool

inductive MatchOp where
  | regex (pattern : String)
  | equals (s : String)
  | anyOf (v : List String)
  | absent (b : Bool)
deriving DecidableEq, Repr

structure Match where
  field : String
  op : MatchOp
  negate : Bool
deriving DecidableEq, Repr

structure Rule where
  name : String
  «matches» : List Match
deriving DecidableEq, Repr

structure RuleSet where
  version : String
  rules : List Rule
deriving DecidableEq, Repr

structure WireMatchV1 where
  fieldName : String
  regex : String

structure WireRuleV1 where
  name : String
  «matches» : List WireMatchV1

structure WireMatchV2 where
  field : String
  regex : Option String
  equals : Option String
  anyOf : Option (List String)
  absent : Option Bool
  negate : Bool

structure WireRuleV2 where
  name : String
  «matches» : List WireMatchV2

structure WireRuleSet (Yaml : Type) where
  version : String
  rules : List Yaml

/-- Why a rules document is refused, with the data its message quotes. -/
inductive ConfigError where
  | source (msg : String)
  | yaml (msg : String)
  | invalidVersion (version msg : String)
  | invalidRule (major : ℕ) (msg : String)
  | emptyAnyOf (rule field : String)
  | operatorCount (rule field : String) (found : ℕ)
  | unsupportedVersion (version : String) (major : ℕ)
  | emptyName
  | duplicateName (name : String)
  | emptyMatches (name : String)
  | invalidPath (rule field : String) (e : PathParseError)
  | invalidRegex (rule pattern msg : String)
deriving DecidableEq, Repr

/-- The libraries the rules loader calls: `serde_yaml_ng`, `semver` and `regex` under
`REGEX_SIZE_LIMIT`. -/
structure RulesBackend where
  Yaml : Type
  yamlRuleSet : List UInt8 → Except String (WireRuleSet Yaml)
  yamlRuleV1 : Yaml → Except String WireRuleV1
  yamlRuleV2 : Yaml → Except String WireRuleV2
  semverMajor : String → Except String ℕ
  regexBuild : String → Except String (String → Bool)

variable (B : RulesBackend)

namespace WireMatchV2

/-- Exactly one operator per condition: none or several are refused at load. -/
def intoMatch (m : WireMatchV2) (ruleName : String) : Except ConfigError Match :=
  let regexOps := m.regex.toList.map MatchOp.regex
  let equalsOps := m.equals.toList.map MatchOp.equals
  let anyOfOps := m.anyOf.toList.map MatchOp.anyOf
  let absentOps := m.absent.toList.map MatchOp.absent
  if m.anyOf = some [] then .error (.emptyAnyOf ruleName m.field)
  else
    match regexOps ++ equalsOps ++ anyOfOps ++ absentOps with
    | [op] => .ok ⟨m.field, op, m.negate⟩
    | ops => .error (.operatorCount ruleName m.field ops.length)

end WireMatchV2

def readRuleV1 (raw : B.Yaml) : Except ConfigError Rule :=
  match B.yamlRuleV1 raw with
  | .error e => .error (.invalidRule 1 e)
  | .ok r => .ok ⟨r.name, r.matches.map (fun m => ⟨m.fieldName, .regex m.regex, false⟩)⟩

def readRuleV2 (raw : B.Yaml) : Except ConfigError Rule :=
  match B.yamlRuleV2 raw with
  | .error e => .error (.invalidRule 2 e)
  | .ok r => do
    let ms ← r.matches.mapM (·.intoMatch r.name)
    .ok ⟨r.name, ms⟩

/-- Compiles a pattern, keeping its source text. -/
def compileRegex (rule pattern : String) : Except ConfigError Regex :=
  match B.regexBuild pattern with
  | .ok isMatch => .ok ⟨pattern, isMatch⟩
  | .error e => .error (.invalidRegex rule pattern e)

/-- The per-condition part of `validate`. A v1 field has no syntax to refuse. -/
def validateMatch (major : ℕ) (rule : String) (m : Match) : Except ConfigError Unit := do
  if major ≠ 1 then
    match parsePath m.field with
    | .error e => .error (.invalidPath rule m.field e)
    | .ok _ => .ok ()
  match m.op with
  | .regex pattern => do
    let _ ← compileRegex B rule pattern
    .ok ()
  | _ => .ok ()

/-- The loop of `validate`, with the rule names seen so far. -/
def validateRules (major : ℕ) : List String → List Rule → Except ConfigError Unit
  | _, [] => .ok ()
  | names, rule :: rules =>
    if rule.name = "" then .error .emptyName
    else if rule.name ∈ names then .error (.duplicateName rule.name)
    else if rule.matches = [] then .error (.emptyMatches rule.name)
    else do
      rule.matches.forM (validateMatch B major rule.name)
      validateRules major (rule.name :: names) rules

/-- The rules of the document, read under the schema of its major version. -/
def readRules (wire : WireRuleSet B.Yaml) (major : ℕ) : Except ConfigError (List Rule) :=
  if major = 1 then wire.rules.mapM (readRuleV1 B)
  else if major = 2 then wire.rules.mapM (readRuleV2 B)
  else .error (.unsupportedVersion wire.version major)

namespace RuleSet

def validate (rs : RuleSet) (major : ℕ) : Except ConfigError Unit :=
  validateRules B major [] rs.rules

def parse (bytes : List UInt8) : Except ConfigError RuleSet :=
  match B.yamlRuleSet bytes with
  | .error e => .error (.yaml e)
  | .ok wire =>
    match B.semverMajor wire.version with
    | .error e => .error (.invalidVersion wire.version e)
    | .ok major => do
      let rules ← readRules B wire major
      validate B ⟨wire.version, rules⟩ major
      .ok ⟨wire.version, rules⟩

end RuleSet

/-- What `validate` has established of a rule when it succeeds. -/
structure Rule.Valid (major : ℕ) (rule : Rule) : Prop where
  name_ne : rule.name ≠ ""
  matches_ne : rule.matches ≠ []
  path_ok : major ≠ 1 → ∀ m ∈ rule.matches, ∃ p, parsePath m.field = .ok p
  regex_ok : ∀ m ∈ rule.matches, ∀ pattern, m.op = .regex pattern →
    ∃ f, B.regexBuild pattern = .ok f

lemma validateMatch_ok {major : ℕ} {rule : String} {m : Match}
    (h : validateMatch B major rule m = .ok ()) :
    (major ≠ 1 → ∃ p, parsePath m.field = .ok p) ∧
      ∀ pattern, m.op = .regex pattern → ∃ f, B.regexBuild pattern = .ok f := by
  constructor
  · intro hm
    cases hp : parsePath m.field with
    | ok p => exact ⟨p, rfl⟩
    | error e => simp [validateMatch, hm, hp] at h
  · intro pattern hop
    cases hr : B.regexBuild pattern with
    | ok f => exact ⟨f, rfl⟩
    | error e =>
      simp only [validateMatch, hop, compileRegex, hr] at h
      split at h
      · cases hp : parsePath m.field <;> simp [hp] at h
      · simp at h

lemma validateRules_ok {major : ℕ} {names : List String} {rules : List Rule}
    (h : validateRules B major names rules = .ok ()) : ∀ rule ∈ rules, rule.Valid B major := by
  induction rules generalizing names with
  | nil => simp
  | cons rule rules ih =>
    simp only [validateRules] at h
    split_ifs at h with h1 h2 h3
    obtain ⟨_, hf, hrest⟩ := bind_ok_iff.mp h
    intro r hr
    rcases List.mem_cons.mp hr with rfl | hr
    · have hm := fun m hm => validateMatch_ok B (forM_ok hf m hm)
      exact ⟨h1, h3, fun hmaj m hmem => (hm m hmem).1 hmaj, fun m hmem => (hm m hmem).2⟩
    · exact ih hrest r hr

lemma readRules_ok {wire : WireRuleSet B.Yaml} {major : ℕ} {rules : List Rule}
    (h : readRules B wire major = .ok rules) : major = 1 ∨ major = 2 := by
  unfold readRules at h
  split_ifs at h with h1 h2
  · exact .inl h1
  · exact .inr h2

/-- An accepted rules document has a supported version and every rule of it validated. -/
theorem RuleSet.parse_ok {bytes : List UInt8} {rs : RuleSet} (h : RuleSet.parse B bytes = .ok rs) :
    ∃ major, B.semverMajor rs.version = .ok major ∧ (major = 1 ∨ major = 2) ∧
      ∀ rule ∈ rs.rules, rule.Valid B major := by
  unfold RuleSet.parse at h
  cases hw : B.yamlRuleSet bytes with
  | error e => simp [hw] at h
  | ok wire =>
    cases hv : B.semverMajor wire.version with
    | error e => simp [hw, hv] at h
    | ok major =>
      simp only [hw, hv] at h
      obtain ⟨rules, hr, h⟩ := bind_ok_iff.mp h
      obtain ⟨_, hval, h⟩ := bind_ok_iff.mp h
      cases h
      exact ⟨major, hv, readRules_ok B hr, validateRules_ok B hval⟩

end CloudTrailFilter.Filter
