import CloudTrailFilter.Config.Uri
import CloudTrailFilter.Filter.Candidates
import CloudTrailFilter.Filter.Explain
import CloudTrailFilter.Pipeline.Container

/-!
# The rules of the command line

`validate`, `test` and `filter` load their rules from the URIs that the functions load theirs from,
or from a bare path. `validate` reports the rules that the index cannot narrow, and fails when they
are too large a part.
-/

namespace CloudTrailFilter.Cli
open CloudTrailFilter.Json CloudTrailFilter.Filter CloudTrailFilter.Config

section Load

/-- What the places of rules documents answer. -/
structure Places where
  getParameter : String → Except String (Option Parameter)
  headObject : String → String → Except String (Option String)
  getObject : String → String → Except String GetObjectOutput
  stat : String → Stat
  read : String → Except String Bytes

/-- A `ConfigSource`, by what it answers. -/
structure ConfigSource where
  version : Versioned
  fetch : Fetch

variable (debug : String → String) (places : Places)

/-- The source of the rules of a function, as every composition root builds it. -/
def buildConfigSource (uri : String) : Except ConfigError ConfigSource := do
  match ← ConfigUri.parse debug uri with
  | .ssm path =>
    pure ⟨SsmConfigSource.version (places.getParameter path), SsmConfigSource.fetch (places.getParameter path)⟩
  | .s3 bucket key =>
    pure ⟨S3ConfigSource.version (places.headObject bucket key), S3ConfigSource.fetch (places.getObject bucket key)⟩
  | .file path =>
    pure ⟨FileConfigSource.version (debug path) (places.stat path),
      FileConfigSource.fetch (debug path) (places.stat path) (places.read path)⟩

/-- Why a command ends with an error. The texts of the operating system are carried along. -/
inductive RulesError where
  | unread (path message : String)
  | config (error : ConfigError)
  | unindexed (message : String)
deriving DecidableEq

def readPath (path : String) : Except RulesError Bytes :=
  (places.read path).mapError (fun message => .unread (debug path) message)

def loadRulesBytes (uri : String) : Except RulesError Bytes :=
  if "://".toList <:+: uri.toList then
    match ConfigUri.parse debug uri with
    | .error e => .error (.config e)
    | .ok (.file path) => readPath debug places path
    | .ok (.s3 bucket key) => ((S3ConfigSource.fetch (places.getObject bucket key)).map Prod.fst).mapError .config
    | .ok (.ssm path) => ((SsmConfigSource.fetch (places.getParameter path)).map Prod.fst).mapError .config
  else readPath debug places uri

variable (B : RulesBackend)

def loadEngine (uri : String) : Except RulesError (Engine × RuleSet) := do
  let bytes ← loadRulesBytes debug places uri
  let ruleSet ← (RuleSet.parse B bytes).mapError .config
  let engine ← (Engine.new B ruleSet).mapError .config
  pure (engine, ruleSet)

end Load

section Errors
variable {ε ε' α : Type}

lemma mapError_ok_iff {f : ε → ε'} {x : Except ε α} {a : α} : x.mapError f = .ok a ↔ x = .ok a := by
  cases x <;> simp [Except.mapError]

end Errors

section Validate
variable (debug : String → String)

/-- What a command prints, and how it ends. -/
structure Report where
  stdout : List String
  stderr : List String
  result : Except RulesError Unit

/-- `name` is indexed in the source, so a rule past the end is a panic there. -/
def explainAlwaysRule (ruleSet : RuleSet) (ruleIdx : ℕ) : String :=
  let name := ((ruleSet.rules[ruleIdx]?).map Rule.name).getD ""
  match ruleSet.indexKeyDescription ruleIdx with
  | some described =>
    "warning: rule " ++ debug name ++ " not indexed (" ++ described ++
      " could not be reduced to a fixed set of literals): checked against every record"
  | none =>
    "warning: rule " ++ debug name ++ " not indexed (no eventSource or eventName condition): " ++
      "checked against every record"

/-- The part of the rules that is not indexed, in percent and rounded up, for `usize` of `w` bits. -/
def unindexedPercent (w unindexed ruleCount : ℕ) : ℕ :=
  if ruleCount = 0 then 0 else (min (unindexed * 100) (2 ^ w - 1) + ruleCount - 1) / ruleCount

def cmdValidate (w : ℕ) (loaded : Except RulesError (Engine × RuleSet)) (maxUnindexed : Option (Word 8)) : Report :=
  match loaded with
  | .error e => ⟨[], [], .error e⟩
  | .ok (engine, ruleSet) =>
    let ruleCount := ruleSet.rules.length
    let patternCount := (ruleSet.rules.map (fun rule => rule.matches.length)).sum
    let unindexed := engine.index.always.length
    let percent := unindexedPercent w unindexed ruleCount
    ⟨[toString ruleCount ++ " rules, " ++ toString patternCount ++ " patterns compiled"],
      engine.index.always.map (explainAlwaysRule debug ruleSet),
      match maxUnindexed with
      | none => .ok ()
      | some ceiling =>
        if ceiling.val < percent then
          .error (.unindexed (toString unindexed ++ " of " ++ toString ruleCount ++ " rules (" ++ toString percent ++
            "%) could not be indexed, exceeding --max-unindexed " ++ toString ceiling.val))
        else .ok ()⟩

section Exact
variable {debug}
variable {places : Places} {B : RulesBackend} {uri : String} {engine : Engine} {rs : RuleSet}

lemma loadEngine_ok_iff : loadEngine debug places B uri = .ok (engine, rs) ↔
    ∃ bytes, loadRulesBytes debug places uri = .ok bytes ∧ RuleSet.parse B bytes = .ok rs ∧
      Engine.new B rs = .ok engine := by
  simp only [loadEngine, Fallible.bind_ok_iff, mapError_ok_iff, pure, Except.pure, Except.ok.injEq, Prod.mk.injEq]
  constructor
  · rintro ⟨bytes, hbytes, rs', hrs, engine', hengine, rfl, rfl⟩
    exact ⟨bytes, hbytes, hrs, hengine⟩
  · rintro ⟨bytes, hbytes, hrs, hengine⟩
    exact ⟨bytes, hbytes, rs, hrs, engine, hengine, rfl, rfl⟩

/-- Rounding up does not change which ceilings are exceeded. -/
lemma unindexedPercent_le_iff (w unindexed ruleCount ceiling : ℕ) (hle : unindexed ≤ ruleCount) :
    unindexedPercent w unindexed ruleCount ≤ ceiling ↔ min (unindexed * 100) (2 ^ w - 1) ≤ ceiling * ruleCount := by
  unfold unindexedPercent
  split_ifs with hzero
  · subst hzero
    simp [Nat.le_zero.mp hle]
  · generalize min (unindexed * 100) (2 ^ w - 1) = m
    rw [← Nat.lt_succ_iff, Nat.div_lt_iff_lt_mul (Nat.pos_of_ne_zero hzero), Nat.succ_mul]
    omega

/-- `validate` warns about exactly the rules that the index leaves to be checked against every record,
one warning a rule and in their order, and fails exactly when they are more than the ceiling's
part of the rules. -/
theorem validate_exact (w : ℕ) (h : loadEngine debug places B uri = .ok (engine, rs)) (maxUnindexed : Option (Word 8)) :
    ∃ unindexed : List ℕ, unindexed.Pairwise (· < ·) ∧
      (∀ i, i ∈ unindexed ↔ i < rs.rules.length ∧ ∀ record, engine.considers record i = true) ∧
      (cmdValidate debug w (loadEngine debug places B uri) maxUnindexed).stderr =
        unindexed.map (explainAlwaysRule debug rs) ∧
      ((cmdValidate debug w (loadEngine debug places B uri) maxUnindexed).result = .ok () ↔
        ∀ ceiling ∈ maxUnindexed, min (unindexed.length * 100) (2 ^ w - 1) ≤ ceiling.val * rs.rules.length) := by
  obtain ⟨-, -, -, hengine⟩ := loadEngine_ok_iff.mp h
  obtain ⟨major, hmajor⟩ := major_of_new hengine
  have hlength := (ruleFires_iff hengine hmajor).1
  have hmem : ∀ i, i ∈ engine.index.always ↔ i < rs.rules.length ∧ ∀ record, engine.considers record i = true := by
    intro i
    rw [Engine.mem_always_iff hengine, hlength]
  have hsorted := Engine.always_sorted hengine
  refine ⟨engine.index.always, hsorted, hmem, ?_, ?_⟩
  · rw [h]
    rfl
  · have hle : engine.index.always.length ≤ rs.rules.length := by
      have hsub : engine.index.always ⊆ List.range rs.rules.length := by
        intro i hi
        exact List.mem_range.mpr ((hmem i).mp hi).1
      have hnodup : engine.index.always.Nodup := hsorted.imp Nat.ne_of_lt
      simpa using (hnodup.subperm hsub).length_le
    rw [h]
    cases maxUnindexed with
    | none => simp [cmdValidate]
    | some ceiling =>
      have hiff := unindexedPercent_le_iff w _ _ ceiling.val hle
      simp only [cmdValidate, Option.mem_def, Option.some.injEq, forall_eq', ← hiff]
      split_ifs with hover
      · simpa using hover
      · simpa using hover

/-- A file of rules in the working directory. -/
def samplePlaces : Places where
  getParameter _ := .error "AccessDeniedException"
  headObject _ _ := .error "AccessDenied"
  getObject _ _ := .error "AccessDenied"
  stat _ := .modified 1735689600 0
  read path := if path = "rules.yaml" then .ok [] else .error "No such file or directory (os error 2)"

theorem validate_exact_sample : ∃ unindexed : List ℕ, unindexed.Pairwise (· < ·) ∧
    (cmdValidate id 64 (loadEngine id samplePlaces sampleBackend "rules.yaml") (some 49)).stderr =
      unindexed.map (explainAlwaysRule id sampleRules) ∧
    ((cmdValidate id 64 (loadEngine id samplePlaces sampleBackend "rules.yaml") (some 49)).result = .ok () ↔
      ∀ ceiling ∈ some (49 : Word 8), min (unindexed.length * 100) (2 ^ 64 - 1) ≤ ceiling.val * 2) := by
  obtain ⟨engine, hengine⟩ : ∃ engine, Engine.new sampleBackend sampleRules = .ok engine := ⟨_, rfl⟩
  have hload : loadEngine id samplePlaces sampleBackend "rules.yaml" = .ok (engine, sampleRules) := by
    refine loadEngine_ok_iff.mpr ⟨[], ?_, sampleRules_parse, hengine⟩
    have hpath : ¬"://".toList <:+: "rules.yaml".toList := by decide
    rw [loadRulesBytes, if_neg hpath]
    rfl
  obtain ⟨unindexed, hsorted, -, hstderr, hresult⟩ := validate_exact 64 hload (some 49)
  exact ⟨unindexed, hsorted, hstderr, hresult⟩

end Exact

end Validate

section Served
variable {debug : String → String} {places : Places} {B : RulesBackend} {uri : String} {engine : Engine}

/-- What the cache holds after the warm-up. -/
lemma prime_value_iff {T : Type} {compile : Bytes → Except ConfigError T} {visit : Visit} {value : T} :
    (prime compile visit none).cached.map Cached.value = some value ↔
      ∃ bytes version, visit.fetch = .ok (bytes, version) ∧ compile bytes = .ok value := by
  rw [Config.prime]
  rcases load_cases compile visit none with ⟨bytes, version, value', hvisit, hcompile, -, hload⟩ | ⟨e, hfails, hload⟩
  · rw [hload, Option.map_some, Option.some.injEq]
    constructor
    · rintro rfl
      exact ⟨bytes, version, hvisit, hcompile⟩
    · rintro ⟨bytes', version', hvisit', hcompile'⟩
      rw [hvisit, Except.ok.injEq, Prod.mk.injEq] at hvisit'
      rw [← hvisit'.1, hcompile, Except.ok.injEq] at hcompile'
      exact hcompile'
  · rw [hload]
    simp only [Option.map_none, reduceCtorEq, false_iff]
    rintro ⟨bytes, version, hvisit, hcompile⟩
    simp [fetchAndCompile, hvisit, hcompile, bind, Except.bind, pure, Except.pure] at hfails

lemma compileRules_ok_iff {bytes : Bytes} : Pipeline.compileRules B bytes = .ok engine ↔
    ∃ rs, RuleSet.parse B bytes = .ok rs ∧ Engine.new B rs = .ok engine := by
  rw [Pipeline.compileRules, Fallible.bind_ok_iff]

lemma exists_loadEngine_iff : (∃ rs, loadEngine debug places B uri = .ok (engine, rs)) ↔
    ∃ bytes, loadRulesBytes debug places uri = .ok bytes ∧ Pipeline.compileRules B bytes = .ok engine := by
  simp only [loadEngine_ok_iff, compileRules_ok_iff]
  constructor
  · rintro ⟨rs, bytes, hbytes, hrs⟩
    exact ⟨bytes, hbytes, rs, hrs⟩
  · rintro ⟨bytes, hbytes, rs, hrs⟩
    exact ⟨rs, bytes, hbytes, hrs⟩

lemma map_fst_ok_iff {fetch : Fetch} {bytes : Bytes} :
    (fetch.map Prod.fst).mapError RulesError.config = .ok bytes ↔ ∃ version, fetch = .ok (bytes, version) := by
  rw [mapError_ok_iff]
  rcases fetch with e | ⟨content, version⟩
  · simp [Except.map]
  · simp [Except.map, eq_comm]

/-- A file is fetched when it can be read and has a time to tag it with. -/
lemma fetch_file_ok_iff {path : String} {stat : Stat} {read : Except String Bytes} {bytes : Bytes} :
    (∃ version, FileConfigSource.fetch path stat read = .ok (bytes, version)) ↔
      read = .ok bytes ∧ ∃ secs nanos, stat = .modified secs nanos := by
  cases stat with
  | modified secs nanos =>
    cases read with
    | error message => simp [FileConfigSource.fetch, FileConfigSource.mtime, bind, Except.bind]
    | ok content => simp [FileConfigSource.fetch, FileConfigSource.mtime, bind, Except.bind, pure, Except.pure, eq_comm]
  | _ => simp [FileConfigSource.fetch, FileConfigSource.mtime, bind, Except.bind]

lemma scheme_infix {location : ConfigUri} (h : ConfigUri.parse debug uri = .ok location) :
    "://".toList <:+: uri.toList := by
  obtain ⟨-, rfl⟩ := (configUri_parse_iff _ _ _).mp h
  cases location with
  | ssm path => exact ⟨"ssm".toList, path.toList, by simp [ConfigUri.text]⟩
  | s3 bucket key => exact ⟨"s3".toList, (bucket ++ "/" ++ key).toList, by simp [ConfigUri.text]⟩
  | file path => exact ⟨"file".toList, path.toList, by simp [ConfigUri.text]⟩

/-- A source fetches what a command reads from its place, a file with no time apart. -/
lemma fetch_ok_iff (places : Places) {location : ConfigUri} (hparse : ConfigUri.parse debug uri = .ok location)
    (hin : "://".toList <:+: uri.toList) :
    ∃ source, buildConfigSource debug places uri = .ok source ∧
      ∀ bytes, (∃ version, source.fetch = .ok (bytes, version)) ↔ loadRulesBytes debug places uri = .ok bytes ∧
        ∀ path, location = .file path → ∃ secs nanos, places.stat path = .modified secs nanos := by
  rw [buildConfigSource, loadRulesBytes, if_pos hin, hparse]
  cases location with
  | ssm path =>
    refine ⟨_, rfl, fun bytes => ?_⟩
    simp [map_fst_ok_iff]
  | s3 bucket key =>
    refine ⟨_, rfl, fun bytes => ?_⟩
    simp [map_fst_ok_iff]
  | file path =>
    refine ⟨_, rfl, fun bytes => ?_⟩
    have hread : readPath debug places path = .ok bytes ↔ places.read path = .ok bytes := mapError_ok_iff
    rw [fetch_file_ok_iff]
    simp [hread]

/-- A function whose rules are at this URI serves the rules that the commands load from it, except that
a path with no scheme is no place for a function, and that a file needs a time to tag it with. -/
theorem served_iff_loaded (debug : String → String) (places : Places) (B : RulesBackend) (uri : String) (now : ℕ)
    (engine : Engine) :
    (∃ source, buildConfigSource debug places uri = .ok source ∧
      (prime (Pipeline.compileRules B) ⟨now, source.version, source.fetch⟩ none).cached.map Cached.value = some engine) ↔
      "://".toList <:+: uri.toList ∧ (∃ rs, loadEngine debug places B uri = .ok (engine, rs)) ∧
        ∀ path, uri = "file://" ++ path → ∃ secs nanos, places.stat path = .modified secs nanos := by
  have hfile : ∀ path, uri = "file://" ++ path ↔ ConfigUri.parse debug uri = .ok (.file path) := by
    intro path
    rw [configUri_parse_iff]
    exact ⟨fun h => ⟨trivial, h.symm⟩, fun h => h.2.symm⟩
  simp only [exists_loadEngine_iff, prime_value_iff, hfile]
  cases hparse : ConfigUri.parse debug uri with
  | error e =>
    constructor
    · rintro ⟨source, hsource, -⟩
      simp [buildConfigSource, hparse, bind, Except.bind] at hsource
    · rintro ⟨hin, ⟨bytes, hbytes, -⟩, -⟩
      rw [loadRulesBytes, if_pos hin, hparse] at hbytes
      cases hbytes
  | ok location =>
    have hin := scheme_infix hparse
    obtain ⟨source, hsource, hfetch⟩ := fetch_ok_iff places hparse hin
    simp only [Except.ok.injEq]
    constructor
    · rintro ⟨source', hsource', bytes, version, hbytes, hcompile⟩
      rw [hsource, Except.ok.injEq] at hsource'
      subst hsource'
      obtain ⟨hload, hstat⟩ := (hfetch bytes).mp ⟨version, hbytes⟩
      exact ⟨hin, ⟨bytes, hload, hcompile⟩, hstat⟩
    · rintro ⟨-, ⟨bytes, hload, hcompile⟩, hstat⟩
      obtain ⟨version, hbytes⟩ := (hfetch bytes).mpr ⟨hload, hstat⟩
      exact ⟨source, hsource, bytes, version, hbytes, hcompile⟩

end Served

end CloudTrailFilter.Cli
