import CloudTrailFilter.Settings.Layers

/-!
# Accepted settings

A load is accepted when its file and every variable that is set can be read, the version is 1 and the
record that the layers come to is valid. That record has each field from the environment if it is
set there, else from the file if it is given there, else its default.
-/

namespace CloudTrailFilter.Loader
open CloudTrailFilter.Json CloudTrailFilter.Decode Fields

section Environment
variable (B : Backend) (env : String → Option String)

def envErrorText (B : Backend) (key raw e : String) : String :=
  "invalid " ++ key ++ "=" ++ B.debug raw ++ ": " ++ e

/-- What the environment says about a field. -/
def envLayer : Layer ConfigError Var.Value := fun v =>
  (env v.key).map (fun raw => (fromStr B.debug raw).mapError (fun e => .parse (envErrorText B v.key raw e)))

variable {B env}

lemma apply_eq_put (v : Var) (doc : Document) :
    apply B env v.key (Var.set v) doc = documentFields.put (envLayer B env) v doc := by
  unfold apply Fields.put envLayer
  cases env v.key with
  | none => rfl
  | some raw =>
    simp only [Option.map_some]
    cases (fromStr B.debug raw : Except String v.Value) with
    | ok x => rfl
    | error e => rfl

lemma bind_congr₂ {α β : Type} {x y : Except ConfigError α} {f g : α → Except ConfigError β} (hx : x = y)
    (hf : ∀ a, f a = g a) : (x >>= f) = (y >>= g) := by
  rw [hx, funext hf]

/-- Reading the environment is an overlay of the fields in the order of the source. -/
lemma applyEnv_eq (doc : Document) :
    doc.applyEnv B env = documentFields.overlay (envLayer B env) Var.all doc := by
  unfold Document.applyEnv Fields.overlay Var.all
  simp only [List.foldlM_cons, List.foldlM_nil, ← apply_eq_put, bind_pure]
  -- one variable after the other: with its name and its setter spelled out, the two sides agree
  iterate 23 refine bind_congr₂ rfl (fun doc => ?_)
  rfl

end Environment

section File

/-- The file that gives nothing. -/
def WireDocument.empty : WireDocument := ⟨none, none, none, none, none, none, none, none⟩

/-- What a file says about a field. -/
def WireDocument.given (wire : WireDocument) (v : Var) : Option v.Value :=
  match v with
  | .destBucket => wire.destination.bind WireDestination.bucket
  | .keyPrefix => wire.destination.bind WireDestination.keyPrefix
  | .includeKeyRegex => wire.source.bind WireSource.includeKeyRegex
  | .excludeKeyRegex => wire.source.bind WireSource.excludeKeyRegex
  | .mode => wire.processing.bind WireProcessing.mode
  | .streamThresholdBytes => wire.processing.bind WireProcessing.streamThresholdBytes
  | .maxObjectBytes => wire.processing.bind WireProcessing.maxObjectBytes
  | .multipartPartBytes => wire.processing.bind WireProcessing.multipartPartBytes
  | .gzipLevel => wire.processing.bind WireProcessing.gzipLevel
  | .objectConcurrency => wire.processing.bind WireProcessing.objectConcurrency
  | .gzipChunks => wire.processing.bind WireProcessing.gzipChunks
  | .dryRun => wire.behavior.bind WireBehavior.dryRun
  | .onConfigError => wire.behavior.bind WireBehavior.onConfigError
  | .onMissingObject => wire.behavior.bind WireBehavior.onMissingObject
  | .onUnrecognizedObject => wire.behavior.bind WireBehavior.onUnrecognizedObject
  | .onParseError => wire.behavior.bind WireBehavior.onParseError
  | .onObjectTooLarge => wire.behavior.bind WireBehavior.onObjectTooLarge
  | .partialBatchFailures => wire.behavior.bind WireBehavior.partialBatchFailures
  | .bodyFormat => wire.sqs.bind WireSqs.bodyFormat
  | .uri => wire.rules.bind WireRules.uri
  | .ttlSeconds => wire.rules.bind WireRules.ttlSeconds
  | .metrics => wire.observability.bind WireObservability.metrics
  | .namespace => wire.observability.bind WireObservability.namespace
  | .logLevel => wire.observability.bind WireObservability.logLevel

/-- The default of a field. -/
def Var.default (v : Var) : v.Value := v.get Document.default.intoSettings

/-- A section that is missing is one that gives nothing. -/
lemma get_read (wire : WireDocument) (v : Var) :
    v.get wire.read.intoSettings = (wire.given v).getD v.default := by
  obtain ⟨version, source, destination, processing, behavior, sqs, rules, observability⟩ := wire
  cases v with
  | destBucket | keyPrefix => cases destination <;> rfl
  | includeKeyRegex | excludeKeyRegex => cases source <;> rfl
  | mode | streamThresholdBytes | maxObjectBytes | multipartPartBytes | gzipLevel | objectConcurrency
  | gzipChunks => cases processing <;> rfl
  | dryRun | onConfigError | onMissingObject | onUnrecognizedObject | onParseError | onObjectTooLarge
  | partialBatchFailures => cases behavior <;> rfl
  | bodyFormat => cases sqs <;> rfl
  | uri | ttlSeconds => cases rules <;> rfl
  | metrics | «namespace» | logLevel => cases observability <;> rfl

/-- The file of a load; without one, the file that gives nothing. -/
def readFile (B : Backend) (bytes : Option Bytes) : Except String WireDocument :=
  match bytes with
  | some b => B.yaml b
  | none => .ok .empty

lemma readDocument_eq (B : Backend) (bytes : Option Bytes) :
    readDocument B bytes = ((readFile B bytes).map WireDocument.read).mapError .parse := by
  cases bytes <;> rfl

end File

section Validity
variable {B : Backend}

/-- What validation asks of a record. -/
structure Settings.Valid (B : Backend) (s : Settings) : Prop where
  bucket : s.destination.bucket ≠ ""
  includes : (B.regexBuild s.source.includeKeyRegex).isOk = true
  excludes : (B.regexBuild s.source.excludeKeyRegex).isOk = true
  gzipLevel : s.processing.gzipLevel.val ≤ 9
  objectConcurrency : 1 ≤ s.processing.objectConcurrency.val ∧ s.processing.objectConcurrency.val ≤ 64
  gzipChunks : 1 ≤ s.processing.gzipChunks.val ∧ s.processing.gzipChunks.val ≤ 16
  sizes : s.processing.streamThresholdBytes.val ≤ s.processing.maxObjectBytes.val
  parts : 5 * 1024 * 1024 ≤ s.processing.multipartPartBytes.val

/-- Patterns compile to a filter when both are accepted, and the first that is not is named. -/
lemma compile_cases (source : Source) :
    (∃ includes excludes, B.regexBuild source.includeKeyRegex = .ok includes ∧
      B.regexBuild source.excludeKeyRegex = .ok excludes ∧ KeyFilter.compile B source = .ok ⟨includes, excludes⟩) ∨
    ((B.regexBuild source.includeKeyRegex).isOk = false ∨ (B.regexBuild source.excludeKeyRegex).isOk = false) ∧
      ∃ e, KeyFilter.compile B source = .error e := by
  unfold KeyFilter.compile compileKeyRegex
  cases hinc : B.regexBuild source.includeKeyRegex with
  | error e => exact .inr ⟨.inl rfl, _, rfl⟩
  | ok includes =>
    cases hexc : B.regexBuild source.excludeKeyRegex with
    | error e => exact .inr ⟨.inr rfl, _, rfl⟩
    | ok excludes => exact .inl ⟨includes, excludes, rfl, rfl, rfl⟩

lemma validate_ok_iff {doc : Document} : doc.validate B = .ok () ↔ doc.version = 1 ∧ doc.intoSettings.Valid B := by
  unfold Document.validate
  constructor
  · intro h
    split at h
    · cases h
    rename_i hversion
    split at h
    · cases h
    rename_i hbucket
    rcases compile_cases (B := B) doc.source with ⟨includes, excludes, hinc, hexc, hcompile⟩ | ⟨-, e, hcompile⟩
    · rw [hcompile, Fallible.ok_bind] at h
      split_ifs at h with hlevel hconc hchunks hsizes hparts
      simp only [maxGzipLevel, maxObjectConcurrency, maxGzipChunks, s3MinMultipartPartBytes] at *
      refine ⟨not_not.mp hversion, hbucket, ?_, ?_, ?_, ⟨?_, ?_⟩, ⟨?_, ?_⟩, ?_, ?_⟩
      · exact congrArg Except.isOk hinc
      · exact congrArg Except.isOk hexc
      all_goals simp only [Document.intoSettings]; omega
    · rw [hcompile] at h
      cases h
  · rintro ⟨hversion, h⟩
    have hbucket : doc.destination.bucket ≠ "" := h.bucket
    rw [if_neg (not_not.mpr hversion), if_neg hbucket]
    rcases compile_cases (B := B) doc.source with ⟨includes, excludes, hinc, hexc, hcompile⟩ | ⟨hfails, -⟩
    · obtain ⟨-, -, -, hlevel, hconc, hchunks, hsizes, hparts⟩ := h
      simp only [Document.intoSettings] at hlevel hconc hchunks hsizes hparts
      rw [hcompile, Fallible.ok_bind]
      unfold maxGzipLevel maxObjectConcurrency maxGzipChunks s3MinMultipartPartBytes
      rw [if_neg, if_neg, if_neg, if_neg, if_neg] <;> omega
    · rcases hfails with hfails | hfails
      · exact (Bool.false_ne_true (hfails.symm.trans h.includes)).elim
      · exact (Bool.false_ne_true (hfails.symm.trans h.excludes)).elim

end Validity

section Load
variable (B : Backend) (bytes : Option Bytes) (env : String → Option String)

variable {B env} in
/-- What the environment makes of a file. -/
lemma applyEnv_ok_iff {wire : WireDocument} {doc : Document} :
    wire.read.applyEnv B env = .ok doc ↔ doc.version = wire.version.getD 1 ∧
      ∀ v : Var, layered (envLayer B env v) ((wire.given v).getD v.default) = .ok (v.get doc.intoSettings) := by
  rw [applyEnv_eq, overlay_ok_iff Var.nodup_all Var.mem_all]
  simp only [documentFields, get_read]
  rfl

/-- Settings are accepted exactly when they are what the layers come to, and valid. -/
lemma fromParts_ok_iff (s : Settings) :
    Settings.fromParts B bytes env = .ok s ↔
      (∃ wire, readFile B bytes = .ok wire ∧ wire.version.getD 1 = 1 ∧
        ∀ v : Var, layered (envLayer B env v) ((wire.given v).getD v.default) = .ok (v.get s)) ∧
      s.Valid B := by
  unfold Settings.fromParts
  rw [readDocument_eq]
  cases hfile : readFile B bytes with
  | error e => simp [Except.map, Except.mapError]
  | ok wire =>
    simp only [Except.map, Except.mapError, Fallible.ok_bind]
    constructor
    · intro h
      obtain ⟨doc, hdoc, h⟩ := Fallible.bind_ok_iff.mp h
      obtain ⟨_, hvalid, h⟩ := Fallible.bind_ok_iff.mp h
      cases h
      obtain ⟨hversion, hfields⟩ := applyEnv_ok_iff.mp hdoc
      obtain ⟨hone, hvalid⟩ := validate_ok_iff.mp hvalid
      exact ⟨⟨wire, rfl, hversion.symm.trans hone, hfields⟩, hvalid⟩
    · rintro ⟨⟨wire', hwire, hone, hfields⟩, hvalid⟩
      obtain rfl : wire = wire' := Except.ok.inj hwire
      let doc : Document :=
        ⟨1, s.source, s.destination, s.processing, s.behavior, s.sqs, s.rules, s.observability⟩
      have hdoc : wire.read.applyEnv B env = .ok doc := applyEnv_ok_iff.mpr ⟨hone.symm, hfields⟩
      have hvalidate : doc.validate B = .ok () := validate_ok_iff.mpr ⟨rfl, hvalid⟩
      rw [hdoc, Fallible.ok_bind, hvalidate]
      rfl

/-- A variable that is set and cannot be read, with none before it. -/
structure Unreadable (B : Backend) (env : String → Option String) (v : Var) (raw e : String) : Prop where
  set : env v.key = some raw
  unreadable : (fromStr B.debug raw : Except String v.Value) = .error e
  first : ∃ before after, Var.all = before ++ v :: after ∧ ∀ w ∈ before, ∀ raw', env w.key = some raw' →
    ∃ x : w.Value, fromStr B.debug raw' = .ok x

lemma applyEnv_error {doc : Document} {v : Var} {raw e : String} (h : Unreadable B env v raw e) :
    doc.applyEnv B env = .error (.parse (envErrorText B v.key raw e)) := by
  obtain ⟨hraw, hread, before, after, hall, hbefore⟩ := h
  rw [applyEnv_eq]
  refine overlay_error_iff.mpr ⟨before, v, after, hall, by simp [envLayer, hraw, hread, Except.mapError], ?_⟩
  intro w hw e' hlayer
  obtain ⟨raw', hraw', hread'⟩ := Option.map_eq_some_iff.mp hlayer
  obtain ⟨x, hx⟩ := hbefore w hw raw' hraw'
  rw [hx] at hread'
  cases hread'

/-- Settings are accepted as `s` exactly when the file and every variable that is set can be read,
the version is 1, each field of `s` is that of the environment, else that of the file, else its
default, and `s` is valid. If the file can be read and a variable cannot, the load fails with the
text of the first such variable, whatever the others and the file say. -/
theorem settings_layered :
    (∀ s, Settings.fromParts B bytes env = .ok s ↔
      (∃ wire, readFile B bytes = .ok wire ∧ wire.version.getD 1 = 1 ∧
        ∀ v : Var, layered (envLayer B env v) ((wire.given v).getD v.default) = .ok (v.get s)) ∧
      s.Valid B) ∧
    ∀ wire v raw e, readFile B bytes = .ok wire → Unreadable B env v raw e →
      Settings.fromParts B bytes env = .error (.parse (envErrorText B v.key raw e)) := by
  refine ⟨fromParts_ok_iff B bytes env, ?_⟩
  intro wire v raw e hfile hunreadable
  unfold Settings.fromParts
  rw [readDocument_eq, hfile]
  simp only [Except.map, Except.mapError, Fallible.ok_bind, applyEnv_error B env hunreadable, Fallible.error_bind]

/-- The environment that gives every field its value in `s`. -/
def renderEnv (s : Settings) (key : String) : Option String :=
  (Var.all.find? (fun v => v.key = key)).map (fun v => ToText.render (v.get s))

lemma renderEnv_key (s : Settings) (v : Var) : renderEnv s v.key = some (ToText.render (v.get s)) := by
  have hfind : Var.all.find? (fun w => w.key = v.key) = some v := by
    cases v <;> decide
  rw [renderEnv, hfind]
  rfl

lemma layered_renderEnv (s : Settings) (v : Var) (x : v.Value) :
    layered (envLayer B (renderEnv s) v) x = .ok (v.get s) := by
  simp only [envLayer, renderEnv_key, Option.map_some, layered, ToText.fromStr_render]
  rfl

/-- The environment alone can say everything that is accepted: over any file that can be read and
has version 1, or over none, the variables rendered from a record load exactly that record, and
they do so if and only if it is valid. -/
theorem fromParts_renderEnv (s : Settings) :
    Settings.fromParts B bytes (renderEnv s) = .ok s ↔
      (∃ wire, readFile B bytes = .ok wire ∧ wire.version.getD 1 = 1) ∧ s.Valid B := by
  rw [fromParts_ok_iff B bytes (renderEnv s) s]
  simp only [layered_renderEnv, implies_true, and_true]

end Load

end CloudTrailFilter.Loader
