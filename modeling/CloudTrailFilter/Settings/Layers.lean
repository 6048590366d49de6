import CloudTrailFilter.Lib.Overlay
import CloudTrailFilter.Settings.Document

/-!
# What a load comes to

The fields of the settings that a variable can set, as an index type over the document. Loading is
an overlay: the environment over the file over the defaults, field by field, and the result is
accepted when it is valid. Every valid record can be had from the environment alone.
-/

namespace CloudTrailFilter.Loader
open CloudTrailFilter.Json CloudTrailFilter.Decode

section Render

/-- A type whose values have a text that `FromStr` reads back. -/
class ToText (α : Type) [FromStr α] where
  render : α → String
  fromStr_render : ∀ debug a, fromStr debug (render a) = .ok a

lemma fromName_of_lookup {α : Type} {names : List (String × α)} {s : String} {a : α} (h : names.lookup s = some a)
    (what expected : String) (debug : String → String) : fromName names what expected debug s = .ok a := by
  simp [fromName, h]

instance : ToText String := ⟨id, fun _ _ => rfl⟩

instance : ToText Bool where
  render b := if b then "true" else "false"
  fromStr_render _ b := by cases b <;> rfl

instance (w : ℕ) : ToText (Word w) where
  render := Decimal.render
  fromStr_render debug n := by
    change (Decimal.fromStr w (Decimal.render n)).mapError _ = _
    rw [Decimal.fromStr_render]
    rfl

instance : ToText ProcessingMode where
  render
    | .auto => "auto"
    | .buffer => "buffer"
    | .stream => "stream"
  fromStr_render _ a := by cases a <;> exact fromName_of_lookup (by decide) _ _ _

instance : ToText OnConfigError where
  render
    | .open => "open"
    | .closed => "closed"
  fromStr_render _ a := by cases a <;> exact fromName_of_lookup (by decide) _ _ _

instance : ToText OnMissingObject where
  render
    | .error => "error"
    | .skip => "skip"
  fromStr_render _ a := by cases a <;> exact fromName_of_lookup (by decide) _ _ _

instance : ToText OnUnrecognizedObject where
  render
    | .copy => "copy"
    | .skip => "skip"
    | .error => "error"
  fromStr_render _ a := by cases a <;> exact fromName_of_lookup (by decide) _ _ _

instance : ToText OnParseError where
  render
    | .copy => "copy"
    | .error => "error"
  fromStr_render _ a := by cases a <;> exact fromName_of_lookup (by decide) _ _ _

instance : ToText OnObjectTooLarge where
  render
    | .stream => "stream"
    | .error => "error"
  fromStr_render _ a := by cases a <;> exact fromName_of_lookup (by decide) _ _ _

instance : ToText SqsBodyFormat where
  render
    | .auto => "auto"
    | .s3 => "s3"
    | .sns => "sns"
  fromStr_render _ a := by cases a <;> exact fromName_of_lookup (by decide) _ _ _

instance : ToText MetricsMode where
  render
    | .emf => "emf"
    | .none => "none"
  fromStr_render _ a := by cases a <;> exact fromName_of_lookup (by decide) _ _ _

end Render

section Vars

/-- The fields that the environment can set, in the order they are read in. -/
inductive Var where
  | destBucket
  | keyPrefix
  | includeKeyRegex
  | excludeKeyRegex
  | mode
  | streamThresholdBytes
  | maxObjectBytes
  | multipartPartBytes
  | gzipLevel
  | objectConcurrency
  | gzipChunks
  | dryRun
  | onConfigError
  | onMissingObject
  | onUnrecognizedObject
  | onParseError
  | onObjectTooLarge
  | partialBatchFailures
  | bodyFormat
  | uri
  | ttlSeconds
  | metrics
  | «namespace»
  | logLevel
deriving DecidableEq, Repr

namespace Var

def all : List Var :=
  [destBucket, keyPrefix, includeKeyRegex, excludeKeyRegex, mode, streamThresholdBytes, maxObjectBytes,
    multipartPartBytes, gzipLevel, objectConcurrency, gzipChunks, dryRun, onConfigError, onMissingObject,
    onUnrecognizedObject, onParseError, onObjectTooLarge, partialBatchFailures, bodyFormat, uri, ttlSeconds,
    metrics, «namespace», logLevel]

lemma mem_all (v : Var) : v ∈ all := by cases v <;> decide

lemma nodup_all : all.Nodup := by decide

/-- The variable of a field. -/
def key : Var → String
  | destBucket => "CT_DEST_BUCKET"
  | keyPrefix => "CT_KEY_PREFIX"
  | includeKeyRegex => "CT_SOURCE_INCLUDE_KEY_REGEX"
  | excludeKeyRegex => "CT_SOURCE_EXCLUDE_KEY_REGEX"
  | mode => "CT_PROCESSING_MODE"
  | streamThresholdBytes => "CT_STREAM_THRESHOLD_BYTES"
  | maxObjectBytes => "CT_MAX_OBJECT_BYTES"
  | multipartPartBytes => "CT_MULTIPART_PART_BYTES"
  | gzipLevel => "CT_GZIP_LEVEL"
  | objectConcurrency => "CT_OBJECT_CONCURRENCY"
  | gzipChunks => "CT_GZIP_CHUNKS"
  | dryRun => "CT_DRY_RUN"
  | onConfigError => "CT_ON_CONFIG_ERROR"
  | onMissingObject => "CT_ON_MISSING_OBJECT"
  | onUnrecognizedObject => "CT_ON_UNRECOGNIZED_OBJECT"
  | onParseError => "CT_ON_PARSE_ERROR"
  | onObjectTooLarge => "CT_ON_OBJECT_TOO_LARGE"
  | partialBatchFailures => "CT_PARTIAL_BATCH_FAILURES"
  | bodyFormat => "CT_SQS_BODY_FORMAT"
  | uri => "CT_RULES_URI"
  | ttlSeconds => "CT_RULES_TTL_SECONDS"
  | metrics => "CT_METRICS"
  | «namespace» => "CT_METRICS_NAMESPACE"
  | logLevel => "CT_LOG_LEVEL"

/-- The types of the fields. -/
inductive Kind where
  | text | flag | u32 | u64 | mode | configError | missingObject | unrecognizedObject | parseError
  | objectTooLarge | bodyFormat | metrics

abbrev Kind.Value : Kind → Type
  | .text => String
  | .flag => Bool
  | .u32 => Word 32
  | .u64 => Word 64
  | .mode => ProcessingMode
  | .configError => OnConfigError
  | .missingObject => OnMissingObject
  | .unrecognizedObject => OnUnrecognizedObject
  | .parseError => OnParseError
  | .objectTooLarge => OnObjectTooLarge
  | .bodyFormat => SqsBodyFormat
  | .metrics => MetricsMode

instance (k : Kind) : FromStr k.Value :=
  match k with
  | .text => inferInstanceAs (FromStr String)
  | .flag => inferInstanceAs (FromStr Bool)
  | .u32 => inferInstanceAs (FromStr (Word 32))
  | .u64 => inferInstanceAs (FromStr (Word 64))
  | .mode => inferInstanceAs (FromStr ProcessingMode)
  | .configError => inferInstanceAs (FromStr OnConfigError)
  | .missingObject => inferInstanceAs (FromStr OnMissingObject)
  | .unrecognizedObject => inferInstanceAs (FromStr OnUnrecognizedObject)
  | .parseError => inferInstanceAs (FromStr OnParseError)
  | .objectTooLarge => inferInstanceAs (FromStr OnObjectTooLarge)
  | .bodyFormat => inferInstanceAs (FromStr SqsBodyFormat)
  | .metrics => inferInstanceAs (FromStr MetricsMode)

instance (k : Kind) : ToText k.Value :=
  match k with
  | .text => inferInstanceAs (ToText String)
  | .flag => inferInstanceAs (ToText Bool)
  | .u32 => inferInstanceAs (ToText (Word 32))
  | .u64 => inferInstanceAs (ToText (Word 64))
  | .mode => inferInstanceAs (ToText ProcessingMode)
  | .configError => inferInstanceAs (ToText OnConfigError)
  | .missingObject => inferInstanceAs (ToText OnMissingObject)
  | .unrecognizedObject => inferInstanceAs (ToText OnUnrecognizedObject)
  | .parseError => inferInstanceAs (ToText OnParseError)
  | .objectTooLarge => inferInstanceAs (ToText OnObjectTooLarge)
  | .bodyFormat => inferInstanceAs (ToText SqsBodyFormat)
  | .metrics => inferInstanceAs (ToText MetricsMode)

abbrev kind : Var → Kind
  | destBucket | keyPrefix | includeKeyRegex | excludeKeyRegex | uri | «namespace» | logLevel => .text
  | dryRun | partialBatchFailures => .flag
  | gzipLevel => .u32
  | streamThresholdBytes | maxObjectBytes | multipartPartBytes | objectConcurrency | gzipChunks
  | ttlSeconds => .u64
  | mode => .mode
  | onConfigError => .configError
  | onMissingObject => .missingObject
  | onUnrecognizedObject => .unrecognizedObject
  | onParseError => .parseError
  | onObjectTooLarge => .objectTooLarge
  | bodyFormat => .bodyFormat
  | metrics => .metrics

abbrev Value (v : Var) : Type := v.kind.Value

def get (v : Var) (s : Settings) : v.Value :=
  match v with
  | destBucket => s.destination.bucket
  | keyPrefix => s.destination.keyPrefix
  | includeKeyRegex => s.source.includeKeyRegex
  | excludeKeyRegex => s.source.excludeKeyRegex
  | mode => s.processing.mode
  | streamThresholdBytes => s.processing.streamThresholdBytes
  | maxObjectBytes => s.processing.maxObjectBytes
  | multipartPartBytes => s.processing.multipartPartBytes
  | gzipLevel => s.processing.gzipLevel
  | objectConcurrency => s.processing.objectConcurrency
  | gzipChunks => s.processing.gzipChunks
  | dryRun => s.behavior.dryRun
  | onConfigError => s.behavior.onConfigError
  | onMissingObject => s.behavior.onMissingObject
  | onUnrecognizedObject => s.behavior.onUnrecognizedObject
  | onParseError => s.behavior.onParseError
  | onObjectTooLarge => s.behavior.onObjectTooLarge
  | partialBatchFailures => s.behavior.partialBatchFailures
  | bodyFormat => s.sqs.bodyFormat
  | uri => s.rules.uri
  | ttlSeconds => s.rules.ttlSeconds
  | metrics => s.observability.metrics
  | «namespace» => s.observability.namespace
  | logLevel => s.observability.logLevel

def set (v : Var) (x : v.Value) (doc : Document) : Document :=
  match v with
  | destBucket => doc.setBucket x
  | keyPrefix => doc.setKeyPrefix x
  | includeKeyRegex => doc.setIncludeKeyRegex x
  | excludeKeyRegex => doc.setExcludeKeyRegex x
  | mode => doc.setMode x
  | streamThresholdBytes => doc.setStreamThresholdBytes x
  | maxObjectBytes => doc.setMaxObjectBytes x
  | multipartPartBytes => doc.setMultipartPartBytes x
  | gzipLevel => doc.setGzipLevel x
  | objectConcurrency => doc.setObjectConcurrency x
  | gzipChunks => doc.setGzipChunks x
  | dryRun => doc.setDryRun x
  | onConfigError => doc.setOnConfigError x
  | onMissingObject => doc.setOnMissingObject x
  | onUnrecognizedObject => doc.setOnUnrecognizedObject x
  | onParseError => doc.setOnParseError x
  | onObjectTooLarge => doc.setOnObjectTooLarge x
  | partialBatchFailures => doc.setPartialBatchFailures x
  | bodyFormat => doc.setBodyFormat x
  | uri => doc.setUri x
  | ttlSeconds => doc.setTtlSeconds x
  | metrics => doc.setMetrics x
  | «namespace» => doc.setNamespace x
  | logLevel => doc.setLogLevel x

lemma get_set_self (v : Var) (x : v.Value) (doc : Document) : v.get (v.set x doc).intoSettings = x := by
  cases v <;> rfl

lemma get_set_of_ne (v w : Var) (x : v.Value) (doc : Document) (h : w ≠ v) :
    w.get (v.set x doc).intoSettings = w.get doc.intoSettings := by
  cases v <;> cases w <;> first | rfl | exact (h rfl).elim

lemma set_version (v : Var) (x : v.Value) (doc : Document) : (v.set x doc).version = doc.version := by
  cases v <;> rfl

lemma ext_settings {s s' : Settings} (h : ∀ v : Var, v.get s = v.get s') : s = s' := by
  obtain ⟨⟨_, _⟩, ⟨_, _⟩, ⟨_, _, _, _, _, _, _⟩, ⟨_, _, _, _, _, _, _⟩, ⟨_⟩, ⟨_, _⟩, ⟨_, _, _⟩⟩ := s
  obtain ⟨⟨_, _⟩, ⟨_, _⟩, ⟨_, _, _, _, _, _, _⟩, ⟨_, _, _, _, _, _, _⟩, ⟨_⟩, ⟨_, _⟩, ⟨_, _, _⟩⟩ := s'
  obtain rfl := h destBucket
  obtain rfl := h keyPrefix
  obtain rfl := h includeKeyRegex
  obtain rfl := h excludeKeyRegex
  obtain rfl := h mode
  obtain rfl := h streamThresholdBytes
  obtain rfl := h maxObjectBytes
  obtain rfl := h multipartPartBytes
  obtain rfl := h gzipLevel
  obtain rfl := h objectConcurrency
  obtain rfl := h gzipChunks
  obtain rfl := h dryRun
  obtain rfl := h onConfigError
  obtain rfl := h onMissingObject
  obtain rfl := h onUnrecognizedObject
  obtain rfl := h onParseError
  obtain rfl := h onObjectTooLarge
  obtain rfl := h partialBatchFailures
  obtain rfl := h bodyFormat
  obtain rfl := h uri
  obtain rfl := h ttlSeconds
  obtain rfl := h metrics
  obtain rfl := h «namespace»
  obtain rfl := h logLevel
  rfl

end Var

lemma Document.ext_intoSettings {doc doc' : Document} (hversion : doc.version = doc'.version)
    (h : doc.intoSettings = doc'.intoSettings) : doc = doc' := by
  obtain ⟨_, _, _, _, _, _, _, _⟩ := doc
  obtain ⟨_, _, _, _, _, _, _, _⟩ := doc'
  simp only [Document.intoSettings, Settings.mk.injEq] at h
  obtain ⟨rfl, rfl, rfl, rfl, rfl, rfl, rfl⟩ := h
  dsimp only at hversion
  rw [hversion]

/-- The document as a record of the fields the environment can set and the version. -/
def documentFields : Fields Document ℤ Var Var.Value where
  get v doc := v.get doc.intoSettings
  set v x doc := v.set x doc
  rest doc := doc.version
  get_set_self := Var.get_set_self
  get_set_of_ne := Var.get_set_of_ne
  rest_set := Var.set_version
  ext _ _ hversion h := Document.ext_intoSettings hversion (Var.ext_settings h)

end Vars

end CloudTrailFilter.Loader
