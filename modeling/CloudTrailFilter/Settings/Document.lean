import CloudTrailFilter.Decode.Sqs
import CloudTrailFilter.Lib.Decimal
import CloudTrailFilter.Model

/-!
# The settings document

`config::settings` as it loads: the file, if there is one, with its defaults, the `CT_*` variables
over it in their order, and the validation of what comes out. The YAML reader, the regex compiler
and the `Debug` text of a string are the libraries the loader calls, bundled in `Backend`; a file
as the reader has it says of each field whether it is given.
-/

namespace CloudTrailFilter.Loader
open CloudTrailFilter.Json CloudTrailFilter.Decode

/-- The errors of a load. -/
inductive ConfigError where
  | source (message : String)
  | parse (message : String)
deriving DecidableEq, Repr

section FromStr

/-- `FromStr` with the text of its error. The first argument is `Debug` of a string. -/
class FromStr (α : Type) where
  fromStr : (String → String) → String → Except String α

export FromStr (fromStr)

instance : FromStr String := ⟨fun _ s => .ok s⟩

instance : FromStr Bool where
  fromStr _ s :=
    if s = "true" then .ok true
    else if s = "false" then .ok false
    else .error "provided string was not `true` or `false`"

instance (w : ℕ) : FromStr (Word w) := ⟨fun _ s => (Decimal.fromStr w s).mapError ParseIntError.message⟩

/-- `FromStr` of an enumeration, from the names of its values. -/
def fromName {α : Type} (names : List (String × α)) (what expected : String) (debug : String → String)
    (s : String) : Except String α :=
  match names.lookup s with
  | some a => .ok a
  | none => .error ("invalid " ++ what ++ " " ++ debug s ++ ": expected " ++ expected)

def ProcessingMode.names : List (String × ProcessingMode) :=
  [("auto", .auto), ("buffer", .buffer), ("stream", .stream)]

instance : FromStr ProcessingMode :=
  ⟨fromName ProcessingMode.names "processing mode" "auto, buffer, or stream"⟩

def OnConfigError.names : List (String × OnConfigError) := [("open", .open), ("closed", .closed)]

instance : FromStr OnConfigError := ⟨fromName OnConfigError.names "on_config_error" "open or closed"⟩

def OnMissingObject.names : List (String × OnMissingObject) := [("error", .error), ("skip", .skip)]

instance : FromStr OnMissingObject := ⟨fromName OnMissingObject.names "on_missing_object" "error or skip"⟩

def OnUnrecognizedObject.names : List (String × OnUnrecognizedObject) :=
  [("copy", .copy), ("skip", .skip), ("error", .error)]

instance : FromStr OnUnrecognizedObject :=
  ⟨fromName OnUnrecognizedObject.names "on_unrecognized_object" "copy, skip, or error"⟩

def OnParseError.names : List (String × OnParseError) := [("copy", .copy), ("error", .error)]

instance : FromStr OnParseError := ⟨fromName OnParseError.names "on_parse_error" "copy or error"⟩

def OnObjectTooLarge.names : List (String × OnObjectTooLarge) := [("stream", .stream), ("error", .error)]

instance : FromStr OnObjectTooLarge :=
  ⟨fromName OnObjectTooLarge.names "on_object_too_large" "stream or error"⟩

def SqsBodyFormat.names : List (String × SqsBodyFormat) := [("auto", .auto), ("s3", .s3), ("sns", .sns)]

instance : FromStr SqsBodyFormat := ⟨fromName SqsBodyFormat.names "sqs body_format" "auto, s3, or sns"⟩

inductive MetricsMode where
  | emf
  | none
deriving DecidableEq, Repr

def MetricsMode.names : List (String × MetricsMode) := [("emf", .emf), ("none", .none)]

instance : FromStr MetricsMode := ⟨fromName MetricsMode.names "metrics mode" "emf or none"⟩

end FromStr

section Sections

structure Source where
  includeKeyRegex : String
  excludeKeyRegex : String
deriving DecidableEq, Repr

def Source.default : Source := ⟨"\\.json\\.gz$", "(/CloudTrail-Digest/|/CloudTrail-Insight/|/$)"⟩

def Destination.default : Destination := ⟨"", ""⟩

structure Processing where
  mode : ProcessingMode
  streamThresholdBytes : Word 64
  maxObjectBytes : Word 64
  multipartPartBytes : Word 64
  gzipLevel : Word 32
  objectConcurrency : Word 64
  gzipChunks : Word 64
deriving DecidableEq, Repr

def Processing.default : Processing where
  mode := .auto
  streamThresholdBytes := ⟨8388608, by norm_num⟩
  maxObjectBytes := ⟨134217728, by norm_num⟩
  multipartPartBytes := ⟨8388608, by norm_num⟩
  gzipLevel := ⟨6, by norm_num⟩
  objectConcurrency := ⟨1, by norm_num⟩
  gzipChunks := ⟨1, by norm_num⟩

def Behavior.default : Behavior := ⟨false, .open, .error, .copy, .copy, .stream, true⟩

structure Sqs where
  bodyFormat : SqsBodyFormat
deriving DecidableEq, Repr

def Sqs.default : Sqs := ⟨.auto⟩

structure Rules where
  uri : String
  ttlSeconds : Word 64
deriving DecidableEq, Repr

def Rules.default : Rules := ⟨"s3://sec-config/cloudtrail/rules.yaml", ⟨300, by norm_num⟩⟩

structure Observability where
  metrics : MetricsMode
  «namespace» : String
  logLevel : String
deriving DecidableEq, Repr

def Observability.default : Observability := ⟨.emf, "cloudtrail-rs", "info"⟩

/-- What a load comes to. -/
structure Settings where
  source : Source
  destination : Destination
  processing : Processing
  behavior : Behavior
  sqs : Sqs
  rules : Rules
  observability : Observability

/-- The settings with the schema version, which is checked and dropped. -/
structure Document where
  version : ℤ
  source : Source
  destination : Destination
  processing : Processing
  behavior : Behavior
  sqs : Sqs
  rules : Rules
  observability : Observability

def Document.default : Document :=
  ⟨1, .default, Destination.default, .default, Behavior.default, .default, .default, .default⟩

def Document.intoSettings (doc : Document) : Settings :=
  ⟨doc.source, doc.destination, doc.processing, doc.behavior, doc.sqs, doc.rules, doc.observability⟩

end Sections

section Wire

structure WireSource where
  includeKeyRegex : Option String
  excludeKeyRegex : Option String

def WireSource.read (wire : WireSource) : Source :=
  ⟨wire.includeKeyRegex.getD Source.default.includeKeyRegex,
    wire.excludeKeyRegex.getD Source.default.excludeKeyRegex⟩

structure WireDestination where
  bucket : Option String
  keyPrefix : Option String

def WireDestination.read (wire : WireDestination) : Destination :=
  ⟨wire.bucket.getD "", wire.keyPrefix.getD ""⟩

structure WireProcessing where
  mode : Option ProcessingMode
  streamThresholdBytes : Option (Word 64)
  maxObjectBytes : Option (Word 64)
  multipartPartBytes : Option (Word 64)
  gzipLevel : Option (Word 32)
  objectConcurrency : Option (Word 64)
  gzipChunks : Option (Word 64)

def WireProcessing.read (wire : WireProcessing) : Processing where
  mode := wire.mode.getD Processing.default.mode
  streamThresholdBytes := wire.streamThresholdBytes.getD Processing.default.streamThresholdBytes
  maxObjectBytes := wire.maxObjectBytes.getD Processing.default.maxObjectBytes
  multipartPartBytes := wire.multipartPartBytes.getD Processing.default.multipartPartBytes
  gzipLevel := wire.gzipLevel.getD Processing.default.gzipLevel
  objectConcurrency := wire.objectConcurrency.getD Processing.default.objectConcurrency
  gzipChunks := wire.gzipChunks.getD Processing.default.gzipChunks

structure WireBehavior where
  dryRun : Option Bool
  onConfigError : Option OnConfigError
  onMissingObject : Option OnMissingObject
  onUnrecognizedObject : Option OnUnrecognizedObject
  onParseError : Option OnParseError
  onObjectTooLarge : Option OnObjectTooLarge
  partialBatchFailures : Option Bool

def WireBehavior.read (wire : WireBehavior) : Behavior where
  dryRun := wire.dryRun.getD Behavior.default.dryRun
  onConfigError := wire.onConfigError.getD Behavior.default.onConfigError
  onMissingObject := wire.onMissingObject.getD Behavior.default.onMissingObject
  onUnrecognizedObject := wire.onUnrecognizedObject.getD Behavior.default.onUnrecognizedObject
  onParseError := wire.onParseError.getD Behavior.default.onParseError
  onObjectTooLarge := wire.onObjectTooLarge.getD Behavior.default.onObjectTooLarge
  partialBatchFailures := wire.partialBatchFailures.getD Behavior.default.partialBatchFailures

structure WireSqs where
  bodyFormat : Option SqsBodyFormat

def WireSqs.read (wire : WireSqs) : Sqs := ⟨wire.bodyFormat.getD Sqs.default.bodyFormat⟩

structure WireRules where
  uri : Option String
  ttlSeconds : Option (Word 64)

def WireRules.read (wire : WireRules) : Rules :=
  ⟨wire.uri.getD Rules.default.uri, wire.ttlSeconds.getD Rules.default.ttlSeconds⟩

structure WireObservability where
  metrics : Option MetricsMode
  «namespace» : Option String
  logLevel : Option String

def WireObservability.read (wire : WireObservability) : Observability :=
  ⟨wire.metrics.getD Observability.default.metrics, wire.namespace.getD Observability.default.namespace,
    wire.logLevel.getD Observability.default.logLevel⟩

/-- The file as it was read. A section that is missing has its defaults, and so does a field that is
missing from a section. -/
structure WireDocument where
  version : Option ℤ
  source : Option WireSource
  destination : Option WireDestination
  processing : Option WireProcessing
  behavior : Option WireBehavior
  sqs : Option WireSqs
  rules : Option WireRules
  observability : Option WireObservability

def WireDocument.read (wire : WireDocument) : Document where
  version := wire.version.getD 1
  source := (wire.source.map WireSource.read).getD Source.default
  destination := (wire.destination.map WireDestination.read).getD Destination.default
  processing := (wire.processing.map WireProcessing.read).getD Processing.default
  behavior := (wire.behavior.map WireBehavior.read).getD Behavior.default
  sqs := (wire.sqs.map WireSqs.read).getD Sqs.default
  rules := (wire.rules.map WireRules.read).getD Rules.default
  observability := (wire.observability.map WireObservability.read).getD Observability.default

end Wire

/-- The libraries the loader calls: `serde_yaml_ng`, `regex` under `REGEX_SIZE_LIMIT`, and `Debug` of
a string. -/
structure Backend where
  yaml : Bytes → Except String WireDocument
  regexBuild : String → Except String (String → Bool)
  debug : String → String

variable (B : Backend)

section KeyFilter

def compileKeyRegex (pattern field : String) : Except ConfigError (String → Bool) :=
  (B.regexBuild pattern).mapError
    (fun e => .parse (field ++ " " ++ B.debug pattern ++ " is not a valid regex: " ++ e))

def KeyFilter.compile (source : Source) : Except ConfigError KeyFilter := do
  let includes ← compileKeyRegex B source.includeKeyRegex "source.include_key_regex"
  let excludes ← compileKeyRegex B source.excludeKeyRegex "source.exclude_key_regex"
  pure ⟨includes, excludes⟩

end KeyFilter

section Env
variable (env : String → Option String)

/-- Parses the value of `key` and sets it; nothing is done when it is unset. -/
def apply {α : Type} [FromStr α] (key : String) (set : α → Document → Document) (doc : Document) :
    Except ConfigError Document :=
  match env key with
  | none => .ok doc
  | some raw =>
    match fromStr B.debug raw with
    | .ok value => .ok (set value doc)
    | .error e => .error (.parse ("invalid " ++ key ++ "=" ++ B.debug raw ++ ": " ++ e))

namespace Document
variable (doc : Document)

def setBucket (v : String) : Document := { doc with destination.bucket := v }
def setKeyPrefix (v : String) : Document := { doc with destination.keyPrefix := v }
def setIncludeKeyRegex (v : String) : Document := { doc with source.includeKeyRegex := v }
def setExcludeKeyRegex (v : String) : Document := { doc with source.excludeKeyRegex := v }
def setMode (v : ProcessingMode) : Document := { doc with processing.mode := v }
def setStreamThresholdBytes (v : Word 64) : Document := { doc with processing.streamThresholdBytes := v }
def setMaxObjectBytes (v : Word 64) : Document := { doc with processing.maxObjectBytes := v }
def setMultipartPartBytes (v : Word 64) : Document := { doc with processing.multipartPartBytes := v }
def setGzipLevel (v : Word 32) : Document := { doc with processing.gzipLevel := v }
def setObjectConcurrency (v : Word 64) : Document := { doc with processing.objectConcurrency := v }
def setGzipChunks (v : Word 64) : Document := { doc with processing.gzipChunks := v }
def setDryRun (v : Bool) : Document := { doc with behavior.dryRun := v }
def setOnConfigError (v : OnConfigError) : Document := { doc with behavior.onConfigError := v }
def setOnMissingObject (v : OnMissingObject) : Document := { doc with behavior.onMissingObject := v }
def setOnUnrecognizedObject (v : OnUnrecognizedObject) : Document :=
  { doc with behavior.onUnrecognizedObject := v }
def setOnParseError (v : OnParseError) : Document := { doc with behavior.onParseError := v }
def setOnObjectTooLarge (v : OnObjectTooLarge) : Document := { doc with behavior.onObjectTooLarge := v }
def setPartialBatchFailures (v : Bool) : Document := { doc with behavior.partialBatchFailures := v }
def setBodyFormat (v : SqsBodyFormat) : Document := { doc with sqs.bodyFormat := v }
def setUri (v : String) : Document := { doc with rules.uri := v }
def setTtlSeconds (v : Word 64) : Document := { doc with rules.ttlSeconds := v }
def setMetrics (v : MetricsMode) : Document := { doc with observability.metrics := v }
def setNamespace (v : String) : Document := { doc with observability.namespace := v }
def setLogLevel (v : String) : Document := { doc with observability.logLevel := v }

def applyEnv : Except ConfigError Document := do
  let doc ← apply B env "CT_DEST_BUCKET" (fun v doc => doc.setBucket v) doc
  let doc ← apply B env "CT_KEY_PREFIX" (fun v doc => doc.setKeyPrefix v) doc
  let doc ← apply B env "CT_SOURCE_INCLUDE_KEY_REGEX" (fun v doc => doc.setIncludeKeyRegex v) doc
  let doc ← apply B env "CT_SOURCE_EXCLUDE_KEY_REGEX" (fun v doc => doc.setExcludeKeyRegex v) doc
  let doc ← apply B env "CT_PROCESSING_MODE" (fun v doc => doc.setMode v) doc
  let doc ← apply B env "CT_STREAM_THRESHOLD_BYTES" (fun v doc => doc.setStreamThresholdBytes v) doc
  let doc ← apply B env "CT_MAX_OBJECT_BYTES" (fun v doc => doc.setMaxObjectBytes v) doc
  let doc ← apply B env "CT_MULTIPART_PART_BYTES" (fun v doc => doc.setMultipartPartBytes v) doc
  let doc ← apply B env "CT_GZIP_LEVEL" (fun v doc => doc.setGzipLevel v) doc
  let doc ← apply B env "CT_OBJECT_CONCURRENCY" (fun v doc => doc.setObjectConcurrency v) doc
  let doc ← apply B env "CT_GZIP_CHUNKS" (fun v doc => doc.setGzipChunks v) doc
  let doc ← apply B env "CT_DRY_RUN" (fun v doc => doc.setDryRun v) doc
  let doc ← apply B env "CT_ON_CONFIG_ERROR" (fun v doc => doc.setOnConfigError v) doc
  let doc ← apply B env "CT_ON_MISSING_OBJECT" (fun v doc => doc.setOnMissingObject v) doc
  let doc ← apply B env "CT_ON_UNRECOGNIZED_OBJECT" (fun v doc => doc.setOnUnrecognizedObject v) doc
  let doc ← apply B env "CT_ON_PARSE_ERROR" (fun v doc => doc.setOnParseError v) doc
  let doc ← apply B env "CT_ON_OBJECT_TOO_LARGE" (fun v doc => doc.setOnObjectTooLarge v) doc
  let doc ← apply B env "CT_PARTIAL_BATCH_FAILURES" (fun v doc => doc.setPartialBatchFailures v) doc
  let doc ← apply B env "CT_SQS_BODY_FORMAT" (fun v doc => doc.setBodyFormat v) doc
  let doc ← apply B env "CT_RULES_URI" (fun v doc => doc.setUri v) doc
  let doc ← apply B env "CT_RULES_TTL_SECONDS" (fun v doc => doc.setTtlSeconds v) doc
  let doc ← apply B env "CT_METRICS" (fun v doc => doc.setMetrics v) doc
  let doc ← apply B env "CT_METRICS_NAMESPACE" (fun v doc => doc.setNamespace v) doc
  let doc ← apply B env "CT_LOG_LEVEL" (fun v doc => doc.setLogLevel v) doc
  pure doc

end Document

end Env

section Validate

def s3MinMultipartPartBytes : ℕ := 5 * 1024 * 1024
def maxGzipLevel : ℕ := 9
def maxGzipChunks : ℕ := 16
def maxObjectConcurrency : ℕ := 64

def gzipLevelText (level : ℕ) : String :=
  "processing.gzip_level " ++ toString level ++ " is out of range: must be 0..=" ++ toString maxGzipLevel ++
    " (9 = best compression) — flate2's rust_backend panics on higher values, on the " ++
    "first object processed, not at startup"

def objectConcurrencyText (concurrency : ℕ) : String :=
  "processing.object_concurrency " ++ toString concurrency ++ " is out of range: must be 1..=" ++
    toString maxObjectConcurrency ++
    ". Each in-flight object holds its own decompressed body, so this multiplies peak " ++
    "memory by up to processing.max_object_bytes per slot"

def gzipChunksText (chunks : ℕ) : String :=
  "processing.gzip_chunks " ++ toString chunks ++ " is out of range: must be 1..=" ++ toString maxGzipChunks ++
    ". Above 1, buffer mode emits a multi-member gzip and compresses on that many " ++
    "threads: the payload is unchanged but the object grows and only pays on a " ++
    "Lambda with more than one vCPU"

def maxObjectBytesText (cap threshold : ℕ) : String :=
  "processing.max_object_bytes (" ++ toString cap ++ " bytes, buffer mode's memory cap) is " ++
    "smaller than processing.stream_threshold_bytes (" ++ toString threshold ++
    " bytes, the compressed-size estimate that selects buffer vs. stream mode): any object routed to buffer mode " ++
    "is guaranteed to exceed max_object_bytes"

def multipartPartBytesText (partBytes : ℕ) : String :=
  "processing.multipart_part_bytes (" ++ toString partBytes ++ " bytes) is below S3's hard minimum of " ++
    toString s3MinMultipartPartBytes ++
    " bytes (5 MiB) for a non-final multipart part: CompleteMultipartUpload would " ++
    "fail with EntityTooSmall mid-object, after bytes are already uploaded"

def Document.validate (doc : Document) : Except ConfigError Unit :=
  if doc.version ≠ 1 then
    .error (.parse ("unsupported settings version " ++ toString doc.version ++
      ": must be 1 (this is a plain integer, not semver)"))
  else if doc.destination.bucket = "" then
    .error (.parse "destination.bucket is required: set it in the settings file or via CT_DEST_BUCKET")
  else do
    let _ ← KeyFilter.compile B doc.source
    if maxGzipLevel < doc.processing.gzipLevel.val then
      .error (.parse (gzipLevelText doc.processing.gzipLevel.val))
    else if doc.processing.objectConcurrency.val = 0 ∨
        maxObjectConcurrency < doc.processing.objectConcurrency.val then
      .error (.parse (objectConcurrencyText doc.processing.objectConcurrency.val))
    else if doc.processing.gzipChunks.val = 0 ∨ maxGzipChunks < doc.processing.gzipChunks.val then
      .error (.parse (gzipChunksText doc.processing.gzipChunks.val))
    else if doc.processing.maxObjectBytes.val < doc.processing.streamThresholdBytes.val then
      .error (.parse (maxObjectBytesText doc.processing.maxObjectBytes.val
        doc.processing.streamThresholdBytes.val))
    else if doc.processing.multipartPartBytes.val < s3MinMultipartPartBytes then
      .error (.parse (multipartPartBytesText doc.processing.multipartPartBytes.val))
    else .ok ()

end Validate

section Load

/-- The document before the environment: the file, or the defaults where there is none. -/
def readDocument (bytes : Option Bytes) : Except ConfigError Document :=
  match bytes with
  | some b => ((B.yaml b).map WireDocument.read).mapError .parse
  | none => .ok .default

def Settings.fromParts (bytes : Option Bytes) (env : String → Option String) : Except ConfigError Settings := do
  let doc ← readDocument B bytes
  let doc ← doc.applyEnv B env
  let _ ← doc.validate B
  pure doc.intoSettings

def readSettingsUri (readFile : String → Except String Bytes) (uri : String) : Except ConfigError Bytes :=
  match "file://".toList.isPrefixOf? uri.toList with
  | none => .error (.source ("unsupported SETTINGS_URI scheme " ++ B.debug uri ++
      ": core has no AWS SDK dependency, so only " ++
      "file:// is resolvable without a composition root fetching bytes for it"))
  | some path => (readFile (String.ofList path)).mapError
      (fun e => .source ("failed to read " ++ B.debug uri ++ ": " ++ e))

def Settings.load (readFile : String → Except String Bytes) (env : String → Option String) :
    Except ConfigError Settings := do
  let bytes ←
    match env "SETTINGS_URI" with
    | some uri => (readSettingsUri B readFile uri).map some
    | none => pure none
  Settings.fromParts B bytes env

end Load

end CloudTrailFilter.Loader
