import CloudTrailFilter.Lib.Effect
import CloudTrailFilter.Process.Stream

/-!
# One object through the pipeline

`process_object` and `raw_copy` with everything they call: the choice of the mode, the policies
for missing, unparsable, unrecognized and oversized objects, and the dry run. The answers of the
object store during one attempt are an `Attempt`; the calls made and the counters published
come back with the result.
-/

namespace CloudTrailFilter.Pipeline
open CloudTrailFilter.Json CloudTrailFilter.Filter CloudTrailFilter.Process

section Store

abbrev Location := String × String

inductive GetAnswer where
  | notFound
  | failed (message : String)
  | body (body : Body)

/-- A call of the object store. Of a write it has what landed at the destination. -/
inductive StoreCall where
  | getStream (source : Location)
  | put (dest : Location) (body : Bytes) (landed : Bool)
  | putStream (dest : Location) (landed : Option Bytes)
deriving DecidableEq

/-- The write that landed with a call. -/
def StoreCall.landed : StoreCall → Option (Location × Bytes)
  | .getStream _ => none
  | .put dest body landed => if landed then some (dest, body) else none
  | .putStream dest landed => landed.map (dest, ·)

/-- What the surroundings do during one attempt at an object. No call is made twice: `fetch` is
the read of buffer mode, `read` that of stream mode and `reread` that of a copy. -/
structure Attempt where
  fetch : GetAnswer
  read : GetAnswer
  reread : GetAnswer
  /-- The error of `put`, if it fails. -/
  put : Option StoreError
  /-- The error of the `put_stream` of a copy, if it fails although its reader does not. -/
  copyUpload : Option StoreError
  /-- The error of the `put_stream` of a copy whose reader fails. -/
  brokenCopy : StoreError
  /-- The bytes a copy that fails has read. -/
  copyRead : ℕ
  compressFails : Bool
  stream : StreamEnv

abbrev ObjectM := Effect StoreCall Metrics CoreError

/-- The writes that landed during a computation. -/
def landed {α : Type} (x : ObjectM α) : List (Location × Bytes) := x.calls.filterMap StoreCall.landed

end Store

inductive ObjectMode where
  | buffer
  | stream
deriving DecidableEq, Repr

/-- Whether a copy bills the bytes it reads, or an earlier read of the object did. -/
inductive BytesInPolicy where
  | count
  | alreadyCounted
deriving DecidableEq, Repr

section Object
variable (gz : Gzip) (float : FloatParser) (settings : Settings) (engine : Engine) (attempt : Attempt)

def selectMode (size : Option ℕ) : ObjectMode :=
  match settings.processing.mode with
  | .buffer => .buffer
  | .stream => .stream
  | .auto =>
    match size with
    | some size => if settings.processing.streamThresholdBytes < size then .stream else .buffer
    | none => .buffer

/-- `None` means that a missing object was skipped. -/
def openWithMissingPolicy (answer : GetAnswer) (source : Location) : ObjectM (Option Body) := do
  Effect.call (.getStream source)
  match answer with
  | .body body => pure (some body)
  | .notFound =>
    match settings.behavior.onMissingObject with
    | .skip => do
      Effect.publish (Metrics.addObjectsSkipped 1)
      pure none
    | .error => Effect.fail (.store (.notFound source.1 source.2))
  | .failed message => Effect.fail (.store (.backend message))

/-- Reads no further than one byte past the cap, so an error beyond it is not seen. -/
def fetchWithMissingPolicy (source : Location) : ObjectM (Option Bytes) := do
  let reader ← openWithMissingPolicy settings attempt.fetch source
  match reader with
  | none => pure none
  | some body =>
    let limit := settings.processing.maxObjectBytes
    if limit < body.bytes.length then Effect.fail (.objectTooLarge limit)
    else
      match body.ending with
      | .failed message =>
        Effect.fail (.store (.backend ("reading " ++ source.1 ++ "/" ++ source.2 ++ ": " ++ message)))
      | .eof => pure (some body.bytes)

/-- `put` of a whole body, which counts as written only once it has landed. -/
def putBytes (dest : Location) (body : Bytes) : ObjectM Unit :=
  match attempt.put with
  | none => do
    Effect.call (.put dest body true)
    Effect.publish (Metrics.addBytesOut body.length)
  | some e => do
    Effect.call (.put dest body false)
    Effect.fail (.store e)

/-- The error of the `put_stream` of a copy, which has to pass on an error of its reader. -/
def copyError (body : Body) : Option StoreError :=
  match body.ending with
  | .eof => attempt.copyUpload
  | .failed _ => some attempt.brokenCopy

def BytesInPolicy.bill (policy : BytesInPolicy) (n : ℕ) : Metrics :=
  match policy with
  | .count => Metrics.addBytesIn n
  | .alreadyCounted => 0

/-- `Ok(false)` means that a missing object was skipped. -/
def streamCopy (source dest : Location) (countBytesIn : BytesInPolicy) : ObjectM Bool := do
  let reader ← openWithMissingPolicy settings attempt.reread source
  match reader with
  | none => pure false
  | some body =>
    match copyError attempt body with
    | none => do
      Effect.call (.putStream dest (some body.bytes))
      Effect.publish (countBytesIn.bill body.bytes.length + Metrics.addBytesOut body.bytes.length)
      pure true
    | some e => do
      Effect.call (.putStream dest none)
      Effect.publish (countBytesIn.bill attempt.copyRead)
      Effect.fail (.store e)

/-- The copy of an object when there is no ruleset and `on_config_error` is `open`. -/
def rawCopy (source dest : Location) : ObjectM Unit := do
  let copied ← streamCopy settings attempt source dest .count
  if copied then Effect.publish (Metrics.addObjectsProcessed 1) else pure ()

def copiesUnparsable (e : CoreError) : Bool :=
  settings.behavior.onParseError = .copy ∧ e.isUnparsableSource

/-- The verbatim copy of an object that did not parse, from memory or by reading it again. -/
def copyUnparsable (source dest : Location) (bytes : Option Bytes) : ObjectM Unit := do
  Effect.publish (Metrics.addObjectsCopiedUnparsed 1)
  if settings.behavior.dryRun then Effect.publish (Metrics.addObjectsProcessed 1)
  else
    match bytes with
    | some bytes => do
      putBytes attempt dest bytes
      Effect.publish (Metrics.addObjectsProcessed 1)
    | none => do
      let copied ← streamCopy settings attempt source dest .alreadyCounted
      if copied then Effect.publish (Metrics.addObjectsProcessed 1) else pure ()

/-- `on_unrecognized_object` for bytes that are in memory. -/
def applyUnrecognizedPolicy (source dest : Location) (bytes : Bytes) : ObjectM Unit :=
  match settings.behavior.onUnrecognizedObject with
  | .copy => putBytes attempt dest bytes
  | .skip => pure ()
  | .error => Effect.fail (.unrecognizedObject source.1 source.2)

/-- An object the stream retry will read again bills its bytes there. -/
def retriedViaStream {α : Type} (result : Except CoreError α) : Bool :=
  match result with
  | .error (.objectTooLarge _) => settings.behavior.onObjectTooLarge = .stream
  | _ => false

def billFetched (result : Except CoreError (Outcome × RecordTally)) (bytes : Bytes) : Metrics :=
  if retriedViaStream settings result then 0 else Metrics.addBytesIn bytes.length

def processBuffer (source dest : Location) : ObjectM Unit := do
  let fetched ← fetchWithMissingPolicy settings attempt source
  match fetched with
  | none => pure ()
  | some bytes => do
    let result := bufferRun gz float engine settings.processing attempt.compressFails bytes
    Effect.publish (billFetched settings result bytes)
    match result with
    | .error e =>
      if copiesUnparsable settings e then copyUnparsable settings attempt source dest (some bytes)
      else Effect.fail e
    | .ok (outcome, tally) => do
      match outcome with
      | .written (some out) => putBytes attempt dest out
      | .unrecognized => do
        Effect.publish (Metrics.addUnrecognizedObjects 1)
        applyUnrecognizedPolicy settings attempt source dest bytes
      | .nothingKept | .written none => pure ()
      Effect.publish (tally.commit engine)
      Effect.publish (Metrics.addObjectsProcessed 1)

/-- `stream_run` with the store of the pipeline, which it calls for its upload. -/
def streamToStore (body : Body) (dest : Location) : ObjectM Outcome :=
  let run := streamRun gz float engine settings.processing attempt.stream body
  ⟨run.result, [.putStream dest run.committed], run.metrics⟩

def processStream (source dest : Location) : ObjectM Unit := do
  let reader ← openWithMissingPolicy settings attempt.read source
  match reader with
  | none => pure ()
  | some body => do
    let result ← (streamToStore gz float settings engine attempt body dest).attempt
    match result with
    | .error e =>
      if copiesUnparsable settings e then copyUnparsable settings attempt source dest none
      else Effect.fail e
    | .ok outcome =>
      match outcome with
      | .unrecognized => do
        Effect.publish (Metrics.addUnrecognizedObjects 1)
        match settings.behavior.onUnrecognizedObject with
        | .copy => do
          let copied ← streamCopy settings attempt source dest .alreadyCounted
          if copied then Effect.publish (Metrics.addObjectsProcessed 1) else pure ()
        | .skip => Effect.publish (Metrics.addObjectsProcessed 1)
        | .error => Effect.fail (.unrecognizedObject source.1 source.2)
      | .written _ | .nothingKept => Effect.publish (Metrics.addObjectsProcessed 1)

def processDryRun (source : Location) : ObjectM Unit := do
  let fetched ← fetchWithMissingPolicy settings attempt source
  match fetched with
  | none => pure ()
  | some bytes => do
    let result := bufferRun gz float engine settings.processing attempt.compressFails bytes
    Effect.publish (billFetched settings result bytes)
    match result with
    | .error e =>
      if copiesUnparsable settings e then copyUnparsable settings attempt source ("", "") none
      else Effect.fail e
    | .ok (outcome, tally) => do
      if outcome = .unrecognized then Effect.publish (Metrics.addUnrecognizedObjects 1) else pure ()
      Effect.publish (tally.commit engine)
      Effect.publish (Metrics.addObjectsProcessed 1)

/-- Everything a scratch snapshot is folded back with, which leaves out `BytesOut`. -/
def foldBack (snapshot : Metrics) : Metrics :=
  { (0 : Metrics) with
    bytesIn := snapshot.bytesIn
    recordsIn := snapshot.recordsIn
    recordsKept := snapshot.recordsKept
    recordsDropped := snapshot.recordsDropped
    parseErrors := snapshot.parseErrors
    ruleDrops := snapshot.ruleDrops }

/-- The run into a `DiscardStore`, which fails only when its reader does. -/
def processDryRunStream (source : Location) : ObjectM Unit := do
  let reader ← openWithMissingPolicy settings attempt.read source
  match reader with
  | none => pure ()
  | some body => do
    let run := streamRun gz float engine settings.processing { attempt.stream with upload := none } body
    Effect.publish (foldBack run.metrics)
    match run.result with
    | .error e =>
      if copiesUnparsable settings e then copyUnparsable settings attempt source ("", "") none
      else Effect.fail e
    | .ok outcome => do
      if outcome = .unrecognized then Effect.publish (Metrics.addUnrecognizedObjects 1) else pure ()
      Effect.publish (Metrics.addObjectsProcessed 1)

/-- Buffer mode, live or dry. -/
def runBuffer (source dest : Location) : ObjectM Unit :=
  if settings.behavior.dryRun then processDryRun gz float settings engine attempt source
  else processBuffer gz float settings engine attempt source dest

/-- Stream mode, live or dry. -/
def runStream (source dest : Location) : ObjectM Unit :=
  if settings.behavior.dryRun then processDryRunStream gz float settings engine attempt source
  else processStream gz float settings engine attempt source dest

/-- A run of buffer mode, with `retry` in its place if the object is too large for it. -/
def orRetry (run retry : ObjectM Unit) : ObjectM Unit := do
  let result ← run.attempt
  if retriedViaStream settings result then retry
  else
    match result with
    | .ok () => pure ()
    | .error e => Effect.fail e

def processObject (object : ObjectRef) (dest : Location) : ObjectM Unit :=
  let source := (object.bucket, object.key)
  match selectMode settings object.size with
  | .buffer =>
    orRetry settings (runBuffer gz float settings engine attempt source dest)
      (runStream gz float settings engine attempt source dest)
  | .stream => runStream gz float settings engine attempt source dest

end Object

end CloudTrailFilter.Pipeline
