import CloudTrailFilter.Pipeline.Mode

/-!
# The filter of the command line

`Filterer::process` filters one object of a backfill by the policies of a settings document,
with a control flow of its own: the retry and the copy of an object that does not parse are arms of
one match, over the bytes of a fetch that may have failed. What it does to the destination, whether
it succeeds and what it counts of the records is what the pipeline does.
-/

namespace CloudTrailFilter

namespace Metrics

/-- The counters of records and of objects copied because they did not parse. -/
def compared (m : Metrics) : Metrics :=
  { (0 : Metrics) with
    recordsIn := m.recordsIn
    recordsKept := m.recordsKept
    recordsDropped := m.recordsDropped
    parseErrors := m.parseErrors
    ruleDrops := m.ruleDrops
    objectsCopiedUnparsed := m.objectsCopiedUnparsed }

def comparedHom : Metrics →+ Metrics where
  toFun := compared
  map_zero' := rfl
  map_add' _ _ := rfl

end Metrics

namespace Cli
open CloudTrailFilter.Json CloudTrailFilter.Filter CloudTrailFilter.Process
open CloudTrailFilter.Pipeline (Attempt GetAnswer StoreCall ObjectM ObjectMode selectMode sampleSettings sampleAttempt)

section Paths

/-- A component of a local path, as `Path::components` gives them. -/
inductive Component where
  | rootDir
  | curDir
  | parentDir
  | normal (name : String)
deriving DecidableEq, Repr

abbrev Path := List Component

/-- Repeated separators and a `.` that does not come first are dropped. -/
def Path.new (path : String) : Path :=
  let parts := path.splitOn "/"
  let front := if path.startsWith "/" then [Component.rootDir]
    else if parts.head? = some "." then [Component.curDir] else []
  front ++ parts.filterMap fun part =>
    if part = "" ∨ part = "." then none
    else if part = ".." then some .parentDir else some (.normal part)

def Path.parent (path : Path) : Option Path :=
  match path.getLast? with
  | none | some .rootDir => none
  | some _ => some path.dropLast

def Path.fileName (path : Path) : Option String :=
  match path.getLast? with
  | some (.normal name) => some name
  | _ => none

/-- The canonical form of a path that need not exist: its parent's, with the file name joined
again. `canonicalize` is the file system's, for paths that do. -/
def canonical (canonicalize : Path → Option Path) (path : Path) : Option Path :=
  match canonicalize path with
  | some p => some p
  | none => do
    let parent ← path.parent
    let dir ← canonicalize parent
    let name ← path.fileName
    pure (dir ++ [.normal name])

end Paths

/-- A side of a run: a directory or file, or a prefix in a bucket. -/
inductive Location where
  | «local» (path : String)
  | s3 (bucket keyPrefix : String)
deriving DecidableEq, Repr

/-- The local store ignores the bucket. -/
def Location.bucket : Location → String
  | .local _ => ""
  | .s3 bucket _ => bucket

def Location.display (key : String) : Location → String
  | .local _ => key
  | .s3 bucket _ => "s3://" ++ bucket ++ "/" ++ key

/-- The parts of a settings document that a filter run honours. -/
structure FilterConfig where
  processing : Processing
  keys : KeyFilter
  dryRun : Bool
  onUnrecognized : OnUnrecognizedObject
  onParseError : OnParseError
  onObjectTooLarge : OnObjectTooLarge

def FilterConfig.resolve (settings : Settings) : FilterConfig where
  processing := settings.processing
  keys := settings.keyFilter
  dryRun := settings.behavior.dryRun
  onUnrecognized := settings.behavior.onUnrecognizedObject
  onParseError := settings.behavior.onParseError
  onObjectTooLarge := settings.behavior.onObjectTooLarge

def FilterConfig.selectMode (cfg : FilterConfig) (size : Option ℕ) : ObjectMode :=
  match cfg.processing.mode with
  | .buffer => .buffer
  | .stream => .stream
  | .auto =>
    match size with
    | some size => if cfg.processing.streamThresholdBytes < size then .stream else .buffer
    | none => .buffer

inductive CopyReason where
  | unparsed
  | unrecognized
deriving DecidableEq, Repr

/-- What became of an object, with where it went. -/
inductive ObjectOutcome where
  | written (place : String)
  | nothingKept
  | copied (place : String) (reason : CopyReason)
  | skipped
  | dryRun
deriving DecidableEq, Repr

inductive CliError where
  | core (error : CoreError)
  | store (error : StoreError)
  | message (text : String)
deriving DecidableEq, Repr

abbrev CliM := Effect StoreCall Metrics CliError

structure Filterer where
  engine : Engine
  cfg : FilterConfig
  src : Location
  dst : Location

namespace Filterer
variable (gz : Gzip) (float : FloatParser) (canonicalize : Path → Option Path) (f : Filterer) (attempt : Attempt)

/-- An object on either side, as its store is addressed. -/
def source (srcKey : String) : Pipeline.Location := (f.src.bucket, srcKey)

def dest (dstKey : String) : Pipeline.Location := (f.dst.bucket, dstKey)

def overwritesSource (srcKey dstKey : String) : Bool :=
  match f.src, f.dst with
  | .s3 sb _, .s3 db _ => sb = db ∧ srcKey = dstKey
  | .local _, .local _ =>
    match canonical canonicalize (Path.new srcKey), canonical canonicalize (Path.new dstKey) with
    | some s, some d => s = d
    | _, _ => false
  | _, _ => false

def getStream (answer : GetAnswer) (srcKey : String) : Effect StoreCall Metrics StoreError Body := do
  Effect.call (.getStream (f.source srcKey))
  match answer with
  | .body body => pure body
  | .notFound => Effect.fail (.notFound f.src.bucket srcKey)
  | .failed message => Effect.fail (.backend message)

/-- Reads no further than one byte past the cap. -/
def fetchCapped (srcKey : String) : ObjectM Bytes := do
  let limit := f.cfg.processing.maxObjectBytes
  let body ← (f.getStream attempt.fetch srcKey).mapError .store
  if limit < body.bytes.length then Effect.fail (.objectTooLarge limit)
  else
    match body.ending with
    | .failed message => Effect.fail (.store (.backend ("reading " ++ srcKey ++ ": " ++ message)))
    | .eof => pure body.bytes

/-- The bytes come back even when the evaluation failed. -/
def bufferEval (srcKey : String) : ObjectM (Bytes × Except CoreError (Outcome × RecordTally)) := do
  let bytes ← f.fetchCapped attempt srcKey
  pure (bytes, bufferRun gz float f.engine f.cfg.processing attempt.compressFails bytes)

def copiesUnparsable (e : CoreError) : Bool :=
  f.cfg.onParseError = .copy ∧ e.isUnparsableSource

def retriesViaStream (e : CoreError) : Bool :=
  match e with
  | .objectTooLarge _ => f.cfg.onObjectTooLarge = .stream
  | _ => false

def put (dstKey : String) (bytes : Bytes) : CliM String :=
  match attempt.put with
  | none => do
    Effect.call (.put (f.dest dstKey) bytes true)
    pure (f.dst.display dstKey)
  | some e => do
    Effect.call (.put (f.dest dstKey) bytes false)
    Effect.fail (.store e)

def streamCopy (srcKey dstKey : String) : CliM String := do
  let body ← (f.getStream attempt.reread srcKey).mapError .store
  match Pipeline.copyError attempt body with
  | none => do
    Effect.call (.putStream (f.dest dstKey) (some body.bytes))
    pure (f.dst.display dstKey)
  | some e => do
    Effect.call (.putStream (f.dest dstKey) none)
    Effect.fail (.store e)

/-- The verbatim copy of bytes that are in memory, or of the source read again. -/
def copy (srcKey dstKey : String) (bytes : Option Bytes) : CliM String :=
  match bytes with
  | some bytes => f.put attempt dstKey bytes
  | none => f.streamCopy attempt srcKey dstKey

def copyUnparsable (srcKey dstKey : String) (bytes : Option Bytes) (dryRun : Bool) : CliM ObjectOutcome := do
  Effect.publish (Metrics.addObjectsCopiedUnparsed 1)
  if dryRun then pure .dryRun
  else do
    let place ← f.copy attempt srcKey dstKey bytes
    pure (.copied place .unparsed)

def unrecognized (srcKey dstKey : String) (bytes : Option Bytes) : CliM ObjectOutcome :=
  match f.cfg.onUnrecognized with
  | .copy => do
    Effect.publish (Metrics.addUnrecognizedObjects 1)
    let place ← f.copy attempt srcKey dstKey bytes
    pure (.copied place .unrecognized)
  | .skip => do
    Effect.publish (Metrics.addUnrecognizedObjects 1)
    pure .skipped
  | .error =>
    Effect.fail (.message (srcKey ++ ": no Records array, and behavior.on_unrecognized_object is \"error\""))

/-- The run into a `DiscardStore`, with its own counters folded back. -/
def processDryRunStream (srcKey : String) : CliM ObjectOutcome := do
  let body ← (f.getStream attempt.read srcKey).mapError .store
  let run := streamRun gz float f.engine f.cfg.processing { attempt.stream with upload := none } body
  Effect.publish (Pipeline.foldBack run.metrics)
  match run.result with
  | .error e =>
    if f.copiesUnparsable e then f.copyUnparsable attempt srcKey "" none true
    else Effect.fail (.core e)
  | .ok outcome => do
    if outcome = .unrecognized then Effect.publish (Metrics.addUnrecognizedObjects 1) else pure ()
    pure .dryRun

/-- `stream_run` with the store of the destination. -/
def streamToStore (body : Body) (dstKey : String) : ObjectM Outcome :=
  let run := streamRun gz float f.engine f.cfg.processing attempt.stream body
  ⟨run.result, [.putStream (f.dest dstKey) run.committed], run.metrics⟩

def processStream (srcKey dstKey : String) : CliM ObjectOutcome := do
  let body ← (f.getStream attempt.read srcKey).mapError .store
  let result ← ((f.streamToStore gz float attempt body dstKey).attempt).mapError .core
  match result with
  | .error e =>
    if f.copiesUnparsable e then f.copyUnparsable attempt srcKey dstKey none false
    else Effect.fail (.core e)
  | .ok outcome =>
    match outcome with
    | .written _ => pure (.written (f.dst.display dstKey))
    | .nothingKept => pure .nothingKept
    | .unrecognized => f.unrecognized attempt srcKey dstKey none

/-- Stream mode, live or dry. -/
def runStream (srcKey dstKey : String) : CliM ObjectOutcome :=
  if f.cfg.dryRun then f.processDryRunStream gz float attempt srcKey
  else f.processStream gz float attempt srcKey dstKey

/-- What an evaluated object comes to. `Written(None)` is not an outcome of buffer mode. -/
def writeOutcome (srcKey dstKey : String) (bytes : Option Bytes) (outcome : Outcome) : CliM ObjectOutcome :=
  if f.cfg.dryRun then do
    if outcome = .unrecognized then Effect.publish (Metrics.addUnrecognizedObjects 1) else pure ()
    pure .dryRun
  else
    match outcome with
    | .written (some out) => do
      let place ← f.put attempt dstKey out
      pure (.written place)
    | .unrecognized => f.unrecognized attempt srcKey dstKey bytes
    | .nothingKept | .written none => pure .nothingKept

/-- What follows the evaluation. `None` for the bytes means that the fetch failed. -/
def conclude (srcKey dstKey : String) (bytes : Option Bytes) (result : Except CoreError (Outcome × RecordTally)) :
    CliM ObjectOutcome :=
  match result with
  | .error e =>
    if f.retriesViaStream e then f.runStream gz float attempt srcKey dstKey
    else if f.copiesUnparsable e then f.copyUnparsable attempt srcKey dstKey bytes f.cfg.dryRun
    else Effect.fail (.core e)
  | .ok (outcome, tally) => do
    let objectOutcome ← f.writeOutcome attempt srcKey dstKey bytes outcome
    Effect.publish (tally.commit f.engine)
    pure objectOutcome

def runBuffer (srcKey dstKey : String) : CliM ObjectOutcome := do
  let evaluated ← ((f.bufferEval gz float attempt srcKey).attempt).mapError .core
  match evaluated with
  | .ok (bytes, result) => f.conclude gz float attempt srcKey dstKey (some bytes) result
  | .error e => f.conclude gz float attempt srcKey dstKey none (.error e)

def process (srcKey dstKey : String) (size : Option ℕ) : CliM ObjectOutcome :=
  if !f.cfg.dryRun && f.overwritesSource canonicalize srcKey dstKey then
    Effect.fail (.message ("refusing to write " ++ f.dst.display dstKey ++
      " over its own source: pick a destination that is not the source"))
  else
    match f.cfg.selectMode size with
    | .stream => f.runStream gz float attempt srcKey dstKey
    | .buffer => f.runBuffer gz float attempt srcKey dstKey

end Filterer

section Agreement
variable {settings : Settings} {attempt : Attempt} {f : Filterer}

/-- A run of the filter and one of the pipeline that call the store alike, succeed alike and count
the records alike. -/
def Agrees {ε α β : Type} (R : α → β → Prop) (x : Effect StoreCall Metrics ε α) (y : ObjectM β) : Prop :=
  Effect.Alike (fun _ => true) Metrics.comparedHom R x y

lemma agrees_getStream (hmissing : settings.behavior.onMissingObject = .error) (answer : GetAnswer) (srcKey : String) :
    Agrees (fun body opened => opened = some body) (f.getStream answer srcKey)
      (Pipeline.openWithMissingPolicy settings answer (f.source srcKey)) := by
  unfold Filterer.getStream Pipeline.openWithMissingPolicy
  cases answer with
  | body body => exact ⟨.inl ⟨body, some body, rfl, rfl, rfl⟩, rfl, rfl⟩
  | notFound =>
    simp only [hmissing]
    exact ⟨.inr ⟨_, _, rfl, rfl⟩, rfl, rfl⟩
  | failed message => exact ⟨.inr ⟨_, _, rfl, rfl⟩, rfl, rfl⟩

lemma agrees_put (dstKey : String) (bytes : Bytes) :
    Agrees (fun _ _ => True) (f.put attempt dstKey bytes) (Pipeline.putBytes attempt (f.dest dstKey) bytes) := by
  unfold Filterer.put Pipeline.putBytes
  cases attempt.put with
  | none => exact ⟨.inl ⟨_, _, rfl, rfl, trivial⟩, rfl, rfl⟩
  | some e => exact ⟨.inr ⟨_, _, rfl, rfl⟩, rfl, rfl⟩

lemma agrees_streamCopy (hmissing : settings.behavior.onMissingObject = .error) (srcKey dstKey : String) :
    Agrees (fun _ copied => copied = true) (f.streamCopy attempt srcKey dstKey)
      (Pipeline.streamCopy settings attempt (f.source srcKey) (f.dest dstKey) .alreadyCounted) := by
  unfold Filterer.streamCopy Pipeline.streamCopy
  refine Effect.Alike.bind (agrees_getStream hmissing attempt.reread srcKey).mapError_left ?_
  rintro body _ rfl
  dsimp only
  cases Pipeline.copyError attempt body with
  | none => exact ⟨.inl ⟨_, _, rfl, rfl, rfl⟩, rfl, rfl⟩
  | some e => exact ⟨.inr ⟨_, _, rfl, rfl⟩, rfl, rfl⟩

/-- Counting the object as processed is the pipeline's alone. -/
lemma agrees_processed {ε α : Type} (a : α) :
    Agrees (fun _ _ => True) (pure a : Effect StoreCall Metrics ε α)
      (Effect.publish (Metrics.addObjectsProcessed 1)) :=
  Effect.Alike.ok trivial rfl rfl

lemma agrees_copyStreamed (hmissing : settings.behavior.onMissingObject = .error) (srcKey dstKey : String)
    (reason : CopyReason) :
    Agrees (fun _ _ => True)
      (do
        let place ← f.streamCopy attempt srcKey dstKey
        pure (ObjectOutcome.copied place reason))
      (do
        let copied ← Pipeline.streamCopy settings attempt (f.source srcKey) (f.dest dstKey) .alreadyCounted
        if copied then Effect.publish (Metrics.addObjectsProcessed 1) else pure ()) := by
  refine Effect.Alike.bind (agrees_streamCopy hmissing srcKey dstKey) ?_
  rintro place _ rfl
  exact agrees_processed _

lemma agrees_copyUnparsable (hmissing : settings.behavior.onMissingObject = .error) {dryRun : Bool}
    (hdryRun : settings.behavior.dryRun = dryRun) (srcKey dstKey : String) {dest : Pipeline.Location}
    (bytes : Option Bytes) (hdest : dryRun = false → dest = f.dest dstKey) :
    Agrees (fun _ _ => True) (f.copyUnparsable attempt srcKey dstKey bytes dryRun)
      (Pipeline.copyUnparsable settings attempt (f.source srcKey) dest bytes) := by
  unfold Filterer.copyUnparsable Pipeline.copyUnparsable
  refine Effect.Alike.bind (R := fun _ _ => True) (Effect.Alike.ok trivial rfl rfl) (fun _ _ _ => ?_)
  rw [hdryRun]
  cases dryRun with
  | true => exact agrees_processed _
  | false =>
    rw [hdest rfl]
    cases bytes with
    | some bytes => exact Effect.Alike.bind (agrees_put dstKey bytes) (fun _ _ _ => agrees_processed _)
    | none => exact agrees_copyStreamed hmissing srcKey dstKey .unparsed

/-- Only `error` fails, and only the counter of unrecognized objects tells the two apart. -/
lemma agrees_unrecognized (hmissing : settings.behavior.onMissingObject = .error)
    (hcfg : f.cfg = .resolve settings) (srcKey dstKey : String) :
    Agrees (fun _ _ => True) (f.unrecognized attempt srcKey dstKey none)
      (do
        Effect.publish (Metrics.addUnrecognizedObjects 1)
        match settings.behavior.onUnrecognizedObject with
        | .copy => do
          let copied ← Pipeline.streamCopy settings attempt (f.source srcKey) (f.dest dstKey) .alreadyCounted
          if copied then Effect.publish (Metrics.addObjectsProcessed 1) else pure ()
        | .skip => Effect.publish (Metrics.addObjectsProcessed 1)
        | .error => Effect.fail (.unrecognizedObject (f.source srcKey).1 (f.source srcKey).2)) := by
  have hpolicy : f.cfg.onUnrecognized = settings.behavior.onUnrecognizedObject := by rw [hcfg]; rfl
  refine Effect.Alike.publish_right rfl ?_
  unfold Filterer.unrecognized
  rw [hpolicy]
  cases settings.behavior.onUnrecognizedObject with
  | copy =>
    refine Effect.Alike.publish_left rfl ?_
    exact agrees_copyStreamed hmissing srcKey dstKey .unrecognized
  | skip =>
    refine Effect.Alike.publish_left rfl ?_
    exact agrees_processed _
  | error => exact Effect.Alike.error rfl rfl

/-- `on_unrecognized_object` for bytes that are in memory. -/
lemma agrees_unrecognizedBuffered (hcfg : f.cfg = .resolve settings) (srcKey dstKey : String) (bytes : Bytes) :
    Agrees (fun _ _ => True) (f.unrecognized attempt srcKey dstKey (some bytes))
      (Pipeline.applyUnrecognizedPolicy settings attempt (f.source srcKey) (f.dest dstKey) bytes) := by
  have hpolicy : f.cfg.onUnrecognized = settings.behavior.onUnrecognizedObject := by rw [hcfg]; rfl
  unfold Filterer.unrecognized Pipeline.applyUnrecognizedPolicy
  rw [hpolicy]
  cases settings.behavior.onUnrecognizedObject with
  | copy =>
    refine Effect.Alike.publish_left rfl ?_
    exact Effect.Alike.map_left (agrees_put dstKey bytes) (fun _ _ _ => trivial)
  | skip =>
    refine Effect.Alike.publish_left rfl ?_
    exact Effect.Alike.ok trivial rfl rfl
  | error => exact Effect.Alike.error rfl rfl

variable (gz : Gzip) (float : FloatParser)

lemma copiesUnparsable_resolve (hcfg : f.cfg = .resolve settings) (e : CoreError) :
    f.copiesUnparsable e = Pipeline.copiesUnparsable settings e := by
  simp only [Filterer.copiesUnparsable, Pipeline.copiesUnparsable, hcfg, FilterConfig.resolve]

lemma agrees_processStream (hmissing : settings.behavior.onMissingObject = .error)
    (hcfg : f.cfg = .resolve settings) (hlive : settings.behavior.dryRun = false) (srcKey dstKey : String) :
    Agrees (fun _ _ => True) (f.processStream gz float attempt srcKey dstKey)
      (Pipeline.processStream gz float settings f.engine attempt (f.source srcKey) (f.dest dstKey)) := by
  have hprocessing : f.cfg.processing = settings.processing := by rw [hcfg]; rfl
  unfold Filterer.processStream Pipeline.processStream
  refine Effect.Alike.bind (agrees_getStream hmissing attempt.read srcKey).mapError_left ?_
  rintro body _ rfl
  have hrun : f.streamToStore gz float attempt body dstKey =
      Pipeline.streamToStore gz float settings f.engine attempt body (f.dest dstKey) := by
    simp only [Filterer.streamToStore, Pipeline.streamToStore, hprocessing]
  rw [hrun]
  refine Effect.Alike.bind (R := Eq) (Effect.Alike.ok rfl rfl rfl) ?_
  rintro result _ rfl
  simp only [copiesUnparsable_resolve hcfg]
  cases result with
  | error e =>
    dsimp only
    split_ifs
    · exact agrees_copyUnparsable hmissing hlive srcKey dstKey none (fun _ => rfl)
    · exact Effect.Alike.error rfl rfl
  | ok outcome =>
    cases outcome with
    | written _ => exact agrees_processed _
    | nothingKept => exact agrees_processed _
    | unrecognized => exact agrees_unrecognized hmissing hcfg srcKey dstKey

lemma agrees_processDryRunStream (hmissing : settings.behavior.onMissingObject = .error)
    (hcfg : f.cfg = .resolve settings) (hdry : settings.behavior.dryRun = true) (srcKey : String) :
    Agrees (fun _ _ => True) (f.processDryRunStream gz float attempt srcKey)
      (Pipeline.processDryRunStream gz float settings f.engine attempt (f.source srcKey)) := by
  have hprocessing : f.cfg.processing = settings.processing := by rw [hcfg]; rfl
  unfold Filterer.processDryRunStream Pipeline.processDryRunStream
  refine Effect.Alike.bind (agrees_getStream hmissing attempt.read srcKey).mapError_left ?_
  rintro body _ rfl
  simp only [hprocessing, copiesUnparsable_resolve hcfg]
  refine Effect.Alike.bind (R := fun _ _ => True) (Effect.Alike.ok trivial rfl rfl) (fun _ _ _ => ?_)
  generalize (streamRun gz float f.engine settings.processing { attempt.stream with upload := none } body).result = result
  cases result with
  | error e =>
    dsimp only
    split_ifs
    · exact agrees_copyUnparsable hmissing hdry srcKey "" none (by simp)
    · exact Effect.Alike.error rfl rfl
  | ok outcome =>
    dsimp only
    split_ifs
    · exact Effect.Alike.ok trivial rfl rfl
    · exact agrees_processed _

lemma agrees_runStream (hmissing : settings.behavior.onMissingObject = .error) (hcfg : f.cfg = .resolve settings)
    (srcKey dstKey : String) :
    Agrees (fun _ _ => True) (f.runStream gz float attempt srcKey dstKey)
      (Pipeline.runStream gz float settings f.engine attempt (f.source srcKey) (f.dest dstKey)) := by
  have hdryRun : f.cfg.dryRun = settings.behavior.dryRun := by rw [hcfg]; rfl
  unfold Filterer.runStream Pipeline.runStream
  rw [hdryRun]
  cases hdry : settings.behavior.dryRun with
  | true => exact agrees_processDryRunStream gz float hmissing hcfg hdry srcKey
  | false => exact agrees_processStream gz float hmissing hcfg hdry srcKey dstKey

variable (attempt) in
/-- Both fetch the same bytes, or both fail, with errors that are retried alike. -/
lemma fetchCapped_cases (hmissing : settings.behavior.onMissingObject = .error) (hcfg : f.cfg = .resolve settings)
    (srcKey : String) :
    (∃ bytes, f.fetchCapped attempt srcKey = ⟨.ok bytes, [.getStream (f.source srcKey)], 0⟩ ∧
      Pipeline.fetchWithMissingPolicy settings attempt (f.source srcKey) =
        ⟨.ok (some bytes), [.getStream (f.source srcKey)], 0⟩) ∨
    ∃ e e', f.fetchCapped attempt srcKey = ⟨.error e, [.getStream (f.source srcKey)], 0⟩ ∧
      Pipeline.fetchWithMissingPolicy settings attempt (f.source srcKey) =
        ⟨.error e', [.getStream (f.source srcKey)], 0⟩ ∧
      e.isUnparsableSource = false ∧
      f.retriesViaStream e = Pipeline.retriedViaStream settings (.error e' : Except CoreError Unit) := by
  have hprocessing : f.cfg.processing = settings.processing := by rw [hcfg]; rfl
  have hpolicy : f.cfg.onObjectTooLarge = settings.behavior.onObjectTooLarge := by rw [hcfg]; rfl
  unfold Filterer.fetchCapped Filterer.getStream Pipeline.fetchWithMissingPolicy Pipeline.openWithMissingPolicy
  cases attempt.fetch with
  | notFound =>
    simp only [hmissing]
    exact .inr ⟨_, _, rfl, rfl, rfl, rfl⟩
  | failed message => exact .inr ⟨_, _, rfl, rfl, rfl, rfl⟩
  | body body =>
    by_cases hlarge : settings.processing.maxObjectBytes < body.bytes.length
    · refine .inr ⟨.objectTooLarge settings.processing.maxObjectBytes,
        .objectTooLarge settings.processing.maxObjectBytes, ?_, ?_, rfl, ?_⟩
      · simp [hprocessing, hlarge, Effect.mapError, Except.mapError]
      · simp [hlarge]
      · simp [Filterer.retriesViaStream, Pipeline.retriedViaStream, hpolicy]
    · cases hend : body.ending with
      | eof =>
        refine .inl ⟨body.bytes, ?_, ?_⟩
        · simp [hprocessing, hlarge, hend, Effect.mapError, Except.mapError]
        · simp [hlarge, hend]
      | failed message =>
        refine .inr ⟨.store (.backend ("reading " ++ srcKey ++ ": " ++ message)),
          .store (.backend ("reading " ++ f.src.bucket ++ "/" ++ srcKey ++ ": " ++ message)), ?_, ?_, rfl, rfl⟩
        · simp only [Effect.mapError, Except.mapError, Effect.call_bind, Effect.pure_result, Effect.pure_calls,
            Effect.pure_metrics, Effect.ok_bind, hprocessing, hlarge, if_false, hend]
          rfl
        · simp only [Effect.call_bind, Effect.pure_result, Effect.pure_calls, Effect.pure_metrics, Effect.ok_bind,
            hlarge, if_false, hend]
          rfl

lemma compared_billFetched (result : Except CoreError (Outcome × RecordTally)) (bytes : Bytes) :
    Metrics.comparedHom (Pipeline.billFetched settings result bytes) = 0 := by
  unfold Pipeline.billFetched
  split_ifs <;> rfl

/-- Both publish the tally, and the pipeline counts the object. -/
lemma agrees_commit {ε α : Type} (engine : Engine) (tally : RecordTally) (a : α) :
    Agrees (fun _ _ => True)
      (do
        Effect.publish (tally.commit engine)
        pure a : Effect StoreCall Metrics ε α)
      (do
        Effect.publish (tally.commit engine)
        Effect.publish (Metrics.addObjectsProcessed 1)) :=
  Effect.Alike.bind (R := fun _ _ => True) (Effect.Alike.ok trivial rfl rfl) (fun _ _ _ => agrees_processed a)

section Fetched
variable {srcKey : String} {bytes : Bytes} (dstKey : String) (hmissing : settings.behavior.onMissingObject = .error)
  (hcfg : f.cfg = .resolve settings)
  (hfetch : Pipeline.fetchWithMissingPolicy settings attempt (f.source srcKey) =
    ⟨.ok (some bytes), [.getStream (f.source srcKey)], 0⟩)
  (hstays : ∀ e, bufferRun gz float f.engine settings.processing attempt.compressFails bytes = .error e →
    f.retriesViaStream e = false)
include hmissing hcfg hfetch hstays

/-- A live run on bytes that were fetched and fit. -/
lemma agrees_processBuffer (hlive : settings.behavior.dryRun = false) :
    Agrees (fun _ _ => True)
      ((⟨.ok (), [.getStream (f.source srcKey)], 0⟩ : CliM Unit) >>= fun _ =>
        f.conclude gz float attempt srcKey dstKey (some bytes)
          (bufferRun gz float f.engine settings.processing attempt.compressFails bytes))
      (Pipeline.processBuffer gz float settings f.engine attempt (f.source srcKey) (f.dest dstKey)) := by
  have hdryRun : f.cfg.dryRun = false := by rw [hcfg]; exact hlive
  unfold Pipeline.processBuffer
  rw [hfetch]
  refine Effect.Alike.bind (R := fun _ b => b = some bytes) (Effect.Alike.ok rfl rfl rfl) ?_
  rintro _ _ rfl
  dsimp only
  refine Effect.Alike.publish_right (compared_billFetched _ bytes) ?_
  unfold Filterer.conclude
  generalize bufferRun gz float f.engine settings.processing attempt.compressFails bytes = result at hstays ⊢
  rcases result with e | ⟨outcome, tally⟩
  · simp only [hstays e rfl, copiesUnparsable_resolve hcfg, hdryRun, Bool.false_eq_true, if_false]
    split_ifs
    · exact agrees_copyUnparsable hmissing hlive srcKey dstKey (some bytes) (fun _ => rfl)
    · exact Effect.Alike.error rfl rfl
  · simp only [Filterer.writeOutcome, hdryRun, Bool.false_eq_true, if_false]
    cases outcome with
    | nothingKept =>
      simp only [Effect.pure_bind]
      exact agrees_commit f.engine tally _
    | unrecognized =>
      refine Effect.Alike.publish_right rfl ?_
      exact Effect.Alike.bind (agrees_unrecognizedBuffered hcfg srcKey dstKey bytes)
        (fun a _ _ => agrees_commit f.engine tally a)
    | written out =>
      cases out with
      | none =>
        simp only [Effect.pure_bind]
        exact agrees_commit f.engine tally _
      | some out =>
        refine Effect.Alike.bind (R := fun _ _ => True) ?_ (fun a _ _ => agrees_commit f.engine tally a)
        exact Effect.Alike.map_left (agrees_put dstKey out) (fun _ _ _ => trivial)

/-- A dry run on bytes that were fetched and fit. -/
lemma agrees_processDryRun (hdry : settings.behavior.dryRun = true) :
    Agrees (fun _ _ => True)
      ((⟨.ok (), [.getStream (f.source srcKey)], 0⟩ : CliM Unit) >>= fun _ =>
        f.conclude gz float attempt srcKey dstKey (some bytes)
          (bufferRun gz float f.engine settings.processing attempt.compressFails bytes))
      (Pipeline.processDryRun gz float settings f.engine attempt (f.source srcKey)) := by
  have hdryRun : f.cfg.dryRun = true := by rw [hcfg]; exact hdry
  unfold Pipeline.processDryRun
  rw [hfetch]
  refine Effect.Alike.bind (R := fun _ b => b = some bytes) (Effect.Alike.ok rfl rfl rfl) ?_
  rintro _ _ rfl
  dsimp only
  refine Effect.Alike.publish_right (compared_billFetched _ bytes) ?_
  unfold Filterer.conclude
  generalize bufferRun gz float f.engine settings.processing attempt.compressFails bytes = result at hstays ⊢
  rcases result with e | ⟨outcome, tally⟩
  · simp only [hstays e rfl, copiesUnparsable_resolve hcfg, hdryRun, Bool.false_eq_true, if_false]
    split_ifs
    · exact agrees_copyUnparsable hmissing hdry srcKey dstKey none (by simp)
    · exact Effect.Alike.error rfl rfl
  · simp only [Filterer.writeOutcome, hdryRun, if_true]
    split_ifs
    · exact Effect.Alike.ok trivial rfl rfl
    · simp only [Effect.pure_bind]
      exact agrees_commit f.engine tally _

/-- An object that buffer mode evaluates and does not find too large. -/
lemma agrees_runBuffer_fetched :
    Agrees (fun _ _ => True)
      ((⟨.ok (), [.getStream (f.source srcKey)], 0⟩ : CliM Unit) >>= fun _ =>
        f.conclude gz float attempt srcKey dstKey (some bytes)
          (bufferRun gz float f.engine settings.processing attempt.compressFails bytes))
      (Pipeline.runBuffer gz float settings f.engine attempt (f.source srcKey) (f.dest dstKey)) := by
  unfold Pipeline.runBuffer
  cases hdry : settings.behavior.dryRun with
  | true => exact agrees_processDryRun gz float dstKey hmissing hcfg hfetch hstays hdry
  | false => exact agrees_processBuffer gz float dstKey hmissing hcfg hfetch hstays hdry

end Fetched

lemma runBuffer_of_error {source : Pipeline.Location} {e : CoreError}
    (hfetch : Pipeline.fetchWithMissingPolicy settings attempt source = ⟨.error e, [.getStream source], 0⟩)
    (engine : Engine) (dest : Pipeline.Location) :
    Pipeline.runBuffer gz float settings engine attempt source dest = ⟨.error e, [.getStream source], 0⟩ := by
  unfold Pipeline.runBuffer Pipeline.processDryRun Pipeline.processBuffer
  rw [hfetch]
  split_ifs <;> simp

lemma runBuffer_of_tooLarge {source : Pipeline.Location} {bytes : Bytes} {engine : Engine} {limit : ℕ}
    (hfetch : Pipeline.fetchWithMissingPolicy settings attempt source = ⟨.ok (some bytes), [.getStream source], 0⟩)
    (hrun : bufferRun gz float engine settings.processing attempt.compressFails bytes = .error (.objectTooLarge limit))
    (hpolicy : settings.behavior.onObjectTooLarge = .stream) (dest : Pipeline.Location) :
    Pipeline.runBuffer gz float settings engine attempt source dest =
      ⟨.error (.objectTooLarge limit), [.getStream source], 0⟩ := by
  have hcopies : Pipeline.copiesUnparsable settings (.objectTooLarge limit) = false := by
    simp [Pipeline.copiesUnparsable, CoreError.isUnparsableSource]
  have hbill : Pipeline.billFetched settings (.error (.objectTooLarge limit)) bytes = 0 := by
    simp [Pipeline.billFetched, Pipeline.retriedViaStream, hpolicy]
  unfold Pipeline.runBuffer Pipeline.processDryRun Pipeline.processBuffer
  rw [hfetch]
  split_ifs <;> simp [hrun, hcopies, hbill]

/-- Bytes that were fetched are too large only if they decompress to too much. -/
lemma not_retried_of_fetched {source : Pipeline.Location} {bytes : Bytes} {engine : Engine}
    (hfetch : Pipeline.fetchWithMissingPolicy settings attempt source = ⟨.ok (some bytes), [.getStream source], 0⟩)
    (hstays : settings.behavior.onObjectTooLarge = .stream → ∀ limit,
      bufferRun gz float engine settings.processing attempt.compressFails bytes ≠ .error (.objectTooLarge limit))
    (dest : Pipeline.Location) :
    Pipeline.retriedViaStream settings
      (Pipeline.runBuffer gz float settings engine attempt source dest).result = false := by
  rw [← Bool.not_eq_true, Pipeline.retried_runBuffer_iff]
  rintro ⟨hpolicy, body, hbody, hlarge⟩
  rcases Pipeline.fetchWithMissingPolicy_cases settings attempt source with
    ⟨body', hbody', -, hfits, h⟩ | h | ⟨_, -, -, h⟩ | ⟨_, h⟩ <;> rw [hfetch] at h
  · obtain rfl : body = body' := by
      rw [hbody] at hbody'
      exact GetAnswer.body.inj hbody'
    have hbytes : bytes = body.bytes := by simpa using h
    rcases hlarge with hlarge | ⟨-, limit, hrun⟩
    · omega
    · rw [← hbytes] at hrun
      exact hstays hpolicy limit hrun
  all_goals simp at h

/-- Buffer mode with its retry. -/
lemma agrees_runBuffer (hmissing : settings.behavior.onMissingObject = .error) (hcfg : f.cfg = .resolve settings)
    (srcKey dstKey : String) :
    Agrees (fun _ _ => True) (f.runBuffer gz float attempt srcKey dstKey)
      (Pipeline.orRetry settings
        (Pipeline.runBuffer gz float settings f.engine attempt (f.source srcKey) (f.dest dstKey))
        (Pipeline.runStream gz float settings f.engine attempt (f.source srcKey) (f.dest dstKey))) := by
  have hprocessing : f.cfg.processing = settings.processing := by rw [hcfg]; rfl
  have hpolicy : f.cfg.onObjectTooLarge = settings.behavior.onObjectTooLarge := by rw [hcfg]; rfl
  have hretry : Agrees (fun _ _ => True)
      ((⟨.ok (), [.getStream (f.source srcKey)], 0⟩ : CliM Unit) >>= fun _ => f.runStream gz float attempt srcKey dstKey)
      ((⟨.ok (), [.getStream (f.source srcKey)], 0⟩ : ObjectM Unit) >>= fun _ =>
        Pipeline.runStream gz float settings f.engine attempt (f.source srcKey) (f.dest dstKey)) :=
    Effect.Alike.bind (R := fun _ _ => True) (Effect.Alike.ok trivial rfl rfl)
      (fun _ _ _ => agrees_runStream gz float hmissing hcfg srcKey dstKey)
  rw [Effect.ok_bind, Effect.ok_bind] at hretry
  unfold Filterer.runBuffer Filterer.bufferEval
  rcases fetchCapped_cases attempt hmissing hcfg srcKey with
    ⟨bytes, hcli, hfetch⟩ | ⟨e, e', hcli, hfetch, hparse, hretries⟩
  · simp only [hcli, Effect.ok_bind, Effect.attempt, Effect.mapError, Except.mapError, Effect.pure_result,
      Effect.pure_calls, Effect.pure_metrics, List.append_nil, add_zero, hprocessing]
    by_cases hstays : settings.behavior.onObjectTooLarge = .stream → ∀ limit,
        bufferRun gz float f.engine settings.processing attempt.compressFails bytes ≠ .error (.objectTooLarge limit)
    · rw [Pipeline.orRetry_of_not_retried _ (not_retried_of_fetched gz float hfetch hstays _)]
      refine agrees_runBuffer_fetched gz float dstKey hmissing hcfg hfetch ?_
      intro e he
      unfold Filterer.retriesViaStream
      split
      · rw [hpolicy, decide_eq_false_iff_not]
        exact fun hstream => hstays hstream _ he
      · rfl
    · push Not at hstays
      obtain ⟨hstream, limit, hrun⟩ := hstays
      have hlarge := runBuffer_of_tooLarge gz float hfetch hrun hstream (f.dest dstKey)
      have hretried : Pipeline.retriedViaStream settings
          (Pipeline.runBuffer gz float settings f.engine attempt (f.source srcKey) (f.dest dstKey)).result = true := by
        simp [hlarge, Pipeline.retriedViaStream, hstream]
      rw [Pipeline.orRetry_of_retried _ hretried, hlarge]
      simpa [hrun, Filterer.conclude, Filterer.retriesViaStream, hpolicy, hstream] using hretry
  · have hcopies : f.copiesUnparsable e = false := by simp [Filterer.copiesUnparsable, hparse]
    have hfailed := runBuffer_of_error gz float hfetch f.engine (f.dest dstKey)
    simp only [hcli, Effect.error_bind, Effect.attempt, Effect.mapError, Except.mapError, Effect.ok_bind,
      Filterer.conclude, hretries, hcopies, Bool.false_eq_true, if_false]
    cases hretried : Pipeline.retriedViaStream settings (.error e' : Except CoreError Unit) with
    | true =>
      rw [Pipeline.orRetry_of_retried _ (by rw [hfailed]; exact hretried), hfailed]
      simpa using hretry
    | false =>
      rw [Pipeline.orRetry_of_not_retried _ (by rw [hfailed]; exact hretried), hfailed]
      exact Effect.Alike.error rfl rfl

lemma selectMode_resolve (size : Option ℕ) :
    (FilterConfig.resolve settings).selectMode size = selectMode settings size := rfl

/-- An object that is not its own destination, in the mode that is selected for it. -/
lemma agrees_process (canonicalize : Path → Option Path) (hcfg : f.cfg = .resolve settings)
    (hmissing : settings.behavior.onMissingObject = .error) (srcKey dstKey : String) (size : Option ℕ)
    (hdest : f.overwritesSource canonicalize srcKey dstKey = false) :
    Agrees (fun _ _ => True) (f.process gz float canonicalize attempt srcKey dstKey size)
      (Pipeline.processObject gz float settings f.engine attempt ⟨f.src.bucket, srcKey, size⟩ (f.dst.bucket, dstKey)) := by
  have hmode : f.cfg.selectMode size = selectMode settings size := by rw [hcfg, selectMode_resolve]
  have hprocess : f.process gz float canonicalize attempt srcKey dstKey size =
      match selectMode settings size with
      | .stream => f.runStream gz float attempt srcKey dstKey
      | .buffer => f.runBuffer gz float attempt srcKey dstKey := by
    simp only [Filterer.process, hdest, Bool.and_false, Bool.false_eq_true, if_false, hmode]
  rw [hprocess]
  unfold Pipeline.processObject
  cases selectMode settings size with
  | stream => exact agrees_runStream gz float hmissing hcfg srcKey dstKey
  | buffer => exact agrees_runBuffer gz float hmissing hcfg srcKey dstKey

/-- The filter of the command line applies the policy of the pipeline: with the same settings, under
`on_missing_object: error`, and a destination that is not the source, it makes the same calls of the
store, so the same writes of the same bytes in the same order, succeeds exactly when the pipeline does
and counts the same of the records. -/
theorem filter_applies_pipeline_policy (canonicalize : Path → Option Path) (f : Filterer) (settings : Settings)
    (hcfg : f.cfg = .resolve settings) (hmissing : settings.behavior.onMissingObject = .error) (attempt : Attempt)
    (srcKey dstKey : String) (size : Option ℕ) (hdest : f.overwritesSource canonicalize srcKey dstKey = false) :
    let cli := f.process gz float canonicalize attempt srcKey dstKey size
    let pipeline := Pipeline.processObject gz float settings f.engine attempt ⟨f.src.bucket, srcKey, size⟩
      (f.dst.bucket, dstKey)
    cli.calls = pipeline.calls ∧ cli.result.isOk = pipeline.result.isOk ∧
      cli.metrics.compared = pipeline.metrics.compared := by
  intro cli pipeline
  have hagrees : Agrees (fun _ _ => True) cli pipeline :=
    agrees_process gz float canonicalize hcfg hmissing srcKey dstKey size hdest
  refine ⟨by simpa using hagrees.calls, ?_, hagrees.metrics⟩
  rcases hagrees.result with ⟨_, _, hx, hy, -⟩ | ⟨_, _, hx, hy⟩
  · rw [hx, hy]
    rfl
  · rw [hx, hy]
    rfl

/-- A missing object is an error, as it is to a filter run. -/
def backfillSettings : Settings :=
  { sampleSettings with behavior := { sampleSettings.behavior with onMissingObject := .error } }

theorem filter_applies_pipeline_policy_sample :
    let f : Filterer := ⟨passEngine, .resolve backfillSettings, .s3 "trail" "", .local "out"⟩
    let cli := f.process storedGzip (fun _ => none) (fun _ => none) (sampleAttempt envelopeText) "a.gz" "out/a.gz" none
    let pipeline := Pipeline.processObject storedGzip (fun _ => none) backfillSettings passEngine
      (sampleAttempt envelopeText) ⟨"trail", "a.gz", none⟩ ("", "out/a.gz")
    cli.calls = pipeline.calls ∧ cli.result.isOk = pipeline.result.isOk ∧
      cli.metrics.compared = pipeline.metrics.compared :=
  filter_applies_pipeline_policy storedGzip (fun _ => none) (fun _ => none) _ backfillSettings rfl rfl
    (sampleAttempt envelopeText) "a.gz" "out/a.gz" none rfl

end Agreement

end Cli

end CloudTrailFilter
