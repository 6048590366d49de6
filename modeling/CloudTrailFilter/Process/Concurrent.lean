import CloudTrailFilter.Lib.Concurrency
import CloudTrailFilter.Process.Stream

/-!
# The interleavings of stream mode

`stream_run` is four parties over three bounded channels: the pump that reads the source, the
blocking task that extracts the records, the processing block that filters them and the
upload. Here every party is a small state machine and a run is any interleaving of them, with a
panic of the extraction task and failures of the encoder and the upload at any point.
-/

namespace CloudTrailFilter.Process
open CloudTrailFilter.Json CloudTrailFilter.Filter CloudTrailFilter.Concurrency

section Machine

abbrev ByteMsg := Except String Bytes

inductive StreamMsg where
  | record (text : Bytes)
  | finished (kind : FinishKind)
deriving DecidableEq

def inputChannelCapacity : ℕ := 4
def recordChannelCapacity : ℕ := 16
def outputChannelCapacity : ℕ := 4

/-- `pump_input`: reading the source, or waiting to hand over what was read. -/
inductive Pump where
  | reading (rest : List Bytes)
  | sending (msg : ByteMsg) (rest : List Bytes)
  | done

/-- Where the extraction task stands. -/
inductive ExtractPhase where
  | working
  | receiving
  | sending (text : Bytes)
  | finishing (kind : FinishKind)
  | done
  | panicked
deriving DecidableEq

/-- The extraction task still runs. -/
def ExtractPhase.live : ExtractPhase → Bool
  | .done | .panicked => false
  | _ => true

/-- The extraction task: what it has received, how many records it has sent, and whether it has
found their consumer gone. -/
structure Extractor where
  chunks : List Bytes
  ending : Option BodyEnd
  sent : ℕ
  consumerGone : Bool
  phase : ExtractPhase

/-- What the processing block returns. -/
abbrev BlockResult := Except CoreError (Outcome × ℕ × RecordTally)

inductive BlockPhase where
  | starting
  | receiving
  | flushing (chunk : Bytes)
  | closing (tail : Bytes)
  | aborting (message : String) (result : BlockResult)
  | done (result : BlockResult)

structure Block (gz : Gzip) where
  st : Filtering gz
  phase : BlockPhase

inductive UploadPhase where
  | reading
  | atEof
  | broken
  | done (result : Except StoreError Unit)
deriving DecidableEq

/-- `put_stream`: the bytes it has read and the object it has committed. -/
structure Upload where
  bytes : Bytes
  committed : Option Bytes
  phase : UploadPhase

structure StreamState (gz : Gzip) where
  input : Channel ByteMsg inputChannelCapacity
  raw : Channel StreamMsg recordChannelCapacity
  output : Channel ByteMsg outputChannelCapacity
  pump : Pump
  bytesIn : ℕ
  extractor : Extractor
  block : Block gz
  upload : Upload

/-- The calls of the encoder that can fail. -/
inductive EncoderCall where
  | write
  | finish
deriving DecidableEq

inductive StreamAction where
  | pump
  /-- The extraction task goes on with what it has, or first asks for more input. -/
  | extract (askInput : Bool)
  | panic
  /-- The processing block goes on; the encoder may fail in the call it makes. -/
  | block (fault : Option EncoderCall)
  | uploadRead
  /-- `put_stream` returns. -/
  | uploadReturn (error : Option StoreError)
deriving DecidableEq

end Machine

section Steps
variable (gz : Gzip) (float : FloatParser) (engine : Engine) (cfg : Processing) (threshold : ℕ)
  (body : Body)

def StreamState.start : StreamState gz where
  input := .empty
  raw := .empty
  output := .empty
  pump := .reading body.chunks
  bytesIn := 0
  extractor := ⟨[], none, 0, false, .working⟩
  block := ⟨.start gz cfg.gzipLevel, .starting⟩
  upload := ⟨[], none, .reading⟩

variable {gz}

def pumpDone (s : StreamState gz) : StreamState gz :=
  { s with pump := .done, input := s.input.dropSender }

def pumpStep (s : StreamState gz) : Option (StreamState gz) :=
  match s.pump with
  | .reading (chunk :: rest) =>
    some { s with pump := .sending (.ok chunk) rest, bytesIn := s.bytesIn + chunk.length }
  | .reading [] =>
    match body.ending with
    | .eof => some (pumpDone s)
    | .failed message => some { s with pump := .sending (.error message) [] }
  | .sending msg rest =>
    match s.input.send msg with
    | .blocked => none
    | .refused => some (pumpDone s)
    | .sent input =>
      match msg with
      | .ok _ => some { s with input := input, pump := .reading rest }
      | .error _ => some (pumpDone { s with input := input })
  | .done => none

/-- What the task can send of what it has received. -/
def Extractor.yield (gz : Gzip) (float : FloatParser) (x : Extractor) : Sending Bool :=
  extraction gz float x.chunks x.ending

def Extractor.textEnd (gz : Gzip) (x : Extractor) : TextEnd := (textOf gz x.chunks x.ending).2

/-- The `transport_error` cell. -/
def Extractor.transportError (x : Extractor) : Option String :=
  match x.ending with
  | some (.failed message) => some message
  | _ => none

/-- The deserializer cannot go on without more input. -/
def Extractor.starving (gz : Gzip) (float : FloatParser) (x : Extractor) : Bool :=
  (x.yield gz float).result = .error .starved ∧ x.textEnd gz = .pending

def extractorGone (phase : ExtractPhase) (s : StreamState gz) : StreamState gz :=
  { s with
    extractor := { s.extractor with phase := phase }
    input := s.input.dropReceiver
    raw := s.raw.dropSender }

def extractStep (askInput : Bool) (s : StreamState gz) : Option (StreamState gz) :=
  let x := s.extractor
  match x.phase with
  | .working =>
    if askInput then
      if x.ending = none then some { s with extractor := { x with phase := .receiving } } else none
    else if x.consumerGone then
      -- the visitor's own error, which the deserializer passes on
      some { s with extractor :=
        { x with phase := .finishing (finishKind x.transportError (.error .malformed) (x.textEnd gz)) } }
    else
      match (x.yield gz float).records[x.sent]? with
      | some text => some { s with extractor := { x with phase := .sending text } }
      | none =>
        if x.starving gz float then none
        else some { s with extractor :=
          { x with phase :=
              .finishing (finishKind x.transportError (x.yield gz float).result (x.textEnd gz)) } }
  | .receiving =>
    match s.input.recv with
    | .blocked => none
    | .got (.ok chunk) input =>
      some { s with
        input := input
        extractor := { x with chunks := x.chunks ++ [chunk], phase := .working } }
    | .got (.error message) input =>
      some { s with
        input := input
        extractor := { x with ending := some (.failed message), phase := .working } }
    | .closed => some { s with extractor := { x with ending := some .eof, phase := .working } }
  | .sending text =>
    match s.raw.send (.record text) with
    | .blocked => none
    | .refused => some { s with extractor := { x with consumerGone := true, phase := .working } }
    | .sent raw =>
      some { s with raw := raw, extractor := { x with sent := x.sent + 1, phase := .working } }
  | .finishing kind =>
    match s.raw.send (.finished kind) with
    | .blocked => none
    | .refused => some (extractorGone .done s)
    | .sent raw => some (extractorGone .done { s with raw := raw })
  | .done | .panicked => none

/-- The task panics before it has sent its last message. -/
def panicStep (s : StreamState gz) : Option (StreamState gz) :=
  match s.extractor.phase with
  | .done | .panicked => none
  | _ => some (extractorGone .panicked s)

def BlockPhase.writeFailed : BlockPhase :=
  .aborting "aborting: gzip write failed" (.error (.internal .compression))

def BlockPhase.finishFailed : BlockPhase :=
  .aborting "aborting: gzip finish failed" (.error (.internal .compression))

/-- The block after a record message. -/
def recordStep (fault : Option EncoderCall) (st : Filtering gz) (text : Bytes) : Option (Block gz) :=
  let next := st.filterRecord float engine text
  match fault with
  | none =>
    some ⟨next.drain threshold, if threshold ≤ next.sink.length then .flushing next.sink else .receiving⟩
  | some .write => if keeps float engine text then some ⟨st, .writeFailed⟩ else none
  | some .finish => none

/-- The compressed bytes that finishing leaves to hand over. -/
def Filtering.tail (st : Filtering gz) : Bytes :=
  (st.write closeEnvelope).sink ++ gz.finish (st.write closeEnvelope).encoder

/-- What the block returns for an object that is written. -/
def writtenResult (st : Filtering gz) : BlockResult := .ok (.written none, st.close.bytesOut, st.tally)

/-- The block after the last message of the extraction task. -/
def finishStep (fault : Option EncoderCall) (st : Filtering gz) (kind : FinishKind) : Option (Block gz) :=
  match kind with
  | .recordsFound =>
    if 0 < st.tally.kept then
      match fault with
      | none => some ⟨st, if st.tail = [] then .done (writtenResult st) else .closing st.tail⟩
      | some .write => some ⟨st, .writeFailed⟩
      | some .finish => some ⟨st, .finishFailed⟩
    else if fault = none then
      some ⟨st, .aborting "aborting: all records dropped" (.ok (.nothingKept, 0, st.tally))⟩
    else none
  | .unrecognized =>
    if fault = none then
      some ⟨st, .aborting "aborting: no Records array" (.ok (.unrecognized, 0, .empty))⟩
    else none
  | .error failure =>
    if fault = none then some ⟨st, .aborting "aborting: parse failure" (.error failure.toError)⟩
    else none

/-- The block with its endpoints dropped once it has returned. -/
def setBlock (s : StreamState gz) (block : Block gz) : StreamState gz :=
  match block.phase with
  | .done _ => { s with block := block, raw := s.raw.dropReceiver, output := s.output.dropSender }
  | _ => { s with block := block }

/-- Hands a message to the upload. Whether the upload is still there makes no difference. -/
def handOver (s : StreamState gz) (msg : ByteMsg) (next : BlockPhase) : Option (StreamState gz) :=
  match s.output.send msg with
  | .blocked => none
  | .refused => some (setBlock s { s.block with phase := next })
  | .sent output => some (setBlock { s with output := output } { s.block with phase := next })

def blockStep (fault : Option EncoderCall) (s : StreamState gz) : Option (StreamState gz) :=
  match s.block.phase with
  | .starting =>
    match fault with
    | none => some (setBlock s { s.block with phase := .receiving })
    | some .write => some (setBlock s { s.block with phase := .writeFailed })
    | some .finish => none
  | .receiving =>
    match s.raw.recv with
    | .blocked => none
    | .closed =>
      if fault = none then
        some (setBlock s { s.block with
          phase := .aborting "aborting: record producer vanished" (.error (.internal .producerVanished)) })
      else none
    | .got (.record text) raw =>
      (recordStep float engine threshold fault s.block.st text).map (setBlock { s with raw := raw })
    | .got (.finished kind) raw =>
      (finishStep fault s.block.st kind).map (setBlock { s with raw := raw })
  | .flushing chunk => if fault = none then handOver s (.ok chunk) .receiving else none
  | .closing tail => if fault = none then handOver s (.ok tail) (.done (writtenResult s.block.st)) else none
  | .aborting message result => if fault = none then handOver s (.error message) (.done result) else none
  | .done _ => none

def uploadReadStep (s : StreamState gz) : Option (StreamState gz) :=
  match s.upload.phase with
  | .reading =>
    match s.output.recv with
    | .blocked => none
    | .got (.ok chunk) output =>
      some { s with output := output, upload := { s.upload with bytes := s.upload.bytes ++ chunk } }
    | .got (.error _) output => some { s with output := output, upload := { s.upload with phase := .broken } }
    | .closed => some { s with upload := { s.upload with phase := .atEof } }
  | _ => none

/-- `put_stream` commits what it has read when it returns successfully, which it does only
after a clean end of its reader. It may fail at any time. -/
def uploadReturnStep (error : Option StoreError) (s : StreamState gz) : Option (StreamState gz) :=
  match error, s.upload.phase with
  | none, .atEof =>
    some { s with
      upload := { s.upload with committed := some s.upload.bytes, phase := .done (.ok ()) }
      output := s.output.dropReceiver }
  | none, _ | some _, .done _ => none
  | some e, _ =>
    some { s with upload := { s.upload with phase := .done (.error e) }, output := s.output.dropReceiver }

def streamStep (s : StreamState gz) : StreamAction → Option (StreamState gz)
  | .pump => pumpStep body s
  | .extract askInput => extractStep float askInput s
  | .panic => panicStep s
  | .block fault => blockStep float engine threshold fault s
  | .uploadRead => uploadReadStep s
  | .uploadReturn error => uploadReturnStep error s

/-- The result of `stream_run` once all four parties are through. -/
def joinedResult (panicked : Bool) (result : BlockResult) (upload : Except StoreError Unit) :
    Except CoreError (Outcome × ℕ × RecordTally) :=
  if panicked then .error (.internal .extractionPanicked)
  else
    match result, upload with
    | .error e, _ => .error e
    | .ok (.written none, _, _), .error e => .error (.store e)
    | .ok r, _ => .ok r

/-- What `stream_run` returns and publishes after its `tokio::join!`. -/
def joinedRun (s : StreamState gz) (result : BlockResult) (upload : Except StoreError Unit) : StreamRun :=
  let read := Metrics.addBytesIn s.bytesIn
  match joinedResult (s.extractor.phase = .panicked) result upload with
  | .error e => ⟨.error e, s.upload.committed, .empty, read⟩
  | .ok (.written none, bytesOut, tally) =>
    ⟨.ok (.written none), s.upload.committed, tally,
      read + Metrics.addBytesOut bytesOut + tally.commit engine⟩
  | .ok (outcome, _, tally) => ⟨.ok outcome, s.upload.committed, tally, read + tally.commit engine⟩

/-- The run, once all four parties are through. -/
def StreamState.joined (s : StreamState gz) : Option StreamRun :=
  match s.pump, s.block.phase, s.upload.phase with
  | .done, .done result, .done upload =>
    if s.extractor.phase.live then none else some (joinedRun engine s result upload)
  | _, _, _ => none

end Steps

end CloudTrailFilter.Process
