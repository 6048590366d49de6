import CloudTrailFilter.Process.Concurrent

/-!
# What the parties of stream mode keep

The invariant of the interleaved run, one part for each side of each channel: what the pump has
sent is the beginning of the body, what the extraction task has sent is the beginning of what
the whole body yields, the processing block has filtered what it received, and what it handed
over is what its encoder put out. A receiver moves without touching what its sender relies on,
so the parts are preserved one by one.
-/

namespace CloudTrailFilter.Process
open CloudTrailFilter.Json CloudTrailFilter.Filter CloudTrailFilter.Concurrency

section Invariants
variable {gz : Gzip} (float : FloatParser) (engine : Engine) (cfg : Processing) (threshold : ℕ)
  (body : Body)

/-- The message that follows the chunks of a body. -/
def endMessages : BodyEnd → List ByteMsg
  | .eof => []
  | .failed message => [.error message]

/-- Everything the pump has to send. -/
def script : List ByteMsg := body.chunks.map .ok ++ endMessages body.ending

/-- What the pump still has to send. -/
def Pump.remaining (ending : BodyEnd) : Pump → List ByteMsg
  | .reading rest => rest.map .ok ++ endMessages ending
  | .sending (.ok chunk) rest => .ok chunk :: (rest.map .ok ++ endMessages ending)
  | .sending (.error message) _ => [.error message]
  | .done => []

/-- The bytes the pump has not read. -/
def Pump.unread : Pump → Bytes
  | .reading rest | .sending _ rest => rest.flatten
  | .done => []

/-- The bytes the pump has read and not yet handed over. -/
def Pump.held : Pump → Bytes
  | .sending (.ok chunk) _ => chunk
  | _ => []

/-- The bytes of the chunks among some messages. -/
def carriedBytes (messages : List ByteMsg) : Bytes := (messages.filterMap Except.toOption).flatten

structure PumpOk (input : Channel ByteMsg inputChannelCapacity) (pump : Pump) (bytesIn : ℕ) : Prop where
  carried : input.log ++ pump.remaining body.ending = script body ∨
    (input.receiverGone = true ∧ input.log <+: script body)
  done : input.senderGone = true → pump = .done
  sent : (carriedBytes input.log).length + pump.held.length ≤ bytesIn
  read : bytesIn + pump.unread.length ≤ body.bytes.length

structure ExtractorIn (input : Channel ByteMsg inputChannelCapacity) (x : Extractor) : Prop where
  received : input.received = x.chunks.map .ok ++ (x.ending.elim [] endMessages)
  known : ∀ e, x.ending = some e → x.chunks = body.chunks ∧ e = body.ending
  soFar : x.ending = none → x.chunks <+: body.chunks
  asking : x.phase = .receiving → x.ending = none
  listening : x.phase.live = true → input.receiverGone = false

/-- The task has sent all records and `kind` is how it ended. -/
structure Settled (gz : Gzip) (x : Extractor) (kind : FinishKind) : Prop where
  all : x.sent = (x.yield gz float).records.length
  kind : kind = finishKind x.transportError (x.yield gz float).result (x.textEnd gz)
  fed : x.starving gz float = false

structure ExtractorOut (gz : Gzip) (raw : Channel StreamMsg recordChannelCapacity) (x : Extractor) :
    Prop where
  sent_le : x.sent ≤ (x.yield gz float).records.length
  carried : raw.log = ((x.yield gz float).records.take x.sent).map .record ∨
    (x.phase = .done ∧ ∃ kind, Settled float gz x kind ∧
      raw.log = (x.yield gz float).records.map .record ++ [.finished kind])
  sending : ∀ text, x.phase = .sending text → (x.yield gz float).records[x.sent]? = some text
  finishing : ∀ kind, x.phase = .finishing kind → raw.receiverGone = true ∨ Settled float gz x kind
  abandoned : x.consumerGone = true → raw.receiverGone = true
  finished : x.phase = .done → raw.receiverGone = true ∨ ∃ kind, .finished kind ∈ raw.log
  done : raw.senderGone = true → x.phase.live = false

/-- What the processing block can return after the messages it has received. -/
inductive Returns (received : List StreamMsg) (st : Filtering gz) : BlockResult → Prop where
  | written (records : List Bytes) : received = records.map .record ++ [.finished .recordsFound] →
      st = filtering gz float engine cfg.gzipLevel threshold records → 0 < st.tally.kept →
      Returns received st (writtenResult st)
  | nothingKept (records : List Bytes) : received = records.map .record ++ [.finished .recordsFound] →
      st = filtering gz float engine cfg.gzipLevel threshold records → st.tally.kept = 0 →
      Returns received st (.ok (.nothingKept, 0, st.tally))
  | unrecognized (records : List Bytes) : received = records.map .record ++ [.finished .unrecognized] →
      Returns received st (.ok (.unrecognized, 0, .empty))
  | failed (records : List Bytes) (failure : ParseFailure) :
      received = records.map .record ++ [.finished (.error failure)] →
      Returns received st (.error failure.toError)
  | compression : Returns received st (.error (.internal .compression))
  | vanished : Returns received st (.error (.internal .producerVanished))

def BlockIn (received : List StreamMsg) (block : Block gz) : Prop :=
  match block.phase with
  | .starting | .receiving | .flushing _ => ∃ records, received = records.map .record ∧
      block.st = filtering gz float engine cfg.gzipLevel threshold records
  | .closing _ => Returns float engine cfg threshold received block.st (writtenResult block.st)
  | .aborting _ result | .done result => Returns float engine cfg threshold received block.st result

def BlockOut (output : Channel ByteMsg outputChannelCapacity) (block : Block gz) : Prop :=
  output.receiverGone = true ∨
    match block.phase with
    | .starting | .receiving => output.log = block.st.drained.map .ok
    | .flushing chunk => ∃ drained, block.st.drained = drained ++ [chunk] ∧ output.log = drained.map .ok
    | .closing tail => tail = block.st.tail ∧ tail ≠ [] ∧ output.log = block.st.drained.map .ok
    | .aborting _ _ => True
    | .done result => (result = writtenResult block.st ∧ output.log = block.st.close.drained.map .ok) ∨
        ∃ message, .error message ∈ output.log

def BlockPhase.running : BlockPhase → Bool
  | .done _ => false
  | _ => true

def UploadIn (output : Channel ByteMsg outputChannelCapacity) (upload : Upload) : Prop :=
  match upload.phase with
  | .reading => ∃ chunks : List Bytes, output.received = chunks.map .ok ∧ upload.bytes = chunks.flatten
  | _ => True

/-- The upload has read the whole of a written object. -/
def Sealed (block : Block gz) (bytes : Bytes) : Prop :=
  block.phase = .done (writtenResult block.st) ∧ bytes = block.st.close.drained.flatten

/-- What holds in every reachable state. -/
structure StreamInv (s : StreamState gz) : Prop where
  pump : PumpOk body s.input s.pump s.bytesIn
  extractorIn : ExtractorIn body s.input s.extractor
  extractorOut : ExtractorOut float gz s.raw s.extractor
  blockIn : BlockIn float engine cfg threshold s.raw.received s.block
  blockOut : BlockOut s.output s.block
  blockRuns : s.block.phase.running = true → s.raw.receiverGone = false
  blockDone : s.output.senderGone = true → s.block.phase.running = false
  vanished : (∃ message, s.block.phase = .aborting message (.error (.internal .producerVanished))) ∨
    s.block.phase = .done (.error (.internal .producerVanished)) → s.extractor.phase = .panicked
  uploadIn : UploadIn s.output s.upload
  uploadReads : (∀ r, s.upload.phase ≠ .done r) → s.output.receiverGone = false
  atEof : s.upload.phase = .atEof → Sealed s.block s.upload.bytes
  committed : ∀ out, s.upload.committed = some out →
    s.upload.phase = .done (.ok ()) ∧ Sealed s.block out
  uploadOk : s.upload.phase = .done (.ok ()) → s.upload.committed.isSome

end Invariants

section Script
variable {body : Body}

/-- Chunks that begin a script begin the body. -/
lemma chunks_of_script {chunks all : List Bytes} {ending : BodyEnd} {messages : List ByteMsg}
    (h : chunks.map .ok ++ messages <+: all.map .ok ++ endMessages ending) :
    ∃ rest, all = chunks ++ rest ∧ messages <+: rest.map .ok ++ endMessages ending := by
  induction chunks generalizing all with
  | nil => exact ⟨all, rfl, h⟩
  | cons chunk chunks ih =>
    cases all with
    | nil => cases ending <;> simp [endMessages] at h
    | cons first all =>
      simp only [List.map_cons, List.cons_append, List.cons_prefix_cons, Except.ok.injEq] at h
      obtain ⟨rfl, h⟩ := h
      obtain ⟨rest, rfl, hrest⟩ := ih h
      exact ⟨rest, rfl, hrest⟩

lemma script_chunk {chunks : List Bytes} {chunk : Bytes}
    (h : chunks.map .ok ++ [.ok chunk] <+: script body) : chunks ++ [chunk] <+: body.chunks := by
  obtain ⟨rest, hall, hmsg⟩ := chunks_of_script h
  cases rest with
  | nil => cases hend : body.ending <;> simp [endMessages, hend] at hmsg
  | cons first rest =>
    simp only [List.map_cons, List.cons_append, List.cons_prefix_cons, Except.ok.injEq] at hmsg
    rw [hall, hmsg.1]
    simp

lemma script_error {chunks : List Bytes} {message : String}
    (h : chunks.map .ok ++ [.error message] <+: script body) :
    chunks = body.chunks ∧ .failed message = body.ending := by
  obtain ⟨rest, hall, hmsg⟩ := chunks_of_script h
  cases rest with
  | nil =>
    cases hend : body.ending with
    | eof => simp [endMessages, hend] at hmsg
    | failed m =>
      simp only [hend, endMessages, List.map_nil, List.nil_append, List.cons_prefix_cons,
        Except.error.injEq] at hmsg
      exact ⟨by simpa using hall.symm, by rw [hmsg.1]⟩
  | cons first rest => simp at hmsg

lemma script_all {chunks : List Bytes} (h : chunks.map .ok = script body) :
    chunks = body.chunks ∧ .eof = body.ending := by
  have hpre : chunks.map .ok ++ ([] : List ByteMsg) <+: script body := by rw [List.append_nil, h]
  obtain ⟨rest, hall, -⟩ := chunks_of_script hpre
  have hlen := congrArg List.length h
  simp only [script, hall, List.length_map, List.length_append] at hlen
  have hrest : rest = [] := List.length_eq_zero_iff.mp (by omega)
  cases hend : body.ending with
  | eof => exact ⟨by simp [hall, hrest], rfl⟩
  | failed m =>
    rw [hend] at hlen
    simp [endMessages] at hlen
    omega

@[simp] lemma carriedBytes_append (a b : List ByteMsg) :
    carriedBytes (a ++ b) = carriedBytes a ++ carriedBytes b := by simp [carriedBytes]

@[simp] lemma carriedBytes_ok (chunk : Bytes) : carriedBytes [.ok chunk] = chunk := by
  simp [carriedBytes, Except.toOption]

@[simp] lemma carriedBytes_error (message : String) : carriedBytes [.error message] = [] := by
  simp [carriedBytes, Except.toOption]

@[simp] lemma carriedBytes_chunks (chunks : List Bytes) :
    carriedBytes (chunks.map .ok) = chunks.flatten := by
  induction chunks with
  | nil => rfl
  | cons chunk chunks ih =>
    rw [List.map_cons, ← List.singleton_append, carriedBytes_append, carriedBytes_ok, ih, List.flatten_cons]

end Script

section Sides
variable {gz : Gzip} {float : FloatParser} {engine : Engine} {cfg : Processing} {threshold : ℕ}
  {body : Body}

/-- The receiver of a channel moves without touching what its sender relies on. -/
lemma PumpOk.took {input input' : Channel ByteMsg inputChannelCapacity} {pump : Pump} {bytesIn : ℕ}
    {msg : ByteMsg} (h : PumpOk body input pump bytesIn) (ht : input.Took msg input') :
    PumpOk body input' pump bytesIn :=
  ⟨by rw [ht.log, ht.receiverGone]; exact h.carried, by rw [ht.senderGone]; exact h.done,
    by rw [ht.log]; exact h.sent, h.read⟩

lemma PumpOk.dropReceiver {input : Channel ByteMsg inputChannelCapacity} {pump : Pump} {bytesIn : ℕ}
    (h : PumpOk body input pump bytesIn) : PumpOk body input.dropReceiver pump bytesIn :=
  ⟨h.carried.imp_right (fun hgone => ⟨rfl, hgone.2⟩), h.done, h.sent, h.read⟩

lemma PumpOk.log_prefix {input : Channel ByteMsg inputChannelCapacity} {pump : Pump} {bytesIn : ℕ}
    (h : PumpOk body input pump bytesIn) : input.log <+: script body := by
  rcases h.carried with hall | ⟨-, hpre⟩
  · exact ⟨_, hall⟩
  · exact hpre

lemma ExtractorIn.sender {input input' : Channel ByteMsg inputChannelCapacity} {x : Extractor}
    (h : ExtractorIn body input x) (hr : input'.received = input.received)
    (hg : input'.receiverGone = input.receiverGone) : ExtractorIn body input' x :=
  ⟨hr.trans h.received, h.known, h.soFar, h.asking, by rw [hg]; exact h.listening⟩

lemma ExtractorOut.took {raw raw' : Channel StreamMsg recordChannelCapacity} {x : Extractor}
    {msg : StreamMsg} (h : ExtractorOut float gz raw x) (ht : raw.Took msg raw') :
    ExtractorOut float gz raw' x := by
  obtain ⟨hle, hcarried, hsending, hfinishing, habandoned, hfinished, hdone⟩ := h
  exact ⟨hle, by rw [ht.log]; exact hcarried, hsending, by rw [ht.receiverGone]; exact hfinishing,
    by rw [ht.receiverGone]; exact habandoned, by rw [ht.log, ht.receiverGone]; exact hfinished,
    by rw [ht.senderGone]; exact hdone⟩

lemma ExtractorOut.dropReceiver {raw : Channel StreamMsg recordChannelCapacity} {x : Extractor}
    (h : ExtractorOut float gz raw x) : ExtractorOut float gz raw.dropReceiver x :=
  ⟨h.sent_le, h.carried, h.sending, fun _ _ => .inl rfl, fun _ => rfl, fun _ => .inl rfl, h.done⟩

end Sides

section Preservation
variable {gz : Gzip} {float : FloatParser} {engine : Engine} {cfg : Processing} {threshold : ℕ}
  {body : Body} {s s' : StreamState gz}

lemma StreamInv.setPump (h : StreamInv float engine cfg threshold body s)
    {input : Channel ByteMsg inputChannelCapacity} {pump : Pump} {bytesIn : ℕ}
    (hpump : PumpOk body input pump bytesIn) (hr : input.received = s.input.received)
    (hg : input.receiverGone = s.input.receiverGone) :
    StreamInv float engine cfg threshold body { s with input := input, pump := pump, bytesIn := bytesIn } :=
  { h with
    pump := hpump
    extractorIn := h.extractorIn.sender hr hg }

lemma pumpOk_done (h : PumpOk body s.input s.pump s.bytesIn)
    (hall : s.pump.remaining body.ending = [] ∨ s.input.receiverGone = true) :
    PumpOk body s.input.dropSender .done s.bytesIn := by
  refine ⟨?_, fun _ => rfl, ?_, ?_⟩
  · rcases hall with hnil | hgone
    · have hcarried := h.carried
      rw [hnil] at hcarried
      exact hcarried
    · exact .inr ⟨hgone, h.log_prefix⟩
  · have := h.sent
    simp only [Channel.dropSender_log, Pump.held, List.length_nil]
    omega
  · have := h.read
    simp only [Pump.unread, List.length_nil]
    omega

lemma pumpStep_inv (h : StreamInv float engine cfg threshold body s) (hs : pumpStep body s = some s') :
    StreamInv float engine cfg threshold body s' := by
  have hp := h.pump
  unfold pumpStep at hs
  split at hs
  · -- a chunk is read
    rename_i chunk rest hpump
    cases hs
    rw [hpump] at hp
    refine h.setPump ⟨hp.carried, ?_, ?_, ?_⟩ rfl rfl
    · intro hgone
      cases hp.done hgone
    · have := hp.sent
      simp only [Pump.held, List.length_nil] at this ⊢
      omega
    · have := hp.read
      simp only [Pump.unread, List.flatten_cons, List.length_append] at this ⊢
      omega
  · -- the end of the body
    rename_i hpump
    cases hend : body.ending with
    | eof =>
      simp only [hend] at hs
      cases hs
      exact h.setPump (pumpOk_done hp (.inl (by simp [hpump, Pump.remaining, endMessages, hend]))) rfl rfl
    | failed message =>
      simp only [hend] at hs
      cases hs
      rw [hpump] at hp
      refine h.setPump ⟨?_, ?_, hp.sent, hp.read⟩ rfl rfl
      · simpa [Pump.remaining, endMessages, hend] using hp.carried
      · intro hgone
        cases hp.done hgone
  · -- a message is handed over
    rename_i msg rest hpump
    cases hsend : s.input.send msg with
    | blocked => simp [hsend] at hs
    | refused =>
      simp only [hsend] at hs
      cases hs
      exact h.setPump (pumpOk_done hp (.inr (Channel.gone_of_refused hsend))) rfl rfl
    | sent input =>
      have hgrew := Channel.grew_of_send hsend
      have hsame : input.receiverGone = s.input.receiverGone := by
        rw [hgrew.receiverGone, hgrew.listening]
      have hcarried : input.log ++ (s.pump.remaining body.ending).tail = script body := by
        rcases hp.carried with hall | ⟨hgone, -⟩
        · rw [hgrew.log, ← hall, hpump]
          cases msg <;> simp [Pump.remaining]
        · simp [hgrew.listening] at hgone
      have hopen : input.senderGone ≠ true := by
        rw [hgrew.senderGone]
        intro hgone
        have := hp.done hgone
        simp [hpump] at this
      simp only [hsend] at hs
      rw [hpump] at hp hcarried
      cases msg with
      | ok chunk =>
        cases hs
        refine h.setPump ⟨.inl hcarried, fun hgone => (hopen hgone).elim, ?_, hp.read⟩ hgrew.received hsame
        have := hp.sent
        simp only [hgrew.log, carriedBytes_append, carriedBytes_ok, List.length_append, Pump.held,
          List.length_nil] at this ⊢
        omega
      | error message =>
        cases hs
        refine h.setPump ⟨.inl hcarried, fun _ => rfl, ?_, ?_⟩ hgrew.received hsame
        · have := hp.sent
          simp only [Channel.dropSender_log, hgrew.log, carriedBytes_append, carriedBytes_error,
            List.length_append, Pump.held, List.length_nil] at this ⊢
          omega
        · have := hp.read
          simp only [Pump.unread, List.length_nil] at this ⊢
          omega
  · cases hs

end Preservation

section Extractor
variable {gz : Gzip} {float : FloatParser} {engine : Engine} {cfg : Processing} {threshold : ℕ}
  {body : Body} {s s' : StreamState gz}

lemma StreamInv.setExtractor (h : StreamInv float engine cfg threshold body s)
    {input : Channel ByteMsg inputChannelCapacity} {raw : Channel StreamMsg recordChannelCapacity}
    {x : Extractor} (hpump : PumpOk body input s.pump s.bytesIn) (hin : ExtractorIn body input x)
    (hout : ExtractorOut float gz raw x) (hr : raw.received = s.raw.received)
    (hg : raw.receiverGone = s.raw.receiverGone) (hlive : s.extractor.phase ≠ .panicked) :
    StreamInv float engine cfg threshold body { s with input := input, raw := raw, extractor := x } :=
  { h with
    pump := hpump
    extractorIn := hin
    extractorOut := hout
    blockIn := by simpa [hr] using h.blockIn
    blockRuns := by simpa [hg] using h.blockRuns
    vanished := fun hv => (hlive (h.vanished hv)).elim }

variable {raw raw' : Channel StreamMsg recordChannelCapacity} {x : Extractor}

lemma ExtractorOut.carried_live (h : ExtractorOut float gz raw x) (hlive : x.phase.live = true) :
    raw.log = ((x.yield gz float).records.take x.sent).map .record := by
  rcases h.carried with hlog | ⟨hdone, -⟩
  · exact hlog
  · simp [hdone, ExtractPhase.live] at hlive

lemma ExtractorOut.open_live (h : ExtractorOut float gz raw x) (hlive : x.phase.live = true) :
    raw.senderGone = false := by
  by_contra hgone
  simp [h.done (by simpa using hgone)] at hlive

/-- The task turns to something else. -/
lemma ExtractorOut.turn (h : ExtractorOut float gz raw x) (hlive : x.phase.live = true)
    (phase : ExtractPhase) (hlive' : phase.live = true)
    (hsending : ∀ text, phase = .sending text → (x.yield gz float).records[x.sent]? = some text)
    (hfinishing : ∀ kind, phase = .finishing kind → raw.receiverGone = true ∨ Settled float gz x kind) :
    ExtractorOut float gz raw { x with phase := phase } := by
  refine ⟨h.sent_le, .inl (h.carried_live hlive), hsending, ?_, h.abandoned, ?_, ?_⟩
  · intro kind hkind
    exact (hfinishing kind hkind).imp_right (fun hs => ⟨hs.all, hs.kind, hs.fed⟩)
  · intro hdone
    cases hdone
    simp [ExtractPhase.live] at hlive'
  · intro hgone
    simp [h.open_live hlive] at hgone

lemma ExtractorIn.turn {input : Channel ByteMsg inputChannelCapacity} (h : ExtractorIn body input x)
    (hlive : x.phase.live = true) {phase : ExtractPhase} (hasking : phase = .receiving → x.ending = none) :
    ExtractorIn body input { x with phase := phase } :=
  ⟨h.received, h.known, h.soFar, hasking, fun _ => h.listening hlive⟩

/-- More of the input has arrived: what was sent stays sent. -/
lemma ExtractorOut.learn (hgz : gz.Lawful) (h : ExtractorOut float gz raw x)
    (hphase : x.phase = .receiving) (hend : x.ending = none) (more : List Bytes)
    (ending : Option BodyEnd) :
    ExtractorOut float gz raw
      { x with chunks := x.chunks ++ more, ending := ending, phase := .working } := by
  have hlive : x.phase.live = true := by rw [hphase]; rfl
  have hpre : (x.yield gz float).records <+: (extraction gz float (x.chunks ++ more) ending).records := by
    rw [Extractor.yield, hend]
    exact (extraction_extends hgz x.chunks more ending).2.1
  obtain ⟨rest, hrest⟩ := hpre
  have hyield : (Extractor.yield gz float
      { x with chunks := x.chunks ++ more, ending := ending, phase := .working }).records =
      (x.yield gz float).records ++ rest := hrest.symm
  refine ⟨?_, .inl ?_, by simp, by simp, h.abandoned, by simp, ?_⟩
  · rw [hyield, List.length_append]
    exact h.sent_le.trans (Nat.le_add_right _ _)
  · rw [hyield, List.take_append_of_le_length h.sent_le]
    exact h.carried_live hlive
  · intro hgone
    simp [h.open_live hlive] at hgone

/-- A record got through. -/
lemma ExtractorOut.sentRecord (h : ExtractorOut float gz raw x) {text : Bytes}
    (hphase : x.phase = .sending text) (hgrew : raw.Grew (.record text) raw') :
    ExtractorOut float gz raw' { x with sent := x.sent + 1, phase := .working } := by
  have hlive : x.phase.live = true := by rw [hphase]; rfl
  have hget := h.sending text hphase
  have hlt : x.sent < (x.yield gz float).records.length := (List.getElem?_eq_some_iff.mp hget).1
  refine ⟨hlt, .inl ?_, by simp, by simp, ?_, by simp, ?_⟩
  · have htake : (x.yield gz float).records.take (x.sent + 1) =
        (x.yield gz float).records.take x.sent ++ [text] := by
      rw [List.take_add_one, hget]
      rfl
    rw [hgrew.log, h.carried_live hlive]
    change _ = ((x.yield gz float).records.take (x.sent + 1)).map StreamMsg.record
    rw [htake, List.map_append]
    rfl
  · intro hgone
    have := h.abandoned hgone
    simp [hgrew.listening] at this
  · intro hgone
    rw [hgrew.senderGone] at hgone
    simp [h.open_live hlive] at hgone

/-- The last message got through. -/
lemma ExtractorOut.sentFinished (h : ExtractorOut float gz raw x) {kind : FinishKind}
    (hphase : x.phase = .finishing kind) (hgrew : raw.Grew (.finished kind) raw') :
    ExtractorOut float gz raw'.dropSender { x with phase := .done } := by
  have hlive : x.phase.live = true := by rw [hphase]; rfl
  have hsettled : Settled float gz x kind := by
    rcases h.finishing kind hphase with hgone | hsettled
    · simp [hgrew.listening] at hgone
    · exact hsettled
  have hlog : raw'.log = (x.yield gz float).records.map .record ++ [.finished kind] := by
    rw [hgrew.log, h.carried_live hlive, hsettled.all, List.take_length]
  refine ⟨h.sent_le, .inr ⟨rfl, kind, ⟨hsettled.all, hsettled.kind, hsettled.fed⟩, hlog⟩, by simp,
    by simp, ?_, fun _ => .inr ⟨kind, by simp [hlog]⟩, fun _ => rfl⟩
  intro hgone
  have := h.abandoned hgone
  simp [hgrew.listening] at this

/-- The task ends without a last message: nobody listens, or it panicked. -/
lemma ExtractorOut.ends (h : ExtractorOut float gz raw x) (hlive : x.phase.live = true)
    {phase : ExtractPhase} (hphase : phase = .done ∧ raw.receiverGone = true ∨ phase = .panicked) :
    ExtractorOut float gz raw.dropSender { x with phase := phase } := by
  refine ⟨h.sent_le, .inl (h.carried_live hlive), ?_, ?_, h.abandoned, ?_, ?_⟩
  · rintro text rfl
    simp at hphase
  · rintro kind rfl
    simp at hphase
  · rintro rfl
    exact .inl (by simpa using hphase)
  · rintro -
    rcases hphase with ⟨rfl, -⟩ | rfl <;> rfl

end Extractor

section ExtractorSteps
variable {gz : Gzip} {float : FloatParser} {engine : Engine} {cfg : Processing} {threshold : ℕ}
  {body : Body} {s s' : StreamState gz}

lemma ExtractPhase.ne_panicked {phase : ExtractPhase} (h : phase.live = true) : phase ≠ .panicked := by
  rintro rfl
  simp [ExtractPhase.live] at h

/-- A step that only turns the task to something else. -/
lemma StreamInv.turn (h : StreamInv float engine cfg threshold body s)
    (hlive : s.extractor.phase.live = true) (phase : ExtractPhase) (hlive' : phase.live = true)
    (hasking : phase = .receiving → s.extractor.ending = none)
    (hsending : ∀ text, phase = .sending text →
      (s.extractor.yield gz float).records[s.extractor.sent]? = some text)
    (hfinishing : ∀ kind, phase = .finishing kind →
      s.raw.receiverGone = true ∨ Settled float gz s.extractor kind) :
    StreamInv float engine cfg threshold body
      { s with extractor := { s.extractor with phase := phase } } :=
  h.setExtractor h.pump (h.extractorIn.turn hlive hasking)
    (h.extractorOut.turn hlive phase hlive' hsending hfinishing) rfl rfl (ExtractPhase.ne_panicked hlive)

lemma workingStep_inv (h : StreamInv float engine cfg threshold body s)
    (hphase : s.extractor.phase = .working) {askInput : Bool}
    (hs : extractStep float askInput s = some s') : StreamInv float engine cfg threshold body s' := by
  have hlive : s.extractor.phase.live = true := by rw [hphase]; rfl
  simp only [extractStep, hphase] at hs
  by_cases hask : askInput = true
  · simp only [hask, if_true] at hs
    split_ifs at hs with hend
    cases hs
    exact h.turn hlive .receiving rfl (fun _ => hend) (by simp) (by simp)
  · simp only [hask, Bool.false_eq_true, if_false] at hs
    by_cases hgone : s.extractor.consumerGone = true
    · rw [if_pos hgone] at hs
      cases hs
      exact h.turn hlive (.finishing _) rfl (by simp) (by simp) (fun _ _ => .inl (h.extractorOut.abandoned hgone))
    · rw [if_neg hgone] at hs
      cases hget : (s.extractor.yield gz float).records[s.extractor.sent]? with
      | some text =>
        simp only [hget] at hs
        cases hs
        refine h.turn hlive (.sending text) rfl (by simp) ?_ (by simp)
        intro other hother
        cases hother
        exact hget
      | none =>
        simp only [hget] at hs
        by_cases hstarve : s.extractor.starving gz float = true
        · simp [hstarve] at hs
        · simp only [hstarve, Bool.false_eq_true, if_false] at hs
          cases hs
          refine h.turn hlive (.finishing _) rfl (by simp) (by simp) ?_
          intro kind hkind
          cases hkind
          have hall : s.extractor.sent = (s.extractor.yield gz float).records.length :=
            le_antisymm h.extractorOut.sent_le (List.getElem?_eq_none_iff.mp hget)
          exact .inr ⟨hall, rfl, by simpa using hstarve⟩

lemma receivingStep_inv (hgz : gz.Lawful) (h : StreamInv float engine cfg threshold body s)
    (hphase : s.extractor.phase = .receiving) {askInput : Bool}
    (hs : extractStep float askInput s = some s') : StreamInv float engine cfg threshold body s' := by
  have hlive : s.extractor.phase.live = true := by rw [hphase]; rfl
  have hin := h.extractorIn
  have hend := hin.asking hphase
  have hlisten := hin.listening hlive
  have hreceived : s.input.received = s.extractor.chunks.map .ok := by
    rw [hin.received, hend]
    simp
  have hlearn := fun more ending => h.extractorOut.learn hgz hphase hend more ending
  simp only [extractStep, hphase] at hs
  cases hrecv : s.input.recv with
  | blocked => simp [hrecv] at hs
  | closed =>
    simp only [hrecv] at hs
    cases hs
    obtain ⟨hgone, hall⟩ := Channel.drained_of_closed hrecv
    have hlog : s.extractor.chunks.map .ok = script body := by
      rw [← hreceived, hall]
      rcases h.pump.carried with hcarried | ⟨habsent, -⟩
      · rw [h.pump.done hgone] at hcarried
        simpa [Pump.remaining] using hcarried
      · simp [hlisten] at habsent
    obtain ⟨hchunks, hbody⟩ := script_all hlog
    refine h.setExtractor h.pump ⟨by simp [hreceived, endMessages], ?_, by simp, by simp, fun _ => hlisten⟩
      (by simpa using hlearn [] (some .eof)) rfl rfl (ExtractPhase.ne_panicked hlive)
    intro e he
    cases he
    exact ⟨hchunks, hbody⟩
  | got msg input =>
    have htook := Channel.took_of_recv hrecv
    have hpre : s.extractor.chunks.map .ok ++ [msg] <+: script body := by
      rw [← hreceived]
      exact htook.prefix_log.trans h.pump.log_prefix
    have hlisten' : input.receiverGone = false := htook.receiverGone.trans hlisten
    cases msg with
    | ok chunk =>
      simp only [hrecv] at hs
      cases hs
      refine h.setExtractor (h.pump.took htook) ⟨?_, by simp [hend], fun _ => script_chunk hpre, by simp,
        fun _ => hlisten'⟩ (by simpa [hend] using hlearn [chunk] none) rfl rfl
        (ExtractPhase.ne_panicked hlive)
      simp [htook.received, hreceived, hend]
    | error message =>
      simp only [hrecv] at hs
      cases hs
      refine h.setExtractor (h.pump.took htook) ⟨?_, ?_, by simp, by simp, fun _ => hlisten'⟩
        (by simpa using hlearn [] (some (.failed message))) rfl rfl (ExtractPhase.ne_panicked hlive)
      · simp [htook.received, hreceived, endMessages]
      · intro e he
        cases he
        exact script_error hpre

lemma sendingStep_inv (h : StreamInv float engine cfg threshold body s) {text : Bytes}
    (hphase : s.extractor.phase = .sending text) {askInput : Bool}
    (hs : extractStep float askInput s = some s') : StreamInv float engine cfg threshold body s' := by
  have hlive : s.extractor.phase.live = true := by rw [hphase]; rfl
  have hin := h.extractorIn
  simp only [extractStep, hphase] at hs
  cases hsend : s.raw.send (.record text) with
  | blocked => simp [hsend] at hs
  | refused =>
    simp only [hsend] at hs
    cases hs
    have hout := h.extractorOut.turn hlive .working rfl (by simp) (by simp)
    exact h.setExtractor h.pump ⟨hin.received, hin.known, hin.soFar, by simp, fun _ => hin.listening hlive⟩
      ⟨hout.sent_le, .inl (h.extractorOut.carried_live hlive), by simp, by simp,
        fun _ => Channel.gone_of_refused hsend, by simp, hout.done⟩ rfl rfl
      (ExtractPhase.ne_panicked hlive)
  | sent raw =>
    simp only [hsend] at hs
    cases hs
    have hgrew := Channel.grew_of_send hsend
    exact h.setExtractor h.pump ⟨hin.received, hin.known, hin.soFar, by simp, fun _ => hin.listening hlive⟩
      (h.extractorOut.sentRecord hphase hgrew) hgrew.received
      (hgrew.receiverGone.trans hgrew.listening.symm) (ExtractPhase.ne_panicked hlive)

/-- The input side of the task once it is gone. -/
lemma ExtractorIn.gone {input : Channel ByteMsg inputChannelCapacity} {x : Extractor}
    (h : ExtractorIn body input x) {phase : ExtractPhase} (hphase : phase.live = false) :
    ExtractorIn body input.dropReceiver { x with phase := phase } := by
  refine ⟨h.received, h.known, h.soFar, ?_, ?_⟩
  · rintro rfl
    simp [ExtractPhase.live] at hphase
  · intro hlive
    simp [hphase] at hlive

lemma finishingStep_inv (h : StreamInv float engine cfg threshold body s) {kind : FinishKind}
    (hphase : s.extractor.phase = .finishing kind) {askInput : Bool}
    (hs : extractStep float askInput s = some s') : StreamInv float engine cfg threshold body s' := by
  have hlive : s.extractor.phase.live = true := by rw [hphase]; rfl
  simp only [extractStep, hphase] at hs
  cases hsend : s.raw.send (.finished kind) with
  | blocked => simp [hsend] at hs
  | refused =>
    simp only [hsend] at hs
    cases hs
    exact h.setExtractor h.pump.dropReceiver (h.extractorIn.gone rfl)
      (h.extractorOut.ends hlive (.inl ⟨rfl, Channel.gone_of_refused hsend⟩)) rfl rfl
      (ExtractPhase.ne_panicked hlive)
  | sent raw =>
    simp only [hsend] at hs
    cases hs
    have hgrew := Channel.grew_of_send hsend
    exact h.setExtractor h.pump.dropReceiver (h.extractorIn.gone rfl)
      (h.extractorOut.sentFinished hphase hgrew) hgrew.received
      (hgrew.receiverGone.trans hgrew.listening.symm) (ExtractPhase.ne_panicked hlive)

lemma extractStep_inv (hgz : gz.Lawful) (h : StreamInv float engine cfg threshold body s)
    {askInput : Bool} (hs : extractStep float askInput s = some s') :
    StreamInv float engine cfg threshold body s' := by
  cases hphase : s.extractor.phase with
  | working => exact workingStep_inv h hphase hs
  | receiving => exact receivingStep_inv hgz h hphase hs
  | sending text => exact sendingStep_inv h hphase hs
  | finishing kind => exact finishingStep_inv h hphase hs
  | done => simp [extractStep, hphase] at hs
  | panicked => simp [extractStep, hphase] at hs

lemma panicStep_inv (h : StreamInv float engine cfg threshold body s) (hs : panicStep s = some s') :
    StreamInv float engine cfg threshold body s' := by
  have hlive : s.extractor.phase.live = true := by
    cases hphase : s.extractor.phase <;> simp [panicStep, hphase] at hs <;> rfl
  have hs' : s' = extractorGone .panicked s := by
    unfold panicStep at hs
    split at hs
    · cases hs
    · cases hs
    · exact (Option.some.inj hs).symm
  rw [hs']
  exact h.setExtractor h.pump.dropReceiver (h.extractorIn.gone rfl)
    (h.extractorOut.ends hlive (.inr rfl)) rfl rfl (ExtractPhase.ne_panicked hlive)

end ExtractorSteps

end CloudTrailFilter.Process
