import CloudTrailFilter.Process.Commit

/-!
# What is in flight in stream mode

What is on its way between the parties of `stream_run` at a time: the messages in the three channels,
the message each of them is about to send, the one each has received last and the sink of the
encoder. However large the object is and however the parties take turns, this is bounded by the
largest chunk the source delivers, the largest record and what the encoder puts out at a time. What a
party keeps for itself is not counted: the deserializer its buffers of the record, key or string it
is still reading, the codecs their windows, and `put_stream` the part it collects. The sample run
takes a codec that puts out as it goes.
-/

namespace CloudTrailFilter.Process
open CloudTrailFilter.Json CloudTrailFilter.Filter CloudTrailFilter.Concurrency

section Held
variable {gz : Gzip}

/-- The bytes a message carries. -/
def messageSize : ByteMsg → ℕ
  | .ok chunk => chunk.length
  | .error _ => 0

def StreamMsg.size : StreamMsg → ℕ
  | .record text => text.length
  | .finished _ => 0

/-- The record the extraction task waits to send. What the deserializer has read of the next one is not
on its way yet. -/
def Extractor.held (x : Extractor) : ℕ :=
  match x.phase with
  | .sending text => text.length
  | _ => 0

/-- The chunk the processing block waits to hand over, or else what is in the sink. -/
def Block.held (block : Block gz) : ℕ :=
  match block.phase with
  | .flushing chunk => chunk.length
  | .closing tail => tail.length
  | .done _ => 0
  | _ => block.st.sink.length

/-- The bytes of the object on their way between the parties: sent, about to be sent, or in the sink. -/
def StreamState.inFlight (s : StreamState gz) : ℕ :=
  (s.pump.held.length + s.input.held messageSize) + (s.extractor.held + s.raw.held StreamMsg.size) +
    (s.block.held + s.output.held messageSize)

/-- The chunks in the hands of the pump. -/
def Pump.chunks : Pump → List Bytes
  | .reading rest => rest
  | .sending (.ok chunk) rest => chunk :: rest
  | .sending (.error _) _ | .done => []

end Held

section Sides
variable {gz : Gzip} {float : FloatParser} {body : Body} {chunk record : ℕ}

/-- What the pump sends is of the body, or the error at its end. -/
lemma below_of_sent {messages : List ByteMsg} (hchunk : ∀ c ∈ body.chunks, c.length ≤ chunk)
    (h : messages <+: script body) : ∀ msg ∈ messages, messageSize msg ≤ chunk := by
  intro msg hmsg
  have hmem : msg ∈ script body := h.subset hmsg
  rw [script, List.mem_append, List.mem_map] at hmem
  rcases hmem with ⟨c, hc, rfl⟩ | hend
  · exact hchunk c hc
  · cases hending : body.ending with
    | eof => simp [hending, endMessages] at hend
    | failed message =>
      simp only [hending, endMessages, List.mem_singleton] at hend
      subst hend
      exact Nat.zero_le _

/-- What the extraction task has found so far is of what the whole body yields. -/
lemma ExtractorIn.yield_prefix (hgz : gz.Lawful) {input : Channel ByteMsg inputChannelCapacity} {x : Extractor}
    (h : ExtractorIn body input x) :
    (x.yield gz float).records <+: (extraction gz float body.chunks (some body.ending)).records := by
  unfold Extractor.yield
  cases hend : x.ending with
  | none =>
    obtain ⟨more, hmore⟩ := h.soFar hend
    rw [← hmore]
    exact (extraction_extends hgz x.chunks more (some body.ending)).2.1
  | some e =>
    obtain ⟨hchunks, rfl⟩ := h.known e hend
    rw [hchunks]

lemma ExtractorOut.below {raw : Channel StreamMsg recordChannelCapacity} {x : Extractor} (h : ExtractorOut float gz raw x)
    (hrecord : ∀ text ∈ (x.yield gz float).records, text.length ≤ record) :
    raw.Below StreamMsg.size record ∧ x.held ≤ record := by
  have hmap : ∀ texts : List Bytes, (∀ text ∈ texts, text ∈ (x.yield gz float).records) →
      ∀ msg ∈ texts.map StreamMsg.record, msg.size ≤ record := by
    intro texts htexts msg hmsg
    obtain ⟨text, htext, rfl⟩ := List.mem_map.mp hmsg
    exact hrecord text (htexts text htext)
  constructor
  · intro msg hmsg
    rcases h.carried with hlog | ⟨-, kind, -, hlog⟩
    · rw [hlog] at hmsg
      exact hmap _ (fun text ht => List.mem_of_mem_take ht) msg hmsg
    · rw [hlog, List.mem_append, List.mem_singleton] at hmsg
      rcases hmsg with hmsg | rfl
      · exact hmap _ (fun _ ht => ht) msg hmsg
      · exact Nat.zero_le _
  · unfold Extractor.held
    cases hphase : x.phase with
    | sending text => exact hrecord text (List.mem_of_getElem? (h.sending text hphase))
    | _ => exact Nat.zero_le _

end Sides

section Sink
variable {gz : Gzip} {float : FloatParser} {engine : Engine} {threshold record put tail : ℕ} {st : Filtering gz}

/-- What the encoder puts out when it is given a piece the processing block may write. -/
def PutsOut (gz : Gzip) (record put : ℕ) : Prop :=
  ∀ (encoder : gz.Encoder) (bytes : Bytes), bytes.length ≤ max record openEnvelope.length →
    (gz.write encoder bytes).2.length ≤ put

lemma write_sink_le (st : Filtering gz) (hput : PutsOut gz record put) {bytes : Bytes}
    (h : bytes.length ≤ max record openEnvelope.length) :
    (st.write bytes).sink.length ≤ st.sink.length + put := by
  simp only [Filtering.write, List.length_append]
  exact Nat.add_le_add_left (hput st.encoder bytes h) _

lemma keepRecord_sink_le (hput : PutsOut gz record put) {text : Bytes} (h : text.length ≤ record) :
    (st.keepRecord text).sink.length ≤ st.sink.length + 2 * put := by
  have htext : text.length ≤ max record openEnvelope.length := le_max_of_le_left h
  unfold Filtering.keepRecord
  cases hfirst : st.first with
  | true =>
    have := write_sink_le st hput htext
    simp only [if_true]
    omega
  | false =>
    have hcomma : [comma].length ≤ max record openEnvelope.length := le_max_of_le_right (by decide +kernel)
    have h₁ := write_sink_le st hput hcomma
    have h₂ := write_sink_le (st.write [comma]) hput htext
    simp only [Bool.false_eq_true, if_false]
    omega

lemma filterRecord_sink_le (float : FloatParser) (engine : Engine) (st : Filtering gz) (hput : PutsOut gz record put)
    {text : Bytes} (h : text.length ≤ record) :
    (st.filterRecord float engine text).sink.length ≤ st.sink.length + 2 * put := by
  unfold Filtering.filterRecord
  cases engine.evaluateRaw float text with
  | none => exact keepRecord_sink_le hput h
  | some d =>
    cases d with
    | keep => exact keepRecord_sink_le hput h
    | drop ruleIdx => exact Nat.le_add_right _ _

lemma drain_sink_le : (st.drain threshold).sink.length ≤ threshold := by
  unfold Filtering.drain
  split_ifs with h
  · exact Nat.zero_le _
  · omega

/-- The sink is drained at the threshold; only the opening of the envelope is written without a look at it. -/
def sinkLimit (threshold put : ℕ) : ℕ := max threshold put

/-- The most the processing block hands over at a time. -/
def chunkLimit (threshold put tail : ℕ) : ℕ := sinkLimit threshold put + 2 * put + tail

structure Block.Fits (threshold put tail : ℕ) (block : Block gz) : Prop where
  sink : block.st.sink.length ≤ sinkLimit threshold put
  flushing : ∀ chunk, block.phase = .flushing chunk → chunk.length ≤ chunkLimit threshold put tail
  closing : ∀ bytes, block.phase = .closing bytes → bytes.length ≤ chunkLimit threshold put tail

/-- A block that has nothing to hand over. -/
lemma Block.Fits.turn {block : Block gz} (hsink : block.st.sink.length ≤ sinkLimit threshold put)
    (hflushing : ∀ chunk, block.phase ≠ .flushing chunk) (hclosing : ∀ bytes, block.phase ≠ .closing bytes) :
    block.Fits threshold put tail :=
  ⟨hsink, fun chunk h => (hflushing chunk h).elim, fun bytes h => (hclosing bytes h).elim⟩

lemma Block.Fits.held_le {block : Block gz} (h : block.Fits threshold put tail) :
    block.held ≤ chunkLimit threshold put tail := by
  have hsink : block.st.sink.length ≤ chunkLimit threshold put tail := by
    have := h.sink
    unfold chunkLimit
    omega
  unfold Block.held
  cases hphase : block.phase with
  | flushing chunk => exact h.flushing chunk hphase
  | closing bytes => exact h.closing bytes hphase
  | done result => exact Nat.zero_le _
  | starting | receiving | aborting message result => exact hsink

lemma recordStep_fits (hput : PutsOut gz record put) {fault : Option EncoderCall} {text : Bytes} {block : Block gz}
    (hsink : st.sink.length ≤ sinkLimit threshold put) (htext : text.length ≤ record)
    (h : recordStep float engine threshold fault st text = some block) : block.Fits threshold put tail := by
  have hnext := filterRecord_sink_le float engine st hput htext
  unfold recordStep at h
  cases fault with
  | none =>
    simp only [Option.some.injEq] at h
    subst h
    refine ⟨drain_sink_le.trans (le_max_left _ _), ?_, ?_⟩
    · intro chunk hphase
      simp only at hphase
      split_ifs at hphase with hflush
      cases hphase
      unfold chunkLimit
      omega
    · intro bytes hphase
      simp only at hphase
      split_ifs at hphase
  | some call =>
    cases call with
    | write =>
      simp only at h
      split_ifs at h
      cases h
      exact .turn hsink (by simp [BlockPhase.writeFailed]) (by simp [BlockPhase.writeFailed])
    | finish => cases h

lemma finishStep_fits (hput : PutsOut gz record put) (htail : ∀ encoder, (gz.finish encoder).length ≤ tail)
    {fault : Option EncoderCall} {kind : FinishKind} {block : Block gz}
    (hsink : st.sink.length ≤ sinkLimit threshold put) (h : finishStep fault st kind = some block) :
    block.Fits threshold put tail := by
  have hclose : closeEnvelope.length ≤ max record openEnvelope.length := le_max_of_le_right (by decide +kernel)
  have hwrite := write_sink_le st hput hclose
  have htails := htail (st.write closeEnvelope).encoder
  cases kind with
  | recordsFound =>
    by_cases hkept : 0 < st.tally.kept
    · simp only [finishStep, if_pos hkept] at h
      cases fault with
      | none =>
        cases h
        by_cases hnil : st.tail = []
        · simp only [if_pos hnil]
          exact .turn hsink (by simp) (by simp)
        · simp only [if_neg hnil]
          refine ⟨hsink, by simp, ?_⟩
          intro bytes hphase
          cases hphase
          simp only [Filtering.tail, List.length_append]
          unfold chunkLimit
          omega
      | some call =>
        cases call with
        | write =>
          cases h
          exact .turn hsink (by simp [BlockPhase.writeFailed]) (by simp [BlockPhase.writeFailed])
        | finish =>
          cases h
          exact .turn hsink (by simp [BlockPhase.finishFailed]) (by simp [BlockPhase.finishFailed])
    · simp only [finishStep, if_neg hkept] at h
      split_ifs at h
      cases h
      exact .turn hsink (by simp) (by simp)
  | unrecognized =>
    simp only [finishStep] at h
    split_ifs at h
    cases h
    exact .turn hsink (by simp) (by simp)
  | error failure =>
    simp only [finishStep] at h
    split_ifs at h
    cases h
    exact .turn hsink (by simp) (by simp)

end Sink

section Steps
variable {gz : Gzip} {float : FloatParser} {engine : Engine} {cfg : Processing} {threshold chunk record put tail : ℕ}
  {body : Body} {s s' : StreamState gz}

/-- What the parties that are not told by `StreamInv` hold. -/
structure Sized (threshold chunk put tail : ℕ) (s : StreamState gz) : Prop where
  pump : ∀ c ∈ s.pump.chunks, c.length ≤ chunk
  block : s.block.Fits threshold put tail
  output : s.output.Below messageSize (chunkLimit threshold put tail)

lemma Sized.setBlock (h : Sized threshold chunk put tail s) {block : Block gz} (hblock : block.Fits threshold put tail) :
    Sized threshold chunk put tail (setBlock s block) := by
  unfold Process.setBlock
  split
  · exact ⟨h.pump, hblock, h.output⟩
  · exact ⟨h.pump, hblock, h.output⟩

lemma pumpStep_sized (h : Sized threshold chunk put tail s) (hs : pumpStep body s = some s') :
    Sized threshold chunk put tail s' := by
  have hpump := h.pump
  unfold pumpStep at hs
  split at hs
  · rename_i c rest heq
    cases hs
    rw [heq] at hpump
    exact ⟨hpump, h.block, h.output⟩
  · cases hend : body.ending with
    | eof =>
      simp only [hend] at hs
      cases hs
      exact ⟨by simp [pumpDone, Pump.chunks], h.block, h.output⟩
    | failed message =>
      simp only [hend] at hs
      cases hs
      exact ⟨by simp [Pump.chunks], h.block, h.output⟩
  · rename_i msg rest heq
    rw [heq] at hpump
    cases hsend : s.input.send msg with
    | blocked => simp [hsend] at hs
    | refused =>
      simp only [hsend] at hs
      cases hs
      exact ⟨by simp [pumpDone, Pump.chunks], h.block, h.output⟩
    | sent input =>
      simp only [hsend] at hs
      cases msg with
      | ok c =>
        cases hs
        exact ⟨fun c' hc' => hpump c' (List.mem_cons_of_mem _ hc'), h.block, h.output⟩
      | error message =>
        cases hs
        exact ⟨by simp [pumpDone, Pump.chunks], h.block, h.output⟩
  · cases hs

lemma extractStep_sized (h : Sized threshold chunk put tail s) {askInput : Bool}
    (hs : extractStep float askInput s = some s') : Sized threshold chunk put tail s' := by
  have hsame : s'.pump = s.pump ∧ s'.block = s.block ∧ s'.output = s.output := by
    unfold extractStep at hs
    simp only at hs
    repeat' split at hs
    all_goals first
      | cases hs; exact ⟨rfl, rfl, rfl⟩
      | cases hs
  obtain ⟨hpump, hblock, houtput⟩ := hsame
  exact ⟨by rw [hpump]; exact h.pump, by rw [hblock]; exact h.block, by rw [houtput]; exact h.output⟩

lemma panicStep_sized (h : Sized threshold chunk put tail s) (hs : panicStep s = some s') :
    Sized threshold chunk put tail s' := by
  unfold panicStep at hs
  split at hs
  · cases hs
  · cases hs
  · cases hs
    exact ⟨h.pump, h.block, h.output⟩

lemma handOver_sized (h : Sized threshold chunk put tail s) {msg : ByteMsg} {next : BlockPhase}
    (hmsg : messageSize msg ≤ chunkLimit threshold put tail) (hflushing : ∀ c, next ≠ .flushing c)
    (hclosing : ∀ bytes, next ≠ .closing bytes) (hs : handOver s msg next = some s') :
    Sized threshold chunk put tail s' := by
  have hblock : Block.Fits threshold put tail { s.block with phase := next } := .turn h.block.sink hflushing hclosing
  unfold handOver at hs
  cases hsend : s.output.send msg with
  | blocked => simp [hsend] at hs
  | refused =>
    simp only [hsend, Option.some.injEq] at hs
    subst hs
    exact h.setBlock hblock
  | sent output =>
    simp only [hsend, Option.some.injEq] at hs
    subst hs
    have houtput : Sized threshold chunk put tail { s with output := output } :=
      ⟨h.pump, h.block, h.output.grew (Channel.grew_of_send hsend) hmsg⟩
    exact houtput.setBlock hblock

lemma blockStep_sized (hput : PutsOut gz record put) (htail : ∀ encoder, (gz.finish encoder).length ≤ tail)
    (h : Sized threshold chunk put tail s) (hraw : s.raw.Below StreamMsg.size record) {fault : Option EncoderCall}
    (hs : blockStep float engine threshold fault s = some s') : Sized threshold chunk put tail s' := by
  have hsink := h.block.sink
  cases hphase : s.block.phase with
  | starting =>
    simp only [blockStep, hphase] at hs
    split at hs
    · cases hs
      exact h.setBlock (.turn hsink (by simp) (by simp))
    · cases hs
      exact h.setBlock (.turn hsink (by simp [BlockPhase.writeFailed]) (by simp [BlockPhase.writeFailed]))
    · cases hs
  | receiving =>
    simp only [blockStep, hphase] at hs
    cases hrecv : s.raw.recv with
    | blocked => simp [hrecv] at hs
    | closed =>
      simp only [hrecv] at hs
      split_ifs at hs
      cases hs
      exact h.setBlock (.turn hsink (by simp) (by simp))
    | got msg raw =>
      have hmsg : msg.size ≤ record := hraw msg ((Channel.took_of_recv hrecv).prefix_log.subset (by simp))
      have hs₁ : Sized threshold chunk put tail { s with raw := raw } := ⟨h.pump, h.block, h.output⟩
      cases msg with
      | record text =>
        simp only [hrecv] at hs
        obtain ⟨block, hblock, rfl⟩ := Option.map_eq_some_iff.mp hs
        exact hs₁.setBlock (recordStep_fits hput hsink hmsg hblock)
      | finished kind =>
        simp only [hrecv] at hs
        obtain ⟨block, hblock, rfl⟩ := Option.map_eq_some_iff.mp hs
        exact hs₁.setBlock (finishStep_fits hput htail hsink hblock)
  | flushing c =>
    simp only [blockStep, hphase] at hs
    split_ifs at hs
    have hmsg : messageSize (.ok c) ≤ chunkLimit threshold put tail := h.block.flushing c hphase
    exact handOver_sized h hmsg (by simp) (by simp) hs
  | closing bytes =>
    simp only [blockStep, hphase] at hs
    split_ifs at hs
    have hmsg : messageSize (.ok bytes) ≤ chunkLimit threshold put tail := h.block.closing bytes hphase
    exact handOver_sized h hmsg (by simp) (by simp) hs
  | aborting message result =>
    simp only [blockStep, hphase] at hs
    split_ifs at hs
    exact handOver_sized h (Nat.zero_le _) (by simp) (by simp) hs
  | done result => simp [blockStep, hphase] at hs

lemma uploadReadStep_sized (h : Sized threshold chunk put tail s) (hs : uploadReadStep s = some s') :
    Sized threshold chunk put tail s' := by
  unfold uploadReadStep at hs
  split at hs
  · cases hrecv : s.output.recv with
    | blocked => simp [hrecv] at hs
    | closed =>
      simp only [hrecv] at hs
      cases hs
      exact ⟨h.pump, h.block, h.output⟩
    | got msg output =>
      have houtput := h.output.took (Channel.took_of_recv hrecv)
      simp only [hrecv] at hs
      cases msg with
      | ok c =>
        cases hs
        exact ⟨h.pump, h.block, houtput⟩
      | error message =>
        cases hs
        exact ⟨h.pump, h.block, houtput⟩
  · cases hs

lemma uploadReturnStep_sized (h : Sized threshold chunk put tail s) {error : Option StoreError}
    (hs : uploadReturnStep error s = some s') : Sized threshold chunk put tail s' := by
  unfold uploadReturnStep at hs
  split at hs
  · cases hs
    exact ⟨h.pump, h.block, h.output⟩
  · cases hs
  · cases hs
  · cases hs
    exact ⟨h.pump, h.block, h.output⟩

lemma streamStep_sized (hput : PutsOut gz record put) (htail : ∀ encoder, (gz.finish encoder).length ≤ tail)
    (h : Sized threshold chunk put tail s) (hraw : s.raw.Below StreamMsg.size record) (action : StreamAction)
    (hs : streamStep float engine threshold body s action = some s') : Sized threshold chunk put tail s' := by
  cases action with
  | pump => exact pumpStep_sized h hs
  | extract askInput => exact extractStep_sized h hs
  | panic => exact panicStep_sized h hs
  | block fault => exact blockStep_sized hput htail h hraw hs
  | uploadRead => exact uploadReadStep_sized h hs
  | uploadReturn error => exact uploadReturnStep_sized h hs

lemma start_sized (hput : PutsOut gz record put) (hchunk : ∀ c ∈ body.chunks, c.length ≤ chunk) :
    Sized threshold chunk put tail (.start gz cfg body) := by
  have hopen : (Filtering.start gz cfg.gzipLevel).sink.length ≤ sinkLimit threshold put := by
    have hlength : openEnvelope.length ≤ max record openEnvelope.length := le_max_right _ _
    have := write_sink_le ⟨gz.new cfg.gzipLevel, true, .empty, [], [], 0⟩ hput hlength
    simp only [List.length_nil, Nat.zero_add] at this
    exact this.trans (le_max_right _ _)
  exact ⟨hchunk, .turn hopen (by simp [StreamState.start]) (by simp [StreamState.start]),
    by simp [StreamState.start, Channel.empty, Channel.Below, Channel.log]⟩

end Steps

section Streaming

/-- A byte in a stored block of its own. -/
def byteBlock (b : UInt8) : Bytes := storedBlock false [b]

/-- One gzip member that stores every byte of its body in a block of its own. -/
def streamedMember (body : Bytes) : Bytes :=
  memberHeader ++ body.flatMap byteBlock ++ storedBlock true [] ++ memberTrailer body

lemma readBlocks_streamed (body rest : Bytes) :
    readBlocks (body.length + 1) (body.flatMap byteBlock ++ (storedBlock true [] ++ rest)) = some (body, rest) := by
  induction body with
  | nil => simpa using readBlocks_storedBlock true [] rest (Nat.zero_le _) 0
  | cons b body ih =>
    rw [List.flatMap_cons, List.append_assoc, List.length_cons, byteBlock,
      readBlocks_storedBlock false [b] _ (by simp [storedMax]), ih]
    rfl

lemma flatMap_byteBlock_length (body : Bytes) : (body.flatMap byteBlock).length = 6 * body.length := by
  induction body with
  | nil => rfl
  | cons b body ih =>
    rw [List.flatMap_cons, List.length_append, ih, byteBlock, storedBlock_length]
    simp only [List.length_cons, List.length_nil]
    omega

lemma readMember_streamedMember (body rest : Bytes) :
    readMember (streamedMember body ++ rest) = some (body, rest) := by
  simp only [streamedMember, List.append_assoc]
  refine readMember_of_blocks ?_ (readBlocks_streamed body _)
  simp only [List.length_append, flatMap_byteBlock_length, storedBlock_length, List.length_nil]
  omega

/-- A codec of stored blocks that puts out every byte when it is written. Its encoder keeps what the
trailer is about, once the header is out. -/
def streamingGzip : Gzip where
  readToEnd := storedGzip.readToEnd
  inflate := storedGzip.inflate
  Encoder := Option Bytes
  new _ := none
  write encoder piece :=
    (some (encoder.getD [] ++ piece), (if encoder.isNone then memberHeader else []) ++ piece.flatMap byteBlock)
  finish encoder :=
    (if encoder.isNone then memberHeader else []) ++ storedBlock true [] ++ memberTrailer (encoder.getD [])

lemma streamingGzip_encode (level : ℕ) (pieces : List Bytes) :
    streamingGzip.encode level pieces = streamedMember pieces.flatten := by
  have hall : ∀ (pieces : List Bytes) (written : Bytes),
      streamingGzip.writeAll (some written : Option Bytes) pieces =
        ((some (written ++ pieces.flatten) : Option Bytes), pieces.flatten.flatMap byteBlock) := by
    intro pieces
    induction pieces with
    | nil =>
      intro written
      rw [List.flatten_nil, List.append_nil]
      rfl
    | cons piece pieces ih =>
      intro written
      change (let r := streamingGzip.writeAll (some (written ++ piece) : Option Bytes) pieces
        (r.1, ([] ++ piece.flatMap byteBlock) ++ r.2)) = _
      rw [ih, List.flatten_cons, List.append_assoc, List.flatMap_append]
      rfl
  cases pieces with
  | nil => rfl
  | cons piece pieces =>
    change (let r := streamingGzip.writeAll (some ([] ++ piece) : Option Bytes) pieces
      ((memberHeader ++ piece.flatMap byteBlock) ++ r.2) ++ streamingGzip.finish r.1) = _
    rw [hall, List.flatten_cons, streamedMember, List.flatMap_append]
    simp [streamingGzip]

theorem streamingGzip_lawful : streamingGzip.Lawful where
  encode_flatten level pieces := by simp [streamingGzip_encode]
  readToEnd_members level parts hne := by
    simp only [Gzip.gzipCompress, streamingGzip_encode, List.flatten_singleton]
    exact readMembers_members readMember_streamedMember parts hne _ le_rfl
  inflate_clean := storedGzip_lawful.inflate_clean
  inflate_eof := storedGzip_lawful.inflate_eof
  inflate_cut := storedGzip_lawful.inflate_cut
  inflate_extends := storedGzip_lawful.inflate_extends
  inflate_corrupt := storedGzip_lawful.inflate_corrupt

lemma header_length_le (encoder : Option Bytes) : (if encoder.isNone then memberHeader else []).length ≤ 10 := by
  split_ifs
  · exact le_refl 10
  · exact Nat.zero_le _

lemma streamingGzip_putsOut (record : ℕ) : PutsOut streamingGzip record (10 + 6 * max record openEnvelope.length) := by
  intro encoder bytes h
  have hlen : (streamingGzip.write encoder bytes).2.length =
      (if Option.isNone encoder then memberHeader else []).length + 6 * bytes.length := by
    rw [← flatMap_byteBlock_length, ← List.length_append]
    rfl
  have hheader := header_length_le encoder
  omega

lemma streamingGzip_finish_le (encoder : streamingGzip.Encoder) : (streamingGzip.finish encoder).length ≤ 23 := by
  have hlen : (streamingGzip.finish encoder).length =
      (if Option.isNone encoder then memberHeader else []).length + 13 := by
    simp [streamingGzip, storedBlock, memberTrailer, le32]
  have hheader := header_length_le encoder
  omega

end Streaming

section Bound
variable {gz : Gzip} {float : FloatParser} {engine : Engine} {cfg : Processing} {threshold chunk record put tail : ℕ}
  {body : Body} {s : StreamState gz}

/-- At no moment of a run in stream mode, however its parties take turns and fail, is more of an object
on its way between them than six chunks of the source, eighteen records and six chunks of the output:
its size does not matter. The bound is on what the parties hand over, not on the deserializer's
buffers, the codecs' windows or the part that `put_stream` collects. -/
theorem in_flight_bounded (hgz : gz.Lawful)
    (h : Reachable (streamStep float engine threshold body) (.start gz cfg body) s)
    (hchunk : ∀ c ∈ body.chunks, c.length ≤ chunk)
    (hrecord : ∀ text ∈ (extraction gz float body.chunks (some body.ending)).records, text.length ≤ record)
    (hput : PutsOut gz record put) (htail : ∀ encoder, (gz.finish encoder).length ≤ tail) :
    s.inFlight ≤ 6 * chunk + 18 * record + 6 * (max threshold put + 2 * put + tail) := by
  have hraw : ∀ t, StreamInv float engine cfg threshold body t →
      t.raw.Below StreamMsg.size record ∧ t.extractor.held ≤ record :=
    fun t ht => ht.extractorOut.below (fun text hm => hrecord text ((ht.extractorIn.yield_prefix hgz).subset hm))
  have hboth : StreamInv float engine cfg threshold body s ∧ Sized threshold chunk put tail s := by
    refine @Reachable.invariant _ _ _ _
      (fun t => StreamInv float engine cfg threshold body t ∧ Sized threshold chunk put tail t)
      ⟨start_inv, start_sized hput hchunk⟩ ?_ _ h
    rintro t action t' ⟨hinv, hsized⟩ hs
    exact ⟨streamStep_inv hgz action hinv hs, streamStep_sized hput htail hsized (hraw t hinv).1 action hs⟩
  obtain ⟨hinv, hsized⟩ := hboth
  have hpump : s.pump.held.length ≤ chunk := by
    unfold Pump.held
    split
    · rename_i c rest heq
      exact hsized.pump c (by simp [heq, Pump.chunks])
    · exact Nat.zero_le _
  have hinput : s.input.held messageSize ≤ (4 + 1) * chunk :=
    Channel.Below.held_le (below_of_sent hchunk hinv.pump.log_prefix)
  obtain ⟨hbelow, hextractor⟩ := hraw s hinv
  have hrecords : s.raw.held StreamMsg.size ≤ (16 + 1) * record := hbelow.held_le
  have hblock := hsized.block.held_le
  have houtput : s.output.held messageSize ≤ (4 + 1) * chunkLimit threshold put tail := hsized.output.held_le
  unfold StreamState.inFlight
  unfold chunkLimit sinkLimit at hblock houtput
  omega

/-- In the midst of the sample run 381 bytes are on their way. -/
theorem in_flight_bounded_sample :
    ∃ s, Reachable (streamStep (fun _ => none) passEngine 16 (sampleBody envelopeText))
        (.start streamingGzip sampleProcessing (sampleBody envelopeText)) s ∧
      s.inFlight = 381 ∧ s.inFlight ≤ 6 * 72 + 18 * 17 + 6 * (max 16 112 + 2 * 112 + 23) := by
  obtain ⟨s, hs, hheld⟩ : ∃ s,
      runActions (streamStep (fun _ => none) passEngine 16 (sampleBody envelopeText))
        (.start streamingGzip sampleProcessing (sampleBody envelopeText)) (sampleSchedule.take 18) = some s ∧
      s.inFlight = 381 := by
    have hrun : (runActions (streamStep (fun _ => none) passEngine 16 (sampleBody envelopeText))
        (.start streamingGzip sampleProcessing (sampleBody envelopeText)) (sampleSchedule.take 18)).map
          StreamState.inFlight = some 381 := by decide +kernel
    exact Option.map_eq_some_iff.mp hrun
  have hreach := Reachable.start.run (sampleSchedule.take 18) hs
  have hopen : openEnvelope.length = 12 := by decide +kernel
  have hput : PutsOut streamingGzip 17 112 := by
    have := streamingGzip_putsOut 17
    rwa [hopen] at this
  exact ⟨s, hreach, hheld, in_flight_bounded streamingGzip_lawful hreach (by decide +kernel) (by decide +kernel)
    hput streamingGzip_finish_le⟩

end Bound

end CloudTrailFilter.Process
