import CloudTrailFilter.Process.Buffer

/-!
# Stream mode

The parts of `stream_run`: what the extraction task finds in the chunks it has received, and
the loop of the processing block that filters the records into an encoder whose sink is
drained in between. `streamRun` runs them one after the other; the interleavings of the
concurrent program are in `Process.Concurrent`.
-/

namespace CloudTrailFilter.Process
open CloudTrailFilter.Json CloudTrailFilter.Filter

section Input

/-- How the reader of a source object ends. -/
inductive BodyEnd where
  | eof
  | failed (message : String)
deriving DecidableEq, Repr

/-- A source object as its reader delivers it. A read of no bytes is the end, so no chunk is
empty; an error is the end too, so it is none after which a reader is to be asked again. -/
structure Body where
  chunks : List Bytes
  nonempty : ∀ chunk ∈ chunks, chunk ≠ []
  ending : BodyEnd

/-- The bytes a reader delivers. -/
def Body.bytes (body : Body) : Bytes := body.chunks.flatten

/-- How the decompressed text ends for the deserializer. -/
inductive TextEnd where
  | eof
  | damaged
  | failed
  | pending
deriving DecidableEq, Repr

def TextEnd.tail : TextEnd → Tail
  | .eof => .eof
  | .damaged | .failed | .pending => .cut

/-- The text available to the deserializer from the chunks received, with what is known of
the end of the input. -/
def textOf (gz : Gzip) (chunks : List Bytes) (ending : Option BodyEnd) : Bytes × TextEnd :=
  match ending with
  | some .eof =>
    let (text, e) := gz.inflate chunks .eof
    (text, if e = .clean then .eof else .damaged)
  | some (.failed _) =>
    let (text, e) := gz.inflate chunks .cut
    (text, if e = .corrupt then .damaged else .failed)
  | none =>
    let (text, e) := gz.inflate chunks .cut
    (text, if e = .corrupt then .damaged else .pending)

end Input

section Extraction

inductive ParseFailure where
  | gzip
  | json
  | transport (message : String)
deriving DecidableEq, Repr

inductive FinishKind where
  | recordsFound
  | unrecognized
  | error (failure : ParseFailure)
deriving DecidableEq, Repr

/-- The classification at the end of `extract_records`. A transport error the reader has met
comes before what the deserializer made of it. -/
def finishKind (transportError : Option String) (result : Except Fault Bool) (ending : TextEnd) :
    FinishKind :=
  match result, transportError with
  | .ok true, _ => .recordsFound
  | .ok false, _ => .unrecognized
  | .error _, some message => .error (.transport message)
  | .error .starved, none => .error (if ending = .damaged then .gzip else .json)
  | .error .malformed, none => .error .json

/-- The transport error the reader has met when the deserializer is through with a body. It has
to be met where the text ends with it. Around any other error the deserializer closes its
brackets and may read on to do so; `overread` says that it met the transport error there. -/
def transportError (overread : Bool) (ending : BodyEnd) (textEnd : TextEnd)
    (result : Except Fault Bool) : Option String :=
  match ending with
  | .eof => none
  | .failed message =>
    if overread = true ∨ (textEnd = .failed ∧ result = .error .starved) then some message else none

/-- What the extraction task has to send once it has these chunks. -/
def extraction (gz : Gzip) (float : FloatParser) (chunks : List Bytes) (ending : Option BodyEnd) :
    Sending Bool :=
  extract (textOf gz chunks ending).2.tail float (textOf gz chunks ending).1

/-- How the extraction of a whole body ends. -/
def finishOf (gz : Gzip) (float : FloatParser) (overread : Bool) (body : Body) : FinishKind :=
  let result := (extraction gz float body.chunks (some body.ending)).result
  let textEnd := (textOf gz body.chunks (some body.ending)).2
  finishKind (transportError overread body.ending textEnd result) result textEnd

end Extraction

section Processing
variable (gz : Gzip) (float : FloatParser) (engine : Engine)

/-- The local state of the processing block. -/
structure Filtering where
  encoder : gz.Encoder
  first : Bool
  tally : RecordTally
  /-- What the encoder has put into its sink since the sink was last drained. -/
  sink : Bytes
  /-- The chunks drained so far, oldest first. -/
  drained : List Bytes
  /-- The compressed bytes handed over so far. -/
  bytesOut : ℕ

namespace Filtering
variable {gz}

/-- `encoder.write_all`. -/
def write (st : Filtering gz) (bytes : Bytes) : Filtering gz :=
  let (encoder, out) := gz.write st.encoder bytes
  { st with encoder := encoder, sink := st.sink ++ out }

/-- Writes a kept record, after a comma unless it is the first. -/
def keepRecord (st : Filtering gz) (text : Bytes) : Filtering gz :=
  let st := if st.first then st else st.write [comma]
  let st := st.write text
  { st with first := false, tally := st.tally.keep }

/-- The evaluation of one record. -/
def filterRecord (st : Filtering gz) (text : Bytes) : Filtering gz :=
  let st := { st with tally := st.tally.recordIn }
  match engine.evaluateRaw float text with
  | some .keep => st.keepRecord text
  | some (.drop ruleIdx) => { st with tally := st.tally.dropByRule ruleIdx }
  | none => { st with tally := st.tally.parseError }.keepRecord text

/-- Drains the sink once it holds at least `threshold` bytes. -/
def drain (threshold : ℕ) (st : Filtering gz) : Filtering gz :=
  if threshold ≤ st.sink.length then
    { st with
      sink := []
      drained := st.drained ++ [st.sink]
      bytesOut := st.bytesOut + st.sink.length }
  else st

/-- One round of the loop over the record messages. -/
def step (threshold : ℕ) (st : Filtering gz) (text : Bytes) : Filtering gz :=
  (filterRecord float engine st text).drain threshold

end Filtering

variable (level threshold : ℕ)

/-- The state before the first record. -/
def Filtering.start : Filtering gz :=
  Filtering.write ⟨gz.new level, true, .empty, [], [], 0⟩ openEnvelope

/-- The state after a number of records. -/
def filtering (records : List Bytes) : Filtering gz :=
  records.foldl (Filtering.step float engine threshold) (.start gz level)

/-- The end of an object that is written. What finishing leaves in the sink is handed over
unless it is empty. -/
def Filtering.close {gz : Gzip} (st : Filtering gz) : Filtering gz :=
  let st := st.write closeEnvelope
  let tail := st.sink ++ gz.finish st.encoder
  if tail = [] then { st with sink := [] }
  else { st with sink := [], drained := st.drained ++ [tail], bytesOut := st.bytesOut + tail.length }

end Processing

section Output
variable {gz : Gzip} {float : FloatParser} {engine : Engine} {level threshold : ℕ}

/-- The encoder has been given `bytes` in some pieces, and what it put out is in the drained
chunks and the sink. -/
def Filtering.Wrote (level : ℕ) (st : Filtering gz) (bytes : Bytes) : Prop :=
  ∃ pieces : List Bytes, pieces.flatten = bytes ∧
    gz.writeAll (gz.new level) pieces = (st.encoder, st.drained.flatten ++ st.sink)

namespace Filtering

lemma Wrote.write {st : Filtering gz} {bytes : Bytes} (h : st.Wrote level bytes) (more : Bytes) :
    (st.write more).Wrote level (bytes ++ more) := by
  obtain ⟨pieces, rfl, hw⟩ := h
  refine ⟨pieces ++ [more], by simp, ?_⟩
  rw [Gzip.writeAll_append, hw]
  simp [Gzip.writeAll, Filtering.write, List.append_assoc]

lemma Wrote.drain {st : Filtering gz} {bytes : Bytes} (h : st.Wrote level bytes) (threshold : ℕ) :
    (st.drain threshold).Wrote level bytes := by
  obtain ⟨pieces, rfl, hw⟩ := h
  refine ⟨pieces, rfl, ?_⟩
  unfold Filtering.drain
  split_ifs
  · simpa using hw
  · exact hw

lemma wrote_start : (start gz level).Wrote level openEnvelope := by
  have hnew : Filtering.Wrote level (⟨gz.new level, true, .empty, [], [], 0⟩ : Filtering gz) [] :=
    ⟨[], rfl, rfl⟩
  exact hnew.write openEnvelope

@[simp] lemma write_first (st : Filtering gz) (bytes : Bytes) : (st.write bytes).first = st.first := rfl

@[simp] lemma write_tally (st : Filtering gz) (bytes : Bytes) : (st.write bytes).tally = st.tally := rfl

@[simp] lemma keepRecord_drained (st : Filtering gz) (text : Bytes) :
    (st.keepRecord text).drained = st.drained := by
  cases h : st.first <;> simp [keepRecord, write, h]

@[simp] lemma keepRecord_bytesOut (st : Filtering gz) (text : Bytes) :
    (st.keepRecord text).bytesOut = st.bytesOut := by
  cases h : st.first <;> simp [keepRecord, write, h]

@[simp] lemma drain_first (st : Filtering gz) : (st.drain threshold).first = st.first := by
  unfold drain
  split_ifs <;> rfl

@[simp] lemma drain_tally (st : Filtering gz) : (st.drain threshold).tally = st.tally := by
  unfold drain
  split_ifs <;> rfl

end Filtering

lemma joinRecords_concat (survivors : List Bytes) (text : Bytes) :
    joinRecords (survivors ++ [text]) =
      if survivors = [] then text else joinRecords survivors ++ [comma] ++ text := by
  cases survivors with
  | nil => simp [joinRecords]
  | cons record rest => simp [joinRecords, List.append_assoc]

/-- The processing block after some records, against the buffer loop after the same records. -/
structure Filtering.Matches (level : ℕ) (st : Filtering gz) (acc : RecordTally × List Bytes) : Prop where
  tally : st.tally = acc.1
  first : st.first = true ↔ acc.2 = []
  wrote : st.Wrote level (openEnvelope ++ joinRecords acc.2)

namespace Filtering

/-- Keeping a record in both loops, the tallies having been brought up to date. -/
lemma Matches.keepRecord {st : Filtering gz} {acc : RecordTally × List Bytes}
    (h : st.Matches level acc) (tally : RecordTally) (text : Bytes) :
    ({ st with tally := tally }.keepRecord text).Matches level (tally.keep, acc.2 ++ [text]) := by
  have hbase : Filtering.Wrote level { st with tally := tally } (openEnvelope ++ joinRecords acc.2) :=
    h.wrote
  unfold Filtering.keepRecord
  cases hf : st.first with
  | true =>
    have hnil := h.first.mp hf
    refine ⟨rfl, by simp, ?_⟩
    have := hbase.write text
    simpa [hnil, joinRecords, Filtering.Wrote, Filtering.write] using this
  | false =>
    have hne : acc.2 ≠ [] := by
      intro hnil
      simp [h.first.mpr hnil] at hf
    refine ⟨rfl, by simp, ?_⟩
    have := (hbase.write [comma]).write text
    rw [joinRecords_concat, if_neg hne]
    simpa [Filtering.Wrote, Filtering.write, List.append_assoc] using this

/-- One round of each loop on the same record. -/
lemma Matches.step {st : Filtering gz} {acc : RecordTally × List Bytes} (h : st.Matches level acc)
    (text : Bytes) :
    (st.step float engine threshold text).Matches level (filterStep float engine acc text) := by
  have hround : (filterRecord float engine st text).Matches level (filterStep float engine acc text) := by
    unfold filterRecord filterStep
    rw [h.tally]
    cases engine.evaluateRaw float text with
    | none => exact h.keepRecord acc.1.recordIn.parseError text
    | some d =>
      cases d with
      | keep => exact h.keepRecord acc.1.recordIn text
      | drop ruleIdx => exact ⟨rfl, h.first, h.wrote⟩
  exact ⟨by simpa [Filtering.step] using hround.tally, by simpa [Filtering.step] using hround.first,
    hround.wrote.drain threshold⟩

end Filtering

variable (gz float engine level threshold) in
/-- The two loops agree on every list of records. -/
theorem filtering_matches (records : List Bytes) :
    (filtering gz float engine level threshold records).Matches level
      (filterRecords float engine records) := by
  have hfold : ∀ (records : List Bytes) (st : Filtering gz) (acc : RecordTally × List Bytes),
      st.Matches level acc → (records.foldl (Filtering.step float engine threshold) st).Matches level
        (records.foldl (filterStep float engine) acc) := by
    intro records
    induction records with
    | nil => intro st acc h; exact h
    | cons text records ih => intro st acc h; exact ih _ _ (h.step text)
  refine hfold records _ _ ⟨rfl, by simp [Filtering.start], ?_⟩
  rw [show joinRecords [] = [] from rfl, List.append_nil]
  exact Filtering.wrote_start

/-- A closed run has handed over exactly one member: the filtered envelope. -/
theorem Filtering.Matches.close (hgz : gz.Lawful) {st : Filtering gz} {acc : RecordTally × List Bytes}
    (h : st.Matches level acc) :
    st.close.drained.flatten = gz.gzipCompress (envelopeBody acc.2) level := by
  obtain ⟨pieces, hflat, hw⟩ := h.wrote.write closeEnvelope
  have hout : st.close.drained.flatten =
      (st.write closeEnvelope).drained.flatten ++ ((st.write closeEnvelope).sink ++
        gz.finish (st.write closeEnvelope).encoder) := by
    unfold Filtering.close
    simp only
    split_ifs with htail
    · rw [htail, List.append_nil]
    · simp
  rw [hout, Gzip.gzipCompress, ← List.append_assoc, envelopeBody, ← hflat, ← hgz.encode_flatten,
    Gzip.encode, hw]

/-- The bytes counted are the bytes handed over. -/
lemma Filtering.close_bytesOut {st : Filtering gz} (h : st.bytesOut = st.drained.flatten.length) :
    st.close.bytesOut = st.close.drained.flatten.length := by
  unfold Filtering.close
  simp only
  split_ifs <;> simp [Filtering.write, h]

lemma filtering_bytesOut (records : List Bytes) :
    (filtering gz float engine level threshold records).bytesOut =
      (filtering gz float engine level threshold records).drained.flatten.length := by
  have hstep : ∀ (st : Filtering gz) (text : Bytes), st.bytesOut = st.drained.flatten.length →
      (st.step float engine threshold text).bytesOut =
        (st.step float engine threshold text).drained.flatten.length := by
    intro st text h
    have hround : (st.filterRecord float engine text).bytesOut =
        (st.filterRecord float engine text).drained.flatten.length := by
      unfold Filtering.filterRecord
      split <;> simpa using h
    unfold Filtering.step Filtering.drain
    split_ifs
    · simp [hround]
    · exact hround
  have hfold : ∀ (records : List Bytes) (st : Filtering gz), st.bytesOut = st.drained.flatten.length →
      (records.foldl (Filtering.step float engine threshold) st).bytesOut =
        (records.foldl (Filtering.step float engine threshold) st).drained.flatten.length := by
    intro records
    induction records with
    | nil => intro st h; exact h
    | cons text records ih => intro st h; exact ih _ (hstep st text h)
  exact hfold records _ rfl

end Output

section Run
variable (gz : Gzip) (float : FloatParser) (engine : Engine) (cfg : Processing)

/-- `OUTPUT_FLUSH_THRESHOLD`. -/
def outputFlushThreshold : ℕ := 64 * 1024

/-- What the surroundings do during one run of `stream_run`. -/
structure StreamEnv where
  overread : Bool
  extractionPanics : Bool
  encoderFails : Bool
  /-- The error of `put_stream`, if it fails for a reason of its own. -/
  upload : Option StoreError
  /-- The bytes `pump_input` has read when a run that fails ends. Which they can be, for the chunks a
  reader delivers, is in `Process.Pump`. -/
  pumped : ℕ

/-- The environment in which nothing fails. -/
def StreamEnv.good (pumped : ℕ) : StreamEnv := ⟨false, false, false, none, pumped⟩

/-- The result of a run, the body it committed at the destination, the tally it committed and
everything it published. -/
structure StreamRun where
  result : Except CoreError Outcome
  committed : Option Bytes
  tally : RecordTally
  metrics : Metrics

def ParseFailure.toError : ParseFailure → CoreError
  | .gzip => .gzip
  | .json => .json
  | .transport message => .store (.backend ("reading source object: " ++ message))

/-- `stream_run` with its parts one after the other and the sink drained at `threshold`. An
object that is decided has been read to its end, of others `pump_input` may have read more or
less. -/
def streamRunAt (threshold : ℕ) (env : StreamEnv) (body : Body) : StreamRun :=
  let read := Metrics.addBytesIn body.bytes.length
  let readSome := Metrics.addBytesIn env.pumped
  let st := filtering gz float engine cfg.gzipLevel threshold
    (extraction gz float body.chunks (some body.ending)).records
  if env.extractionPanics then ⟨.error (.internal .extractionPanicked), none, .empty, readSome⟩
  else if env.encoderFails then ⟨.error (.internal .compression), none, .empty, readSome⟩
  else
    match finishOf gz float env.overread body with
    | .recordsFound =>
      if 0 < st.tally.kept then
        match env.upload with
        | none =>
          ⟨.ok (.written none), some st.close.drained.flatten, st.tally,
            read + Metrics.addBytesOut st.close.bytesOut + st.tally.commit engine⟩
        | some e => ⟨.error (.store e), none, .empty, readSome⟩
      else ⟨.ok .nothingKept, none, st.tally, read + st.tally.commit engine⟩
    | .unrecognized => ⟨.ok .unrecognized, none, .empty, read + RecordTally.empty.commit engine⟩
    | .error failure => ⟨.error failure.toError, none, .empty, readSome⟩

def streamRun (env : StreamEnv) (body : Body) : StreamRun :=
  streamRunAt gz float engine cfg outputFlushThreshold env body

end Run

section Results
variable {gz : Gzip} {float : FloatParser}

lemma finishKind_recordsFound {transport : Option String} {result : Except Fault Bool}
    {ending : TextEnd} (h : finishKind transport result ending = .recordsFound) : result = .ok true := by
  unfold finishKind at h
  split at h <;> simp_all

lemma finishKind_unrecognized {transport : Option String} {result : Except Fault Bool}
    {ending : TextEnd} (h : finishKind transport result ending = .unrecognized) :
    result = .ok false := by
  unfold finishKind at h
  split at h <;> simp_all

lemma textOf_eof {chunks : List Bytes} {ending : Option BodyEnd} {text : Bytes}
    (h : textOf gz chunks ending = (text, .eof)) :
    ending = some .eof ∧ gz.inflate chunks .eof = (text, .clean) := by
  unfold textOf at h
  split at h
  · simp only [Prod.mk.injEq] at h
    obtain ⟨rfl, h⟩ := h
    refine ⟨rfl, ?_⟩
    split_ifs at h with hclean
    rw [← hclean]
  · simp only [Prod.mk.injEq] at h
    obtain ⟨-, h⟩ := h
    split_ifs at h
  · simp only [Prod.mk.injEq] at h
    obtain ⟨-, h⟩ := h
    split_ifs at h

/-- An extraction that succeeds has seen the clean end of an intact object. -/
theorem extraction_ok (hgz : gz.Lawful) {chunks : List Bytes} {ending : Option BodyEnd} {found : Bool}
    (h : (extraction gz float chunks ending).result = .ok found) :
    ∃ text, ending = some .eof ∧ gz.readToEnd chunks.flatten = (text, true) ∧
      extraction gz float chunks ending = extract .eof float text := by
  obtain ⟨text, e, ht⟩ : ∃ text e, textOf gz chunks ending = (text, e) := ⟨_, _, rfl⟩
  have hx : extraction gz float chunks ending = extract e.tail float text := by
    rw [extraction, ht]
  rw [hx] at h ⊢
  cases e with
  | eof =>
    obtain ⟨hend, hclean⟩ := textOf_eof ht
    exact ⟨text, hend, (hgz.inflate_clean chunks text).mp hclean, rfl⟩
  | damaged => exact (extract_cut_ne_ok float text found h).elim
  | failed => exact (extract_cut_ne_ok float text found h).elim
  | pending => exact (extract_cut_ne_ok float text found h).elim

/-- Damage that has been met stays what it is, whatever else arrives. -/
lemma textOf_damaged_append (hgz : gz.Lawful) {chunks : List Bytes} (more : List Bytes)
    (ending : BodyEnd) (h : (textOf gz chunks none).2 = .damaged) :
    textOf gz (chunks ++ more) (some ending) = textOf gz chunks none := by
  have hcorrupt : (gz.inflate chunks .cut).2 = .corrupt := by
    by_contra hne
    simp [textOf, hne] at h
  have hsame := fun t => hgz.inflate_corrupt chunks more t hcorrupt
  cases ending with
  | eof => simp [textOf, hsame, hcorrupt]
  | failed message => simp [textOf, hsame, hcorrupt]

/-- The text only grows as more of the body arrives. -/
lemma textOf_extends (hgz : gz.Lawful) (chunks more : List Bytes) (ending : Option BodyEnd) :
    (textOf gz chunks none).1 <+: (textOf gz (chunks ++ more) ending).1 := by
  have hpre := hgz.inflate_extends chunks more
  cases ending with
  | none => exact hpre .cut
  | some e =>
    cases e with
    | eof => exact hpre .eof
    | failed message => exact hpre .cut

/-- What the task sends of a part of a body, against what it sends of more of it. -/
theorem extraction_extends (hgz : gz.Lawful) (chunks more : List Bytes) (ending : Option BodyEnd) :
    Extends id (extraction gz float chunks none) (extraction gz float (chunks ++ more) ending) := by
  obtain ⟨q, hq⟩ := textOf_extends hgz chunks more ending
  have htail : (textOf gz chunks none).2.tail = .cut := by
    simp only [textOf]
    split_ifs <;> rfl
  unfold extraction
  rw [htail, ← hq]
  exact extract_extends _ q float _

/-- Every way a run of `stream_run` can go. -/
theorem streamRunAt_cases (gz : Gzip) (float : FloatParser) (engine : Engine) (cfg : Processing)
    (threshold : ℕ) (env : StreamEnv) (body : Body) :
    let st := filtering gz float engine cfg.gzipLevel threshold
      (extraction gz float body.chunks (some body.ending)).records
    let finish := finishOf gz float env.overread body
    let run := streamRunAt gz float engine cfg threshold env body
    let read := Metrics.addBytesIn body.bytes.length
    let readSome := Metrics.addBytesIn env.pumped
    (finish = .recordsFound ∧ 0 < st.tally.kept ∧ env.upload = none ∧
      run = ⟨.ok (.written none), some st.close.drained.flatten, st.tally,
        read + Metrics.addBytesOut st.close.bytesOut + st.tally.commit engine⟩) ∨
    (finish = .recordsFound ∧ st.tally.kept = 0 ∧
      run = ⟨.ok .nothingKept, none, st.tally, read + st.tally.commit engine⟩) ∨
    (finish = .unrecognized ∧
      run = ⟨.ok .unrecognized, none, .empty, read + RecordTally.empty.commit engine⟩) ∨
    (∃ failure, finish = .error failure ∧ run = ⟨.error failure.toError, none, .empty, readSome⟩) ∨
    (∃ e, run = ⟨.error (.store e), none, .empty, readSome⟩) ∨
    ∃ cause, run = ⟨.error (.internal cause), none, .empty, readSome⟩ := by
  intro st finish run read readSome
  have hrun : run = streamRunAt gz float engine cfg threshold env body := rfl
  unfold streamRunAt at hrun
  by_cases hpanic : env.extractionPanics = true
  · simp only [hpanic, if_true] at hrun
    exact .inr (.inr (.inr (.inr (.inr ⟨_, hrun⟩))))
  by_cases henc : env.encoderFails = true
  · simp only [hpanic, henc, if_true] at hrun
    exact .inr (.inr (.inr (.inr (.inr ⟨_, hrun⟩))))
  simp only [hpanic, henc] at hrun
  change run = (match finish with
    | .recordsFound => _
    | .unrecognized => _
    | .error failure => _) at hrun
  cases hfin : finish with
  | recordsFound =>
    rw [hfin] at hrun
    by_cases hkept : 0 < st.tally.kept
    · simp only [hkept, st, if_true] at hrun
      cases hup : env.upload with
      | none => exact .inl ⟨rfl, hkept, rfl, by simpa [hup] using hrun⟩
      | some e => exact .inr (.inr (.inr (.inr (.inl ⟨e, by simpa [hup] using hrun⟩))))
    · simp only [hkept, st, if_false] at hrun
      exact .inr (.inl ⟨rfl, by omega, hrun⟩)
  | unrecognized =>
    rw [hfin] at hrun
    exact .inr (.inr (.inl ⟨rfl, hrun⟩))
  | error failure =>
    rw [hfin] at hrun
    exact .inr (.inr (.inr (.inl ⟨failure, rfl, hrun⟩)))

/-- What a run that committed an object looked like. -/
theorem streamRunAt_committed {engine : Engine} {cfg : Processing} {threshold : ℕ} {env : StreamEnv}
    {body : Body} {out : Bytes}
    (h : (streamRunAt gz float engine cfg threshold env body).committed = some out) :
    let x := extraction gz float body.chunks (some body.ending)
    let st := filtering gz float engine cfg.gzipLevel threshold x.records
    x.result = .ok true ∧ 0 < st.tally.kept ∧ out = st.close.drained.flatten ∧
      (streamRunAt gz float engine cfg threshold env body).tally = st.tally ∧
      (streamRunAt gz float engine cfg threshold env body).result = .ok (.written none) := by
  rcases streamRunAt_cases gz float engine cfg threshold env body with
    ⟨hfin, hkept, -, hrun⟩ | ⟨-, -, hrun⟩ | ⟨-, hrun⟩ | ⟨_, -, hrun⟩ | ⟨_, hrun⟩ | ⟨_, hrun⟩
  · rw [hrun] at h ⊢
    exact ⟨finishKind_recordsFound hfin, hkept, (Option.some.inj h).symm, rfl, rfl⟩
  all_goals
    rw [hrun] at h
    simp at h

end Results

end CloudTrailFilter.Process
