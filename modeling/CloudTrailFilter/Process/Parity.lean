import CloudTrailFilter.Process.Stream

/-!
# Mode parity

The mode of an object is picked by its size, so both modes have to reach the same verdict and
write the same records. They do not on every input; the verdicts agree exactly when
`ParityHolds`. Where both write, they write the same envelope and the same counters.
-/

namespace CloudTrailFilter.Process
open CloudTrailFilter.Json CloudTrailFilter.Filter Fallible

/-- The verdicts the two modes have in common. -/
inductive Verdict where
  | written
  | nothingKept
  | unrecognized
  | json
  | gzip
deriving DecidableEq, Repr

def Verdict.of : Except CoreError Outcome → Option Verdict
  | .ok (.written _) => some .written
  | .ok .nothingKept => some .nothingKept
  | .ok .unrecognized => some .unrecognized
  | .error .json => some .json
  | .error .gzip => some .gzip
  | .error _ => none

/-- A text that is the sequence form of `Envelope`: an array whose only element is an array. -/
def seqEnvelope : Lex → Bool
  | .arr [(_, .arr items)] => items.all (fun item => isUtf8 item.1)
  | _ => false

/-- Where the two readings of a complete text agree: it is not the sequence form of the
envelope, and if it is no envelope, the full parse accepts it exactly when its surface decodes. -/
def TextParity (float : FloatParser) (text : Bytes) : Prop :=
  ∀ v, scanDocument text = .ok v → seqEnvelope v = false ∧
    (envelopeOf v = none → (Value.fromSlice float text).isSome = surfaceDecodes float v)

/-- Where the two modes agree on a source: its text has parity, or it is damaged and what the
decoder delivers before the damage shows no syntax error. -/
def ParityHolds (gz : Gzip) (float : FloatParser) (chunks : List Bytes) : Prop :=
  match textOf gz chunks (some .eof) with
  | (text, .eof) => TextParity float text
  | (text, _) => (extract .cut float text).result = .error .starved

section Facts
variable {gz : Gzip} {float : FloatParser} {engine : Engine} {cfg : Processing}

lemma textOf_intact (hgz : gz.Lawful) {chunks : List Bytes} {text : Bytes}
    (h : gz.readToEnd chunks.flatten = (text, true)) : textOf gz chunks (some .eof) = (text, .eof) := by
  simp [textOf, (hgz.inflate_clean chunks text).mpr h]

lemma textOf_damaged (hgz : gz.Lawful) {chunks : List Bytes} {out : Bytes}
    (h : gz.readToEnd chunks.flatten = (out, false)) :
    (textOf gz chunks (some .eof)).2 = .damaged := by
  have hne : (gz.inflate chunks .eof).2 ≠ .clean := by
    intro hclean
    have := (hgz.inflate_clean chunks (gz.inflate chunks .eof).1).mp (by rw [← hclean])
    rw [h] at this
    simp at this
  simp [textOf, hne]

lemma decompressCapped_fits {input out : Bytes} {intact : Bool} (h : gz.readToEnd input = (out, intact))
    (hfits : out.length ≤ cfg.maxObjectBytes) :
    decompressCapped gz cfg input = if intact then .ok out else .error .gzip := by
  have hlt : ¬ cfg.maxObjectBytes < out.length := by omega
  simp [decompressCapped, h, hlt]

/-- The verdict of stream mode when nothing around it fails. -/
def streamVerdict (kept : Bool) : FinishKind → Option Verdict
  | .recordsFound => some (if kept then .written else .nothingKept)
  | .unrecognized => some .unrecognized
  | .error .gzip => some .gzip
  | .error .json => some .json
  | .error (.transport _) => none

lemma streamRun_verdict (body : Body) (pumped : ℕ) :
    Verdict.of (streamRun gz float engine cfg (.good pumped) body).result =
      streamVerdict
        ((filterRecords float engine (extraction gz float body.chunks (some body.ending)).records).2 ≠ [])
        (finishOf gz float false body) := by
  have hmatch := filtering_matches gz float engine cfg.gzipLevel outputFlushThreshold
    (extraction gz float body.chunks (some body.ending)).records
  have hkept : 0 < (filtering gz float engine cfg.gzipLevel outputFlushThreshold
      (extraction gz float body.chunks (some body.ending)).records).tally.kept ↔
      (filterRecords float engine (extraction gz float body.chunks (some body.ending)).records).2 ≠ [] := by
    rw [hmatch.tally, (filterRecords_tally _).kept, List.length_pos_iff]
  simp only [streamRun, streamRunAt, StreamEnv.good, Bool.false_eq_true, if_false]
  cases finishOf gz float false body with
  | recordsFound =>
    by_cases h : 0 < (filtering gz float engine cfg.gzipLevel outputFlushThreshold
        (extraction gz float body.chunks (some body.ending)).records).tally.kept
    · simp [h, hkept.mp h, streamVerdict, Verdict.of]
    · have hnil := mt hkept.mpr h
      simp only [h, if_false, streamVerdict, Verdict.of, hnil, decide_false, Bool.false_eq_true]
  | unrecognized => rfl
  | error failure => cases failure <;> rfl

/-- Buffer mode on an envelope. -/
lemma bufferRun_envelope {input text : Bytes} (hread : decompressCapped gz cfg input = .ok text)
    {records : List Bytes} (henv : envelopeFromSlice text = some records) :
    Verdict.of ((bufferRun gz float engine cfg false input).map Prod.fst) =
      some (if (filterRecords float engine records).2 ≠ [] then .written else .nothingKept) := by
  simp only [bufferRun, hread, ok_bind, henv]
  by_cases hnil : (filterRecords float engine records).2 = []
  · simp [hnil, Except.map, Verdict.of]
  · simp [hnil, Except.map, Verdict.of]

/-- Buffer mode on a text that is no envelope. -/
lemma bufferRun_other {input text : Bytes} (hread : decompressCapped gz cfg input = .ok text)
    (henv : envelopeFromSlice text = none) :
    Verdict.of ((bufferRun gz float engine cfg false input).map Prod.fst) =
      some (if (Value.fromSlice float text).isSome then .unrecognized else .json) := by
  simp only [bufferRun, hread, ok_bind, henv]
  cases Value.fromSlice float text <;> rfl

/-- What the sequence form is to the visitors: an envelope for the derived struct, an
unrecognized array for the streaming visitor. -/
lemma seqEnvelope_eq (items : List (Bytes × Lex)) :
    seqEnvelope (.arr items) = (envelopeOf (.arr items)).isSome := by
  match items with
  | [] => rfl
  | [(_, .arr inner)] => simp [seqEnvelope, envelopeOf, rawValues_isSome]
  | [(_, .null)] | [(_, .bool _)] | [(_, .num _)] | [(_, .str _)] | [(_, .obj _)] => rfl
  | (_, _) :: _ :: _ => simp [seqEnvelope, envelopeOf]

/-- The struct and the streaming visitor agree on everything but the sequence form. -/
lemma envelopeOf_of_topOf {v : Lex} {records : List Bytes} {found : Bool}
    (h : topOf float v = some (records, found)) :
    envelopeOf v = (if found then some records else none) ∨
      (seqEnvelope v = true ∧ found = false ∧ (envelopeOf v).isSome) := by
  cases v with
  | obj members =>
    refine .inl ?_
    cases found with
    | true => exact (membersOf_iff float members records).mp h
    | false =>
      cases henv : envelopeFields none members with
      | none => exact henv
      | some rs =>
        have := (membersOf_iff float members rs).mpr henv
        rw [topOf] at h
        simp [h] at this
  | arr items =>
    simp only [topOf, Option.some.injEq, Prod.mk.injEq] at h
    obtain ⟨-, rfl⟩ := h
    cases henv : envelopeOf (.arr items) with
    | none => exact .inl rfl
    | some rs => exact .inr ⟨by rw [seqEnvelope_eq, henv]; rfl, rfl, rfl⟩
  | _ =>
    rw [topOf] at h
    · obtain ⟨_, -, h⟩ := Option.map_eq_some_iff.mp h
      exact .inl (by rw [← (Prod.mk.inj h).2]; rfl)
    · simp
    · simp

lemma not_seqEnvelope {v : Lex} (h : envelopeOf v = none) : seqEnvelope v = false := by
  cases v with
  | arr items => rw [seqEnvelope_eq, h]; rfl
  | _ => rfl

lemma fromSlice_none {text : Bytes} {e : Fault} (h : scanDocument text = .error e) :
    Value.fromSlice float text = none := by
  simp [Value.fromSlice, Value.fromSliceAux, Tree.fromSlice, h]

lemma finishKind_error_eof (e : Fault) : finishKind none (.error e) .eof = .error .json := by
  cases e <;> rfl

lemma finishOf_eof (body : Body) (overread : Bool) (h : body.ending = .eof) :
    finishOf gz float overread body =
      finishKind none (extraction gz float body.chunks (some .eof)).result
        (textOf gz body.chunks (some .eof)).2 := by
  simp [finishOf, transportError, h]

/-- The verdict of stream mode on a complete text, from what the visitors make of its tree. -/
lemma streamVerdict_eof (text : Bytes) :
    streamVerdict ((filterRecords float engine (extract .eof float text).records).2 ≠ [])
        (finishKind none (extract .eof float text).result .eof) =
      match (scanDocument text).toOption.bind (topOf float) with
      | some (records, true) =>
        some (if (filterRecords float engine records).2 ≠ [] then .written else .nothingKept)
      | some (_, false) => some .unrecognized
      | none => some .json := by
  rw [← extract_eof, Sending.outcome]
  cases (extract .eof float text).result with
  | error e => rw [finishKind_error_eof]; rfl
  | ok found => cases found <;> simp [finishKind, streamVerdict]

variable (float engine) in
/-- On a complete text the verdicts agree exactly under `TextParity`. -/
lemma verdict_eq_iff {input text : Bytes} (hread : decompressCapped gz cfg input = .ok text) :
    Verdict.of ((bufferRun gz float engine cfg false input).map Prod.fst) =
        streamVerdict ((filterRecords float engine (extract .eof float text).records).2 ≠ [])
          (finishKind none (extract .eof float text).result .eof) ↔
      TextParity float text := by
  rw [streamVerdict_eof]
  cases hdoc : scanDocument text with
  | error e =>
    have henv : envelopeFromSlice text = none := by simp [envelopeFromSlice, hdoc]
    rw [bufferRun_other hread henv, fromSlice_none hdoc]
    simp [TextParity, hdoc]
  | ok v =>
    have henvdef : envelopeFromSlice text = envelopeOf v := by simp [envelopeFromSlice, hdoc]
    have hparity : TextParity float text ↔ seqEnvelope v = false ∧
        (envelopeOf v = none → (Value.fromSlice float text).isSome = surfaceDecodes float v) := by
      simp [TextParity, hdoc]
    rw [hparity, ← topOf_isSome]
    simp only [toOption_ok, Option.bind_some]
    cases htop : topOf float v with
    | none =>
      have henv : envelopeOf v = none := by
        cases v with
        | obj members =>
          cases henv : envelopeFields none members with
          | none => exact henv
          | some rs =>
            rw [topOf, (membersOf_iff float members rs).mpr henv] at htop
            simp at htop
        | arr items => simp [topOf] at htop
        | _ => rfl
      rw [bufferRun_other hread (henvdef.trans henv)]
      simp only [not_seqEnvelope henv, henv, Option.isSome_none, forall_const, true_and]
      cases (Value.fromSlice float text).isSome <;> simp
    | some r =>
      obtain ⟨records, found⟩ := r
      rcases envelopeOf_of_topOf htop with henv | ⟨hseq, rfl, hsome⟩
      · cases found with
        | true =>
          have hnot : seqEnvelope v = false := by
            cases v with
            | arr items => simp [topOf] at htop
            | _ => rfl
          rw [bufferRun_envelope hread (henvdef.trans henv)]
          simp [hnot, henv]
        | false =>
          have henv : envelopeOf v = none := henv
          rw [bufferRun_other hread (henvdef.trans henv)]
          simp only [not_seqEnvelope henv, henv, Option.isSome_some, forall_const, true_and]
          cases (Value.fromSlice float text).isSome <;> simp
      · obtain ⟨rs, hrs⟩ := Option.isSome_iff_exists.mp hsome
        rw [bufferRun_envelope hread (henvdef.trans hrs)]
        simp only [hseq]
        split_ifs <;> simp

end Facts

section Verdict
variable {gz : Gzip}

/-- The default settings at the lowest compression level. -/
def sampleProcessing : Processing :=
  ⟨.auto, 8388608, 134217728, 0, 1, 1⟩

/-- The engine of a ruleset without rules. -/
def passEngine : Engine := Engine.assemble []

/-- A text as one gzip member in one chunk. -/
def sampleBody (text : String) : Body where
  chunks := [storedMember text.toUTF8.toList]
  nonempty := by simp [storedMember, memberHeader]
  ending := .eof

/-- A top-level array that holds an array of records. -/
def nestedText : String := "[[\x7b\"eventName\":\"A\"\x7d]]"

def envelopeText : String := "\x7b\"Records\":[\x7b\"eventName\":\"A\"\x7d,\x7b\"eventName\":\"B\"\x7d]\x7d"

end Verdict

section Output
variable {gz : Gzip} {float : FloatParser} {engine : Engine} {cfg : Processing}

/-- What a run of buffer mode that writes looked like. -/
lemma bufferRun_written {compressFails : Bool} {input out : Bytes} {tally : RecordTally}
    (h : bufferRun gz float engine cfg compressFails input = .ok (.written (some out), tally)) :
    ∃ text records, decompressCapped gz cfg input = .ok text ∧ envelopeFromSlice text = some records ∧
      tally = (filterRecords float engine records).1 ∧
      out = gzipCompressChunked gz (envelopeBody (filterRecords float engine records).2) cfg.gzipLevel
        cfg.gzipChunks := by
  obtain ⟨text, hread, h⟩ := bind_ok_iff.mp h
  cases henv : envelopeFromSlice text with
  | none =>
    simp only [henv] at h
    split at h <;> simp at h
  | some records =>
    simp only [henv] at h
    split_ifs at h
    · simp at h
    · simp only [Except.ok.injEq, Prod.mk.injEq, Outcome.written.injEq, Option.some.injEq] at h
      exact ⟨text, records, hread, henv, h.2.symm, h.1.symm⟩

lemma decompressCapped_ok {input text : Bytes} (h : decompressCapped gz cfg input = .ok text) :
    gz.readToEnd input = (text, true) := by
  unfold decompressCapped at h
  simp only at h
  split_ifs at h with hlarge hintact
  simp only [Except.ok.injEq] at h
  exact Prod.ext h hintact

/-- The records of an envelope that stream mode found are those buffer mode reads. -/
lemma envelopeFromSlice_of_extract {text : Bytes}
    (h : (extract .eof float text).result = .ok true) :
    envelopeFromSlice text = some (extract .eof float text).records := by
  have hout : (extract .eof float text).outcome = some ((extract .eof float text).records, true) := by
    simp [Sending.outcome, h]
  rw [extract_eof] at hout
  obtain ⟨v, hdoc, htop⟩ := Option.bind_eq_some_iff.mp hout
  rw [envelopeFromSlice, hdoc, Option.bind_some]
  rcases envelopeOf_of_topOf htop with henv | ⟨-, hfalse, -⟩
  · exact henv
  · simp at hfalse

/-- The body stream mode commits is the filtered envelope as one member. -/
theorem streamRunAt_body (hgz : gz.Lawful) {threshold : ℕ} {env : StreamEnv} {body : Body} {out : Bytes}
    (h : (streamRunAt gz float engine cfg threshold env body).committed = some out) :
    ∃ text records, body.ending = .eof ∧ gz.readToEnd body.chunks.flatten = (text, true) ∧
      envelopeFromSlice text = some records ∧ (filterRecords float engine records).2 ≠ [] ∧
      (streamRunAt gz float engine cfg threshold env body).tally = (filterRecords float engine records).1 ∧
      out = gz.gzipCompress (envelopeBody (filterRecords float engine records).2) cfg.gzipLevel := by
  obtain ⟨hok, hkept, hout, htally, -⟩ := streamRunAt_committed h
  obtain ⟨text, hend, hread, hx⟩ := extraction_ok hgz hok
  rw [hx] at hok hkept hout htally
  have hmatch := filtering_matches gz float engine cfg.gzipLevel threshold
    (extract .eof float text).records
  refine ⟨text, _, Option.some.inj hend, hread, envelopeFromSlice_of_extract hok, ?_, ?_, ?_⟩
  · rw [hmatch.tally, (filterRecords_tally _).kept] at hkept
    exact List.ne_nil_of_length_pos hkept
  · rw [htally, hmatch.tally]
  · rw [hout, hmatch.close hgz]

/-- Where both modes write an object, they write the same envelope and count the same, at every
chunking of the input and every threshold of the output; with one chunk of output they write the
same bytes. -/
theorem output_parity (hgz : gz.Lawful) (float : FloatParser) (engine : Engine) (cfg : Processing)
    (threshold : ℕ) (env : StreamEnv) (body : Body) {compressFails : Bool} {out out' : Bytes}
    {tally : RecordTally}
    (hbuffer : bufferRun gz float engine cfg compressFails body.chunks.flatten =
      .ok (.written (some out), tally))
    (hstream : (streamRunAt gz float engine cfg threshold env body).committed = some out') :
    (∃ text, gz.readToEnd out = (text, true) ∧ gz.readToEnd out' = (text, true)) ∧
      (streamRunAt gz float engine cfg threshold env body).tally = tally ∧
      (cfg.gzipChunks = 1 → out = out') := by
  obtain ⟨text, records, hread, henv, rfl, rfl⟩ := bufferRun_written hbuffer
  obtain ⟨text', records', -, hread', henv', -, htally, rfl⟩ := streamRunAt_body hgz hstream
  have htext : text' = text := by
    rw [decompressCapped_ok hread] at hread'
    exact (Prod.mk.inj hread').1.symm
  subst htext
  rw [henv] at henv'
  cases henv'
  refine ⟨⟨_, readToEnd_chunked hgz _ _ _, hgz.readToEnd_compress _ _⟩, htally, ?_⟩
  intro hone
  unfold gzipCompressChunked
  have hchunks : max (min cfg.gzipChunks
      ((envelopeBody (filterRecords float engine records).2).length / minChunkBytes)) 1 = 1 := by
    rw [hone]
    omega
  simp only [hchunks, if_true]

theorem output_parity_envelope :
    ∃ out', (streamRunAt storedGzip (fun _ => none) passEngine sampleProcessing 16 (.good 60)
        (sampleBody envelopeText)).committed = some out' ∧
      storedMember envelopeText.toUTF8.toList = out' := by
  have hbuffer : bufferRun storedGzip (fun _ => none) passEngine sampleProcessing false
      (sampleBody envelopeText).chunks.flatten =
        .ok (.written (some (storedMember envelopeText.toUTF8.toList)), ⟨2, 2, 0, 0⟩) := by
    decide +kernel
  obtain ⟨out', hstream⟩ : ∃ out', (streamRunAt storedGzip (fun _ => none) passEngine sampleProcessing
      16 (.good 60) (sampleBody envelopeText)).committed = some out' :=
    Option.isSome_iff_exists.mp (by decide +kernel)
  exact ⟨out', hstream, (output_parity storedGzip_lawful _ _ _ _ _ _ hbuffer hstream).2.2 rfl⟩

end Output

end CloudTrailFilter.Process
