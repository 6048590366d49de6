import CloudTrailFilter.Process.Commit

/-!
# How far the pump reads

The pump reads on until its source ends or it finds the extraction task gone, and it finds that out only
when it has the next chunk in its hand. So if the parser gives up after some chunks, the pump has read one
more of them, where there is one. How far ahead of the parser it was is up to the schedule, and under one
of them it was not ahead at all.
-/

namespace CloudTrailFilter.Process
open CloudTrailFilter.Json CloudTrailFilter.Filter CloudTrailFilter.Concurrency

section Position
variable {gz : Gzip} {float : FloatParser} {engine : Engine} {cfg : Processing} {threshold n : ℕ}
  {body : Body} {s s' : StreamState gz}

/-- A pump that has read the first `n` chunks and got `handed` of its messages through. -/
def Pump.At (body : Body) (n handed : ℕ) : Pump → Prop
  | .reading rest => rest = body.chunks.drop n ∧ handed = n
  | .sending (.ok _) rest => rest = body.chunks.drop n ∧ handed + 1 = n
  | .sending (.error _) _ => n = body.chunks.length
  | .done => n = body.chunks.length ∨ handed < n

/-- The pump has read the first `n` chunks. -/
structure StreamState.ReadTo (body : Body) (n : ℕ) (s : StreamState gz) : Prop where
  le : n ≤ body.chunks.length
  bytesIn : s.bytesIn = (body.chunks.take n).flatten.length
  pump : s.pump.At body n s.input.log.length

lemma take_succ_flatten {chunk : Bytes} (h : body.chunks[n]? = some chunk) :
    (body.chunks.take (n + 1)).flatten = (body.chunks.take n).flatten ++ chunk := by
  rw [List.take_add_one, h, List.flatten_append, Option.toList_some, List.flatten_singleton]

lemma pumpStep_readTo (h : s.ReadTo body n) (hs : pumpStep body s = some s') : ∃ n', s'.ReadTo body n' := by
  obtain ⟨hle, hbytes, hat⟩ := h
  unfold pumpStep at hs
  split at hs
  · rename_i chunk rest hpump
    cases hs
    rw [hpump] at hat
    obtain ⟨hrest, hhanded⟩ := hat
    have hlt : n < body.chunks.length := by
      have hlen := congrArg List.length hrest
      simp only [List.length_cons, List.length_drop] at hlen
      omega
    rw [List.drop_eq_getElem_cons hlt, List.cons.injEq] at hrest
    refine ⟨n + 1, hlt, ?_, hrest.2, congrArg (· + 1) hhanded⟩
    rw [take_succ_flatten (hrest.1 ▸ List.getElem?_eq_getElem hlt), List.length_append, ← hbytes]
  · rename_i hpump
    rw [hpump] at hat
    have hall : n = body.chunks.length := by
      have hlen := congrArg List.length hat.1
      simp only [List.length_nil, List.length_drop] at hlen
      omega
    split at hs
    · cases hs
      exact ⟨n, hle, hbytes, .inl hall⟩
    · cases hs
      exact ⟨n, hle, hbytes, hall⟩
  · rename_i msg rest hpump
    rw [hpump] at hat
    split at hs
    · cases hs
    · cases hs
      refine ⟨n, hle, hbytes, ?_⟩
      cases msg with
      | ok chunk => exact .inr (Nat.lt_of_succ_le hat.2.le)
      | error message => exact .inl hat
    · rename_i input hsend
      have hlog : input.log.length = s.input.log.length + 1 := by
        rw [(Channel.grew_of_send hsend).log, List.length_append, List.length_singleton]
      cases msg with
      | ok chunk =>
        cases hs
        exact ⟨n, hle, hbytes, hat.1, hlog.trans hat.2⟩
      | error message =>
        cases hs
        exact ⟨n, hle, hbytes, .inl hat⟩
  · cases hs

/-- What a step of another party leaves as it was. -/
structure LeavesPump (s s' : StreamState gz) : Prop where
  pump : s'.pump = s.pump
  bytesIn : s'.bytesIn = s.bytesIn
  log : s'.input.log = s.input.log

lemma LeavesPump.readTo (h : LeavesPump s s') (hs : s.ReadTo body n) : s'.ReadTo body n :=
  ⟨hs.le, h.bytesIn.trans hs.bytesIn, by rw [h.pump, h.log]; exact hs.pump⟩

lemma extractStep_leaves {askInput : Bool} (hs : extractStep float askInput s = some s') : LeavesPump s s' := by
  unfold extractStep at hs
  simp only at hs
  split at hs
  · split at hs
    · split at hs
      · cases hs
        exact ⟨rfl, rfl, rfl⟩
      · cases hs
    · split at hs
      · cases hs
        exact ⟨rfl, rfl, rfl⟩
      · split at hs
        · cases hs
          exact ⟨rfl, rfl, rfl⟩
        · split at hs
          · cases hs
          · cases hs
            exact ⟨rfl, rfl, rfl⟩
  · split at hs
    · cases hs
    · rename_i hrecv
      cases hs
      exact ⟨rfl, rfl, (Channel.took_of_recv hrecv).log⟩
    · rename_i hrecv
      cases hs
      exact ⟨rfl, rfl, (Channel.took_of_recv hrecv).log⟩
    · cases hs
      exact ⟨rfl, rfl, rfl⟩
  · split at hs
    · cases hs
    · cases hs
      exact ⟨rfl, rfl, rfl⟩
    · cases hs
      exact ⟨rfl, rfl, rfl⟩
  · split at hs
    · cases hs
    · cases hs
      exact ⟨rfl, rfl, rfl⟩
    · cases hs
      exact ⟨rfl, rfl, rfl⟩
  · cases hs
  · cases hs

lemma LeavesPump.setBlock (h : LeavesPump s s') (block : Block gz) : LeavesPump s (setBlock s' block) := by
  obtain ⟨hpump, hbytes, hlog⟩ := h
  unfold Process.setBlock
  split <;> exact ⟨hpump, hbytes, hlog⟩

lemma LeavesPump.refl (s : StreamState gz) : LeavesPump s s := ⟨rfl, rfl, rfl⟩

lemma handOver_leaves {msg : ByteMsg} {next : BlockPhase} (hs : handOver s msg next = some s') : LeavesPump s s' := by
  unfold handOver at hs
  split at hs
  · cases hs
  · cases hs
    exact (LeavesPump.refl s).setBlock _
  · rename_i output _
    cases hs
    have houtput : LeavesPump s { s with output := output } := ⟨rfl, rfl, rfl⟩
    exact houtput.setBlock _

lemma blockStep_leaves {fault : Option EncoderCall} (hs : blockStep float engine threshold fault s = some s') :
    LeavesPump s s' := by
  unfold blockStep at hs
  split at hs
  · split at hs
    · cases hs
      exact (LeavesPump.refl s).setBlock _
    · cases hs
      exact (LeavesPump.refl s).setBlock _
    · cases hs
  · split at hs
    · cases hs
    · split_ifs at hs
      cases hs
      exact (LeavesPump.refl s).setBlock _
    · rename_i raw _
      obtain ⟨block, -, rfl⟩ := Option.map_eq_some_iff.mp hs
      have hraw : LeavesPump s { s with raw := raw } := ⟨rfl, rfl, rfl⟩
      exact hraw.setBlock block
    · rename_i raw _
      obtain ⟨block, -, rfl⟩ := Option.map_eq_some_iff.mp hs
      have hraw : LeavesPump s { s with raw := raw } := ⟨rfl, rfl, rfl⟩
      exact hraw.setBlock block
  · split_ifs at hs
    exact handOver_leaves hs
  · split_ifs at hs
    exact handOver_leaves hs
  · split_ifs at hs
    exact handOver_leaves hs
  · cases hs

lemma uploadReadStep_leaves (hs : uploadReadStep s = some s') : LeavesPump s s' := by
  unfold uploadReadStep at hs
  split at hs
  · split at hs
    · cases hs
    all_goals
      cases hs
      exact ⟨rfl, rfl, rfl⟩
  · cases hs

lemma uploadReturnStep_leaves {error : Option StoreError} (hs : uploadReturnStep error s = some s') :
    LeavesPump s s' := by
  unfold uploadReturnStep at hs
  split at hs
  · cases hs
    exact ⟨rfl, rfl, rfl⟩
  · cases hs
  · cases hs
  · cases hs
    exact ⟨rfl, rfl, rfl⟩

lemma panicStep_leaves (hs : panicStep s = some s') : LeavesPump s s' := by
  unfold panicStep at hs
  split at hs
  · cases hs
  · cases hs
  · cases hs
    exact ⟨rfl, rfl, rfl⟩

/-- In every reachable state the pump has read some first chunks of the body, and `bytesIn` counts them. -/
theorem reachable_readTo (h : Reachable (streamStep float engine threshold body) (.start gz cfg body) s) :
    ∃ n, s.ReadTo body n := by
  induction h with
  | start => exact ⟨0, Nat.zero_le _, rfl, rfl, rfl⟩
  | step action _ hs ih =>
    obtain ⟨n, hread⟩ := ih
    cases action with
    | pump => exact pumpStep_readTo hread hs
    | extract askInput => exact ⟨n, (extractStep_leaves hs).readTo hread⟩
    | panic => exact ⟨n, (panicStep_leaves hs).readTo hread⟩
    | block fault => exact ⟨n, (blockStep_leaves hs).readTo hread⟩
    | uploadRead => exact ⟨n, (uploadReadStep_leaves hs).readTo hread⟩
    | uploadReturn error => exact ⟨n, (uploadReturnStep_leaves hs).readTo hread⟩

end Position

section GivingUp
variable {gz : Gzip} {float : FloatParser} {engine : Engine} {cfg : Processing} {threshold k : ℕ}
  {body : Body} {s : StreamState gz}

/-- The parser is through with the first `k` chunks of a body, whatever is to follow: their text is not
JSON, or they are not gzip data. -/
def GivesUp (gz : Gzip) (float : FloatParser) (body : Body) (k : ℕ) : Prop :=
  (extraction gz float (body.chunks.take k) none).result = .error .malformed ∨
    (textOf gz (body.chunks.take k) none).2 = .damaged

/-- Before the end of the input the task is through exactly where the parser gives up. -/
lemma starving_eq_false_iff (hgz : gz.Lawful) {x : Extractor} (hend : x.ending = none)
    (hchunks : x.chunks = body.chunks.take k) : x.starving gz float = false ↔ GivesUp gz float body k := by
  have hresult : x.yield gz float = extraction gz float (body.chunks.take k) none := by
    rw [Extractor.yield, hend, hchunks]
  have htext : x.textEnd gz = (textOf gz (body.chunks.take k) none).2 := by
    rw [Extractor.textEnd, hend, hchunks]
  have hopen : (textOf gz (body.chunks.take k) none).2 = .pending ∨
      (textOf gz (body.chunks.take k) none).2 = .damaged := by
    simp only [textOf]
    split_ifs <;> simp
  unfold GivesUp
  simp only [Extractor.starving, hresult, htext, decide_eq_false_iff_not]
  cases hres : (extraction gz float (body.chunks.take k) none).result with
  | ok found =>
    obtain ⟨_, heof, -⟩ := extraction_ok hgz hres
    cases heof
  | error fault =>
    rcases hopen with hopen | hopen <;> cases fault <;> simp [hopen]

/-- What the task ends with where the parser gives up. -/
lemma failure_of_givesUp (hgz : gz.Lawful) (h : GivesUp gz float body k) :
    ∃ failure : ParseFailure, failure.toError.isUnparsableSource = true ∧
      finishKind none (extraction gz float (body.chunks.take k) none).result
        (textOf gz (body.chunks.take k) none).2 = .error failure := by
  cases hres : (extraction gz float (body.chunks.take k) none).result with
  | ok found =>
    obtain ⟨_, heof, -⟩ := extraction_ok hgz hres
    cases heof
  | error fault =>
    cases fault with
    | malformed => exact ⟨.json, rfl, rfl⟩
    | starved =>
      rcases h with h | h
      · rw [hres] at h
        cases h
      · exact ⟨.gzip, rfl, by rw [h]; rfl⟩

/-- Nothing that follows makes an envelope of it. -/
lemma GivesUp.not_ok (hgz : gz.Lawful) (h : GivesUp gz float body k) (found : Bool) :
    (extraction gz float body.chunks (some body.ending)).result ≠ .ok found := by
  have hall := List.take_append_drop k body.chunks
  intro hok
  rcases h with h | h
  · have hext : Extends id (extraction gz float (body.chunks.take k) none)
        (extraction gz float (body.chunks.take k ++ body.chunks.drop k) (some body.ending)) :=
      extraction_extends hgz _ _ _
    have hagree := hext.1
    rw [hall, h, hok] at hagree
    cases hagree
  · have hdamaged := textOf_damaged_append hgz (body.chunks.drop k) body.ending h
    rw [hall] at hdamaged
    obtain ⟨text, -, -, -⟩ := extraction_ok hgz hok
    rw [extraction, hdamaged, h] at hok
    exact extract_cut_ne_ok float _ found hok

/-- More chunks are not shorter. -/
lemma take_flatten_length_le {a b : ℕ} (h : a ≤ b ∨ b = body.chunks.length) :
    (body.chunks.take a).flatten.length ≤ (body.chunks.take b).flatten.length := by
  have hpre : body.chunks.take a <+: body.chunks.take b := by
    rcases h with h | rfl
    · exact List.take_prefix_take_left h
    · rw [List.take_length]
      exact List.take_prefix a body.chunks
  exact hpre.sublist.flatten.length_le

/-- A run that fails publishes what its pump has read. -/
lemma joined_metrics_of_error {run : StreamRun} (hjoined : s.joined engine = some run) {e : CoreError}
    (hresult : run.result = .error e) : run.metrics = Metrics.addBytesIn s.bytesIn := by
  unfold StreamState.joined at hjoined
  split at hjoined
  · split_ifs at hjoined
    cases hjoined
    unfold joinedRun at hresult ⊢
    simp only at hresult ⊢
    split at hresult
    · rfl
    · cases hresult
    · cases hresult
  · cases hjoined

/-- A run that fails on its source does so for the failure that the block was told of. -/
lemma received_of_unparsable (hinv : StreamInv float engine cfg threshold body s) {result : BlockResult}
    {upload : Except StoreError Unit} (hblock : s.block.phase = .done result) {e : CoreError}
    (hresult : (joinedRun engine s result upload).result = .error e) (he : e.isUnparsableSource = true) :
    ∃ (records : List Bytes) (failure : ParseFailure),
      s.raw.received = records.map .record ++ [.finished (.error failure)] ∧ failure.toError = e := by
  have hin := hinv.blockIn
  simp only [BlockIn, hblock] at hin
  unfold joinedRun joinedResult at hresult
  by_cases hpanic : s.extractor.phase = .panicked
  · simp only [hpanic, decide_true, if_true, Except.error.injEq] at hresult
    subst hresult
    cases he
  · simp only [hpanic, decide_false, Bool.false_eq_true, if_false] at hresult
    cases hin with
    | written records hr hst hkept =>
      cases upload with
      | ok => simp [writtenResult] at hresult
      | error e' =>
        simp only [writtenResult, Except.error.injEq] at hresult
        subst hresult
        cases he
    | nothingKept records hr hst hkept => simp at hresult
    | unrecognized records hr => simp at hresult
    | failed records failure hr =>
      simp only [Except.error.injEq] at hresult
      exact ⟨records, failure, hr, hresult⟩
    | compression =>
      simp only [Except.error.injEq] at hresult
      subst hresult
      cases he
    | vanished =>
      simp only [Except.error.injEq] at hresult
      subst hresult
      cases he

/-- A run that fails on its source has read it to its end, or the parser gave up and the pump has read
one chunk more. -/
theorem bytesIn_of_unparsable (hgz : gz.Lawful)
    (hreach : Reachable (streamStep float engine threshold body) (.start gz cfg body) s) {run : StreamRun}
    (hjoined : s.joined engine = some run) {e : CoreError} (hresult : run.result = .error e)
    (he : e.isUnparsableSource = true) :
    s.bytesIn ≤ body.bytes.length ∧
      (body.ending = .eof ∧ s.bytesIn = body.bytes.length ∨
        ∃ k, GivesUp gz float body k ∧ (body.chunks.take (k + 1)).flatten.length ≤ s.bytesIn) := by
  have hinv := reachable_inv hgz hreach
  obtain ⟨n, hn, hbytes, hat⟩ := reachable_readTo hreach
  have hle : s.bytesIn ≤ body.bytes.length := by
    have := hinv.pump.read
    omega
  unfold StreamState.joined at hjoined
  split at hjoined
  · rename_i result upload hpump hblock hupload
    split_ifs at hjoined
    cases hjoined
    rw [hpump] at hat
    obtain ⟨records, failure, hreceived, rfl⟩ := received_of_unparsable hinv hblock hresult he
    obtain ⟨-, -, hsettled⟩ := settled_of_received hinv hreceived
    have hin := hinv.extractorIn
    refine ⟨hle, ?_⟩
    cases hend : s.extractor.ending with
    | none =>
      -- the task did not wait for the end
      have hchunks := List.prefix_iff_eq_take.mp (hin.soFar hend)
      refine .inr ⟨_, (starving_eq_false_iff hgz hend hchunks).mp hsettled.fed, ?_⟩
      have hhanded : s.extractor.chunks.length ≤ s.input.log.length := by
        have hlen := s.input.received_prefix_log.length_le
        rw [hin.received, hend] at hlen
        simpa using hlen
      rw [hbytes]
      refine take_flatten_length_le ?_
      rcases hat with hall | hmore
      · exact .inr hall
      · exact .inl (hhanded.trans_lt hmore)
    | some ending =>
      obtain ⟨hchunks, rfl⟩ := hin.known ending hend
      cases hb : body.ending with
      | eof => exact .inl ⟨rfl, read_of_eof hinv (hend.trans (congrArg some hb))⟩
      | failed message =>
        -- the task met the failure of the reader, which is not one of the source
        have hkind := hsettled.kind
        rw [Extractor.transportError, hend, hb] at hkind
        cases hres : (s.extractor.yield gz float).result with
        | ok found =>
          rw [hres] at hkind
          cases found <;> cases hkind
        | error fault =>
          rw [hres] at hkind
          cases fault <;> cases hkind <;> cases he
  · cases hjoined

/-- The parties have passed `k` chunks on to the parser and `sent` of their records to the upload, and
there is nothing on the way between them. -/
structure Quiet (body : Body) (k sent : ℕ) (s : StreamState gz) : Prop where
  input : s.input.Idle
  raw : s.raw.Idle
  output : s.output.Idle
  pump : s.pump = .reading (body.chunks.drop k)
  bytesIn : s.bytesIn = (body.chunks.take k).flatten.length
  extractor : s.extractor = ⟨body.chunks.take k, none, sent, false, .working⟩
  block : s.block.phase = .receiving
  upload : s.upload = ⟨s.upload.bytes, none, .reading⟩

variable (float engine cfg threshold body) in
lemma exists_quiet_start :
    ∃ s : StreamState gz, Reachable (streamStep float engine threshold body) (.start gz cfg body) s ∧ Quiet body 0 0 s := by
  refine ⟨_, .step (.block none) .start rfl, ?_⟩
  exact ⟨Channel.idle_empty, Channel.idle_empty, Channel.idle_empty, rfl, rfl, rfl, rfl, rfl⟩

/-- The next chunk goes to the parser. -/
lemma Quiet.feed (hreach : Reachable (streamStep float engine threshold body) (.start gz cfg body) s)
    (h : Quiet body k 0 s) {chunk : Bytes} (hget : body.chunks[k]? = some chunk) :
    ∃ s', Reachable (streamStep float engine threshold body) (.start gz cfg body) s' ∧ Quiet body (k + 1) 0 s' := by
  have hdrop : body.chunks.drop k = chunk :: body.chunks.drop (k + 1) := by
    obtain ⟨hlt, hchunk⟩ := List.getElem?_eq_some_iff.mp hget
    rw [List.drop_eq_getElem_cons hlt, hchunk]
  have htake : body.chunks.take k ++ [chunk] = body.chunks.take (k + 1) := by
    rw [List.take_add_one, hget, Option.toList_some]
  obtain ⟨mid, input, hsend, hrecv, hidle⟩ := h.input.pass (.ok chunk) (by decide)
  let fed : StreamState gz := { s with
    input := input
    pump := .reading (body.chunks.drop (k + 1))
    bytesIn := s.bytesIn + chunk.length
    extractor := ⟨body.chunks.take (k + 1), none, 0, false, .working⟩ }
  refine ⟨fed, hreach.run [.pump, .pump, .extract true, .extract false] ?_, ?_⟩
  · simp [runActions, streamStep, pumpStep, extractStep, h.pump, hdrop, hsend, h.extractor, hrecv, htake, fed]
  · refine ⟨hidle, h.raw, h.output, rfl, ?_, rfl, h.block, h.upload⟩
    rw [take_succ_flatten hget, List.length_append, ← h.bytesIn]

/-- The next record goes to the block, and what the block hands over to the upload. -/
lemma Quiet.deliver (hreach : Reachable (streamStep float engine threshold body) (.start gz cfg body) s)
    {sent : ℕ} (h : Quiet body k sent s) {text : Bytes}
    (hget : (extraction gz float (body.chunks.take k) none).records[sent]? = some text) :
    ∃ s', Reachable (streamStep float engine threshold body) (.start gz cfg body) s' ∧ Quiet body k (sent + 1) s' := by
  obtain ⟨mid, raw, hsend, hrecv, hidle⟩ := h.raw.pass (.record text) (by decide)
  let next := s.block.st.filterRecord float engine text
  let told : StreamState gz := { s with
    raw := raw
    extractor := ⟨body.chunks.take k, none, sent + 1, false, .working⟩
    block := ⟨next.drain threshold, if threshold ≤ next.sink.length then .flushing next.sink else .receiving⟩ }
  have htold : Reachable (streamStep float engine threshold body) (.start gz cfg body) told := by
    refine hreach.run [.extract false, .extract false, .block none] ?_
    have hyield : ∀ phase, (Extractor.yield gz float ⟨body.chunks.take k, none, sent, false, phase⟩).records[sent]? =
        some text :=
      fun _ => hget
    have hset : setBlock { s with
        raw := raw
        extractor := ⟨body.chunks.take k, none, sent + 1, false, .working⟩ } told.block = told := by
      unfold setBlock
      split
      · rename_i result hdone
        simp only [told] at hdone
        split_ifs at hdone
      · rfl
    simp [runActions, streamStep, extractStep, blockStep, recordStep, h.extractor, h.block, hyield, hsend, hrecv]
    exact hset
  by_cases hflush : threshold ≤ next.sink.length
  · obtain ⟨mid', output, hsend', hrecv', hidle'⟩ := h.output.pass (.ok next.sink) (by decide)
    let flushed : StreamState gz := { told with
      output := output
      block := ⟨next.drain threshold, .receiving⟩
      upload := ⟨s.upload.bytes ++ next.sink, none, .reading⟩ }
    refine ⟨flushed, htold.run [.block none, .uploadRead] ?_, ?_⟩
    · have hphase : told.block.phase = .flushing next.sink := if_pos hflush
      have hsent : told.output.send (.ok next.sink) = .sent mid' := hsend'
      have hupload : told.upload = ⟨s.upload.bytes, none, .reading⟩ := h.upload
      simp [runActions, streamStep, blockStep, handOver, setBlock, uploadReadStep, hphase, hsent, hupload, hrecv']
      rfl
    · exact ⟨h.input, hidle, hidle', h.pump, h.bytesIn, rfl, rfl, rfl⟩
  · exact ⟨told, htold, h.input, hidle, h.output, h.pump, h.bytesIn, rfl, if_neg hflush, h.upload⟩

/-- A pump whose reader is gone reads one chunk more, if there is one. -/
lemma pump_stops (hpump : s.pump = .reading (body.chunks.drop k))
    (hbytes : s.bytesIn = (body.chunks.take k).flatten.length) (hgone : s.input.receiverGone = true) :
    ∃ actions, runActions (streamStep float engine threshold body) s actions =
      some { s with
        input := s.input.dropSender, pump := .done, bytesIn := (body.chunks.take (k + 1)).flatten.length } := by
  have hrefused : ∀ msg, s.input.send msg = .refused := fun msg => if_pos hgone
  rcases Nat.lt_or_ge k body.chunks.length with hlt | hall
  · have hdrop := List.drop_eq_getElem_cons hlt
    refine ⟨[.pump, .pump], ?_⟩
    rw [take_succ_flatten (List.getElem?_eq_getElem hlt), List.length_append, ← hbytes]
    simp only [runActions, streamStep, pumpStep, hpump, hdrop, Option.bind_some, hrefused]
    rfl
  · have hdrop : body.chunks.drop k = [] := List.drop_eq_nil_of_le hall
    have htake : (body.chunks.take (k + 1)).flatten.length = s.bytesIn := by
      rw [hbytes, List.take_of_length_le hall, List.take_of_length_le (hall.trans (Nat.le_succ k))]
    rw [htake]
    cases hending : body.ending with
    | eof =>
      refine ⟨[.pump], ?_⟩
      simp only [runActions, streamStep, pumpStep, hpump, hdrop, hending, Option.bind_some]
      rfl
    | failed message =>
      refine ⟨[.pump, .pump], ?_⟩
      simp only [runActions, streamStep, pumpStep, hpump, hdrop, hending, Option.bind_some, hrefused]
      rfl

/-- The parser gives up, the block aborts the upload and the pump finds the task gone. -/
lemma Quiet.giveUp (hgz : gz.Lawful)
    (hreach : Reachable (streamStep float engine threshold body) (.start gz cfg body) s)
    (h : Quiet body k (extraction gz float (body.chunks.take k) none).records.length s)
    (hgives : GivesUp gz float body k) :
    ∃ s' run, Reachable (streamStep float engine threshold body) (.start gz cfg body) s' ∧
      s'.joined engine = some run ∧ (∃ e, run.result = .error e ∧ e.isUnparsableSource = true) ∧
      run.metrics = Metrics.addBytesIn (body.chunks.take (k + 1)).flatten.length := by
  obtain ⟨failure, hunparsable, hkind⟩ := failure_of_givesUp hgz hgives
  obtain ⟨mid, hsend, hqueue⟩ := h.raw.send (.finished (.error failure)) (by decide)
  obtain ⟨raw, hrecv, -⟩ := Channel.recv_of_cons (show mid.dropSender.queue = _ from hqueue)
  obtain ⟨mid', hsend', hqueue'⟩ := h.output.send (.error "aborting: parse failure") (by decide)
  obtain ⟨output, hrecv', -⟩ := Channel.recv_of_cons (show mid'.dropSender.queue = _ from hqueue')
  -- the task
  let x : Extractor :=
    ⟨body.chunks.take k, none, (extraction gz float (body.chunks.take k) none).records.length, false, .done⟩
  let told : StreamState gz := { s with input := s.input.dropReceiver, raw := mid.dropSender, extractor := x }
  have htold : Reachable (streamStep float engine threshold body) (.start gz cfg body) told := by
    refine hreach.run [.extract false, .extract false] ?_
    have hyield : ∀ phase, Extractor.yield gz float { x with phase := phase } =
        extraction gz float (body.chunks.take k) none := fun _ => rfl
    have hnone : (extraction gz float (body.chunks.take k) none).records[x.sent]? = none :=
      List.getElem?_eq_none le_rfl
    have hfed : Extractor.starving gz float { x with phase := .working } = false :=
      (starving_eq_false_iff hgz rfl rfl).mpr hgives
    have hfinish : finishKind (Extractor.transportError { x with phase := .working })
        (extraction gz float (body.chunks.take k) none).result
        (Extractor.textEnd gz { x with phase := .working }) = .error failure := hkind
    have hx : s.extractor = { x with phase := .working } := h.extractor
    simp [runActions, streamStep, extractStep, hx, hyield, hnone, hfed, hfinish, hsend]
    rfl
  -- the block and the upload
  let aborted : BlockResult := .error failure.toError
  let ended : StreamState gz := { told with
    raw := raw.dropReceiver
    output := output.dropReceiver
    block := ⟨s.block.st, .done aborted⟩
    upload := ⟨s.upload.bytes, none, .done (.error (.backend "aborted"))⟩ }
  have hended : Reachable (streamStep float engine threshold body) (.start gz cfg body) ended := by
    refine htold.run [.block none, .block none, .uploadRead, .uploadReturn (some (.backend "aborted"))] ?_
    have hblock : told.block.phase = .receiving := h.block
    have hraw : told.raw.recv = .got (.finished (.error failure)) raw := hrecv
    have houtput : told.output.send (.error "aborting: parse failure") = .sent mid' := hsend'
    have hupload : told.upload = ⟨s.upload.bytes, none, .reading⟩ := h.upload
    simp [runActions, streamStep, blockStep, finishStep, handOver, setBlock, uploadReadStep, uploadReturnStep, hblock,
      hraw, houtput, hupload, hrecv']
    rfl
  obtain ⟨actions, hstops⟩ := pump_stops h.pump h.bytesIn (s := ended) rfl
  refine ⟨_, _, hended.run actions hstops, rfl, ⟨_, rfl, hunparsable⟩, rfl⟩

variable (float engine cfg threshold) in
/-- Every number of first chunks can be passed on to the parser with nothing on the way behind them. -/
lemma exists_quiet (hk : k ≤ body.chunks.length) :
    ∃ s : StreamState gz, Reachable (streamStep float engine threshold body) (.start gz cfg body) s ∧ Quiet body k 0 s := by
  induction k with
  | zero => exact exists_quiet_start float engine cfg threshold body
  | succ k ih =>
    obtain ⟨s, hreach, hquiet⟩ := ih (Nat.le_of_succ_le hk)
    exact hquiet.feed hreach (List.getElem?_eq_getElem hk)

variable (engine cfg threshold) in
/-- Where the parser can give up after `k` chunks, some run reads just one chunk more and fails on its source. -/
theorem exists_unparsable (hgz : gz.Lawful) (hgives : GivesUp gz float body k) :
    ∃ s run, Reachable (streamStep float engine threshold body) (.start gz cfg body) s ∧
      s.joined engine = some run ∧ (∃ e, run.result = .error e ∧ e.isUnparsableSource = true) ∧
      run.metrics = Metrics.addBytesIn (body.chunks.take (k + 1)).flatten.length := by
  wlog hk : k ≤ body.chunks.length generalizing k
  · -- there are no more chunks than there are
    have hall : ∀ n, body.chunks.length ≤ n → body.chunks.take n = body.chunks.take body.chunks.length := by
      intro n hn
      rw [List.take_of_length_le hn, List.take_length]
    have hlt : body.chunks.length ≤ k := (not_le.mp hk).le
    rw [GivesUp, hall k hlt] at hgives
    obtain ⟨s, run, hreach, hjoined, hfails, hmetrics⟩ := this hgives le_rfl
    refine ⟨s, run, hreach, hjoined, hfails, ?_⟩
    rw [hmetrics, hall (k + 1) (hlt.trans (Nat.le_succ k)), hall _ (Nat.le_succ _)]
  have hdelivered : ∀ sent ≤ (extraction gz float (body.chunks.take k) none).records.length, ∃ s : StreamState gz,
      Reachable (streamStep float engine threshold body) (.start gz cfg body) s ∧ Quiet body k sent s := by
    intro sent
    induction sent with
    | zero => exact fun _ => exists_quiet float engine cfg threshold hk
    | succ sent ih =>
      intro hsent
      obtain ⟨s, hreach, hquiet⟩ := ih (Nat.le_of_succ_le hsent)
      exact hquiet.deliver hreach (List.getElem?_eq_getElem hsent)
  obtain ⟨s, hreach, hquiet⟩ := hdelivered _ le_rfl
  exact hquiet.giveUp hgz hreach hgives

end GivingUp

end CloudTrailFilter.Process
