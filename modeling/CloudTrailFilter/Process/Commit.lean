import CloudTrailFilter.Process.Invariant
import CloudTrailFilter.Process.Parity

/-!
# All or nothing

The rest of the preservation, for the processing block and the upload, and what follows for
every interleaving: an object is committed only whole, `stream_run` reports it exactly then,
and a run that has ended is one of `streamRunAt`.
-/

namespace CloudTrailFilter.Process
open CloudTrailFilter.Json CloudTrailFilter.Filter CloudTrailFilter.Concurrency

section BlockSteps
variable {gz : Gzip} {float : FloatParser} {engine : Engine} {cfg : Processing} {threshold : ℕ}
  {body : Body} {s s' : StreamState gz}

lemma filterRecord_drained (st : Filtering gz) (text : Bytes) :
    (st.filterRecord float engine text).drained = st.drained := by
  unfold Filtering.filterRecord
  split <;> simp

lemma Filtering.close_drained (st : Filtering gz) :
    st.close.drained = if st.tail = [] then st.drained else st.drained ++ [st.tail] := by
  unfold Filtering.close Filtering.tail
  simp only
  split_ifs <;> rfl

lemma filtering_concat (records : List Bytes) (text : Bytes) :
    filtering gz float engine cfg.gzipLevel threshold (records ++ [text]) =
      ((filtering gz float engine cfg.gzipLevel threshold records).filterRecord float engine text).drain
        threshold := by
  simp [filtering, Filtering.step]

/-- The processing block moves on, possibly to its end. A block that still runs has not been
seen to end by the upload. -/
lemma StreamInv.moveBlock (h : StreamInv float engine cfg threshold body s)
    (hrun : s.block.phase.running = true) (raw : Channel StreamMsg recordChannelCapacity)
    (output : Channel ByteMsg outputChannelCapacity) (block : Block gz)
    (hout : ExtractorOut float gz raw s.extractor) (hraw : raw.receiverGone = s.raw.receiverGone)
    (hin : BlockIn float engine cfg threshold raw.received block) (hbo : BlockOut output block)
    (hrecv : output.received = s.output.received) (hgone : output.receiverGone = s.output.receiverGone)
    (hopen : output.senderGone = s.output.senderGone)
    (hvanished : (∃ message, block.phase = .aborting message (.error (.internal .producerVanished))) ∨
      block.phase = .done (.error (.internal .producerVanished)) → s.extractor.phase = .panicked) :
    StreamInv float engine cfg threshold body (setBlock { s with raw := raw, output := output } block) := by
  have hnotSealed : ∀ bytes, ¬ Sealed s.block bytes := by
    rintro bytes ⟨hdone, -⟩
    simp [hdone, BlockPhase.running] at hrun
  have hlisten : raw.receiverGone = false := hraw.trans (h.blockRuns hrun)
  have hsending : output.senderGone = false := by
    rw [hopen]
    by_contra hdone
    simp [h.blockDone (by simpa using hdone)] at hrun
  have hupload : UploadIn output s.upload := by
    have := h.uploadIn
    unfold UploadIn at this ⊢
    rwa [hrecv]
  have hreads : (∀ r, s.upload.phase ≠ .done r) → output.receiverGone = false := by
    rw [hgone]
    exact h.uploadReads
  have hnotEof : s.upload.phase ≠ .atEof := fun heof => hnotSealed _ (h.atEof heof)
  have hnotCommitted : ∀ out, s.upload.committed ≠ some out :=
    fun out hc => hnotSealed _ (h.committed out hc).2
  unfold setBlock
  split
  · rename_i result hphase
    exact
      { pump := h.pump
        extractorIn := h.extractorIn
        extractorOut := hout.dropReceiver
        blockIn := hin
        blockOut := hbo
        blockRuns := by simp [hphase, BlockPhase.running]
        blockDone := by simp [hphase, BlockPhase.running]
        vanished := hvanished
        uploadIn := hupload
        uploadReads := hreads
        atEof := fun heof => (hnotEof heof).elim
        committed := fun out hc => (hnotCommitted out hc).elim
        uploadOk := h.uploadOk }
  · exact
      { pump := h.pump
        extractorIn := h.extractorIn
        extractorOut := hout
        blockIn := hin
        blockOut := hbo
        blockRuns := fun _ => hlisten
        blockDone := fun hdone => by simp [hsending] at hdone
        vanished := hvanished
        uploadIn := hupload
        uploadReads := hreads
        atEof := fun heof => (hnotEof heof).elim
        committed := fun out hc => (hnotCommitted out hc).elim
        uploadOk := h.uploadOk }

/-- A block that gives up on the encoder. -/
lemma StreamInv.encoderFailed (h : StreamInv float engine cfg threshold body s)
    (hrun : s.block.phase.running = true) {raw : Channel StreamMsg recordChannelCapacity} (message : String)
    (hout : ExtractorOut float gz raw s.extractor) (hraw : raw.receiverGone = s.raw.receiverGone) :
    StreamInv float engine cfg threshold body (setBlock { s with raw := raw }
      ⟨s.block.st, .aborting message (.error (.internal .compression))⟩) :=
  h.moveBlock hrun raw s.output _ hout hraw .compression (.inr trivial) rfl rfl rfl (by simp)

/-- A message of the block is handed over, whether or not the upload is still there. -/
lemma handOver_inv (h : StreamInv float engine cfg threshold body s)
    (hrun : s.block.phase.running = true) {msg : ByteMsg} {next : BlockPhase}
    (hs : handOver s msg next = some s')
    (hin : BlockIn float engine cfg threshold s.raw.received { s.block with phase := next })
    (hbo : ∀ output, s.output.Grew msg output → BlockOut output { s.block with phase := next })
    (hvanished : (∃ message, next = .aborting message (.error (.internal .producerVanished))) ∨
      next = .done (.error (.internal .producerVanished)) → s.extractor.phase = .panicked) :
    StreamInv float engine cfg threshold body s' := by
  unfold handOver at hs
  cases hsend : s.output.send msg with
  | blocked => simp [hsend] at hs
  | refused =>
    simp only [hsend] at hs
    cases hs
    exact h.moveBlock hrun s.raw s.output _ h.extractorOut rfl hin
      (.inl (Channel.gone_of_refused hsend)) rfl rfl rfl hvanished
  | sent output =>
    simp only [hsend] at hs
    cases hs
    have hgrew := Channel.grew_of_send hsend
    exact h.moveBlock hrun s.raw output _ h.extractorOut rfl hin (hbo output hgrew) hgrew.received
      (hgrew.receiverGone.trans hgrew.listening.symm) hgrew.senderGone hvanished

lemma recordStep_inv (h : StreamInv float engine cfg threshold body s)
    (hphase : s.block.phase = .receiving) {text : Bytes}
    {raw : Channel StreamMsg recordChannelCapacity} (htook : s.raw.Took (.record text) raw)
    {fault : Option EncoderCall} {block : Block gz}
    (hs : recordStep float engine threshold fault s.block.st text = some block) :
    StreamInv float engine cfg threshold body (setBlock { s with raw := raw } block) := by
  have hrun : s.block.phase.running = true := by rw [hphase]; rfl
  have hout := h.extractorOut.took htook
  have hin := h.blockIn
  have hbo := h.blockOut
  simp only [BlockIn, BlockOut, hphase] at hin hbo
  obtain ⟨records, hreceived, hst⟩ := hin
  unfold recordStep at hs
  cases fault with
  | none =>
    simp only [Option.some.injEq] at hs
    subst hs
    have hreceived' : raw.received = (records ++ [text]).map .record := by
      rw [htook.received, hreceived]
      simp
    have hst' : (s.block.st.filterRecord float engine text).drain threshold =
        filtering gz float engine cfg.gzipLevel threshold (records ++ [text]) := by
      rw [filtering_concat, hst]
    have hsame : (s.block.st.filterRecord float engine text).drained = s.block.st.drained :=
      filterRecord_drained _ _
    by_cases hflush : threshold ≤ (s.block.st.filterRecord float engine text).sink.length
    · refine h.moveBlock hrun raw s.output _ hout htook.receiverGone ?_ ?_ rfl rfl rfl ?_
      · simp only [hflush, if_true, BlockIn]
        exact ⟨_, hreceived', hst'⟩
      · simp only [hflush, if_true, BlockOut, Filtering.drain, hsame]
        exact hbo.imp_right (fun hlog => ⟨_, rfl, hlog⟩)
      · simp [hflush]
    · refine h.moveBlock hrun raw s.output _ hout htook.receiverGone ?_ ?_ rfl rfl rfl ?_
      · simp only [hflush, if_false, BlockIn]
        exact ⟨_, hreceived', hst'⟩
      · simp only [hflush, if_false, BlockOut, Filtering.drain, hsame]
        exact hbo
      · simp [hflush]
  | some call =>
    cases call with
    | write =>
      simp only at hs
      split_ifs at hs
      cases hs
      exact h.encoderFailed hrun _ hout htook.receiverGone
    | finish => simp at hs

lemma finishStep_inv (h : StreamInv float engine cfg threshold body s)
    (hphase : s.block.phase = .receiving) {kind : FinishKind}
    {raw : Channel StreamMsg recordChannelCapacity} (htook : s.raw.Took (.finished kind) raw)
    {fault : Option EncoderCall} {block : Block gz} (hs : finishStep fault s.block.st kind = some block) :
    StreamInv float engine cfg threshold body (setBlock { s with raw := raw } block) := by
  have hrun : s.block.phase.running = true := by rw [hphase]; rfl
  have hout := h.extractorOut.took htook
  have hin := h.blockIn
  have hbo := h.blockOut
  simp only [BlockIn, BlockOut, hphase] at hin hbo
  obtain ⟨records, hreceived, hst⟩ := hin
  have hreceived' : raw.received = records.map .record ++ [.finished kind] := by
    rw [htook.received, hreceived]
  -- every end but that of a written object aborts the upload
  have habort : ∀ message result, Returns float engine cfg threshold raw.received s.block.st result →
      result ≠ .error (.internal .producerVanished) →
      StreamInv float engine cfg threshold body
        (setBlock { s with raw := raw } ⟨s.block.st, .aborting message result⟩) := by
    intro message result hret hne
    refine h.moveBlock hrun raw s.output _ hout htook.receiverGone hret (.inr trivial) rfl rfl rfl ?_
    rintro (⟨m, hm⟩ | hm)
    · cases hm
      exact (hne rfl).elim
    · cases hm
  cases kind with
  | recordsFound =>
    simp only [finishStep] at hs
    by_cases hkept : 0 < s.block.st.tally.kept
    · simp only [hkept, if_true] at hs
      have hret : Returns float engine cfg threshold raw.received s.block.st (writtenResult s.block.st) :=
        .written records hreceived' hst hkept
      cases fault with
      | none =>
        simp only [Option.some.injEq] at hs
        subst hs
        by_cases htail : s.block.st.tail = []
        · refine h.moveBlock hrun raw s.output _ hout htook.receiverGone ?_ ?_ rfl rfl rfl ?_
          · simpa only [htail, if_true, BlockIn] using hret
          · simp only [htail, if_true, BlockOut, Filtering.close_drained]
            exact hbo.imp_right (fun hlog => .inl ⟨trivial, hlog⟩)
          · simp [htail, writtenResult]
        · refine h.moveBlock hrun raw s.output _ hout htook.receiverGone ?_ ?_ rfl rfl rfl ?_
          · simpa only [htail, if_false, BlockIn] using hret
          · simp only [htail, if_false, BlockOut]
            exact hbo.imp_right (fun hlog => ⟨trivial, htail, hlog⟩)
          · simp [htail]
      | some call =>
        cases call <;> simp only [Option.some.injEq] at hs <;> subst hs
        · exact h.encoderFailed hrun _ hout htook.receiverGone
        · exact h.encoderFailed hrun _ hout htook.receiverGone
    · simp only [hkept, if_false] at hs
      split_ifs at hs
      cases hs
      exact habort _ _ (.nothingKept records hreceived' hst (by omega)) (by simp)
  | unrecognized =>
    simp only [finishStep] at hs
    split_ifs at hs
    cases hs
    exact habort _ _ (.unrecognized records hreceived') (by simp)
  | error failure =>
    simp only [finishStep] at hs
    split_ifs at hs
    cases hs
    refine habort _ _ (.failed records failure hreceived') ?_
    cases failure <;> simp [ParseFailure.toError]

/-- A record channel that ends without a last message means a panic. -/
lemma panicked_of_closed (h : StreamInv float engine cfg threshold body s)
    (hphase : s.block.phase = .receiving) (hrecv : s.raw.recv = .closed) :
    s.extractor.phase = .panicked := by
  obtain ⟨hgone, hall⟩ := Channel.drained_of_closed hrecv
  have hin := h.blockIn
  simp only [BlockIn, hphase] at hin
  obtain ⟨records, hreceived, -⟩ := hin
  have hdead := h.extractorOut.done hgone
  cases hext : s.extractor.phase with
  | panicked => rfl
  | done =>
    rcases h.extractorOut.finished hext with hr | ⟨kind, hmem⟩
    · simp [h.blockRuns (by rw [hphase]; rfl)] at hr
    · rw [← hall, hreceived] at hmem
      simp at hmem
  | _ => simp [hext, ExtractPhase.live] at hdead

lemma blockStep_inv (h : StreamInv float engine cfg threshold body s) {fault : Option EncoderCall}
    (hs : blockStep float engine threshold fault s = some s') :
    StreamInv float engine cfg threshold body s' := by
  have hin := h.blockIn
  have hbo := h.blockOut
  unfold blockStep at hs
  split at hs
  · rename_i hphase
    have hrun : s.block.phase.running = true := by rw [hphase]; rfl
    simp only [BlockIn, BlockOut, hphase] at hin hbo
    cases fault with
    | none =>
      cases hs
      exact h.moveBlock hrun s.raw s.output _ h.extractorOut rfl hin hbo rfl rfl rfl
        (by simp)
    | some call =>
      cases call with
      | write =>
        cases hs
        exact h.encoderFailed hrun _ h.extractorOut rfl
      | finish => simp at hs
  · rename_i hphase
    have hrun : s.block.phase.running = true := by rw [hphase]; rfl
    cases hrecv : s.raw.recv with
    | blocked => simp [hrecv] at hs
    | closed =>
      simp only [hrecv] at hs
      split_ifs at hs
      cases hs
      exact h.moveBlock hrun s.raw s.output _ h.extractorOut rfl .vanished
        (.inr trivial) rfl rfl rfl (fun _ => panicked_of_closed h hphase hrecv)
    | got msg raw =>
      have htook := Channel.took_of_recv hrecv
      cases msg with
      | record text =>
        simp only [hrecv, Option.map_eq_some_iff] at hs
        obtain ⟨block, hblock, rfl⟩ := hs
        exact recordStep_inv h hphase htook hblock
      | finished kind =>
        simp only [hrecv, Option.map_eq_some_iff] at hs
        obtain ⟨block, hblock, rfl⟩ := hs
        exact finishStep_inv h hphase htook hblock
  · rename_i chunk hphase
    split_ifs at hs
    simp only [BlockIn, BlockOut, hphase] at hin hbo
    refine handOver_inv h (by rw [hphase]; rfl) hs hin (fun output hgrew => ?_) (by simp)
    rcases hbo with hgone | ⟨drained, hdrained, hlog⟩
    · simp [hgrew.listening] at hgone
    · refine .inr ?_
      simp [hgrew.log, hlog, hdrained]
  · rename_i tail hphase
    split_ifs at hs
    simp only [BlockIn, BlockOut, hphase] at hin hbo
    refine handOver_inv h (by rw [hphase]; rfl) hs hin (fun output hgrew => ?_) (by simp [writtenResult])
    rcases hbo with hgone | ⟨htail, hne, hlog⟩
    · simp [hgrew.listening] at hgone
    · refine .inr (.inl ⟨rfl, ?_⟩)
      rw [htail] at hne
      simp [hgrew.log, hlog, Filtering.close_drained, hne, htail]
  · rename_i message result hphase
    split_ifs at hs
    simp only [BlockIn, hphase] at hin
    refine handOver_inv h (by rw [hphase]; rfl) hs hin (fun output hgrew => ?_) ?_
    · exact .inr (.inr ⟨message, by simp [hgrew.log]⟩)
    · rintro (⟨m, hm⟩ | hm)
      · cases hm
      · cases hm
        exact h.vanished (.inl ⟨message, hphase⟩)
  · cases hs

end BlockSteps

section UploadSteps
variable {gz : Gzip} {float : FloatParser} {engine : Engine} {cfg : Processing} {threshold : ℕ}
  {body : Body} {s s' : StreamState gz}

lemma BlockOut.took {output output' : Channel ByteMsg outputChannelCapacity} {block : Block gz}
    {msg : ByteMsg} (h : BlockOut output block) (ht : output.Took msg output') : BlockOut output' block := by
  unfold BlockOut at h ⊢
  rwa [ht.log, ht.receiverGone]

lemma StreamInv.setUpload (h : StreamInv float engine cfg threshold body s)
    {output : Channel ByteMsg outputChannelCapacity} {upload : Upload}
    (hbo : BlockOut output s.block) (hopen : output.senderGone = s.output.senderGone)
    (hin : UploadIn output upload)
    (hreads : (∀ r, upload.phase ≠ .done r) → output.receiverGone = false)
    (heof : upload.phase = .atEof → Sealed s.block upload.bytes)
    (hcommitted : ∀ out, upload.committed = some out →
      upload.phase = .done (.ok ()) ∧ Sealed s.block out)
    (hok : upload.phase = .done (.ok ()) → upload.committed.isSome) :
    StreamInv float engine cfg threshold body { s with output := output, upload := upload } :=
  { h with
    blockOut := hbo
    blockDone := by simpa [hopen] using h.blockDone
    uploadIn := hin
    uploadReads := hreads
    atEof := heof
    committed := hcommitted
    uploadOk := hok }

/-- An upload that sees the end of its body has read a written object. -/
lemma sealed_of_closed (h : StreamInv float engine cfg threshold body s)
    (hphase : s.upload.phase = .reading) (hrecv : s.output.recv = .closed) :
    Sealed s.block s.upload.bytes := by
  obtain ⟨hgone, hall⟩ := Channel.drained_of_closed hrecv
  have hin := h.uploadIn
  simp only [UploadIn, hphase] at hin
  obtain ⟨chunks, hreceived, hbytes⟩ := hin
  have hdone := h.blockDone hgone
  have hbo := h.blockOut
  have hlisten := h.uploadReads (by simp [hphase])
  cases hblock : s.block.phase with
  | done result =>
    simp only [BlockOut, hblock] at hbo
    rcases hbo with habsent | ⟨hwritten, hlog⟩ | ⟨message, hmem⟩
    · simp [hlisten] at habsent
    · refine ⟨by rw [hblock, hwritten], ?_⟩
      have hchunks : chunks.map (Except.ok : Bytes → ByteMsg) = s.block.st.close.drained.map .ok := by
        rw [← hreceived, hall, hlog]
      rw [hbytes, List.map_injective_iff.mpr (fun _ _ heq => Except.ok.inj heq) hchunks]
    · rw [← hall, hreceived] at hmem
      simp at hmem
  | _ => simp [hblock, BlockPhase.running] at hdone

lemma uploadReadStep_inv (h : StreamInv float engine cfg threshold body s)
    (hs : uploadReadStep s = some s') : StreamInv float engine cfg threshold body s' := by
  unfold uploadReadStep at hs
  split at hs
  · rename_i hphase
    have hin := h.uploadIn
    simp only [UploadIn, hphase] at hin
    obtain ⟨chunks, hreceived, hbytes⟩ := hin
    have hlisten := h.uploadReads (by simp [hphase])
    have hnone : ∀ out, s.upload.committed ≠ some out := by
      intro out hc
      have := (h.committed out hc).1
      simp [hphase] at this
    cases hrecv : s.output.recv with
    | blocked => simp [hrecv] at hs
    | closed =>
      simp only [hrecv] at hs
      cases hs
      exact h.setUpload h.blockOut rfl trivial (fun _ => hlisten)
        (fun _ => sealed_of_closed h hphase hrecv) (fun out hc => (hnone out hc).elim) (by simp)
    | got msg output =>
      have htook := Channel.took_of_recv hrecv
      have hlisten' : output.receiverGone = false := htook.receiverGone.trans hlisten
      cases msg with
      | ok chunk =>
        simp only [hrecv] at hs
        cases hs
        refine h.setUpload (h.blockOut.took htook) htook.senderGone ?_ (fun _ => hlisten')
          (by simp [hphase]) (fun out hc => (hnone out hc).elim) (by simp [hphase])
        simp only [UploadIn, hphase]
        exact ⟨chunks ++ [chunk], by simp [htook.received, hreceived], by simp [hbytes]⟩
      | error message =>
        simp only [hrecv] at hs
        cases hs
        exact h.setUpload (h.blockOut.took htook) htook.senderGone trivial (fun _ => hlisten') (by simp)
          (fun out hc => (hnone out hc).elim) (by simp)
  · cases hs

lemma uploadReturnStep_inv (h : StreamInv float engine cfg threshold body s) {error : Option StoreError}
    (hs : uploadReturnStep error s = some s') : StreamInv float engine cfg threshold body s' := by
  unfold uploadReturnStep at hs
  split at hs
  · rename_i hphase
    cases hs
    refine h.setUpload (.inl rfl) rfl trivial (by simp) (by simp) ?_ (by simp)
    intro out hout
    cases hout
    exact ⟨rfl, h.atEof hphase⟩
  · cases hs
  · cases hs
  · rename_i e hnotDone
    cases hs
    refine h.setUpload (.inl rfl) rfl trivial (by simp) (by simp) ?_ (by simp)
    intro out hout
    exact (hnotDone _ (h.committed out hout).1).elim

lemma streamStep_inv (hgz : gz.Lawful) (action : StreamAction)
    (h : StreamInv float engine cfg threshold body s)
    (hs : streamStep float engine threshold body s action = some s') :
    StreamInv float engine cfg threshold body s' := by
  cases action with
  | pump => exact pumpStep_inv h hs
  | extract askInput => exact extractStep_inv hgz h hs
  | panic => exact panicStep_inv h hs
  | block fault => exact blockStep_inv h hs
  | uploadRead => exact uploadReadStep_inv h hs
  | uploadReturn error => exact uploadReturnStep_inv h hs

lemma start_inv : StreamInv float engine cfg threshold body (.start gz cfg body) where
  pump :=
    { carried := .inl rfl
      done := by simp [StreamState.start, Channel.empty]
      sent := by simp [StreamState.start, Channel.empty, Channel.log, carriedBytes, Pump.held]
      read := by simp [StreamState.start, Pump.unread, Body.bytes] }
  extractorIn :=
    { received := rfl
      known := by simp [StreamState.start]
      soFar := fun _ => List.nil_prefix
      asking := by simp [StreamState.start]
      listening := fun _ => rfl }
  extractorOut :=
    { sent_le := Nat.zero_le _
      carried := .inl rfl
      sending := by simp [StreamState.start]
      finishing := by simp [StreamState.start]
      abandoned := by simp [StreamState.start]
      finished := by simp [StreamState.start]
      done := by simp [StreamState.start, Channel.empty] }
  blockIn := ⟨[], rfl, rfl⟩
  blockOut := .inr rfl
  blockRuns := fun _ => rfl
  blockDone := by simp [StreamState.start, Channel.empty]
  vanished := by simp [StreamState.start]
  uploadIn := ⟨[], rfl, rfl⟩
  uploadReads := fun _ => rfl
  atEof := by simp [StreamState.start]
  committed := by simp [StreamState.start]
  uploadOk := by simp [StreamState.start]

theorem reachable_inv (hgz : gz.Lawful)
    (h : Reachable (streamStep float engine threshold body) (.start gz cfg body) s) :
    StreamInv float engine cfg threshold body s :=
  h.invariant start_inv (fun _ action _ hinv hs => streamStep_inv hgz action hinv hs)

end UploadSteps

section Results
variable {gz : Gzip} {float : FloatParser} {engine : Engine} {cfg : Processing} {threshold : ℕ}
  {body : Body} {s : StreamState gz}

/-- The end the task has settled on is that of the whole body, even where it did not wait for
the rest of it. -/
lemma Settled.final (hgz : gz.Lawful) {input : Channel ByteMsg inputChannelCapacity} {x : Extractor}
    {kind : FinishKind} (hin : ExtractorIn body input x) (h : Settled float gz x kind) :
    (x.yield gz float).records = (extraction gz float body.chunks (some body.ending)).records ∧
      ∃ overread, kind = finishOf gz float overread body := by
  rcases hend : x.ending with _ | e
  · -- the task stopped early, at a syntax error or at damage
    obtain ⟨more, hmore⟩ := hin.soFar hend
    have hext : Extends id (extraction gz float x.chunks none)
        (extraction gz float body.chunks (some body.ending)) := by
      rw [← hmore]
      exact extraction_extends hgz _ _ _
    have hyield : x.yield gz float = extraction gz float x.chunks none := by
      rw [Extractor.yield, hend]
    have htransport : x.transportError = none := by simp [Extractor.transportError, hend]
    have htext : x.textEnd gz = (textOf gz x.chunks none).2 := by rw [Extractor.textEnd, hend]
    have hkind := h.kind
    rw [hyield, htransport, htext] at hkind
    obtain ⟨hagree, -, hsame⟩ := hext
    rw [hyield]
    cases hres : (extraction gz float x.chunks none).result with
    | ok found =>
      obtain ⟨-, heof, -⟩ := extraction_ok hgz hres
      cases heof
    | error fault =>
      rw [hres] at hagree hsame hkind
      cases fault with
      | malformed =>
        have hfull : (extraction gz float body.chunks (some body.ending)).result = .error .malformed :=
          hagree
        refine ⟨(hsame (by simp)).symm, false, ?_⟩
        rw [hkind, finishOf, hfull]
        cases body.ending <;> simp [transportError, finishKind]
      | starved =>
        have hdamaged : (textOf gz x.chunks none).2 = .damaged := by
          have hfed := h.fed
          simp only [Extractor.starving, hyield, hres, htext, true_and, decide_eq_false_iff_not] at hfed
          simp only [textOf] at hfed ⊢
          split_ifs at hfed ⊢ with hc
          · rfl
          · exact (hfed rfl).elim
        have hfull := textOf_damaged_append hgz more body.ending hdamaged
        rw [hmore] at hfull
        have hx : extraction gz float body.chunks (some body.ending) = extraction gz float x.chunks none := by
          rw [extraction, hfull, ← extraction]
        refine ⟨by rw [hx], false, ?_⟩
        rw [hkind, finishOf, hx, hfull, hres, hdamaged]
        cases body.ending <;> simp [transportError, finishKind]
  · obtain ⟨hchunks, rfl⟩ := hin.known e hend
    have hyield : x.yield gz float = extraction gz float body.chunks (some body.ending) := by
      rw [Extractor.yield, hend, hchunks]
    have htext : x.textEnd gz = (textOf gz body.chunks (some body.ending)).2 := by
      rw [Extractor.textEnd, hend, hchunks]
    refine ⟨by rw [hyield], true, ?_⟩
    rw [h.kind, hyield, htext, finishOf]
    congr 1
    cases hb : body.ending <;> simp [Extractor.transportError, hend, transportError, hb]

/-- The last message ends the list of messages. -/
lemma finished_last {a b : List Bytes} {kind kind' : FinishKind}
    (h : a.map StreamMsg.record ++ [.finished kind] <+: b.map .record ++ [.finished kind']) :
    a = b ∧ kind = kind' := by
  induction a generalizing b with
  | nil =>
    cases b with
    | nil => simpa using h
    | cons text b => simp at h
  | cons text a ih =>
    cases b with
    | nil => simp at h
    | cons first b =>
      simp only [List.map_cons, List.cons_append, List.cons_prefix_cons, StreamMsg.record.injEq] at h
      obtain ⟨rfl, h⟩ := h
      obtain ⟨rfl, rfl⟩ := ih h
      exact ⟨rfl, rfl⟩

/-- The task has settled once its last message is out, with exactly the records before it. -/
lemma settled_of_received (h : StreamInv float engine cfg threshold body s) {records : List Bytes}
    {kind : FinishKind} (hr : s.raw.received = records.map .record ++ [.finished kind]) :
    s.extractor.phase = .done ∧ records = (s.extractor.yield gz float).records ∧
      Settled float gz s.extractor kind := by
  have hpre : records.map StreamMsg.record ++ [.finished kind] <+: s.raw.log := by
    rw [← hr]
    exact s.raw.received_prefix_log
  rcases h.extractorOut.carried with hlog | ⟨hdone, kind', hsettled, hlog⟩
  · have hmem : StreamMsg.finished kind ∈ s.raw.log := hpre.subset (by simp)
    rw [hlog] at hmem
    obtain ⟨text, -, htext⟩ := List.mem_map.mp hmem
    cases htext
  · rw [hlog] at hpre
    obtain ⟨rfl, rfl⟩ := finished_last hpre
    exact ⟨hdone, rfl, hsettled⟩

/-- A task that has seen the end of the input has read the whole body, and so has the pump. -/
lemma read_of_eof (h : StreamInv float engine cfg threshold body s) (hend : s.extractor.ending = some .eof) :
    s.bytesIn = body.bytes.length := by
  obtain ⟨hchunks, -⟩ := h.extractorIn.known _ hend
  have hreceived : carriedBytes s.input.received = body.bytes := by
    rw [h.extractorIn.received, hend, hchunks]
    simp [endMessages, Body.bytes]
  have hle : body.bytes.length ≤ (carriedBytes s.input.log).length := by
    rw [Channel.log, carriedBytes_append, hreceived, List.length_append]
    omega
  have hsent := h.pump.sent
  have hread := h.pump.read
  omega

/-- A task that ended without an error has seen the end of the input. -/
lemma read_of_ok (hgz : gz.Lawful) (h : StreamInv float engine cfg threshold body s) {found : Bool}
    (hok : (s.extractor.yield gz float).result = .ok found) :
    s.extractor.ending = some .eof ∧ s.bytesIn = body.bytes.length := by
  obtain ⟨-, hend, -, -⟩ := extraction_ok hgz hok
  exact ⟨hend, read_of_eof h hend⟩

/-- What the block relied on when it returned, in terms of the whole body. -/
structure EndsAs (float : FloatParser) (body : Body) (s : StreamState gz) (records : List Bytes)
    (kind : FinishKind) (overread : Bool) : Prop where
  phase : s.extractor.phase = .done
  records : records = (extraction gz float body.chunks (some body.ending)).records
  finish : finishOf gz float overread body = kind
  read : kind = .recordsFound ∨ kind = .unrecognized →
    s.extractor.ending = some .eof ∧ s.bytesIn = body.bytes.length

lemma endsAs_of_received (hgz : gz.Lawful) (h : StreamInv float engine cfg threshold body s)
    {records : List Bytes} {kind : FinishKind}
    (hr : s.raw.received = records.map .record ++ [.finished kind]) :
    ∃ overread, EndsAs float body s records kind overread := by
  obtain ⟨hphase, hrecords, hsettled⟩ := settled_of_received h hr
  obtain ⟨hfull, overread, hkind⟩ := hsettled.final hgz h.extractorIn
  refine ⟨overread, hphase, hrecords.trans hfull, hkind.symm, ?_⟩
  have hk := hsettled.kind
  rintro (rfl | rfl)
  · exact read_of_ok hgz h (finishKind_recordsFound hk.symm)
  · exact read_of_ok hgz h (finishKind_unrecognized hk.symm)

/-- An upload is only sealed behind a written object. -/
lemma returns_of_sealed (h : StreamInv float engine cfg threshold body s) {bytes : Bytes}
    (hsealed : Sealed s.block bytes) :
    Returns float engine cfg threshold s.raw.received s.block.st (writtenResult s.block.st) := by
  have hin := h.blockIn
  simpa only [BlockIn, hsealed.1] using hin

lemma returns_written {received : List StreamMsg} {st : Filtering gz} {bytesOut : ℕ} {tally : RecordTally}
    (h : Returns float engine cfg threshold received st (.ok (.written none, bytesOut, tally))) :
    ∃ records, received = records.map .record ++ [.finished .recordsFound] ∧
      st = filtering gz float engine cfg.gzipLevel threshold records ∧ 0 < st.tally.kept := by
  generalize hres : (Except.ok (Outcome.written none, bytesOut, tally) : BlockResult) = result at h
  cases h with
  | written records hr hst hkept => exact ⟨records, hr, hst, hkept⟩
  | nothingKept records hr hst hkept => cases hres
  | unrecognized records hr => cases hres
  | failed records failure hr => cases hres
  | compression => cases hres
  | vanished => cases hres

/-- Nothing is committed unless the block returned a written object. -/
lemma not_committed (h : StreamInv float engine cfg threshold body s) {result : BlockResult}
    (hblock : s.block.phase = .done result) (hne : result ≠ writtenResult s.block.st) :
    s.upload.committed = none := by
  cases hc : s.upload.committed with
  | none => rfl
  | some out =>
    have hsealed := (h.committed out hc).2.1
    rw [hblock] at hsealed
    cases hsealed
    exact (hne rfl).elim

/-- A run of the parties that has ended, under every interleaving, is a run of `streamRunAt` in
some environment. -/
theorem joined_eq_streamRunAt (hgz : gz.Lawful)
    (hreach : Reachable (streamStep float engine threshold body) (.start gz cfg body) s) {run : StreamRun}
    (hjoined : s.joined engine = some run) :
    ∃ env, run = streamRunAt gz float engine cfg threshold env body := by
  have h := reachable_inv hgz hreach
  unfold StreamState.joined at hjoined
  split at hjoined
  · rename_i result upload hpump hblock hupload
    split_ifs at hjoined with hlive
    cases hjoined
    have hret := h.blockIn
    simp only [BlockIn, hblock] at hret
    by_cases hpanic : s.extractor.phase = .panicked
    · have hnone : s.upload.committed = none := by
        cases hc : s.upload.committed with
        | none => rfl
        | some out =>
          obtain ⟨records, hr, -⟩ := returns_written (returns_of_sealed h (h.committed out hc).2)
          rw [(settled_of_received h hr).1] at hpanic
          cases hpanic
      refine ⟨⟨false, true, false, none, s.bytesIn⟩, ?_⟩
      simp [joinedRun, joinedResult, hpanic, hnone, streamRunAt]
    · cases hret with
      | written records hr hst hkept =>
        obtain ⟨overread, hends⟩ := endsAs_of_received hgz h hr
        have hst' := hends.records ▸ hst
        cases upload with
        | ok =>
          obtain ⟨out, hout⟩ := Option.isSome_iff_exists.mp (h.uploadOk hupload)
          have hbytes := (h.committed out hout).2.2
          refine ⟨⟨overread, false, false, none, 0⟩, ?_⟩
          simp only [joinedRun, joinedResult, hpanic, writtenResult, streamRunAt, hends.finish, ← hst', hkept,
            hout, hbytes, (hends.read (.inl rfl)).2, decide_false, Bool.false_eq_true, if_false, if_true]
        | error e =>
          have hnone : s.upload.committed = none := by
            cases hc : s.upload.committed with
            | none => rfl
            | some out =>
              have := (h.committed out hc).1
              simp [hupload] at this
          refine ⟨⟨overread, false, false, some e, s.bytesIn⟩, ?_⟩
          simp only [joinedRun, joinedResult, hpanic, writtenResult, streamRunAt, hends.finish, ← hst', hkept,
            hnone, decide_false, Bool.false_eq_true, if_false, if_true]
      | nothingKept records hr hst hkept =>
        obtain ⟨overread, hends⟩ := endsAs_of_received hgz h hr
        have hst' := hends.records ▸ hst
        have hnone := not_committed h hblock (by simp [writtenResult])
        refine ⟨⟨overread, false, false, none, 0⟩, ?_⟩
        simp [joinedRun, joinedResult, hpanic, streamRunAt, hends.finish, ← hst', hkept, hnone,
          (hends.read (.inl rfl)).2]
      | unrecognized records hr =>
        obtain ⟨overread, hends⟩ := endsAs_of_received hgz h hr
        have hnone := not_committed h hblock (by simp [writtenResult])
        refine ⟨⟨overread, false, false, none, 0⟩, ?_⟩
        simp [joinedRun, joinedResult, hpanic, streamRunAt, hends.finish, hnone,
          (hends.read (.inr rfl)).2]
      | failed records failure hr =>
        obtain ⟨overread, hends⟩ := endsAs_of_received hgz h hr
        have hnone := not_committed h hblock (by simp [writtenResult])
        refine ⟨⟨overread, false, false, none, s.bytesIn⟩, ?_⟩
        simp [joinedRun, joinedResult, hpanic, streamRunAt, hends.finish, hnone]
      | compression =>
        have hnone := not_committed h hblock (by simp [writtenResult])
        refine ⟨⟨false, false, true, none, s.bytesIn⟩, ?_⟩
        simp [joinedRun, joinedResult, hpanic, streamRunAt, hnone]
      | vanished => exact (hpanic (h.vanished (.inr hblock))).elim
  · cases hjoined

/-- What was committed is the filtered envelope of a body that was read to a clean end. -/
lemma committed_whole (hgz : gz.Lawful) (h : StreamInv float engine cfg threshold body s) {out : Bytes}
    (hout : s.upload.committed = some out) :
    .finished .recordsFound ∈ s.raw.received ∧ s.extractor.ending = some .eof ∧
      ∃ text, body.ending = .eof ∧ gz.readToEnd body.bytes = (text, true) ∧
        (extract .eof float text).result = .ok true ∧
        (extract .eof float text).records.filter (keeps float engine) ≠ [] ∧
        gz.readToEnd out =
          (envelopeBody ((extract .eof float text).records.filter (keeps float engine)), true) := by
  obtain ⟨-, hsealed⟩ := h.committed out hout
  obtain ⟨records, hr, hst, hkept⟩ := returns_written (returns_of_sealed h hsealed)
  obtain ⟨overread, hends⟩ := endsAs_of_received hgz h hr
  obtain ⟨text, hend, hread, hx⟩ := extraction_ok hgz (finishKind_recordsFound hends.finish)
  have hok := finishKind_recordsFound hends.finish
  rw [hx] at hok
  have hrecords : records = (extract .eof float text).records := by rw [hends.records, hx]
  have hmatch := filtering_matches gz float engine cfg.gzipLevel threshold records
  rw [← hst] at hmatch
  have hsurvivors : (filterRecords float engine records).2 =
      (extract .eof float text).records.filter (keeps float engine) := by
    rw [filterRecords_survivors, hrecords]
  refine ⟨by simp [hr], (hends.read (.inl rfl)).1, text, Option.some.inj hend, hread, hok, ?_, ?_⟩
  · rw [hmatch.tally, (filterRecords_tally _).kept, hsurvivors] at hkept
    exact List.ne_nil_of_length_pos hkept
  · rw [hsealed.2, hmatch.close hgz, hgz.readToEnd_compress, hsurvivors]

/-- Under every interleaving of the four parties, with every failure of the source, the encoder,
the upload and the extraction task: an object is committed only if the extraction found its
records at a clean end of the input and some were kept, it is then the filtered envelope, and
`stream_run` says it has written exactly when it has. -/
theorem stream_commits_all_or_nothing (hgz : gz.Lawful) (float : FloatParser) (engine : Engine)
    (cfg : Processing) (threshold : ℕ) (body : Body) (s : StreamState gz)
    (hreach : Reachable (streamStep float engine threshold body) (.start gz cfg body) s) :
    (∀ out, s.upload.committed = some out →
      .finished .recordsFound ∈ s.raw.received ∧ s.extractor.ending = some .eof ∧
      ∃ text, body.ending = .eof ∧ gz.readToEnd body.bytes = (text, true) ∧
        (extract .eof float text).result = .ok true ∧
        (extract .eof float text).records.filter (keeps float engine) ≠ [] ∧
        gz.readToEnd out =
          (envelopeBody ((extract .eof float text).records.filter (keeps float engine)), true)) ∧
    ∀ run, s.joined engine = some run →
      (run.result = .ok (.written none) ↔ s.upload.committed.isSome) := by
  refine ⟨fun out hout => committed_whole hgz (reachable_inv hgz hreach) hout, ?_⟩
  intro run hjoined
  have hcommitted : run.committed = s.upload.committed := by
    unfold StreamState.joined at hjoined
    split at hjoined
    · split_ifs at hjoined
      cases hjoined
      unfold joinedRun
      simp only
      split <;> rfl
    · cases hjoined
  obtain ⟨env, hrun⟩ := joined_eq_streamRunAt hgz hreach hjoined
  rw [← hcommitted, hrun]
  rcases streamRunAt_cases gz float engine cfg threshold env body with
    ⟨-, -, -, h⟩ | ⟨-, -, h⟩ | ⟨-, h⟩ | ⟨_, -, h⟩ | ⟨_, h⟩ | ⟨_, h⟩ <;> simp [h]

/-- One interleaving that writes the sample object. -/
def sampleSchedule : List StreamAction :=
  [.block none, .pump, .pump, .extract true, .extract false, .extract false, .extract false, .block none,
    .pump, .extract false, .extract false, .extract true, .block none, .extract false, .extract false,
    .extract false, .block none, .block none, .uploadRead, .uploadRead, .uploadReturn none]

theorem stream_commits_all_or_nothing_sample :
    ∃ s, Reachable (streamStep (fun _ => none) passEngine 16 (sampleBody envelopeText))
        (.start storedGzip sampleProcessing (sampleBody envelopeText)) s ∧
      ∃ run out, s.joined passEngine = some run ∧ s.upload.committed = some out ∧
        run.result = .ok (.written none) ∧ s.extractor.ending = some .eof := by
  obtain ⟨s, hs, hended⟩ : ∃ s,
      runActions (streamStep (fun _ => none) passEngine 16 (sampleBody envelopeText))
        (.start storedGzip sampleProcessing (sampleBody envelopeText)) sampleSchedule = some s ∧
      ((s.joined passEngine).isSome ∧ s.upload.committed.isSome) := by
    have hrun : ((runActions (streamStep (fun _ => none) passEngine 16 (sampleBody envelopeText))
        (.start storedGzip sampleProcessing (sampleBody envelopeText)) sampleSchedule).map
          (fun s => ((s.joined passEngine).isSome, s.upload.committed.isSome))) = some (true, true) := by
      decide +kernel
    obtain ⟨s, hs, hended⟩ := Option.map_eq_some_iff.mp hrun
    exact ⟨s, hs, Prod.mk.inj hended⟩
  obtain ⟨run, hrun⟩ := Option.isSome_iff_exists.mp hended.1
  obtain ⟨out, hout⟩ := Option.isSome_iff_exists.mp hended.2
  have hreach := Reachable.start.run sampleSchedule hs
  obtain ⟨hwhole, hreport⟩ := stream_commits_all_or_nothing storedGzip_lawful (fun _ => none) passEngine
    sampleProcessing 16 (sampleBody envelopeText) s hreach
  exact ⟨s, hreach, run, out, hrun, hout, (hreport run hrun).mpr hended.2, (hwhole out hout).2.1⟩

end Results

end CloudTrailFilter.Process
