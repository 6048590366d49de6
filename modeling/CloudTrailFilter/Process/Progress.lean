import CloudTrailFilter.Process.Concurrent
import CloudTrailFilter.Process.Parity

/-!
# Stream mode does not deadlock

A party waits only for a neighbour: the upload for the processing block, the block for the
extraction task or the upload, the task for the pump or the block, and the pump for the task. A
party that has returned has dropped its endpoints, so nobody waits for it. Along the chain a
waiting party leaves its neighbour room, which is why in every reachable state some party that
has not returned can go on, without any further failure.
-/

namespace CloudTrailFilter.Process
open CloudTrailFilter.Json CloudTrailFilter.Filter CloudTrailFilter.Concurrency

section Machine
variable {gz : Gzip} (float : FloatParser) (engine : Engine) (threshold : ℕ) (body : Body)

/-- `put_stream` returns at any point, with any result, and drops its reader. -/
def returnEarly (result : Except StoreError Unit) (s : StreamState gz) : Option (StreamState gz) :=
  match s.upload.phase with
  | .done _ => none
  | _ => some { s with upload := { s.upload with phase := .done result }, output := s.output.dropReceiver }

/-- The four parties with an upload that need not read its body to the end. -/
def freeStep (s : StreamState gz) : StreamAction ⊕ Except StoreError Unit → Option (StreamState gz)
  | .inl action => streamStep float engine threshold body s action
  | .inr result => returnEarly result s

/-- All four parties have returned. -/
def StreamState.finished (s : StreamState gz) : Bool :=
  match s.pump, s.block.phase, s.upload.phase with
  | .done, .done _, .done _ => !s.extractor.phase.live
  | _, _, _ => false

/-- The action is not a failure: no panic, no fault of the encoder, and no error of the upload but
the one its reader gave it. -/
def StreamAction.faultless (s : StreamState gz) : StreamAction → Bool
  | .panic | .block (some _) => false
  | .uploadReturn (some _) => s.upload.phase = .broken
  | .pump | .extract _ | .block none | .uploadRead | .uploadReturn none => true

/-- A party that has returned has dropped its endpoints. -/
structure Released (s : StreamState gz) : Prop where
  pump : s.pump = .done → s.input.senderGone = true
  extractorInput : s.extractor.phase.live = false → s.input.receiverGone = true
  extractorRaw : s.extractor.phase.live = false → s.raw.senderGone = true
  blockRaw : ∀ result, s.block.phase = .done result → s.raw.receiverGone = true
  blockOutput : ∀ result, s.block.phase = .done result → s.output.senderGone = true
  upload : ∀ result, s.upload.phase = .done result → s.output.receiverGone = true

end Machine

section Endpoints
variable {gz : Gzip} {float : FloatParser} {engine : Engine} {threshold : ℕ} {body : Body} {s s' : StreamState gz}

lemma start_released (cfg : Processing) : Released (.start gz cfg body) where
  pump := by simp [StreamState.start]
  extractorInput := by simp [StreamState.start, ExtractPhase.live]
  extractorRaw := by simp [StreamState.start, ExtractPhase.live]
  blockRaw := by simp [StreamState.start]
  blockOutput := by simp [StreamState.start]
  upload := by simp [StreamState.start]

lemma Released.pumpDone (h : Released s) : Released (pumpDone s) :=
  ⟨fun _ => rfl, h.extractorInput, h.extractorRaw, h.blockRaw, h.blockOutput, h.upload⟩

/-- A message sent over the input: its receiver has not returned. -/
lemma Released.sentInput (h : Released s) {msg : ByteMsg} {input : Channel ByteMsg inputChannelCapacity}
    (hsend : s.input.send msg = .sent input) : Released { s with input := input } := by
  have hgrew := Channel.grew_of_send hsend
  refine ⟨?_, ?_, h.extractorRaw, h.blockRaw, h.blockOutput, h.upload⟩
  · intro hdone
    rw [← h.pump hdone]
    exact hgrew.senderGone
  · intro hdead
    have hgone := h.extractorInput hdead
    rw [hgrew.listening] at hgone
    cases hgone

lemma pumpStep_released (h : Released s) (hs : pumpStep body s = some s') : Released s' := by
  have hpump : ∀ {s : StreamState gz} (pump : Pump), Released s → pump ≠ .done →
      Released { s with pump := pump } := by
    intro s pump h hne
    exact ⟨fun hdone => (hne hdone).elim, h.extractorInput, h.extractorRaw, h.blockRaw, h.blockOutput, h.upload⟩
  unfold pumpStep at hs
  split at hs
  · cases hs
    exact ⟨by simp, h.extractorInput, h.extractorRaw, h.blockRaw, h.blockOutput, h.upload⟩
  · split at hs
    · cases hs
      exact h.pumpDone
    · cases hs
      exact hpump _ h (by simp)
  · split at hs
    · cases hs
    · cases hs
      exact h.pumpDone
    · rename_i hsend
      split at hs
      · cases hs
        exact hpump _ (h.sentInput hsend) (by simp)
      · cases hs
        exact (h.sentInput hsend).pumpDone
  · cases hs

lemma Released.setExtractor (h : Released s) {x : Extractor} (hlive : x.phase.live = true) :
    Released { s with extractor := x } := by
  refine ⟨h.pump, ?_, ?_, h.blockRaw, h.blockOutput, h.upload⟩
  · intro hdead
    rw [show x.phase.live = false from hdead] at hlive
    cases hlive
  · intro hdead
    rw [show x.phase.live = false from hdead] at hlive
    cases hlive

lemma Released.extractorGone (h : Released s) (phase : ExtractPhase) : Released (extractorGone phase s) :=
  ⟨h.pump, fun _ => rfl, fun _ => rfl, h.blockRaw, h.blockOutput, h.upload⟩

/-- A message sent to the block, which has not returned. -/
lemma Released.sentRaw (h : Released s) {msg : StreamMsg} {raw : Channel StreamMsg recordChannelCapacity}
    (hsend : s.raw.send msg = .sent raw) : Released { s with raw := raw } := by
  have hgrew := Channel.grew_of_send hsend
  refine ⟨h.pump, h.extractorInput, ?_, ?_, h.blockOutput, h.upload⟩
  · intro hdead
    rw [← h.extractorRaw hdead]
    exact hgrew.senderGone
  · intro result hdone
    have hgone := h.blockRaw result hdone
    rw [hgrew.listening] at hgone
    cases hgone

lemma Released.tookInput (h : Released s) {msg : ByteMsg} {input : Channel ByteMsg inputChannelCapacity}
    (hrecv : s.input.recv = .got msg input) : Released { s with input := input } := by
  have htook := Channel.took_of_recv hrecv
  refine ⟨?_, ?_, h.extractorRaw, h.blockRaw, h.blockOutput, h.upload⟩
  · intro hdone
    exact htook.senderGone.trans (h.pump hdone)
  · intro hdead
    exact htook.receiverGone.trans (h.extractorInput hdead)

lemma extractStep_released (h : Released s) {askInput : Bool} (hs : extractStep float askInput s = some s') :
    Released s' := by
  unfold extractStep at hs
  simp only at hs
  split at hs
  · split at hs
    · split at hs
      · cases hs
        exact h.setExtractor rfl
      · cases hs
    · split at hs
      · cases hs
        exact h.setExtractor rfl
      · split at hs
        · cases hs
          exact h.setExtractor rfl
        · split at hs
          · cases hs
          · cases hs
            exact h.setExtractor rfl
  · split at hs
    · cases hs
    · rename_i hrecv
      cases hs
      exact (h.tookInput hrecv).setExtractor rfl
    · rename_i hrecv
      cases hs
      exact (h.tookInput hrecv).setExtractor rfl
    · cases hs
      exact h.setExtractor rfl
  · split at hs
    · cases hs
    · cases hs
      exact h.setExtractor rfl
    · rename_i hsend
      cases hs
      exact (h.sentRaw hsend).setExtractor rfl
  · split at hs
    · cases hs
    · cases hs
      exact h.extractorGone .done
    · rename_i hsend
      cases hs
      exact (h.sentRaw hsend).extractorGone .done
  · cases hs
  · cases hs

lemma panicStep_released (h : Released s) (hs : panicStep s = some s') : Released s' := by
  unfold panicStep at hs
  split at hs
  · cases hs
  · cases hs
  · cases hs
    exact h.extractorGone .panicked

lemma Released.setBlock (h : Released s) (block : Block gz) : Released (setBlock s block) := by
  unfold Process.setBlock
  split
  · exact ⟨h.pump, h.extractorInput, h.extractorRaw, fun _ _ => rfl, fun _ _ => rfl, h.upload⟩
  · rename_i hrunning
    exact ⟨h.pump, h.extractorInput, h.extractorRaw, fun result hdone => (hrunning result hdone).elim,
      fun result hdone => (hrunning result hdone).elim, h.upload⟩

lemma Released.tookRaw (h : Released s) {msg : StreamMsg} {raw : Channel StreamMsg recordChannelCapacity}
    (hrecv : s.raw.recv = .got msg raw) : Released { s with raw := raw } := by
  have htook := Channel.took_of_recv hrecv
  refine ⟨h.pump, h.extractorInput, ?_, ?_, h.blockOutput, h.upload⟩
  · intro hdead
    exact htook.senderGone.trans (h.extractorRaw hdead)
  · intro result hdone
    exact htook.receiverGone.trans (h.blockRaw result hdone)

/-- A message sent to the upload, which has not returned. -/
lemma Released.sentOutput (h : Released s) {msg : ByteMsg} {output : Channel ByteMsg outputChannelCapacity}
    (hsend : s.output.send msg = .sent output) : Released { s with output := output } := by
  have hgrew := Channel.grew_of_send hsend
  refine ⟨h.pump, h.extractorInput, h.extractorRaw, h.blockRaw, ?_, ?_⟩
  · intro result hdone
    exact hgrew.senderGone.trans (h.blockOutput result hdone)
  · intro result hdone
    have hgone := h.upload result hdone
    rw [hgrew.listening] at hgone
    cases hgone

lemma handOver_released (h : Released s) {msg : ByteMsg} {next : BlockPhase}
    (hs : handOver s msg next = some s') : Released s' := by
  unfold handOver at hs
  split at hs
  · cases hs
  · cases hs
    exact h.setBlock _
  · rename_i hsend
    cases hs
    exact (h.sentOutput hsend).setBlock _

lemma blockStep_released (h : Released s) {fault : Option EncoderCall}
    (hs : blockStep float engine threshold fault s = some s') : Released s' := by
  unfold blockStep at hs
  split at hs
  · split at hs
    · cases hs
      exact h.setBlock _
    · cases hs
      exact h.setBlock _
    · cases hs
  · split at hs
    · cases hs
    · split_ifs at hs
      cases hs
      exact h.setBlock _
    · rename_i hrecv
      obtain ⟨block, -, rfl⟩ := Option.map_eq_some_iff.mp hs
      exact (h.tookRaw hrecv).setBlock _
    · rename_i hrecv
      obtain ⟨block, -, rfl⟩ := Option.map_eq_some_iff.mp hs
      exact (h.tookRaw hrecv).setBlock _
  · split_ifs at hs
    exact handOver_released h hs
  · split_ifs at hs
    exact handOver_released h hs
  · split_ifs at hs
    exact handOver_released h hs
  · cases hs

lemma Released.setUpload (h : Released s) {upload : Upload} (hrunning : ∀ result, upload.phase ≠ .done result) :
    Released { s with upload := upload } :=
  ⟨h.pump, h.extractorInput, h.extractorRaw, h.blockRaw, h.blockOutput,
    fun result hdone => (hrunning result hdone).elim⟩

lemma Released.tookOutput (h : Released s) {msg : ByteMsg} {output : Channel ByteMsg outputChannelCapacity}
    (hrecv : s.output.recv = .got msg output) : Released { s with output := output } := by
  have htook := Channel.took_of_recv hrecv
  refine ⟨h.pump, h.extractorInput, h.extractorRaw, h.blockRaw, ?_, ?_⟩
  · intro result hdone
    exact htook.senderGone.trans (h.blockOutput result hdone)
  · intro result hdone
    exact htook.receiverGone.trans (h.upload result hdone)

lemma uploadReadStep_released (h : Released s) (hs : uploadReadStep s = some s') : Released s' := by
  unfold uploadReadStep at hs
  split at hs
  · rename_i hreading
    split at hs
    · cases hs
    · rename_i hrecv
      cases hs
      exact (h.tookOutput hrecv).setUpload (by simp [hreading])
    · rename_i hrecv
      cases hs
      exact (h.tookOutput hrecv).setUpload (by simp)
    · cases hs
      exact h.setUpload (by simp)
  · cases hs

/-- The upload has returned and dropped its reader. -/
lemma Released.uploadDone (h : Released s) (upload : Upload) :
    Released { s with upload := upload, output := s.output.dropReceiver } :=
  ⟨h.pump, h.extractorInput, h.extractorRaw, h.blockRaw, h.blockOutput, fun _ _ => rfl⟩

lemma uploadReturnStep_released (h : Released s) {error : Option StoreError}
    (hs : uploadReturnStep error s = some s') : Released s' := by
  unfold uploadReturnStep at hs
  split at hs
  · cases hs
    exact h.uploadDone _
  · cases hs
  · cases hs
  · cases hs
    exact h.uploadDone _

lemma returnEarly_released (h : Released s) {result : Except StoreError Unit}
    (hs : returnEarly result s = some s') : Released s' := by
  unfold returnEarly at hs
  split at hs
  · cases hs
  · cases hs
    exact h.uploadDone _

lemma freeStep_released (h : Released s) (action : StreamAction ⊕ Except StoreError Unit)
    (hs : freeStep float engine threshold body s action = some s') : Released s' := by
  rcases action with action | result
  · cases action with
    | pump => exact pumpStep_released h hs
    | extract askInput => exact extractStep_released h hs
    | panic => exact panicStep_released h hs
    | block fault => exact blockStep_released h hs
    | uploadRead => exact uploadReadStep_released h hs
    | uploadReturn error => exact uploadReturnStep_released h hs
  · exact returnEarly_released h hs

end Endpoints

section Progress
variable {gz : Gzip} {float : FloatParser} {engine : Engine} {threshold : ℕ} {body : Body} {s : StreamState gz}

variable (body) in
/-- The pump goes on unless it has to wait for the extraction task. -/
lemma pump_moves (hne : s.pump ≠ .done) (hroom : ∀ msg, s.input.send msg ≠ .blocked) :
    ∃ s', pumpStep body s = some s' := by
  unfold pumpStep
  split
  · exact ⟨_, rfl⟩
  · split
    · exact ⟨_, rfl⟩
    · exact ⟨_, rfl⟩
  · split
    · rename_i hblocked
      exact (hroom _ hblocked).elim
    · exact ⟨_, rfl⟩
    · split
      · exact ⟨_, rfl⟩
      · exact ⟨_, rfl⟩
  · rename_i hdone
    exact (hne hdone).elim

/-- The deserializer starves only while there may be more to receive. -/
lemma ending_of_starving {x : Extractor} (h : x.starving gz float = true) : x.ending = none := by
  simp only [Extractor.starving, decide_eq_true_eq] at h
  have hpending := h.2
  unfold Extractor.textEnd textOf at hpending
  split at hpending
  · simp only at hpending
    split_ifs at hpending
  · simp only at hpending
    split_ifs at hpending
  · assumption

variable (float) in
/-- The extraction task goes on unless it has to wait for the block or the pump. -/
lemma extractor_moves (hlive : s.extractor.phase.live = true) (hroom : ∀ msg, s.raw.send msg ≠ .blocked) :
    (∃ askInput s', extractStep float askInput s = some s') ∨ s.input.recv = .blocked := by
  cases hphase : s.extractor.phase with
  | working =>
    left
    by_cases hstarving : s.extractor.starving gz float = true
    · refine ⟨true, ?_⟩
      simp only [extractStep, hphase, if_true, ending_of_starving hstarving]
      exact ⟨_, rfl⟩
    · refine ⟨false, ?_⟩
      simp only [extractStep, hphase, Bool.false_eq_true, if_false, hstarving]
      split
      · exact ⟨_, rfl⟩
      · split
        · exact ⟨_, rfl⟩
        · exact ⟨_, rfl⟩
  | receiving =>
    cases hrecv : s.input.recv with
    | blocked => exact .inr rfl
    | closed => exact .inl ⟨false, by simp [extractStep, hphase, hrecv]⟩
    | got msg input => cases msg <;> exact .inl ⟨false, by simp [extractStep, hphase, hrecv]⟩
  | sending text =>
    left
    refine ⟨false, ?_⟩
    simp only [extractStep, hphase]
    cases hsend : s.raw.send (.record text) with
    | blocked => exact (hroom _ hsend).elim
    | refused => exact ⟨_, rfl⟩
    | sent raw => exact ⟨_, rfl⟩
  | finishing kind =>
    left
    refine ⟨false, ?_⟩
    simp only [extractStep, hphase]
    cases hsend : s.raw.send (.finished kind) with
    | blocked => exact (hroom _ hsend).elim
    | refused => exact ⟨_, rfl⟩
    | sent raw => exact ⟨_, rfl⟩
  | done => simp [hphase, ExtractPhase.live] at hlive
  | panicked => simp [hphase, ExtractPhase.live] at hlive

lemma handOver_moves (hroom : ∀ msg, s.output.send msg ≠ .blocked) (msg : ByteMsg) (next : BlockPhase) :
    ∃ s', handOver s msg next = some s' := by
  unfold handOver
  split
  · rename_i hblocked
    exact (hroom _ hblocked).elim
  · exact ⟨_, rfl⟩
  · exact ⟨_, rfl⟩

lemma finishStep_moves (st : Filtering gz) (kind : FinishKind) : ∃ block, finishStep none st kind = some block := by
  unfold finishStep
  split
  · by_cases hkept : 0 < st.tally.kept
    · simp only [hkept, if_true]
      exact ⟨_, rfl⟩
    · simp only [hkept, if_false, if_true]
      exact ⟨_, rfl⟩
  · exact ⟨_, rfl⟩
  · exact ⟨_, rfl⟩

variable (float engine threshold) in
/-- The block goes on unless it has to wait for the upload or the extraction task. -/
lemma block_moves (hrunning : ∀ result, s.block.phase ≠ .done result)
    (hroom : ∀ msg, s.output.send msg ≠ .blocked) :
    (∃ s', blockStep float engine threshold none s = some s') ∨ s.raw.recv = .blocked := by
  cases hphase : s.block.phase with
  | starting => exact .inl ⟨_, by simp only [blockStep, hphase]; rfl⟩
  | receiving =>
    cases hrecv : s.raw.recv with
    | blocked => exact .inr rfl
    | closed => exact .inl ⟨_, by simp only [blockStep, hphase, hrecv, if_true]; rfl⟩
    | got msg raw =>
      left
      cases msg with
      | record text =>
        simp only [blockStep, hphase, hrecv, recordStep]
        exact ⟨_, rfl⟩
      | finished kind =>
        obtain ⟨block, hblock⟩ := finishStep_moves s.block.st kind
        simp only [blockStep, hphase, hrecv, hblock]
        exact ⟨_, rfl⟩
  | flushing chunk =>
    left
    simp only [blockStep, hphase, if_true]
    exact handOver_moves hroom _ _
  | closing tail =>
    left
    simp only [blockStep, hphase, if_true]
    exact handOver_moves hroom _ _
  | aborting message result =>
    left
    simp only [blockStep, hphase, if_true]
    exact handOver_moves hroom _ _
  | done result => exact (hrunning result hphase).elim

variable (float engine threshold body) in
/-- The upload goes on unless it has to wait for the block. -/
lemma upload_moves (hrunning : ∀ result, s.upload.phase ≠ .done result) :
    (∃ action s', action.faultless s = true ∧ streamStep float engine threshold body s action = some s') ∨
      s.output.recv = .blocked := by
  have henabled : ∀ action : StreamAction, action.faultless s = true →
      (streamStep float engine threshold body s action).isSome = true →
      ∃ action s', action.faultless s = true ∧ streamStep float engine threshold body s action = some s' := by
    intro action hfaultless hsome
    obtain ⟨s', hs⟩ := Option.isSome_iff_exists.mp hsome
    exact ⟨action, s', hfaultless, hs⟩
  cases hphase : s.upload.phase with
  | reading =>
    cases hrecv : s.output.recv with
    | blocked => exact .inr rfl
    | closed => exact .inl (henabled .uploadRead rfl (by simp [streamStep, uploadReadStep, hphase, hrecv]))
    | got msg output =>
      refine .inl (henabled .uploadRead rfl ?_)
      cases msg <;> simp [streamStep, uploadReadStep, hphase, hrecv]
  | atEof => exact .inl (henabled (.uploadReturn none) rfl (by simp [streamStep, uploadReturnStep, hphase]))
  | broken =>
    refine .inl (henabled (.uploadReturn (some (.backend "body read error"))) ?_ ?_)
    · simp [StreamAction.faultless, hphase]
    · simp [streamStep, uploadReturnStep, hphase]
  | done result => exact (hrunning result hphase).elim

/-- In a state that keeps the endpoints of its running parties only, some party that has not
returned goes on. -/
lemma moves_of_released (h : Released s) (hrunning : s.finished = false) :
    ∃ action s', action.faultless s = true ∧ streamStep float engine threshold body s action = some s' := by
  -- a pump that runs goes on if the task is gone or waits for it
  have hpump : s.pump ≠ .done → (s.extractor.phase.live = false ∨ s.input.queue = []) →
      ∃ action s', action.faultless s = true ∧ streamStep float engine threshold body s action = some s' := by
    intro hne hroom
    obtain ⟨s', hs⟩ := pump_moves body hne (fun msg => hroom.elim
      (fun hdead => Channel.send_of_gone (h.extractorInput hdead) msg)
      (fun hempty => Channel.send_of_empty (by decide) hempty msg))
    exact ⟨.pump, s', rfl, hs⟩
  have hextractor : s.extractor.phase.live = true → (s.raw.receiverGone = true ∨ s.raw.queue = []) →
      ∃ action s', action.faultless s = true ∧ streamStep float engine threshold body s action = some s' := by
    intro hlive hroom
    rcases extractor_moves float hlive (fun msg => hroom.elim
      (fun hgone => Channel.send_of_gone hgone msg)
      (fun hempty => Channel.send_of_empty (by decide) hempty msg)) with ⟨askInput, s', hs⟩ | hwaits
    · exact ⟨.extract askInput, s', rfl, hs⟩
    · obtain ⟨hempty, hsender⟩ := Channel.empty_of_blocked hwaits
      refine hpump (fun hdone => ?_) (.inr hempty)
      simp [h.pump hdone] at hsender
  have hblock : (∀ result, s.block.phase ≠ .done result) → (s.output.receiverGone = true ∨ s.output.queue = []) →
      ∃ action s', action.faultless s = true ∧ streamStep float engine threshold body s action = some s' := by
    intro hphase hroom
    rcases block_moves float engine threshold hphase (fun msg => hroom.elim
      (fun hgone => Channel.send_of_gone hgone msg)
      (fun hempty => Channel.send_of_empty (by decide) hempty msg)) with ⟨s', hs⟩ | hwaits
    · exact ⟨.block none, s', rfl, hs⟩
    · obtain ⟨hempty, hsender⟩ := Channel.empty_of_blocked hwaits
      refine hextractor ?_ (.inr hempty)
      by_contra hdead
      simp [h.extractorRaw (by simpa using hdead)] at hsender
  by_cases hupload : ∃ result, s.upload.phase = .done result
  · obtain ⟨result, hupload⟩ := hupload
    by_cases hdone : ∃ result, s.block.phase = .done result
    · obtain ⟨result', hdone⟩ := hdone
      by_cases hlive : s.extractor.phase.live = true
      · exact hextractor hlive (.inl (h.blockRaw _ hdone))
      · refine hpump (fun hpumped => ?_) (.inl (by simpa using hlive))
        simp [StreamState.finished, hpumped, hdone, hupload, hlive] at hrunning
    · exact hblock (fun result' hphase => hdone ⟨result', hphase⟩) (.inl (h.upload _ hupload))
  · rcases upload_moves float engine threshold body
      (fun result hphase => hupload ⟨result, hphase⟩) with hmoves | hwaits
    · exact hmoves
    · obtain ⟨hempty, hsender⟩ := Channel.empty_of_blocked hwaits
      refine hblock (fun result hphase => ?_) (.inr hempty)
      simp [h.blockOutput _ hphase] at hsender

/-- Stream mode does not deadlock. In every state that any interleaving of the four parties can
reach, with a panic of the extraction task, failures of the encoder and an upload that returns at
any point, some step is enabled while a party has not returned, and it is not a failure. -/
theorem stream_run_cannot_deadlock (float : FloatParser) (engine : Engine) (cfg : Processing) (threshold : ℕ)
    (body : Body) (s : StreamState gz)
    (hreach : Reachable (freeStep float engine threshold body) (.start gz cfg body) s)
    (hrunning : s.finished = false) :
    ∃ action s', action.faultless s = true ∧ streamStep float engine threshold body s action = some s' := by
  have hreleased : Released s :=
    hreach.invariant (start_released cfg) (fun _ action _ h hs => freeStep_released h action hs)
  exact moves_of_released hreleased hrunning

/-- The upload of the sample object returns before it has read anything. -/
theorem stream_run_cannot_deadlock_sample :
    ∃ s, Reachable (freeStep (fun _ => none) passEngine outputFlushThreshold (sampleBody envelopeText))
        (.start storedGzip sampleProcessing (sampleBody envelopeText)) s ∧
      s.upload.phase = .done (.error (.backend "denied")) ∧
      ∃ action s', action.faultless s = true ∧
        streamStep (fun _ => none) passEngine outputFlushThreshold (sampleBody envelopeText) s action = some s' := by
  obtain ⟨s, hs, hphase, hrunning⟩ : ∃ s,
      freeStep (fun _ => none) passEngine outputFlushThreshold (sampleBody envelopeText)
        (.start storedGzip sampleProcessing (sampleBody envelopeText)) (.inr (.error (.backend "denied"))) = some s ∧
      s.upload.phase = .done (.error (.backend "denied")) ∧ s.finished = false :=
    ⟨_, rfl, rfl, rfl⟩
  have hreach := Reachable.start.step _ hs
  exact ⟨s, hreach, hphase, stream_run_cannot_deadlock (fun _ => none) passEngine sampleProcessing
    outputFlushThreshold (sampleBody envelopeText) s hreach hrunning⟩

end Progress

end CloudTrailFilter.Process
