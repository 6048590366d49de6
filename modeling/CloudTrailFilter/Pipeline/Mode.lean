import CloudTrailFilter.Pipeline.Source

/-!
# The mode that decides about an object

An object is decided by stream mode if the settings select it, or if buffer mode finds the
object too large and `on_object_too_large` is `stream`. Whether it is too large is a matter of
what the fetch delivers: no later step of buffer mode gives that error. Here too is what the runs
of either mode bill to `BytesIn`.
-/

namespace CloudTrailFilter.Pipeline
open CloudTrailFilter.Json CloudTrailFilter.Filter CloudTrailFilter.Process

section TooLarge

/-- A computation that ends in `ObjectTooLarge`. -/
def TooLarge {α : Type} (x : ObjectM α) : Prop := ∃ limit, x.result = .error (.objectTooLarge limit)

lemma TooLarge.bind {α β : Type} {x : ObjectM α} {f : α → ObjectM β} (h : TooLarge (x >>= f)) :
    TooLarge x ∨ ∃ a, x.result = .ok a ∧ TooLarge (f a) := by
  obtain ⟨limit, h⟩ := h
  cases hx : x.result with
  | error e =>
    rw [Effect.bind_of_error hx] at h
    exact .inl ⟨limit, by rw [hx, Except.error.inj h]⟩
  | ok a =>
    rw [Effect.bind_of_ok hx] at h
    exact .inr ⟨a, rfl, limit, h⟩

lemma not_tooLarge_pure {α : Type} (a : α) : ¬TooLarge (pure a : ObjectM α) := by
  simp [TooLarge]

lemma not_tooLarge_publish (m : Metrics) : ¬TooLarge (Effect.publish m : ObjectM Unit) := by
  simp [TooLarge, Effect.publish]

/-- Counting the object as processed after a computation cannot make it too large. -/
lemma not_tooLarge_bind {α β : Type} {x : ObjectM α} {f : α → ObjectM β} (hx : ¬TooLarge x)
    (hf : ∀ a, ¬TooLarge (f a)) : ¬TooLarge (x >>= f) := by
  intro h
  rcases h.bind with h | ⟨a, -, h⟩
  · exact hx h
  · exact hf a h

variable (gz : Gzip) (float : FloatParser) (settings : Settings) (engine : Engine) (attempt : Attempt)

lemma not_tooLarge_putBytes (dest : Location) (body : Bytes) : ¬TooLarge (putBytes attempt dest body) := by
  rcases putBytes_cases attempt dest body with h | ⟨e, h⟩ <;> simp [TooLarge, h]

lemma not_tooLarge_streamCopy (source dest : Location) (policy : BytesInPolicy) :
    ¬TooLarge (streamCopy settings attempt source dest policy) := by
  rcases streamCopy_cases settings attempt source dest policy with ⟨_, -, h⟩ | h | ⟨_, _, _, -, h⟩ <;>
    simp [TooLarge, h]

lemma not_tooLarge_copyUnparsable (source dest : Location) (bytes : Option Bytes) :
    ¬TooLarge (copyUnparsable settings attempt source dest bytes) := by
  unfold copyUnparsable
  refine not_tooLarge_bind (not_tooLarge_publish _) (fun _ => ?_)
  split_ifs
  · exact not_tooLarge_publish _
  · cases bytes with
    | some bytes => exact not_tooLarge_bind (not_tooLarge_putBytes attempt dest bytes) (fun _ => not_tooLarge_publish _)
    | none =>
      refine not_tooLarge_bind (not_tooLarge_streamCopy settings attempt source dest _) (fun copied => ?_)
      cases copied with
      | true => exact not_tooLarge_publish _
      | false => exact not_tooLarge_pure _

/-- Buffer mode finds the object too large: what it fetches is, or would be decompressed. -/
def TooLargeToBuffer : Prop :=
  ∃ body, attempt.fetch = .body body ∧
    (settings.processing.maxObjectBytes < body.bytes.length ∨
      body.ending = .eof ∧ ∃ limit,
        bufferRun gz float engine settings.processing attempt.compressFails body.bytes =
          .error (.objectTooLarge limit))

variable {gz float settings engine attempt}

/-- The fetch and the decompression are the only steps of buffer mode that find an object too
large. -/
lemma tooLarge_fetch_iff {f : Option Bytes → ObjectM Unit} {source : Location} (hnone : ¬TooLarge (f none))
    (hsome : ∀ bytes, TooLarge (f (some bytes)) ↔ ∃ limit,
      bufferRun gz float engine settings.processing attempt.compressFails bytes = .error (.objectTooLarge limit)) :
    TooLarge (fetchWithMissingPolicy settings attempt source >>= f) ↔
      TooLargeToBuffer gz float settings engine attempt := by
  unfold TooLargeToBuffer
  rcases fetchWithMissingPolicy_cases settings attempt source with
    ⟨body, hbody, hend, hfits, hfetch⟩ | hfetch | ⟨body, hbody, hlarge, hfetch⟩ | ⟨e, hfetch⟩
  · have hbind : TooLarge (fetchWithMissingPolicy settings attempt source >>= f) ↔ TooLarge (f (some body.bytes)) := by
      rw [hfetch, Effect.ok_bind]
      rfl
    rw [hbind, hsome]
    simp [hbody, hend, not_lt.mpr hfits]
  · have hbind : ¬TooLarge (fetchWithMissingPolicy settings attempt source >>= f) := by
      rw [hfetch, Effect.ok_bind]
      exact hnone
    refine iff_of_false hbind ?_
    rintro ⟨body, hbody, hlarge | ⟨hend, -⟩⟩
    · simp [fetchWithMissingPolicy, openWithMissingPolicy, hbody, hlarge] at hfetch
    · by_cases hlarge : settings.processing.maxObjectBytes < body.bytes.length <;>
        simp [fetchWithMissingPolicy, openWithMissingPolicy, hbody, hlarge, hend] at hfetch
  · refine iff_of_true ?_ ⟨body, hbody, .inl hlarge⟩
    rw [hfetch, Effect.error_bind]
    exact ⟨_, rfl⟩
  · have hbind : ¬TooLarge (fetchWithMissingPolicy settings attempt source >>= f) := by
      rw [hfetch, Effect.error_bind]
      simp [TooLarge]
    refine iff_of_false hbind ?_
    rintro ⟨body, hbody, hlarge | ⟨hend, -⟩⟩
    · simp [fetchWithMissingPolicy, openWithMissingPolicy, hbody, hlarge] at hfetch
    · by_cases hlarge : settings.processing.maxObjectBytes < body.bytes.length <;>
        simp [fetchWithMissingPolicy, openWithMissingPolicy, hbody, hlarge, hend] at hfetch

/-- A decompression that failed is copied or is the failure of the object. -/
lemma tooLarge_failed_iff {e : CoreError} {copy : ObjectM Unit} (hcopied : ¬TooLarge copy) :
    TooLarge (if copiesUnparsable settings e = true then copy else Effect.fail e) ↔
      ∃ limit, (.error e : Except CoreError (Outcome × RecordTally)) = .error (.objectTooLarge limit) := by
  by_cases hcopy : copiesUnparsable settings e = true
  · rw [if_pos hcopy]
    refine iff_of_false hcopied ?_
    rintro ⟨limit, h⟩
    cases h
    simp [copiesUnparsable, CoreError.isUnparsableSource] at hcopy
  · simp [hcopy, TooLarge]

variable (gz float settings engine attempt)

lemma tooLarge_processBuffer_iff (source dest : Location) :
    TooLarge (processBuffer gz float settings engine attempt source dest) ↔
      TooLargeToBuffer gz float settings engine attempt := by
  unfold processBuffer
  refine tooLarge_fetch_iff (not_tooLarge_pure ()) (fun bytes => ?_)
  simp only [Effect.publish_bind]
  rcases hres : bufferRun gz float engine settings.processing attempt.compressFails bytes with e | ⟨outcome, tally⟩
  · exact tooLarge_failed_iff (not_tooLarge_copyUnparsable settings attempt source dest (some bytes))
  · refine iff_of_false ?_ (by simp)
    have hpublish : ∀ m m' : Metrics, ¬TooLarge (do
        Effect.publish m
        Effect.publish m' : ObjectM Unit) :=
      fun m m' => not_tooLarge_bind (not_tooLarge_publish m) (fun _ => not_tooLarge_publish m')
    cases outcome with
    | nothingKept => exact hpublish _ _
    | written out =>
      cases out with
      | none => exact hpublish _ _
      | some out => exact not_tooLarge_bind (not_tooLarge_putBytes attempt dest out) (fun _ => hpublish _ _)
    | unrecognized =>
      refine not_tooLarge_bind ?_ (fun _ => hpublish _ _)
      unfold applyUnrecognizedPolicy
      cases settings.behavior.onUnrecognizedObject with
      | copy => exact not_tooLarge_putBytes attempt dest bytes
      | skip => exact not_tooLarge_pure _
      | error => simp [TooLarge]

lemma tooLarge_processDryRun_iff (source : Location) :
    TooLarge (processDryRun gz float settings engine attempt source) ↔
      TooLargeToBuffer gz float settings engine attempt := by
  unfold processDryRun
  refine tooLarge_fetch_iff (not_tooLarge_pure ()) (fun bytes => ?_)
  simp only [Effect.publish_bind]
  rcases hres : bufferRun gz float engine settings.processing attempt.compressFails bytes with e | ⟨outcome, tally⟩
  · exact tooLarge_failed_iff (not_tooLarge_copyUnparsable settings attempt source ("", "") none)
  · refine iff_of_false ?_ (by simp)
    by_cases hun : outcome = .unrecognized <;> simp [hun, TooLarge, Effect.publish]

/-- Whether an object is tried again in stream mode. -/
lemma retried_runBuffer_iff (source dest : Location) :
    retriedViaStream settings (runBuffer gz float settings engine attempt source dest).result = true ↔
      settings.behavior.onObjectTooLarge = .stream ∧ TooLargeToBuffer gz float settings engine attempt := by
  have hretried : ∀ x : ObjectM Unit, retriedViaStream settings x.result = true ↔
      settings.behavior.onObjectTooLarge = .stream ∧ TooLarge x := by
    intro x
    unfold retriedViaStream TooLarge
    split
    · rename_i limit h
      simp [h]
    · rename_i hne
      simp only [Bool.false_eq_true, false_iff, not_and, not_exists]
      exact fun _ limit h => hne limit h
  rw [hretried]
  unfold runBuffer
  split_ifs
  · rw [tooLarge_processDryRun_iff]
  · rw [tooLarge_processBuffer_iff]

/-- Stream mode decides about the object. -/
def DecidedByStream (object : ObjectRef) : Prop :=
  selectMode settings object.size = .stream ∨
    settings.behavior.onObjectTooLarge = .stream ∧ TooLargeToBuffer gz float settings engine attempt

lemma decidingMode_eq_stream_iff (object : ObjectRef) (dest : Location) :
    decidingMode gz float settings engine attempt object dest = .stream ↔
      DecidedByStream gz float settings engine attempt object := by
  unfold decidingMode DecidedByStream
  cases selectMode settings object.size with
  | stream => simp
  | buffer =>
    rw [← retried_runBuffer_iff gz float settings engine attempt (object.bucket, object.key) dest]
    by_cases h : retriedViaStream settings
        (runBuffer gz float settings engine attempt (object.bucket, object.key) dest).result = true <;> simp [h]

end TooLarge

section Runs
variable (gz : Gzip) (float : FloatParser) {settings : Settings} (engine : Engine)

/-- What a run of stream mode bills to `BytesIn`: a body that was decided about was read whole. -/
def billedBytes (env : StreamEnv) (body : Body) (result : Except CoreError Outcome) : ℕ :=
  match result with
  | .ok _ => body.bytes.length
  | .error _ => env.pumped

/-- What a run of stream mode publishes: bytes in both directions and its tally. -/
lemma streamRun_metrics (cfg : Processing) (env : StreamEnv) (body : Body) :
    let run := streamRun gz float engine cfg env body
    ∃ k, run.metrics = Metrics.addBytesIn (billedBytes env body run.result) + Metrics.addBytesOut k +
      run.tally.commit engine := by
  intro run
  rcases streamRunAt_cases gz float engine cfg outputFlushThreshold env body with
    ⟨-, -, -, hrun⟩ | ⟨-, -, hrun⟩ | ⟨-, hrun⟩ | ⟨_, -, hrun⟩ | ⟨_, hrun⟩ | ⟨_, hrun⟩ <;>
    replace hrun : run = _ := hrun <;> rw [hrun]
  · exact ⟨_, rfl⟩
  all_goals exact ⟨0, by simp [billedBytes]⟩

/-- Stream mode decides only about a body that the visitors accept. -/
lemma streamRun_ok_extraction {cfg : Processing} {env : StreamEnv} {body : Body} {outcome : Outcome}
    (h : (streamRun gz float engine cfg env body).result = .ok outcome) :
    ∃ found, (extraction gz float body.chunks (some body.ending)).result = .ok found := by
  unfold streamRun at h
  rcases streamRunAt_cases gz float engine cfg outputFlushThreshold env body with
    ⟨hfin, -, -, -⟩ | ⟨hfin, -, -⟩ | ⟨hfin, -⟩ | ⟨_, -, hrun⟩ | ⟨_, hrun⟩ | ⟨_, hrun⟩
  · exact ⟨_, finishKind_recordsFound hfin⟩
  · exact ⟨_, finishKind_recordsFound hfin⟩
  · exact ⟨_, finishKind_unrecognized hfin⟩
  all_goals simp [hrun] at h

/-- Stream mode decides only about a body whose reader came to its end. -/
lemma streamRun_ok_eof {cfg : Processing} {env : StreamEnv} {body : Body} {outcome : Outcome}
    (h : (streamRun gz float engine cfg env body).result = .ok outcome) : body.ending = .eof := by
  obtain ⟨found, hfound⟩ := streamRun_ok_extraction gz float engine h
  by_contra hend
  have hcut : (textOf gz body.chunks (some body.ending)).2 ≠ .eof := by
    intro heof
    exact hend (Option.some.inj (textOf_eof (Prod.ext rfl heof)).1)
  have hnone := extraction_cut float hcut
  simp [Sending.outcome, hfound] at hnone

/-- A run that fails on its source does not come to ask how its upload went. -/
lemma streamRun_upload {cfg : Processing} {env : StreamEnv} {body : Body} {e : CoreError}
    (h : (streamRun gz float engine cfg env body).result = .error e) (he : e.isUnparsableSource = true)
    (upload : Option StoreError) :
    streamRun gz float engine cfg { env with upload := upload } body = streamRun gz float engine cfg env body := by
  unfold streamRun streamRunAt at h ⊢
  cases hpanics : env.extractionPanics with
  | true => rfl
  | false =>
    cases hfails : env.encoderFails with
    | true => rfl
    | false =>
      simp only [hpanics, hfails, Bool.false_eq_true, if_false] at h ⊢
      cases hfinish : finishOf gz float env.overread body with
      | unrecognized => rfl
      | error failure => rfl
      | recordsFound =>
        simp only [hfinish] at h
        split_ifs at h
        cases hupload : env.upload with
        | none => simp [hupload] at h
        | some error =>
          simp only [hupload, Except.error.injEq] at h
          subst h
          cases he

lemma streamRun_unrecognized_iff (cfg : Processing) (env : StreamEnv) (body : Body) :
    (streamRun gz float engine cfg env body).result = .ok .unrecognized ↔
      env.extractionPanics = false ∧ env.encoderFails = false ∧
        finishOf gz float env.overread body = .unrecognized := by
  unfold streamRun streamRunAt
  cases env.extractionPanics with
  | true => simp
  | false =>
    cases env.encoderFails with
    | true => simp
    | false =>
      cases finishOf gz float env.overread body with
      | unrecognized => simp
      | error failure => simp
      | recordsFound =>
        simp only [Bool.false_eq_true, if_false]
        split_ifs
        · cases env.upload <;> simp
        · simp

/-- A run of stream mode fails on the source exactly if the extraction does. -/
lemma streamRun_unparsable_iff (cfg : Processing) (env : StreamEnv) (body : Body) :
    (∃ e, (streamRun gz float engine cfg env body).result = .error e ∧ copiesUnparsable settings e = true) ↔
      env.extractionPanics = false ∧ env.encoderFails = false ∧
        ∃ failure, finishOf gz float env.overread body = .error failure ∧
          copiesUnparsable settings failure.toError = true := by
  have hinternal : ∀ cause, copiesUnparsable settings (.internal cause) = false := by
    intro cause
    simp [copiesUnparsable, CoreError.isUnparsableSource]
  have hstore : ∀ e, copiesUnparsable settings (.store e) = false := by
    intro e
    simp [copiesUnparsable, CoreError.isUnparsableSource]
  unfold streamRun streamRunAt
  cases env.extractionPanics with
  | true => simp [hinternal]
  | false =>
    cases env.encoderFails with
    | true => simp [hinternal]
    | false =>
      cases finishOf gz float env.overread body with
      | unrecognized => simp
      | error failure => simp
      | recordsFound =>
        simp only [Bool.false_eq_true, if_false]
        split_ifs
        · cases env.upload <;> simp [hstore]
        · simp

lemma not_retried_of_ok {result : Except CoreError Unit} (h : ∀ limit, result ≠ .error (.objectTooLarge limit)) :
    retriedViaStream settings result = false := by
  unfold retriedViaStream
  split
  · exact (h _ rfl).elim
  · rfl

/-- Without a retry a run of buffer mode stands. -/
lemma orRetry_of_not_retried {run : ObjectM Unit} (retry : ObjectM Unit)
    (h : retriedViaStream settings run.result = false) : orRetry settings run retry = run := by
  obtain ⟨result, calls, metrics⟩ := run
  unfold orRetry
  simp only [Effect.attempt, Effect.ok_bind, h]
  cases result <;> simp

lemma orRetry_of_retried {run : ObjectM Unit} (retry : ObjectM Unit)
    (h : retriedViaStream settings run.result = true) :
    orRetry settings run retry =
      ⟨retry.result, run.calls ++ retry.calls, run.metrics + retry.metrics⟩ := by
  unfold orRetry
  simp [Effect.attempt, Effect.ok_bind, h]

lemma objectsProcessed_of_failed {dest : Location} {P : Option Bytes → RecordTally → Prop} {x : ObjectM Unit}
    (h : Filed engine dest P x) {e : CoreError} (herr : x.result = .error e) :
    x.metrics.objectsProcessed = 0 := by
  cases h with
  | failed e' _ _ hm => exact congrArg Metrics.objectsProcessed hm
  | skipped hr => simp [hr] at herr
  | done out tally hP hr => simp [hr] at herr

end Runs

end CloudTrailFilter.Pipeline
