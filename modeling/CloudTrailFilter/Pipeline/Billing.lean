import CloudTrailFilter.Pipeline.Accounting
import CloudTrailFilter.Pipeline.Mode
import CloudTrailFilter.Pipeline.Preview
import CloudTrailFilter.Process.Pump

/-!
# What a processed object bills to `BytesIn`

The bytes of a source are billed where it is read to be judged: after the fetch of buffer mode,
unless stream mode will read the object again, by the pump of stream mode, or by a raw copy. No
other step bills them. So a processed object bills its length once, except for one that stream
mode found unparsable and copied: its pump may have been stopped where the parser gave up.
-/

namespace CloudTrailFilter

namespace Metrics

/-- The counters without `BytesIn`. -/
def unbilled : AddSubmonoid Metrics where
  carrier := {m | m.bytesIn = 0}
  zero_mem' := rfl
  add_mem' := by
    intro a b ha hb
    change a.bytesIn + b.bytesIn = 0
    rw [show a.bytesIn = 0 from ha, show b.bytesIn = 0 from hb]

end Metrics

namespace Pipeline
open CloudTrailFilter.Json CloudTrailFilter.Filter CloudTrailFilter.Process

lemma publish_unbilled {m : Metrics} (h : m.bytesIn = 0) :
    (Effect.publish m : ObjectM Unit).metrics ∈ Metrics.unbilled := h

lemma unbilled_policies : HoldsPolicies Metrics.unbilled := ⟨rfl, rfl, fun _ => rfl, fun _ _ => rfl⟩

section Buffer
variable (gz : Gzip) (float : FloatParser) (settings : Settings) (engine : Engine) (attempt : Attempt)

/-- What buffer mode bills: the bytes it fetched, unless stream mode is to read them again. -/
def bufferBill (source : Location) : ℕ :=
  match (fetchWithMissingPolicy settings attempt source).result with
  | .ok (some bytes) =>
    (billFetched settings (bufferRun gz float engine settings.processing attempt.compressFails bytes) bytes).bytesIn
  | _ => 0

/-- A path of buffer mode bills what it fetched, if nothing after the fetch bills. -/
lemma fetched_bytesIn {f : Option Bytes → ObjectM Unit} {rest : Bytes → ObjectM Unit} (source : Location)
    (hnone : f none = pure ())
    (hsome : ∀ bytes, f (some bytes) = do
      Effect.publish (billFetched settings
        (bufferRun gz float engine settings.processing attempt.compressFails bytes) bytes)
      rest bytes)
    (hrest : ∀ bytes, (rest bytes).metrics ∈ Metrics.unbilled) :
    (fetchWithMissingPolicy settings attempt source >>= f).metrics.bytesIn =
      bufferBill gz float settings engine attempt source := by
  unfold bufferBill
  rcases fetchWithMissingPolicy_cases settings attempt source with
    ⟨body, -, -, -, hfetch⟩ | hfetch | ⟨_, -, -, hfetch⟩ | ⟨_, hfetch⟩
  · rw [hfetch, Effect.ok_bind, hsome, Effect.publish_bind]
    change 0 + (_ + (rest body.bytes).metrics.bytesIn) = _
    rw [show (rest body.bytes).metrics.bytesIn = 0 from hrest body.bytes, zero_add, add_zero]
  · rw [hfetch, Effect.ok_bind, hnone]
    rfl
  · rw [hfetch, Effect.error_bind]
    rfl
  · rw [hfetch, Effect.error_bind]
    rfl

lemma runBuffer_bytesIn (source dest : Location) :
    (runBuffer gz float settings engine attempt source dest).metrics.bytesIn =
      bufferBill gz float settings engine attempt source := by
  unfold runBuffer
  split_ifs
  · unfold processDryRun
    refine fetched_bytesIn gz float settings engine attempt source rfl (fun _ => rfl) (fun bytes => ?_)
    rcases bufferRun gz float engine settings.processing attempt.compressFails bytes with e | ⟨outcome, tally⟩
    · simp only
      split_ifs
      · exact unbilled_policies.copyUnparsable_mem settings attempt (fun _ => rfl) source _ _
      · rfl
    · simp only
      split_ifs
      · exact Effect.bind_metrics_mem _ (publish_unbilled rfl) (fun _ => unbilled_policies.commit_mem engine tally)
      · exact unbilled_policies.commit_mem engine tally
  · unfold processBuffer
    refine fetched_bytesIn gz float settings engine attempt source rfl (fun _ => rfl) (fun bytes => ?_)
    rcases bufferRun gz float engine settings.processing attempt.compressFails bytes with e | ⟨outcome, tally⟩
    · simp only
      split_ifs
      · exact unbilled_policies.copyUnparsable_mem settings attempt (fun _ => rfl) source dest _
      · rfl
    · cases outcome with
      | nothingKept => exact unbilled_policies.commit_mem engine tally
      | written out =>
        cases out with
        | none => exact unbilled_policies.commit_mem engine tally
        | some out =>
          exact Effect.bind_metrics_mem _ (unbilled_policies.putBytes_mem attempt dest out)
            (fun _ => unbilled_policies.commit_mem engine tally)
      | unrecognized =>
        exact Effect.bind_metrics_mem _ (publish_unbilled rfl) (fun _ => Effect.bind_metrics_mem _
          (unbilled_policies.applyUnrecognizedPolicy_mem settings attempt source dest bytes)
          (fun _ => unbilled_policies.commit_mem engine tally))

end Buffer

section Stream
variable (gz : Gzip) (float : FloatParser) {settings : Settings} (engine : Engine) {attempt : Attempt}

/-- An object that is processed was there. -/
lemma opened_of_processed {f : Option Body → ObjectM Unit} {source : Location} (hnone : f none = pure ())
    (h : 0 < (openWithMissingPolicy settings attempt.read source >>= f).metrics.objectsProcessed) :
    ∃ body, attempt.read = .body body ∧
      (openWithMissingPolicy settings attempt.read source >>= f).metrics = (f (some body)).metrics := by
  rcases openWithMissingPolicy_cases settings attempt.read source with ⟨body, hbody, hopen⟩ | hopen | ⟨e, hopen⟩
  · refine ⟨body, hbody, ?_⟩
    rw [hopen, Effect.ok_bind, zero_add]
  · rw [hopen, Effect.ok_bind, hnone] at h
    exact absurd h (lt_irrefl 0)
  · rw [hopen, Effect.error_bind] at h
    exact absurd h (lt_irrefl 0)

/-- The run of stream mode that decides about a body, in a dry run into a `DiscardStore`. -/
def streamDecision (settings : Settings) (attempt : Attempt) (body : Body) : StreamRun :=
  streamRun gz float engine settings.processing
    (if settings.behavior.dryRun then { attempt.stream with upload := none } else attempt.stream) body

variable (attempt) in
lemma streamDecision_dry (hdry : settings.behavior.dryRun = true) (body : Body) :
    streamRun gz float engine settings.processing { attempt.stream with upload := none } body =
      streamDecision gz float engine settings attempt body := by
  simp [streamDecision, hdry]

variable (attempt) in
lemma streamDecision_live (hdry : settings.behavior.dryRun = false) (body : Body) :
    streamRun gz float engine settings.processing attempt.stream body =
      streamDecision gz float engine settings attempt body := by
  simp [streamDecision, hdry]

variable (settings attempt) in
lemma streamDecision_bytesIn (body : Body) :
    (streamDecision gz float engine settings attempt body).metrics.bytesIn =
        billedBytes attempt.stream body (streamDecision gz float engine settings attempt body).result ∧
      (streamDecision gz float engine settings attempt body).metrics.objectsProcessed = 0 := by
  have hpumped : (if settings.behavior.dryRun then { attempt.stream with upload := none } else attempt.stream).pumped =
      attempt.stream.pumped := by
    split_ifs <;> rfl
  unfold streamDecision
  obtain ⟨k, hm⟩ := streamRun_metrics gz float engine settings.processing
    (if settings.behavior.dryRun then { attempt.stream with upload := none } else attempt.stream) body
  rw [hm]
  refine ⟨?_, rfl⟩
  change billedBytes _ body _ + 0 + 0 = _
  unfold billedBytes
  rw [hpumped]
  rfl

/-- What a path of stream mode bills after the run that decides. -/
lemma bytesIn_after_decision {body : Body} {decided : Metrics} {rest : ObjectM Unit}
    (hdecided : decided.bytesIn =
      billedBytes attempt.stream body (streamDecision gz float engine settings attempt body).result)
    (hzero : decided.objectsProcessed = 0) (hrest : rest.metrics ∈ Metrics.unbilled)
    (hfails : ∀ e, (streamDecision gz float engine settings attempt body).result = .error e →
      copiesUnparsable settings e = false → rest = Effect.fail e)
    (h : 0 < (decided + rest.metrics).objectsProcessed) :
    (decided + rest.metrics).bytesIn =
        billedBytes attempt.stream body (streamDecision gz float engine settings attempt body).result ∧
      ∀ e, (streamDecision gz float engine settings attempt body).result = .error e →
        copiesUnparsable settings e = true := by
  constructor
  · change decided.bytesIn + rest.metrics.bytesIn = _
    rw [hdecided, show rest.metrics.bytesIn = 0 from hrest, add_zero]
  · intro e he
    by_contra hcopy
    rw [hfails e he (by simpa using hcopy)] at h
    change 0 < decided.objectsProcessed + 0 at h
    omega

/-- A processed object of stream mode bills what the run that decided about it did. If that run
failed, the object was copied. -/
lemma runStream_bytesIn {source dest : Location}
    (h : 0 < (runStream gz float settings engine attempt source dest).metrics.objectsProcessed) :
    ∃ body, attempt.read = .body body ∧
      (runStream gz float settings engine attempt source dest).metrics.bytesIn =
        billedBytes attempt.stream body (streamDecision gz float engine settings attempt body).result ∧
      ∀ e, (streamDecision gz float engine settings attempt body).result = .error e →
        copiesUnparsable settings e = true := by
  unfold runStream at h ⊢
  cases hdry : settings.behavior.dryRun with
  | true =>
    simp only [hdry, if_true] at h ⊢
    unfold processDryRunStream at h ⊢
    obtain ⟨body, hbody, hmetrics⟩ := opened_of_processed rfl h
    obtain ⟨hbill, hzero⟩ := streamDecision_bytesIn gz float settings engine attempt body
    refine ⟨body, hbody, ?_⟩
    have hrun := streamDecision_dry gz float engine attempt hdry body
    rw [hmetrics] at h ⊢
    simp only [hrun, Effect.publish_bind] at h ⊢
    refine bytesIn_after_decision gz float engine hbill rfl ?_ ?_ h
    · split
      · split_ifs
        · exact unbilled_policies.copyUnparsable_mem settings attempt (fun _ => rfl) source _ _
        · rfl
      · split_ifs
        · exact Effect.bind_metrics_mem _ (publish_unbilled rfl) (fun _ => publish_unbilled rfl)
        · exact publish_unbilled rfl
    · intro e he hcopy
      simp [he, hcopy]
  | false =>
    simp only [hdry, Bool.false_eq_true, if_false] at h ⊢
    unfold processStream at h ⊢
    obtain ⟨body, hbody, hmetrics⟩ := opened_of_processed rfl h
    obtain ⟨hbill, hzero⟩ := streamDecision_bytesIn gz float settings engine attempt body
    refine ⟨body, hbody, ?_⟩
    have hrun := streamDecision_live gz float engine attempt hdry body
    rw [hmetrics] at h ⊢
    simp only [streamToStore, Effect.attempt, Effect.ok_bind, hrun] at h ⊢
    refine bytesIn_after_decision gz float engine hbill hzero ?_ ?_ h
    · split
      · split_ifs
        · exact unbilled_policies.copyUnparsable_mem settings attempt (fun _ => rfl) source dest _
        · rfl
      · split
        · refine Effect.bind_metrics_mem _ (publish_unbilled rfl) (fun _ => ?_)
          split
          · exact unbilled_policies.copied_mem settings attempt (fun _ => rfl) source dest
          · exact publish_unbilled rfl
          · rfl
        · exact publish_unbilled rfl
        · exact publish_unbilled rfl
    · intro e he hcopy
      simp [he, hcopy]

/-- An object that stream mode finds unparsable is processed exactly if its copy is. -/
lemma runStream_of_unparsable {body : Body} (hbody : attempt.read = .body body) {e : CoreError}
    (hresult : (streamDecision gz float engine settings attempt body).result = .error e)
    (hcopy : copiesUnparsable settings e = true) (source dest : Location) :
    (runStream gz float settings engine attempt source dest).metrics.objectsProcessed =
      (copyUnparsable settings attempt source (if settings.behavior.dryRun then ("", "") else dest)
        none).metrics.objectsProcessed := by
  obtain ⟨-, hzero⟩ := streamDecision_bytesIn gz float settings engine attempt body
  have hopen : openWithMissingPolicy settings attempt.read source = ⟨.ok (some body), [.getStream source], 0⟩ := by
    simp [openWithMissingPolicy, hbody]
  unfold runStream
  cases hdry : settings.behavior.dryRun with
  | true =>
    have hrun := streamDecision_dry gz float engine attempt hdry body
    simp only [if_true, processDryRunStream, hopen, Effect.ok_bind, hrun, hresult, hcopy, Effect.publish_bind]
    change 0 + (0 + _) = _
    rw [zero_add, zero_add]
  | false =>
    have hrun := streamDecision_live gz float engine attempt hdry body
    simp only [Bool.false_eq_true, if_false, processStream, hopen, Effect.ok_bind, streamToStore, Effect.attempt, hrun,
      hresult, hcopy, if_true]
    change 0 + ((streamDecision gz float engine settings attempt body).metrics.objectsProcessed + _) = _
    rw [hzero, zero_add, zero_add]

end Stream

section Object
variable (gz : Gzip) (float : FloatParser) (settings : Settings) (engine : Engine) (attempt : Attempt)

/-- The run of stream mode is one that its four parties can come to together. -/
def Attempt.Interleaved : Prop :=
  ∀ body, attempt.read = .body body → ∃ s : StreamState gz,
    Concurrency.Reachable (streamStep float engine outputFlushThreshold body) (.start gz settings.processing body) s ∧
      s.joined engine = some (streamDecision gz float engine settings attempt body)

variable {gz float settings engine attempt} in
/-- Then the pump of a run that fails has read some first chunks of what the reader delivers. -/
theorem Attempt.Interleaved.pumped (hruns : attempt.Interleaved gz float settings engine) {body : Body}
    (hbody : attempt.read = .body body) {e : CoreError}
    (hresult : (streamDecision gz float engine settings attempt body).result = .error e) :
    ∃ n ≤ body.chunks.length, attempt.stream.pumped = (body.chunks.take n).flatten.length := by
  obtain ⟨s, hreach, hjoined⟩ := hruns body hbody
  obtain ⟨n, hread⟩ := reachable_readTo hreach
  have hbill := (streamDecision_bytesIn gz float settings engine attempt body).1
  rw [joined_metrics_of_error hjoined hresult, hresult] at hbill
  exact ⟨n, hread.le, hbill.symm.trans hread.bytesIn⟩

/-- Into a store whose uploads succeed, both the dry run and the live run take the one run that decides. -/
lemma streamDecision_steady (hupload : attempt.stream.upload = none) (body : Body) :
    streamDecision gz float engine settings attempt body =
      streamRun gz float engine settings.processing attempt.stream body := by
  have henv : { attempt.stream with upload := none } = attempt.stream := by rw [← hupload]
  unfold streamDecision
  rw [henv, ite_self]

/-- So what one can come to the other can, too. -/
theorem interleaved_withDryRun (hupload : attempt.stream.upload = none) :
    attempt.Interleaved gz float (settings.withDryRun true) engine ↔
      attempt.Interleaved gz float (settings.withDryRun false) engine := by
  simp only [Attempt.Interleaved, streamDecision_steady _ _ _ _ _ hupload, withDryRun_processing]

variable {gz float settings engine attempt} in
/-- What the preview compares of the two pumps is some first chunks of what the reader delivers. -/
theorem Attempt.Interleaved.pumpBill (hruns : attempt.Interleaved gz float settings engine)
    (hupload : attempt.stream.upload = none) (object : ObjectRef) :
    pumpBill gz float settings engine attempt object = 0 ∨ ∃ body, attempt.read = .body body ∧
      ∃ n ≤ body.chunks.length, pumpBill gz float settings engine attempt object = (body.chunks.take n).flatten.length := by
  unfold Pipeline.pumpBill streamBill
  cases decidingMode gz float settings engine attempt object (destOf settings object) with
  | buffer => exact .inl rfl
  | stream =>
    cases hread : attempt.read with
    | notFound => exact .inl rfl
    | failed message => exact .inl rfl
    | body body =>
      cases hresult : (streamRun gz float engine settings.processing attempt.stream body).result with
      | ok outcome => exact .inl (by simp [stoppedAt, hresult])
      | error e =>
        have hdecision : (streamDecision gz float engine settings attempt body).result = .error e := by
          rw [streamDecision_steady _ _ _ _ _ hupload, hresult]
        obtain ⟨n, hn, hpumped⟩ := hruns.pumped hread hdecision
        exact .inr ⟨body, rfl, n, hn, by simp [stoppedAt, hresult, hpumped]⟩

/-- Buffer mode bills nothing for an object that stream mode reads again. -/
lemma bufferBill_of_retried (source : Location) (hpolicy : settings.behavior.onObjectTooLarge = .stream)
    (hlarge : TooLargeToBuffer gz float settings engine attempt) :
    bufferBill gz float settings engine attempt source = 0 := by
  obtain ⟨body, hbody, hlarge⟩ := hlarge
  unfold bufferBill
  rcases fetchWithMissingPolicy_cases settings attempt source with
    ⟨body', hbody', hend, hfits, hfetch⟩ | hfetch | ⟨_, -, -, hfetch⟩ | ⟨_, hfetch⟩ <;> rw [hfetch]
  rw [hbody] at hbody'
  cases hbody'
  rcases hlarge with hlarge | ⟨-, limit, hrun⟩
  · omega
  · simp [hrun, billFetched, retriedViaStream, hpolicy]
    rfl

variable {gz float settings engine attempt}

/-- An object that is counted as processed was filed. -/
lemma filed_of_processed {dest : Location} {P : Option Bytes → RecordTally → Prop} {x : ObjectM Unit}
    (hfiled : Filed engine dest P x) (h : 0 < x.metrics.objectsProcessed) :
    x.result = .ok () ∧ ∃ out tally, P out tally := by
  cases hfiled with
  | failed e hr _ hm =>
    have hzero : x.metrics.objectsProcessed = 0 := congrArg Metrics.objectsProcessed hm
    omega
  | skipped hr _ hm =>
    have hzero : x.metrics.objectsProcessed = 0 := congrArg Metrics.objectsProcessed hm
    omega
  | done out tally hP hr => exact ⟨hr, out, tally, hP⟩

/-- An object that buffer mode processes bills its length. -/
lemma bufferBill_of_processed {source : Bytes} (hreads : attempt.Reads source) {location dest : Location}
    (h : 0 < (runBuffer gz float settings engine attempt location dest).metrics.objectsProcessed) :
    bufferBill gz float settings engine attempt location = source.length := by
  obtain ⟨hok, out, tally, body, hbody, hend, hfits, -⟩ := filed_of_processed (runBuffer_filed location dest) h
  have hsource : body.bytes = source := by
    simpa [hbody, GetAnswer.Reads, Body.Reads, hend] using hreads.fetch
  have hfetch : fetchWithMissingPolicy settings attempt location = ⟨.ok (some body.bytes), [.getStream location], 0⟩ := by
    simp [fetchWithMissingPolicy, openWithMissingPolicy, hbody, hend, not_lt.mpr hfits]
  have hstays : retriedViaStream settings
      (bufferRun gz float engine settings.processing attempt.compressFails body.bytes) = false := by
    by_contra hretried
    have hlarge : settings.behavior.onObjectTooLarge = .stream ∧
        TooLargeToBuffer gz float settings engine attempt := by
      unfold retriedViaStream at hretried
      split at hretried
      · rename_i limit hrun
        exact ⟨by simpa using hretried, body, hbody, .inr ⟨hend, limit, hrun⟩⟩
      · simp at hretried
    rw [← retried_runBuffer_iff gz float settings engine attempt location dest, hok] at hlarge
    simp [retriedViaStream] at hlarge
  unfold bufferBill
  rw [hfetch]
  simp only [billFetched, hstays, Bool.false_eq_true, if_false]
  rw [← hsource]
  rfl

/-- Where stream mode decides, it bills and processes. -/
lemma processObject_of_decided {object : ObjectRef} (hdecided : DecidedByStream gz float settings engine attempt object)
    (dest : Location) :
    (processObject gz float settings engine attempt object dest).metrics.bytesIn =
        (runStream gz float settings engine attempt (object.bucket, object.key) dest).metrics.bytesIn ∧
      (processObject gz float settings engine attempt object dest).metrics.objectsProcessed =
        (runStream gz float settings engine attempt (object.bucket, object.key) dest).metrics.objectsProcessed := by
  unfold processObject
  cases hmode : selectMode settings object.size with
  | stream => exact ⟨rfl, rfl⟩
  | buffer =>
    have hlarge : settings.behavior.onObjectTooLarge = .stream ∧ TooLargeToBuffer gz float settings engine attempt := by
      simpa [DecidedByStream, hmode] using hdecided
    have hretried := (retried_runBuffer_iff gz float settings engine attempt (object.bucket, object.key) dest).mpr hlarge
    have hbill := runBuffer_bytesIn gz float settings engine attempt (object.bucket, object.key) dest
    rw [bufferBill_of_retried gz float settings engine attempt _ hlarge.1 hlarge.2] at hbill
    have hnone : (runBuffer gz float settings engine attempt (object.bucket, object.key)
        dest).metrics.objectsProcessed = 0 := by
      by_contra hne
      obtain ⟨hok, -⟩ := filed_of_processed (runBuffer_filed (object.bucket, object.key) dest) (Nat.pos_of_ne_zero hne)
      simp [hok, retriedViaStream] at hretried
    simp only [orRetry_of_retried _ hretried]
    constructor
    · change _ + _ = _
      rw [hbill, zero_add]
    · change _ + _ = _
      rw [hnone, zero_add]

/-- Where buffer mode decides, a processed object bills its length. -/
lemma processObject_of_not_decided {source : Bytes} (hreads : attempt.Reads source) {object : ObjectRef} {dest : Location}
    (hdecided : ¬DecidedByStream gz float settings engine attempt object)
    (h : 0 < (processObject gz float settings engine attempt object dest).metrics.objectsProcessed) :
    (processObject gz float settings engine attempt object dest).metrics.bytesIn = source.length := by
  unfold processObject at h ⊢
  cases hmode : selectMode settings object.size with
  | stream => exact (hdecided (.inl hmode)).elim
  | buffer =>
    simp only [hmode] at h ⊢
    have hstays : retriedViaStream settings
        (runBuffer gz float settings engine attempt (object.bucket, object.key) dest).result = false := by
      by_contra hretried
      exact hdecided (.inr ((retried_runBuffer_iff gz float settings engine attempt (object.bucket, object.key) dest).mp
        (by simpa using hretried)))
    rw [orRetry_of_not_retried _ hstays] at h ⊢
    rw [runBuffer_bytesIn gz float settings engine attempt (object.bucket, object.key) dest, bufferBill_of_processed hreads h]

/-- What an attempt reads does not hang on how stream mode goes. -/
lemma Attempt.Reads.withStream {source : Bytes} (h : attempt.Reads source) (env : StreamEnv) :
    { attempt with stream := env }.Reads source := ⟨h.fetch, h.read, h.reread⟩

/-- The pump of stream mode reads the source to its end, wherever the parser may give up. -/
def PumpedWhole (gz : Gzip) (float : FloatParser) (attempt : Attempt) (source : Bytes) : Prop :=
  ∀ body, attempt.read = .body body → ∀ k, GivesUp gz float body k →
    (body.chunks.take (k + 1)).flatten.length = source.length

/-- Then an object that stream mode processes bills its length. -/
lemma runStream_exact (hgz : gz.Lawful) {source : Bytes} (hreads : attempt.Reads source) {location dest : Location}
    (hruns : attempt.Interleaved gz float settings engine)
    (hpumped : settings.behavior.onParseError = .copy → PumpedWhole gz float attempt source)
    (h : 0 < (runStream gz float settings engine attempt location dest).metrics.objectsProcessed) :
    (runStream gz float settings engine attempt location dest).metrics.bytesIn = source.length := by
  obtain ⟨body, hbody, hbytes, hcopies⟩ := runStream_bytesIn gz float engine h
  have hread : body.Reads source := by
    simpa [hbody, GetAnswer.Reads] using hreads.read
  rw [hbytes]
  cases hresult : (streamDecision gz float engine settings attempt body).result with
  | ok outcome =>
    have hend : body.ending = .eof := streamRun_ok_eof gz float engine hresult
    have hsource : body.bytes = source := by
      simpa [Body.Reads, hend] using hread
    simp [billedBytes, hsource]
  | error e =>
    obtain ⟨hpolicy, hunparsable⟩ := copiesUnparsable_iff.mp (hcopies e hresult)
    obtain ⟨s, hreach, hjoined⟩ := hruns body hbody
    obtain ⟨hle, hend⟩ := bytesIn_of_unparsable hgz hreach hjoined hresult hunparsable
    have hbill := (streamDecision_bytesIn gz float settings engine attempt body).1
    rw [joined_metrics_of_error hjoined hresult, hresult] at hbill
    have hprefix : body.bytes.length ≤ source.length := by
      cases hending : body.ending with
      | eof =>
        rw [Body.Reads, hending] at hread
        exact (congrArg List.length hread).le
      | failed message =>
        rw [Body.Reads, hending] at hread
        exact hread.length_le
    rw [← hbill]
    change s.bytesIn = source.length
    rcases hend with ⟨hending, hall⟩ | ⟨k, hgives, hmore⟩
    · rw [Body.Reads, hending] at hread
      rw [hall, hread]
    · have hwhole := hpumped hpolicy body hbody k hgives
      omega

variable (settings engine attempt) in
/-- Where the parser can give up, some interleaved run copies the object with just one chunk more read. -/
lemma exists_interleaved (hgz : gz.Lawful) {body : Body} (hbody : attempt.read = .body body) {k : ℕ}
    (hgives : GivesUp gz float body k) :
    ∃ env, { attempt with stream := env }.Interleaved gz float settings engine ∧
      env.pumped = (body.chunks.take (k + 1)).flatten.length ∧
      ∃ e, (streamDecision gz float engine settings { attempt with stream := env } body).result = .error e ∧
        e.isUnparsableSource = true := by
  obtain ⟨s, run, hreach, hjoined, ⟨e, hresult, hunparsable⟩, hmetrics⟩ :=
    exists_unparsable engine settings.processing outputFlushThreshold hgz hgives
  obtain ⟨env, hrun⟩ := joined_eq_streamRunAt hgz hreach hjoined
  have hdecision : streamDecision gz float engine settings { attempt with stream := { env with upload := none } } body =
      run := by
    rw [hrun] at hresult ⊢
    unfold streamDecision
    split_ifs <;> exact streamRun_upload gz float engine hresult hunparsable none
  refine ⟨{ env with upload := none }, ?_, ?_, e, by rw [hdecision, hresult], hunparsable⟩
  · intro body' hbody'
    obtain rfl : body = body' := GetAnswer.body.inj (hbody.symm.trans hbody')
    exact ⟨s, hreach, hjoined.trans (congrArg some hdecision.symm)⟩
  · have hbill := (streamDecision_bytesIn gz float settings engine
      { attempt with stream := { env with upload := none } } body).1
    rw [hdecision, hresult, hmetrics] at hbill
    exact hbill.symm

/-- A raw copy bills what it copies. -/
lemma rawCopy_bytesIn {source : Bytes} (hreads : attempt.Reads source) {location dest : Location}
    (h : 0 < (rawCopy settings attempt location dest).metrics.objectsProcessed) :
    (rawCopy settings attempt location dest).metrics.bytesIn = source.length := by
  unfold rawCopy at h ⊢
  rcases streamCopy_cases settings attempt location dest .count with
    ⟨bytes, hcopy, hrun⟩ | hrun | ⟨e, calls, n, -, hrun⟩
  · rw [hrun, Effect.ok_bind, copyOf_reads hreads.reread hcopy]
    rfl
  · rw [hrun, Effect.ok_bind] at h
    exact absurd h (lt_irrefl 0)
  · rw [hrun, Effect.error_bind] at h
    exact absurd h (lt_irrefl 0)

/-- An object that stream mode copies where the parser gives up may bill just one chunk more. -/
lemma exists_billed (hgz : gz.Lawful) (hpolicy : settings.behavior.onParseError = .copy) {object : ObjectRef}
    {dest : Location} (hdecided : DecidedByStream gz float settings engine attempt object)
    (h : 0 < (processObject gz float settings engine attempt object dest).metrics.objectsProcessed) {body : Body}
    (hbody : attempt.read = .body body) {k : ℕ} (hgives : GivesUp gz float body k) :
    ∃ env, { attempt with stream := env }.Interleaved gz float settings engine ∧
      0 < (processObject gz float settings engine { attempt with stream := env } object dest).metrics.objectsProcessed ∧
      (processObject gz float settings engine { attempt with stream := env } object dest).metrics.bytesIn =
        (body.chunks.take (k + 1)).flatten.length := by
  -- the attempt copied the object
  rw [(processObject_of_decided hdecided dest).2] at h
  obtain ⟨body', hbody', -, hcopies⟩ := runStream_bytesIn gz float engine h
  obtain rfl : body = body' := GetAnswer.body.inj (hbody.symm.trans hbody')
  obtain ⟨e, hresult⟩ : ∃ e, (streamDecision gz float engine settings attempt body).result = .error e := by
    cases hresult : (streamDecision gz float engine settings attempt body).result with
    | error e => exact ⟨e, rfl⟩
    | ok outcome =>
      obtain ⟨found, hfound⟩ := streamRun_ok_extraction gz float engine hresult
      exact (hgives.not_ok hgz found hfound).elim
  rw [runStream_of_unparsable gz float engine hbody hresult (hcopies e hresult)] at h
  -- and so does the schedule in which the pump is no chunk ahead
  obtain ⟨env, hruns, hpumped, e', hresult', hunparsable⟩ := exists_interleaved settings engine attempt hgz hbody hgives
  have hdecided' : DecidedByStream gz float settings engine { attempt with stream := env } object := hdecided
  obtain ⟨hbytes, hcount⟩ := processObject_of_decided hdecided' dest
  have hcopied := runStream_of_unparsable gz float engine (show { attempt with stream := env }.read = _ from hbody) hresult'
    (copiesUnparsable_iff.mpr ⟨hpolicy, hunparsable⟩) (object.bucket, object.key) dest
  have hprocessed : 0 < (runStream gz float settings engine { attempt with stream := env } (object.bucket, object.key)
      dest).metrics.objectsProcessed := by
    rw [hcopied]
    exact h
  obtain ⟨body', hbody', hbilled, -⟩ := runStream_bytesIn gz float engine hprocessed
  obtain rfl : body = body' := GetAnswer.body.inj (hbody.symm.trans hbody')
  refine ⟨env, hruns, by rw [hcount]; exact hprocessed, ?_⟩
  rw [hbytes, hbilled, hresult', billedBytes, hpumped]

end Object

section Samples

/-- Ten members of a text that is not JSON, each delivered as a chunk of its own. -/
def brokenBody : Body where
  chunks := List.replicate 10 (storedMember [120])
  nonempty := by
    intro chunk hchunk
    rw [List.eq_of_mem_replicate hchunk]
    decide
  ending := .eof

/-- Every read delivers the body whole; the pump of stream mode was stopped after two chunks. -/
def brokenAttempt : Attempt :=
  { sampleAttempt "" with
    fetch := .body brokenBody
    read := .body brokenBody
    reread := .body brokenBody
    stream := .good (2 * (storedMember [120]).length) }

def streamSettings : Settings :=
  { sampleSettings with processing := { sampleSettings.processing with mode := .stream } }

/-- The parser gives up on the first chunk, and the pump finds it gone with the second. -/
def brokenSchedule : List StreamAction :=
  [.block none, .pump, .pump, .extract true, .extract false, .extract false, .extract false, .pump, .pump,
    .block none, .block none, .uploadRead, .uploadReturn (some (.backend "aborted"))]

end Samples

end Pipeline

end CloudTrailFilter
