import CloudTrailFilter.Pipeline.Object

/-!
# What an attempt at an object comes to

Every attempt fails, skips a missing object, or files it: at most one body lands at the
destination and the tally of the run that decided is committed once. `processObject_filed`
says so for every mode, policy and failure; what may be filed is in `Decides`.
-/

namespace CloudTrailFilter

namespace Metrics

/-- The counters that move only once an object's fate is decided. -/
def settled (m : Metrics) : Metrics :=
  { m with bytesIn := 0, unrecognizedObjects := 0, objectsCopiedUnparsed := 0 }

@[simp] lemma settled_zero : settled 0 = 0 := rfl

@[simp] lemma settled_add (a b : Metrics) : settled (a + b) = settled a + settled b := rfl

@[simp] lemma settled_bytesIn (n : ℕ) : settled (addBytesIn n) = 0 := rfl

@[simp] lemma settled_unrecognized (n : ℕ) : settled (addUnrecognizedObjects n) = 0 := rfl

@[simp] lemma settled_copiedUnparsed (n : ℕ) : settled (addObjectsCopiedUnparsed n) = 0 := rfl

@[simp] lemma settled_bytesOut (n : ℕ) : settled (addBytesOut n) = addBytesOut n := rfl

@[simp] lemma settled_skipped (n : ℕ) : settled (addObjectsSkipped n) = addObjectsSkipped n := rfl

@[simp] lemma settled_processed (n : ℕ) : settled (addObjectsProcessed n) = addObjectsProcessed n := rfl

@[simp] lemma addBytesOut_zero : addBytesOut 0 = 0 := rfl

end Metrics

namespace Process

@[simp] lemma RecordTally.settled_commit (tally : RecordTally) (engine : Filter.Engine) :
    (tally.commit engine).settled = tally.commit engine := rfl

@[simp] lemma RecordTally.commit_empty (engine : Filter.Engine) : RecordTally.empty.commit engine = 0 := rfl

end Process

namespace Pipeline
open CloudTrailFilter.Json CloudTrailFilter.Filter CloudTrailFilter.Process

/-- What a decided object publishes: its tally, the body that landed, and itself. -/
def filedMetrics (engine : Engine) (out : Option Bytes) (tally : RecordTally) : Metrics :=
  tally.commit engine + Metrics.addBytesOut (out.elim 0 List.length) + Metrics.addObjectsProcessed 1

/-- How an attempt can end. `P` is what may be filed. -/
inductive Filed (engine : Engine) (dest : Location) (P : Option Bytes → RecordTally → Prop)
    (x : ObjectM Unit) : Prop where
  | failed (e : CoreError) : x.result = .error e → landed x = [] → x.metrics.settled = 0 →
      Filed engine dest P x
  | skipped : x.result = .ok () → landed x = [] → x.metrics.settled = Metrics.addObjectsSkipped 1 →
      Filed engine dest P x
  | done (out : Option Bytes) (tally : RecordTally) : P out tally → x.result = .ok () →
      landed x = out.toList.map (dest, ·) → x.metrics.settled = filedMetrics engine out tally →
      Filed engine dest P x

/-- What may be filed for an object on which the deciding run came to `result`, with `committed`
the filtered body it gives and `copy` the bodies a verbatim copy can have. -/
inductive Decides (settings : Settings) (result : Except CoreError (Outcome × RecordTally))
    (committed : Option Bytes) (copy : Bytes → Prop) : Option Bytes → RecordTally → Prop where
  | written (body : Option Bytes) (tally : RecordTally) : result = .ok (.written body, tally) →
      Decides settings result committed copy committed tally
  | nothingKept (tally : RecordTally) : result = .ok (.nothingKept, tally) →
      Decides settings result committed copy none tally
  | unrecognizedSkip (tally : RecordTally) : result = .ok (.unrecognized, tally) →
      settings.behavior.onUnrecognizedObject = .skip →
      Decides settings result committed copy none .empty
  | unrecognizedCopy (tally : RecordTally) (bytes : Bytes) : result = .ok (.unrecognized, tally) →
      settings.behavior.onUnrecognizedObject = .copy → copy bytes →
      Decides settings result committed copy (some bytes) .empty
  | unparsed (e : CoreError) (bytes : Bytes) : result = .error e → e.isUnparsableSource = true →
      settings.behavior.onParseError = .copy → copy bytes →
      Decides settings result committed copy (some bytes) .empty

/-- What a dry run may file: never a body. -/
inductive DryDecides (settings : Settings) (result : Except CoreError (Outcome × RecordTally)) :
    Option Bytes → RecordTally → Prop where
  | judged (outcome : Outcome) (tally : RecordTally) : result = .ok (outcome, tally) →
      DryDecides settings result none tally
  | unparsed (e : CoreError) : result = .error e → e.isUnparsableSource = true →
      settings.behavior.onParseError = .copy → DryDecides settings result none .empty

section Parts
variable (settings : Settings) {engine : Engine} (attempt : Attempt)

/-- Opening a source: it is there, was skipped, or the attempt fails. -/
lemma openWithMissingPolicy_cases (answer : GetAnswer) (source : Location) :
    (∃ body, answer = .body body ∧
      openWithMissingPolicy settings answer source = ⟨.ok (some body), [.getStream source], 0⟩) ∨
    (openWithMissingPolicy settings answer source =
      ⟨.ok none, [.getStream source], Metrics.addObjectsSkipped 1⟩) ∨
    ∃ e, openWithMissingPolicy settings answer source = ⟨.error (.store e), [.getStream source], 0⟩ := by
  cases answer with
  | body body => exact .inl ⟨body, rfl, by simp [openWithMissingPolicy]⟩
  | failed message => exact .inr (.inr ⟨_, by simp [openWithMissingPolicy]; rfl⟩)
  | notFound =>
    cases h : settings.behavior.onMissingObject with
    | skip => exact .inr (.inl (by simp [openWithMissingPolicy, h]))
    | error => exact .inr (.inr ⟨_, by simp [openWithMissingPolicy, h]; rfl⟩)

/-- Reading a source into memory: it fits, was skipped, is too large, or the attempt fails. -/
lemma fetchWithMissingPolicy_cases (source : Location) :
    (∃ body, attempt.fetch = .body body ∧ body.ending = .eof ∧
      body.bytes.length ≤ settings.processing.maxObjectBytes ∧
      fetchWithMissingPolicy settings attempt source = ⟨.ok (some body.bytes), [.getStream source], 0⟩) ∨
    (fetchWithMissingPolicy settings attempt source =
      ⟨.ok none, [.getStream source], Metrics.addObjectsSkipped 1⟩) ∨
    (∃ body, attempt.fetch = .body body ∧ settings.processing.maxObjectBytes < body.bytes.length ∧
      fetchWithMissingPolicy settings attempt source =
        ⟨.error (.objectTooLarge settings.processing.maxObjectBytes), [.getStream source], 0⟩) ∨
    ∃ e, fetchWithMissingPolicy settings attempt source = ⟨.error (.store e), [.getStream source], 0⟩ := by
  unfold fetchWithMissingPolicy
  rcases openWithMissingPolicy_cases settings attempt.fetch source with
    ⟨body, hbody, hopen⟩ | hopen | ⟨e, hopen⟩
  · rw [hopen]
    by_cases hlarge : settings.processing.maxObjectBytes < body.bytes.length
    · exact .inr (.inr (.inl ⟨body, hbody, hlarge, by simp [hlarge]⟩))
    · cases hend : body.ending with
      | eof => exact .inl ⟨body, hbody, hend, not_lt.mp hlarge, by simp [hlarge, hend]⟩
      | failed message => exact .inr (.inr (.inr ⟨_, by simp [hlarge, hend]; rfl⟩))
  · exact .inr (.inl (by rw [hopen]; simp))
  · exact .inr (.inr (.inr ⟨e, by rw [hopen]; simp⟩))

lemma putBytes_cases (dest : Location) (body : Bytes) :
    (putBytes attempt dest body = ⟨.ok (), [.put dest body true], Metrics.addBytesOut body.length⟩) ∨
    ∃ e, putBytes attempt dest body = ⟨.error (.store e), [.put dest body false], 0⟩ := by
  cases h : attempt.put with
  | none => exact .inl (by simp [putBytes, h, Effect.publish])
  | some e => exact .inr ⟨e, by simp [putBytes, h]⟩

/-- The bytes a verbatim copy can have: those in memory, or what a second read delivers whole. -/
def CopyOf (attempt : Attempt) (bytes : Option Bytes) (copy : Bytes) : Prop :=
  match bytes with
  | some bytes => copy = bytes
  | none => ∃ body, attempt.reread = .body body ∧ body.ending = .eof ∧ copy = body.bytes

lemma streamCopy_cases (source dest : Location) (policy : BytesInPolicy) :
    (∃ bytes, CopyOf attempt none bytes ∧ streamCopy settings attempt source dest policy =
      ⟨.ok true, [.getStream source, .putStream dest (some bytes)],
        policy.bill bytes.length + Metrics.addBytesOut bytes.length⟩) ∨
    (streamCopy settings attempt source dest policy =
      ⟨.ok false, [.getStream source], Metrics.addObjectsSkipped 1⟩) ∨
    ∃ e calls n, calls.filterMap StoreCall.landed = [] ∧
      streamCopy settings attempt source dest policy = ⟨.error (.store e), calls, policy.bill n⟩ := by
  unfold streamCopy
  rcases openWithMissingPolicy_cases settings attempt.reread source with
    ⟨body, hbody, hopen⟩ | hopen | ⟨e, hopen⟩
  · rw [hopen]
    cases herr : copyError attempt body with
    | none =>
      have hend : body.ending = .eof := by
        cases hend : body.ending with
        | eof => rfl
        | failed message => simp [copyError, hend] at herr
      exact .inl ⟨body.bytes, ⟨body, hbody, hend, rfl⟩, by simp [herr]⟩
    | some e =>
      exact .inr (.inr ⟨e, [.getStream source, .putStream dest none], attempt.copyRead, rfl, by simp [herr]⟩)
  · exact .inr (.inl (by rw [hopen]; simp))
  · exact .inr (.inr ⟨e, [.getStream source], 0, rfl, by rw [hopen]; cases policy <;> simp <;> rfl⟩)

@[simp] lemma settled_bill (policy : BytesInPolicy) (n : ℕ) : (policy.bill n).settled = 0 := by
  cases policy <;> rfl

section Filed
variable {settings attempt} {dest : Location} {P Q : Option Bytes → RecordTally → Prop} {x : ObjectM Unit}

lemma Filed.imp (h : Filed engine dest P x) (hPQ : ∀ out tally, P out tally → Q out tally) :
    Filed engine dest Q x := by
  cases h with
  | failed e hr hl hm => exact .failed e hr hl hm
  | skipped hr hl hm => exact .skipped hr hl hm
  | done out tally hP hr hl hm => exact .done out tally (hPQ out tally hP) hr hl hm

/-- What an attempt did before does not matter as long as nothing landed and nothing was
settled. -/
lemma Filed.after (h : Filed engine dest P x) {calls : List StoreCall} {m : Metrics}
    (hcalls : calls.filterMap StoreCall.landed = []) (hm : m.settled = 0) :
    Filed engine dest P ⟨x.result, calls ++ x.calls, m + x.metrics⟩ := by
  have hlanded : landed (⟨x.result, calls ++ x.calls, m + x.metrics⟩ : ObjectM Unit) = landed x := by
    simp [landed, hcalls]
  have hsettled : (m + x.metrics).settled = x.metrics.settled := by simp [hm]
  cases h with
  | failed e hr hl hs => exact .failed e hr (hlanded.trans hl) (hsettled.trans hs)
  | skipped hr hl hs => exact .skipped hr (hlanded.trans hl) (hsettled.trans hs)
  | done out tally hP hr hl hs => exact .done out tally hP hr (hlanded.trans hl) (hsettled.trans hs)

/-- Counters that settle nothing. -/
lemma Filed.afterPublish {m : Metrics} {f : Unit → ObjectM Unit} (hm : m.settled = 0)
    (h : Filed engine dest P (f ())) : Filed engine dest P (Effect.publish m >>= f) := by
  rw [Effect.publish_bind]
  exact Filed.after h (show ([] : List StoreCall).filterMap StoreCall.landed = [] from rfl) hm

/-- The end of a path that copies an object it could not filter. -/
lemma filed_streamCopy (source : Location)
    (hP : ∀ bytes, CopyOf attempt none bytes → P (some bytes) .empty) :
    Filed engine dest P (do
      let copied ← streamCopy settings attempt source dest .alreadyCounted
      if copied then Effect.publish (Metrics.addObjectsProcessed 1) else pure ()) := by
  rcases streamCopy_cases settings attempt source dest .alreadyCounted with
    ⟨bytes, hcopy, hrun⟩ | hrun | ⟨e, calls, n, hcalls, hrun⟩
  · rw [hrun]
    exact .done (some bytes) .empty (hP bytes hcopy) rfl rfl (by simp [filedMetrics, Effect.publish])
  · rw [hrun]
    exact .skipped rfl rfl (by simp)
  · rw [hrun]
    exact .failed (.store e) rfl (by simpa [landed] using hcalls) (by simp)

/-- The end of a path that writes a body from memory. -/
lemma filed_putBytes (bytes : Bytes) (tally : RecordTally) (hP : P (some bytes) tally) :
    Filed engine dest P (do
      putBytes attempt dest bytes
      Effect.publish (tally.commit engine)
      Effect.publish (Metrics.addObjectsProcessed 1)) := by
  rcases putBytes_cases attempt dest bytes with hput | ⟨e, hput⟩
  · rw [hput]
    refine .done (some bytes) tally hP rfl rfl ?_
    simp [filedMetrics, Effect.publish, add_comm, add_left_comm]
  · rw [hput]
    exact .failed (.store e) rfl rfl (by simp)

/-- The end of a path that writes nothing. -/
lemma filed_nothing (tally : RecordTally) (hP : P none tally) :
    Filed engine dest P (do
      Effect.publish (tally.commit engine)
      Effect.publish (Metrics.addObjectsProcessed 1)) :=
  .done none tally hP rfl rfl (by simp [filedMetrics, Effect.publish])

lemma filed_fail (e : CoreError) : Filed engine dest P (Effect.fail e) := .failed e rfl rfl rfl

/-- The verbatim copy of an object that did not parse. -/
lemma copyUnparsable_filed (source : Location) (bytes : Option Bytes)
    (hdry : settings.behavior.dryRun = true → P none .empty)
    (hlive : settings.behavior.dryRun = false → ∀ copy, CopyOf attempt bytes copy → P (some copy) .empty) :
    Filed engine dest P (copyUnparsable settings attempt source dest bytes) := by
  unfold copyUnparsable
  refine Filed.afterPublish rfl ?_
  cases hd : settings.behavior.dryRun with
  | true =>
    simp only [if_true]
    exact .done none .empty (hdry hd) rfl rfl (by simp [filedMetrics, Effect.publish])
  | false =>
    simp only [Bool.false_eq_true, if_false]
    cases bytes with
    | none => exact filed_streamCopy source (hlive hd)
    | some bytes =>
      simp only
      rcases putBytes_cases attempt dest bytes with hrun | ⟨e, hrun⟩
      · rw [hrun]
        exact .done (some bytes) .empty (hlive hd bytes rfl) rfl rfl (by simp [filedMetrics, Effect.publish])
      · rw [hrun]
        exact .failed (.store e) rfl rfl (by simp)

end Filed

end Parts

section Policies
variable {M : AddSubmonoid Metrics} (settings : Settings) (attempt : Attempt)

/-- `M` holds what a decision and the copies that a policy asks for publish. -/
structure HoldsPolicies (M : AddSubmonoid Metrics) : Prop where
  processed : Metrics.addObjectsProcessed 1 ∈ M
  copiedUnparsed : Metrics.addObjectsCopiedUnparsed 1 ∈ M
  bytesOut : ∀ n, Metrics.addBytesOut n ∈ M
  commit : ∀ (engine : Engine) (tally : RecordTally), tally.commit engine ∈ M

namespace HoldsPolicies
variable (hM : HoldsPolicies M)
include hM

lemma putBytes_mem (dest : Location) (body : Bytes) : (putBytes attempt dest body).metrics ∈ M := by
  rcases putBytes_cases attempt dest body with h | ⟨e, h⟩
  · rw [h]
    exact hM.bytesOut body.length
  · rw [h]
    exact M.zero_mem

/-- A copy by a second read, counted as processed unless the object was missing. -/
lemma copied_mem (hskipped : attempt.reread = .notFound → Metrics.addObjectsSkipped 1 ∈ M) (source dest : Location) :
    (do
      let copied ← streamCopy settings attempt source dest .alreadyCounted
      if copied then Effect.publish (Metrics.addObjectsProcessed 1) else pure () : ObjectM Unit).metrics ∈ M := by
  refine Effect.bind_metrics_mem M ?_ (fun copied => ?_)
  · unfold streamCopy openWithMissingPolicy copyError
    cases hreread : attempt.reread with
    | notFound =>
      cases settings.behavior.onMissingObject with
      | skip => simpa using hskipped hreread
      | error => exact M.zero_mem
    | failed message => exact M.zero_mem
    | body body =>
      simp only [Effect.call_bind, Effect.pure_result, Effect.ok_bind]
      split
      · simpa [BytesInPolicy.bill] using hM.bytesOut body.bytes.length
      · simp [BytesInPolicy.bill]
  · cases copied with
    | true => exact hM.processed
    | false => exact M.zero_mem

lemma copyUnparsable_mem (hskipped : attempt.reread = .notFound → Metrics.addObjectsSkipped 1 ∈ M)
    (source dest : Location) (bytes : Option Bytes) :
    (copyUnparsable settings attempt source dest bytes).metrics ∈ M := by
  unfold copyUnparsable
  refine Effect.bind_metrics_mem M hM.copiedUnparsed (fun _ => ?_)
  split_ifs
  · exact hM.processed
  · cases bytes with
    | some bytes => exact Effect.bind_metrics_mem M (hM.putBytes_mem attempt dest bytes) (fun _ => hM.processed)
    | none => exact hM.copied_mem settings attempt hskipped source dest

lemma applyUnrecognizedPolicy_mem (source dest : Location) (bytes : Bytes) :
    (applyUnrecognizedPolicy settings attempt source dest bytes).metrics ∈ M := by
  unfold applyUnrecognizedPolicy
  split
  · exact hM.putBytes_mem attempt dest bytes
  · exact M.zero_mem
  · exact M.zero_mem

/-- The end of an object that is decided. -/
lemma commit_mem (engine : Engine) (tally : RecordTally) :
    (do
      Effect.publish (tally.commit engine)
      Effect.publish (Metrics.addObjectsProcessed 1) : ObjectM Unit).metrics ∈ M :=
  Effect.bind_metrics_mem M (hM.commit engine tally) (fun _ => hM.processed)

end HoldsPolicies

end Policies

section Modes
variable {gz : Gzip} {float : FloatParser} {settings : Settings} {engine : Engine} {attempt : Attempt}

/-- What a run of stream mode publishes and commits, by its result. -/
lemma streamRun_published (gz : Gzip) (float : FloatParser) (engine : Engine) (cfg : Processing) (env : StreamEnv) (body : Body) :
    let run := streamRun gz float engine cfg env body
    (∃ out, run.result = .ok (.written none) ∧ run.committed = some out ∧
      run.metrics.settled = run.tally.commit engine + Metrics.addBytesOut out.length) ∨
    (run.result = .ok .nothingKept ∧ run.committed = none ∧
      run.metrics.settled = run.tally.commit engine) ∨
    (run.result = .ok .unrecognized ∧ run.committed = none ∧ run.tally = .empty ∧
      run.metrics.settled = 0) ∨
    ∃ e, run.result = .error e ∧ run.committed = none ∧ run.tally = .empty ∧ run.metrics.settled = 0 := by
  intro run
  rcases streamRunAt_cases gz float engine cfg outputFlushThreshold env body with
    ⟨-, -, -, h⟩ | ⟨-, -, h⟩ | ⟨-, h⟩ | ⟨_, -, h⟩ | ⟨_, h⟩ | ⟨_, h⟩ <;>
    replace h : run = _ := h
  · refine .inl ⟨_, by rw [h], by rw [h], ?_⟩
    rw [h, ← Filtering.close_bytesOut (filtering_bytesOut _)]
    simp [add_comm]
  · exact .inr (.inl ⟨by rw [h], by rw [h], by simp [h]⟩)
  · exact .inr (.inr (.inl ⟨by rw [h], by rw [h], by rw [h], by simp [h]⟩))
  · exact .inr (.inr (.inr ⟨_, by rw [h], by rw [h], by rw [h], by simp [h]⟩))
  · exact .inr (.inr (.inr ⟨_, by rw [h], by rw [h], by rw [h], by simp [h]⟩))
  · exact .inr (.inr (.inr ⟨_, by rw [h], by rw [h], by rw [h], by simp [h]⟩))

/-- The result of a run of stream mode, with the tally it commits. -/
def decisionOf (run : StreamRun) : Except CoreError (Outcome × RecordTally) :=
  run.result.map (·, run.tally)

lemma decisionOf_ok_iff {run : StreamRun} {outcome : Outcome} {tally : RecordTally} :
    decisionOf run = .ok (outcome, tally) ↔ run.result = .ok outcome ∧ run.tally = tally := by
  unfold decisionOf
  cases run.result with
  | error e => simp [Except.map]
  | ok outcome' => simp [Except.map]

lemma decisionOf_error_iff {run : StreamRun} {e : CoreError} :
    decisionOf run = .error e ↔ run.result = .error e := by
  unfold decisionOf
  cases run.result <;> simp [Except.map]

/-- The body buffer mode hands over. -/
def committedOf (result : Except CoreError (Outcome × RecordTally)) : Option Bytes :=
  match result with
  | .ok (.written body, _) => body
  | _ => none

/-- No mode counts the records of an object it does not recognize. -/
lemma bufferRun_unrecognized {compressFails : Bool} {input : Bytes} {tally : RecordTally}
    (h : bufferRun gz float engine settings.processing compressFails input = .ok (.unrecognized, tally)) :
    tally = .empty := by
  obtain ⟨text, -, h⟩ := Fallible.bind_ok_iff.mp h
  split at h
  · split at h
    · cases h
      rfl
    · cases h
  · simp only at h
    split_ifs at h <;> cases h

lemma settled_billFetched (result : Except CoreError (Outcome × RecordTally)) (bytes : Bytes) :
    (billFetched settings result bytes).settled = 0 := by
  unfold billFetched
  split_ifs <;> rfl

lemma copiesUnparsable_iff {e : CoreError} :
    copiesUnparsable settings e = true ↔
      settings.behavior.onParseError = .copy ∧ e.isUnparsableSource = true := by
  simp [copiesUnparsable]

/-- What buffer mode may file. -/
def BufferFiles (gz : Gzip) (float : FloatParser) (settings : Settings) (engine : Engine)
    (attempt : Attempt) (out : Option Bytes) (tally : RecordTally) : Prop :=
  ∃ body, attempt.fetch = .body body ∧ body.ending = .eof ∧
    body.bytes.length ≤ settings.processing.maxObjectBytes ∧
    let result := bufferRun gz float engine settings.processing attempt.compressFails body.bytes
    if settings.behavior.dryRun then DryDecides settings result out tally
    else Decides settings result (committedOf result) (· = body.bytes) out tally

/-- What stream mode may file. -/
def StreamFiles (gz : Gzip) (float : FloatParser) (settings : Settings) (engine : Engine)
    (attempt : Attempt) (out : Option Bytes) (tally : RecordTally) : Prop :=
  ∃ body, attempt.read = .body body ∧
    if settings.behavior.dryRun then
      DryDecides settings
        (decisionOf (streamRun gz float engine settings.processing { attempt.stream with upload := none } body))
        out tally
    else
      let run := streamRun gz float engine settings.processing attempt.stream body
      Decides settings (decisionOf run) run.committed (CopyOf attempt none) out tally

/-- A path that begins with the read of the source. -/
lemma Filed.afterGet {α : Type} {dest : Location} {P : Option Bytes → RecordTally → Prop}
    {f : Option α → ObjectM Unit} {a : α} {source : Location} (h : Filed engine dest P (f (some a))) :
    Filed engine dest P ((⟨.ok (some a), [.getStream source], 0⟩ : ObjectM (Option α)) >>= f) := by
  rw [Effect.ok_bind]
  exact h.after rfl rfl

lemma processBuffer_filed (source dest : Location) (hlive : settings.behavior.dryRun = false) :
    Filed engine dest (BufferFiles gz float settings engine attempt)
      (processBuffer gz float settings engine attempt source dest) := by
  unfold processBuffer
  rcases fetchWithMissingPolicy_cases settings attempt source with
    ⟨body, hbody, hend, hfits, hfetch⟩ | hfetch | ⟨_, -, -, hfetch⟩ | ⟨e, hfetch⟩
  · rw [hfetch]
    refine Filed.afterGet ?_
    simp only
    refine Filed.afterPublish (settled_billFetched _ _) ?_
    -- it remains to say that what is decided is what may be filed
    have hfiles : ∀ out tally, Decides settings
        (bufferRun gz float engine settings.processing attempt.compressFails body.bytes)
        (committedOf (bufferRun gz float engine settings.processing attempt.compressFails body.bytes))
        (· = body.bytes) out tally → BufferFiles gz float settings engine attempt out tally := by
      intro out tally h
      refine ⟨body, hbody, hend, hfits, ?_⟩
      simpa only [hlive, Bool.false_eq_true, if_false] using h
    cases hrun : bufferRun gz float engine settings.processing attempt.compressFails body.bytes with
    | error e =>
      by_cases hcopy : copiesUnparsable settings e = true
      · obtain ⟨hpolicy, hsource⟩ := copiesUnparsable_iff.mp hcopy
        simp only [hcopy, if_true]
        refine copyUnparsable_filed source (some body.bytes) (by simp [hlive]) (fun _ copy hc => ?_)
        exact hfiles _ _ (.unparsed e copy hrun hsource hpolicy hc)
      · simp only [hcopy]
        exact filed_fail e
    | ok r =>
      obtain ⟨outcome, tally⟩ := r
      cases outcome with
      | nothingKept =>
        exact filed_nothing tally (hfiles _ _ (.nothingKept tally hrun))
      | written out =>
        have hP := hfiles _ _ (.written out tally hrun)
        rw [hrun] at hP
        cases out with
        | none => exact filed_nothing tally hP
        | some out => exact filed_putBytes out tally hP
      | unrecognized =>
        have htally : tally = .empty := bufferRun_unrecognized hrun
        subst htally
        simp only [Effect.publish_bind, applyUnrecognizedPolicy]
        cases hpolicy : settings.behavior.onUnrecognizedObject with
        | copy =>
          have hP := hfiles _ _ (.unrecognizedCopy _ body.bytes hrun hpolicy rfl)
          rcases putBytes_cases attempt dest body.bytes with hp | ⟨e, hp⟩
          · rw [hp]
            exact .done (some body.bytes) .empty hP rfl rfl (by simp [filedMetrics, Effect.publish])
          · rw [hp]
            exact .failed (.store e) rfl rfl (by simp)
        | skip =>
          have hP := hfiles _ _ (.unrecognizedSkip _ hrun hpolicy)
          exact .done none .empty hP rfl rfl (by simp [filedMetrics, Effect.publish])
        | error => exact .failed _ rfl rfl rfl
  · rw [hfetch]
    exact .skipped rfl rfl (by simp)
  · rw [hfetch]
    exact .failed _ rfl rfl rfl
  · rw [hfetch]
    exact .failed _ rfl rfl rfl

lemma processStream_filed (source dest : Location) (hlive : settings.behavior.dryRun = false) :
    Filed engine dest (StreamFiles gz float settings engine attempt)
      (processStream gz float settings engine attempt source dest) := by
  unfold processStream
  rcases openWithMissingPolicy_cases settings attempt.read source with
    ⟨body, hbody, hopen⟩ | hopen | ⟨e, hopen⟩
  · rw [hopen]
    refine Filed.afterGet ?_
    have hfiles : ∀ out tally, Decides settings
        (decisionOf (streamRun gz float engine settings.processing attempt.stream body))
        (streamRun gz float engine settings.processing attempt.stream body).committed
        (CopyOf attempt none) out tally → StreamFiles gz float settings engine attempt out tally := by
      intro out tally h
      refine ⟨body, hbody, ?_⟩
      simpa only [hlive, Bool.false_eq_true, if_false] using h
    simp only [Effect.attempt, streamToStore, Effect.ok_bind]
    rcases streamRun_published gz float engine settings.processing attempt.stream body with
      ⟨out, hres, hout, hm⟩ | ⟨hres, hout, hm⟩ | ⟨hres, hout, htally, hm⟩ | ⟨e, hres, hout, htally, hm⟩
    · have hP := hfiles _ _ (.written none _ (by rw [decisionOf, hres]; rfl))
      rw [hout] at hP
      refine .done (some out) _ hP (by simp [hres, Effect.publish]) ?_ ?_
      · simp [landed, hres, hout, Effect.publish, StoreCall.landed]
      · simp [hres, hm, filedMetrics, Effect.publish]
    · have hP := hfiles _ _ (.nothingKept _ (by rw [decisionOf, hres]; rfl))
      refine .done none _ hP (by simp [hres, Effect.publish]) ?_ ?_
      · simp [landed, hres, hout, Effect.publish, StoreCall.landed]
      · simp [hres, hm, filedMetrics, Effect.publish]
    · have hdecision : decisionOf (streamRun gz float engine settings.processing attempt.stream body) =
          .ok (.unrecognized, .empty) := by
        rw [decisionOf, hres, htally]
        rfl
      simp only [hres, hout]
      refine Filed.after ?_ rfl hm
      refine Filed.afterPublish rfl ?_
      cases hpolicy : settings.behavior.onUnrecognizedObject with
      | copy =>
        exact filed_streamCopy source
          (fun bytes hc => hfiles _ _ (.unrecognizedCopy _ bytes hdecision hpolicy hc))
      | skip =>
        exact .done none .empty (hfiles _ _ (.unrecognizedSkip _ hdecision hpolicy)) rfl rfl
          (by simp [filedMetrics, Effect.publish])
      | error => exact filed_fail _
    · have hdecision : decisionOf (streamRun gz float engine settings.processing attempt.stream body) =
          .error e := by
        rw [decisionOf, hres]
        rfl
      simp only [hres, hout]
      refine Filed.after ?_ rfl hm
      by_cases hcopy : copiesUnparsable settings e = true
      · obtain ⟨hpolicy, hsource⟩ := copiesUnparsable_iff.mp hcopy
        simp only [hcopy, if_true]
        refine copyUnparsable_filed source none (by simp [hlive]) (fun _ copy hc => ?_)
        exact hfiles _ _ (.unparsed e copy hdecision hsource hpolicy hc)
      · simp only [hcopy]
        exact filed_fail e
  · rw [hopen]
    exact .skipped rfl rfl (by simp)
  · rw [hopen]
    exact .failed _ rfl rfl rfl

/-- The end of a dry run, which files nothing but a tally. -/
lemma filed_dryRun {dest : Location} {P : Option Bytes → RecordTally → Prop} {outcome : Outcome}
    {tally : RecordTally} (hP : P none tally) :
    Filed engine dest P (do
      if outcome = .unrecognized then Effect.publish (Metrics.addUnrecognizedObjects 1) else pure ()
      Effect.publish (tally.commit engine)
      Effect.publish (Metrics.addObjectsProcessed 1)) := by
  by_cases hout : outcome = .unrecognized
  · simp only [hout, if_true]
    exact .done none tally hP rfl rfl (by simp [filedMetrics, Effect.publish])
  · simp only [hout, if_false]
    exact .done none tally hP rfl rfl (by simp [filedMetrics, Effect.publish])

lemma processDryRun_filed (source dest : Location) (hdry : settings.behavior.dryRun = true) :
    Filed engine dest (BufferFiles gz float settings engine attempt)
      (processDryRun gz float settings engine attempt source) := by
  unfold processDryRun
  rcases fetchWithMissingPolicy_cases settings attempt source with
    ⟨body, hbody, hend, hfits, hfetch⟩ | hfetch | ⟨_, -, -, hfetch⟩ | ⟨e, hfetch⟩
  · rw [hfetch]
    refine Filed.afterGet ?_
    simp only
    refine Filed.afterPublish (settled_billFetched _ _) ?_
    have hfiles : ∀ out tally, DryDecides settings
        (bufferRun gz float engine settings.processing attempt.compressFails body.bytes) out tally →
        BufferFiles gz float settings engine attempt out tally := by
      intro out tally h
      refine ⟨body, hbody, hend, hfits, ?_⟩
      simpa only [hdry, if_true] using h
    cases hrun : bufferRun gz float engine settings.processing attempt.compressFails body.bytes with
    | error e =>
      by_cases hcopy : copiesUnparsable settings e = true
      · obtain ⟨hpolicy, hsource⟩ := copiesUnparsable_iff.mp hcopy
        simp only [hcopy, if_true]
        have hP := hfiles _ _ (.unparsed e hrun hsource hpolicy)
        exact .done none .empty hP (by simp [copyUnparsable, hdry, Effect.publish])
          (by simp [landed, copyUnparsable, hdry, Effect.publish])
          (by simp [copyUnparsable, hdry, Effect.publish, filedMetrics])
      · simp only [hcopy]
        exact filed_fail e
    | ok r =>
      obtain ⟨outcome, tally⟩ := r
      exact filed_dryRun (hfiles _ _ (.judged outcome tally hrun))
  · rw [hfetch]
    exact .skipped rfl rfl (by simp)
  · rw [hfetch]
    exact .failed _ rfl rfl rfl
  · rw [hfetch]
    exact .failed _ rfl rfl rfl

/-- Folding back a settled snapshot keeps the tally and leaves out the bytes. -/
lemma foldBack_commit (tally : RecordTally) (n : ℕ) :
    foldBack (tally.commit engine + Metrics.addBytesOut n) = tally.commit engine := by
  ext1
  all_goals first | rfl | exact add_zero _

lemma settled_foldBack (m : Metrics) : (foldBack m).settled = foldBack m.settled := rfl

lemma processDryRunStream_filed (source dest : Location) (hdry : settings.behavior.dryRun = true) :
    Filed engine dest (StreamFiles gz float settings engine attempt)
      (processDryRunStream gz float settings engine attempt source) := by
  unfold processDryRunStream
  rcases openWithMissingPolicy_cases settings attempt.read source with
    ⟨body, hbody, hopen⟩ | hopen | ⟨e, hopen⟩
  · rw [hopen]
    refine Filed.afterGet ?_
    simp only
    have hfiles : ∀ tally, DryDecides settings
        (decisionOf (streamRun gz float engine settings.processing { attempt.stream with upload := none } body))
        none tally → StreamFiles gz float settings engine attempt none tally := by
      intro tally h
      refine ⟨body, hbody, ?_⟩
      simpa only [hdry, if_true] using h
    have hpublished := streamRun_published gz float engine settings.processing
      { attempt.stream with upload := none } body
    generalize streamRun gz float engine settings.processing { attempt.stream with upload := none } body =
      run at hfiles hpublished ⊢
    -- a run that was judged publishes its tally through the scratch counters
    have hjudged : ∀ outcome, run.result = .ok outcome →
        (foldBack run.metrics).settled = run.tally.commit engine →
        Filed engine dest (StreamFiles gz float settings engine attempt) (do
          Effect.publish (foldBack run.metrics)
          if outcome = .unrecognized then Effect.publish (Metrics.addUnrecognizedObjects 1) else pure ()
          Effect.publish (Metrics.addObjectsProcessed 1)) := by
      intro outcome hres hm
      have hP := hfiles _ (.judged outcome run.tally (by rw [decisionOf, hres]; rfl))
      by_cases hout : outcome = .unrecognized
      · simp only [hout, if_true]
        exact .done none _ hP rfl rfl (by simp [hm, filedMetrics, Effect.publish])
      · simp only [hout, if_false]
        exact .done none _ hP rfl rfl (by simp [hm, filedMetrics, Effect.publish])
    rcases hpublished with
      ⟨out, hres, -, hm⟩ | ⟨hres, -, hm⟩ | ⟨hres, -, htally, hm⟩ | ⟨e, hres, -, htally, hm⟩
    · simpa only [hres] using hjudged _ hres (by rw [settled_foldBack, hm, foldBack_commit])
    · have hfold : (foldBack run.metrics).settled = run.tally.commit engine := by
        rw [settled_foldBack, hm]
        simpa using foldBack_commit run.tally 0
      simpa only [hres] using hjudged _ hres hfold
    · simpa only [hres] using hjudged _ hres (by rw [settled_foldBack, hm, htally]; rfl)
    · simp only [hres]
      refine Filed.afterPublish (by rw [settled_foldBack, hm]; rfl) ?_
      by_cases hcopy : copiesUnparsable settings e = true
      · obtain ⟨hpolicy, hsource⟩ := copiesUnparsable_iff.mp hcopy
        simp only [hcopy, if_true]
        have hP := hfiles _ (.unparsed e (by rw [decisionOf, hres]; rfl) hsource hpolicy)
        exact .done none .empty hP (by simp [copyUnparsable, hdry, Effect.publish])
          (by simp [landed, copyUnparsable, hdry, Effect.publish])
          (by simp [copyUnparsable, hdry, Effect.publish, filedMetrics])
      · simp only [hcopy]
        exact filed_fail e
  · rw [hopen]
    exact .skipped rfl rfl (by simp)
  · rw [hopen]
    exact .failed _ rfl rfl rfl

lemma runBuffer_filed (source dest : Location) :
    Filed engine dest (BufferFiles gz float settings engine attempt)
      (runBuffer gz float settings engine attempt source dest) := by
  unfold runBuffer
  cases hdry : settings.behavior.dryRun with
  | true => exact processDryRun_filed source dest hdry
  | false => exact processBuffer_filed source dest hdry

lemma runStream_filed (source dest : Location) :
    Filed engine dest (StreamFiles gz float settings engine attempt)
      (runStream gz float settings engine attempt source dest) := by
  unfold runStream
  cases hdry : settings.behavior.dryRun with
  | true => exact processDryRunStream_filed source dest hdry
  | false => exact processStream_filed source dest hdry

/-- The mode whose run decides about an object. -/
def decidingMode (gz : Gzip) (float : FloatParser) (settings : Settings) (engine : Engine)
    (attempt : Attempt) (object : ObjectRef) (dest : Location) : ObjectMode :=
  match selectMode settings object.size with
  | .stream => .stream
  | .buffer =>
    let run := runBuffer gz float settings engine attempt (object.bucket, object.key) dest
    if retriedViaStream settings run.result then .stream else .buffer

/-- What may be filed for an object: by the run that decides about it. -/
def Files (gz : Gzip) (float : FloatParser) (settings : Settings) (engine : Engine) (attempt : Attempt) :
    ObjectMode → Option Bytes → RecordTally → Prop
  | .buffer => BufferFiles gz float settings engine attempt
  | .stream => StreamFiles gz float settings engine attempt

/-- What buffer mode did before the retry left no trace. -/
lemma orRetry_filed {dest : Location} {P Q : Option Bytes → RecordTally → Prop} {run retry : ObjectM Unit}
    (hrun : Filed engine dest P run) (hretry : Filed engine dest Q retry) :
    Filed engine dest (if retriedViaStream settings run.result then Q else P)
      (orRetry settings run retry) := by
  unfold orRetry
  simp only [Effect.attempt, Effect.ok_bind]
  by_cases h : retriedViaStream settings run.result = true
  · simp only [h, if_true]
    cases hrun with
    | failed e hr hl hm => exact hretry.after hl hm
    | skipped hr hl hm => simp [hr, retriedViaStream] at h
    | done out tally hP hr hl hm => simp [hr, retriedViaStream] at h
  · simp only [h]
    cases hrun with
    | failed e hr hl hm =>
      exact .failed e (by simp [hr]) (by simpa [hr, landed] using hl) (by simpa [hr] using hm)
    | skipped hr hl hm =>
      exact .skipped (by simp [hr]) (by simpa [hr, landed] using hl) (by simpa [hr] using hm)
    | done out tally hP hr hl hm =>
      exact .done out tally hP (by simp [hr]) (by simpa [hr, landed] using hl) (by simpa [hr] using hm)

/-- Every attempt fails, skips a missing object, or files what its deciding run came to. -/
theorem processObject_filed (object : ObjectRef) (dest : Location) :
    Filed engine dest
      (Files gz float settings engine attempt (decidingMode gz float settings engine attempt object dest))
      (processObject gz float settings engine attempt object dest) := by
  unfold processObject decidingMode
  cases selectMode settings object.size with
  | stream => exact runStream_filed _ dest
  | buffer =>
    refine (orRetry_filed (runBuffer_filed _ dest) (runStream_filed _ dest)).imp (fun out tally h => ?_)
    simp only
    split_ifs at h with hretry
    · rw [if_pos hretry]
      exact h
    · rw [if_neg hretry]
      exact h

end Modes

end Pipeline

end CloudTrailFilter
