import CloudTrailFilter.Pipeline.DryRun
import CloudTrailFilter.Pipeline.Mode

/-!
# The dry run as a preview

With a ruleset, a store whose gets of an object all give the same answer and writes that
succeed, a dry run returns and counts what the live run does, but for `BytesOut`, except where
the live run fails on a policy or a second read that the dry run does not perform.
-/

namespace CloudTrailFilter

/-- The settings with the dry run on or off. -/
def Settings.withDryRun (settings : Settings) (dryRun : Bool) : Settings :=
  { settings with behavior := { settings.behavior with dryRun := dryRun } }

namespace Metrics

/-- All counters but `BytesOut`. -/
def withoutBytesOut (m : Metrics) : Metrics := { m with bytesOut := 0 }

@[simp] lemma withoutBytesOut_zero : withoutBytesOut 0 = 0 := rfl

@[simp] lemma withoutBytesOut_add (a b : Metrics) :
    (a + b).withoutBytesOut = a.withoutBytesOut + b.withoutBytesOut := rfl

@[simp] lemma withoutBytesOut_bytesIn (n : ℕ) : (addBytesIn n).withoutBytesOut = addBytesIn n := rfl

@[simp] lemma withoutBytesOut_bytesOut (n : ℕ) : (addBytesOut n).withoutBytesOut = 0 := rfl

@[simp] lemma withoutBytesOut_processed (n : ℕ) :
    (addObjectsProcessed n).withoutBytesOut = addObjectsProcessed n := rfl

@[simp] lemma withoutBytesOut_skipped (n : ℕ) :
    (addObjectsSkipped n).withoutBytesOut = addObjectsSkipped n := rfl

@[simp] lemma withoutBytesOut_unrecognized (n : ℕ) :
    (addUnrecognizedObjects n).withoutBytesOut = addUnrecognizedObjects n := rfl

@[simp] lemma withoutBytesOut_copiedUnparsed (n : ℕ) :
    (addObjectsCopiedUnparsed n).withoutBytesOut = addObjectsCopiedUnparsed n := rfl

@[simp] lemma withoutBytesOut_commit (tally : Process.RecordTally) (engine : Filter.Engine) :
    (tally.commit engine).withoutBytesOut = tally.commit engine := rfl

instance : IsRightCancelAdd Metrics where
  add_right_cancel c a b h := by
    obtain ⟨h₁, h₂, h₃, h₄, h₅, h₆, h₇, h₈, h₉, h₁₀, h₁₁, h₁₂, h₁₃, h₁₄, h₁₅⟩ := Metrics.ext_iff.mp h
    exact Metrics.ext (add_right_cancel h₁) (add_right_cancel h₂) (add_right_cancel h₃) (add_right_cancel h₄)
      (add_right_cancel h₅) (add_right_cancel h₆) (add_right_cancel h₇) (add_right_cancel h₈)
      (add_right_cancel h₉) (add_right_cancel h₁₀) (add_right_cancel h₁₁) (add_right_cancel h₁₂)
      (add_right_cancel h₁₃) (add_right_cancel h₁₄) (add_right_cancel h₁₅)

/-- The counters without `BytesOut`, as a homomorphism. -/
def withoutBytesOutHom : Metrics →+ Metrics where
  toFun := withoutBytesOut
  map_zero' := rfl
  map_add' _ _ := rfl

/-- `BytesIn` as a homomorphism into the counters. -/
def addBytesInHom : ℕ →+ Metrics where
  toFun := addBytesIn
  map_zero' := rfl
  map_add' _ _ := rfl

def objectsProcessedHom : Metrics →+ ℕ where
  toFun := objectsProcessed
  map_zero' := rfl
  map_add' _ _ := rfl

end Metrics

namespace Pipeline
open CloudTrailFilter.Json CloudTrailFilter.Filter CloudTrailFilter.Process

section Preview
variable (gz : Gzip) (float : FloatParser) (settings : Settings) (engine : Engine) {attempt : Attempt}

/-- A dry run previews a live run: it returns the same and counts the same but for `BytesOut`. -/
def Previews (live dry : ObjectM Unit) : Prop :=
  dry.result = live.result ∧ dry.metrics = live.metrics.withoutBytesOut

/-- A dry run that succeeds where the live run fails. -/
def Diverges (live dry : ObjectM Unit) : Prop :=
  (∃ e, live.result = .error e) ∧ (∀ limit, live.result ≠ .error (.objectTooLarge limit)) ∧
    dry.result = .ok () ∧ live.metrics.objectsProcessed = 0 ∧ dry.metrics.objectsProcessed = 1

/-- Buffer mode finds no envelope, under `on_unrecognized_object: error`. -/
def BufferRefuses (attempt : Attempt) : Prop :=
  ∃ body tally, attempt.fetch = .body body ∧ body.ending = .eof ∧
    body.bytes.length ≤ settings.processing.maxObjectBytes ∧
    bufferRun gz float engine settings.processing attempt.compressFails body.bytes = .ok (.unrecognized, tally) ∧
    settings.behavior.onUnrecognizedObject = .error

/-- Stream mode finds no envelope under `on_unrecognized_object: error`, or a source that does not
parse, whose copy is to be read again, under `on_parse_error: copy` and with a reader that fails. -/
def StreamRefuses (attempt : Attempt) : Prop :=
  ∃ body, attempt.read = .body body ∧ attempt.stream.extractionPanics = false ∧
    attempt.stream.encoderFails = false ∧
    match finishOf gz float attempt.stream.overread body with
    | .recordsFound => False
    | .unrecognized => settings.behavior.onUnrecognizedObject = .error
    | .error failure => copiesUnparsable settings failure.toError = true ∧ body.ending ≠ .eof

/-- Every get of an object gives the same answer and no write fails. -/
structure Attempt.Steady (attempt : Attempt) : Prop where
  read : attempt.read = attempt.fetch
  reread : attempt.reread = attempt.fetch
  put : attempt.put = none
  copyUpload : attempt.copyUpload = none
  upload : attempt.stream.upload = none

@[simp] lemma withDryRun_dryRun (dryRun : Bool) : (settings.withDryRun dryRun).behavior.dryRun = dryRun := rfl

@[simp] lemma withDryRun_processing (dryRun : Bool) :
    (settings.withDryRun dryRun).processing = settings.processing := rfl

@[simp] lemma withDryRun_onUnrecognizedObject (dryRun : Bool) :
    (settings.withDryRun dryRun).behavior.onUnrecognizedObject = settings.behavior.onUnrecognizedObject := rfl

@[simp] lemma copiesUnparsable_withDryRun (dryRun : Bool) (e : CoreError) :
    copiesUnparsable (settings.withDryRun dryRun) e = copiesUnparsable settings e := rfl

@[simp] lemma fetchWithMissingPolicy_withDryRun (dryRun : Bool) (attempt : Attempt) (source : Location) :
    fetchWithMissingPolicy (settings.withDryRun dryRun) attempt source =
      fetchWithMissingPolicy settings attempt source := rfl

@[simp] lemma openWithMissingPolicy_withDryRun (dryRun : Bool) (answer : GetAnswer) (source : Location) :
    openWithMissingPolicy (settings.withDryRun dryRun) answer source =
      openWithMissingPolicy settings answer source := rfl

@[simp] lemma streamCopy_withDryRun (dryRun : Bool) (attempt : Attempt) (source dest : Location)
    (policy : BytesInPolicy) :
    streamCopy (settings.withDryRun dryRun) attempt source dest policy =
      streamCopy settings attempt source dest policy := rfl

@[simp] lemma billFetched_withDryRun (dryRun : Bool) (result : Except CoreError (Outcome × RecordTally)) (bytes : Bytes) :
    billFetched (settings.withDryRun dryRun) result bytes = billFetched settings result bytes := rfl

lemma withoutBytesOut_billFetched (result : Except CoreError (Outcome × RecordTally)) (bytes : Bytes) :
    (billFetched settings result bytes).withoutBytesOut = billFetched settings result bytes := by
  unfold billFetched
  split_ifs <;> rfl

variable {settings}

lemma putBytes_steady (h : attempt.Steady) (dest : Location) (body : Bytes) :
    putBytes attempt dest body = ⟨.ok (), [.put dest body true], Metrics.addBytesOut body.length⟩ := by
  simp [putBytes, h.put, Effect.publish]

/-- The dry run of a copy only counts it. -/
lemma copyUnparsable_dry (source dest : Location) (bytes : Option Bytes) :
    copyUnparsable (settings.withDryRun true) attempt source dest bytes =
      ⟨.ok (), [], Metrics.addObjectsCopiedUnparsed 1 + Metrics.addObjectsProcessed 1⟩ := by
  simp [copyUnparsable, Effect.publish]

lemma copyUnparsable_buffered (h : attempt.Steady) (source dest : Location) (bytes : Bytes) :
    copyUnparsable (settings.withDryRun false) attempt source dest (some bytes) =
      ⟨.ok (), [.put dest bytes true], Metrics.addObjectsCopiedUnparsed 1 +
        (Metrics.addBytesOut bytes.length + Metrics.addObjectsProcessed 1)⟩ := by
  simp [copyUnparsable, putBytes_steady h, Effect.publish]

/-- Both runs bill the object, which counts no object; the live run fails after that, and the dry run
counts the object. -/
lemma diverges_of_billed {live dry : ObjectM Unit} {e : CoreError} {bill : Metrics}
    (hzero : bill.objectsProcessed = 0) (hlive : live.result = .error e)
    (hne : ∀ limit, e ≠ .objectTooLarge limit) (hdry : dry.result = .ok ())
    (hnone : live.metrics.objectsProcessed = bill.objectsProcessed)
    (hone : dry.metrics.objectsProcessed = bill.objectsProcessed + 1) : Diverges live dry := by
  refine ⟨⟨e, hlive⟩, fun limit heq => ?_, hdry, ?_, ?_⟩
  · rw [hlive] at heq
    exact hne limit (Except.error.inj heq)
  · rw [hnone, hzero]
  · rw [hone, hzero]

/-- Both runs of buffer mode on bytes that were read whole. -/
lemma processBuffer_preview_fetched (h : attempt.Steady) {source : Location} (dest : Location) {bytes : Bytes}
    (hfetch : fetchWithMissingPolicy settings attempt source = ⟨.ok (some bytes), [.getStream source], 0⟩) :
    let result := bufferRun gz float engine settings.processing attempt.compressFails bytes
    let live := processBuffer gz float (settings.withDryRun false) engine attempt source dest
    let dry := processDryRun gz float (settings.withDryRun true) engine attempt source
    (¬((∃ tally, result = .ok (.unrecognized, tally)) ∧ settings.behavior.onUnrecognizedObject = .error) →
      Previews live dry) ∧
    ((∃ tally, result = .ok (.unrecognized, tally)) ∧ settings.behavior.onUnrecognizedObject = .error →
      Diverges live dry) := by
  intro result live dry
  have hlive : live = processBuffer gz float (settings.withDryRun false) engine attempt source dest := rfl
  have hdry : dry = processDryRun gz float (settings.withDryRun true) engine attempt source := rfl
  have hrun : bufferRun gz float engine settings.processing attempt.compressFails bytes = result := rfl
  unfold processBuffer at hlive
  unfold processDryRun at hdry
  simp only [fetchWithMissingPolicy_withDryRun, hfetch, Effect.ok_bind, withDryRun_processing, hrun,
    Effect.publish_bind, billFetched_withDryRun, copiesUnparsable_withDryRun] at hlive hdry
  have hbill := withoutBytesOut_billFetched settings result bytes
  have hzero : (billFetched settings result bytes).objectsProcessed = 0 := by
    unfold billFetched
    split_ifs <;> rfl
  rcases hresult : result with e | ⟨outcome, tally⟩
  · refine ⟨fun _ => ?_, fun hbad => by simp at hbad⟩
    rw [hresult] at hbill
    by_cases hcopy : copiesUnparsable settings e = true
    · simp only [hresult, hcopy, if_true, copyUnparsable_dry, copyUnparsable_buffered h] at hlive hdry
      rw [hlive, hdry]
      exact ⟨rfl, by simp [hbill]⟩
    · simp only [hresult, hcopy] at hlive hdry
      rw [hlive, hdry]
      exact ⟨rfl, by simp [hbill]⟩
  · rw [hresult] at hbill hzero
    cases outcome with
    | nothingKept =>
      refine ⟨fun _ => ?_, fun hbad => by simp at hbad⟩
      simp only [hresult] at hlive hdry
      rw [hlive, hdry]
      exact ⟨rfl, by simp [Effect.publish, hbill]⟩
    | written out =>
      refine ⟨fun _ => ?_, fun hbad => by simp at hbad⟩
      cases out with
      | none =>
        simp only [hresult] at hlive hdry
        rw [hlive, hdry]
        exact ⟨rfl, by simp [Effect.publish, hbill]⟩
      | some out =>
        simp only [hresult, putBytes_steady h] at hlive hdry
        rw [hlive, hdry]
        exact ⟨rfl, by simp [Effect.publish, hbill]⟩
    | unrecognized =>
      simp only [hresult, applyUnrecognizedPolicy, withDryRun_onUnrecognizedObject] at hlive hdry
      cases hpolicy : settings.behavior.onUnrecognizedObject with
      | copy =>
        refine ⟨fun _ => ?_, fun hbad => by simp at hbad⟩
        simp only [hpolicy, putBytes_steady h] at hlive
        rw [hlive, hdry]
        exact ⟨rfl, by simp [Effect.publish, hbill]⟩
      | skip =>
        refine ⟨fun _ => ?_, fun hbad => by simp at hbad⟩
        simp only [hpolicy] at hlive
        rw [hlive, hdry]
        exact ⟨rfl, by simp [Effect.publish, hbill]⟩
      | error =>
        refine ⟨fun hno => (hno ⟨⟨tally, rfl⟩, rfl⟩).elim, fun _ => ?_⟩
        simp only [hpolicy] at hlive
        rw [hlive, hdry]
        exact diverges_of_billed hzero rfl (by simp) rfl (Nat.zero_add _) (Nat.zero_add _)

variable (settings) in
/-- Buffer mode: the dry run and the live run go through the same cases. -/
lemma processBuffer_preview (h : attempt.Steady) (source dest : Location) :
    let live := processBuffer gz float (settings.withDryRun false) engine attempt source dest
    let dry := processDryRun gz float (settings.withDryRun true) engine attempt source
    (¬BufferRefuses gz float settings engine attempt → Previews live dry) ∧
      (BufferRefuses gz float settings engine attempt → Diverges live dry) := by
  -- a source that is not read whole ends both runs the same way
  have hsame : ∀ r : ObjectM (Option Bytes), fetchWithMissingPolicy settings attempt source = r →
      r.metrics.withoutBytesOut = r.metrics → (∀ bytes, r.result ≠ .ok (some bytes)) →
      Previews (processBuffer gz float (settings.withDryRun false) engine attempt source dest)
        (processDryRun gz float (settings.withDryRun true) engine attempt source) := by
    intro r hr hm hnone
    unfold processBuffer processDryRun Previews
    simp only [fetchWithMissingPolicy_withDryRun, hr]
    cases hres : r.result with
    | error e =>
      rw [Effect.bind_of_error hres, Effect.bind_of_error hres]
      exact ⟨rfl, hm.symm⟩
    | ok fetched =>
      cases fetched with
      | some bytes => exact (hnone bytes hres).elim
      | none =>
        rw [Effect.bind_of_ok hres, Effect.bind_of_ok hres]
        exact ⟨rfl, by simp [hm]⟩
  have hrefuses : ∀ body, attempt.fetch = .body body → body.ending = .eof →
      body.bytes.length ≤ settings.processing.maxObjectBytes →
      (BufferRefuses gz float settings engine attempt ↔
        (∃ tally, bufferRun gz float engine settings.processing attempt.compressFails body.bytes =
          .ok (.unrecognized, tally)) ∧ settings.behavior.onUnrecognizedObject = .error) := by
    intro body hbody hend hfits
    unfold BufferRefuses
    constructor
    · rintro ⟨body', tally, hbody', -, -, hrun, hpolicy⟩
      rw [hbody] at hbody'
      cases hbody'
      exact ⟨⟨tally, hrun⟩, hpolicy⟩
    · rintro ⟨⟨tally, hrun⟩, hpolicy⟩
      exact ⟨body, tally, hbody, hend, hfits, hrun, hpolicy⟩
  rcases fetchWithMissingPolicy_cases settings attempt source with
    ⟨body, hbody, hend, hfits, hfetch⟩ | hfetch | ⟨body, hbody, hlarge, hfetch⟩ | ⟨e, hfetch⟩
  · rw [hrefuses body hbody hend hfits]
    exact processBuffer_preview_fetched gz float engine h dest hfetch
  · refine ⟨fun _ => hsame _ hfetch rfl (by simp), ?_⟩
    rintro ⟨body, tally, hbody, hend, hfits, -, -⟩
    simp [fetchWithMissingPolicy, openWithMissingPolicy, hbody, hend, not_lt.mpr hfits] at hfetch
  · refine ⟨fun _ => hsame _ hfetch rfl (by simp), ?_⟩
    rintro ⟨body', tally, hbody', -, hfits, -, -⟩
    rw [hbody] at hbody'
    cases hbody'
    omega
  · refine ⟨fun _ => hsame _ hfetch rfl (by simp), ?_⟩
    rintro ⟨body, tally, hbody, hend, hfits, -, -⟩
    simp [fetchWithMissingPolicy, openWithMissingPolicy, hbody, hend, not_lt.mpr hfits] at hfetch

variable (settings) in
/-- A copy by a second read, when every get gives the same answer. -/
lemma streamCopy_steady (h : attempt.Steady) {body : Body} (hbody : attempt.fetch = .body body)
    (source dest : Location) :
    (body.ending = .eof → streamCopy settings attempt source dest .alreadyCounted =
      ⟨.ok true, [.getStream source, .putStream dest (some body.bytes)], Metrics.addBytesOut body.bytes.length⟩) ∧
    (body.ending ≠ .eof → streamCopy settings attempt source dest .alreadyCounted =
      ⟨.error (.store attempt.brokenCopy), [.getStream source, .putStream dest none], 0⟩) := by
  unfold streamCopy openWithMissingPolicy copyError
  rw [h.reread, hbody]
  constructor
  · intro hend
    simp [hend, h.copyUpload, BytesInPolicy.bill]
  · intro hend
    cases hfail : body.ending with
    | eof => exact (hend hfail).elim
    | failed message => simp [hfail, BytesInPolicy.bill]

lemma foldBack_published (tally : RecordTally) (n k : ℕ) :
    foldBack (Metrics.addBytesIn n + Metrics.addBytesOut k + tally.commit engine) =
      (Metrics.addBytesIn n + Metrics.addBytesOut k + tally.commit engine).withoutBytesOut := by
  ext1 <;> rfl

lemma published_objectsProcessed (tally : RecordTally) (n k : ℕ) :
    (Metrics.addBytesIn n + Metrics.addBytesOut k + tally.commit engine).objectsProcessed = 0 := rfl

/-- What stream mode refuses, by the result of its run. -/
lemma streamRefuses_iff {body : Body} (hbody : attempt.read = .body body) :
    StreamRefuses gz float settings attempt ↔
      let run := streamRun gz float engine settings.processing attempt.stream body
      (run.result = .ok .unrecognized ∧ settings.behavior.onUnrecognizedObject = .error ∨
        ∃ e, run.result = .error e ∧ copiesUnparsable settings e = true ∧ body.ending ≠ .eof) := by
  have hfailed : ∀ run : StreamRun, (∃ e, run.result = .error e ∧ copiesUnparsable settings e = true ∧
      body.ending ≠ .eof) ↔ (∃ e, run.result = .error e ∧ copiesUnparsable settings e = true) ∧ body.ending ≠ .eof := by
    intro run
    simp only [← and_assoc, exists_and_right]
  simp only [hfailed, streamRun_unrecognized_iff, streamRun_unparsable_iff]
  unfold StreamRefuses
  simp only [hbody, GetAnswer.body.injEq, exists_eq_left']
  cases finishOf gz float attempt.stream.overread body <;> simp [and_assoc]

/-- Both runs of stream mode on a body that was opened. -/
lemma processStream_preview_opened (h : attempt.Steady) {source : Location} (dest : Location) {body : Body}
    (hbody : attempt.fetch = .body body)
    (hopen : openWithMissingPolicy settings attempt.read source = ⟨.ok (some body), [.getStream source], 0⟩) :
    let run := streamRun gz float engine settings.processing attempt.stream body
    let refuses := run.result = .ok .unrecognized ∧ settings.behavior.onUnrecognizedObject = .error ∨
      ∃ e, run.result = .error e ∧ copiesUnparsable settings e = true ∧ body.ending ≠ .eof
    let live := processStream gz float (settings.withDryRun false) engine attempt source dest
    let dry := processDryRunStream gz float (settings.withDryRun true) engine attempt source
    (¬refuses → Previews live dry) ∧ (refuses → Diverges live dry) := by
  intro run refuses live dry
  have hlive : live = processStream gz float (settings.withDryRun false) engine attempt source dest := rfl
  have hdry : dry = processDryRunStream gz float (settings.withDryRun true) engine attempt source := rfl
  have hrun : streamRun gz float engine settings.processing attempt.stream body = run := rfl
  have henv : { attempt.stream with upload := none } = attempt.stream := by
    rw [← h.upload]
  unfold processStream streamToStore at hlive
  unfold processDryRunStream at hdry
  simp only [openWithMissingPolicy_withDryRun, withDryRun_processing, copiesUnparsable_withDryRun,
    withDryRun_onUnrecognizedObject, streamCopy_withDryRun, hopen, Effect.ok_bind, Effect.attempt, henv,
    Effect.publish_bind, hrun] at hlive hdry
  obtain ⟨k, hm⟩ := streamRun_metrics gz float engine settings.processing attempt.stream body
  rw [hrun] at hm
  have hfold : foldBack run.metrics = run.metrics.withoutBytesOut := by
    rw [hm]
    exact foldBack_published engine _ _ _
  have hzero : run.metrics.objectsProcessed = 0 := by
    rw [hm]
    exact published_objectsProcessed engine _ _ _
  rw [hfold] at hdry
  obtain ⟨hwhole, hbroken⟩ := streamCopy_steady settings h hbody source dest
  rcases hres : run.result with e | outcome
  · simp only [hres] at hlive hdry
    by_cases hcopy : copiesUnparsable settings e = true
    · simp only [hcopy, if_true, copyUnparsable_dry] at hlive hdry
      by_cases hend : body.ending = .eof
      · refine ⟨fun _ => ?_, by simp [refuses, hres, hend]⟩
        simp only [copyUnparsable, withDryRun_dryRun, streamCopy_withDryRun, hwhole hend] at hlive
        rw [hlive, hdry]
        exact ⟨by simp [Effect.publish], by simp [Effect.publish]⟩
      · refine ⟨fun hno => (hno (.inr ⟨e, hres, hcopy, hend⟩)).elim, fun _ => ?_⟩
        simp only [copyUnparsable, withDryRun_dryRun, streamCopy_withDryRun, hbroken hend] at hlive
        rw [hlive, hdry]
        exact diverges_of_billed hzero rfl (by simp) rfl (Nat.zero_add _) (Nat.zero_add _)
    · refine ⟨fun _ => ?_, by simp [refuses, hres, hcopy]⟩
      simp only [hcopy] at hlive hdry
      rw [hlive, hdry]
      exact ⟨rfl, by simp⟩
  · simp only [hres] at hlive hdry
    cases outcome with
    | written out =>
      refine ⟨fun _ => ?_, by simp [refuses, hres]⟩
      rw [hlive, hdry]
      exact ⟨rfl, by simp [Effect.publish]⟩
    | nothingKept =>
      refine ⟨fun _ => ?_, by simp [refuses, hres]⟩
      rw [hlive, hdry]
      exact ⟨rfl, by simp [Effect.publish]⟩
    | unrecognized =>
      have hend := streamRun_ok_eof gz float engine hres
      cases hpolicy : settings.behavior.onUnrecognizedObject with
      | copy =>
        refine ⟨fun _ => ?_, by simp [refuses, hres, hpolicy]⟩
        simp only [hpolicy, hwhole hend] at hlive
        rw [hlive, hdry]
        exact ⟨by simp [Effect.publish], by simp [Effect.publish]⟩
      | skip =>
        refine ⟨fun _ => ?_, by simp [refuses, hres, hpolicy]⟩
        simp only [hpolicy] at hlive
        rw [hlive, hdry]
        exact ⟨rfl, by simp [Effect.publish]⟩
      | error =>
        refine ⟨fun hno => (hno (.inl ⟨hres, hpolicy⟩)).elim, fun _ => ?_⟩
        simp only [hpolicy] at hlive
        rw [hlive, hdry]
        exact diverges_of_billed hzero rfl (by simp) rfl (Nat.zero_add _) (Nat.zero_add _)

variable (settings) in
/-- Stream mode: the run into a `DiscardStore` and the live run go through the same cases. -/
lemma processStream_preview (h : attempt.Steady) (source dest : Location) :
    let live := processStream gz float (settings.withDryRun false) engine attempt source dest
    let dry := processDryRunStream gz float (settings.withDryRun true) engine attempt source
    (¬StreamRefuses gz float settings attempt → Previews live dry) ∧
      (StreamRefuses gz float settings attempt → Diverges live dry) := by
  have hsame : ∀ r : ObjectM (Option Body), openWithMissingPolicy settings attempt.read source = r →
      r.metrics.withoutBytesOut = r.metrics → (∀ body, r.result ≠ .ok (some body)) →
      Previews (processStream gz float (settings.withDryRun false) engine attempt source dest)
        (processDryRunStream gz float (settings.withDryRun true) engine attempt source) := by
    intro r hr hm hnone
    unfold processStream processDryRunStream Previews
    simp only [openWithMissingPolicy_withDryRun, hr]
    cases hres : r.result with
    | error e =>
      rw [Effect.bind_of_error hres, Effect.bind_of_error hres]
      exact ⟨rfl, hm.symm⟩
    | ok opened =>
      cases opened with
      | some body => exact (hnone body hres).elim
      | none =>
        rw [Effect.bind_of_ok hres, Effect.bind_of_ok hres]
        exact ⟨rfl, by simp [hm]⟩
  rcases openWithMissingPolicy_cases settings attempt.read source with ⟨body, hbody, hopen⟩ | hopen | ⟨e, hopen⟩
  · rw [streamRefuses_iff gz float engine hbody]
    exact processStream_preview_opened gz float engine h dest (by rw [← h.read, hbody]) hopen
  · refine ⟨fun _ => hsame _ hopen rfl (by simp), ?_⟩
    rintro ⟨body, hbody, -⟩
    simp [openWithMissingPolicy, hbody] at hopen
  · refine ⟨fun _ => hsame _ hopen rfl (by simp), ?_⟩
    rintro ⟨body, hbody, -⟩
    simp [openWithMissingPolicy, hbody] at hopen

/-- The object is one that the live run refuses and the dry run counts. -/
def PreviewDiverges (settings : Settings) (attempt : Attempt) (object : ObjectRef) : Prop :=
  selectMode settings object.size = .buffer ∧ BufferRefuses gz float settings engine attempt ∨
    DecidedByStream gz float settings engine attempt object ∧ StreamRefuses gz float settings attempt

variable (settings) in
/-- A retry of the dry run previews the retry of the live run. -/
lemma orRetry_preview {run run' retry retry' : ObjectM Unit} {refuses retryRefuses : Prop}
    (hrun : (¬refuses → Previews run run') ∧ (refuses → Diverges run run'))
    (hretry : (¬retryRefuses → Previews retry retry') ∧ (retryRefuses → Diverges retry retry'))
    (hzero : ∀ e, run.result = .error e → run.metrics.objectsProcessed = 0)
    (hzero' : ∀ e, run'.result = .error e → run'.metrics.objectsProcessed = 0) :
    let diverges := refuses ∨ retriedViaStream settings run.result = true ∧ retryRefuses
    (¬diverges → Previews (orRetry settings run retry) (orRetry settings run' retry')) ∧
      (diverges → Diverges (orRetry settings run retry) (orRetry settings run' retry')) := by
  intro diverges
  by_cases hrefuses : refuses
  · refine ⟨fun hno => (hno (.inl hrefuses)).elim, fun _ => ?_⟩
    obtain ⟨herr, hne, hok, hnone, hone⟩ := hrun.2 hrefuses
    have hstays : retriedViaStream settings run.result = false := not_retried_of_ok hne
    have hstays' : retriedViaStream settings run'.result = false := by simp [hok, retriedViaStream]
    unfold Diverges
    rw [orRetry_of_not_retried retry hstays, orRetry_of_not_retried retry' hstays']
    exact ⟨herr, hne, hok, hnone, hone⟩
  obtain ⟨hresult, hmetrics⟩ := hrun.1 hrefuses
  by_cases hretried : retriedViaStream settings run.result = true
  · obtain ⟨e, he⟩ : ∃ e, run.result = .error e := by
      cases hb : run.result with
      | error e => exact ⟨e, rfl⟩
      | ok u => simp [hb, retriedViaStream] at hretried
    have hcount := hzero e he
    have hcount' := hzero' e (by rw [hresult, he])
    have hretried' : retriedViaStream settings run'.result = true := by rw [hresult]; exact hretried
    have hdiverges : diverges ↔ retryRefuses := by simp [diverges, hrefuses, hretried]
    rw [hdiverges]
    unfold Previews Diverges at *
    rw [orRetry_of_retried retry hretried, orRetry_of_retried retry' hretried']
    constructor
    · intro hno
      obtain ⟨hsame, hcounts⟩ := hretry.1 hno
      exact ⟨hsame, by rw [hmetrics, hcounts, Metrics.withoutBytesOut_add]⟩
    · intro hyes
      obtain ⟨herr, hne, hok, hlast, hlast'⟩ := hretry.2 hyes
      refine ⟨herr, hne, hok, ?_, ?_⟩
      · change run.metrics.objectsProcessed + retry.metrics.objectsProcessed = 0
        rw [hcount, hlast]
      · change run'.metrics.objectsProcessed + retry'.metrics.objectsProcessed = 1
        rw [hcount', hlast']
  · refine ⟨fun _ => ?_, by simp [diverges, hrefuses, hretried]⟩
    have hstays : retriedViaStream settings run.result = false := by simpa using hretried
    have hstays' : retriedViaStream settings run'.result = false := by rw [hresult]; exact hstays
    unfold Previews
    rw [orRetry_of_not_retried retry hstays, orRetry_of_not_retried retry' hstays']
    exact ⟨hresult, hmetrics⟩

variable (settings) in
/-- An object in the dry run and in the live run. -/
lemma processObject_preview (h : attempt.Steady) (object : ObjectRef) (dest : Location) :
    let live := processObject gz float (settings.withDryRun false) engine attempt object dest
    let dry := processObject gz float (settings.withDryRun true) engine attempt object dest
    (¬PreviewDiverges gz float engine settings attempt object → Previews live dry) ∧
      (PreviewDiverges gz float engine settings attempt object → Diverges live dry) := by
  intro live dry
  have hbuffer := processBuffer_preview gz float settings engine h (object.bucket, object.key) dest
  have hstream := processStream_preview gz float settings engine h (object.bucket, object.key) dest
  have hlive : live = processObject gz float (settings.withDryRun false) engine attempt object dest := rfl
  have hdry : dry = processObject gz float (settings.withDryRun true) engine attempt object dest := rfl
  have hselect : ∀ dryRun, selectMode (settings.withDryRun dryRun) object.size = selectMode settings object.size :=
    fun _ => rfl
  have horRetry : ∀ dryRun, orRetry (settings.withDryRun dryRun) = orRetry settings := fun _ => rfl
  unfold PreviewDiverges DecidedByStream
  unfold processObject runBuffer runStream at hlive hdry
  simp only [hselect, withDryRun_dryRun, if_true, Bool.false_eq_true, if_false, horRetry] at hlive hdry
  cases hmode : selectMode settings object.size with
  | stream =>
    simp only [hmode] at hlive hdry
    rw [hlive, hdry]
    simpa using hstream
  | buffer =>
    have hretried : retriedViaStream settings (processBuffer gz float (settings.withDryRun false) engine attempt
        (object.bucket, object.key) dest).result = true ↔
        settings.behavior.onObjectTooLarge = .stream ∧ TooLargeToBuffer gz float settings engine attempt :=
      retried_runBuffer_iff gz float (settings.withDryRun false) engine attempt (object.bucket, object.key) dest
    have hcases := orRetry_preview settings hbuffer hstream
      (fun e => objectsProcessed_of_failed engine (processBuffer_filed (object.bucket, object.key) dest rfl))
      (fun e => objectsProcessed_of_failed engine (processDryRun_filed (object.bucket, object.key) dest rfl))
    simp only [hmode] at hlive hdry
    rw [hlive, hdry]
    simpa [hretried] using hcases

end Preview

section Pump
variable (gz : Gzip) (float : FloatParser) (settings : Settings) (engine : Engine) {attempt : Attempt} (n : ℕ)

/-- The attempt with another reach of `pump_input` in a run that fails. -/
def Attempt.withPumped (attempt : Attempt) (n : ℕ) : Attempt :=
  { attempt with stream := { attempt.stream with pumped := n } }

/-- What a run of stream mode bills to `BytesIn` by where its pump was stopped. -/
def stoppedAt (env : StreamEnv) (result : Except CoreError Outcome) : ℕ :=
  match result with
  | .ok _ => 0
  | .error _ => env.pumped

/-- How far the pump gets shows in `BytesIn` only, and only in a run that fails. -/
lemma streamRun_pumped (cfg : Processing) (env : StreamEnv) (body : Body) :
    let run := streamRun gz float engine cfg env body
    let run' := streamRun gz float engine cfg { env with pumped := n } body
    run'.result = run.result ∧ run'.metrics + Metrics.addBytesIn (stoppedAt env run.result) =
      run.metrics + Metrics.addBytesIn (stoppedAt { env with pumped := n } run'.result) := by
  have hswap : Metrics.addBytesIn n + Metrics.addBytesIn env.pumped =
    Metrics.addBytesIn env.pumped + Metrics.addBytesIn n := add_comm _ _
  unfold streamRun streamRunAt
  cases env.extractionPanics with
  | true => exact ⟨rfl, hswap⟩
  | false =>
    cases env.encoderFails with
    | true => exact ⟨rfl, hswap⟩
    | false =>
      cases finishOf gz float env.overread body with
      | unrecognized => exact ⟨rfl, rfl⟩
      | error failure => exact ⟨rfl, hswap⟩
      | recordsFound =>
        simp only [Bool.false_eq_true, if_false]
        split_ifs
        · cases env.upload with
          | none => exact ⟨rfl, rfl⟩
          | some e => exact ⟨rfl, hswap⟩
        · exact ⟨rfl, rfl⟩

/-- What the stream run of an attempt bills by where its pump was stopped. -/
def streamBill (attempt : Attempt) : ℕ :=
  match attempt.read with
  | .body body => stoppedAt attempt.stream (streamRun gz float engine settings.processing attempt.stream body).result
  | .notFound | .failed _ => 0

/-- What the run that decides about an object bills by where its pump was stopped. -/
def pumpBill (attempt : Attempt) (object : ObjectRef) : ℕ :=
  match decidingMode gz float settings engine attempt object (destOf settings object) with
  | .buffer => 0
  | .stream => streamBill gz float settings engine attempt

lemma foldBack_pumped {run run' : StreamRun} {p q : ℕ}
    (h : run'.metrics + Metrics.addBytesIn p = run.metrics + Metrics.addBytesIn q) :
    foldBack run'.metrics + Metrics.addBytesIn p = foldBack run.metrics + Metrics.addBytesIn q := by
  have hbytes : foldBack (run'.metrics + Metrics.addBytesIn p) = foldBack (run.metrics + Metrics.addBytesIn q) := by
    rw [h]
  exact hbytes

lemma processDryRunStream_pumped (hupload : attempt.stream.upload = none) (source : Location) :
    let dry := processDryRunStream gz float (settings.withDryRun true) engine attempt source
    let dry' := processDryRunStream gz float (settings.withDryRun true) engine (attempt.withPumped n) source
    dry'.result = dry.result ∧
      dry'.metrics + Metrics.addBytesIn (streamBill gz float settings engine attempt) =
        dry.metrics + Metrics.addBytesIn (streamBill gz float settings engine (attempt.withPumped n)) := by
  intro dry dry'
  have hdry : dry = processDryRunStream gz float (settings.withDryRun true) engine attempt source := rfl
  have hdry' : dry' = processDryRunStream gz float (settings.withDryRun true) engine (attempt.withPumped n) source := rfl
  have henv : { attempt.stream with upload := none } = attempt.stream := by rw [← hupload]
  have henv' : { attempt.stream with upload := none, pumped := n } = { attempt.stream with pumped := n } := by
    rw [← hupload]
  unfold processDryRunStream at hdry hdry'
  simp only [Attempt.withPumped, henv, henv', withDryRun_processing] at hdry hdry'
  simp only [streamBill, Attempt.withPumped]
  cases hread : attempt.read with
  | body body =>
    have hopen : openWithMissingPolicy (settings.withDryRun true) (.body body) source =
        ⟨.ok (some body), [.getStream source], 0⟩ := by
      simp [openWithMissingPolicy]
    obtain ⟨hresult, hmetrics⟩ := streamRun_pumped gz float engine n settings.processing attempt.stream body
    have hfold := foldBack_pumped hmetrics
    rw [hresult] at hfold
    simp only [hread, hopen, Effect.ok_bind, Effect.publish_bind, hresult] at hdry hdry'
    simp only [hresult]
    rw [hdry, hdry']
    refine ⟨rfl, ?_⟩
    simp only [zero_add]
    rw [add_right_comm, hfold, add_right_comm]
    rfl
  | notFound =>
    simp only [hread, openWithMissingPolicy] at hdry hdry'
    rw [hdry, hdry']
    cases (settings.withDryRun true).behavior.onMissingObject with
    | skip => exact ⟨rfl, rfl⟩
    | error => exact ⟨rfl, rfl⟩
  | failed message =>
    simp only [hread, openWithMissingPolicy] at hdry hdry'
    rw [hdry, hdry']
    exact ⟨rfl, rfl⟩

variable (attempt) in
/-- The mode that decides does not depend on the dry run or on the pump. -/
lemma decidingMode_dry (object : ObjectRef) (dest dest' : Location) :
    decidingMode gz float (settings.withDryRun true) engine attempt object dest =
        decidingMode gz float settings engine attempt object dest' ∧
      decidingMode gz float settings engine (attempt.withPumped n) object dest =
        decidingMode gz float settings engine attempt object dest' := by
  have hext : ∀ m m' : ObjectMode, (m = .stream ↔ m' = .stream) → m = m' := by
    intro m m' h
    cases m <;> cases m' <;> simp at h ⊢
  refine ⟨hext _ _ ?_, hext _ _ ?_⟩
  · rw [decidingMode_eq_stream_iff, decidingMode_eq_stream_iff]
    rfl
  · rw [decidingMode_eq_stream_iff, decidingMode_eq_stream_iff]
    rfl

/-- How far the pump gets in the dry run of an object shows in `BytesIn` only. -/
lemma processObject_pumped (hupload : attempt.stream.upload = none) (object : ObjectRef) (dest : Location) :
    let dry := processObject gz float (settings.withDryRun true) engine attempt object dest
    let dry' := processObject gz float (settings.withDryRun true) engine (attempt.withPumped n) object dest
    dry'.result = dry.result ∧
      dry'.metrics + Metrics.addBytesIn (pumpBill gz float settings engine attempt object) =
        dry.metrics + Metrics.addBytesIn (pumpBill gz float settings engine (attempt.withPumped n) object) := by
  intro dry dry'
  obtain ⟨hmode, -⟩ := decidingMode_dry gz float settings engine attempt n object dest (destOf settings object)
  obtain ⟨-, hmode'⟩ :=
    decidingMode_dry gz float settings engine attempt n object (destOf settings object) (destOf settings object)
  have hdry : dry = processObject gz float (settings.withDryRun true) engine attempt object dest := rfl
  have hdry' : dry' = processObject gz float (settings.withDryRun true) engine (attempt.withPumped n) object dest := rfl
  obtain ⟨hresult, hmetrics⟩ :=
    processDryRunStream_pumped gz float settings engine n hupload (object.bucket, object.key)
  have hbuffer : processDryRun gz float (settings.withDryRun true) engine (attempt.withPumped n)
      (object.bucket, object.key) = processDryRun gz float (settings.withDryRun true) engine attempt
      (object.bucket, object.key) := rfl
  unfold pumpBill
  rw [hmode', ← hmode]
  unfold decidingMode
  unfold processObject at hdry hdry'
  simp only [runBuffer, runStream, withDryRun_dryRun, if_true, hbuffer] at hdry hdry' ⊢
  cases hselect : selectMode (settings.withDryRun true) object.size with
  | stream =>
    simp only [hselect] at hdry hdry'
    rw [hdry, hdry']
    exact ⟨hresult, hmetrics⟩
  | buffer =>
    simp only [hselect] at hdry hdry'
    generalize processDryRun gz float (settings.withDryRun true) engine attempt (object.bucket, object.key) = run at *
    rw [hdry, hdry']
    by_cases hretried : retriedViaStream (settings.withDryRun true) run.result = true
    · rw [orRetry_of_retried _ hretried, orRetry_of_retried _ hretried]
      simp only [hretried, if_true]
      exact ⟨hresult, by rw [add_assoc, hmetrics, add_assoc]⟩
    · have hstays : retriedViaStream (settings.withDryRun true) run.result = false := by simpa using hretried
      rw [orRetry_of_not_retried _ hstays, orRetry_of_not_retried _ hstays]
      simp [hstays]

end Pump

section Batch
variable (gz : Gzip) (float : FloatParser) (settings : Settings) (engine : Engine) (live : ℕ → Attempt)
  (pumps : ℕ → ℕ)

/-- The attempts of the dry run: its pumps may have been stopped elsewhere. -/
def dryAttempts (k : ℕ) : Attempt := (live k).withPumped (pumps k)

/-- One queued object in the dry run and in the live run. -/
lemma runWork_preview (hsteady : ∀ k, (live k).Steady) (t : Work × ℕ) :
    let x := runWork gz float (settings.withDryRun false) (some engine) live t
    let y := runWork gz float (settings.withDryRun true) (some engine) (dryAttempts live pumps) t
    let bill := Metrics.addBytesIn (pumpBill gz float settings engine (live t.2) t.1.object)
    let dryBill := Metrics.addBytesIn (pumpBill gz float settings engine (dryAttempts live pumps t.2) t.1.object)
    (¬PreviewDiverges gz float engine settings (live t.2) t.1.object →
      y.result = x.result ∧ y.metrics.withoutBytesOut + bill = x.metrics.withoutBytesOut + dryBill) ∧
    (PreviewDiverges gz float engine settings (live t.2) t.1.object →
      x.metrics.objectsProcessed = 0 ∧ y.metrics.objectsProcessed = 1) := by
  intro x y bill dryBill
  obtain ⟨hsame, hdiverges⟩ :=
    processObject_preview gz float settings engine (hsteady t.2) t.1.object t.1.dest
  obtain ⟨hresult, hmetrics⟩ :=
    processObject_pumped gz float settings engine (pumps t.2) (hsteady t.2).upload t.1.object t.1.dest
  constructor
  · intro hno
    obtain ⟨hr, hm⟩ := hsame hno
    refine ⟨hresult.trans hr, ?_⟩
    have hbills := congrArg Metrics.withoutBytesOut hmetrics
    rw [hm] at hbills
    exact hbills
  · intro hyes
    obtain ⟨-, -, -, hzero, hone⟩ := hdiverges hyes
    have hcount := congrArg Metrics.objectsProcessed hmetrics
    exact ⟨hzero, hcount.trans hone⟩

lemma tasks_withDryRun (dryRun : Bool) (items : List SourceItem) :
    tasks (settings.withDryRun dryRun) items = tasks settings items := by
  have hqueue : queuedFrom (settings.withDryRun dryRun) 0 items = queuedFrom settings 0 items := by
    apply queuedFrom_congr <;> rfl
  rw [tasks, hqueue, tasks]

/-- The same result, or errors of the same variant. -/
def SameOutcome : Except CoreError BatchOutcome → Except CoreError BatchOutcome → Prop
  | .ok a, .ok b => a = b
  | .error e, .error e' => e.ctorIdx = e'.ctorIdx
  | _, _ => False

lemma SameOutcome.refl (result : Except CoreError BatchOutcome) : SameOutcome result result := by
  cases result <;> rfl

/-- The dry run of a batch is what it is a preview of: it returns the same and counts the same but
for `BytesOut`. -/
def PreviewsBatch (x y : ObjectM BatchOutcome) : Prop :=
  SameOutcome x.result y.result ∧ y.metrics.withoutBytesOut = x.metrics.withoutBytesOut

variable {settings engine live pumps} {items : List SourceItem} {x y : ObjectM BatchOutcome}

/-- What a completed batch counts under a homomorphism that does not see failures. -/
lemma completed_count {dryRun : Bool} {attempts : ℕ → Attempt} {z : ObjectM BatchOutcome}
    (h : Completed gz float (settings.withDryRun dryRun) (some engine) attempts items z) :
    z.metrics.objectsProcessed = (items.map (fun item => (itemMetrics settings item).objectsProcessed)).sum +
      ((tasks settings items).map (fun t =>
        (runWork gz float (settings.withDryRun dryRun) (some engine) attempts t).metrics.objectsProcessed)).sum := by
  have hfailed : ∀ outcome, (failedMetrics outcome).objectsProcessed = 0 := by
    intro outcome
    cases outcome <;> rfl
  have hhom := congrArg Metrics.objectsProcessedHom h.metrics
  rw [map_add, map_list_sum, map_list_sum, List.map_map, List.map_map, tasks_withDryRun] at hhom
  refine hhom.trans (congrArg₂ _ rfl (congrArg List.sum (List.map_congr_left (fun t _ => ?_))))
  change _ + (failedMetrics _).objectsProcessed = _
  rw [hfailed]
  rfl

/-- A batch that has an object the live run refuses is counted differently. -/
lemma completed_diverges (hsteady : ∀ k, (live k).Steady)
    (hx : Completed gz float (settings.withDryRun false) (some engine) live items x)
    (hy : Completed gz float (settings.withDryRun true) (some engine) (dryAttempts live pumps) items y)
    {t : Work × ℕ} (ht : t ∈ tasks settings items)
    (hyes : PreviewDiverges gz float engine settings (live t.2) t.1.object) :
    x.metrics.objectsProcessed < y.metrics.objectsProcessed := by
  have hwork := runWork_preview gz float settings engine live pumps hsteady
  rw [completed_count gz float hx, completed_count gz float hy]
  apply Nat.add_lt_add_left
  apply List.sum_lt_sum
  · intro s _
    by_cases hdiverges : PreviewDiverges gz float engine settings (live s.2) s.1.object
    · obtain ⟨hzero, hone⟩ := (hwork s).2 hdiverges
      omega
    · have hsame := congrArg Metrics.objectsProcessed ((hwork s).1 hdiverges).2
      exact ge_of_eq hsame
  · refine ⟨t, ht, ?_⟩
    obtain ⟨hzero, hone⟩ := (hwork t).2 hyes
    omega

/-- Without such an object only the pumps can make a difference. -/
lemma completed_previews (hsteady : ∀ k, (live k).Steady)
    (hx : Completed gz float (settings.withDryRun false) (some engine) live items x)
    (hy : Completed gz float (settings.withDryRun true) (some engine) (dryAttempts live pumps) items y)
    (hno : ∀ t ∈ tasks settings items, ¬PreviewDiverges gz float engine settings (live t.2) t.1.object) :
    y.result = x.result ∧
      y.metrics.withoutBytesOut + Metrics.addBytesIn ((tasks settings items).map
          (fun t => pumpBill gz float settings engine (live t.2) t.1.object)).sum =
        x.metrics.withoutBytesOut + Metrics.addBytesIn ((tasks settings items).map
          (fun t => pumpBill gz float settings engine (dryAttempts live pumps t.2) t.1.object)).sum := by
  have hwork := fun t ht => (runWork_preview gz float settings engine live pumps hsteady t).1 (hno t ht)
  have hnotes : batchNotes gz float (settings.withDryRun true) (some engine) (dryAttempts live pumps) items =
      batchNotes gz float (settings.withDryRun false) (some engine) live items := by
    unfold batchNotes
    rw [tasks_withDryRun, tasks_withDryRun]
    refine congrArg _ (List.flatMap_congr (fun t ht => ?_))
    rw [(hwork t ht).1]
  have hsum : ∀ (dryRun : Bool) (attempts : ℕ → Attempt) (z : ObjectM BatchOutcome) (bill : Work × ℕ → ℕ),
      Completed gz float (settings.withDryRun dryRun) (some engine) attempts items z →
      z.metrics.withoutBytesOut + Metrics.addBytesIn ((tasks settings items).map bill).sum =
        (items.map (fun item => (itemMetrics settings item).withoutBytesOut)).sum +
          ((tasks settings items).map (fun t =>
            (runWork gz float (settings.withDryRun dryRun) (some engine) attempts t).metrics.withoutBytesOut +
              (failedMetrics (runWork gz float (settings.withDryRun dryRun) (some engine) attempts t).result).withoutBytesOut +
              Metrics.addBytesIn (bill t))).sum := by
    intro dryRun attempts z bill h
    have hhom := congrArg Metrics.withoutBytesOutHom h.metrics
    rw [map_add, map_list_sum, map_list_sum, List.map_map, List.map_map, tasks_withDryRun] at hhom
    have hbill := map_list_sum Metrics.addBytesInHom ((tasks settings items).map bill)
    rw [List.map_map] at hbill
    rw [List.sum_map_add, ← add_assoc]
    exact congrArg₂ _ hhom hbill
  refine ⟨by rw [hy.result, hx.result, hnotes]; rfl, ?_⟩
  rw [hsum _ _ _ _ hy, hsum _ _ _ _ hx]
  refine congrArg _ (congrArg List.sum (List.map_congr_left (fun t ht => ?_)))
  obtain ⟨hresult, hmetrics⟩ := hwork t ht
  rw [hresult, add_right_comm, hmetrics, add_right_comm]

end Batch

section Samples

lemma sampleAttempt_steady (text : String) : (sampleAttempt text).Steady := ⟨rfl, rfl, rfl, rfl, rfl⟩

/-- An object without an envelope is an error. -/
def strictSettings : Settings :=
  { sampleSettings with behavior := { sampleSettings.behavior with onUnrecognizedObject := .error } }

end Samples

end Pipeline

end CloudTrailFilter
