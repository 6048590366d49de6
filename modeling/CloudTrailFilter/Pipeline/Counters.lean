import CloudTrailFilter.Pipeline.Filing
import CloudTrailFilter.Process.Parity

/-!
# The counters of an object

An object's record counters and its written bytes are published as one unit: nothing for an
attempt that fails, and for one that succeeds exactly the tally of the run that decided and the
length of the body that landed.
-/

namespace CloudTrailFilter

/-- The counters that describe an object's records. -/
def Metrics.recordCounters (m : Metrics) : ℕ × ℕ × ℕ × ℕ × Multiset String :=
  (m.recordsIn, m.recordsKept, m.recordsDropped, m.parseErrors, m.ruleDrops)

namespace Pipeline
open CloudTrailFilter.Json CloudTrailFilter.Filter CloudTrailFilter.Process

section Tally
variable (gz : Gzip) (float : FloatParser) (settings : Settings) (engine : Engine) (attempt : Attempt)

/-- The result of the run that decides about an object, if there is one. -/
def decidingResult (mode : ObjectMode) : Option (Except CoreError (Outcome × RecordTally)) :=
  match mode with
  | .buffer =>
    match attempt.fetch with
    | .body body => some (bufferRun gz float engine settings.processing attempt.compressFails body.bytes)
    | _ => none
  | .stream =>
    match attempt.read with
    | .body body =>
      let env := if settings.behavior.dryRun then { attempt.stream with upload := none } else attempt.stream
      some (decisionOf (streamRun gz float engine settings.processing env body))
    | _ => none

/-- The tally a result stands for. An object that is not recognized or does not parse has none. -/
def tallyOf : Option (Except CoreError (Outcome × RecordTally)) → RecordTally
  | some (.ok (.written _, tally)) | some (.ok (.nothingKept, tally)) => tally
  | _ => .empty

end Tally

section Counters
variable {gz : Gzip} {float : FloatParser} {settings : Settings} {engine : Engine} {attempt : Attempt}

lemma tallyOf_of_decides {result : Except CoreError (Outcome × RecordTally)} {committed : Option Bytes}
    {copy : Bytes → Prop} {out : Option Bytes} {tally : RecordTally}
    (h : Decides settings result committed copy out tally) : tallyOf (some result) = tally := by
  cases h with
  | written body tally h => rw [h]; rfl
  | nothingKept tally h => rw [h]; rfl
  | unrecognizedSkip tally h => rw [h]; rfl
  | unrecognizedCopy tally bytes h => rw [h]; rfl
  | unparsed e bytes h => rw [h]; rfl

lemma streamRun_unrecognized {env : StreamEnv} {body : Body} {tally : RecordTally}
    (h : decisionOf (streamRun gz float engine settings.processing env body) = .ok (.unrecognized, tally)) :
    tally = .empty := by
  rcases streamRun_published gz float engine settings.processing env body with
    ⟨_, hres, -, -⟩ | ⟨hres, -, -⟩ | ⟨hres, -, htally, -⟩ | ⟨e, hres, -, -, -⟩ <;>
    rw [decisionOf, hres] at h <;> simp only [Except.map, Except.ok.injEq, Prod.mk.injEq] at h
  · cases h.1
  · cases h.1
  · rw [← h.2, htally]
  · cases h

lemma tallyOf_of_dryDecides {result : Except CoreError (Outcome × RecordTally)} {out : Option Bytes}
    {tally : RecordTally} (h : DryDecides settings result out tally)
    (hempty : ∀ tally, result = .ok (.unrecognized, tally) → tally = .empty) :
    tallyOf (some result) = tally ∧ out = none := by
  cases h with
  | judged outcome tally h =>
    cases outcome with
    | unrecognized => rw [hempty tally h, h]; exact ⟨rfl, rfl⟩
    | written body => rw [h]; exact ⟨rfl, rfl⟩
    | nothingKept => rw [h]; exact ⟨rfl, rfl⟩
  | unparsed e h => rw [h]; exact ⟨rfl, rfl⟩

/-- What is filed goes with the tally of the deciding run, and without a body in a dry run. -/
lemma tallyOf_of_files {mode : ObjectMode} {out : Option Bytes} {tally : RecordTally}
    (h : Files gz float settings engine attempt mode out tally) :
    tallyOf (decidingResult gz float settings engine attempt mode) = tally ∧
      (settings.behavior.dryRun = true → out = none) := by
  cases hdry : settings.behavior.dryRun with
  | true =>
    cases mode with
    | buffer =>
      obtain ⟨body, hbody, -, -, h⟩ := h
      simp only [hdry, if_true] at h
      have := tallyOf_of_dryDecides h (fun _ => bufferRun_unrecognized)
      simpa [decidingResult, hbody] using this
    | stream =>
      obtain ⟨body, hbody, h⟩ := h
      simp only [hdry, if_true] at h
      have := tallyOf_of_dryDecides h (fun _ => streamRun_unrecognized)
      simpa [decidingResult, hbody, hdry] using this
  | false =>
    refine ⟨?_, by simp⟩
    cases mode with
    | buffer =>
      obtain ⟨body, hbody, -, -, h⟩ := h
      simp only [hdry, Bool.false_eq_true, if_false] at h
      simpa [decidingResult, hbody] using tallyOf_of_decides h
    | stream =>
      obtain ⟨body, hbody, h⟩ := h
      simp only [hdry, Bool.false_eq_true, if_false] at h
      simpa [decidingResult, hbody, hdry] using tallyOf_of_decides h

lemma recordCounters_settled (m : Metrics) : m.recordCounters = m.settled.recordCounters := rfl

lemma bytesOut_settled (m : Metrics) : m.bytesOut = m.settled.bytesOut := rfl

lemma recordCounters_filed (out : Option Bytes) (tally : RecordTally) :
    (filedMetrics engine out tally).recordCounters = (tally.commit engine).recordCounters := by
  simp only [Metrics.recordCounters, filedMetrics, Prod.mk.injEq]
  refine ⟨rfl, rfl, rfl, rfl, ?_⟩
  exact (add_zero _).trans (add_zero _)

lemma bytesOut_filed (out : Option Bytes) (tally : RecordTally) :
    (filedMetrics engine out tally).bytesOut = out.elim 0 List.length := by
  change 0 + out.elim 0 List.length + 0 = _
  omega

/-- The counters of an object move as one unit and only on success. A failed attempt publishes
nothing of its records and no written bytes. A successful one publishes the tally of the run
that decided, or nothing if the object was skipped, and the length of the one body that landed
at its destination, if any; a dry run lands none. -/
theorem counters_published_once (gz : Gzip) (float : FloatParser) (settings : Settings)
    (engine : Engine) (attempt : Attempt) (object : ObjectRef) (dest : Location) :
    let x := processObject gz float settings engine attempt object dest
    let mode := decidingMode gz float settings engine attempt object dest
    (∀ e, x.result = .error e →
      x.metrics.recordCounters = (0 : Metrics).recordCounters ∧ x.metrics.bytesOut = 0) ∧
    (x.result = .ok () →
      (x.metrics.recordCounters =
          ((tallyOf (decidingResult gz float settings engine attempt mode)).commit engine).recordCounters ∨
        x.metrics.objectsSkipped = 1 ∧ landed x = [] ∧
          x.metrics.recordCounters = (0 : Metrics).recordCounters) ∧
      x.metrics.bytesOut = ((landed x).map (fun write => write.2.length)).sum ∧
      (landed x).length ≤ 1 ∧ (∀ write ∈ landed x, write.1 = dest) ∧
      (settings.behavior.dryRun = true → landed x = [])) := by
  intro x mode
  have hfiled : Filed engine dest (Files gz float settings engine attempt mode) x :=
    processObject_filed object dest
  cases hfiled with
  | failed e hr hl hm =>
    refine ⟨fun _ _ => ?_, fun hok => by simp [hr] at hok⟩
    rw [recordCounters_settled, bytesOut_settled, hm]
    exact ⟨rfl, rfl⟩
  | skipped hr hl hm =>
    refine ⟨fun e he => by simp [hr] at he, fun _ => ?_⟩
    have hskip : x.metrics.objectsSkipped = 1 := by
      change x.metrics.settled.objectsSkipped = 1
      rw [hm]
      rfl
    rw [recordCounters_settled, bytesOut_settled, hm, hl]
    exact ⟨.inr ⟨hskip, rfl, rfl⟩, rfl, by simp, by simp, fun _ => rfl⟩
  | done out tally hP hr hl hm =>
    refine ⟨fun e he => by simp [hr] at he, fun _ => ?_⟩
    obtain ⟨htally, hdry⟩ := tallyOf_of_files hP
    rw [recordCounters_settled, bytesOut_settled, hm, hl, recordCounters_filed, bytesOut_filed, htally]
    refine ⟨.inl rfl, ?_, ?_, ?_, ?_⟩
    · cases out <;> simp
    · cases out <;> simp
    · cases out <;> simp
    · intro hd
      simp [hdry hd]

/-- Every key passes, the default processing, and every policy at its most permissive. -/
def sampleSettings : Settings :=
  ⟨⟨fun _ => true, fun _ => false⟩, ⟨"filtered", ""⟩, sampleProcessing,
    ⟨false, .closed, .skip, .copy, .copy, .stream, true⟩⟩

/-- An attempt at a text in which every read delivers it whole and no write fails. -/
def sampleAttempt (text : String) : Attempt where
  fetch := .body (sampleBody text)
  read := .body (sampleBody text)
  reread := .body (sampleBody text)
  put := none
  copyUpload := none
  brokenCopy := .backend "reset"
  copyRead := 0
  compressFails := false
  stream := .good 60

def sampleObject : ObjectRef := ⟨"trail", "2024/01/01/a.json.gz", none⟩

theorem counters_published_once_sample :
    let x := processObject storedGzip (fun _ => none) sampleSettings passEngine
      (sampleAttempt envelopeText) sampleObject ("filtered", sampleObject.key)
    x.result = .ok () ∧ x.metrics.recordsKept = 2 ∧
      x.metrics.bytesOut = ((landed x).map (fun write => write.2.length)).sum := by
  intro x
  have hok : x.result = .ok () := by decide +kernel
  have hkept : x.metrics.recordsKept = 2 := by decide +kernel
  obtain ⟨-, hpublished⟩ := counters_published_once storedGzip (fun _ => none) sampleSettings passEngine
    (sampleAttempt envelopeText) sampleObject ("filtered", sampleObject.key)
  exact ⟨hok, hkept, (hpublished hok).2.1⟩

end Counters

end Pipeline

end CloudTrailFilter
