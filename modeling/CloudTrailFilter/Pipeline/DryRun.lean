import CloudTrailFilter.Pipeline.Accounting

/-!
# The dry run

A dry run evaluates and counts without writing. With a ruleset it never calls a write of the
store. Without one the raw copy writes, dry run or not.
-/

namespace CloudTrailFilter.Pipeline
open CloudTrailFilter.Json CloudTrailFilter.Filter CloudTrailFilter.Process

section Writes
variable (gz : Gzip) (float : FloatParser) {settings : Settings}

def StoreCall.isWrite : StoreCall → Bool
  | .getStream _ => false
  | .put _ _ _ | .putStream _ _ => true

lemma openWithMissingPolicy_reads (answer : GetAnswer) (source : Location) :
    ∀ c ∈ (openWithMissingPolicy settings answer source).calls, c.isWrite = false := by
  rcases openWithMissingPolicy_cases settings answer source with ⟨_, -, h⟩ | h | ⟨_, h⟩ <;>
    rw [h] <;> simp [StoreCall.isWrite]

lemma fetchWithMissingPolicy_reads (attempt : Attempt) (source : Location) :
    ∀ c ∈ (fetchWithMissingPolicy settings attempt source).calls, c.isWrite = false := by
  rcases fetchWithMissingPolicy_cases settings attempt source with ⟨_, -, -, -, h⟩ | h | ⟨_, -, -, h⟩ | ⟨_, h⟩ <;>
    rw [h] <;> simp [StoreCall.isWrite]

/-- In a dry run the copy of an object that did not parse is only counted. -/
lemma copyUnparsable_reads (hdry : settings.behavior.dryRun = true) (attempt : Attempt)
    (source dest : Location) (bytes : Option Bytes) :
    ∀ c ∈ (copyUnparsable settings attempt source dest bytes).calls, c.isWrite = false := by
  simp [copyUnparsable, hdry, Effect.publish]

lemma processDryRun_reads (hdry : settings.behavior.dryRun = true) (engine : Engine) (attempt : Attempt)
    (source : Location) :
    ∀ c ∈ (processDryRun gz float settings engine attempt source).calls, c.isWrite = false := by
  unfold processDryRun
  refine Effect.bind_calls (fetchWithMissingPolicy_reads attempt source) (fun fetched => ?_)
  cases fetched with
  | none => simp
  | some bytes =>
    refine Effect.bind_calls (by simp [Effect.publish]) (fun _ => ?_)
    split
    · split_ifs
      · exact copyUnparsable_reads hdry attempt source _ _
      · simp
    · split_ifs <;> simp [Effect.publish]

lemma processDryRunStream_reads (hdry : settings.behavior.dryRun = true) (engine : Engine)
    (attempt : Attempt) (source : Location) :
    ∀ c ∈ (processDryRunStream gz float settings engine attempt source).calls, c.isWrite = false := by
  unfold processDryRunStream
  refine Effect.bind_calls (openWithMissingPolicy_reads attempt.read source) (fun reader => ?_)
  cases reader with
  | none => simp
  | some body =>
    refine Effect.bind_calls (by simp [Effect.publish]) (fun _ => ?_)
    split
    · split_ifs
      · exact copyUnparsable_reads hdry attempt source _ _
      · simp
    · split_ifs <;> simp [Effect.publish]

/-- With a ruleset a dry run of an object calls no write. -/
lemma processObject_reads (hdry : settings.behavior.dryRun = true) (engine : Engine) (attempt : Attempt)
    (object : ObjectRef) (dest : Location) :
    ∀ c ∈ (processObject gz float settings engine attempt object dest).calls, c.isWrite = false := by
  have hstream := fun source => processDryRunStream_reads gz float hdry engine attempt source
  have hbuffer := fun source => processDryRun_reads gz float hdry engine attempt source
  unfold processObject runBuffer runStream
  simp only [hdry, if_true]
  cases selectMode settings object.size with
  | stream => exact hstream _
  | buffer =>
    refine Effect.bind_calls (hbuffer _) (fun result => ?_)
    split_ifs
    · exact hstream _
    · split <;> simp

/-- A raw copy calls a write exactly if its source can be opened. -/
lemma rawCopy_reads_iff (attempt : Attempt) (source dest : Location) :
    (∀ c ∈ (rawCopy settings attempt source dest).calls, c.isWrite = false) ↔
      ∀ body, attempt.reread ≠ .body body := by
  cases hanswer : attempt.reread with
  | body body =>
    simp only [ne_eq, GetAnswer.body.injEq, forall_eq', iff_false]
    intro h
    unfold rawCopy streamCopy openWithMissingPolicy at h
    cases herr : copyError attempt body <;> simp [hanswer, herr, StoreCall.isWrite, Effect.publish] at h
  | notFound =>
    cases hpolicy : settings.behavior.onMissingObject <;>
      simp [rawCopy, streamCopy, openWithMissingPolicy, hanswer, hpolicy, StoreCall.isWrite]
  | failed message =>
    simp [rawCopy, streamCopy, openWithMissingPolicy, hanswer, StoreCall.isWrite]

/-- The objects a batch queues: none if it is refused before. -/
def queueOf (settings : Settings) (engine : Option Engine) (decoded : Except String (List SourceItem)) :
    List Work :=
  match (openBatch settings engine decoded).result with
  | .ok (_, _, work) => work
  | .error _ => []

lemma queueOf_refused {engine : Option Engine} {decoded : Except String (List SourceItem)} {e : CoreError}
    {calls : List StoreCall} {m : Metrics} (hopen : openBatch settings engine decoded = ⟨.error e, calls, m⟩) :
    queueOf settings engine decoded = [] := by
  simp [queueOf, hopen]

lemma queueOf_opened {engine : Option Engine} {decoded : Except String (List SourceItem)}
    {items : List SourceItem} {ledger : Ledger} {work : List Work} {calls : List StoreCall} {m : Metrics}
    (hopen : openBatch settings engine decoded = ⟨.ok (items, ledger, work), calls, m⟩) :
    queueOf settings engine decoded = work := by
  simp [queueOf, hopen]

/-- When a dry run is one. A call of `handle` in a dry run calls no write of the store exactly if
a ruleset is loaded or no queued object can be opened: without a ruleset the objects are copied,
dry run or not. -/
theorem dry_run_writes_nothing_iff (engine : Option Engine) (decoded : Except String (List SourceItem))
    (attempts : ℕ → Attempt) (hdry : settings.behavior.dryRun = true) {x : ObjectM BatchOutcome}
    (h : Handles gz float settings engine decoded attempts x) :
    (∀ c ∈ x.calls, c.isWrite = false) ↔
      engine.isSome ∨ ∀ t ∈ (queueOf settings engine decoded).zipIdx, ∀ body,
        (attempts t.2).reread ≠ .body body := by
  rcases openBatch_cases settings engine decoded with ⟨_, -, hopen⟩ | ⟨_, _, -, -, hopen⟩ |
    ⟨_, -, -, -, _, _, hopen⟩ | ⟨items, rfl, hgate, hself, hopen⟩
  · simp [h.refused hopen, queueOf_refused hopen]
  · simp [h.refused hopen, queueOf_refused hopen]
  · simp [h.refused hopen, queueOf_refused hopen]
  · have hcompleted := h.completed hgate hself
    have hcalls : (∀ c ∈ x.calls, c.isWrite = false) ↔
        ∀ t ∈ (queuedFrom settings 0 items).zipIdx,
          ∀ c ∈ (runWork gz float settings engine attempts t).calls, c.isWrite = false := by
      simp only [hcompleted.calls.mem_iff, List.mem_flatMap]
      exact ⟨fun h t ht c hc => h c ⟨t, ht, hc⟩, fun h c ⟨t, ht, hc⟩ => h t ht c hc⟩
    rw [hcalls, queueOf_opened hopen]
    cases engine with
    | some engine =>
      simp only [Option.isSome_some, true_or, iff_true]
      intro t _
      exact processObject_reads gz float hdry engine (attempts t.2) t.1.object t.1.dest
    | none =>
      simp only [Option.isSome_none, Bool.false_eq_true, false_or]
      exact forall₂_congr (fun t _ => rawCopy_reads_iff (attempts t.2) _ _)

/-- A dry run before the first ruleset was loaded, with `on_config_error` at `open`. -/
def previewSettings : Settings :=
  { sampleSettings with behavior := { sampleSettings.behavior with dryRun := true, onConfigError := .open } }

/-- The dry run writes the source object to the destination. -/
theorem dry_run_writes_without_ruleset :
    previewSettings.behavior.dryRun = true ∧
    (∃ x, Handles storedGzip (fun _ => none) previewSettings none (.ok sampleItems)
      (fun _ => sampleAttempt envelopeText) x) ∧
    ∀ x, Handles storedGzip (fun _ => none) previewSettings none (.ok sampleItems)
        (fun _ => sampleAttempt envelopeText) x →
      .putStream ("filtered", sampleObject.key) (some (storedMember envelopeText.toUTF8.toList)) ∈ x.calls := by
  refine ⟨rfl, exists_handles _ _ _ _ _ _ (by decide), ?_⟩
  intro x hx
  have hsame := handleSequential_eq (n := 1) storedGzip (fun _ => none) previewSettings none
    (fun _ => sampleAttempt envelopeText) hx
  rw [hsame.2.2.mem_iff]
  decide +kernel

theorem dry_run_writes_nothing_sample :
    ∃ x, Handles storedGzip (fun _ => none) previewSettings (some passEngine) (.ok sampleItems)
        (fun _ => sampleAttempt envelopeText) x ∧ x.calls ≠ [] ∧ ∀ c ∈ x.calls, c.isWrite = false := by
  obtain ⟨x, hx⟩ := exists_handles storedGzip (fun _ => none) previewSettings (some passEngine)
    (fun _ => sampleAttempt envelopeText) (.ok sampleItems) (by decide)
  have hcalls := (handleSequential_eq (n := 1) storedGzip (fun _ => none) previewSettings _ _ hx).2.2
  refine ⟨x, hx, ?_, ?_⟩
  · intro hnil
    rw [hnil, List.nil_perm] at hcalls
    revert hcalls
    decide +kernel
  · exact (dry_run_writes_nothing_iff storedGzip (fun _ => none) (some passEngine) (.ok sampleItems) _ rfl hx).mpr
      (.inl rfl)

end Writes

end CloudTrailFilter.Pipeline
