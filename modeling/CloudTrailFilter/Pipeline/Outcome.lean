import CloudTrailFilter.Pipeline.Adjudicate
import CloudTrailFilter.Pipeline.Counters

/-!
# The outcome of a batch

The outcome of `handle` is the one of the run of one object after the other, at every
concurrency and in every interleaving: its result, its counters and, up to order, its calls.
-/

namespace CloudTrailFilter

/-- The settings at another `object_concurrency`. -/
def Settings.withConcurrency (settings : Settings) (n : ℕ) : Settings :=
  { settings with processing := { settings.processing with objectConcurrency := n } }

namespace Pipeline
open CloudTrailFilter.Json CloudTrailFilter.Filter CloudTrailFilter.Process

section Outcome
variable (gz : Gzip) (float : FloatParser) (settings : Settings) (engine : Option Engine)
  (attempts : ℕ → Attempt) (items : List SourceItem)

/-- The tasks of a batch: its queue with the places in it. -/
def tasks : List (Work × ℕ) := (queuedFrom settings 0 items).zipIdx

/-- All failures of a batch, as the ledger notes them. -/
def batchNotes : List (ℕ × SourceItem × CoreError) :=
  decodeNotes 0 items ++ (tasks settings items).flatMap
    (fun t => noteOf items t.1 (runWork gz float settings engine attempts t).result)

/-- Whether there is no ruleset and the batch is to fail for it. -/
def closedGate : Bool := engine.isNone ∧ settings.behavior.onConfigError = .closed

lemma openBatch_cases (decoded : Except String (List SourceItem)) :
    (∃ message, decoded = .error message ∧
      openBatch settings engine decoded = ⟨.error (.decode message), [], Metrics.addDecodeErrors 1⟩) ∨
    (∃ items message, decoded = .ok items ∧ closedGate settings engine = true ∧
      openBatch settings engine decoded = ⟨.error (.config message), [], 0⟩) ∨
    (∃ items, decoded = .ok items ∧ closedGate settings engine = false ∧ ¬NoSelfTrigger settings items ∧
      ∃ (dest : Location) (m : Metrics),
        openBatch settings engine decoded = ⟨.error (.selfTrigger dest.1 dest.2), [], m⟩) ∨
    ∃ items, decoded = .ok items ∧ closedGate settings engine = false ∧ NoSelfTrigger settings items ∧
      openBatch settings engine decoded =
        ⟨.ok (items, Ledger.noteAll settings ⟨List.replicate items.length false, none⟩ (decodeNotes 0 items),
          queuedFrom settings 0 items), [], (items.map (itemMetrics settings)).sum⟩ := by
  cases decoded with
  | error message => exact .inl ⟨message, rfl, by simp [openBatch]⟩
  | ok items =>
    right
    by_cases hgate : engine.isNone = true ∧ settings.behavior.onConfigError = .closed
    · left
      refine ⟨items, "no compiled ruleset is cached and on_config_error is 'closed'", rfl,
        by simpa [closedGate] using hgate, ?_⟩
      simp only [openBatch, hgate, and_self, if_true]
      rfl
    · right
      have hopen : closedGate settings engine = false := by simpa [closedGate] using hgate
      rcases triage_cases settings ⟨List.replicate items.length false, none⟩ 0 items with
        ⟨htriage, hself⟩ | ⟨dest, m, htriage, hself⟩
      · right
        refine ⟨items, rfl, hopen, hself, ?_⟩
        simp only [openBatch, hgate, if_false, htriage]
        simp
      · left
        refine ⟨items, rfl, hopen, hself, dest, m, ?_⟩
        simp only [openBatch, hgate, if_false, htriage]
        rfl

/-- A batch whose objects have all been processed. -/
structure Completed (x : ObjectM BatchOutcome) : Prop where
  result : x.result = settle items (Ledger.noteAll settings ⟨List.replicate items.length false, none⟩
    (batchNotes gz float settings engine attempts items))
  calls : x.calls.Perm ((tasks settings items).flatMap
    (fun t => (runWork gz float settings engine attempts t).calls))
  metrics : x.metrics = (items.map (itemMetrics settings)).sum + ((tasks settings items).map
    (fun t => (runWork gz float settings engine attempts t).metrics +
      failedMetrics (runWork gz float settings engine attempts t).result)).sum

/-- The objects of a batch one after the other. -/
lemma sequential_tasks : Executor.sequential (runWork gz float settings engine attempts)
      (adjudicate settings items (queuedFrom settings 0 items))
      ⟨Ledger.noteAll settings ⟨List.replicate items.length false, none⟩ (decodeNotes 0 items), 0⟩
      (tasks settings items) =
    (⟨Ledger.noteAll settings ⟨List.replicate items.length false, none⟩
        (batchNotes gz float settings engine attempts items), (queuedFrom settings 0 items).length⟩,
      (tasks settings items).flatMap (fun t => (runWork gz float settings engine attempts t).calls),
      ((tasks settings items).map (fun t => (runWork gz float settings engine attempts t).metrics +
        failedMetrics (runWork gz float settings engine attempts t).result)).sum) := by
  have hidx : ∀ w ∈ queuedFrom settings 0 items, w.itemIdx < items.length := by
    intro w hw
    obtain ⟨i, item, hi, hget, -⟩ := queuedFrom_itemIdx settings hw
    obtain ⟨hlt, -⟩ := List.getElem?_eq_some_iff.mp hget
    omega
  have h := sequential_adjudicate settings items (runWork gz float settings engine attempts) []
    (queuedFrom settings 0 items) hidx
    (Ledger.noteAll settings ⟨List.replicate items.length false, none⟩ (decodeNotes 0 items))
  simpa [tasks, batchNotes, Ledger.noteAll_append] using h

/-- A call of `handle` is refused before the first object, or completes its batch. -/
theorem handles_cases {decoded : Except String (List SourceItem)} {x : ObjectM BatchOutcome}
    (h : Handles gz float settings engine decoded attempts x) :
    (∃ message, decoded = .error message ∧ x = ⟨.error (.decode message), [], Metrics.addDecodeErrors 1⟩) ∨
    (∃ items message, decoded = .ok items ∧ closedGate settings engine = true ∧
      x = ⟨.error (.config message), [], 0⟩) ∨
    (∃ items, decoded = .ok items ∧ closedGate settings engine = false ∧ ¬NoSelfTrigger settings items ∧
      ∃ dest : Location, x = ⟨.error (.selfTrigger dest.1 dest.2), [],
        (openBatch settings engine decoded).metrics⟩) ∨
    ∃ items, decoded = .ok items ∧ closedGate settings engine = false ∧ NoSelfTrigger settings items ∧
      Completed gz float settings engine attempts items x := by
  unfold Handles at h
  rcases openBatch_cases settings engine decoded with ⟨message, hdecoded, hopen⟩ |
    ⟨items, message, hdecoded, hgate, hopen⟩ | ⟨items, hdecoded, hgate, hself, dest, m, hopen⟩ |
    ⟨items, hdecoded, hgate, hself, hopen⟩
  · rw [hopen] at h
    exact .inl ⟨message, hdecoded, h⟩
  · rw [hopen] at h
    exact .inr (.inl ⟨items, message, hdecoded, hgate, h⟩)
  · refine .inr (.inr (.inl ⟨items, hdecoded, hgate, hself, dest, ?_⟩))
    rw [hopen] at h ⊢
    exact h
  · rw [hopen] at h
    obtain ⟨s, hruns, hdrained, rfl⟩ := h
    refine .inr (.inr (.inr ⟨items, hdecoded, hgate, hself, ?_⟩))
    obtain ⟨hconsumer, hcalls, hmetrics⟩ := hruns.drained hdrained
    change s.consumer = (Executor.sequential _ _ _ (tasks settings items)).1 at hconsumer
    change s.calls.Perm (Executor.sequential _ _ _ (tasks settings items)).2.1 at hcalls
    change s.metrics = (Executor.sequential _ _ _ (tasks settings items)).2.2 at hmetrics
    rw [sequential_tasks] at hconsumer hcalls hmetrics
    exact ⟨by rw [hconsumer], by simpa using hcalls, by rw [hmetrics]⟩

variable {gz float settings engine attempts items} in
/-- A call of `handle` that is refused does what pass 1 did. -/
lemma Handles.refused {decoded : Except String (List SourceItem)} {x : ObjectM BatchOutcome} {e : CoreError}
    {calls : List StoreCall} {m : Metrics} (hopen : openBatch settings engine decoded = ⟨.error e, calls, m⟩)
    (h : Handles gz float settings engine decoded attempts x) : x = ⟨.error e, calls, m⟩ := by
  simp only [Handles, hopen] at h
  exact h

variable {gz float settings engine attempts items} in
/-- A call of `handle` that is not refused completes its batch. -/
lemma Handles.completed {x : ObjectM BatchOutcome} (hgate : closedGate settings engine = false)
    (hself : NoSelfTrigger settings items) (h : Handles gz float settings engine (.ok items) attempts x) :
    Completed gz float settings engine attempts items x := by
  rcases handles_cases gz float settings engine attempts h with ⟨_, hbad, -⟩ | ⟨_, _, -, hclosed, -⟩ |
    ⟨items', hitems, -, htrigger, -⟩ | ⟨items', hitems, -, -, hcompleted⟩
  · simp at hbad
  · simp [hgate] at hclosed
  · cases hitems
    exact (htrigger hself).elim
  · cases hitems
    exact hcompleted

/-- A failure the batch has to report, with its item and its place in the queue: of an item that
does not decode, or of a queued object, where neither is isolated to its message. -/
inductive HardFailure : ℕ → ℕ → CoreError → Prop where
  | decode {i : ℕ} {item : SourceItem} {message : String} : items[i]? = some item →
      item.decodeError = some message → isolated settings item = false →
      HardFailure i 0 (.decode message)
  | object {k : ℕ} {w : Work} {item : SourceItem} {e : CoreError} :
      (queuedFrom settings 0 items)[k]? = some w → items[w.itemIdx]? = some item →
      isolated settings item = false →
      (runWork gz float settings engine attempts (w, k)).result = .error e → HardFailure w.itemIdx k e

/-- The failures that are held, in the order in which they are noted. -/
def heldFailures : List (ℕ × ℕ × CoreError) :=
  ((decodeNotes 0 items).filter (fun note => !isolated settings note.2.1)).map
      (fun note => (note.1, 0, note.2.2)) ++
    (tasks settings items).flatMap (fun t =>
      ((noteOf items t.1 (runWork gz float settings engine attempts t).result).filter
        (fun note => !isolated settings note.2.1)).map (fun note => (note.1, t.2, note.2.2)))

lemma mem_noteOf {w : Work} {outcome : Except CoreError Unit} {i : ℕ} {item : SourceItem} {e : CoreError} :
    (i, item, e) ∈ noteOf items w outcome ↔
      i = w.itemIdx ∧ items[w.itemIdx]? = some item ∧ outcome = .error e := by
  unfold noteOf
  split
  · rename_i e' item' hitem
    simp only [List.mem_singleton, Prod.mk.injEq, hitem, Option.some.injEq, Except.error.injEq]
    exact and_congr_right (fun _ => and_congr eq_comm eq_comm)
  · rename_i hnone
    simp only [List.not_mem_nil, false_iff, not_and]
    intro _ hitem herr
    exact hnone e item herr hitem

lemma mem_heldFailures {i k : ℕ} {e : CoreError} :
    (i, k, e) ∈ heldFailures gz float settings engine attempts items ↔
      HardFailure gz float settings engine attempts items i k e := by
  unfold heldFailures
  rw [List.mem_append]
  constructor
  · rintro (h | h)
    · obtain ⟨⟨i', item, e'⟩, hmem, heq⟩ := List.mem_map.mp h
      simp only [Prod.mk.injEq] at heq
      obtain ⟨rfl, rfl, rfl⟩ := heq
      obtain ⟨hmem, hiso⟩ := List.mem_filter.mp hmem
      obtain ⟨n, message, hn, hget, hmessage, rfl⟩ := mem_decodeNotes.mp hmem
      rw [zero_add] at hn
      subst hn
      exact .decode hget hmessage (by simpa using hiso)
    · obtain ⟨⟨w, k'⟩, htask, h⟩ := List.mem_flatMap.mp h
      obtain ⟨⟨i', item, e'⟩, hmem, heq⟩ := List.mem_map.mp h
      simp only [Prod.mk.injEq] at heq
      obtain ⟨rfl, rfl, rfl⟩ := heq
      obtain ⟨hmem, hiso⟩ := List.mem_filter.mp hmem
      obtain ⟨rfl, hget, herr⟩ := (mem_noteOf items).mp hmem
      exact .object (List.mk_mem_zipIdx_iff_getElem?.mp htask) hget (by simpa using hiso) herr
  · intro h
    cases h with
    | decode hget hmessage hiso =>
      left
      refine List.mem_map.mpr ⟨_, List.mem_filter.mpr ⟨mem_decodeNotes.mpr
        ⟨i, _, (zero_add i).symm, hget, hmessage, rfl⟩, ?_⟩, rfl⟩
      simpa using hiso
    | object hwork hget hiso herr =>
      right
      refine List.mem_flatMap.mpr ⟨_, List.mk_mem_zipIdx_iff_getElem?.mpr hwork, ?_⟩
      refine List.mem_map.mpr ⟨_, List.mem_filter.mpr ⟨(mem_noteOf items).mpr ⟨rfl, hget, herr⟩, ?_⟩, rfl⟩
      simpa using hiso

lemma heldFailures_sorted :
    (heldFailures gz float settings engine attempts items).Pairwise (fun s t => s.2.1 ≤ t.2.1) := by
  unfold heldFailures
  rw [List.pairwise_append]
  refine ⟨?_, ?_, ?_⟩
  · rw [List.pairwise_map]
    exact List.pairwise_of_forall (fun _ _ => le_rfl)
  · rw [List.pairwise_flatMap]
    constructor
    · intro t _
      rw [List.pairwise_map]
      exact List.pairwise_of_forall (fun _ _ => le_rfl)
    · have hsorted : (tasks settings items).Pairwise (fun s t => s.2 < t.2) := by
        have hrange : (List.range' 0 (queuedFrom settings 0 items).length).Pairwise (· < ·) :=
          List.pairwise_lt_range' 1
        rw [← List.zipIdx_map_snd 0 (queuedFrom settings 0 items), List.pairwise_map] at hrange
        exact hrange
      refine hsorted.imp ?_
      intro s t hlt u hu v hv
      obtain ⟨_, -, rfl⟩ := List.mem_map.mp hu
      obtain ⟨_, -, rfl⟩ := List.mem_map.mp hv
      exact hlt.le
  · intro s hs t _
    obtain ⟨_, -, rfl⟩ := List.mem_map.mp hs
    exact Nat.zero_le _

lemma batchNotes_hardError :
    (Ledger.noteAll settings ⟨List.replicate items.length false, none⟩
        (batchNotes gz float settings engine attempts items)).hardError =
      (heldFailures gz float settings engine attempts items).foldl
        (fun slot t => noteHardError slot t.1 t.2.2) none := by
  rw [noteAll_hardError, batchNotes, heldFailures, List.filter_append, List.foldl_append, List.foldl_append,
    List.foldl_map, List.filter_flatMap, List.foldl_flatMap, List.foldl_flatMap]
  simp only [List.foldl_map]

/-- The messages that are reported: those whose failures were isolated, in the order of the
items. -/
def isolatedAckIds : List String :=
  (items.zipIdx.filter (fun p => (batchNotes gz float settings engine attempts items).any
    (fun note => note.1 == p.2 && isolated settings note.2.1))).filterMap (fun p => p.1.ackId)

/-- A completed batch fails with the least of its failures, and otherwise reports the messages
whose failures were isolated. -/
theorem Completed.result_cases {x : ObjectM BatchOutcome}
    (h : Completed gz float settings engine attempts items x) :
    (∃ e i k, x.result = .error e ∧ HardFailure gz float settings engine attempts items i k e ∧
      ∀ j l e', HardFailure gz float settings engine attempts items j l e' →
        toLex (i, k) ≤ toLex (j, l)) ∨
    x.result = .ok ⟨isolatedAckIds gz float settings engine attempts items⟩ ∧
      ∀ i k e, ¬HardFailure gz float settings engine attempts items i k e := by
  have hhard := batchNotes_hardError gz float settings engine attempts items
  rcases foldl_noteHardError (heldFailures gz float settings engine attempts items) with
    ⟨hnone, hnil⟩ | ⟨_, i, _, e, _, hsome, -, -, -⟩
  · right
    rw [hnone] at hhard
    refine ⟨by rw [h.result, settle_noteAll settings items _ hhard]; rfl, ?_⟩
    intro i k e hfail
    have hmem := (mem_heldFailures gz float settings engine attempts items).mpr hfail
    simp [hnil] at hmem
  · left
    obtain ⟨k, hmem, hleast⟩ :=
      foldl_noteHardError_least (heldFailures_sorted gz float settings engine attempts items) hsome
    rw [hsome] at hhard
    refine ⟨e, i, k, by rw [h.result, settle, hhard],
      (mem_heldFailures gz float settings engine attempts items).mp hmem, ?_⟩
    intro j l e' hfail
    exact hleast (j, l, e') ((mem_heldFailures gz float settings engine attempts items).mpr hfail)

section Triage
variable {settings} {settings' : Settings} (hfilter : settings'.keyFilter = settings.keyFilter)
  (hdestination : settings'.destination = settings.destination)
  (hisolate : settings'.behavior.partialBatchFailures = settings.behavior.partialBatchFailures)
include hfilter hdestination

lemma queueObjects_congr (itemIdx : ℕ) (objects : List ObjectRef) :
    queueObjects settings' itemIdx objects = queueObjects settings itemIdx objects := by
  induction objects with
  | nil => rfl
  | cons object rest ih =>
    unfold queueObjects selfTriggers destOf
    rw [ih, hfilter, hdestination]

lemma queuedFrom_congr (itemIdx : ℕ) (items : List SourceItem) :
    queuedFrom settings' itemIdx items = queuedFrom settings itemIdx items := by
  induction items generalizing itemIdx with
  | nil => rfl
  | cons item rest ih =>
    unfold queuedFrom queuedOf destOf
    rw [ih, hfilter, hdestination]

include hisolate

lemma triage_congr (ledger : Ledger) (itemIdx : ℕ) (items : List SourceItem) :
    triage settings' ledger itemIdx items = triage settings ledger itemIdx items := by
  induction items generalizing ledger itemIdx with
  | nil => rfl
  | cons item rest ih =>
    have hitem : triageItem settings' ledger itemIdx item = triageItem settings ledger itemIdx item := by
      unfold triageItem Ledger.note isolated
      rw [queueObjects_congr hfilter hdestination, hisolate]
    unfold triage
    simp only [hitem, ih]

/-- What pass 1 makes of a batch depends on the key filter, the destination and two policies. -/
lemma openBatch_congr (hconfig : settings'.behavior.onConfigError = settings.behavior.onConfigError)
    (decoded : Except String (List SourceItem)) :
    openBatch settings' engine decoded = openBatch settings engine decoded := by
  unfold openBatch
  simp only [triage_congr hfilter hdestination hisolate, hconfig]

end Triage

/-- The run of one object after the other is one of the runs of `handle`, up to the order of its
calls. -/
lemma handleSequential_eq {decoded : Except String (List SourceItem)} {x : ObjectM BatchOutcome} {n : ℕ}
    (h : Handles gz float (settings.withConcurrency n) engine decoded attempts x) :
    x.result = (handleSequential gz float settings engine decoded attempts).result ∧
      x.metrics = (handleSequential gz float settings engine decoded attempts).metrics ∧
      x.calls.Perm (handleSequential gz float settings engine decoded attempts).calls := by
  have hrun : runWork gz float (settings.withConcurrency n) engine attempts =
    runWork gz float settings engine attempts := rfl
  have hadjudicate : ∀ items work, adjudicate (settings.withConcurrency n) items work =
    adjudicate settings items work := fun _ _ => rfl
  have hopen : openBatch (settings.withConcurrency n) engine decoded = openBatch settings engine decoded := by
    apply openBatch_congr <;> rfl
  unfold Handles at h
  unfold handleSequential
  rw [hopen, hrun] at h
  cases hresult : (openBatch settings engine decoded).result with
  | error e =>
    simp only [hresult] at h
    rw [Effect.bind_of_error hresult, h]
    exact ⟨rfl, rfl, List.Perm.refl _⟩
  | ok opened =>
    obtain ⟨items, ledger, work⟩ := opened
    simp only [hresult, hadjudicate] at h
    obtain ⟨s, hruns, hdrained, rfl⟩ := h
    obtain ⟨hconsumer, hcalls, hmetrics⟩ := hruns.drained hdrained
    rw [Effect.bind_of_ok hresult]
    refine ⟨by rw [hconsumer], by rw [hmetrics], hcalls.append_left _⟩

/-- One object after the other completes every batch that is not refused before its first
object. -/
lemma handleSequential_completed (hgate : closedGate settings engine = false)
    (hself : NoSelfTrigger settings items) :
    Completed gz float settings engine attempts items
        (handleSequential gz float settings engine (.ok items) attempts) ∧
      (handleSequential gz float settings engine (.ok items) attempts).calls =
        (tasks settings items).flatMap (fun t => (runWork gz float settings engine attempts t).calls) := by
  rcases openBatch_cases settings engine (.ok items) with ⟨_, hdecoded, -⟩ | ⟨_, _, -, hclosed, -⟩ |
    ⟨items', hdecoded, -, hselves, -⟩ | ⟨items', hdecoded, -, -, hopen⟩
  · cases hdecoded
  · simp [hgate] at hclosed
  · cases hdecoded
    exact (hselves hself).elim
  · cases hdecoded
    have hseq := sequential_tasks gz float settings engine attempts items
    simp only [tasks] at hseq
    unfold handleSequential
    rw [hopen, Effect.ok_bind]
    simp only [hseq, List.nil_append]
    exact ⟨⟨rfl, List.Perm.refl _, rfl⟩, rfl⟩

/-- With room for one object every batch has an outcome. -/
lemma exists_handles (decoded : Except String (List SourceItem))
    (hroom : 1 ≤ settings.processing.objectConcurrency) :
    ∃ x, Handles gz float settings engine decoded attempts x := by
  simp only [Handles]
  cases (openBatch settings engine decoded).result with
  | error e => exact ⟨_, rfl⟩
  | ok opened =>
    obtain ⟨items, ledger, work⟩ := opened
    obtain ⟨s, hruns, hdrained⟩ := Executor.can_drain (runWork gz float settings engine attempts)
      (adjudicate settings items work) hroom (Executor.init work.zipIdx ⟨ledger, 0⟩)
    exact ⟨_, s, hruns, hdrained, rfl⟩

/-- The outcome of a batch does not depend on the concurrency. Whatever the concurrency and the
interleaving, a call of `handle` returns what the run of one object after the other returns, with
the same counters and the same calls, and no run of it gets stuck. A batch that is not refused
before its first object processes every queued object once and fails with the failure that has
the least item and place in the queue, or else reports the failed messages in the order of the
items. -/
theorem outcome_independent_of_concurrency (decoded : Except String (List SourceItem)) :
    let sequential := handleSequential gz float settings engine decoded attempts
    (∀ n x, Handles gz float (settings.withConcurrency n) engine decoded attempts x →
      x.result = sequential.result ∧ x.metrics = sequential.metrics ∧ x.calls.Perm sequential.calls) ∧
    (∀ n items ledger work s, 1 ≤ n → (openBatch settings engine decoded).result = .ok (items, ledger, work) →
      Executor.Runs (runWork gz float settings engine attempts) (adjudicate settings items work) n
        work.zipIdx ⟨ledger, 0⟩ s →
      ∃ s', Relation.ReflTransGen (Executor.Step (runWork gz float settings engine attempts)
        (adjudicate settings items work) n) s s' ∧ s'.Drained) ∧
    (∀ items, decoded = .ok items → closedGate settings engine = false → NoSelfTrigger settings items →
      sequential.calls = (tasks settings items).flatMap
        (fun t => (runWork gz float settings engine attempts t).calls) ∧
      ((∃ e i k, sequential.result = .error e ∧ HardFailure gz float settings engine attempts items i k e ∧
          ∀ j l e', HardFailure gz float settings engine attempts items j l e' →
            toLex (i, k) ≤ toLex (j, l)) ∨
        sequential.result = .ok ⟨isolatedAckIds gz float settings engine attempts items⟩ ∧
          ∀ i k e, ¬HardFailure gz float settings engine attempts items i k e)) := by
  intro sequential
  refine ⟨fun n x h => handleSequential_eq gz float settings engine attempts h, ?_, ?_⟩
  · intro n items ledger work s hn _ _
    exact Executor.can_drain _ _ hn s
  · rintro items rfl hgate hself
    obtain ⟨hcompleted, hcalls⟩ :=
      handleSequential_completed gz float settings engine attempts items hgate hself
    exact ⟨hcalls, hcompleted.result_cases⟩

end Outcome

section Samples

/-- A batch without acknowledgements: an item that does not decode, then an object of another
bucket and one that is the destination's own output. -/
def feedbackItems : List SourceItem :=
  [.undecodable none "expected value", .new none [sampleObject, ⟨"filtered", "out/b.json.gz", none⟩]]

/-- The destination writes under a prefix, and failures are not isolated. -/
def feedbackSettings : Settings :=
  { sampleSettings with
    destination := ⟨"filtered", "out/"⟩
    behavior := { sampleSettings.behavior with partialBatchFailures := false } }

/-- A batch that holds an object of the destination's own output is refused for it: the object
queued before it is not processed, and the failure of the first item is not the one returned. -/
theorem feedback_refuses_batch :
    let attempts := fun _ => sampleAttempt envelopeText
    (∃ x, Handles storedGzip (fun _ => none) feedbackSettings (some passEngine) (.ok feedbackItems) attempts x) ∧
    (∀ x, Handles storedGzip (fun _ => none) feedbackSettings (some passEngine) (.ok feedbackItems) attempts x →
      x.result = .error (.selfTrigger "filtered" "out/out/b.json.gz") ∧ x.calls = []) ∧
    (queuedFrom feedbackSettings 0 feedbackItems)[0]? =
      some ⟨1, sampleObject, ("filtered", "out/2024/01/01/a.json.gz")⟩ ∧
    HardFailure storedGzip (fun _ => none) feedbackSettings (some passEngine) attempts feedbackItems 0 0
      (.decode "expected value") := by
  intro attempts
  have hresult : (openBatch feedbackSettings (some passEngine) (.ok feedbackItems)).result.map (fun _ => ()) =
      .error (.selfTrigger "filtered" "out/out/b.json.gz") := by decide +kernel
  have hcalls : (openBatch feedbackSettings (some passEngine) (.ok feedbackItems)).calls = [] := by
    decide +kernel
  have herror : (openBatch feedbackSettings (some passEngine) (.ok feedbackItems)).result =
      .error (.selfTrigger "filtered" "out/out/b.json.gz") := by
    cases h : (openBatch feedbackSettings (some passEngine) (.ok feedbackItems)).result with
    | error e => simpa [h, Except.map] using hresult
    | ok opened => simp [h, Except.map] at hresult
  refine ⟨exists_handles _ _ _ _ _ _ le_rfl, ?_, by decide +kernel, .decode rfl rfl rfl⟩
  intro x h
  simp only [Handles, herror] at h
  rw [h]
  exact ⟨rfl, hcalls⟩

/-- Two messages, the second of which does not decode. -/
def sampleItems : List SourceItem :=
  [.new (some "m1") [sampleObject], .undecodable (some "m2") "expected value"]

/-- Two messages, the first of which names two objects and the second of which does not decode. -/
def pairItems : List SourceItem :=
  [.new (some "m1") [sampleObject, ⟨"trail", "2024/01/02/b.json.gz", none⟩], .undecodable (some "m2") "expected value"]

/-- The first object is not to be had. -/
def pairAttempts (k : ℕ) : Attempt :=
  { sampleAttempt envelopeText with fetch := if k = 0 then .failed "503" else .body (sampleBody envelopeText) }

/-- With both objects in flight the batch goes on to its end, and reports both messages. -/
theorem outcome_independent_of_concurrency_sample :
    (∃ x, Handles storedGzip (fun _ => none) (sampleSettings.withConcurrency 4) (some passEngine)
      (.ok pairItems) pairAttempts x ∧ x.result = .ok ⟨["m1", "m2"]⟩) ∧
    ∃ items ledger work s s', (openBatch sampleSettings (some passEngine) (.ok pairItems)).result =
        .ok (items, ledger, work) ∧
      Executor.Runs (runWork storedGzip (fun _ => none) sampleSettings (some passEngine) pairAttempts)
        (adjudicate sampleSettings items work) 4 work.zipIdx ⟨ledger, 0⟩ s ∧ s.inFlight.length = 2 ∧
      Relation.ReflTransGen (Executor.Step (runWork storedGzip (fun _ => none) sampleSettings (some passEngine)
        pairAttempts) (adjudicate sampleSettings items work) 4) s s' ∧ s'.Drained := by
  obtain ⟨houtcome, hdrains, -⟩ := outcome_independent_of_concurrency storedGzip (fun _ => none) sampleSettings
    (some passEngine) pairAttempts (.ok pairItems)
  constructor
  · obtain ⟨x, hx⟩ := exists_handles storedGzip (fun _ => none) (sampleSettings.withConcurrency 4)
      (some passEngine) pairAttempts (.ok pairItems) (by decide)
    exact ⟨x, hx, (houtcome 4 x hx).1.trans (by decide +kernel)⟩
  · have hlength : (openBatch sampleSettings (some passEngine) (.ok pairItems)).result.toOption.map
        (fun opened => opened.2.2.length) = some 2 := by decide +kernel
    cases hopen : (openBatch sampleSettings (some passEngine) (.ok pairItems)).result with
    | error e => simp [hopen] at hlength
    | ok opened =>
      obtain ⟨items, ledger, work⟩ := opened
      simp only [hopen, Fallible.toOption_ok, Option.map_some, Option.some.injEq] at hlength
      obtain ⟨first, second, rfl⟩ := List.length_eq_two.mp hlength
      have hflights : Executor.Runs (runWork storedGzip (fun _ => none) sampleSettings (some passEngine) pairAttempts)
          (adjudicate sampleSettings items [first, second]) 4 [(first, 0), (second, 1)] ⟨ledger, 0⟩
          ⟨[], [((first, 0), .running _), ((second, 1), .running _)], ⟨ledger, 0⟩, [], 0⟩ :=
        .tail (.single (.start (first, 0) [(second, 1)] [] _ [] 0 (by decide)))
          (.start (second, 1) [] [((first, 0), .running _)] _ [] 0 (Nat.succ_lt_succ (by decide)))
      obtain ⟨s', hdrain, hdrained⟩ := hdrains 4 items ledger [first, second] _ (by decide) hopen hflights
      exact ⟨items, ledger, [first, second], _, s', rfl, hflights, rfl, hdrain, hdrained⟩

end Samples

end Pipeline

end CloudTrailFilter
