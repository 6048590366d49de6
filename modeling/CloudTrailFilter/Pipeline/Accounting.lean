import CloudTrailFilter.Pipeline.Outcome
import CloudTrailFilter.Pipeline.Source

/-!
# The books of a batch

Every object of a batch is counted once as processed, skipped, failed or excluded, and the record
counters of every snapshot balance: each record that came in was kept or dropped by one rule.
-/

namespace CloudTrailFilter

namespace Metrics

/-- The objects a snapshot accounts for. -/
def accounted (m : Metrics) : ℕ :=
  m.objectsProcessed + m.objectsSkipped + m.objectsFailed + m.objectsExcludedByKey

lemma accounted_add (a b : Metrics) : (a + b).accounted = a.accounted + b.accounted := by
  change (a.objectsProcessed + b.objectsProcessed) + (a.objectsSkipped + b.objectsSkipped) +
    (a.objectsFailed + b.objectsFailed) + (a.objectsExcludedByKey + b.objectsExcludedByKey) =
    (a.objectsProcessed + a.objectsSkipped + a.objectsFailed + a.objectsExcludedByKey) +
    (b.objectsProcessed + b.objectsSkipped + b.objectsFailed + b.objectsExcludedByKey)
  omega

lemma accounted_sum (l : List Metrics) : l.sum.accounted = (l.map accounted).sum := by
  induction l with
  | nil => rfl
  | cons m l ih => rw [List.sum_cons, accounted_add, ih, List.map_cons, List.sum_cons]

lemma accounted_settled (m : Metrics) : m.accounted = m.settled.accounted := rfl

/-- The record counters balance: `records_in == records_kept + records_dropped` and
`sum(rule_drops) == records_dropped`. -/
def Balanced (m : Metrics) : Prop :=
  m.recordsIn = m.recordsKept + m.recordsDropped ∧ m.ruleDrops.card = m.recordsDropped

/-- Balanced counters stay balanced as they add up. -/
def balanced : AddSubmonoid Metrics where
  carrier := { m | m.Balanced }
  zero_mem' := ⟨rfl, rfl⟩
  add_mem' := by
    rintro a b ⟨ha, ha'⟩ ⟨hb, hb'⟩
    constructor
    · change a.recordsIn + b.recordsIn = a.recordsKept + b.recordsKept + (a.recordsDropped + b.recordsDropped)
      omega
    · change (a.ruleDrops + b.ruleDrops).card = a.recordsDropped + b.recordsDropped
      rw [Multiset.card_add, ha', hb']

/-- Counters that say nothing of records balance. -/
lemma balanced_of_recordCounters {m : Metrics} (h : m.recordCounters = (0 : Metrics).recordCounters) :
    m.Balanced := by
  simp only [recordCounters, Prod.mk.injEq] at h
  obtain ⟨hin, hkept, hdropped, -, hdrops⟩ := h
  refine ⟨by rw [hin, hkept, hdropped]; rfl, by rw [hdrops, hdropped]; rfl⟩

end Metrics

namespace Pipeline
open CloudTrailFilter.Json CloudTrailFilter.Filter CloudTrailFilter.Process

section Objects
variable (gz : Gzip) (float : FloatParser) (settings : Settings)

/-- A raw copy fails, skips a missing object, or copies. -/
lemma rawCopy_cases (attempt : Attempt) (source dest : Location) :
    (∃ bytes, CopyOf attempt none bytes ∧ rawCopy settings attempt source dest =
      ⟨.ok (), [.getStream source, .putStream dest (some bytes)],
        Metrics.addBytesIn bytes.length + Metrics.addBytesOut bytes.length + Metrics.addObjectsProcessed 1⟩) ∨
    (rawCopy settings attempt source dest =
      ⟨.ok (), [.getStream source], Metrics.addObjectsSkipped 1⟩) ∨
    ∃ e calls n, calls.filterMap StoreCall.landed = [] ∧
      rawCopy settings attempt source dest = ⟨.error (.store e), calls, Metrics.addBytesIn n⟩ := by
  unfold rawCopy
  rcases streamCopy_cases settings attempt source dest .count with
    ⟨bytes, hcopy, hrun⟩ | hrun | ⟨e, calls, n, hcalls, hrun⟩
  · rw [hrun]
    exact .inl ⟨bytes, hcopy, by simp [BytesInPolicy.bill, Effect.publish]⟩
  · rw [hrun]
    exact .inr (.inl (by simp))
  · rw [hrun]
    exact .inr (.inr ⟨e, calls, n, hcalls, by simp [BytesInPolicy.bill]⟩)

/-- A queued object is counted once: by its own run, or by pass 3 if that fails. -/
theorem processWork_accounted (engine : Option Engine) (attempt : Attempt) (w : Work) :
    ((processWork gz float settings engine attempt w).metrics +
      failedMetrics (processWork gz float settings engine attempt w).result).accounted = 1 := by
  rw [Metrics.accounted_add]
  cases engine with
  | none =>
    simp only [processWork]
    rcases rawCopy_cases settings attempt (w.object.bucket, w.object.key) w.dest with
      ⟨bytes, -, h⟩ | h | ⟨e, calls, n, -, h⟩ <;> rw [h] <;> rfl
  | some engine =>
    simp only [processWork]
    have hfiled : Filed engine w.dest _ (processObject gz float settings engine attempt w.object w.dest) :=
      processObject_filed w.object w.dest
    cases hfiled with
    | failed e hr _ hm => rw [Metrics.accounted_settled, hm, hr]; rfl
    | skipped hr _ hm => rw [Metrics.accounted_settled, hm, hr]; rfl
    | done out tally _ hr _ hm => rw [Metrics.accounted_settled, hm, hr]; rfl

end Objects

section Accounted
variable (gz : Gzip) (float : FloatParser) (settings : Settings)

/-- Pass 1 excludes an object or queues it. -/
lemma itemMetrics_accounted {item : SourceItem} (hitem : item.decodeError.isSome → item.objects = [])
    (itemIdx : ℕ) :
    (itemMetrics settings item).accounted + (queuedOf settings itemIdx item).length = item.objects.length := by
  unfold itemMetrics queuedOf
  cases hdecode : item.decodeError with
  | some message =>
    have hnone := hitem (by simp [hdecode])
    rw [hnone]
    rfl
  | none =>
    have hsplit : item.objects.length = _ :=
      List.length_eq_countP_add_countP (fun object => settings.keyFilter.allows object.key)
    have hempty : (if item.objects = [] then Metrics.addItemsWithoutObjects 1 else 0).accounted = 0 := by
      split_ifs <;> rfl
    have hexcluded : ∀ n, (Metrics.addObjectsExcludedByKey n).accounted = n := by
      intro n
      change 0 + 0 + 0 + n = n
      omega
    simp only [Metrics.accounted_add, hempty, hexcluded, Option.isSome_none, Bool.false_eq_true, if_false,
      List.length_map]
    rw [← List.countP_eq_length_filter]
    simp only [Bool.not_eq_true, Bool.decide_eq_false] at hsplit
    omega

lemma queuedFrom_accounted {items : List SourceItem}
    (hitems : ∀ item ∈ items, item.decodeError.isSome → item.objects = []) (itemIdx : ℕ) :
    (items.map (itemMetrics settings)).sum.accounted + (queuedFrom settings itemIdx items).length =
      (items.map (fun item => item.objects.length)).sum := by
  induction items generalizing itemIdx with
  | nil => rfl
  | cons item rest ih =>
    have hrest := ih (fun other hmem => hitems other (List.mem_cons_of_mem _ hmem)) (itemIdx + 1)
    have hfirst := itemMetrics_accounted settings (hitems item (by simp)) itemIdx
    simp only [List.map_cons, List.sum_cons, Metrics.accounted_add, queuedFrom, List.length_append]
    omega

/-- Every object is accounted for once. In every call of `handle` that is not ended by a decode
error of the payload, for want of a ruleset or by the self-trigger guard, the objects processed,
skipped, failed and excluded are together all objects of the items. -/
theorem every_object_accounted (engine : Option Engine) (attempts : ℕ → Attempt) {items : List SourceItem}
    (hitems : ∀ item ∈ items, item.decodeError.isSome → item.objects = []) {x : ObjectM BatchOutcome}
    (h : Handles gz float settings engine (.ok items) attempts x)
    (hconfig : ¬(engine = none ∧ settings.behavior.onConfigError = .closed))
    (hself : ∀ bucket key, x.result ≠ .error (.selfTrigger bucket key)) :
    x.metrics.objectsProcessed + x.metrics.objectsSkipped + x.metrics.objectsFailed +
        x.metrics.objectsExcludedByKey = (items.map (fun item => item.objects.length)).sum := by
  rcases handles_cases gz float settings engine attempts h with ⟨_, hdecoded, -⟩ |
    ⟨_, _, -, hgate, -⟩ | ⟨_, -, -, -, dest, rfl⟩ | ⟨items', hdecoded, -, -, hcompleted⟩
  · cases hdecoded
  · simp only [closedGate, decide_eq_true_eq, Option.isNone_iff_eq_none] at hgate
    exact (hconfig hgate).elim
  · exact (hself _ _ rfl).elim
  · cases hdecoded
    have hones : ((tasks settings items).map (fun t =>
        ((runWork gz float settings engine attempts t).metrics +
          failedMetrics (runWork gz float settings engine attempts t).result).accounted)).sum =
        (queuedFrom settings 0 items).length := by
      simp only [runWork, processWork_accounted]
      simp [tasks]
    change x.metrics.accounted = _
    rw [hcompleted.metrics, Metrics.accounted_add, Metrics.accounted_sum ((tasks settings items).map _), List.map_map]
    rw [← queuedFrom_accounted settings hitems 0, ← hones]
    rfl

theorem every_object_accounted_sample :
    ∃ x, Handles storedGzip (fun _ => none) sampleSettings (some passEngine) (.ok sampleItems)
        (fun _ => sampleAttempt envelopeText) x ∧
      x.metrics.objectsProcessed + x.metrics.objectsSkipped + x.metrics.objectsFailed +
        x.metrics.objectsExcludedByKey = 1 := by
  obtain ⟨x, hx⟩ := exists_handles storedGzip (fun _ => none) sampleSettings (some passEngine)
    (fun _ => sampleAttempt envelopeText) (.ok sampleItems) (by decide)
  have hresult : x.result = .ok ⟨["m2"]⟩ :=
    (handleSequential_eq (n := 1) storedGzip (fun _ => none) sampleSettings _ _ hx).1.trans (by decide +kernel)
  refine ⟨x, hx, ?_⟩
  exact every_object_accounted storedGzip (fun _ => none) sampleSettings (some passEngine) _
    (by simp [sampleItems, SourceItem.new, SourceItem.undecodable]) hx (by simp) (by simp [hresult])

end Accounted

section Balance
variable {gz : Gzip} {float : FloatParser} {settings : Settings}

/-- A tally that was counted by the record loop: every record was kept or dropped by a rule. -/
def Counted (tally : RecordTally) : Prop := tally.recordsIn = tally.kept + tally.ruleDrops.card

lemma Counted.commit {tally : RecordTally} (h : Counted tally) (engine : Engine) :
    (tally.commit engine).Balanced := by
  unfold Counted at h
  constructor
  · change tally.recordsIn = tally.kept + (tally.recordsIn - tally.kept)
    omega
  · change (tally.ruleDrops.map engine.ruleName).card = tally.recordsIn - tally.kept
    rw [Multiset.card_map]
    omega

lemma bufferRun_counted {engine : Engine} {cfg : Processing} {compressFails : Bool} {input : Bytes}
    {outcome : Outcome} {tally : RecordTally}
    (h : bufferRun gz float engine cfg compressFails input = .ok (outcome, tally)) :
    Counted tally := by
  obtain ⟨text, -, h⟩ := Fallible.bind_ok_iff.mp h
  split at h
  · split at h
    · cases h
      rfl
    · cases h
  · rename_i records _
    have hcounted : Counted (filterRecords float engine records).1 :=
      (filterRecords_tally records).balance
    simp only at h
    split_ifs at h
    · cases h
      exact hcounted
    · cases h
      exact hcounted

lemma streamRun_counted (engine : Engine) (cfg : Processing) (env : StreamEnv) (body : Body) :
    Counted (streamRun gz float engine cfg env body).tally := by
  have hmatch := filtering_matches gz float engine cfg.gzipLevel outputFlushThreshold
    (extraction gz float body.chunks (some body.ending)).records
  have hcounted : Counted (filtering gz float engine cfg.gzipLevel outputFlushThreshold
      (extraction gz float body.chunks (some body.ending)).records).tally := by
    rw [hmatch.tally]
    exact (filterRecords_tally _).balance
  rcases streamRunAt_cases gz float engine cfg outputFlushThreshold env body with
    ⟨-, -, -, h⟩ | ⟨-, -, h⟩ | ⟨-, h⟩ | ⟨_, -, h⟩ | ⟨_, h⟩ | ⟨_, h⟩ <;>
    rw [streamRun, h]
  · exact hcounted
  · exact hcounted
  all_goals rfl

/-- Whatever an attempt files goes with a counted tally. -/
lemma files_counted {engine : Engine} {attempt : Attempt} {mode : ObjectMode} {out : Option Bytes}
    {tally : RecordTally} (h : Files gz float settings engine attempt mode out tally) : Counted tally := by
  have hrun : ∀ result, decidingResult gz float settings engine attempt mode = some result →
      Counted (tallyOf (some result)) := by
    intro result hresult
    cases hok : result with
    | error e => rfl
    | ok r =>
      obtain ⟨outcome, tally'⟩ := r
      have hcounted : Counted tally' := by
        rw [hok] at hresult
        cases mode with
        | buffer =>
          simp only [decidingResult] at hresult
          split at hresult
          · exact bufferRun_counted (Option.some.inj hresult)
          · cases hresult
        | stream =>
          simp only [decidingResult] at hresult
          split at hresult
          · rw [← (decisionOf_ok_iff.mp (Option.some.inj hresult)).2]
            exact streamRun_counted _ _ _ _
          · cases hresult
      cases outcome with
      | written body => exact hcounted
      | nothingKept => exact hcounted
      | unrecognized => rfl
  have htally := (tallyOf_of_files h).1
  cases hresult : decidingResult gz float settings engine attempt mode with
  | none =>
    rw [hresult] at htally
    rw [← htally]
    rfl
  | some result =>
    rw [hresult] at htally
    rw [← htally]
    exact hrun result hresult

/-- The counters of an object balance, however its attempt ends. -/
lemma processWork_balanced (engine : Option Engine) (attempt : Attempt) (w : Work) :
    (processWork gz float settings engine attempt w).metrics.Balanced := by
  cases engine with
  | none =>
    simp only [processWork]
    rcases rawCopy_cases settings attempt (w.object.bucket, w.object.key) w.dest with
      ⟨bytes, -, h⟩ | h | ⟨e, calls, n, -, h⟩ <;> rw [h] <;>
      exact Metrics.balanced_of_recordCounters rfl
  | some engine =>
    simp only [processWork]
    have hfiled : Filed engine w.dest _ (processObject gz float settings engine attempt w.object w.dest) :=
      processObject_filed w.object w.dest
    cases hfiled with
    | failed e _ _ hm =>
      apply Metrics.balanced_of_recordCounters
      rw [recordCounters_settled, hm]
    | skipped _ _ hm =>
      apply Metrics.balanced_of_recordCounters
      rw [recordCounters_settled, hm]
      rfl
    | done out tally hfiles _ _ hm =>
      have hcommit := (files_counted hfiles).commit engine
      have hsame : (processObject gz float settings engine attempt w.object w.dest).metrics.recordCounters =
          (tally.commit engine).recordCounters := by
        rw [recordCounters_settled, hm, recordCounters_filed]
      simp only [Metrics.recordCounters, Prod.mk.injEq] at hsame
      obtain ⟨hin, hkept, hdropped, -, hdrops⟩ := hsame
      unfold Metrics.Balanced
      rw [hin, hkept, hdropped, hdrops]
      exact hcommit

lemma queueObjects_balanced (itemIdx : ℕ) (objects : List ObjectRef) :
    (queueObjects settings itemIdx objects).metrics ∈ Metrics.balanced := by
  induction objects with
  | nil => exact Metrics.balanced.zero_mem
  | cons object rest ih =>
    unfold queueObjects
    split_ifs
    · exact Effect.bind_metrics_mem _ ⟨rfl, rfl⟩ (fun _ => ⟨rfl, rfl⟩)
    · exact Effect.bind_metrics_mem _ ih (fun _ => ⟨rfl, rfl⟩)
    · exact Effect.bind_metrics_mem _ ⟨rfl, rfl⟩ (fun _ => ih)

lemma triage_balanced (ledger : Ledger) (itemIdx : ℕ) (items : List SourceItem) :
    (triage settings ledger itemIdx items).metrics ∈ Metrics.balanced := by
  induction items generalizing ledger itemIdx with
  | nil => exact Metrics.balanced.zero_mem
  | cons item rest ih =>
    have hitem : (triageItem settings ledger itemIdx item).metrics ∈ Metrics.balanced := by
      unfold triageItem
      split
      · exact Effect.bind_metrics_mem _ ⟨rfl, rfl⟩ (fun _ => ⟨rfl, rfl⟩)
      · refine Effect.bind_metrics_mem _ ?_ (fun _ => ?_)
        · simp only [Effect.publish]
          split_ifs <;> exact ⟨rfl, rfl⟩
        · exact Effect.bind_metrics_mem _ (queueObjects_balanced _ _) (fun _ => ⟨rfl, rfl⟩)
    unfold triage
    refine Effect.bind_metrics_mem _ hitem (fun opened => ?_)
    exact Effect.bind_metrics_mem _ (ih opened.1 (itemIdx + 1)) (fun _ => ⟨rfl, rfl⟩)

lemma openBatch_balanced (engine : Option Engine) (decoded : Except String (List SourceItem)) :
    (openBatch settings engine decoded).metrics ∈ Metrics.balanced := by
  unfold openBatch
  split
  · exact Effect.bind_metrics_mem _ ⟨rfl, rfl⟩ (fun _ => ⟨rfl, rfl⟩)
  · split_ifs
    · exact ⟨rfl, rfl⟩
    · exact Effect.bind_metrics_mem _ (triage_balanced _ _ _) (fun _ => ⟨rfl, rfl⟩)

/-- What one call of `handle` publishes balances. -/
theorem handles_balanced {engine : Option Engine} {decoded : Except String (List SourceItem)}
    {attempts : ℕ → Attempt} {x : ObjectM BatchOutcome}
    (h : Handles gz float settings engine decoded attempts x) : x.metrics ∈ Metrics.balanced := by
  have hsame := handleSequential_eq (n := settings.processing.objectConcurrency) gz float settings engine
    attempts h
  rw [hsame.2.1]
  unfold handleSequential
  refine Effect.bind_metrics_mem _ (openBatch_balanced engine decoded) (fun opened => ?_)
  apply Executor.sequential_metrics_mem
  · intro t
    exact processWork_balanced engine (attempts t.2) t.1
  · intro st outcome
    unfold adjudicate
    split
    · exact ⟨rfl, rfl⟩
    · split <;> exact ⟨rfl, rfl⟩

/-- The snapshots that calls of `handle` emit one after the other, from the counters before the
first: each takes all counters and leaves them at zero. -/
def emitted (counters : Metrics) : List (ObjectM BatchOutcome) → List Metrics
  | [] => []
  | x :: rest => (counters + x.metrics) :: emitted 0 rest

lemma emitted_mem (S : AddSubmonoid Metrics) {calls : List (ObjectM BatchOutcome)}
    (hcalls : ∀ x ∈ calls, x.metrics ∈ S) {counters : Metrics} (hcounters : counters ∈ S) :
    ∀ snapshot ∈ emitted counters calls, snapshot ∈ S := by
  induction calls generalizing counters with
  | nil => simp [emitted]
  | cons x rest ih =>
    intro snapshot hmem
    rcases List.mem_cons.mp hmem with rfl | hmem
    · exact S.add_mem hcounters (hcalls x (by simp))
    · exact ih (fun y hy => hcalls y (List.mem_cons_of_mem _ hy)) S.zero_mem snapshot hmem

/-- The reconciliation invariants. Every snapshot of every sequence of calls of `handle`, each
under its own settings, ruleset, payload and failures, balances; and the subtraction of a commit
never underflows, since no tally that either mode hands over keeps more records than came in. -/
theorem snapshots_balance (gz : Gzip) (float : FloatParser) {calls : List (ObjectM BatchOutcome)}
    (hcalls : ∀ x ∈ calls, ∃ settings engine decoded attempts,
      Handles gz float settings engine decoded attempts x) :
    (∀ snapshot ∈ emitted 0 calls, snapshot.recordsIn = snapshot.recordsKept + snapshot.recordsDropped ∧
      snapshot.ruleDrops.card = snapshot.recordsDropped) ∧
    (∀ engine cfg compressFails input outcome tally,
      bufferRun gz float engine cfg compressFails input = .ok (outcome, tally) → tally.kept ≤ tally.recordsIn) ∧
    ∀ engine cfg env body, (streamRun gz float engine cfg env body).tally.kept ≤
      (streamRun gz float engine cfg env body).tally.recordsIn := by
  refine ⟨?_, ?_, ?_⟩
  · refine emitted_mem Metrics.balanced (fun x hx => ?_) Metrics.balanced.zero_mem
    obtain ⟨settings, engine, decoded, attempts, h⟩ := hcalls x hx
    exact handles_balanced h
  · intro engine cfg compressFails input outcome tally h
    have hcounted : tally.recordsIn = tally.kept + tally.ruleDrops.card := bufferRun_counted h
    omega
  · intro engine cfg env body
    have hcounted : (streamRun gz float engine cfg env body).tally.recordsIn =
      (streamRun gz float engine cfg env body).tally.kept +
        (streamRun gz float engine cfg env body).tally.ruleDrops.card := streamRun_counted engine cfg env body
    omega

theorem snapshots_balance_sample :
    ∃ x, x.metrics.recordsIn = 2 ∧ (∀ snapshot ∈ emitted 0 [x, x],
      snapshot.recordsIn = snapshot.recordsKept + snapshot.recordsDropped ∧
        snapshot.ruleDrops.card = snapshot.recordsDropped) := by
  obtain ⟨x, hx⟩ := exists_handles storedGzip (fun _ => none) sampleSettings (some dropEngine)
    (fun _ => sampleAttempt envelopeText) (.ok sampleItems) (by decide)
  have hin := (handleSequential_eq (n := 1) storedGzip (fun _ => none) sampleSettings _ _ hx).2.1
  refine ⟨x, by rw [hin]; decide +kernel, ?_⟩
  refine (snapshots_balance storedGzip (fun _ => none) (fun y hy => ?_)).1
  simp only [List.mem_cons, List.not_mem_nil, or_false, or_self] at hy
  exact ⟨_, _, _, _, hy ▸ hx⟩

end Balance

end Pipeline

end CloudTrailFilter
