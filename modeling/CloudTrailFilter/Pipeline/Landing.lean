import CloudTrailFilter.Lib.Contents
import CloudTrailFilter.Lib.Interleaving
import CloudTrailFilter.Pipeline.Destination

/-!
# The order in which writes land

The results of a batch are adjudicated in the order of submission, but the objects in flight write in
the order in which they get there. Where two objects share a destination the one that lands last
wins, and with other bodies the destination depends on the concurrency and on the interleaving.
-/

namespace CloudTrailFilter.Pipeline
open CloudTrailFilter.Json CloudTrailFilter.Filter CloudTrailFilter.Process

section Writers
variable (gz : Gzip) (float : FloatParser) (settings : Settings) (engine : Option Engine) (sources : Location → Option Bytes)

/-- No object less than `n` places before the last writer of its destination writes another body
there. -/
def LastWriterSettled (n : ℕ) (queue : List Work) : Prop :=
  ∀ j k w w' dest body body', queue[j]? = some w → queue[k]? = some w' → j < k → k < j + n →
    writeOf gz float settings engine sources w = some (dest, body) →
    writeOf gz float settings engine sources w' = some (dest, body') →
    (∀ l w'', k < l → queue[l]? = some w'' → ∀ other, writeOf gz float settings engine sources w'' ≠ some (dest, other)) →
    body = body'

/-- Every call of the attempts at a queue succeeds, on sources that do not change. -/
def Succeeds (queue : List Work) (attempts : ℕ → Attempt) : Prop :=
  ∀ t ∈ queue.zipIdx, (attempts t.2).FailureFree (sources (t.1.object.bucket, t.1.object.key))

variable {gz float settings engine sources}

/-- What a task lands when all its calls succeed. -/
lemma landed_runWork (hgz : gz.Lawful) {queue : List Work} {attempts : ℕ → Attempt}
    (h : Succeeds sources queue attempts) {t : Work × ℕ} (ht : t ∈ queue.zipIdx) :
    (runWork gz float settings engine attempts t).calls.filterMap StoreCall.landed =
      (writeOf gz float settings engine sources t.1).toList :=
  processWork_failureFree float settings hgz engine t.1 (h t ht)

lemma flatMap_landed (hgz : gz.Lawful) {queue : List Work} {attempts : ℕ → Attempt}
    (h : Succeeds sources queue attempts) {ts : List (Work × ℕ)} (hts : ∀ t ∈ ts, t ∈ queue.zipIdx) :
    (ts.flatMap (fun t => (runWork gz float settings engine attempts t).calls)).filterMap StoreCall.landed =
      (ts.map Prod.fst).filterMap (writeOf gz float settings engine sources) := by
  induction ts with
  | nil => rfl
  | cons t ts ih =>
    have hrest := ih (fun t' ht' => hts t' (List.mem_cons_of_mem _ ht'))
    rw [List.flatMap_cons, List.filterMap_append, landed_runWork hgz h (hts t (by simp)), hrest, List.map_cons,
      List.filterMap_cons]
    cases writeOf gz float settings engine sources t.1 <;> simp

/-- The calls of a run, each with the place of its object in the queue. -/
lemma exists_tagged {σ : Type} {consume : σ → Except CoreError Unit → σ × Metrics} {n : ℕ} {queue : List Work}
    {attempts : ℕ → Attempt} {consumer : σ} {s : Executor (Work × ℕ) StoreCall Metrics CoreError Unit σ}
    (hruns : Executor.Runs (runWork gz float settings engine attempts) consume n queue.zipIdx consumer s)
    (hdrained : s.Drained) :
    ∃ tagged : List (ℕ × StoreCall), tagged.map Prod.snd = s.calls ∧
      (∀ k c, (k, c) ∈ tagged ↔ ∃ w, queue[k]? = some w ∧
        c ∈ (runWork gz float settings engine attempts (w, k)).calls) ∧
      tagged.Pairwise (fun a b => a.1 < b.1 + n) := by
  let run := runWork gz float settings engine attempts
  let run' : Work × ℕ → Effect (ℕ × StoreCall) Metrics CoreError Unit :=
    fun t => ⟨(run t).result, (run t).calls.map (t.2, ·), (run t).metrics⟩
  have hrun : ∀ t, run t = (run' t).mapCalls Prod.snd := by
    intro t
    simp [run', Effect.mapCalls]
  obtain ⟨s', hruns', hs⟩ := hruns.lift hrun
  have hdrained' : s'.Drained := by
    rw [← hs] at hdrained
    exact ⟨hdrained.1, List.map_eq_nil_iff.mp hdrained.2⟩
  obtain ⟨-, hperm, -⟩ := hruns'.drained hdrained'
  rw [Executor.sequential_calls] at hperm
  refine ⟨s'.calls, by rw [← hs]; rfl, ?_, ?_⟩
  · intro k c
    rw [hperm.mem_iff, List.mem_flatMap]
    constructor
    · rintro ⟨⟨w, k'⟩, ht, hc⟩
      obtain ⟨c', hc', heq⟩ := List.mem_map.mp hc
      cases heq
      exact ⟨w, List.mk_mem_zipIdx_iff_getElem?.mp ht, hc'⟩
    · rintro ⟨w, hw, hc⟩
      exact ⟨(w, k), List.mk_mem_zipIdx_iff_getElem?.mpr hw, List.mem_map.mpr ⟨c, hc, rfl⟩⟩
  · refine hruns'.window Prod.snd Prod.fst ?_ ?_
    · intro t c hc
      obtain ⟨c', -, rfl⟩ := List.mem_map.mp hc
      rfl
    · simp [List.zipIdx_map_snd]

/-- The calls of a run: one that lands is one of a writer of the queue, and every writer has one. -/
lemma exists_landings (hgz : gz.Lawful) {σ : Type} {consume : σ → Except CoreError Unit → σ × Metrics} {n : ℕ}
    {queue : List Work} {attempts : ℕ → Attempt} (h : Succeeds sources queue attempts) {consumer : σ}
    {s : Executor (Work × ℕ) StoreCall Metrics CoreError Unit σ}
    (hruns : Executor.Runs (runWork gz float settings engine attempts) consume n queue.zipIdx consumer s)
    (hdrained : s.Drained) :
    ∃ tagged : List (ℕ × StoreCall), tagged.map Prod.snd = s.calls ∧
      (∀ k dest body, (∃ c, (k, c) ∈ tagged ∧ c.landed = some (dest, body)) ↔
        ∃ w, queue[k]? = some w ∧ writeOf gz float settings engine sources w = some (dest, body)) ∧
      tagged.Pairwise (fun a b => a.1 < b.1 + n) := by
  obtain ⟨tagged, hcalls, hmem, hwindow⟩ := exists_tagged hruns hdrained
  refine ⟨tagged, hcalls, ?_, hwindow⟩
  intro k dest body
  have hlands : ∀ w, queue[k]? = some w →
      ((∃ c ∈ (runWork gz float settings engine attempts (w, k)).calls, c.landed = some (dest, body)) ↔
        writeOf gz float settings engine sources w = some (dest, body)) := by
    intro w hw
    have hlanded : (runWork gz float settings engine attempts (w, k)).calls.filterMap StoreCall.landed =
        (writeOf gz float settings engine sources w).toList :=
      landed_runWork hgz h (List.mk_mem_zipIdx_iff_getElem?.mpr hw)
    rw [← List.mem_filterMap, hlanded, Option.mem_toList]
  constructor
  · rintro ⟨c, hc, hl⟩
    obtain ⟨w, hw, hcall⟩ := (hmem k c).mp hc
    exact ⟨w, hw, (hlands w hw).mp ⟨c, hcall, hl⟩⟩
  · rintro ⟨w, hw, hwrite⟩
    obtain ⟨c, hcall, hl⟩ := (hlands w hw).mpr hwrite
    exact ⟨c, (hmem k c).mpr ⟨w, hw, hcall⟩, hl⟩

/-- Where the last writers are settled within the concurrency, the last write to land at a
destination is that of its last writer in the queue. -/
lemma lastWrite_of_settled (hgz : gz.Lawful) {σ : Type} {consume : σ → Except CoreError Unit → σ × Metrics} {n : ℕ}
    {queue : List Work} (hsettled : LastWriterSettled gz float settings engine sources n queue)
    {attempts : ℕ → Attempt} (h : Succeeds sources queue attempts) {consumer : σ}
    {s : Executor (Work × ℕ) StoreCall Metrics CoreError Unit σ}
    (hruns : Executor.Runs (runWork gz float settings engine attempts) consume n queue.zipIdx consumer s)
    (hdrained : s.Drained) (dest : Location) :
    Contents.lastWrite dest (s.calls.filterMap StoreCall.landed) =
      Contents.lastWrite dest (queue.filterMap (writeOf gz float settings engine sources)) := by
  obtain ⟨tagged, hcalls, hwriter, hwindow⟩ := exists_landings hgz h hruns hdrained
  rw [← hcalls, List.filterMap_map]
  cases hqueue : Contents.lastWrite dest (queue.filterMap (writeOf gz float settings engine sources)) with
  | none =>
    cases hlast : Contents.lastWrite dest (tagged.filterMap (StoreCall.landed ∘ Prod.snd)) with
    | none => rfl
    | some body =>
      obtain ⟨_, ⟨j, c⟩, _, rfl, hc, -⟩ := Contents.lastWrite_filterMap.mp hlast
      obtain ⟨w, hw, hwrite⟩ := (hwriter j dest body).mp ⟨c, by simp, hc⟩
      have hmem : (dest, body) ∈ queue.filterMap (writeOf gz float settings engine sources) :=
        List.mem_filterMap.mpr ⟨w, List.mem_of_getElem? hw, hwrite⟩
      exact (Contents.lastWrite_eq_none_iff.mp hqueue _ hmem rfl).elim
  | some body' =>
    obtain ⟨k, w', hk, hw', hlater⟩ := Contents.lastWrite_filterMap_getElem.mp hqueue
    obtain ⟨c', hc', hl'⟩ := (hwriter k dest body').mpr ⟨w', hk, hw'⟩
    cases hlast : Contents.lastWrite dest (tagged.filterMap (StoreCall.landed ∘ Prod.snd)) with
    | none =>
      have hmem : (dest, body') ∈ tagged.filterMap (StoreCall.landed ∘ Prod.snd) :=
        List.mem_filterMap.mpr ⟨_, hc', hl'⟩
      exact (Contents.lastWrite_eq_none_iff.mp hlast _ hmem rfl).elim
    | some body =>
      obtain ⟨t₁, ⟨j, c⟩, t₂, rfl, hc, hnone⟩ := Contents.lastWrite_filterMap.mp hlast
      obtain ⟨w, hw, hwrite⟩ := (hwriter j dest body).mp ⟨c, by simp, hc⟩
      refine congrArg some ?_
      rcases lt_trichotomy j k with hlt | heq | hgt
      · have hfar : k < j + n := by
          rcases List.mem_append.mp hc' with hc' | hc'
          · exact (List.pairwise_append.mp hwindow).2.2 _ hc' (j, c) (by simp)
          · rcases List.mem_cons.mp hc' with heq | hc'
            · cases heq
              exact (lt_irrefl _ hlt).elim
            · exact (hnone _ hc' body' hl').elim
        exact hsettled j k w w' dest body body' hw hk hlt hfar hwrite hw' hlater
      · subst heq
        rw [hk] at hw
        cases hw
        rw [hw'] at hwrite
        cases hwrite
        rfl
      · exact (hlater j w hgt hw body hwrite).elim

/-- An object less than `n` places before another can write after it. -/
lemma exists_held_back (hgz : gz.Lawful) {σ : Type} (consume : σ → Except CoreError Unit → σ × Metrics) {n : ℕ}
    {queue : List Work} {attempts : ℕ → Attempt} (h : Succeeds sources queue attempts) (consumer : σ) {j k : ℕ}
    {w : Work} (hw : queue[j]? = some w) (hjk : j < k) (hk : k < queue.length) (hnear : k < j + n)
    {dest : Location} {body : Bytes} (hwrite : writeOf gz float settings engine sources w = some (dest, body))
    (hlater : ∀ l w', k < l → queue[l]? = some w' → ∀ other,
      writeOf gz float settings engine sources w' ≠ some (dest, other)) :
    ∃ s, Executor.Runs (runWork gz float settings engine attempts) consume n queue.zipIdx consumer s ∧ s.Drained ∧
      Contents.lastWrite dest (s.calls.filterMap StoreCall.landed) = some body := by
  -- the objects before it, those that overtake it, and those after
  obtain ⟨front, block, rest, hqueue, hfront, hblock⟩ : ∃ front block rest,
      queue = front ++ w :: (block ++ rest) ∧ front.length = j ∧ block.length = k - j := by
    obtain ⟨hj, hget⟩ := List.getElem?_eq_some_iff.mp hw
    refine ⟨queue.take j, (queue.drop (j + 1)).take (k - j), (queue.drop (j + 1)).drop (k - j), ?_, ?_, ?_⟩
    · rw [List.take_append_drop, ← hget, List.getElem_cons_drop, List.take_append_drop]
    · simp only [List.length_take]
      omega
    · simp only [List.length_take, List.length_drop]
      omega
  have htasks : queue.zipIdx = front.zipIdx ++
      (w, j) :: (block.zipIdx (j + 1) ++ rest.zipIdx (j + 1 + block.length)) := by
    rw [hqueue, List.zipIdx_append, List.zipIdx_cons, List.zipIdx_append, hfront, Nat.zero_add]
  have hroom : (block.zipIdx (j + 1)).length < n := by
    rw [List.length_zipIdx, hblock]
    omega
  obtain ⟨s, hruns, hdrained, hcalls⟩ := Executor.exists_delayed_run
    (runWork gz float settings engine attempts) consume htasks hroom consumer
  refine ⟨s, hruns, hdrained, ?_⟩
  rw [hcalls, flatMap_landed hgz h]
  · have hworks : (front.zipIdx ++ block.zipIdx (j + 1) ++ (w, j) :: rest.zipIdx (j + 1 + block.length)).map Prod.fst =
        front ++ block ++ w :: rest := by
      simp [List.zipIdx_map_fst]
    rw [hworks, Contents.lastWrite_filterMap]
    refine ⟨front ++ block, w, rest, rfl, hwrite, ?_⟩
    intro w' hw' other
    obtain ⟨i, hi⟩ := List.mem_iff_getElem?.mp hw'
    refine hlater (k + 1 + i) w' (by omega) ?_ other
    rw [hqueue, List.getElem?_append_right (by omega), show k + 1 + i - front.length = (k - j + i) + 1 by omega,
      List.getElem?_cons_succ, List.getElem?_append_right (by omega), show k - j + i - block.length = i by omega]
    exact hi
  · intro t ht
    rw [htasks]
    simp only [List.mem_append, List.mem_cons] at ht ⊢
    tauto

end Writers

section Batch
variable {gz : Gzip} {float : FloatParser} {settings : Settings} {engine : Option Engine} {sources : Location → Option Bytes}

/-- What a call of `handle` does with the objects it queues. -/
lemma handles_withConcurrency {n : ℕ} {decoded : Except String (List SourceItem)} {attempts : ℕ → Attempt}
    {x : ObjectM BatchOutcome} :
    Handles gz float (settings.withConcurrency n) engine decoded attempts x ↔
      (∃ e m, openBatch settings engine decoded = ⟨.error e, [], m⟩ ∧ x = ⟨.error e, [], m⟩) ∨
      ∃ items ledger m s, openBatch settings engine decoded =
          ⟨.ok (items, ledger, queueOf settings engine decoded), [], m⟩ ∧
        Executor.Runs (runWork gz float settings engine attempts)
          (adjudicate settings items (queueOf settings engine decoded)) n
          (queueOf settings engine decoded).zipIdx ⟨ledger, 0⟩ s ∧ s.Drained ∧
        x = ⟨settle items s.consumer.ledger, s.calls, m + s.metrics⟩ := by
  have hopen : openBatch (settings.withConcurrency n) engine decoded = openBatch settings engine decoded := by
    apply openBatch_congr <;> rfl
  have hrun : runWork gz float (settings.withConcurrency n) engine attempts =
    runWork gz float settings engine attempts := rfl
  have hadjudicate : ∀ items work, adjudicate (settings.withConcurrency n) items work =
    adjudicate settings items work := fun _ _ => rfl
  have hlimit : (settings.withConcurrency n).processing.objectConcurrency = n := rfl
  unfold Handles
  rw [hopen, hrun, hlimit]
  rcases openBatch_cases settings engine decoded with ⟨_, -, hcase⟩ | ⟨_, _, -, -, hcase⟩ |
    ⟨_, -, -, -, _, _, hcase⟩ | ⟨items, -, -, -, hcase⟩
  · simp [hcase]
  · simp [hcase]
  · simp [hcase]
  · simp [hcase, queueOf_opened hcase, hadjudicate]

/-- The last write to land at a destination, in a call of `handle`. -/
lemma lastWrite_handles (hgz : gz.Lawful) {n : ℕ} {decoded : Except String (List SourceItem)} {attempts : ℕ → Attempt}
    {x : ObjectM BatchOutcome} (hx : Handles gz float (settings.withConcurrency n) engine decoded attempts x)
    (h : Succeeds sources (queueOf settings engine decoded) attempts)
    (hsettled : LastWriterSettled gz float settings engine sources n (queueOf settings engine decoded))
    (dest : Location) :
    Contents.lastWrite dest (landed x) =
      Contents.lastWrite dest ((queueOf settings engine decoded).filterMap (writeOf gz float settings engine sources)) := by
  rcases handles_withConcurrency.mp hx with ⟨e, m, hopen, rfl⟩ | ⟨items, ledger, m, s, -, hruns, hdrained, rfl⟩
  · rw [queueOf_refused hopen]
    rfl
  · exact lastWrite_of_settled hgz hsettled h hruns hdrained dest

/-- One object at a time is always settled. -/
lemma lastWriterSettled_one (queue : List Work) : LastWriterSettled gz float settings engine sources 1 queue := by
  intro j k w w' dest body body' _ _ hlt hnear
  omega

lemma LastWriterSettled.mono {n m : ℕ} (hnm : n ≤ m) {queue : List Work}
    (h : LastWriterSettled gz float settings engine sources m queue) :
    LastWriterSettled gz float settings engine sources n queue := by
  intro j k w w' dest body body' hw hw' hlt hnear
  exact h j k w w' dest body body' hw hw' hlt (by omega)

/-- An attempt in which nothing fails. -/
def wholeAttempt (source : Option Bytes) : Attempt :=
  let answer := source.elim .notFound (fun bytes => .body ⟨[bytes].filter (· ≠ []), by simp, .eof⟩)
  { fetch := answer
    read := answer
    reread := answer
    put := none
    copyUpload := none
    brokenCopy := .backend "reset"
    copyRead := 0
    compressFails := false
    stream := .good 0 }

lemma wholeAttempt_failureFree (source : Option Bytes) : (wholeAttempt source).FailureFree source := by
  have hgives : GetAnswer.Gives source (wholeAttempt source).fetch := by
    cases source with
    | none => rfl
    | some bytes =>
      refine ⟨_, rfl, rfl, ?_⟩
      by_cases h : bytes = [] <;> simp [Body.bytes, h]
  exact ⟨hgives, hgives, hgives, rfl, rfl, rfl, rfl, rfl, rfl⟩

/-- The attempts at a queue in which nothing fails. -/
def wholeAttempts (sources : Location → Option Bytes) (queue : List Work) (k : ℕ) : Attempt :=
  wholeAttempt ((queue[k]?).elim none (fun w => sources (w.object.bucket, w.object.key)))

lemma wholeAttempts_succeeds (sources : Location → Option Bytes) (queue : List Work) :
    Succeeds sources queue (wholeAttempts sources queue) := by
  rintro ⟨w, k⟩ ht
  unfold wholeAttempts
  rw [List.mk_mem_zipIdx_iff_getElem?.mp ht]
  exact wholeAttempt_failureFree _

/-- Two objects that are not settled race: one object at a time and `n` at a time can leave different
bodies at their destination. -/
lemma exists_race (hgz : gz.Lawful) {n : ℕ} {decoded : Except String (List SourceItem)}
    (hrace : ¬LastWriterSettled gz float settings engine sources n (queueOf settings engine decoded))
    (before : Contents Location Bytes) :
    ∃ x x', Handles gz float (settings.withConcurrency 1) engine decoded
        (wholeAttempts sources (queueOf settings engine decoded)) x ∧
      Handles gz float (settings.withConcurrency n) engine decoded
        (wholeAttempts sources (queueOf settings engine decoded)) x' ∧
      before.after (landed x) ≠ before.after (landed x') := by
  have hsucceeds := wholeAttempts_succeeds sources (queueOf settings engine decoded)
  unfold LastWriterSettled at hrace
  push Not at hrace
  obtain ⟨j, k, w, w', dest, body, body', hw, hw', hjk, hnear, hwrite, hwrite', hlater, hne⟩ := hrace
  obtain ⟨x, hx⟩ := exists_handles gz float (settings.withConcurrency 1) engine
    (wholeAttempts sources (queueOf settings engine decoded)) decoded le_rfl
  have hlast := lastWrite_handles hgz hx hsucceeds (lastWriterSettled_one _) dest
  have hqueue := Contents.lastWrite_filterMap_getElem.mpr ⟨k, w', hw', hwrite', hlater⟩
  obtain ⟨hk, -⟩ := List.getElem?_eq_some_iff.mp hw'
  rcases handles_withConcurrency.mp hx with ⟨e, m, hopen, -⟩ | ⟨items, ledger, m, s, hopen, -, -, -⟩
  · rw [queueOf_refused hopen] at hw
    cases hw
  · obtain ⟨s', hruns', hdrained', hlast'⟩ := exists_held_back hgz
      (adjudicate settings items (queueOf settings engine decoded)) hsucceeds ⟨ledger, 0⟩ hw hjk hk hnear hwrite hlater
    refine ⟨x, _, hx, handles_withConcurrency.mpr (.inr ⟨items, ledger, m, s', hopen, hruns', hdrained', rfl⟩), ?_⟩
    intro hsame
    have hdest := congrFun hsame dest
    rw [Contents.after_apply, Contents.after_apply, hlast, hqueue] at hdest
    rw [show landed _ = s'.calls.filterMap StoreCall.landed from rfl, hlast'] at hdest
    simp only [Option.some_or, Option.some.injEq] at hdest
    exact hne hdest.symm

/-- When the destination does not depend on the concurrency. With unchanged sources and a store in
which every call succeeds, all runs of a batch at every concurrency from 1 to 64 leave the same
contents exactly if every object less than 64 places before the last writer of its destination writes
what that one writes. -/
theorem destination_independent_of_concurrency_iff (hgz : gz.Lawful) (float : FloatParser) (settings : Settings)
    (engine : Option Engine) (decoded : Except String (List SourceItem)) (sources : Location → Option Bytes)
    (before : Contents Location Bytes) :
    (∀ n n' attempts attempts' x x', 1 ≤ n → n ≤ 64 → 1 ≤ n' → n' ≤ 64 →
      Succeeds sources (queueOf settings engine decoded) attempts →
      Succeeds sources (queueOf settings engine decoded) attempts' →
      Handles gz float (settings.withConcurrency n) engine decoded attempts x →
      Handles gz float (settings.withConcurrency n') engine decoded attempts' x' →
      before.after (landed x) = before.after (landed x')) ↔
    LastWriterSettled gz float settings engine sources 64 (queueOf settings engine decoded) := by
  constructor
  · intro hsame
    by_contra hrace
    obtain ⟨x, x', hx, hx', hne⟩ := exists_race hgz hrace before
    have hsucceeds := wholeAttempts_succeeds sources (queueOf settings engine decoded)
    exact hne (hsame 1 64 _ _ x x' le_rfl (by omega) (by omega) le_rfl hsucceeds hsucceeds hx hx')
  · intro hsettled n n' attempts attempts' x x' _ hn _ hn' h h' hx hx'
    funext dest
    rw [Contents.after_apply, Contents.after_apply, lastWrite_handles hgz hx h (hsettled.mono hn),
      lastWrite_handles hgz hx' h' (hsettled.mono hn')]

/-- An object of a trail, the key of which is that of the other trails' objects. -/
def raceObject (bucket : String) : ObjectRef := ⟨bucket, "a.json.gz", none⟩

def raceWork (bucket : String) : Work := ⟨0, raceObject bucket, ("filtered", "a.json.gz")⟩

/-- Two trails that log under the same key. -/
def raceItems : List SourceItem := [.new (some "m1") [raceObject "trail-a", raceObject "trail-b"]]

/-- The objects of two trails, one of which has one event more. -/
def raceSources (source : Location) : Option Bytes :=
  if source.1 = "trail-a" then some (storedMember envelopeText.toUTF8.toList)
  else some (storedMember "\x7b\"Records\":[\x7b\"eventName\":\"A\"\x7d]\x7d".toUTF8.toList)

/-- Objects of two buckets with one key race for their destination, and with other records in them
the concurrency decides which are delivered. -/
theorem concurrency_decides_destination :
    let queue := queueOf sampleSettings (some passEngine) (.ok raceItems)
    Succeeds raceSources queue (wholeAttempts raceSources queue) ∧
    ∃ x x', Handles storedGzip (fun _ => none) (sampleSettings.withConcurrency 1) (some passEngine) (.ok raceItems)
        (wholeAttempts raceSources queue) x ∧
      Handles storedGzip (fun _ => none) (sampleSettings.withConcurrency 2) (some passEngine) (.ok raceItems)
        (wholeAttempts raceSources queue) x' ∧
      Contents.after (fun _ => none) (landed x) ≠ Contents.after (fun _ => none) (landed x') := by
  intro queue
  have hqueue : queue = [raceWork "trail-a", raceWork "trail-b"] := by decide +kernel
  let write := writeOf storedGzip (fun _ => none) sampleSettings (some passEngine) raceSources
  have hwrite : ∀ bucket, (write (raceWork bucket)).map Prod.fst = some ("filtered", "a.json.gz") →
      ∃ body, write (raceWork bucket) = some (("filtered", "a.json.gz"), body) := by
    intro bucket h
    obtain ⟨⟨dest, body⟩, hbody, rfl⟩ := Option.map_eq_some_iff.mp h
    exact ⟨body, hbody⟩
  have hrace : ¬LastWriterSettled storedGzip (fun _ => none) sampleSettings (some passEngine) raceSources 2 queue := by
    intro hsettled
    obtain ⟨body, hbody⟩ := hwrite "trail-a" (by decide +kernel)
    obtain ⟨body', hbody'⟩ := hwrite "trail-b" (by decide +kernel)
    have hlast : ∀ l w, 1 < l → queue[l]? = some w → ∀ other,
        write w ≠ some (("filtered", "a.json.gz"), other) := by
      intro l w hl hw
      rw [hqueue, List.getElem?_eq_none hl] at hw
      cases hw
    have hsame := hsettled 0 1 (raceWork "trail-a") (raceWork "trail-b") _ body body' (by rw [hqueue]; rfl)
      (by rw [hqueue]; rfl) (by omega) (by omega) hbody hbody' hlast
    have hne : write (raceWork "trail-a") ≠ write (raceWork "trail-b") := by decide +kernel
    rw [hbody, hbody', hsame] at hne
    exact hne rfl
  exact ⟨wholeAttempts_succeeds raceSources queue, exists_race storedGzip_lawful hrace (fun _ => none)⟩

/-- The two trails logged the same events. -/
def tiedSources (_ : Location) : Option Bytes := some (storedMember envelopeText.toUTF8.toList)

/-- Two objects in flight for one destination, with the same bytes. -/
theorem destination_independent_of_concurrency_sample :
    let queue := queueOf sampleSettings (some passEngine) (.ok raceItems)
    queue = [raceWork "trail-a", raceWork "trail-b"] ∧
    ∃ x x', Handles storedGzip (fun _ => none) (sampleSettings.withConcurrency 1) (some passEngine)
        (.ok raceItems) (wholeAttempts tiedSources queue) x ∧
      Handles storedGzip (fun _ => none) (sampleSettings.withConcurrency 2) (some passEngine)
        (.ok raceItems) (wholeAttempts tiedSources queue) x' ∧
      (landed x).length = 2 ∧ Contents.after (fun _ => none) (landed x) = Contents.after (fun _ => none) (landed x') := by
  intro queue
  have hqueue : queue = [raceWork "trail-a", raceWork "trail-b"] := by decide +kernel
  have hsettled : LastWriterSettled storedGzip (fun _ => none) sampleSettings (some passEngine) tiedSources 64 queue := by
    intro j k w w' dest body body' hw hw' _ _ hwrite hwrite' _
    have hraced : ∀ v ∈ queue, ∃ bucket, v = raceWork bucket := by
      rw [hqueue]
      simp
    obtain ⟨bucket, rfl⟩ := hraced w (List.mem_of_getElem? hw)
    obtain ⟨bucket', rfl⟩ := hraced w' (List.mem_of_getElem? hw')
    have htied : writeOf storedGzip (fun _ => none) sampleSettings (some passEngine) tiedSources (raceWork bucket) =
      writeOf storedGzip (fun _ => none) sampleSettings (some passEngine) tiedSources (raceWork bucket') := rfl
    rw [hwrite, hwrite'] at htied
    simpa using htied
  have hsucceeds := wholeAttempts_succeeds tiedSources queue
  obtain ⟨x, hx⟩ := exists_handles storedGzip (fun _ => none) (sampleSettings.withConcurrency 1)
    (some passEngine) (wholeAttempts tiedSources queue) (.ok raceItems) (by decide)
  obtain ⟨x', hx'⟩ := exists_handles storedGzip (fun _ => none) (sampleSettings.withConcurrency 2)
    (some passEngine) (wholeAttempts tiedSources queue) (.ok raceItems) (by decide)
  refine ⟨hqueue, x, x', hx, hx', ?_, (destination_independent_of_concurrency_iff storedGzip_lawful (fun _ => none)
    sampleSettings (some passEngine) (.ok raceItems) tiedSources (fun _ => none)).mpr hsettled 1 2 _ _ x x' le_rfl
    (by decide) (by decide) (by decide) hsucceeds hsucceeds hx hx'⟩
  obtain ⟨-, -, hcalls⟩ := handleSequential_eq storedGzip (fun _ => none) sampleSettings (some passEngine) _ hx
  rw [landed, (hcalls.filterMap _).length_eq, hqueue]
  decide +kernel

end Batch

end CloudTrailFilter.Pipeline
