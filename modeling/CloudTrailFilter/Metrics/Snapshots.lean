import CloudTrailFilter.Metrics.Registry

/-!
# Snapshots of the counters

Whatever increments and snapshots interleave, the snapshots and what is left in the registry add up
to the increments, exactly as long as no total reaches `2 ^ 64`, and one snapshot of the process
carries the cold start. Without anything between its operations a snapshot is the function
`snapshotAndReset`.
-/

namespace CloudTrailFilter

section Order
variable {N : Type}

/-- Drained drops are by name, one entry a rule. -/
lemma sortDrops_pairwise {drops : List (String × N)} (h : (drops.map Prod.fst).Nodup) :
    (sortDrops drops).Pairwise (fun a b => a.1 < b.1) := by
  have hle : (sortDrops drops).Pairwise (fun a b => a.1 ≤ b.1) := by
    have hsorted := @List.pairwise_mergeSort _ (fun a b : String × N => decide (a.1 ≤ b.1))
      (fun a b c hab hbc => by
        simp only [decide_eq_true_eq] at *
        exact String.le_trans hab hbc)
      (fun a b => by simpa using String.le_total a.1 b.1) drops
    simpa [sortDrops] using hsorted
  have hne : (sortDrops drops).Pairwise (fun a b => a.1 ≠ b.1) := by
    have hnodup := ((sortDrops_perm drops).map Prod.fst).nodup_iff.mpr h
    rwa [List.Nodup, List.pairwise_map] at hnodup
  exact (hle.and hne).imp (fun ⟨hab, hne⟩ => Std.lt_of_le_of_ne hab hne)
variable [AddCommMonoid N] {num : Word 64 → N}

lemma bumpEntry_names (ruleName : String) (n : N) (drops : List (String × N)) :
    (bumpEntry ruleName n drops).map Prod.fst =
      if ruleName ∈ drops.map Prod.fst then drops.map Prod.fst else drops.map Prod.fst ++ [ruleName] := by
  induction drops with
  | nil => rfl
  | cons entry rest ih =>
    obtain ⟨name, drops⟩ := entry
    by_cases hname : name = ruleName
    · simp [bumpEntry, hname]
    · have hne : ruleName ≠ name := fun h => hname h.symm
      simp only [bumpEntry, hname, if_false, List.map_cons, ih, List.mem_cons, hne, false_or]
      split_ifs <;> rfl

/-- What every run keeps beside the amounts: the names are distinct, and the first call to begin has
the cold start. -/
structure Shared.Ordered (s : Shared N) : Prop where
  names : (s.metrics.ruleDrops.map Prod.fst).Nodup
  drained : ∀ call ∈ s.calls, ∀ drops, call.drained = some drops → drops.Pairwise (fun a b => a.1 < b.1)
  emitted : s.metrics.coldStartEmitted = !s.calls.isEmpty
  cold : s.calls.map SnapshotCall.coldStart = (List.range s.calls.length).map (fun i => decide (i = 0))

namespace Shared

lemma ordered_increment {s : Shared N} (h : s.Ordered) (i : Increment) (log : List Increment) :
    Ordered { s with metrics := s.metrics.increment num i, log := log } := by
  cases i with
  | add c n => exact ⟨h.names, h.drained, h.emitted, h.cold⟩
  | ruleDrops ruleName n =>
    by_cases hn : n = 0
    · have hm : s.metrics.increment num (.ruleDrops ruleName n) = s.metrics := by
        simp [AtomicMetrics.increment, AtomicMetrics.recordRuleDrops, hn]
      rw [hm]
      exact ⟨h.names, h.drained, h.emitted, h.cold⟩
    · refine ⟨?_, h.drained, ?_, h.cold⟩
      · simp only [AtomicMetrics.increment, AtomicMetrics.recordRuleDrops, hn, if_false, bumpEntry_names]
        split_ifs with hmem
        · exact h.names
        · exact List.nodup_append.mpr ⟨h.names, by simp, by simpa using fun a n hn heq => hmem (by simpa using ⟨n, heq ▸ hn⟩)⟩
      · simpa [AtomicMetrics.increment, AtomicMetrics.recordRuleDrops, hn] using h.emitted

lemma ordered_snapshot {s s' : Shared N} (h : s.Ordered) (hstep : s.step num .snapshot = some s') : s'.Ordered := by
  cases hstep
  refine ⟨h.names, ?_, by simp, ?_⟩
  · intro call hcall drops hdrops
    rcases List.mem_append.mp hcall with hcall | hcall
    · exact h.drained call hcall drops hdrops
    · rw [List.mem_singleton.mp hcall] at hdrops
      cases hdrops
  · have hcold : (!s.metrics.coldStartEmitted) = decide (s.calls.length = 0) := by
      rw [h.emitted]
      cases s.calls <;> rfl
    rw [List.map_append, h.cold, List.length_append, List.length_singleton, List.range_succ, List.map_append]
    simp [hcold]

lemma ordered_resume {s s' : Shared N} (h : s.Ordered) {i : ℕ} (hstep : s.step num (.resume i) = some s') :
    s'.Ordered := by
  simp only [step] at hstep
  cases hcall : s.calls[i]? with
  | none => simp [hcall] at hstep
  | some call =>
    rw [hcall] at hstep
    obtain ⟨⟨call', m'⟩, hnext, rfl⟩ := Option.map_eq_some_iff.mp hstep
    obtain ⟨hcold, hemitted, -⟩ := taken_next hnext
    have hmem : call ∈ s.calls := List.mem_of_getElem? hcall
    have hdrops : (m'.ruleDrops.map Prod.fst).Nodup ∧
        ∀ drops, call'.drained = some drops → drops.Pairwise (fun a b => a.1 < b.1) := by
      unfold SnapshotCall.next at hnext
      split at hnext
      · cases hnext
        refine ⟨List.nodup_nil, ?_⟩
        rintro drops hdrops
        cases hdrops
        exact sortDrops_pairwise h.names
      · cases hnext
      · cases hnext
        exact ⟨h.names, h.drained call hmem⟩
    refine ⟨hdrops.1, ?_, ?_, ?_⟩
    · intro c hc drops hc'
      rcases List.mem_or_eq_of_mem_set hc with hc | rfl
      · exact h.drained c hc drops hc'
      · exact hdrops.2 drops hc'
    · change m'.coldStartEmitted = _
      rw [hemitted, h.emitted]
      cases s.calls <;> simp
    · have hset : (s.calls.set i call').map SnapshotCall.coldStart = s.calls.map SnapshotCall.coldStart := by
        apply List.ext_getElem?
        intro j
        rw [List.getElem?_map, List.getElem?_map, List.getElem?_set]
        by_cases hj : i = j
        · subst hj
          obtain ⟨hlt, -⟩ := List.getElem?_eq_some_iff.mp hcall
          simp only [if_true, hlt, hcall, Option.map_some, hcold]
        · simp [hj]
      simpa [hset] using h.cold

theorem ordered {s : Shared N} (h : Concurrency.Reachable (step num) start s) : s.Ordered := by
  have hstart : (start : Shared N).Ordered := ⟨List.nodup_nil, by simp [start], rfl, rfl⟩
  refine h.invariant hstart ?_
  intro s action s' hs hstep
  cases action with
  | increment i =>
    cases hstep
    exact ordered_increment hs i _
  | snapshot => exact ordered_snapshot hs hstep
  | resume i => exact ordered_resume hs hstep

end Shared

end Order

section Alone
variable {N : Type} [AddCommMonoid N] {num : Word 64 → N}

/-- The operations of call `i` from its first field on, with nothing between them. -/
lemma Shared.run_pending {s : Shared N} {i : ℕ} {coldStart : Bool} {drops : List (String × N)}
    {read : List (Counter × N)} {pending : List Counter}
    (hcall : s.calls[i]? = some ⟨coldStart, some drops, read, pending⟩) (hnodup : pending.Nodup) :
    Concurrency.runActions (step num) s (List.replicate pending.length (.resume i)) =
      some { s with
        metrics := { s.metrics with counter := fun c => if c ∈ pending then 0 else s.metrics.counter c }
        calls := s.calls.set i
          ⟨coldStart, some drops, read ++ pending.map (fun c => (c, s.metrics.counter c)), []⟩ } := by
  induction pending generalizing s read with
  | nil =>
    have hset : s.calls.set i ⟨coldStart, some drops, read, []⟩ = s.calls := by
      obtain ⟨hlt, heq⟩ := List.getElem?_eq_some_iff.mp hcall
      rw [← heq, List.set_getElem_self]
    simp [Concurrency.runActions, hset]
  | cons c rest ih =>
    obtain ⟨hc, hrest⟩ := List.nodup_cons.mp hnodup
    obtain ⟨hlt, -⟩ := List.getElem?_eq_some_iff.mp hcall
    have hstep : s.step num (.resume i) = some { s with
        metrics := { s.metrics with counter := Function.update s.metrics.counter c 0 }
        calls := s.calls.set i ⟨coldStart, some drops, read ++ [(c, s.metrics.counter c)], rest⟩ } := by
      simp [step, hcall, SnapshotCall.next]
    have hnext : (s.calls.set i ⟨coldStart, some drops, read ++ [(c, s.metrics.counter c)], rest⟩)[i]? =
        some ⟨coldStart, some drops, read ++ [(c, s.metrics.counter c)], rest⟩ := by
      simp [hlt]
    rw [List.length_cons, List.replicate_succ, Concurrency.runActions, hstep, Option.bind_some,
      ih hnext hrest]
    have hothers : rest.map (fun d => (d, Function.update s.metrics.counter c 0 d)) =
        rest.map (fun d => (d, s.metrics.counter d)) := by
      refine List.map_congr_left ?_
      intro d hd
      have hne : d ≠ c := fun h => hc (h ▸ hd)
      rw [Function.update_of_ne hne]
    simp only [List.set_set, hothers, List.append_assoc, List.map_cons, List.singleton_append, Option.some.injEq,
      Shared.mk.injEq, AtomicMetrics.mk.injEq, true_and, and_true]
    funext d
    by_cases hd : d = c
    · subst hd
      simp
    · simp [hd]

lemma amountOf_map_self (counter : Counter → N) (c : Counter) :
    amountOf c (Counter.all.map (fun c => (c, counter c))) = counter c := by
  cases c <;> simp [Counter.all, amountOf_cons]

/-- A snapshot with nothing between its operations is the sequential one. -/
theorem Shared.snapshot_alone (s : Shared N) :
    ∃ call, call.finish = some s.metrics.snapshotAndReset.1 ∧
      Concurrency.runActions (step num) s
          (.snapshot :: List.replicate (Counter.all.length + 1) (.resume s.calls.length)) =
        some ⟨s.metrics.snapshotAndReset.2, s.calls ++ [call], s.log⟩ := by
  let drained : SnapshotCall N :=
    ⟨!s.metrics.coldStartEmitted, some (sortDrops s.metrics.ruleDrops), [], Counter.all⟩
  let mid : Shared N := ⟨⟨true, s.metrics.counter, []⟩, s.calls ++ [drained], s.log⟩
  have hcall : mid.calls[s.calls.length]? = some drained := by simp [mid]
  have hmid : (s.step num .snapshot).bind (fun s' => s'.step num (.resume s.calls.length)) = some mid := by
    simp [step, SnapshotCall.next, mid, drained]
  refine ⟨⟨!s.metrics.coldStartEmitted, some (sortDrops s.metrics.ruleDrops),
    Counter.all.map (fun c => (c, s.metrics.counter c)), []⟩, ?_, ?_⟩
  · simp only [SnapshotCall.finish, AtomicMetrics.snapshotAndReset, Option.some.injEq, MetricSnapshot.mk.injEq,
      true_and, and_true]
    funext c
    exact amountOf_map_self _ c
  · obtain ⟨begun, hbegun, hmid⟩ := Option.bind_eq_some_iff.mp hmid
    rw [Concurrency.runActions, hbegun, Option.bind_some, List.replicate_succ, Concurrency.runActions, hmid,
      Option.bind_some, run_pending hcall Counter.nodup_all]
    simp [mid, Counter.mem_all, AtomicMetrics.snapshotAndReset]

end Alone

section Conserved

/-- All that was ever added to a cell, as a natural number. -/
def totalAt (log : List Increment) (cell : Cell) : ℕ := amountOf cell (log.map (fun i => (i.cell, i.amount.val)))

lemma taken_map {N N' : Type} [AddCommMonoid N] [AddCommMonoid N'] (φ : N →+ N') (call : SnapshotCall N)
    (cell : Cell) : (call.map φ).taken cell = φ (call.taken cell) := by
  cases cell with
  | counter c => exact amountOf_map φ c _
  | rule ruleName =>
    obtain ⟨_, drained, _, _⟩ := call
    cases drained with
    | none => exact (map_zero φ).symm
    | some drops => exact amountOf_map φ ruleName _

lemma held_map {N N' : Type} [AddCommMonoid N] [AddCommMonoid N'] (φ : N →+ N') (m : AtomicMetrics N)
    (cell : Cell) : (m.map φ).held cell = φ (m.held cell) := by
  cases cell with
  | counter c => rfl
  | rule ruleName => exact amountOf_map φ ruleName _

/-- The registry under every interleaving of increments and snapshots. What the snapshots took and
what is left add up to all that was added: as words always, and as numbers as long as the total of
the cell is below `2 ^ 64`. The first snapshot to begin has the cold start and no other has. A
snapshot is never held up, and when it has no operation left it publishes what it took, with the
drops of the rules in order and one entry a rule. -/
theorem registry_conserves {s : Shared (Word 64)} (h : Concurrency.Reachable (Shared.step id) Shared.start s) :
    (∀ cell, (s.calls.map (fun call => call.taken cell)).sum + s.metrics.held cell = wrap (totalAt s.log cell)) ∧
    (∀ cell, totalAt s.log cell < 2 ^ 64 →
      (s.calls.map (fun call => (call.taken cell).val)).sum + (s.metrics.held cell).val = totalAt s.log cell) ∧
    ∀ i call, s.calls[i]? = some call →
      call.coldStart = decide (i = 0) ∧
      (s.step id (.resume i) = none → ∃ snapshot, call.finish = some snapshot ∧
        snapshot.coldStart = call.coldStart ∧ snapshot.amount = call.taken ∧
        snapshot.ruleDrops.Pairwise (fun a b => a.1 < b.1)) := by
  obtain ⟨exact, hexact, rfl⟩ := Shared.exists_exact h
  have hbalanced := Shared.balanced (show Fin.val (0 : Word 64) = 0 from rfl) hexact
  have hsum : ∀ cell, (exact.calls.map (fun call => call.taken cell)).sum + exact.metrics.held cell =
      totalAt exact.log cell := hbalanced
  refine ⟨?_, ?_, ?_⟩
  · intro cell
    have htaken : ((exact.map wrap).calls.map (fun call => call.taken cell)).sum =
        wrap (exact.calls.map (fun call => call.taken cell)).sum := by
      rw [map_list_sum]
      simp only [Shared.map, List.map_map]
      congr 2
      funext call
      exact taken_map wrap call cell
    have hheld : (exact.map wrap).metrics.held cell = wrap (exact.metrics.held cell) := held_map wrap exact.metrics cell
    rw [htaken, hheld, ← map_add, hsum cell]
    rfl
  · intro cell hlt
    change totalAt exact.log cell < 2 ^ 64 at hlt
    have hval : ∀ n ≤ totalAt exact.log cell, (wrap n).val = n := by
      intro n hn
      exact Nat.mod_eq_of_lt (by omega)
    have hcall : ∀ call ∈ exact.calls, call.taken cell ≤ totalAt exact.log cell := by
      intro call hcall
      have := List.single_le_sum (l := exact.calls.map (fun call => call.taken cell)) (by simp) _
        (List.mem_map_of_mem hcall)
      exact this.trans (hbalanced.le cell).1
    have htaken : (exact.map wrap).calls.map (fun call => (call.taken cell).val) =
        exact.calls.map (fun call => call.taken cell) := by
      simp only [Shared.map, List.map_map]
      refine List.map_congr_left ?_
      intro call hmem
      simp [taken_map, hval _ (hcall call hmem)]
    have hheld : ((exact.map wrap).metrics.held cell).val = exact.metrics.held cell := by
      change ((exact.metrics.map wrap).held cell).val = _
      rw [held_map]
      exact hval _ (hbalanced.le cell).2
    rw [htaken, hheld, hsum cell]
    rfl
  · intro i call hcall
    have hordered := Shared.ordered h
    refine ⟨?_, ?_⟩
    · have hcold := congrArg (fun l => l[i]?) hordered.cold
      obtain ⟨hlt, -⟩ := List.getElem?_eq_some_iff.mp hcall
      simp only [List.getElem?_map, hcall, Option.map_some, List.getElem?_range hlt, Option.some.injEq] at hcold
      exact hcold
    · intro hstuck
      simp only [Shared.step, hcall, Option.map_eq_none_iff] at hstuck
      obtain ⟨coldStart, drained, read, pending⟩ := call
      unfold SnapshotCall.next at hstuck
      split at hstuck
      · cases hstuck
      · rename_i drops hdrained hpending
        obtain rfl : drained = some drops := hdrained
        obtain rfl : pending = [] := hpending
        refine ⟨⟨coldStart, fun c => amountOf c read, drops⟩, rfl, rfl, ?_, ?_⟩
        · funext cell
          cases cell <;> rfl
        · exact hordered.drained _ (List.mem_of_getElem? hcall) drops rfl
      · cases hstuck

/-- Two snapshots of one registry, an increment between the operations of the first. -/
def sampleActions : List MetricsAction :=
  [.increment (.add .recordsIn (word 5)), .increment (.ruleDrops "noise" (word 2)), .snapshot, .resume 0,
    .increment (.add .recordsIn (word 1)), .snapshot, .resume 1] ++ List.replicate 15 (.resume 0)

theorem registry_conserves_sample :
    ∃ s, Concurrency.runActions (Shared.step id) Shared.start sampleActions = some s ∧
      (s.calls.map (fun call => (call.taken (.counter .recordsIn)).val)).sum +
        (s.metrics.held (.counter .recordsIn)).val = 6 := by
  obtain ⟨s, hs⟩ := Option.isSome_iff_exists.mp
    (show (Concurrency.runActions (Shared.step id) Shared.start sampleActions).isSome by decide +kernel)
  have hreach := Concurrency.Reachable.start.run sampleActions hs
  have htotal : totalAt s.log (.counter .recordsIn) = 6 := by
    have hlog : (Concurrency.runActions (Shared.step id) Shared.start sampleActions).map
        (fun s => totalAt s.log (.counter .recordsIn)) = some 6 := by decide +kernel
    simpa [hs] using hlog
  refine ⟨s, hs, ?_⟩
  rw [(registry_conserves hreach).2.1 (.counter .recordsIn) (by rw [htotal]; decide), htotal]

end Conserved

end CloudTrailFilter
