import CloudTrailFilter.Lib.Buffered

/-!
# How far a bounded executor displaces calls

A task is started only when fewer than `limit` tasks are between it and the last one yielded. So a
call of a task comes before one of an earlier task only if the two are less than `limit` apart, and
within that distance a task can be held back until a later one is done.
-/

namespace CloudTrailFilter

section Tagging
variable {κ κ' μ ε α : Type*}

/-- The computation with its calls seen through `g`. -/
def Effect.mapCalls (g : κ' → κ) (x : Effect κ' μ ε α) : Effect κ μ ε α :=
  ⟨x.result, x.calls.map g, x.metrics⟩

def Flight.mapCalls (g : κ' → κ) : Flight κ' μ ε α → Flight κ μ ε α
  | .running rest => .running (rest.mapCalls g)
  | .finished result => .finished result

lemma Flight.mapCalls_eq_running {g : κ' → κ} {flight : Flight κ' μ ε α} {rest : Effect κ μ ε α}
    (h : flight.mapCalls g = .running rest) : ∃ rest', flight = .running rest' ∧ rest'.mapCalls g = rest := by
  cases flight with
  | running rest' => exact ⟨rest', rfl, Flight.running.inj h⟩
  | finished result => cases h

lemma Flight.mapCalls_eq_finished {g : κ' → κ} {flight : Flight κ' μ ε α} {result : Except ε α}
    (h : flight.mapCalls g = .finished result) : flight = .finished result := by
  cases flight with
  | running rest => cases h
  | finished result' => rw [Flight.finished.inj h]

/-- A flight in its place among the others. -/
lemma Flight.place_of_mapCalls {g : κ' → κ} {τ : Type*} {flights : List (τ × Flight κ' μ ε α)}
    {before after : List (τ × Flight κ μ ε α)} {t : τ} {flight : Flight κ μ ε α}
    (h : flights.map (fun f => (f.1, f.2.mapCalls g)) = before ++ (t, flight) :: after) :
    ∃ before' flight' after', flights = before' ++ (t, flight') :: after' ∧
      before'.map (fun f => (f.1, f.2.mapCalls g)) = before ∧ flight'.mapCalls g = flight ∧
      after'.map (fun f => (f.1, f.2.mapCalls g)) = after := by
  obtain ⟨before', rest, rfl, hbefore, hrest⟩ := List.map_eq_append_iff.mp h
  obtain ⟨⟨t', flight'⟩, after', rfl, hf, hafter⟩ := List.map_eq_cons_iff.mp hrest
  simp only [Prod.mk.injEq] at hf
  obtain ⟨rfl, hflight⟩ := hf
  exact ⟨before', flight', after', rfl, hbefore, hflight, hafter⟩

end Tagging

namespace Executor
variable {τ κ κ' μ ε α σ : Type*} [AddCommMonoid μ]
variable {run : τ → Effect κ μ ε α} {run' : τ → Effect κ' μ ε α} {consume : σ → Except ε α → σ × μ} {limit : ℕ}

def mapCalls (g : κ' → κ) (s : Executor τ κ' μ ε α σ) : Executor τ κ μ ε α σ :=
  ⟨s.waiting, s.inFlight.map (fun f => (f.1, f.2.mapCalls g)), s.consumer, s.calls.map g, s.metrics⟩

/-- A step is one of the tagged calls as well. -/
lemma Step.lift {g : κ' → κ} (hrun : ∀ t, run t = (run' t).mapCalls g) {s : Executor τ κ' μ ε α σ}
    {s₂ : Executor τ κ μ ε α σ} (h : Step run consume limit (s.mapCalls g) s₂) :
    ∃ s', Step run' consume limit s s' ∧ s'.mapCalls g = s₂ := by
  obtain ⟨waiting, flights, consumer, calls, metrics⟩ := s
  generalize hs : mapCalls g ⟨waiting, flights, consumer, calls, metrics⟩ = s₁ at h
  cases h with
  | start t rest flights₁ consumer₁ calls₁ metrics₁ hlt =>
    simp only [mapCalls, Executor.mk.injEq] at hs
    obtain ⟨rfl, rfl, rfl, rfl, rfl⟩ := hs
    refine ⟨_, .start t rest flights consumer calls metrics (by simpa using hlt), ?_⟩
    simp [mapCalls, Flight.mapCalls, hrun]
  | progress waiting₁ before after t result now later part rest consumer₁ calls₁ metrics₁ =>
    simp only [mapCalls, Executor.mk.injEq] at hs
    obtain ⟨rfl, hflights, rfl, rfl, rfl⟩ := hs
    obtain ⟨before', flight', after', rfl, rfl, hflight, rfl⟩ := Flight.place_of_mapCalls hflights
    obtain ⟨rest', rfl, hrest⟩ := Flight.mapCalls_eq_running hflight
    obtain ⟨result', calls', metrics'⟩ := rest'
    simp only [Effect.mapCalls, Effect.mk.injEq] at hrest
    obtain ⟨rfl, hcalls, rfl⟩ := hrest
    obtain ⟨now', later', rfl, rfl, rfl⟩ := List.map_eq_append_iff.mp hcalls
    refine ⟨_, .progress waiting before' after' t result' now' later' part rest consumer calls metrics, ?_⟩
    simp [mapCalls, Flight.mapCalls, Effect.mapCalls]
  | finish waiting₁ before after t result consumer₁ calls₁ metrics₁ =>
    simp only [mapCalls, Executor.mk.injEq] at hs
    obtain ⟨rfl, hflights, rfl, rfl, rfl⟩ := hs
    obtain ⟨before', flight', after', rfl, rfl, hflight, rfl⟩ := Flight.place_of_mapCalls hflights
    obtain ⟨⟨result', calls', metrics'⟩, rfl, hrest⟩ := Flight.mapCalls_eq_running hflight
    simp only [Effect.mapCalls, Effect.mk.injEq, List.map_eq_nil_iff] at hrest
    obtain ⟨rfl, rfl, rfl⟩ := hrest
    refine ⟨_, .finish waiting before' after' t result' consumer calls metrics, ?_⟩
    simp [mapCalls, Flight.mapCalls]
  | yield waiting₁ flights₁ t result consumer₁ calls₁ metrics₁ =>
    simp only [mapCalls, Executor.mk.injEq] at hs
    obtain ⟨rfl, hflights, rfl, rfl, rfl⟩ := hs
    rw [← List.nil_append ((t, Flight.finished result) :: flights₁)] at hflights
    obtain ⟨before', flight', after', rfl, hbefore, hflight, rfl⟩ := Flight.place_of_mapCalls hflights
    obtain rfl := List.map_eq_nil_iff.mp hbefore
    obtain rfl := Flight.mapCalls_eq_finished hflight
    exact ⟨_, .yield waiting after' t result consumer calls metrics, rfl⟩

/-- A run is one of the tagged calls as well. -/
theorem Runs.lift {g : κ' → κ} (hrun : ∀ t, run t = (run' t).mapCalls g) {tasks : List τ} {consumer : σ}
    {s : Executor τ κ μ ε α σ} (h : Runs run consume limit tasks consumer s) :
    ∃ s', Runs run' consume limit tasks consumer s' ∧ s'.mapCalls g = s := by
  induction h with
  | refl => exact ⟨_, .refl, rfl⟩
  | tail _ hstep ih =>
    obtain ⟨s', hruns, rfl⟩ := ih
    obtain ⟨s'', hstep', hs⟩ := hstep.lift hrun
    exact ⟨s'', hruns.tail hstep', hs⟩

section Window
variable (rank : τ → ℕ) (place : κ → ℕ)

/-- The invariant of the displacement. Tasks have their ranks in the order of submission and calls
the rank of their task; `yielded` tasks are done, those in flight are the next ones, and no call
has come after one of a task that is `limit` or more places later. -/
structure Window (limit yielded : ℕ) (s : Executor τ κ μ ε α σ) : Prop where
  order : s.inFlight.map (fun f => rank f.1) ++ s.waiting.map rank =
    List.range' yielded (s.inFlight.length + s.waiting.length)
  rests : ∀ f ∈ s.inFlight, ∀ c ∈ f.2.restCalls, place c = rank f.1
  room : s.inFlight.length ≤ limit
  started : ∀ c ∈ s.calls, place c < yielded + s.inFlight.length
  window : s.calls.Pairwise (fun a b => place a < place b + limit)

variable {rank place}

omit [AddCommMonoid μ] in
lemma Window.rank_eq {yielded : ℕ} {waiting : List τ} {before after : List (τ × Flight κ μ ε α)} {t : τ}
    {flight : Flight κ μ ε α} {consumer : σ} {calls : List κ} {metrics : μ}
    (h : Window rank place limit yielded ⟨waiting, before ++ (t, flight) :: after, consumer, calls, metrics⟩) :
    rank t = yielded + before.length := by
  have horder := congrArg (fun l => l[before.length]?) h.order
  have hlt : before.length < before.length + (after.length + 1) + waiting.length := by omega
  simpa [List.getElem?_append, List.getElem?_range' hlt] using horder

/-- Calls of a task in flight come no earlier than the calls of the tasks yielded. -/
lemma window_append {yielded inFlight p : ℕ} {calls now : List κ}
    (hstarted : ∀ c ∈ calls, place c < yielded + inFlight)
    (hwindow : calls.Pairwise (fun a b => place a < place b + limit)) (hroom : inFlight ≤ limit)
    (hnow : ∀ c ∈ now, place c = p) (hle : yielded ≤ p) (hlt : p < yielded + inFlight) :
    (∀ c ∈ calls ++ now, place c < yielded + inFlight) ∧
      (calls ++ now).Pairwise (fun a b => place a < place b + limit) := by
  refine ⟨fun c hc => ?_, List.pairwise_append.mpr ⟨hwindow, ?_, fun a ha b hb => ?_⟩⟩
  · rcases List.mem_append.mp hc with hc | hc
    · exact hstarted c hc
    · rw [hnow c hc]
      exact hlt
  · refine List.pairwise_of_forall_mem_list (fun a ha b hb => ?_)
    rw [hnow a ha, hnow b hb]
    omega
  · have ha := hstarted a ha
    rw [hnow b hb]
    omega

lemma Window.step (hrun : ∀ t, ∀ c ∈ (run t).calls, place c = rank t) {yielded : ℕ}
    {s s' : Executor τ κ μ ε α σ} (h : Window rank place limit yielded s) (hstep : Step run consume limit s s') :
    ∃ yielded', Window rank place limit yielded' s' := by
  cases hstep with
  | start t rest flights consumer' calls metrics hlt =>
    refine ⟨yielded, ?_, ?_, ?_, ?_, h.window⟩
    · have horder := h.order
      simp only [List.length_cons, List.map_cons] at horder
      simp only [List.map_append, List.map_cons, List.map_nil, List.append_assoc, List.cons_append,
        List.nil_append, horder, List.length_append, List.length_cons, List.length_nil]
      congr 1
      omega
    · intro f hf
      rcases List.mem_append.mp hf with hf | hf
      · exact h.rests f hf
      · rw [List.mem_singleton] at hf
        subst hf
        exact hrun t
    · simpa using hlt
    · intro c hc
      have hc' := h.started c hc
      simp only [List.length_append, List.length_cons, List.length_nil] at hc' ⊢
      omega
  | progress waiting before after t result now later part rest consumer' calls metrics =>
    have hrank := h.rank_eq
    have hnow : ∀ c ∈ now, place c = rank t := fun c hc =>
      h.rests (t, .running ⟨result, now ++ later, part + rest⟩) (by simp) c (by simp [hc])
    have hlen : (before ++ (t, Flight.running ⟨result, now ++ later, part + rest⟩) :: after).length =
        before.length + (after.length + 1) := by simp
    have hroom := h.room
    have hstarted := h.started
    simp only [hlen] at hroom hstarted
    obtain ⟨hstarted', hwindow⟩ :=
      window_append hstarted h.window hroom hnow (by omega) (by omega)
    refine ⟨yielded, by simpa using h.order, ?_, by simpa using h.room, by simpa using hstarted', hwindow⟩
    exact forall_replaced h.rests (fun hrest c hc => hrest c (List.mem_append_right now hc))
  | finish waiting before after t result consumer' calls metrics =>
    refine ⟨yielded, by simpa using h.order, ?_, by simpa using h.room, by simpa using h.started, h.window⟩
    exact forall_replaced h.rests (by simp)
  | yield waiting flights t result consumer' calls metrics =>
    refine ⟨yielded + 1, ?_, ?_, ?_, ?_, h.window⟩
    · have horder := h.order
      simp only [List.map_cons, List.length_cons, List.cons_append] at horder
      rw [Nat.add_right_comm, List.range'_succ] at horder
      exact (List.cons.inj horder).2
    · intro f hf
      exact h.rests f (List.mem_cons_of_mem _ hf)
    · have hroom := h.room
      simp only [List.length_cons] at hroom
      change flights.length ≤ limit
      omega
    · intro c hc
      have hc' := h.started c hc
      simp only [List.length_cons] at hc' ⊢
      omega

variable (rank place) in
/-- No call of a run comes after one of a task that is `limit` or more places later. -/
theorem Runs.window {tasks : List τ} {consumer : σ} {s : Executor τ κ μ ε α σ}
    (h : Runs run consume limit tasks consumer s) (hrun : ∀ t, ∀ c ∈ (run t).calls, place c = rank t)
    (hrank : tasks.map rank = List.range' 0 tasks.length) :
    s.calls.Pairwise (fun a b => place a < place b + limit) := by
  have hwindow : ∃ yielded, Window rank place limit yielded s := by
    induction h with
    | refl =>
      refine ⟨0, ?_, ?_, ?_, ?_, ?_⟩ <;> simp [Executor.init, hrank]
    | tail _ hstep ih =>
      obtain ⟨yielded, hwindow⟩ := ih
      exact hwindow.step hrun hstep
  obtain ⟨yielded, hwindow⟩ := hwindow
  exact hwindow.window

end Window

lemma sequential_calls (consumer : σ) (tasks : List τ) :
    (sequential run consume consumer tasks).2.1 = tasks.flatMap (fun t => (run t).calls) := by
  induction tasks generalizing consumer with
  | nil => rfl
  | cons t rest ih => simp [sequential, ih]

section Delay

variable (run consume) in
/-- Tasks can run one after the other. -/
lemma run_front (hlimit : 0 < limit) (front rest : List τ) (consumer : σ) (calls : List κ) (metrics : μ) :
    ∃ consumer' metrics', Relation.ReflTransGen (Step run consume limit)
      ⟨front ++ rest, [], consumer, calls, metrics⟩
      ⟨rest, [], consumer', calls ++ front.flatMap (fun t => (run t).calls), metrics'⟩ := by
  induction front generalizing consumer calls metrics with
  | nil => exact ⟨consumer, metrics, by simpa using Relation.ReflTransGen.refl⟩
  | cons t front ih =>
    have hstart : Step run consume limit ⟨t :: (front ++ rest), [], consumer, calls, metrics⟩
        ⟨front ++ rest, [(t, .running (run t))], consumer, calls, metrics⟩ := by
      exact Step.start t (front ++ rest) [] consumer calls metrics hlimit
    obtain ⟨⟨_, _, consumer₁, _, metrics₁⟩, rfl, rfl, rfl, hfront⟩ := finish_front run consume limit (front ++ rest)
      (t, .running (run t)) [] consumer calls metrics
    obtain ⟨consumer', metrics', hrest⟩ := ih consumer₁ (calls ++ (run t).calls) metrics₁
    refine ⟨consumer', metrics', .head hstart (hfront.trans ?_)⟩
    simpa [List.append_assoc] using hrest

variable (run consume limit) in
/-- Tasks can finish behind others that are held back, as long as there is room. -/
lemma run_behind (block rest : List τ) (flights : List (τ × Flight κ μ ε α)) (consumer : σ) (calls : List κ)
    (metrics : μ) (hroom : flights.length + block.length ≤ limit) :
    ∃ metrics', Relation.ReflTransGen (Step run consume limit)
      ⟨block ++ rest, flights, consumer, calls, metrics⟩
      ⟨rest, flights ++ block.map (fun t => (t, .finished (run t).result)), consumer,
        calls ++ block.flatMap (fun t => (run t).calls), metrics'⟩ := by
  induction block generalizing flights calls metrics with
  | nil => exact ⟨metrics, by simpa using Relation.ReflTransGen.refl⟩
  | cons t block ih =>
    simp only [List.length_cons] at hroom
    have hstart : Step run consume limit ⟨t :: (block ++ rest), flights, consumer, calls, metrics⟩
        ⟨block ++ rest, flights ++ [(t, .running (run t))], consumer, calls, metrics⟩ :=
      Step.start t (block ++ rest) flights consumer calls metrics (by omega)
    have hprogress : Step run consume limit
        ⟨block ++ rest, flights ++ [(t, .running (run t))], consumer, calls, metrics⟩
        ⟨block ++ rest, flights ++ [(t, .running ⟨(run t).result, [], 0⟩)], consumer, calls ++ (run t).calls,
          metrics + (run t).metrics⟩ := by
      have hall : Step run consume limit _ _ := Step.progress (block ++ rest) flights [] t (run t).result
        (run t).calls [] (run t).metrics 0 consumer calls metrics
      simpa using hall
    have hfinish : Step run consume limit _ _ := Step.finish (block ++ rest) flights [] t (run t).result consumer
      (calls ++ (run t).calls) (metrics + (run t).metrics)
    obtain ⟨metrics', hrest⟩ := ih (flights ++ [(t, .finished (run t).result)]) (calls ++ (run t).calls)
      (metrics + (run t).metrics) (by simp only [List.length_append, List.length_cons, List.length_nil]; omega)
    refine ⟨metrics', .head hstart (.head hprogress (.head hfinish ?_))⟩
    simpa [List.append_assoc] using hrest

variable (run consume limit) in
/-- Finished tasks at the front can all be yielded. -/
lemma yield_finished (done : List τ) (waiting : List τ) (consumer : σ) (calls : List κ) (metrics : μ) :
    ∃ consumer' metrics', Relation.ReflTransGen (Step run consume limit)
      ⟨waiting, done.map (fun t => (t, .finished (run t).result)), consumer, calls, metrics⟩
      ⟨waiting, [], consumer', calls, metrics'⟩ := by
  induction done generalizing consumer metrics with
  | nil => exact ⟨consumer, metrics, .refl⟩
  | cons t done ih =>
    obtain ⟨consumer', metrics', hrest⟩ := ih (consume consumer (run t).result).1
      (metrics + (consume consumer (run t).result).2)
    exact ⟨consumer', metrics', .head (Step.yield waiting _ t (run t).result consumer calls metrics) hrest⟩

variable (run consume) in
/-- A task can be held back until the tasks of a block behind it are done, if they fit in flight
together. -/
theorem exists_delayed_run {tasks front block rest : List τ} {t : τ} (htasks : tasks = front ++ t :: (block ++ rest))
    (hroom : block.length < limit) (consumer : σ) :
    ∃ s, Runs run consume limit tasks consumer s ∧ s.Drained ∧
      s.calls = (front ++ block ++ t :: rest).flatMap (fun t => (run t).calls) := by
  have hlimit : 0 < limit := by omega
  obtain ⟨consumer₁, metrics₁, hfront⟩ := run_front run consume hlimit front (t :: (block ++ rest)) consumer [] 0
  have hstart : Step run consume limit
      ⟨t :: (block ++ rest), [], consumer₁, front.flatMap (fun t => (run t).calls), metrics₁⟩
      ⟨block ++ rest, [(t, .running (run t))], consumer₁, front.flatMap (fun t => (run t).calls), metrics₁⟩ := by
    exact Step.start t (block ++ rest) [] consumer₁ _ metrics₁ hlimit
  obtain ⟨metrics₂, hblock⟩ := run_behind run consume limit block rest [(t, .running (run t))] consumer₁
    (front.flatMap (fun t => (run t).calls)) metrics₁ (by rw [List.length_singleton, add_comm]; exact hroom)
  obtain ⟨⟨_, _, consumer₃, _, metrics₃⟩, hwaiting, hflights, hcalls, hheld⟩ := finish_front run consume limit rest
    (t, .running (run t)) (block.map (fun t => (t, .finished (run t).result))) consumer₁
    (front.flatMap (fun t => (run t).calls) ++ block.flatMap (fun t => (run t).calls)) metrics₂
  dsimp only at hwaiting hflights hcalls
  rw [hwaiting, hflights, hcalls] at hheld
  obtain ⟨consumer₄, metrics₄, hyield⟩ := yield_finished run consume limit block rest consumer₃
    (front.flatMap (fun t => (run t).calls) ++ block.flatMap (fun t => (run t).calls) ++ (run t).calls) metrics₃
  obtain ⟨consumer₅, metrics₅, hrest⟩ := run_front run consume hlimit rest [] consumer₄
    (front.flatMap (fun t => (run t).calls) ++ block.flatMap (fun t => (run t).calls) ++ (run t).calls) metrics₄
  rw [List.append_nil] at hrest
  have hall := hfront.trans (.head hstart (hblock.trans (hheld.trans (hyield.trans hrest))))
  rw [← htasks] at hall
  exact ⟨_, hall, ⟨rfl, rfl⟩, by simp [List.append_assoc]⟩

end Delay

end Executor

end CloudTrailFilter
