import CloudTrailFilter.Lib.Effect

/-!
# A bounded executor that keeps the order

Tasks are started in order, at most `limit` of them at a time. A task in flight makes its calls
and publishes its counters piece by piece, in any interleaving with the others, and the tasks may
finish in any order; their results reach the consumer in the order of submission. Whatever the
limit and the interleaving, the consumer, the counters and, up to order, the calls come out as if
the tasks had run one after the other.
-/

namespace CloudTrailFilter

/-- A task in flight: what it still has to do, or its result. -/
inductive Flight (κ μ ε α : Type*) where
  | running (rest : Effect κ μ ε α)
  | finished (result : Except ε α)

namespace Flight
variable {κ μ ε α : Type*}

/-- The calls a task in flight still has to make. -/
def restCalls : Flight κ μ ε α → List κ
  | .running rest => rest.calls
  | .finished _ => []

/-- The counters a task in flight still has to publish. -/
def restMetrics [Zero μ] : Flight κ μ ε α → μ
  | .running rest => rest.metrics
  | .finished _ => 0

/-- The result a task in flight has or will have. -/
def result : Flight κ μ ε α → Except ε α
  | .running rest => rest.result
  | .finished result => result

@[simp] lemma restCalls_running (rest : Effect κ μ ε α) : (running rest).restCalls = rest.calls := rfl
@[simp] lemma restCalls_finished (r : Except ε α) :
    (finished r : Flight κ μ ε α).restCalls = [] := rfl
@[simp] lemma restMetrics_running [Zero μ] (rest : Effect κ μ ε α) :
    (running rest).restMetrics = rest.metrics := rfl
@[simp] lemma restMetrics_finished [Zero μ] (r : Except ε α) :
    (finished r : Flight κ μ ε α).restMetrics = 0 := rfl

end Flight

/-- The tasks not started, those in flight in the order of submission, the consumer, and what
has been called and published so far. -/
structure Executor (τ κ μ ε α σ : Type*) where
  waiting : List τ
  inFlight : List (τ × Flight κ μ ε α)
  consumer : σ
  calls : List κ
  metrics : μ

namespace Executor
variable {τ κ μ ε α σ : Type*} [AddCommMonoid μ]
variable (run : τ → Effect κ μ ε α) (consume : σ → Except ε α → σ × μ) (limit : ℕ)

def init (tasks : List τ) (consumer : σ) : Executor τ κ μ ε α σ := ⟨tasks, [], consumer, [], 0⟩

/-- One step of the executor, of a task in flight or of the consumer. -/
inductive Step : Executor τ κ μ ε α σ → Executor τ κ μ ε α σ → Prop where
  | start (t : τ) (rest : List τ) (flights : List (τ × Flight κ μ ε α)) (consumer : σ)
      (calls : List κ) (metrics : μ) : flights.length < limit →
      Step ⟨t :: rest, flights, consumer, calls, metrics⟩
        ⟨rest, flights ++ [(t, .running (run t))], consumer, calls, metrics⟩
  | progress (waiting : List τ) (before after : List (τ × Flight κ μ ε α)) (t : τ)
      (result : Except ε α) (now later : List κ) (part rest : μ) (consumer : σ) (calls : List κ)
      (metrics : μ) :
      Step
        ⟨waiting, before ++ (t, .running ⟨result, now ++ later, part + rest⟩) :: after, consumer, calls, metrics⟩
        ⟨waiting, before ++ (t, .running ⟨result, later, rest⟩) :: after, consumer, calls ++ now, metrics + part⟩
  | finish (waiting : List τ) (before after : List (τ × Flight κ μ ε α)) (t : τ)
      (result : Except ε α) (consumer : σ) (calls : List κ) (metrics : μ) :
      Step ⟨waiting, before ++ (t, .running ⟨result, [], 0⟩) :: after, consumer, calls, metrics⟩
        ⟨waiting, before ++ (t, .finished result) :: after, consumer, calls, metrics⟩
  | yield (waiting : List τ) (flights : List (τ × Flight κ μ ε α)) (t : τ) (result : Except ε α)
      (consumer : σ) (calls : List κ) (metrics : μ) :
      Step ⟨waiting, (t, .finished result) :: flights, consumer, calls, metrics⟩
        ⟨waiting, flights, (consume consumer result).1, calls, metrics + (consume consumer result).2⟩

/-- The states of all runs over `tasks`. -/
def Runs (tasks : List τ) (consumer : σ) (s : Executor τ κ μ ε α σ) : Prop :=
  Relation.ReflTransGen (Step run consume limit) (init tasks consumer) s

/-- Nothing is left to start or in flight. -/
def Drained (s : Executor τ κ μ ε α σ) : Prop := s.waiting = [] ∧ s.inFlight = []

/-- The tasks one after the other: the consumer, the calls and the counters at the end. -/
def sequential (consumer : σ) : List τ → σ × List κ × μ
  | [] => (consumer, [], 0)
  | t :: rest =>
    let (consumer', m) := consume consumer (run t).result
    let (consumer'', calls, metrics) := sequential consumer' rest
    (consumer'', (run t).calls ++ calls, (run t).metrics + m + metrics)

section Invariant

variable {run consume limit}

lemma sequential_append (consumer : σ) (a b : List τ) : sequential run consume consumer (a ++ b) =
    let ra := sequential run consume consumer a
    let rb := sequential run consume ra.1 b
    (rb.1, ra.2.1 ++ rb.2.1, ra.2.2 + rb.2.2) := by
  induction a generalizing consumer with
  | nil => simp [sequential]
  | cons t a ih => simp [sequential, ih, List.append_assoc, add_assoc]

lemma sequential_metrics_mem (S : AddSubmonoid μ) (hrun : ∀ t, (run t).metrics ∈ S)
    (hconsume : ∀ s r, (consume s r).2 ∈ S) (consumer : σ) (tasks : List τ) :
    (sequential run consume consumer tasks).2.2 ∈ S := by
  induction tasks generalizing consumer with
  | nil => exact S.zero_mem
  | cons t rest ih => exact S.add_mem (S.add_mem (hrun t) (hconsume _ _)) (ih _)

variable (run consume) in
/-- The invariant of a run. The tasks yielded so far are the first ones; with what is still to be
done by those in flight, the calls and counters are theirs and those of the yielded tasks. -/
structure Invariant (tasks : List τ) (consumer : σ) (yielded : List τ) (s : Executor τ κ μ ε α σ) :
    Prop where
  order : tasks = yielded ++ s.inFlight.map Prod.fst ++ s.waiting
  consumer_eq : s.consumer = (sequential run consume consumer yielded).1
  results : ∀ f ∈ s.inFlight, f.2.result = (run f.1).result
  calls_perm : (s.calls ++ s.inFlight.flatMap (fun f => f.2.restCalls)).Perm
    ((sequential run consume consumer yielded).2.1 ++ s.inFlight.flatMap (fun f => (run f.1).calls))
  metrics_eq : s.metrics + (s.inFlight.map (fun f => f.2.restMetrics)).sum =
    (sequential run consume consumer yielded).2.2 + (s.inFlight.map (fun f => (run f.1).metrics)).sum

lemma Invariant.init (tasks : List τ) (consumer : σ) :
    Invariant run consume tasks consumer [] (Executor.init tasks consumer) where
  order := by simp [Executor.init]
  consumer_eq := rfl
  results := by simp [Executor.init]
  calls_perm := by simp [Executor.init, sequential]
  metrics_eq := by simp [Executor.init, sequential]

omit [AddCommMonoid μ] in
/-- What holds of all the tasks in flight still does when one of them goes on and keeps it. -/
lemma forall_replaced {P : τ × Flight κ μ ε α → Prop} {before after : List (τ × Flight κ μ ε α)}
    {old new : τ × Flight κ μ ε α} (h : ∀ f ∈ before ++ old :: after, P f) (hkeep : P old → P new) :
    ∀ f ∈ before ++ new :: after, P f := by
  rw [List.forall_mem_append, List.forall_mem_cons] at h ⊢
  exact ⟨h.1, hkeep h.2.1, h.2.2⟩

/-- Every step keeps the invariant; a yield adds its task to those yielded. -/
lemma Invariant.step {tasks : List τ} {consumer : σ} {yielded : List τ} {s s' : Executor τ κ μ ε α σ}
    (h : Invariant run consume tasks consumer yielded s)
    (hstep : Step run consume limit s s') :
    ∃ yielded', Invariant run consume tasks consumer yielded' s' := by
  cases hstep with
  | start t rest flights consumer' calls metrics hlt =>
    refine ⟨yielded, ?_, h.consumer_eq, ?_, ?_, ?_⟩
    · simpa using h.order
    · intro f hf
      rcases List.mem_append.mp hf with hf | hf
      · exact h.results f hf
      · rw [List.mem_singleton] at hf
        subst hf
        rfl
    · simpa [List.flatMap_append] using h.calls_perm.append_right (run t).calls
    · have hm := congrArg (· + (run t).metrics) h.metrics_eq
      simpa [add_assoc] using hm
  | progress waiting before after t result now later part rest consumer' calls metrics =>
    refine ⟨yielded, ?_, h.consumer_eq, ?_, ?_, ?_⟩
    · simpa using h.order
    · exact forall_replaced h.results id
    · refine List.Perm.trans ?_ (by simpa using h.calls_perm)
      simp only [List.flatMap_append, List.flatMap_cons, Flight.restCalls_running, List.append_assoc,
        List.perm_append_left_iff]
      exact List.perm_append_comm_assoc _ _ _
    · have hm := h.metrics_eq
      simp only [List.map_append, List.sum_append, List.map_cons, List.sum_cons,
        Flight.restMetrics_running] at hm ⊢
      rw [← hm]
      abel
  | finish waiting before after t result consumer' calls metrics =>
    refine ⟨yielded, ?_, h.consumer_eq, ?_, ?_, ?_⟩
    · simpa using h.order
    · exact forall_replaced h.results id
    · simpa [List.flatMap_append] using h.calls_perm
    · simpa using h.metrics_eq
  | yield waiting flights t result consumer' calls metrics =>
    have hresult : result = (run t).result := h.results (t, .finished result) (by simp)
    have hconsumer : consumer' = (sequential run consume consumer yielded).1 := h.consumer_eq
    refine ⟨yielded ++ [t], ?_, ?_, ?_, ?_, ?_⟩
    · simpa using h.order
    · simp [sequential_append, sequential, hconsumer, hresult]
    · intro f hf
      exact h.results f (List.mem_cons_of_mem _ hf)
    · simpa [sequential_append, sequential, List.append_assoc] using h.calls_perm
    · have hm := h.metrics_eq
      simp only [List.map_cons, List.sum_cons, Flight.restMetrics_finished, zero_add] at hm
      simp only [sequential_append, sequential, hconsumer, hresult, add_zero]
      rw [add_right_comm, hm]
      abel

/-- The invariant along a run. -/
theorem Runs.invariant {tasks : List τ} {consumer : σ} {s : Executor τ κ μ ε α σ}
    (h : Runs run consume limit tasks consumer s) :
    ∃ yielded, Invariant run consume tasks consumer yielded s := by
  induction h with
  | refl => exact ⟨[], .init tasks consumer⟩
  | tail _ hstep ih =>
    obtain ⟨yielded, hinv⟩ := ih
    exact hinv.step hstep

/-- A run that has drained has done what the tasks do one after the other. -/
theorem Runs.drained {tasks : List τ} {consumer : σ} {s : Executor τ κ μ ε α σ}
    (h : Runs run consume limit tasks consumer s) (hdrained : s.Drained) :
    s.consumer = (sequential run consume consumer tasks).1 ∧
      s.calls.Perm (sequential run consume consumer tasks).2.1 ∧
      s.metrics = (sequential run consume consumer tasks).2.2 := by
  obtain ⟨yielded, hinv⟩ := h.invariant
  obtain ⟨hwaiting, hflights⟩ := hdrained
  have horder := hinv.order
  have hcalls := hinv.calls_perm
  have hmetrics := hinv.metrics_eq
  simp only [hwaiting, hflights, List.map_nil, List.append_nil, List.flatMap_nil, List.sum_nil,
    add_zero] at horder hcalls hmetrics
  subst horder
  exact ⟨hinv.consumer_eq, hcalls, hmetrics⟩

variable (run consume limit) in
/-- The task at the front can always finish and be yielded. -/
lemma finish_front (waiting : List τ) (f : τ × Flight κ μ ε α) (flights : List (τ × Flight κ μ ε α))
    (consumer : σ) (calls : List κ) (metrics : μ) : ∃ s', s'.waiting = waiting ∧ s'.inFlight = flights ∧
      s'.calls = calls ++ f.2.restCalls ∧
      Relation.ReflTransGen (Step run consume limit) ⟨waiting, f :: flights, consumer, calls, metrics⟩ s' := by
  obtain ⟨t, flight⟩ := f
  cases flight with
  | finished result =>
    exact ⟨_, rfl, rfl, (List.append_nil calls).symm, .single (.yield waiting flights t result consumer calls metrics)⟩
  | running rest =>
    have hprogress : Step run consume limit
        ⟨waiting, (t, .running rest) :: flights, consumer, calls, metrics⟩
        ⟨waiting, (t, .running ⟨rest.result, [], 0⟩) :: flights, consumer, calls ++ rest.calls,
          metrics + rest.metrics⟩ := by
      have hall : Step run consume limit _ _ := Step.progress waiting [] flights t rest.result rest.calls []
        rest.metrics 0 consumer calls metrics
      simpa using hall
    have hfinish : Step run consume limit _ _ := Step.finish waiting [] flights t rest.result consumer
      (calls ++ rest.calls) (metrics + rest.metrics)
    exact ⟨_, rfl, rfl, rfl, .head hprogress (.head hfinish (.single (.yield _ _ _ _ _ _ _)))⟩

variable (run consume) in
/-- No run gets stuck: with room for one task, it can always drain. -/
theorem can_drain (hlimit : 0 < limit) (s : Executor τ κ μ ε α σ) :
    ∃ s', Relation.ReflTransGen (Step run consume limit) s s' ∧ s'.Drained := by
  obtain ⟨n, hn⟩ : ∃ n, n = s.waiting.length + s.inFlight.length := ⟨_, rfl⟩
  induction n generalizing s with
  | zero => exact ⟨s, .refl, List.length_eq_zero_iff.mp (by omega), List.length_eq_zero_iff.mp (by omega)⟩
  | succ n ih =>
    obtain ⟨waiting, flights, consumer, calls, metrics⟩ := s
    cases flights with
    | cons f flights =>
      obtain ⟨s', hwaiting, hflights, -, hrun⟩ :=
        finish_front run consume limit waiting f flights consumer calls metrics
      obtain ⟨s'', hrest, hdrained⟩ := ih s' (by simp [hwaiting, hflights] at hn ⊢; omega)
      exact ⟨s'', hrun.trans hrest, hdrained⟩
    | nil =>
      cases waiting with
      | nil => simp at hn
      | cons t waiting =>
        have hstart : Step run consume limit ⟨t :: waiting, [], consumer, calls, metrics⟩
            ⟨waiting, [(t, .running (run t))], consumer, calls, metrics⟩ := by
          exact Step.start t waiting [] consumer calls metrics hlimit
        obtain ⟨s', hwaiting, hflights, -, hrun⟩ := finish_front run consume limit waiting
          (t, .running (run t)) [] consumer calls metrics
        obtain ⟨s'', hrest, hdrained⟩ := ih s' (by simp [hwaiting, hflights] at hn ⊢; omega)
        exact ⟨s'', .head hstart (hrun.trans hrest), hdrained⟩

end Invariant

end Executor

end CloudTrailFilter
