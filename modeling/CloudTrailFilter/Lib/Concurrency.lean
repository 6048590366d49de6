import Mathlib.Tactic

/-!
# Interleaved parties and bounded channels

A system of parties takes one enabled action after the other; which one is free, so a
property of every reachable state holds under every interleaving. Parties talk over bounded
channels with one sender and one receiver. A channel remembers what was received, which
lets the invariants of a party speak about its whole past.
-/

namespace CloudTrailFilter.Concurrency

section Runs
variable {State Action : Type*} (step : State → Action → Option State) (start : State)

/-- The states of all runs from `start`. -/
inductive Reachable : State → Prop where
  | start : Reachable start
  | step {s s' : State} (action : Action) : Reachable s → step s action = some s' → Reachable s'

/-- The state after a sequence of actions, if each is enabled in its turn. -/
def runActions : State → List Action → Option State
  | s, [] => some s
  | s, action :: rest => (step s action).bind (runActions · rest)

variable {step start}

/-- What holds at the start and across every action holds in every reachable state. -/
theorem Reachable.invariant {Inv : State → Prop} (hstart : Inv start)
    (hstep : ∀ s action s', Inv s → step s action = some s' → Inv s') {s : State}
    (h : Reachable step start s) : Inv s := by
  induction h with
  | start => exact hstart
  | step action _ hs ih => exact hstep _ action _ ih hs

lemma Reachable.run {s s' : State} (h : Reachable step start s) (actions : List Action)
    (hrun : runActions step s actions = some s') : Reachable step start s' := by
  induction actions generalizing s with
  | nil =>
    cases hrun
    exact h
  | cons action rest ih =>
    obtain ⟨mid, hmid, hrest⟩ := Option.bind_eq_some_iff.mp hrun
    exact ih (.step action h hmid) hrest

end Runs

section Channels
variable {α : Type*} {capacity : ℕ}

/-- A bounded channel between one sender and one receiver, either of which may be gone. -/
structure Channel (α : Type*) (capacity : ℕ) where
  received : List α
  queue : List α
  senderGone : Bool
  receiverGone : Bool
  bounded : queue.length ≤ capacity

inductive Sent (α : Type*) (capacity : ℕ) where
  | blocked
  | refused
  | sent (channel : Channel α capacity)

inductive Received (α : Type*) (capacity : ℕ) where
  | blocked
  | closed
  | got (message : α) (channel : Channel α capacity)

namespace Channel

def empty : Channel α capacity := ⟨[], [], false, false, Nat.zero_le _⟩

/-- Everything the sender got through. -/
def log (ch : Channel α capacity) : List α := ch.received ++ ch.queue

/-- A send waits for room and fails once the receiver is gone. -/
def send (ch : Channel α capacity) (message : α) : Sent α capacity :=
  if ch.receiverGone then .refused
  else if h : ch.queue.length < capacity then
    .sent { ch with queue := ch.queue ++ [message], bounded := by simpa using h }
  else .blocked

/-- A receive waits for a message and ends once the sender is gone and the queue is empty. -/
def recv (ch : Channel α capacity) : Received α capacity :=
  match h : ch.queue with
  | message :: rest =>
    .got message
      { ch with
        received := ch.received ++ [message]
        queue := rest
        bounded := by have := ch.bounded; rw [h] at this; simp at this; omega }
  | [] => if ch.senderGone then .closed else .blocked

def dropSender (ch : Channel α capacity) : Channel α capacity := { ch with senderGone := true }

def dropReceiver (ch : Channel α capacity) : Channel α capacity := { ch with receiverGone := true }

section Drop
variable (ch : Channel α capacity)

@[simp] lemma dropSender_log : ch.dropSender.log = ch.log := rfl
@[simp] lemma dropSender_received : ch.dropSender.received = ch.received := rfl
@[simp] lemma dropSender_senderGone : ch.dropSender.senderGone = true := rfl
@[simp] lemma dropSender_receiverGone : ch.dropSender.receiverGone = ch.receiverGone := rfl
@[simp] lemma dropReceiver_log : ch.dropReceiver.log = ch.log := rfl
@[simp] lemma dropReceiver_received : ch.dropReceiver.received = ch.received := rfl
@[simp] lemma dropReceiver_senderGone : ch.dropReceiver.senderGone = ch.senderGone := rfl
@[simp] lemma dropReceiver_receiverGone : ch.dropReceiver.receiverGone = true := rfl

end Drop

/-- What a sent message changes: the log grows by it. -/
structure Grew (ch : Channel α capacity) (message : α) (ch' : Channel α capacity) : Prop where
  log : ch'.log = ch.log ++ [message]
  received : ch'.received = ch.received
  senderGone : ch'.senderGone = ch.senderGone
  listening : ch.receiverGone = false
  receiverGone : ch'.receiverGone = false

/-- What a received message changes: it moves from the queue to what was received. -/
structure Took (ch : Channel α capacity) (message : α) (ch' : Channel α capacity) : Prop where
  log : ch'.log = ch.log
  received : ch'.received = ch.received ++ [message]
  senderGone : ch'.senderGone = ch.senderGone
  receiverGone : ch'.receiverGone = ch.receiverGone

variable {ch ch' : Channel α capacity} {message : α}

lemma grew_of_send (h : ch.send message = .sent ch') : ch.Grew message ch' := by
  unfold send at h
  split_ifs at h with hgone hroom
  cases h
  have hlive : ch.receiverGone = false := by simpa using hgone
  exact ⟨by simp [Channel.log], rfl, rfl, hlive, hlive⟩

lemma gone_of_refused (h : ch.send message = .refused) : ch.receiverGone = true := by
  unfold send at h
  split_ifs at h with hgone
  exact hgone

lemma took_of_recv (h : ch.recv = .got message ch') : ch.Took message ch' := by
  unfold recv at h
  split at h
  · rename_i head rest hqueue
    cases h
    exact ⟨by simp [Channel.log, hqueue], rfl, rfl, rfl⟩
  · split_ifs at h

/-- A receive that ends has seen everything that was sent. -/
lemma drained_of_closed (h : ch.recv = .closed) : ch.senderGone = true ∧ ch.received = ch.log := by
  unfold recv at h
  split at h
  · cases h
  · rename_i hqueue
    split_ifs at h with hgone
    exact ⟨hgone, by simp [Channel.log, hqueue]⟩

/-- A receive that waits has an empty queue and a sender to wait for. -/
lemma empty_of_blocked (h : ch.recv = .blocked) : ch.queue = [] ∧ ch.senderGone = false := by
  unfold recv at h
  split at h
  · cases h
  · rename_i hqueue
    split_ifs at h with hgone
    exact ⟨hqueue, by simpa using hgone⟩

/-- A sender does not wait for a receiver that is gone. -/
lemma send_of_gone (h : ch.receiverGone = true) (message : α) : ch.send message ≠ .blocked := by
  simp [send, h]

/-- A sender does not wait for a receiver that has nothing to receive. -/
lemma send_of_empty (hroom : 0 < capacity) (h : ch.queue = []) (message : α) :
    ch.send message ≠ .blocked := by
  unfold send
  split_ifs with hgone hlt
  · simp
  · simp
  · simp [h, hroom] at hlt

lemma received_prefix_log (ch : Channel α capacity) : ch.received <+: ch.log := List.prefix_append _ _

lemma Took.prefix_log (h : ch.Took message ch') : ch.received ++ [message] <+: ch.log := by
  rw [← h.received, ← h.log]
  exact ch'.received_prefix_log

/-- Nothing is on its way, and both ends are there. -/
structure Idle (ch : Channel α capacity) : Prop where
  queue : ch.queue = []
  senderGone : ch.senderGone = false
  receiverGone : ch.receiverGone = false

lemma idle_empty : (empty : Channel α capacity).Idle := ⟨rfl, rfl, rfl⟩

variable (message) in
lemma Idle.send (h : ch.Idle) (hroom : 0 < capacity) :
    ∃ ch', ch.send message = .sent ch' ∧ ch'.queue = [message] := by
  obtain ⟨hqueue, -, hlistening⟩ := h
  have hlt : ch.queue.length < capacity := by simpa [hqueue] using hroom
  refine ⟨_, by rw [Channel.send, if_neg (by simp [hlistening]), dif_pos hlt], ?_⟩
  simp [hqueue]

lemma recv_of_cons {rest : List α} (h : ch.queue = message :: rest) :
    ∃ ch', ch.recv = .got message ch' ∧ ch'.queue = rest := by
  unfold recv
  split
  · rename_i head tail hqueue
    rw [h] at hqueue
    cases hqueue
    exact ⟨_, rfl, rfl⟩
  · rename_i hqueue
    rw [h] at hqueue
    cases hqueue

variable (message) in
/-- A message passes through an idle channel. -/
lemma Idle.pass (h : ch.Idle) (hroom : 0 < capacity) :
    ∃ mid ch', ch.send message = .sent mid ∧ mid.recv = .got message ch' ∧ ch'.Idle := by
  obtain ⟨mid, hsend, hqueue⟩ := h.send message hroom
  obtain ⟨ch', hrecv, hrest⟩ := recv_of_cons hqueue
  have hgrew := grew_of_send hsend
  have htook := took_of_recv hrecv
  exact ⟨mid, ch', hsend, hrecv, hrest, htook.senderGone.trans (hgrew.senderGone.trans h.senderGone),
    htook.receiverGone.trans hgrew.receiverGone⟩

section Held
variable (weight : α → ℕ)

/-- The weight of what is in the channel and of what its receiver may still work on, the message it
has received last. -/
def held (ch : Channel α capacity) : ℕ :=
  (ch.queue.map weight).sum + (ch.received.getLast?.map weight).getD 0

/-- No message that was ever sent weighs more than `limit`. -/
def Below (limit : ℕ) (ch : Channel α capacity) : Prop := ∀ message ∈ ch.log, weight message ≤ limit

variable {weight} {limit : ℕ}

lemma Below.grew (h : ch.Below weight limit) (hg : ch.Grew message ch') (hm : weight message ≤ limit) :
    ch'.Below weight limit := by
  intro m hmem
  rw [hg.log, List.mem_append, List.mem_singleton] at hmem
  rcases hmem with hmem | rfl
  · exact h m hmem
  · exact hm

lemma Below.took (h : ch.Below weight limit) (ht : ch.Took message ch') : ch'.Below weight limit := by
  intro m hmem
  rw [ht.log] at hmem
  exact h m hmem

/-- What is held is bounded by the capacity, whatever passes through. -/
lemma Below.held_le (h : ch.Below weight limit) : ch.held weight ≤ (capacity + 1) * limit := by
  have hqueue : (ch.queue.map weight).sum ≤ ch.queue.length * limit := by
    have := List.sum_le_card_nsmul (ch.queue.map weight) limit (by
      intro w hw
      obtain ⟨m, hm, rfl⟩ := List.mem_map.mp hw
      exact h m (List.mem_append_right _ hm))
    simpa using this
  have hlast : (ch.received.getLast?.map weight).getD 0 ≤ limit := by
    cases hget : ch.received.getLast? with
    | none => exact Nat.zero_le _
    | some m => exact h m (List.mem_append_left _ (List.mem_of_getLast? hget))
  calc ch.held weight ≤ ch.queue.length * limit + limit := Nat.add_le_add hqueue hlast
    _ ≤ capacity * limit + limit := Nat.add_le_add_right (Nat.mul_le_mul_right limit ch.bounded) _
    _ = (capacity + 1) * limit := (Nat.succ_mul capacity limit).symm

end Held

end Channel

end Channels

end CloudTrailFilter.Concurrency
