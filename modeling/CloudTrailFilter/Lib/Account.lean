import CloudTrailFilter.Lib.Concurrency

/-!
# Amounts that are added and taken away

Cells hold amounts of a commutative monoid. Each operation adds to one cell, or takes away what
some cells hold and leaves them empty. In whatever order the operations come, what was taken and
what is still held make up what was added: no amount is lost and none is taken twice.

The same operations on amounts of another monoid are related by a homomorphism, which is how
amounts that wrap around are compared with amounts that do not.
-/

namespace CloudTrailFilter

/-- The sum of the amounts that a list has under a key. -/
def amountOf {κ N : Type*} [DecidableEq κ] [AddMonoid N] (key : κ) (entries : List (κ × N)) : N :=
  ((entries.filter (fun entry => entry.1 = key)).map Prod.snd).sum

section AmountOf
variable {κ N N' : Type*} [DecidableEq κ]

@[simp] lemma amountOf_nil [AddMonoid N] (key : κ) : amountOf key ([] : List (κ × N)) = 0 := rfl

lemma amountOf_append [AddMonoid N] (key : κ) (entries entries' : List (κ × N)) :
    amountOf key (entries ++ entries') = amountOf key entries + amountOf key entries' := by
  simp [amountOf]

lemma amountOf_cons [AddMonoid N] (key : κ) (entry : κ × N) (entries : List (κ × N)) :
    amountOf key (entry :: entries) = (if entry.1 = key then entry.2 else 0) + amountOf key entries := by
  by_cases h : entry.1 = key <;> simp [amountOf, h]

lemma amountOf_perm [AddCommMonoid N] {key : κ} {entries entries' : List (κ × N)} (h : entries.Perm entries') :
    amountOf key entries = amountOf key entries' :=
  ((h.filter _).map _).sum_eq

lemma amountOf_map [AddMonoid N] [AddMonoid N'] (φ : N →+ N') (key : κ) (entries : List (κ × N)) :
    amountOf key (entries.map (Prod.map id φ)) = φ (amountOf key entries) := by
  induction entries with
  | nil => simp
  | cons entry entries ih =>
    rw [List.map_cons, amountOf_cons, amountOf_cons, ih, map_add]
    by_cases h : entry.1 = key <;> simp [h]

end AmountOf

/-- What the cells hold, beside all that was taken from them and added to them. -/
structure Account (ι N : Type*) where
  held : ι → N
  taken : ι → N
  added : ι → N

namespace Account
variable {ι N : Type*}

inductive Entry (ι N : Type*) where
  | add (cell : ι) (amount : N)
  | take (cells : ι → Bool)

def post [DecidableEq ι] [AddMonoid N] (l : Account ι N) : Entry ι N → Account ι N
  | .add cell amount =>
    { l with
      held := fun i => l.held i + if i = cell then amount else 0
      added := fun i => l.added i + if i = cell then amount else 0 }
  | .take cells =>
    { l with
      held := fun i => if cells i then 0 else l.held i
      taken := fun i => l.taken i + if cells i then l.held i else 0 }

/-- What was taken and what is held make up what was added. -/
def Balanced [AddMonoid N] (l : Account ι N) : Prop := ∀ i, l.taken i + l.held i = l.added i

theorem Balanced.post [DecidableEq ι] [AddCommMonoid N] {l : Account ι N} (h : l.Balanced) (entry : Entry ι N) :
    (l.post entry).Balanced := by
  intro i
  have hi := h i
  cases entry with
  | add cell amount =>
    change l.taken i + (l.held i + _) = l.added i + _
    rw [← add_assoc, hi]
  | take cells =>
    change l.taken i + _ + (if cells i then 0 else l.held i) = l.added i
    by_cases hc : cells i = true
    · simpa [hc] using hi
    · simpa [hc] using hi

/-- A system whose every step is one operation of an account, or none, keeps the account balanced. -/
theorem Balanced.reachable [DecidableEq ι] [AddCommMonoid N] {State Action : Type*}
    {step : State → Action → Option State} {start : State} (account : State → Account ι N)
    (hstart : (account start).Balanced) (hstep : ∀ s action s', step s action = some s' →
      account s' = account s ∨ ∃ entry, account s' = (account s).post entry) {s : State}
    (h : Concurrency.Reachable step start s) : (account s).Balanced := by
  refine @Concurrency.Reachable.invariant _ _ step start (fun s => (account s).Balanced) hstart ?_ s h
  intro s action s' hs hnext
  rcases hstep s action s' hnext with heq | ⟨entry, heq⟩
  · rwa [heq]
  · rw [heq]
    exact hs.post entry

/-- Of natural numbers no more was taken than was added, and no more is held. -/
lemma Balanced.le {l : Account ι ℕ} (h : l.Balanced) (i : ι) : l.taken i ≤ l.added i ∧ l.held i ≤ l.added i := by
  have := h i
  omega

end Account

end CloudTrailFilter
