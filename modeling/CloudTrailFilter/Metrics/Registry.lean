import CloudTrailFilter.Model
import CloudTrailFilter.Lib.Concurrency
import CloudTrailFilter.Lib.Decimal
import CloudTrailFilter.Lib.Account

/-!
# The process-lived counters

The atomic counters that every invocation of a process shares. An increment is one atomic
operation; a snapshot is one for each field it reads, so increments and other snapshots come
between them. The counters are words that wrap around; the same operations on natural numbers are
what they are to stand for.
-/

namespace CloudTrailFilter

/-- The atomic counters, in the order in which a snapshot reads them. -/
inductive Counter where
  | objectsProcessed
  | objectsSkipped
  | objectsFailed
  | objectsExcludedByKey
  | unrecognizedObjects
  | objectsCopiedUnparsed
  | recordsIn
  | recordsKept
  | recordsDropped
  | bytesIn
  | bytesOut
  | configLoadErrors
  | parseErrors
  | decodeErrors
  | itemsWithoutObjects
deriving DecidableEq, Repr

def Counter.all : List Counter :=
  [.objectsProcessed, .objectsSkipped, .objectsFailed, .objectsExcludedByKey, .unrecognizedObjects,
    .objectsCopiedUnparsed, .recordsIn, .recordsKept, .recordsDropped, .bytesIn, .bytesOut,
    .configLoadErrors, .parseErrors, .decodeErrors, .itemsWithoutObjects]

lemma Counter.mem_all (c : Counter) : c ∈ Counter.all := by cases c <;> decide

lemma Counter.nodup_all : Counter.all.Nodup := by decide

section Registry
variable {N : Type}

/-- The registry, `Metrics` in the source, with counters in `N`. The entries of the map of rule
drops have distinct names and no order. -/
structure AtomicMetrics (N : Type) where
  coldStartEmitted : Bool
  counter : Counter → N
  ruleDrops : List (String × N)

/-- What a snapshot publishes. -/
structure MetricSnapshot (N : Type) where
  coldStart : Bool
  counter : Counter → N
  ruleDrops : List (String × N)

/-- A call of one of the `add_*` methods or of `record_rule_drops`. -/
inductive Increment where
  | add (counter : Counter) (n : Word 64)
  | ruleDrops (ruleName : String) (n : Word 64)
deriving DecidableEq

variable [AddCommMonoid N] (num : Word 64 → N)

def AtomicMetrics.default : AtomicMetrics N := ⟨false, fun _ => 0, []⟩

/-- The entry of a rule, made at zero if there is none, grown by `n`. -/
def bumpEntry (ruleName : String) (n : N) : List (String × N) → List (String × N)
  | [] => [(ruleName, 0 + n)]
  | (name, drops) :: rest =>
    if name = ruleName then (name, drops + n) :: rest else (name, drops) :: bumpEntry ruleName n rest

def AtomicMetrics.recordRuleDrops (m : AtomicMetrics N) (ruleName : String) (n : Word 64) : AtomicMetrics N :=
  if n = 0 then m else { m with ruleDrops := bumpEntry ruleName (num n) m.ruleDrops }

def AtomicMetrics.fetchAdd (m : AtomicMetrics N) (c : Counter) (n : Word 64) : AtomicMetrics N :=
  { m with counter := Function.update m.counter c (m.counter c + num n) }

def AtomicMetrics.increment (m : AtomicMetrics N) : Increment → AtomicMetrics N
  | .add c n => m.fetchAdd num c n
  | .ruleDrops ruleName n => m.recordRuleDrops num ruleName n

/-- The entries by name. The names are distinct, so the drops of a rule do not decide. -/
def sortDrops (drops : List (String × N)) : List (String × N) :=
  drops.mergeSort (fun a b => decide (a.1 ≤ b.1))

def AtomicMetrics.snapshotAndReset (m : AtomicMetrics N) : MetricSnapshot N × AtomicMetrics N :=
  (⟨!m.coldStartEmitted, m.counter, sortDrops m.ruleDrops⟩, ⟨true, fun _ => 0, []⟩)

end Registry

section Calls
variable {N : Type} [AddCommMonoid N]

/-- A call of `snapshot_and_reset` under way: the drained drops, if it came so far, the fields read
and those still to read. -/
structure SnapshotCall (N : Type) where
  coldStart : Bool
  drained : Option (List (String × N))
  read : List (Counter × N)
  pending : List Counter

/-- The next atomic operation of a call. -/
def SnapshotCall.next (call : SnapshotCall N) (m : AtomicMetrics N) :
    Option (SnapshotCall N × AtomicMetrics N) :=
  match call.drained, call.pending with
  | none, _ => some ({ call with drained := some (sortDrops m.ruleDrops) }, { m with ruleDrops := [] })
  | some _, [] => none
  | some _, c :: rest =>
    some ({ call with read := call.read ++ [(c, m.counter c)], pending := rest },
      { m with counter := Function.update m.counter c 0 })

/-- The snapshot of a call that has read every field. -/
def SnapshotCall.finish (call : SnapshotCall N) : Option (MetricSnapshot N) :=
  match call.drained, call.pending with
  | some drops, [] => some ⟨call.coldStart, fun c => amountOf c call.read, drops⟩
  | _, _ => none

/-- The registry between its users: the calls of `snapshot_and_reset` in the order they began, and
every increment so far. -/
structure Shared (N : Type) where
  metrics : AtomicMetrics N
  calls : List (SnapshotCall N)
  log : List Increment

inductive MetricsAction where
  | increment (increment : Increment)
  /-- A call of `snapshot_and_reset` begins and swaps `cold_start_emitted`. -/
  | snapshot
  | resume (call : ℕ)

namespace Shared
variable (num : Word 64 → N)

def start : Shared N := ⟨.default, [], []⟩

def step (s : Shared N) : MetricsAction → Option (Shared N)
  | .increment i => some { s with metrics := s.metrics.increment num i, log := s.log ++ [i] }
  | .snapshot =>
    some
      { s with
        metrics := { s.metrics with coldStartEmitted := true }
        calls := s.calls ++ [⟨!s.metrics.coldStartEmitted, none, [], Counter.all⟩] }
  | .resume i =>
    match s.calls[i]? with
    | none => none
    | some call =>
      (call.next s.metrics).map (fun next => { s with metrics := next.2, calls := s.calls.set i next.1 })

end Shared

end Calls

section Account
variable {N : Type}

/-- What an increment goes to: a counter, or the drops of a rule. -/
inductive Cell where
  | counter (c : Counter)
  | rule (ruleName : String)
deriving DecidableEq

lemma sortDrops_perm (drops : List (String × N)) : (sortDrops drops).Perm drops := List.mergeSort_perm _ _

variable [AddCommMonoid N]

def AtomicMetrics.held (m : AtomicMetrics N) : Cell → N
  | .counter c => m.counter c
  | .rule ruleName => amountOf ruleName m.ruleDrops

def MetricSnapshot.amount (snapshot : MetricSnapshot N) : Cell → N
  | .counter c => snapshot.counter c
  | .rule ruleName => amountOf ruleName snapshot.ruleDrops

/-- What a call has taken out of the registry so far. -/
def SnapshotCall.taken (call : SnapshotCall N) : Cell → N
  | .counter c => amountOf c call.read
  | .rule ruleName => amountOf ruleName (call.drained.getD [])

def Increment.cell : Increment → Cell
  | .add c _ => .counter c
  | .ruleDrops ruleName _ => .rule ruleName

def Increment.amount : Increment → Word 64
  | .add _ n => n
  | .ruleDrops _ n => n

lemma amountOf_bumpEntry (key ruleName : String) (n : N) (drops : List (String × N)) :
    amountOf key (bumpEntry ruleName n drops) = amountOf key drops + if key = ruleName then n else 0 := by
  induction drops with
  | nil => simp [bumpEntry, amountOf_cons, eq_comm]
  | cons entry rest ih =>
    obtain ⟨name, drops⟩ := entry
    by_cases hname : name = ruleName
    · subst hname
      by_cases hkey : name = key
      · subst hkey
        simp [bumpEntry, amountOf_cons, add_right_comm]
      · have hne : key ≠ name := fun h => hkey h.symm
        simp [bumpEntry, amountOf_cons, hkey, hne]
    · simp [bumpEntry, amountOf_cons, hname, ih, add_assoc]

namespace Shared
variable (num : Word 64 → N)

/-- The registry as an account: every call has taken what it has read. -/
def account (s : Shared N) : Account Cell N where
  held := s.metrics.held
  taken cell := (s.calls.map (fun call => call.taken cell)).sum
  added cell := amountOf cell (s.log.map (fun i => (i.cell, num i.amount)))

lemma sum_map_set {α : Type*} {f : α → N} {a b : α} {d : N} (hab : f b = f a + d) {l : List α} {i : ℕ}
    (hi : l[i]? = some a) : ((l.set i b).map f).sum = (l.map f).sum + d := by
  induction l generalizing i with
  | nil => simp at hi
  | cons x l ih =>
    cases i with
    | zero =>
      obtain rfl : x = a := by simpa using hi
      simp [hab, add_right_comm]
    | succ i =>
      have hrest := ih (i := i) (by simpa using hi)
      simp only [List.set_cons_succ, List.map_cons, List.sum_cons, hrest, add_assoc]

variable {num} (hzero : num 0 = 0)
include hzero

lemma held_increment (m : AtomicMetrics N) (i : Increment) (cell : Cell) :
    (m.increment num i).held cell = m.held cell + if cell = i.cell then num i.amount else 0 := by
  cases i with
  | add c n =>
    cases cell with
    | counter c' =>
      by_cases h : c' = c
      · subst h
        simp [AtomicMetrics.increment, AtomicMetrics.fetchAdd, AtomicMetrics.held, Increment.cell, Increment.amount]
      · simp [AtomicMetrics.increment, AtomicMetrics.fetchAdd, AtomicMetrics.held, Increment.cell, h]
    | rule ruleName => simp [AtomicMetrics.increment, AtomicMetrics.fetchAdd, AtomicMetrics.held, Increment.cell]
  | ruleDrops ruleName n =>
    by_cases hn : n = 0
    · subst hn
      simp [AtomicMetrics.increment, AtomicMetrics.recordRuleDrops, Increment.amount, hzero]
    · cases cell with
      | counter c => simp [AtomicMetrics.increment, AtomicMetrics.recordRuleDrops, hn, AtomicMetrics.held, Increment.cell]
      | rule name =>
        simp [AtomicMetrics.increment, AtomicMetrics.recordRuleDrops, hn, AtomicMetrics.held, Increment.cell,
          Increment.amount, amountOf_bumpEntry]

omit hzero in
/-- An atomic operation of a snapshot takes away what some cells hold. -/
lemma taken_next {call call' : SnapshotCall N} {m m' : AtomicMetrics N} (h : call.next m = some (call', m')) :
    call'.coldStart = call.coldStart ∧ m'.coldStartEmitted = m.coldStartEmitted ∧
      ∃ cells : Cell → Bool, ∀ cell, call'.taken cell = call.taken cell + (if cells cell then m.held cell else 0) ∧
        m'.held cell = if cells cell then 0 else m.held cell := by
  unfold SnapshotCall.next at h
  split at h
  · rename_i hdrained
    cases h
    refine ⟨rfl, rfl, fun cell => match cell with | .rule _ => true | .counter _ => false, ?_⟩
    intro cell
    cases cell with
    | counter c => simp [SnapshotCall.taken, AtomicMetrics.held]
    | rule ruleName =>
      simp [SnapshotCall.taken, AtomicMetrics.held, hdrained, amountOf_perm (sortDrops_perm m.ruleDrops)]
  · cases h
  · rename_i c rest hdrained hpending
    cases h
    refine ⟨rfl, rfl, fun cell => decide (cell = .counter c), ?_⟩
    intro cell
    cases cell with
    | counter c' =>
      by_cases hc : c' = c
      · subst hc
        simp [SnapshotCall.taken, AtomicMetrics.held, amountOf_append, amountOf_cons]
      · have hne : c ≠ c' := fun h => hc h.symm
        simp [SnapshotCall.taken, AtomicMetrics.held, amountOf_append, amountOf_cons, hc, hne]
    | rule ruleName => simp [SnapshotCall.taken, AtomicMetrics.held]

/-- Every action is one operation of the account, or none of it. -/
lemma account_step {s s' : Shared N} {action : MetricsAction} (h : s.step num action = some s') :
    s'.account num = s.account num ∨ ∃ entry, s'.account num = (s.account num).post entry := by
  cases action with
  | increment i =>
    cases h
    refine .inr ⟨.add i.cell (num i.amount), ?_⟩
    simp only [account, Account.post, Account.mk.injEq, true_and]
    constructor
    · funext cell
      exact held_increment hzero s.metrics i cell
    · funext cell
      simp [amountOf_append, amountOf_cons, eq_comm]
  | snapshot =>
    cases h
    refine .inl ?_
    simp only [account, Account.mk.injEq, and_true]
    constructor
    · funext cell
      cases cell <;> rfl
    · funext cell
      cases cell <;> simp [SnapshotCall.taken]
  | resume i =>
    simp only [step] at h
    cases hcall : s.calls[i]? with
    | none => simp [hcall] at h
    | some call =>
      rw [hcall] at h
      obtain ⟨⟨call', m'⟩, hnext, rfl⟩ := Option.map_eq_some_iff.mp h
      obtain ⟨-, -, cells, hcells⟩ := taken_next hnext
      refine .inr ⟨.take cells, ?_⟩
      simp only [account, Account.post, Account.mk.injEq, and_true]
      constructor
      · funext cell
        exact (hcells cell).2
      · funext cell
        exact sum_map_set (f := fun call => call.taken cell) (hcells cell).1 hcall

/-- No increment is lost and none is published twice, however the users of the registry interleave. -/
theorem balanced {s : Shared N} (h : Concurrency.Reachable (step num) start s) : (s.account num).Balanced := by
  refine Account.Balanced.reachable (fun s : Shared N => s.account num) ?_ (fun _ _ _ => account_step hzero) h
  intro cell
  cases cell <;> exact add_zero 0

end Shared

end Account

section Words
variable {N N' : Type} [AddCommMonoid N] [AddCommMonoid N'] (φ : N →+ N')

def mapDrops (drops : List (String × N)) : List (String × N') := drops.map (Prod.map id φ)

def AtomicMetrics.map (m : AtomicMetrics N) : AtomicMetrics N' :=
  ⟨m.coldStartEmitted, fun c => φ (m.counter c), mapDrops φ m.ruleDrops⟩

def SnapshotCall.map (call : SnapshotCall N) : SnapshotCall N' :=
  ⟨call.coldStart, call.drained.map (mapDrops φ), call.read.map (Prod.map id φ), call.pending⟩

def Shared.map (s : Shared N) : Shared N' := ⟨s.metrics.map φ, s.calls.map (SnapshotCall.map φ), s.log⟩

lemma mapDrops_bumpEntry (ruleName : String) (n : N) (drops : List (String × N)) :
    mapDrops φ (bumpEntry ruleName n drops) = bumpEntry ruleName (φ n) (mapDrops φ drops) := by
  induction drops with
  | nil => simp [bumpEntry, mapDrops]
  | cons entry rest ih =>
    obtain ⟨name, drops⟩ := entry
    have hmap : mapDrops φ ((name, drops) :: rest) = (name, φ drops) :: mapDrops φ rest := rfl
    by_cases hname : name = ruleName
    · simp [bumpEntry, hname, mapDrops]
    · simp only [bumpEntry, hname, if_false, hmap, ← ih]
      rfl

lemma sortDrops_mapDrops (drops : List (String × N)) : sortDrops (mapDrops φ drops) = mapDrops φ (sortDrops drops) := by
  unfold sortDrops mapDrops
  rw [List.map_mergeSort]
  intro a _ b _
  rfl

lemma AtomicMetrics.map_increment {num : Word 64 → N} {num' : Word 64 → N'} (hnum : ∀ n, φ (num n) = num' n)
    (m : AtomicMetrics N) (i : Increment) : (m.increment num i).map φ = (m.map φ).increment num' i := by
  cases i with
  | add c n =>
    simp only [increment, fetchAdd, map, AtomicMetrics.mk.injEq, true_and, and_true]
    funext c'
    by_cases hc : c' = c
    · subst hc
      simp [hnum]
    · simp [Function.update_of_ne hc]
  | ruleDrops ruleName n =>
    by_cases hn : n = 0
    · simp [increment, recordRuleDrops, hn]
    · simp [increment, recordRuleDrops, hn, map, mapDrops_bumpEntry, hnum]

lemma SnapshotCall.map_next (call : SnapshotCall N) (m : AtomicMetrics N) :
    (call.map φ).next (m.map φ) = (call.next m).map (fun next => (next.1.map φ, next.2.map φ)) := by
  obtain ⟨coldStart, drained, read, pending⟩ := call
  cases drained with
  | none =>
    simp only [next, map, Option.map_none, AtomicMetrics.map, Option.map_some, sortDrops_mapDrops]
    rfl
  | some drops =>
    cases pending with
    | nil => rfl
    | cons c rest =>
      simp only [next, map, Option.map_some, AtomicMetrics.map, Option.some.injEq, Prod.mk.injEq,
        SnapshotCall.mk.injEq, AtomicMetrics.mk.injEq, true_and, and_true]
      refine ⟨by simp, ?_⟩
      funext c'
      by_cases hc : c' = c
      · subst hc
        simp
      · simp [Function.update_of_ne hc]

/-- A step on the images of the amounts is the image of the step. -/
lemma Shared.map_step {num : Word 64 → N} {num' : Word 64 → N'} (hnum : ∀ n, φ (num n) = num' n) (s : Shared N)
    (action : MetricsAction) : (s.map φ).step num' action = (s.step num action).map (Shared.map φ) := by
  cases action with
  | increment i => simp [step, map, AtomicMetrics.map_increment φ hnum]
  | snapshot => simp [step, map, AtomicMetrics.map, SnapshotCall.map]
  | resume i =>
    simp only [step, map, List.getElem?_map]
    cases s.calls[i]? with
    | none => rfl
    | some call =>
      simp only [Option.map_some, SnapshotCall.map_next, Option.map_map]
      congr 1
      funext next
      simp [map]

/-- The word a natural number wraps around to. -/
def word (n : ℕ) : Word 64 := Fin.ofNat _ n

def wrap : ℕ →+ Word 64 where
  toFun := word
  map_zero' := rfl
  map_add' a b := by
    ext
    simp [word, Fin.val_add]

/-- A run on words is the image of the same run on natural numbers. -/
lemma Shared.exists_exact {s : Shared (Word 64)} (h : Concurrency.Reachable (step id) start s) :
    ∃ exact : Shared ℕ, Concurrency.Reachable (step Fin.val) start exact ∧ exact.map wrap = s := by
  induction h with
  | start => exact ⟨start, .start, by simp [start, map, AtomicMetrics.map, AtomicMetrics.default, mapDrops]⟩
  | step action _ hstep ih =>
    obtain ⟨exact, hexact, rfl⟩ := ih
    have hnum : ∀ n, wrap (Fin.val n) = (id : Word 64 → Word 64) n := fun n => Fin.ofNat_val_eq_self n
    rw [map_step wrap hnum] at hstep
    obtain ⟨exact', hnext, rfl⟩ := Option.map_eq_some_iff.mp hstep
    exact ⟨exact', .step action hexact hnext, rfl⟩

end Words

end CloudTrailFilter
