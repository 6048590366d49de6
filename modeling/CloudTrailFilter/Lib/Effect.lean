import Mathlib.Tactic

/-!
# Computations with calls and counters

A computation that may fail, calls its surroundings and publishes counters. What it has called
and published before a failure stays. The surroundings' answers are not part of it: a computation
is written for given answers.
-/

namespace CloudTrailFilter

/-- A computation with calls `κ`, counters `μ` and errors `ε`. -/
@[ext]
structure Effect (κ μ ε α : Type*) where
  result : Except ε α
  calls : List κ
  metrics : μ

namespace Effect
variable {κ μ ε : Type*} {α β : Type*} [AddMonoid μ]

def fail (error : ε) : Effect κ μ ε α := ⟨.error error, [], 0⟩

def publish (metrics : μ) : Effect κ μ ε Unit := ⟨.ok (), [], metrics⟩

def call (c : κ) : Effect κ μ ε Unit := ⟨.ok (), [c], 0⟩

/-- What the continuation adds, nothing after a failure. -/
def andThen (x : Effect κ μ ε α) (f : α → Effect κ μ ε β) : Effect κ μ ε β :=
  match x.result with
  | .ok a => ⟨(f a).result, x.calls ++ (f a).calls, x.metrics + (f a).metrics⟩
  | .error e => ⟨.error e, x.calls, x.metrics⟩

instance : Monad (Effect κ μ ε) where
  pure a := ⟨.ok a, [], 0⟩
  bind := andThen

/-- The computation with its error in another type. -/
def mapError {ε' : Type*} (g : ε → ε') (x : Effect κ μ ε α) : Effect κ μ ε' α :=
  ⟨x.result.mapError g, x.calls, x.metrics⟩

/-- The result as a value, to be matched on. -/
def attempt (x : Effect κ μ ε α) : Effect κ μ ε (Except ε α) := ⟨.ok x.result, x.calls, x.metrics⟩

section Rules
variable {κ μ ε : Type} {α β : Type} [AddMonoid μ]

@[simp] lemma pure_result (a : α) : (pure a : Effect κ μ ε α).result = .ok a := rfl
@[simp] lemma pure_calls (a : α) : (pure a : Effect κ μ ε α).calls = [] := rfl
@[simp] lemma pure_metrics (a : α) : (pure a : Effect κ μ ε α).metrics = 0 := rfl
@[simp] lemma fail_result (e : ε) : (fail e : Effect κ μ ε α).result = .error e := rfl
@[simp] lemma fail_calls (e : ε) : (fail e : Effect κ μ ε α).calls = [] := rfl
@[simp] lemma fail_metrics (e : ε) : (fail e : Effect κ μ ε α).metrics = 0 := rfl

lemma bind_of_ok {x : Effect κ μ ε α} {a : α} (h : x.result = .ok a) (f : α → Effect κ μ ε β) :
    x >>= f = ⟨(f a).result, x.calls ++ (f a).calls, x.metrics + (f a).metrics⟩ := by
  simp only [bind, andThen, h]

lemma bind_of_error {x : Effect κ μ ε α} {e : ε} (h : x.result = .error e) (f : α → Effect κ μ ε β) :
    x >>= f = ⟨.error e, x.calls, x.metrics⟩ := by
  simp only [bind, andThen, h]

@[simp] lemma pure_bind (a : α) (f : α → Effect κ μ ε β) : (pure a >>= f) = f a := by
  rw [bind_of_ok rfl]
  ext1 <;> simp

@[simp] lemma fail_bind (e : ε) (f : α → Effect κ μ ε β) :
    ((fail e : Effect κ μ ε α) >>= f) = fail e := rfl

@[simp] lemma call_bind (c : κ) (f : Unit → Effect κ μ ε β) :
    ((call c : Effect κ μ ε Unit) >>= f) = ⟨(f ()).result, c :: (f ()).calls, (f ()).metrics⟩ := by
  rw [bind_of_ok rfl]
  ext1 <;> simp [call]

@[simp] lemma publish_bind (m : μ) (f : Unit → Effect κ μ ε β) :
    ((publish m : Effect κ μ ε Unit) >>= f) = ⟨(f ()).result, (f ()).calls, m + (f ()).metrics⟩ := by
  rw [bind_of_ok rfl]
  ext1 <;> simp [publish]

@[simp] lemma ok_bind (a : α) (calls : List κ) (m : μ) (f : α → Effect κ μ ε β) :
    ((⟨.ok a, calls, m⟩ : Effect κ μ ε α) >>= f) =
      ⟨(f a).result, calls ++ (f a).calls, m + (f a).metrics⟩ := bind_of_ok rfl f

@[simp] lemma error_bind (e : ε) (calls : List κ) (m : μ) (f : α → Effect κ μ ε β) :
    ((⟨.error e, calls, m⟩ : Effect κ μ ε α) >>= f) = ⟨.error e, calls, m⟩ := bind_of_error rfl f

/-- What is published stays in a set of counters that is closed under addition. -/
lemma bind_metrics_mem (S : AddSubmonoid μ) {x : Effect κ μ ε α} {f : α → Effect κ μ ε β}
    (hx : x.metrics ∈ S) (hf : ∀ a, (f a).metrics ∈ S) : (x >>= f).metrics ∈ S := by
  cases hr : x.result with
  | error e =>
    rw [bind_of_error hr]
    exact hx
  | ok a =>
    rw [bind_of_ok hr]
    exact S.add_mem hx (hf a)

lemma bind_calls_of_ok {P : κ → Prop} {x : Effect κ μ ε α} {f : α → Effect κ μ ε β} (hx : ∀ c ∈ x.calls, P c)
    (hf : ∀ a, x.result = .ok a → ∀ c ∈ (f a).calls, P c) : ∀ c ∈ (x >>= f).calls, P c := by
  cases hr : x.result with
  | error e =>
    rw [bind_of_error hr]
    exact hx
  | ok a =>
    rw [bind_of_ok hr]
    intro c hc
    rcases List.mem_append.mp hc with hc | hc
    · exact hx c hc
    · exact hf a hr c hc

lemma bind_calls {P : κ → Prop} {x : Effect κ μ ε α} {f : α → Effect κ μ ε β}
    (hx : ∀ c ∈ x.calls, P c) (hf : ∀ a, ∀ c ∈ (f a).calls, P c) : ∀ c ∈ (x >>= f).calls, P c :=
  bind_calls_of_ok hx (fun a _ => hf a)

/-- An error of a sequence is one of its parts. -/
lemma bind_errors {P : ε → Prop} {x : Effect κ μ ε α} {f : α → Effect κ μ ε β}
    (hx : ∀ e, x.result = .error e → P e) (hf : ∀ a e, (f a).result = .error e → P e) :
    ∀ e, (x >>= f).result = .error e → P e := by
  intro e he
  cases hr : x.result with
  | error e' =>
    rw [bind_of_error hr] at he
    cases he
    exact hx e hr
  | ok a =>
    rw [bind_of_ok hr] at he
    exact hf a e he

end Rules

section Alike
variable {κ μ ν ε ε' : Type} {α α' β β' : Type} [AddMonoid μ] [AddMonoid ν]

/-- Two computations that look the same: both succeed, with related values, or both fail, their
calls in `p` are the same in the same order, and so is what `φ` sees of their counters. -/
structure Alike (p : κ → Bool) (φ : μ →+ ν) (R : α → β → Prop) (x : Effect κ μ ε α) (y : Effect κ μ ε' β) :
    Prop where
  result : (∃ a b, x.result = .ok a ∧ y.result = .ok b ∧ R a b) ∨
    ∃ e e', x.result = .error e ∧ y.result = .error e'
  calls : x.calls.filter p = y.calls.filter p
  metrics : φ x.metrics = φ y.metrics

namespace Alike
variable {p : κ → Bool} {φ : μ →+ ν} {R : α → β → Prop} {S : α' → β' → Prop}

lemma ok {a : α} {b : β} {c c' : List κ} {m m' : μ} (hR : R a b) (hc : c.filter p = c'.filter p) (hm : φ m = φ m') :
    Alike p φ R (⟨.ok a, c, m⟩ : Effect κ μ ε α) (⟨.ok b, c', m'⟩ : Effect κ μ ε' β) :=
  ⟨.inl ⟨a, b, rfl, rfl, hR⟩, hc, hm⟩

lemma error {e : ε} {e' : ε'} {c c' : List κ} {m m' : μ} (hc : c.filter p = c'.filter p) (hm : φ m = φ m') :
    Alike p φ R (⟨.error e, c, m⟩ : Effect κ μ ε α) (⟨.error e', c', m'⟩ : Effect κ μ ε' β) :=
  ⟨.inr ⟨e, e', rfl, rfl⟩, hc, hm⟩

/-- Computations that look the same stay so when what follows on related values does. -/
lemma bind {x : Effect κ μ ε α} {y : Effect κ μ ε' β} {f : α → Effect κ μ ε α'} {g : β → Effect κ μ ε' β'}
    (h : Alike p φ R x y) (hf : ∀ a b, R a b → Alike p φ S (f a) (g b)) : Alike p φ S (x >>= f) (y >>= g) := by
  rcases h.result with ⟨a, b, hx, hy, hab⟩ | ⟨e, e', hx, hy⟩
  · have hnext := hf a b hab
    rw [bind_of_ok hx, bind_of_ok hy]
    refine ⟨hnext.result, ?_, ?_⟩
    · simp only [List.filter_append, h.calls, hnext.calls]
    · simp only [map_add, h.metrics, hnext.metrics]
  · rw [bind_of_error hx, bind_of_error hy]
    exact error h.calls h.metrics

/-- Counters that `φ` does not see may be published on one side only. -/
lemma publish_right {m : μ} {x : Effect κ μ ε α} {g : Unit → Effect κ μ ε' β} (hm : φ m = 0)
    (h : Alike p φ R x (g ())) : Alike p φ R x (publish m >>= g) := by
  rw [publish_bind]
  refine ⟨h.result, h.calls, ?_⟩
  rw [map_add, hm, zero_add]
  exact h.metrics

lemma publish_left {m : μ} {f : Unit → Effect κ μ ε α} {y : Effect κ μ ε' β} (hm : φ m = 0)
    (h : Alike p φ R (f ()) y) : Alike p φ R (publish m >>= f) y := by
  rw [publish_bind]
  refine ⟨h.result, h.calls, ?_⟩
  rw [map_add, hm, zero_add]
  exact h.metrics

lemma map_left {x : Effect κ μ ε α} {y : Effect κ μ ε' β} {S : α' → β → Prop} {g : α → α'} (h : Alike p φ R x y)
    (hS : ∀ a b, R a b → S (g a) b) : Alike p φ S (x >>= fun a => pure (g a)) y := by
  rcases h.result with ⟨a, b, hx, hy, hab⟩ | ⟨e, e', hx, hy⟩
  · rw [bind_of_ok hx]
    exact ⟨.inl ⟨g a, b, rfl, hy, hS a b hab⟩, by simpa using h.calls, by simpa using h.metrics⟩
  · rw [bind_of_error hx]
    exact ⟨.inr ⟨e, e', rfl, hy⟩, h.calls, h.metrics⟩

lemma mapError_left {ε'' : Type} {g : ε → ε''} {x : Effect κ μ ε α} {y : Effect κ μ ε' β} (h : Alike p φ R x y) :
    Alike p φ R (x.mapError g) y := by
  refine ⟨?_, h.calls, h.metrics⟩
  rcases h.result with ⟨a, b, hx, hy, hab⟩ | ⟨e, e', hx, hy⟩
  · exact .inl ⟨a, b, by simp [mapError, hx, Except.mapError], hy, hab⟩
  · exact .inr ⟨g e, e', by simp [mapError, hx, Except.mapError], hy⟩

end Alike

end Alike

end Effect

end CloudTrailFilter
