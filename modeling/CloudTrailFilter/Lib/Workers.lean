import CloudTrailFilter.Lib.Concurrency
import CloudTrailFilter.Lib.Fallible

/-!
# Divided work

A list is divided into parts of one size, and workers process the parts. The workers finish in any
order; their results are joined in the order of the parts. The parts are balanced when the size is
a rounded up quotient: as many as asked for, and the last one hardly shorter than the others.
-/

namespace CloudTrailFilter.Workers

section Parts
variable {α : Type*}

lemma go_eq (n : ℕ) (xs : List α) (acc : Array α) (out : Array (List α)) (hacc : 0 < acc.size) (hle : acc.size ≤ n) :
    List.toChunks.go n xs acc out = out.toList ++
      if acc.size + xs.length ≤ n then [acc.toList ++ xs]
      else (acc.toList ++ xs).take n :: ((acc.toList ++ xs).drop n).toChunks n := by
  induction xs generalizing acc out with
  | nil => simp [List.toChunks.go, hle]
  | cons x xs ih =>
    rw [List.toChunks.go]
    by_cases hfull : acc.size = n
    · -- a part is complete, and the rest is divided from `x` on
      have hover : ¬ acc.size + (x :: xs).length ≤ n := by simp [hfull]
      have htake : (acc.toList ++ x :: xs).take n = acc.toList := List.take_left' (by simpa using hfull)
      have hdrop : (acc.toList ++ x :: xs).drop n = x :: xs := List.drop_left' (by simpa using hfull)
      obtain ⟨k, rfl⟩ : ∃ k, n = k + 1 := ⟨n - 1, by omega⟩
      have hpos : 0 < (#[x] : Array α).size := by simp
      have hone : (#[x] : Array α).size ≤ k + 1 := by simp
      have hrest : (x :: xs).toChunks (k + 1) = List.toChunks.go (k + 1) xs #[x] #[] := rfl
      rw [if_pos (by simpa using hfull), if_neg hover, htake, hdrop, hrest]
      have hmore := ih #[x] (out.push acc.toList) hpos hone
      have hnone := ih #[x] #[] hpos hone
      simp only [Array.mkEmpty_eq, List.push_toArray, List.nil_append] at hmore ⊢
      rw [hmore, hnone]
      simp
    · have hsize : (acc.push x).size ≤ n := by
        simp only [Array.size_push]
        omega
      have hmore := ih (acc.push x) out (by simp) hsize
      rw [if_neg (by simpa using hfull), hmore]
      simp [Nat.add_assoc, Nat.add_comm 1]

lemma toChunks_of_le {n : ℕ} {xs : List α} (hne : xs ≠ []) (hn : 0 < n) (hle : xs.length ≤ n) : xs.toChunks n = [xs] := by
  obtain ⟨k, rfl⟩ : ∃ k, n = k + 1 := ⟨n - 1, by omega⟩
  cases xs with
  | nil => exact (hne rfl).elim
  | cons x xs =>
    have h := go_eq (k + 1) xs #[x] #[] (by simp) (by simp)
    rw [if_pos (by simpa [Nat.add_comm] using hle)] at h
    simpa [List.toChunks] using h

lemma toChunks_of_lt {n : ℕ} {xs : List α} (hn : 0 < n) (hlt : n < xs.length) :
    xs.toChunks n = xs.take n :: (xs.drop n).toChunks n := by
  obtain ⟨k, rfl⟩ : ∃ k, n = k + 1 := ⟨n - 1, by omega⟩
  cases xs with
  | nil => simp at hlt
  | cons x xs =>
    have h := go_eq (k + 1) xs #[x] #[] (by simp) (by simp)
    have hover : ¬ (#[x] : Array α).size + xs.length ≤ k + 1 := by
      simp only [List.length_cons] at hlt
      simp only [List.size_toArray, List.length_cons, List.length_nil]
      omega
    rw [if_neg hover] at h
    simpa [List.toChunks] using h

/-- `n` parts of one size and a last part that is not empty and no longer. -/
lemma toChunks_parts {size n : ℕ} {xs : List α} (hlow : n * size < xs.length) (hhigh : xs.length ≤ (n + 1) * size) :
    ∃ front last, xs.toChunks size = front ++ [last] ∧ front.length = n ∧
      (∀ part ∈ front, part.length = size) ∧ last.length + n * size = xs.length := by
  have hsize : 0 < size := by
    by_contra hzero
    have hz : size = 0 := by omega
    rw [hz] at hlow hhigh
    omega
  induction n generalizing xs with
  | zero =>
    have hne : xs ≠ [] := by
      rintro rfl
      simp at hlow
    exact ⟨[], xs, toChunks_of_le hne hsize (by omega), rfl, by simp, by omega⟩
  | succ n ih =>
    have hsplit : (n + 1) * size = n * size + size := Nat.succ_mul n size
    have hsplit' : (n + 1 + 1) * size = (n + 1) * size + size := Nat.succ_mul (n + 1) size
    have hlt : size < xs.length := by
      have hle := Nat.le_add_left size (n * size)
      omega
    have hdrop : (xs.drop size).length = xs.length - size := List.length_drop
    have hlow' : n * size < (xs.drop size).length := by omega
    have hhigh' : (xs.drop size).length ≤ (n + 1) * size := by omega
    obtain ⟨front, last, hparts, hlen, hfront, hlast⟩ := ih hlow' hhigh'
    refine ⟨xs.take size :: front, last, ?_, by simp [hlen], ?_, by omega⟩
    · rw [toChunks_of_lt hsize hlt, hparts]
      rfl
    · intro part hpart
      rcases List.mem_cons.mp hpart with rfl | hpart
      · exact List.length_take_of_le hlt.le
      · exact hfront part hpart

/-- The rounded up quotient as a size gives the number of parts it was divided for, when it is
not smaller than that number. -/
lemma ceilDiv_bounds {total count : ℕ} (hcount : 0 < count) (hsize : count ≤ (total + count - 1) / count) :
    (count - 1) * ((total + count - 1) / count) < total ∧ total ≤ count * ((total + count - 1) / count) ∧
      count * ((total + count - 1) / count) ≤ total + count - 1 := by
  have hle := Nat.mul_div_le (total + count - 1) count
  have hlt := Nat.lt_mul_div_succ (total + count - 1) hcount
  generalize (total + count - 1) / count = size at *
  rw [Nat.mul_add, Nat.mul_one] at hlt
  have hself : size ≤ count * size := Nat.le_mul_of_pos_left size hcount
  rw [Nat.sub_mul, Nat.one_mul]
  omega

end Parts

section Scope
variable {α β : Type} (work : ℕ → α → β) (parts : List α)

/-- The workers of the parts, each with its result once it has finished. -/
abbrev Scope (β : Type) := List (Option β)

def Scope.spawned : Scope β := parts.map (fun _ => none)

/-- Worker `i` finishes. -/
def Scope.step (s : Scope β) (i : ℕ) : Option (Scope β) :=
  match parts[i]?, s[i]? with
  | some part, some none => some (s.set i (some (work i part)))
  | _, _ => none

/-- The results in the order of the workers, once all have finished. -/
def Scope.joined (s : Scope β) : Option (List β) := s.mapM id

variable {work parts}

/-- Every worker still has its part before it, or has its result. -/
def Scope.Keeps (work : ℕ → α → β) (parts : List α) (s : Scope β) : Prop :=
  s.length = parts.length ∧
    ∀ (i : ℕ) (result : β), s[i]? = some (some result) → ∃ part, parts[i]? = some part ∧ result = work i part

lemma Scope.Keeps.step {s s' : Scope β} {i : ℕ} (h : s.Keeps work parts) (hstep : s.step work parts i = some s') :
    s'.Keeps work parts := by
  unfold Scope.step at hstep
  split at hstep
  · rename_i part hpart hrunning
    cases hstep
    refine ⟨by rw [List.length_set, h.1], fun j result hresult => ?_⟩
    by_cases hij : i = j
    · subst hij
      have hlt : i < s.length := (List.getElem?_eq_some_iff.mp hrunning).1
      rw [List.getElem?_set_self hlt] at hresult
      exact ⟨part, hpart, by simpa using hresult.symm⟩
    · rw [List.getElem?_set_ne hij] at hresult
      exact h.2 j result hresult
  · cases hstep

/-- Whatever the order in which the workers finish, their results are those of the parts in order. -/
theorem Scope.joined_eq {s : Scope β} (h : Concurrency.Reachable (Scope.step work parts) (Scope.spawned parts) s)
    {results : List β} (hjoined : s.joined = some results) : results = parts.mapIdx work := by
  have hkeeps : s.Keeps work parts := by
    refine h.invariant ?_ (fun s i s' hs hstep => hs.step hstep)
    refine ⟨by simp [Scope.spawned], fun i result hresult => ?_⟩
    rw [Scope.spawned, List.getElem?_map] at hresult
    cases hpart : parts[i]? <;> simp [hpart] at hresult
  have hlen : s.length = results.length ∧ ∀ (i : ℕ) (result : β), results[i]? = some result → s[i]? = some (some result) := by
    have hall := Fallible.mapM_some_iff.mp hjoined
    refine ⟨hall.length_eq, fun i result hresult => ?_⟩
    obtain ⟨hi, hget⟩ := List.getElem?_eq_some_iff.mp hresult
    have hi' : i < s.length := by rw [hall.length_eq]; exact hi
    have hpair := hall.get hi' hi
    rw [List.getElem?_eq_getElem hi', ← hget]
    exact congrArg some hpair
  apply List.ext_getElem?
  intro i
  cases hresult : results[i]? with
  | none =>
    have hover : parts.length ≤ i := by
      rw [List.getElem?_eq_none_iff] at hresult
      have hparts := hkeeps.1
      omega
    rw [List.getElem?_mapIdx, List.getElem?_eq_none_iff.mpr hover, Option.map_none]
  | some result =>
    obtain ⟨part, hpart, hwork⟩ := hkeeps.2 i result (hlen.2 i result hresult)
    rw [List.getElem?_mapIdx, hpart, Option.map_some, hwork]

/-- The first `n` workers have finished. -/
def Scope.after (work : ℕ → α → β) (parts : List α) (n : ℕ) : Scope β :=
  parts.mapIdx (fun i part => if i < n then some (work i part) else none)

lemma Scope.after_reachable {n : ℕ} (hn : n ≤ parts.length) :
    Concurrency.Reachable (Scope.step work parts) (Scope.spawned parts) (Scope.after work parts n) := by
  induction n with
  | zero =>
    have hstart : Scope.after work parts 0 = Scope.spawned parts := by
      simp [Scope.after, Scope.spawned, List.mapIdx_eq_zipIdx_map, List.map_const']
    rw [hstart]
    exact .start
  | succ n ih =>
    have hlt : n < parts.length := hn
    refine .step n (ih hlt.le) ?_
    have hpart : parts[n]? = some parts[n] := List.getElem?_eq_getElem hlt
    have hrunning : (Scope.after work parts n)[n]? = some none := by
      simp [Scope.after, List.getElem?_mapIdx, hpart]
    simp only [Scope.step, hpart, hrunning, Option.some.injEq]
    apply List.ext_getElem?
    intro i
    by_cases hi : n = i
    · subst hi
      rw [List.getElem?_set_self (by simpa [Scope.after] using hlt)]
      simp [Scope.after, List.getElem?_mapIdx, hpart]
    · have hlate : i ≤ n ↔ i < n := by omega
      rw [List.getElem?_set_ne hi]
      simp [Scope.after, List.getElem?_mapIdx, hlate]

/-- Finishing one after the other is a run in which all finish. -/
theorem Scope.exists_joined : ∃ s : Scope β,
    Concurrency.Reachable (Scope.step work parts) (Scope.spawned parts) s ∧ s.joined = some (parts.mapIdx work) := by
  refine ⟨_, Scope.after_reachable le_rfl, ?_⟩
  apply Fallible.mapM_some_iff.mpr
  apply List.forall₂_iff_get.mpr
  refine ⟨by simp [Scope.after], fun i hi hi' => ?_⟩
  have hlt : i < parts.length := by simpa using hi'
  simp [Scope.after, hlt]

end Scope

end CloudTrailFilter.Workers
