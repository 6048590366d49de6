import Mathlib.Tactic

/-!
# What a store holds after a list of writes

The last write to a key wins.
-/

namespace CloudTrailFilter

/-- What a store holds under each key. -/
abbrev Contents (κ β : Type*) := κ → Option β

namespace Contents
variable {κ β : Type*} [DecidableEq κ]

/-- The contents after writes, in this order. -/
def after (c : Contents κ β) (writes : List (κ × β)) : Contents κ β :=
  writes.foldl (fun c w => Function.update c w.1 (some w.2)) c

/-- The last of the writes to a key. -/
def lastWrite (k : κ) (writes : List (κ × β)) : Option β :=
  ((writes.filter (fun w => w.1 = k)).getLast?).map Prod.snd

lemma after_append (c : Contents κ β) (ws ws' : List (κ × β)) : c.after (ws ++ ws') = (c.after ws).after ws' :=
  List.foldl_append

lemma lastWrite_append (k : κ) (ws ws' : List (κ × β)) :
    lastWrite k (ws ++ ws') = (lastWrite k ws').or (lastWrite k ws) := by
  unfold lastWrite
  rw [List.filter_append, List.getLast?_append]
  cases (ws'.filter (fun w => w.1 = k)).getLast? <;> rfl

lemma lastWrite_eq_none_iff {k : κ} {ws : List (κ × β)} : lastWrite k ws = none ↔ ∀ w ∈ ws, w.1 ≠ k := by
  simp [lastWrite]

lemma lastWrite_singleton (k k' : κ) (b : β) : lastWrite k [(k', b)] = if k' = k then some b else none := by
  by_cases h : k' = k <;> simp [lastWrite, h]

/-- The contents under a key are the last write to it, or what was there. -/
lemma after_apply (c : Contents κ β) (ws : List (κ × β)) (k : κ) :
    c.after ws k = (lastWrite k ws).or (c k) := by
  induction ws using List.reverseRecOn with
  | nil => rfl
  | append_singleton ws w ih =>
    obtain ⟨k', b⟩ := w
    rw [after_append, lastWrite_append, lastWrite_singleton]
    by_cases h : k' = k
    · subst h
      simp [after]
    · have hne : k ≠ k' := fun heq => h heq.symm
      simpa [after, Function.update_of_ne hne, h] using ih

/-- The last write of a list to a key, with no write to the key after it. -/
lemma lastWrite_filterMap {ι : Type*} {f : ι → Option (κ × β)} {k : κ} {b : β} {l : List ι} :
    lastWrite k (l.filterMap f) = some b ↔
      ∃ l₁ a l₂, l = l₁ ++ a :: l₂ ∧ f a = some (k, b) ∧ ∀ a' ∈ l₂, ∀ b', f a' ≠ some (k, b') := by
  constructor
  · intro h
    induction l using List.reverseRecOn with
    | nil => simp [lastWrite] at h
    | append_singleton l a ih =>
      rw [List.filterMap_append, lastWrite_append] at h
      by_cases hlast : ∃ b', f a = some (k, b')
      · obtain ⟨b', hb'⟩ := hlast
        have hb : b' = b := by simpa [hb', lastWrite_singleton] using h
        subst hb
        exact ⟨l, a, [], rfl, hb', by simp⟩
      · have hnone : lastWrite k ([a].filterMap f) = none := by
          rw [lastWrite_eq_none_iff]
          rintro ⟨k', b'⟩ hw rfl
          obtain ⟨a', ha', hb'⟩ := List.mem_filterMap.mp hw
          rw [List.mem_singleton] at ha'
          subst ha'
          exact hlast ⟨b', hb'⟩
        rw [hnone, Option.none_or] at h
        obtain ⟨l₁, a', l₂, rfl, ha', hl₂⟩ := ih h
        refine ⟨l₁, a', l₂ ++ [a], by simp, ha', ?_⟩
        intro c hc b' hb'
        rcases List.mem_append.mp hc with hc | hc
        · exact hl₂ c hc b' hb'
        · rw [List.mem_singleton] at hc
          subst hc
          exact hlast ⟨b', hb'⟩
  · rintro ⟨l₁, a, l₂, rfl, ha, hl₂⟩
    have hnone : lastWrite k (l₂.filterMap f) = none := by
      rw [lastWrite_eq_none_iff]
      rintro ⟨k', b'⟩ hw rfl
      obtain ⟨a', ha', hb'⟩ := List.mem_filterMap.mp hw
      exact hl₂ a' ha' b' hb'
    rw [List.filterMap_append, ← List.singleton_append, List.filterMap_append, lastWrite_append, lastWrite_append,
      hnone]
    simp [ha, lastWrite_singleton]

/-- The last write of a list to a key, by its place. -/
lemma lastWrite_filterMap_getElem {ι : Type*} {f : ι → Option (κ × β)} {k : κ} {b : β} {l : List ι} :
    lastWrite k (l.filterMap f) = some b ↔
      ∃ (i : ℕ) (a : ι), l[i]? = some a ∧ f a = some (k, b) ∧
        ∀ (j : ℕ) (a' : ι), i < j → l[j]? = some a' → ∀ b', f a' ≠ some (k, b') := by
  rw [lastWrite_filterMap]
  constructor
  · rintro ⟨l₁, a, l₂, rfl, ha, hlater⟩
    refine ⟨l₁.length, a, by simp, ha, ?_⟩
    intro j a' hlt hget
    refine hlater a' ?_
    rw [List.getElem?_append_right (by omega)] at hget
    obtain ⟨m, hm⟩ : ∃ m, j - l₁.length = m + 1 := ⟨j - l₁.length - 1, by omega⟩
    rw [hm, List.getElem?_cons_succ] at hget
    exact List.mem_of_getElem? hget
  · rintro ⟨i, a, hi, ha, hlater⟩
    obtain ⟨hlt, hget⟩ := List.getElem?_eq_some_iff.mp hi
    have hsplit : l = l.take i ++ a :: l.drop (i + 1) := by
      rw [← hget, List.getElem_cons_drop, List.take_append_drop]
    refine ⟨l.take i, a, l.drop (i + 1), hsplit, ha, ?_⟩
    intro a' ha' b'
    obtain ⟨j, hj⟩ := List.mem_iff_getElem?.mp ha'
    rw [List.getElem?_drop] at hj
    exact hlater (i + 1 + j) a' (by omega) hj b'

/-- If all writes to a key carry the same value, so does the last. -/
lemma lastWrite_eq_of_forall {k : κ} {b : β} {ws : List (κ × β)} (hmem : (k, b) ∈ ws)
    (h : ∀ w ∈ ws, w.1 = k → w.2 = b) : lastWrite k ws = some b := by
  cases hlast : lastWrite k ws with
  | none => exact (lastWrite_eq_none_iff.mp hlast _ hmem rfl).elim
  | some b' =>
    have hlast' : lastWrite k (ws.filterMap some) = some b' := by rwa [List.filterMap_some]
    obtain ⟨l₁, a, l₂, rfl, ha, -⟩ := lastWrite_filterMap.mp hlast'
    cases ha
    exact congrArg some (h (k, b') (by simp) rfl)

/-- Lists of the same writes, in which all writes to a key carry the same value, leave the same
contents. -/
lemma after_eq_of_mem_iff {ws ws' : List (κ × β)} (hmem : ∀ w, w ∈ ws ↔ w ∈ ws')
    (hsame : ∀ w ∈ ws, ∀ w' ∈ ws, w.1 = w'.1 → w.2 = w'.2) (c : Contents κ β) : c.after ws = c.after ws' := by
  funext k
  rw [after_apply, after_apply]
  by_cases hwritten : ∃ b, (k, b) ∈ ws
  · obtain ⟨b, hb⟩ := hwritten
    have hall : ∀ w ∈ ws, w.1 = k → w.2 = b := fun w hw hk => hsame w hw (k, b) hb hk
    rw [lastWrite_eq_of_forall hb hall,
      lastWrite_eq_of_forall ((hmem _).mp hb) (fun w hw => hall w ((hmem w).mpr hw))]
  · have hnone : ∀ w ∈ ws, w.1 ≠ k := by
      rintro ⟨_, b⟩ hw rfl
      exact hwritten ⟨b, hw⟩
    rw [lastWrite_eq_none_iff.mpr hnone,
      lastWrite_eq_none_iff.mpr (fun w hw => hnone w ((hmem w).mpr hw))]

end Contents

end CloudTrailFilter
