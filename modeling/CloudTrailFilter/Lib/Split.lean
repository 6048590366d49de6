import Mathlib.Data.String.Basic
import Mathlib.Tactic

/-!
# Splitting a text

`String.splitOn` scans positions of a text. Over its characters it is `List.splitOn`, which has the
rules for texts that are put together. A prefix is split off as a text is put together with it.
-/

namespace CloudTrailFilter.Split
open String

/-- The scan in the middle of a text: `l` is split, and `m` is the start of the next part. -/
lemma splitOnAux_slash (l m r : List Char) (acc : List String) :
    splitOnAux (ofList (l ++ m ++ r)) "/" ⟨utf8Len l⟩ ⟨utf8Len l + utf8Len m⟩ 0 acc =
      acc.reverse ++ (List.splitOnPPrepend (· == '/') r m.reverse).map ofList := by
  induction r generalizing l m acc with
  | nil =>
    have hextract := extract_of_valid l m []
    have hend := (atEnd_of_valid (l ++ m) []).mpr rfl
    rw [utf8Len_append] at hend
    rw [splitOnAux, if_pos hend, hextract]
    simp
  | cons c r ih =>
    have hnext := next_of_valid (l ++ m) c r
    have hget := get_of_valid (l ++ m) (c :: r)
    have hextract := extract_of_valid l m (c :: r)
    have hend : ¬ _ := mt (atEnd_of_valid (l ++ m) (c :: r)).mp (by simp)
    rw [utf8Len_append] at hnext hget hend
    have hsep : Pos.Raw.get "/" 0 = '/' := rfl
    have hsepEnd : Pos.Raw.atEnd "/" (Pos.Raw.next "/" 0) = true := rfl
    rw [splitOnAux, if_neg hend, hget, hsep]
    simp only [List.headD_cons, beq_iff_eq]
    by_cases hc : c = '/'
    · subst hc
      have hpart := ih (l ++ m ++ ['/']) [] (ofList m :: acc)
      have hback : Pos.Raw.unoffsetBy ⟨utf8Len l + utf8Len m + '/'.utf8Size⟩ (Pos.Raw.next "/" 0) =
          ⟨utf8Len l + utf8Len m⟩ := rfl
      rw [if_pos rfl, if_pos hsepEnd, hnext, List.splitOnPPrepend_cons_pos (by rfl), hback, hextract]
      simpa [-ofList_append, Nat.add_assoc] using hpart
    · have hrest := ih l (m ++ [c]) acc
      have hback : Pos.Raw.unoffsetBy ⟨utf8Len l + utf8Len m⟩ 0 = ⟨utf8Len l + utf8Len m⟩ := rfl
      rw [if_neg hc, List.splitOnPPrepend_cons_neg (by simpa using hc), hback, hnext]
      simpa [-ofList_append, Nat.add_assoc] using hrest

theorem splitOn_slash (s : String) : s.splitOn "/" = (s.toList.splitOn '/').map ofList := by
  have h := splitOnAux_slash [] [] s.toList []
  simpa [String.splitOn, List.splitOn_eq_splitOnP] using h

lemma startsWith_slash (s : String) : s.startsWith "/" = true ↔ ∃ cs, s.toList = '/' :: cs := by
  rw [startsWith_string_iff]
  constructor
  · rintro ⟨cs, hcs⟩
    exact ⟨cs, hcs.symm⟩
  · rintro ⟨cs, hcs⟩
    exact ⟨cs, hcs.symm⟩

/-- The parts of a split have the elements of the list other than the separator. -/
lemma of_mem_splitOn {α : Type} [BEq α] [LawfulBEq α] {a b : α} {xs part : List α} (h : part ∈ xs.splitOn a)
    (hb : b ∈ part) : b ∈ xs ∧ b ≠ a := by
  induction xs generalizing part with
  | nil =>
    rw [List.splitOn_nil, List.mem_singleton] at h
    simp [h] at hb
  | cons x xs ih =>
    rw [List.splitOn_cons_eq_if_modifyHead] at h
    split_ifs at h with hx
    · rcases List.mem_cons.mp h with rfl | h
      · simp at hb
      · obtain ⟨hmem, hne⟩ := ih h hb
        exact ⟨List.mem_cons_of_mem _ hmem, hne⟩
    · cases hsplit : xs.splitOn a with
      | nil => exact (List.splitOn_ne_nil a xs hsplit).elim
      | cons first rest =>
        rw [hsplit] at h ih
        rcases List.mem_cons.mp h with rfl | h
        · rcases List.mem_cons.mp hb with rfl | hb
          · exact ⟨List.mem_cons_self, fun heq => hx (by simp [heq])⟩
          · obtain ⟨hmem, hne⟩ := ih List.mem_cons_self hb
            exact ⟨List.mem_cons_of_mem _ hmem, hne⟩
        · obtain ⟨hmem, hne⟩ := ih (List.mem_cons_of_mem _ h) hb
          exact ⟨List.mem_cons_of_mem _ hmem, hne⟩

lemma notMem_of_mem_splitOn {α : Type} [BEq α] [LawfulBEq α] {a : α} {xs part : List α}
    (h : part ∈ xs.splitOn a) : a ∉ part := fun ha => (of_mem_splitOn h ha).2 rfl

section Prefix
variable {α : Type} [BEq α] [LawfulBEq α]

lemma isPrefixOf?_append (pre xs : List α) : pre.isPrefixOf? (pre ++ xs) = some xs := by
  induction pre with
  | nil => rfl
  | cons c pre ih => simp [List.isPrefixOf?, ih]

lemma isPrefixOf?_eq_none {pre xs : List α} (h : ¬ pre <+: xs) : pre.isPrefixOf? xs = none := by
  induction pre generalizing xs with
  | nil => exact (h List.nil_prefix).elim
  | cons c pre ih =>
    cases xs with
    | nil => rfl
    | cons d xs =>
      rw [List.cons_prefix_cons] at h
      by_cases hcd : c = d
      · simpa [List.isPrefixOf?, hcd] using ih (fun hpre => h ⟨hcd, hpre⟩)
      · simp [List.isPrefixOf?, hcd]

end Prefix

end CloudTrailFilter.Split
