import CloudTrailFilter.Json.Incremental

/-!
# Scanned text in another place

What a scan makes of the text it consumes does not depend on what follows, as long as a number
still ends there. A span captured from one document therefore scans to the same value before a
comma or a closing bracket of another, and as a text of its own.
-/

namespace CloudTrailFilter.Json
open Fallible

/-- A text that begins with what separates or ends the elements of an array. -/
def Stops (r : Bytes) : Prop := ∃ d rest, r = d :: rest ∧ (d = comma ∨ d = closeBracket)

/-- What a number can end before: the end of the text, or what ends an element. -/
def Ends (t : Tail) (r : Bytes) : Prop := Stops r ∨ t = .eof ∧ r = []

section Scalars
variable {t u : Tail} {r q c s : Bytes}

/-- An input that goes on past the front `k` with something longer than `r` has `k` in front of `r`. -/
lemma of_append_cons_eq {k rest : Bytes} (h : c ++ r = k ++ rest) (hle : r <:+ rest) :
    ∃ c', c = k ++ c' ∧ rest = c' ++ r := by
  obtain ⟨c', rfl⟩ := hle
  refine ⟨c', ?_, rfl⟩
  rw [← List.append_assoc] at h
  exact List.append_cancel_right h

lemma suffix_antisymm (h : r <:+ s) (h' : s <:+ r) : s = r :=
  (h.eq_of_length (le_antisymm h.length_le h'.length_le)).symm

lemma skipWs_moves {w : Bytes} (h : skipWs t (c ++ r) = .ok w) (hs : r <:+ w) (hne : w ≠ r) :
    ∃ c', w = c' ++ r ∧ skipWs u (c ++ q) = .ok (c' ++ q) := by
  induction c with
  | nil => exact (hne (suffix_antisymm hs (skipWs_leaves t h))).elim
  | cons b c ih =>
    simp only [List.cons_append, skipWs] at h ⊢
    split_ifs at h ⊢ with hb
    · exact ih h
    · cases h
      exact ⟨b :: c, rfl, rfl⟩

lemma scanIdent_moves {expected : Bytes} (h : scanIdent t expected (c ++ r) = .ok s) (hs : r <:+ s) :
    ∃ c', s = c' ++ r ∧ scanIdent u expected (c ++ q) = .ok (c' ++ q) := by
  induction expected generalizing c with
  | nil =>
    cases h
    exact ⟨c, rfl, rfl⟩
  | cons e expected ih =>
    cases c with
    | nil =>
      cases r with
      | nil => simp [scanIdent] at h
      | cons b rest =>
        simp only [List.nil_append, scanIdent] at h
        split_ifs at h
        have hlong := hs.length_le
        have hshort := (scanIdent_leaves t h).length_le
        simp only [List.length_cons] at hlong
        omega
    | cons b c =>
      simp only [List.cons_append, scanIdent] at h ⊢
      split_ifs at h ⊢ with hb
      exact ih h

lemma scanSign_moves {sign : Bytes} (h : scanSign t (c ++ r) = .ok (sign, s)) (hs : r <:+ s) (hne : s ≠ r) :
    ∃ c', s = c' ++ r ∧ scanSign u (c ++ q) = .ok (sign, c' ++ q) := by
  cases c with
  | nil => exact (hne (suffix_antisymm hs (scanSign_leaves t h))).elim
  | cons b c =>
    simp only [List.cons_append, scanSign] at h ⊢
    split_ifs at h ⊢ with hb
    · cases h
      exact ⟨c, rfl, rfl⟩
    · cases h
      exact ⟨b :: c, rfl, rfl⟩

section Numbers
variable (hr : Ends u q)
include hr

lemma Ends.not_digit : u = .eof ∧ q = [] ∨
    ∃ d rest, q = d :: rest ∧ isDigit d = false ∧ d ≠ 0x2E ∧ ¬ (d = 0x65 ∨ d = 0x45) := by
  obtain ⟨d, rest, rfl, rfl | rfl⟩ | hend := hr
  · exact .inr ⟨_, _, rfl, by decide, by decide, by decide⟩
  · exact .inr ⟨_, _, rfl, by decide, by decide, by decide⟩
  · exact .inl hend

lemma scanDigits_moves {ds : Bytes} (h : scanDigits t (c ++ r) = .ok (ds, s)) (hs : r <:+ s) :
    ∃ c', s = c' ++ r ∧ scanDigits u (c ++ q) = .ok (ds, c' ++ q) := by
  induction c generalizing ds with
  | nil =>
    obtain rfl := suffix_antisymm hs (scanDigits_leaves t h)
    refine ⟨[], rfl, ?_⟩
    have hds : ds = [] := by
      cases s with
      | nil => cases t <;> simp [scanDigits] at h; simp [h]
      | cons b rest =>
        simp only [List.nil_append, scanDigits] at h
        split_ifs at h
        · obtain ⟨⟨ds', r1⟩, hd', h⟩ := bind_ok_iff.mp h
          cases h
          have hshort := (scanDigits_leaves t hd').length_le
          simp at hshort
        · cases h
          rfl
    rcases hr.not_digit with ⟨rfl, rfl⟩ | ⟨d, rest', rfl, hd, -⟩
    · simp [scanDigits, hds]
    · simp [scanDigits, hd, hds]
  | cons b c ih =>
    simp only [List.cons_append, scanDigits] at h ⊢
    split_ifs at h ⊢ with hb
    · obtain ⟨⟨ds', r1⟩, hd, h⟩ := bind_ok_iff.mp h
      cases h
      obtain ⟨c', rfl, hd'⟩ := ih hd
      exact ⟨c', rfl, by rw [hd']; rfl⟩
    · cases h
      exact ⟨b :: c, rfl, rfl⟩

lemma scanDigits1_moves {ds : Bytes} (h : scanDigits1 t (c ++ r) = .ok (ds, s)) (hs : r <:+ s) :
    ∃ c', s = c' ++ r ∧ scanDigits1 u (c ++ q) = .ok (ds, c' ++ q) := by
  cases c with
  | nil =>
    have hlt := (scanDigits1_eats t h).length_lt
    have hle := hs.length_le
    simp only [List.nil_append] at hlt
    omega
  | cons b c =>
    simp only [List.cons_append, scanDigits1] at h ⊢
    split_ifs at h ⊢ with hb
    obtain ⟨⟨ds', r1⟩, hd, h⟩ := bind_ok_iff.mp h
    cases h
    obtain ⟨c', rfl, hd'⟩ := scanDigits_moves (u := u) hr hd hs
    exact ⟨c', rfl, by rw [hd']; rfl⟩

lemma scanInteger_moves {ds : Bytes} (h : scanInteger t (c ++ r) = .ok (ds, s)) (hs : r <:+ s) :
    ∃ c', s = c' ++ r ∧ scanInteger u (c ++ q) = .ok (ds, c' ++ q) := by
  cases c with
  | nil =>
    have hlt := (scanInteger_eats t h).length_lt
    have hle := hs.length_le
    simp only [List.nil_append] at hlt
    omega
  | cons b c =>
    simp only [List.cons_append, scanInteger] at h ⊢
    split_ifs at h ⊢ with hb
    · -- a lone zero: the byte after it is looked at
      cases c with
      | nil =>
        have hzero : ds = [b] ∧ s = r := by
          cases r with
          | nil => cases t <;> simp at h; simp [h]
          | cons x rest =>
            simp only [List.nil_append] at h
            split_ifs at h
            cases h
            exact ⟨rfl, rfl⟩
        obtain ⟨rfl, rfl⟩ := hzero
        refine ⟨[], rfl, ?_⟩
        rcases hr.not_digit with ⟨rfl, rfl⟩ | ⟨d, rest', rfl, hd, -⟩
        · simp
        · simp [hd]
      | cons x c =>
        simp only [List.cons_append] at h ⊢
        split_ifs at h ⊢ with hx
        cases h
        exact ⟨x :: c, rfl, rfl⟩
    · exact scanDigits1_moves (c := b :: c) hr h hs

/-- An optional part of a number that is absent at the end of the span. -/
lemma scanFraction_moves {ds : Bytes} (h : scanFraction t (c ++ r) = .ok (ds, s)) (hs : r <:+ s) :
    ∃ c', s = c' ++ r ∧ scanFraction u (c ++ q) = .ok (ds, c' ++ q) := by
  cases c with
  | nil =>
    obtain rfl := suffix_antisymm hs (scanFraction_leaves t h)
    refine ⟨[], rfl, ?_⟩
    have hds : ds = [] := by
      cases s with
      | nil => cases t <;> simp [scanFraction] at h; simp [h]
      | cons b rest =>
        simp only [List.nil_append, scanFraction] at h
        split_ifs at h
        · obtain ⟨⟨ds', r1⟩, hd', h⟩ := bind_ok_iff.mp h
          cases h
          have hshort := (scanDigits1_eats t hd').length_lt
          simp only [List.length_cons] at hshort
          omega
        · cases h
          rfl
    rcases hr.not_digit with ⟨rfl, rfl⟩ | ⟨d, rest', rfl, -, hd, -⟩
    · simp [scanFraction, hds]
    · simp [scanFraction, hd, hds]
  | cons b c =>
    simp only [List.cons_append, scanFraction] at h ⊢
    split_ifs at h ⊢ with hb
    · obtain ⟨⟨ds', r1⟩, hd, h⟩ := bind_ok_iff.mp h
      cases h
      obtain ⟨c', rfl, hd'⟩ := scanDigits1_moves (u := u) hr hd hs
      exact ⟨c', rfl, by rw [hd']; rfl⟩
    · cases h
      exact ⟨b :: c, rfl, rfl⟩

lemma scanExponent_moves {ds : Bytes} (h : scanExponent t (c ++ r) = .ok (ds, s)) (hs : r <:+ s) :
    ∃ c', s = c' ++ r ∧ scanExponent u (c ++ q) = .ok (ds, c' ++ q) := by
  cases c with
  | nil =>
    obtain rfl := suffix_antisymm hs (scanExponent_leaves t h)
    refine ⟨[], rfl, ?_⟩
    have hds : ds = [] := by
      cases s with
      | nil => cases t <;> simp [scanExponent] at h; simp [h]
      | cons b rest =>
        simp only [List.nil_append, scanExponent] at h
        split_ifs at h
        · obtain ⟨⟨sign, r1⟩, hsign, h⟩ := bind_ok_iff.mp h
          obtain ⟨⟨ds', r2⟩, hd', h⟩ := bind_ok_iff.mp h
          cases h
          have hshort := (scanDigits1_eats t hd').length_lt
          have hshort' := (scanSign_leaves t hsign).length_le
          simp only [List.length_cons] at hshort
          omega
        · cases h
          rfl
    rcases hr.not_digit with ⟨rfl, rfl⟩ | ⟨d, rest', rfl, -, -, hd⟩
    · simp [scanExponent, hds]
    · simp [scanExponent, hd, hds]
  | cons b c =>
    simp only [List.cons_append, scanExponent] at h ⊢
    split_ifs at h ⊢ with hb
    · obtain ⟨⟨sign, r1⟩, hsign, h⟩ := bind_ok_iff.mp h
      obtain ⟨⟨ds', r2⟩, hd, h⟩ := bind_ok_iff.mp h
      cases h
      have heats := scanDigits1_eats t hd
      have hlong : r1 ≠ r := by
        rintro rfl
        exact absurd heats.length_lt (by simpa using hs.length_le)
      obtain ⟨c1, rfl, hsign'⟩ := scanSign_moves (u := u) (q := q) hsign (hs.trans heats.leaves) hlong
      obtain ⟨c2, rfl, hd'⟩ := scanDigits1_moves (u := u) hr hd hs
      exact ⟨c2, rfl, by rw [hsign', ok_bind, hd']; rfl⟩
    · cases h
      exact ⟨b :: c, rfl, rfl⟩

lemma scanUnsigned_moves {ds : Bytes} (h : scanUnsigned t (c ++ r) = .ok (ds, s)) (hs : r <:+ s) :
    ∃ c', s = c' ++ r ∧ scanUnsigned u (c ++ q) = .ok (ds, c' ++ q) := by
  obtain ⟨⟨int, r1⟩, hint, h⟩ := bind_ok_iff.mp h
  obtain ⟨⟨frac, r2⟩, hfrac, h⟩ := bind_ok_iff.mp h
  obtain ⟨⟨exp, r3⟩, hexp, h⟩ := bind_ok_iff.mp h
  cases h
  have hs2 := hs.trans (scanExponent_leaves t hexp)
  have hs1 := hs2.trans (scanFraction_leaves t hfrac)
  obtain ⟨c1, rfl, hint'⟩ := scanInteger_moves (u := u) hr hint hs1
  obtain ⟨c2, rfl, hfrac'⟩ := scanFraction_moves (u := u) hr hfrac hs2
  obtain ⟨c3, rfl, hexp'⟩ := scanExponent_moves (u := u) hr hexp hs
  exact ⟨c3, rfl, by simp only [scanUnsigned, hint', hfrac', hexp', ok_bind]⟩

end Numbers

lemma scanString_moves {raw : Bytes} (h : scanString t (c ++ r) = .ok (raw, s)) (hs : r <:+ s) :
    ∃ c', s = c' ++ r ∧ scanString u (c ++ q) = .ok (raw, c' ++ q) := by
  generalize hinp : c ++ r = inp at h
  induction inp using scanString.induct generalizing c raw with
  | case1 => simp [scanString] at h
  | case2 rest =>
    unfold scanString at h
    simp only [if_true, Except.ok.injEq, Prod.mk.injEq] at h
    obtain ⟨rfl, rfl⟩ := h
    obtain ⟨c', rfl, rfl⟩ := of_append_cons_eq (k := [quote]) hinp hs
    exact ⟨c', rfl, by unfold scanString; simp⟩
  | case3 hq => simp [scanString, hq] at h
  | case4 e rest he hq ih =>
    unfold scanString at h
    simp only [hq, if_false, if_true, he] at h
    obtain ⟨⟨raw', r1⟩, hraw, h⟩ := bind_ok_iff.mp h
    cases h
    obtain ⟨c', rfl, rfl⟩ := of_append_cons_eq (k := [backslash, e]) hinp (hs.trans (scanString_eats t hraw).leaves)
    obtain ⟨c'', rfl, hraw'⟩ := ih rfl hraw
    refine ⟨c'', rfl, ?_⟩
    simp only [List.cons_append, List.nil_append]
    unfold scanString
    simp only [hq, if_false, if_true, he, hraw', ok_bind]
  | case5 h1 h2 h3 h4 rest hh hq hu ih =>
    simp only [scanString, hq, if_false, if_true, hu, hh, and_self] at h
    obtain ⟨⟨raw', r1⟩, hraw, h⟩ := bind_ok_iff.mp h
    cases h
    obtain ⟨c', rfl, rfl⟩ := of_append_cons_eq (k := [backslash, 117, h1, h2, h3, h4]) hinp
      (hs.trans (scanString_eats t hraw).leaves)
    obtain ⟨c'', rfl, hraw'⟩ := ih rfl hraw
    refine ⟨c'', rfl, ?_⟩
    simp only [List.cons_append, List.nil_append, scanString, hq, if_false, if_true, hu, hh, and_self, hraw', ok_bind]
  | case6 h1 h2 h3 h4 rest hh hq hu => simp [scanString, hq, hu, hh] at h
  | case7 rest hshort hq hu =>
    simp only [scanString, hq, if_false, if_true, hu] at h
    simp at h
  | case8 e rest he hu hq =>
    unfold scanString at h
    simp [hq, he, hu] at h
  | case9 b rest hq hb hlt =>
    unfold scanString at h
    simp [hq, hb, hlt] at h
  | case10 b rest hq hb hlt ih =>
    unfold scanString at h
    simp only [hq, hb, hlt, if_false] at h
    obtain ⟨⟨raw', r1⟩, hraw, h⟩ := bind_ok_iff.mp h
    cases h
    obtain ⟨c', rfl, rfl⟩ := of_append_cons_eq (k := [b]) hinp (hs.trans (scanString_eats t hraw).leaves)
    obtain ⟨c'', rfl, hraw'⟩ := ih rfl hraw
    refine ⟨c'', rfl, ?_⟩
    simp only [List.cons_append, List.nil_append]
    unfold scanString
    simp only [hq, hb, hlt, if_false, hraw', ok_bind]

/-- The first byte after whitespace stands in the span when the scan ends past it. -/
lemma skipWs_cons_moves {b : UInt8} {rest : Bytes} (h : skipWs t (c ++ r) = .ok (b :: rest)) (hs : r <:+ rest) :
    ∃ c', rest = c' ++ r ∧ skipWs u (c ++ q) = .ok (b :: (c' ++ q)) := by
  have hne : b :: rest ≠ r := by
    intro heq
    have hle := hs.length_le
    rw [← heq, List.length_cons] at hle
    omega
  obtain ⟨c1, hc1, hskip⟩ := skipWs_moves (u := u) (q := q) h (hs.trans (List.suffix_cons b rest)) hne
  obtain ⟨c', rfl, rfl⟩ := of_append_cons_eq (k := [b]) hc1.symm hs
  exact ⟨c', rfl, hskip⟩

lemma nextItem_moves {close : UInt8} {first more : Bool} (h : nextItem t close first (c ++ r) = .ok (more, s))
    (hs : r <:+ s) (hne : more = true → s ≠ r) :
    ∃ c', s = c' ++ r ∧ nextItem u close first (c ++ q) = .ok (more, c' ++ q) := by
  obtain ⟨w, hw, h⟩ := bind_ok_iff.mp h
  cases w with
  | nil => simp at h
  | cons b rest =>
    simp only at h
    split_ifs at h with hclose hfirst hcomma
    · cases h
      obtain ⟨c', rfl, hskip⟩ := skipWs_cons_moves (u := u) (q := q) hw hs
      exact ⟨c', rfl, by simp [nextItem, hskip, hclose]⟩
    · cases h
      obtain ⟨c', hc', hskip⟩ := skipWs_moves (u := u) (q := q) hw hs (hne rfl)
      cases c' with
      | nil => exact (hne rfl (by rw [hc']; rfl)).elim
      | cons b' c' =>
        obtain ⟨rfl, rfl⟩ := List.cons.inj hc'
        exact ⟨b :: c', rfl, by simp [nextItem, hskip, hclose, hfirst]⟩
    · obtain ⟨w', hw', h⟩ := bind_ok_iff.mp h
      cases w' with
      | nil => simp at h
      | cons b' rest' =>
        simp only at h
        split_ifs at h with hclose'
        cases h
        obtain ⟨c', rfl, hskip⟩ := skipWs_cons_moves (u := u) (q := q) hw (hs.trans (skipWs_leaves t hw'))
        obtain ⟨c'', hc'', hskip'⟩ := skipWs_moves (u := u) (q := q) hw' hs (hne rfl)
        cases c'' with
        | nil => exact (hne rfl (by rw [hc'']; rfl)).elim
        | cons x c'' =>
          obtain ⟨rfl, rfl⟩ := List.cons.inj hc''
          subst hcomma
          exact ⟨b' :: c'', rfl, by simp [nextItem, hskip, hclose, hfirst, hskip', hclose']⟩

lemma scanKey_moves {key : Bytes} (h : scanKey t (c ++ r) = .ok (key, s)) (hs : r <:+ s) :
    ∃ c', s = c' ++ r ∧ scanKey u (c ++ q) = .ok (key, c' ++ q) := by
  cases c with
  | nil =>
    have hlt := (scanKey_eats t h).length_lt
    have hle := hs.length_le
    simp only [List.nil_append] at hlt
    omega
  | cons b c =>
    simp only [List.cons_append, scanKey] at h ⊢
    split_ifs at h ⊢ with hb
    obtain ⟨⟨raw, r1⟩, hraw, h⟩ := bind_ok_iff.mp h
    obtain ⟨w, hw, h⟩ := bind_ok_iff.mp h
    cases w with
    | nil => simp at h
    | cons x rest =>
      simp only at h
      split_ifs at h with hcolon
      cases h
      have hrest := (hs.trans (List.suffix_cons x s)).trans (skipWs_leaves t hw)
      obtain ⟨c1, rfl, hraw'⟩ := scanString_moves (u := u) (q := q) hraw hrest
      obtain ⟨c2, rfl, hskip⟩ := skipWs_cons_moves (u := u) (q := q) hw hs
      exact ⟨c2, rfl, by simp [hraw', hskip, hcolon]⟩

lemma skipWs_head {inp rest : Bytes} {b : UInt8} (h : skipWs t inp = .ok (b :: rest)) : isWhitespace b = false := by
  induction inp with
  | nil => cases t <;> simp [skipWs] at h
  | cons x inp ih =>
    simp only [skipWs] at h
    split_ifs at h with hx
    · exact ih h
    · cases h
      simpa using hx

lemma scanHead_moves (hr : Ends u q) {hd : Head} (h : scanHead t (c ++ r) = .ok (hd, s)) (hs : r <:+ s) :
    ∃ c', s = c' ++ r ∧ scanHead u (c ++ q) = .ok (hd, c' ++ q) := by
  obtain ⟨w, hw, h⟩ := bind_ok_iff.mp h
  cases w with
  | nil => simp at h
  | cons b rest =>
    have hrest : r <:+ rest := by
      have hhead : scanHead t (b :: rest) = .ok (hd, s) := by
        simpa only [scanHead, skipWs, skipWs_head hw, Bool.false_eq_true, if_false, ok_bind] using h
      have hlt := (scanHead_eats t hhead).length_lt
      rcases List.suffix_cons_iff.mp (hs.trans (scanHead_eats t hhead).leaves) with heq | hrest
      · have hle := hs.length_le
        rw [heq] at hle
        omega
      · exact hrest
    obtain ⟨c1, rfl, hskip⟩ := skipWs_cons_moves (u := u) (q := q) hw hrest
    simp only [scanHead, hskip, ok_bind] at h ⊢
    split_ifs at h ⊢
    iterate 3
      obtain ⟨r1, hident, h⟩ := bind_ok_iff.mp h
      cases h
      obtain ⟨c2, rfl, hident'⟩ := scanIdent_moves (u := u) (q := q) hident hs
      exact ⟨c2, rfl, by rw [hident']; rfl⟩
    · obtain ⟨⟨lexeme, r1⟩, hnum, h⟩ := bind_ok_iff.mp h
      cases h
      obtain ⟨c2, rfl, hnum'⟩ := scanUnsigned_moves (u := u) hr hnum hs
      exact ⟨c2, rfl, by rw [hnum']; rfl⟩
    · obtain ⟨⟨lexeme, r1⟩, hnum, h⟩ := bind_ok_iff.mp h
      cases h
      obtain ⟨c2, rfl, hnum'⟩ := scanUnsigned_moves (c := b :: c1) (u := u) hr hnum hs
      exact ⟨c2, rfl, by rw [← List.cons_append, hnum']; rfl⟩
    · obtain ⟨⟨raw, r1⟩, hraw, h⟩ := bind_ok_iff.mp h
      cases h
      obtain ⟨c2, rfl, hraw'⟩ := scanString_moves (u := u) (q := q) hraw hs
      exact ⟨c2, rfl, by rw [hraw']; rfl⟩
    · cases h
      exact ⟨c1, rfl, rfl⟩
    · cases h
      exact ⟨c1, rfl, rfl⟩

end Scalars

section Values
variable {t u : Tail} {r q : Bytes}

/-- A scan that ends no earlier than the span does goes the same way where something else follows. -/
lemma moves_rule (hr : Ends u q) :
    ScanRule t
      (fun inp v s => ∀ c, inp = c ++ r → r <:+ s →
        ∃ c', s = c' ++ r ∧ scanValue u (c ++ q) = .ok (v, c' ++ q))
      (fun first inp vs s => ∀ c, inp = c ++ r → r <:+ s →
        ∃ c', s = c' ++ r ∧ scanItems u first (c ++ q) = .ok (vs, c' ++ q))
      (fun first inp ms s => ∀ c, inp = c ++ r → r <:+ s →
        ∃ c', s = c' ++ r ∧ scanMembers u first (c ++ q) = .ok (ms, c' ++ q)) where
  scalar := by
    rintro _ v s hhd c rfl hs
    obtain ⟨c', rfl, hhd'⟩ := scanHead_moves (u := u) hr hhd hs
    exact ⟨c', rfl, by rw [scanValue_eq, hhd']; rfl⟩
  items := by
    rintro _ r1 vs s hhd hvs ih c rfl hs
    obtain ⟨c1, rfl, hhd'⟩ := scanHead_moves (u := u) hr hhd (hs.trans (scanItems_eats t hvs).leaves)
    obtain ⟨c2, rfl, hvs'⟩ := ih c1 rfl hs
    exact ⟨c2, rfl, by rw [scanValue_eq]; simp only [hhd', ok_bind, hvs']⟩
  members := by
    rintro _ r1 ms s hhd hms ih c rfl hs
    obtain ⟨c1, rfl, hhd'⟩ := scanHead_moves (u := u) hr hhd (hs.trans (scanMembers_eats t hms).leaves)
    obtain ⟨c2, rfl, hms'⟩ := ih c1 rfl hs
    exact ⟨c2, rfl, by rw [scanValue_eq]; simp only [hhd', ok_bind, hms']⟩
  noItem := by
    rintro first _ s hnext c rfl hs
    obtain ⟨c', rfl, hnext'⟩ := nextItem_moves (u := u) (q := q) hnext hs (by simp)
    exact ⟨c', rfl, by rw [scanItems_eq, hnext']; rfl⟩
  item := by
    rintro first _ mid v r1 vs s hnext hv ihv hvs ih c rfl hs
    have heats := scanValue_eats t hv
    have hs1 := hs.trans (scanItems_eats t hvs).leaves
    have hmid : mid ≠ r := by
      rintro rfl
      exact absurd heats.length_lt (by simpa using hs1.length_le)
    obtain ⟨c1, rfl, hnext'⟩ := nextItem_moves (u := u) (q := q) hnext (hs1.trans heats.leaves) (fun _ => hmid)
    obtain ⟨c2, rfl, hv'⟩ := ihv c1 rfl hs1
    obtain ⟨c3, rfl, hvs'⟩ := ih c2 rfl hs
    refine ⟨c3, rfl, ?_⟩
    obtain ⟨k, -, hk⟩ := heats
    rw [← List.append_assoc] at hk
    obtain rfl := List.append_cancel_right hk
    rw [scanItems_eq]
    simp only [hnext', ok_bind, hv', hvs']
    simp only [List.append_assoc, consumed_append]
  noMember := by
    rintro first _ s hnext c rfl hs
    obtain ⟨c', rfl, hnext'⟩ := nextItem_moves (u := u) (q := q) hnext hs (by simp)
    exact ⟨c', rfl, by rw [scanMembers_eq, hnext']; rfl⟩
  member := by
    rintro first _ mid key r1 v r2 ms s hnext hkey hv ihv hms ih c rfl hs
    have hs2 := hs.trans (scanMembers_eats t hms).leaves
    have hs1 := hs2.trans (scanValue_eats t hv).leaves
    have hmid : mid ≠ r := by
      rintro rfl
      exact absurd (scanKey_eats t hkey).length_lt (by simpa using hs1.length_le)
    obtain ⟨c1, rfl, hnext'⟩ := nextItem_moves (u := u) (q := q) hnext
      (hs1.trans (scanKey_eats t hkey).leaves) (fun _ => hmid)
    obtain ⟨c2, rfl, hkey'⟩ := scanKey_moves (u := u) (q := q) hkey hs1
    obtain ⟨c3, rfl, hv'⟩ := ihv c2 rfl hs2
    obtain ⟨c4, rfl, hms'⟩ := ih c3 rfl hs
    exact ⟨c4, rfl, by rw [scanMembers_eq]; simp only [hnext', ok_bind, hkey', hv', hms']⟩

lemma scanValue_ends (hr : Ends u q) {c : Bytes} {v : Lex} (h : scanValue t (c ++ r) = .ok (v, r)) :
    scanValue u (c ++ q) = .ok (v, q) := by
  obtain ⟨c', hc', h'⟩ := (moves_rule (t := t) (u := u) (r := r) hr).scan.1 _ v r h c rfl List.suffix_rfl
  have hnil : c' = [] := by
    have hlength := congrArg List.length hc'
    rw [List.length_append] at hlength
    exact List.length_eq_zero_iff.mp (by omega)
  rw [h', hnil]
  rfl

/-- A value scans the same from its own text wherever that text is followed by a stop. -/
theorem scanValue_moves (hr : Stops q) {c : Bytes} {v : Lex} (h : scanValue t (c ++ r) = .ok (v, r)) :
    scanValue u (c ++ q) = .ok (v, q) :=
  scanValue_ends (.inl hr) h

/-- The text of a value is a document. -/
theorem scanDocument_alone {c : Bytes} {v : Lex} (h : scanValue t (c ++ r) = .ok (v, r)) : scanDocument c = .ok v := by
  have halone := scanValue_ends (u := .eof) (q := []) (.inr ⟨rfl, rfl⟩) h
  rw [List.append_nil] at halone
  rw [scanDocument, halone]
  rfl

end Values

end CloudTrailFilter.Json
