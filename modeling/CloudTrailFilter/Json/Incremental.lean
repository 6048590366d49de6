import CloudTrailFilter.Lib.Fallible
import CloudTrailFilter.Json.Scan

/-!
# Scanning a text piece by piece

Three facts about the scanner that every later argument rests on. A successful scan leaves a
suffix of its input, and a value takes at least one byte. The fuel of the recursive scans
is enough, so they satisfy fuel-free equations. And the scan is incremental:
what it decides on a cut input it decides on every continuation of it.
-/

namespace CloudTrailFilter.Json
open Fallible

section Suffix

/-- `r` is what is left of `inp` after at least one byte. -/
def Eats (inp r : Bytes) : Prop := ∃ c, c ≠ [] ∧ inp = c ++ r

lemma Eats.leaves {inp r : Bytes} (h : Eats inp r) : r <:+ inp := by
  obtain ⟨c, -, rfl⟩ := h
  exact List.suffix_append c r

lemma Eats.length_lt {inp r : Bytes} (h : Eats inp r) : r.length < inp.length := by
  obtain ⟨c, hc, rfl⟩ := h
  have := List.length_pos_of_ne_nil hc
  simp only [List.length_append]
  omega

lemma Eats.of_leaves {inp mid r : Bytes} (h : mid <:+ inp) (h' : Eats mid r) : Eats inp r := by
  obtain ⟨c, rfl⟩ := h
  obtain ⟨d, hd, rfl⟩ := h'
  exact ⟨c ++ d, by simp [hd], by simp⟩

lemma Eats.then_leaves {inp mid r : Bytes} (h : Eats inp mid) (h' : r <:+ mid) : Eats inp r := by
  obtain ⟨c, hc, rfl⟩ := h
  obtain ⟨d, rfl⟩ := h'
  exact ⟨c ++ d, by simp [hc], by simp⟩

lemma Eats.cons {b : UInt8} {rest r : Bytes} (h : r <:+ rest) : Eats (b :: rest) r := by
  obtain ⟨c, rfl⟩ := h
  exact ⟨b :: c, by simp, by simp⟩

lemma consumed_append (c r : Bytes) : consumed (c ++ r) r = c := by
  simp [consumed]

variable (t : Tail)

lemma skipWs_leaves {inp r : Bytes} (h : skipWs t inp = .ok r) : r <:+ inp := by
  induction inp with
  | nil => cases t <;> simp [skipWs] at h; simp [h]
  | cons b rest ih =>
    simp only [skipWs] at h
    split_ifs at h with hb
    · exact (ih h).trans (List.suffix_cons b rest)
    · cases h; exact List.suffix_rfl

lemma skipWs_cut_ne_nil {inp : Bytes} : skipWs .cut inp ≠ .ok [] := by
  induction inp with
  | nil => simp [skipWs]
  | cons b rest ih =>
    simp only [skipWs]
    split_ifs
    · exact ih
    · simp

lemma scanIdent_leaves {expected inp r : Bytes} (h : scanIdent t expected inp = .ok r) :
    r <:+ inp := by
  induction expected generalizing inp with
  | nil => cases h; exact List.suffix_rfl
  | cons e expected ih =>
    cases inp with
    | nil => simp [scanIdent] at h
    | cons b rest =>
      simp only [scanIdent] at h
      split_ifs at h
      exact (ih h).trans (List.suffix_cons b rest)

lemma scanDigits_leaves {inp ds r : Bytes} (h : scanDigits t inp = .ok (ds, r)) : r <:+ inp := by
  induction inp generalizing ds with
  | nil => cases t <;> simp [scanDigits] at h; simp [h.2]
  | cons b rest ih =>
    simp only [scanDigits] at h
    split_ifs at h
    · obtain ⟨⟨ds', r'⟩, hd, h⟩ := bind_ok_iff.mp h
      cases h
      exact (ih hd).trans (List.suffix_cons b rest)
    · cases h; exact List.suffix_rfl

lemma scanDigits1_eats {inp ds r : Bytes} (h : scanDigits1 t inp = .ok (ds, r)) : Eats inp r := by
  cases inp with
  | nil => simp [scanDigits1] at h
  | cons b rest =>
    simp only [scanDigits1] at h
    split_ifs at h
    obtain ⟨⟨ds', r'⟩, hd, h⟩ := bind_ok_iff.mp h
    cases h
    exact .cons (scanDigits_leaves t hd)

lemma scanInteger_eats {inp ds r : Bytes} (h : scanInteger t inp = .ok (ds, r)) : Eats inp r := by
  cases inp with
  | nil => simp [scanInteger] at h
  | cons b rest =>
    simp only [scanInteger] at h
    split_ifs at h
    · cases rest with
      | nil => cases t <;> simp at h; exact .cons (by simp [h.2])
      | cons d rest =>
        simp only at h
        split_ifs at h
        cases h
        exact .cons List.suffix_rfl
    · exact scanDigits1_eats t h

lemma scanFraction_leaves {inp ds r : Bytes} (h : scanFraction t inp = .ok (ds, r)) : r <:+ inp := by
  cases inp with
  | nil => cases t <;> simp [scanFraction] at h; simp [h.2]
  | cons b rest =>
    simp only [scanFraction] at h
    split_ifs at h
    · obtain ⟨⟨ds', r'⟩, hd, h⟩ := bind_ok_iff.mp h
      cases h
      exact (scanDigits1_eats t hd).leaves.trans (List.suffix_cons _ _)
    · cases h; exact List.suffix_rfl

lemma scanSign_leaves {inp ds r : Bytes} (h : scanSign t inp = .ok (ds, r)) : r <:+ inp := by
  cases inp with
  | nil => simp [scanSign] at h
  | cons b rest =>
    simp only [scanSign] at h
    split_ifs at h
    · cases h; exact List.suffix_cons _ _
    · cases h; exact List.suffix_rfl

lemma scanExponent_leaves {inp ds r : Bytes} (h : scanExponent t inp = .ok (ds, r)) : r <:+ inp := by
  cases inp with
  | nil => cases t <;> simp [scanExponent] at h; simp [h.2]
  | cons b rest =>
    simp only [scanExponent] at h
    split_ifs at h
    · obtain ⟨⟨sign, r'⟩, hs, h⟩ := bind_ok_iff.mp h
      obtain ⟨⟨ds', r''⟩, hd, h⟩ := bind_ok_iff.mp h
      cases h
      exact ((scanDigits1_eats t hd).leaves.trans (scanSign_leaves t hs)).trans (List.suffix_cons b rest)
    · cases h; exact List.suffix_rfl

lemma scanUnsigned_eats {inp ds r : Bytes} (h : scanUnsigned t inp = .ok (ds, r)) : Eats inp r := by
  obtain ⟨⟨i, r1⟩, hi, h⟩ := bind_ok_iff.mp h
  obtain ⟨⟨f, r2⟩, hf, h⟩ := bind_ok_iff.mp h
  obtain ⟨⟨e, r3⟩, he, h⟩ := bind_ok_iff.mp h
  cases h
  exact (scanInteger_eats t hi).then_leaves ((scanExponent_leaves t he).trans (scanFraction_leaves t hf))

lemma scanString_eats {inp raw r : Bytes} (h : scanString t inp = .ok (raw, r)) : Eats inp r := by
  induction inp using scanString.induct generalizing raw with
  | case1 => simp [scanString] at h
  | case2 rest =>
    unfold scanString at h
    simp only [if_true, Except.ok.injEq, Prod.mk.injEq] at h
    exact .cons (by simp [h.2])
  | case3 hq => simp [scanString, hq] at h
  | case4 e rest he hq ih =>
    unfold scanString at h
    simp only [hq, if_false, if_true, he] at h
    obtain ⟨⟨raw', r'⟩, hr, h⟩ := bind_ok_iff.mp h
    cases h
    exact .of_leaves ((List.suffix_cons e rest).trans (List.suffix_cons _ _)) (ih hr)
  | case5 h1 h2 h3 h4 rest hh hq hu ih =>
    simp only [scanString, hq, if_false, if_true, hu, hh, and_self] at h
    obtain ⟨⟨raw', r'⟩, hr, h⟩ := bind_ok_iff.mp h
    cases h
    exact .of_leaves (List.suffix_append [backslash, 117, h1, h2, h3, h4] rest) (ih hr)
  | case6 h1 h2 h3 h4 rest hh hq hu => simp [scanString, hq, hu, hh] at h
  | case7 rest hshort hq hu =>
    simp only [scanString, hq, if_false, if_true, hu] at h
    simp at h
  | case8 e rest he hu hq =>
    unfold scanString at h
    simp [hq, he, hu] at h
  | case9 b rest hq hb hlt =>
    unfold scanString at h
    simp [hq, hb, hlt] at h
  | case10 b rest hq hb hlt ih =>
    unfold scanString at h
    simp only [hq, hb, hlt, if_false] at h
    obtain ⟨⟨raw', r'⟩, hr, h⟩ := bind_ok_iff.mp h
    cases h
    exact .of_leaves (List.suffix_cons b rest) (ih hr)

lemma nextItem_leaves {close : UInt8} {first more : Bool} {inp r : Bytes}
    (h : nextItem t close first inp = .ok (more, r)) :
    r <:+ inp ∧ (more = false → Eats inp r) ∧ (first = false → Eats inp r) := by
  obtain ⟨w, hw, h⟩ := bind_ok_iff.mp h
  have hl := skipWs_leaves t hw
  cases w with
  | nil => simp at h
  | cons b rest =>
    simp only at h
    split_ifs at h with hclose hfirst hcomma
    · cases h
      have := Eats.of_leaves hl (Eats.cons (b := b) List.suffix_rfl)
      exact ⟨this.leaves, fun _ => this, fun _ => this⟩
    · cases h
      exact ⟨hl, by simp, by simp [hfirst]⟩
    · obtain ⟨w', hw', h⟩ := bind_ok_iff.mp h
      cases w' with
      | nil => simp at h
      | cons b' rest' =>
        simp only at h
        split_ifs at h
        cases h
        have := Eats.of_leaves hl (Eats.cons (b := b) (skipWs_leaves t hw'))
        exact ⟨this.leaves, by simp, fun _ => this⟩

lemma scanKey_eats {inp key r : Bytes} (h : scanKey t inp = .ok (key, r)) : Eats inp r := by
  cases inp with
  | nil => simp [scanKey] at h
  | cons b rest =>
    simp only [scanKey] at h
    split_ifs at h
    obtain ⟨⟨raw, r1⟩, hs, h⟩ := bind_ok_iff.mp h
    obtain ⟨w, hw, h⟩ := bind_ok_iff.mp h
    cases w with
    | nil => simp at h
    | cons c rest' =>
      simp only at h
      split_ifs at h
      cases h
      refine .cons (List.IsSuffix.trans ?_ (scanString_eats t hs).leaves)
      exact (List.suffix_cons c r).trans (skipWs_leaves t hw)

lemma scanHead_eats {inp r : Bytes} {hd : Head} (h : scanHead t inp = .ok (hd, r)) : Eats inp r := by
  obtain ⟨w, hw, h⟩ := bind_ok_iff.mp h
  refine .of_leaves (skipWs_leaves t hw) ?_
  cases w with
  | nil => simp at h
  | cons b rest =>
    simp only at h
    split_ifs at h
    iterate 3
      obtain ⟨r', hr, h⟩ := bind_ok_iff.mp h
      cases h
      exact .cons (scanIdent_leaves t hr)
    · obtain ⟨⟨l, r'⟩, hr, h⟩ := bind_ok_iff.mp h
      cases h
      exact .cons (scanUnsigned_eats t hr).leaves
    · obtain ⟨⟨l, r'⟩, hr, h⟩ := bind_ok_iff.mp h
      cases h
      exact scanUnsigned_eats t hr
    · obtain ⟨⟨l, r'⟩, hr, h⟩ := bind_ok_iff.mp h
      cases h
      exact .cons (scanString_eats t hr).leaves
    · cases h; exact .cons List.suffix_rfl
    · cases h; exact .cons List.suffix_rfl

/-- A head that announces a scalar never holds a container. -/
lemma scanHead_scalar {inp r : Bytes} {v : Lex} (h : scanHead t inp = .ok (.scalar v, r)) :
    (∀ items, v ≠ .arr items) ∧ ∀ members, v ≠ .obj members := by
  obtain ⟨w, hw, h⟩ := bind_ok_iff.mp h
  cases w with
  | nil => simp at h
  | cons b rest =>
    simp only at h
    split_ifs at h <;> first
      | (obtain ⟨r', -, h⟩ := bind_ok_iff.mp h
         simp only [Except.ok.injEq, Prod.mk.injEq, Head.scalar.injEq] at h
         obtain ⟨rfl, -⟩ := h
         simp)
      | simp at h

/-- Values, element lists and member lists all take at least a byte. -/
lemma scanAux_eats (n : ℕ) :
    (∀ inp v r, scanValueAux t n inp = .ok (v, r) → Eats inp r) ∧
    (∀ first inp vs r, scanItemsAux t n first inp = .ok (vs, r) → Eats inp r) ∧
    (∀ first inp ms r, scanMembersAux t n first inp = .ok (ms, r) → Eats inp r) := by
  induction n with
  | zero => simp [scanValueAux, scanItemsAux, scanMembersAux]
  | succ n ih =>
    obtain ⟨ihv, ihi, ihm⟩ := ih
    refine ⟨?_, ?_, ?_⟩
    · intro inp v r h
      obtain ⟨⟨hd, r1⟩, hh, h⟩ := bind_ok_iff.mp h
      have he := scanHead_eats t hh
      cases hd with
      | scalar v' => cases h; exact he
      | items =>
        obtain ⟨⟨vs, r2⟩, hi, h⟩ := bind_ok_iff.mp h
        cases h
        exact he.then_leaves (ihi _ _ _ _ hi).leaves
      | members =>
        obtain ⟨⟨ms, r2⟩, hm, h⟩ := bind_ok_iff.mp h
        cases h
        exact he.then_leaves (ihm _ _ _ _ hm).leaves
    · intro first inp vs r h
      obtain ⟨⟨more, r1⟩, hn, h⟩ := bind_ok_iff.mp h
      obtain ⟨hl, hclose, -⟩ := nextItem_leaves t hn
      cases more with
      | false => cases h; exact hclose rfl
      | true =>
        obtain ⟨⟨v, r2⟩, hv, h⟩ := bind_ok_iff.mp h
        obtain ⟨⟨vs', r3⟩, hi, h⟩ := bind_ok_iff.mp h
        cases h
        exact .of_leaves hl ((ihv _ _ _ hv).then_leaves (ihi _ _ _ _ hi).leaves)
    · intro first inp ms r h
      obtain ⟨⟨more, r1⟩, hn, h⟩ := bind_ok_iff.mp h
      obtain ⟨hl, hclose, -⟩ := nextItem_leaves t hn
      cases more with
      | false => cases h; exact hclose rfl
      | true =>
        obtain ⟨⟨k, r2⟩, hk, h⟩ := bind_ok_iff.mp h
        obtain ⟨⟨v, r3⟩, hv, h⟩ := bind_ok_iff.mp h
        obtain ⟨⟨ms', r4⟩, hm, h⟩ := bind_ok_iff.mp h
        cases h
        exact .of_leaves hl ((scanKey_eats t hk).then_leaves
          ((ihm _ _ _ _ hm).leaves.trans (ihv _ _ _ hv).leaves))

lemma scanValue_eats {inp r : Bytes} {v : Lex} (h : scanValue t inp = .ok (v, r)) : Eats inp r :=
  (scanAux_eats t _).1 _ _ _ h

lemma scanItems_eats {first : Bool} {inp r : Bytes} {vs : List (Bytes × Lex)}
    (h : scanItems t first inp = .ok (vs, r)) : Eats inp r :=
  (scanAux_eats t _).2.1 _ _ _ _ h

lemma scanMembers_eats {first : Bool} {inp r : Bytes} {ms : List (Bytes × Lex)}
    (h : scanMembers t first inp = .ok (ms, r)) : Eats inp r :=
  (scanAux_eats t _).2.2 _ _ _ _ h

end Suffix

section Fuel
variable (t : Tail)

/-- Binding over equal successes is equal. -/
lemma bind_congr_ok {α β : Type} {x : Except Fault α} {f g : α → Except Fault β}
    (h : ∀ a, x = .ok a → f a = g a) : (x >>= f) = (x >>= g) := by
  cases x with
  | error e => rfl
  | ok a => exact h a rfl

/-- More fuel than the input can use changes nothing. -/
lemma scanAux_fuel (n : ℕ) :
    (∀ inp m, 2 * inp.length + 1 ≤ n → n ≤ m → scanValueAux t n inp = scanValueAux t m inp) ∧
    (∀ first inp m, 2 * inp.length + 2 ≤ n → n ≤ m →
      scanItemsAux t n first inp = scanItemsAux t m first inp) ∧
    (∀ first inp m, 2 * inp.length + 2 ≤ n → n ≤ m →
      scanMembersAux t n first inp = scanMembersAux t m first inp) := by
  induction n with
  | zero => refine ⟨?_, ?_, ?_⟩ <;> intros <;> omega
  | succ n ih =>
    obtain ⟨ihv, ihi, ihm⟩ := ih
    refine ⟨?_, ?_, ?_⟩
    · intro inp m hn hm
      obtain ⟨m, rfl⟩ : ∃ k, m = k + 1 := ⟨m - 1, by omega⟩
      simp only [scanValueAux]
      apply bind_congr_ok
      rintro ⟨hd, r⟩ hh
      have hlt := (scanHead_eats t hh).length_lt
      cases hd with
      | scalar v => rfl
      | items => simp only [ihi true r m (by omega) (by omega)]
      | members => simp only [ihm true r m (by omega) (by omega)]
    · intro first inp m hn hm
      obtain ⟨m, rfl⟩ : ∃ k, m = k + 1 := ⟨m - 1, by omega⟩
      simp only [scanItemsAux]
      apply bind_congr_ok
      rintro ⟨more, r⟩ hnext
      have hle := (nextItem_leaves t hnext).1.length_le
      cases more with
      | false => rfl
      | true =>
        simp only
        rw [← ihv r m (by omega) (by omega)]
        apply bind_congr_ok
        rintro ⟨v, r'⟩ hv
        have hlt := ((scanAux_eats t n).1 _ _ _ hv).length_lt
        simp only [ihi false r' m (by omega) (by omega)]
    · intro first inp m hn hm
      obtain ⟨m, rfl⟩ : ∃ k, m = k + 1 := ⟨m - 1, by omega⟩
      simp only [scanMembersAux]
      apply bind_congr_ok
      rintro ⟨more, r⟩ hnext
      have hle := (nextItem_leaves t hnext).1.length_le
      cases more with
      | false => rfl
      | true =>
        apply bind_congr_ok
        rintro ⟨k, r'⟩ hk
        have hlt := (scanKey_eats t hk).length_lt
        simp only
        rw [← ihv r' m (by omega) (by omega)]
        apply bind_congr_ok
        rintro ⟨v, r''⟩ hv
        have hlt' := ((scanAux_eats t n).1 _ _ _ hv).length_lt
        simp only [ihm false r'' m (by omega) (by omega)]

lemma scanValueAux_eq {n : ℕ} {inp : Bytes} (h : 2 * inp.length + 1 ≤ n) :
    scanValueAux t n inp = scanValue t inp := by
  have h0 := (scanAux_fuel t (2 * inp.length + 1)).1 inp
  rw [scanValue, fuelFor]
  exact (h0 n le_rfl h).symm.trans (h0 _ le_rfl (by omega))

lemma scanItemsAux_eq {n : ℕ} {first : Bool} {inp : Bytes} (h : 2 * inp.length + 2 ≤ n) :
    scanItemsAux t n first inp = scanItems t first inp :=
  ((scanAux_fuel t _).2.1 first inp n le_rfl h).symm

lemma scanMembersAux_eq {n : ℕ} {first : Bool} {inp : Bytes} (h : 2 * inp.length + 2 ≤ n) :
    scanMembersAux t n first inp = scanMembers t first inp :=
  ((scanAux_fuel t _).2.2 first inp n le_rfl h).symm

/-- The scan of a value without fuel. -/
theorem scanValue_eq (inp : Bytes) : scanValue t inp = (do
    match ← scanHead t inp with
    | (.scalar v, rest) => .ok (v, rest)
    | (.items, rest) => do
      let (vs, rest) ← scanItems t true rest
      .ok (.arr vs, rest)
    | (.members, rest) => do
      let (ms, rest) ← scanMembers t true rest
      .ok (.obj ms, rest)) := by
  rw [scanValue, fuelFor, scanValueAux]
  apply bind_congr_ok
  rintro ⟨hd, r⟩ hh
  have hlt := (scanHead_eats t hh).length_lt
  cases hd with
  | scalar v => rfl
  | items => simp only [scanItemsAux_eq t (show 2 * r.length + 2 ≤ 2 * inp.length + 1 by omega)]
  | members => simp only [scanMembersAux_eq t (show 2 * r.length + 2 ≤ 2 * inp.length + 1 by omega)]

theorem scanItems_eq (first : Bool) (inp : Bytes) : scanItems t first inp = (do
    match ← nextItem t closeBracket first inp with
    | (false, rest) => .ok ([], rest)
    | (true, inp) => do
      let (v, rest) ← scanValue t inp
      let (vs, rest') ← scanItems t false rest
      .ok ((consumed inp rest, v) :: vs, rest')) := by
  rw [scanItems, fuelFor, scanItemsAux]
  apply bind_congr_ok
  rintro ⟨more, r⟩ hnext
  have hle := (nextItem_leaves t hnext).1.length_le
  cases more with
  | false => rfl
  | true =>
    simp only
    rw [scanValueAux_eq t (by omega)]
    apply bind_congr_ok
    rintro ⟨v, r'⟩ hv
    have hlt := (scanValue_eats t hv).length_lt
    simp only [scanItemsAux_eq t (show 2 * r'.length + 2 ≤ 2 * inp.length + 1 by omega)]

theorem scanMembers_eq (first : Bool) (inp : Bytes) : scanMembers t first inp = (do
    match ← nextItem t closeBrace first inp with
    | (false, rest) => .ok ([], rest)
    | (true, inp) => do
      let (key, rest) ← scanKey t inp
      let (v, rest) ← scanValue t rest
      let (ms, rest) ← scanMembers t false rest
      .ok ((key, v) :: ms, rest)) := by
  rw [scanMembers, fuelFor, scanMembersAux]
  apply bind_congr_ok
  rintro ⟨more, r⟩ hnext
  have hle := (nextItem_leaves t hnext).1.length_le
  cases more with
  | false => rfl
  | true =>
    apply bind_congr_ok
    rintro ⟨k, r'⟩ hk
    have hlt := (scanKey_eats t hk).length_lt
    simp only
    rw [scanValueAux_eq t (by omega)]
    apply bind_congr_ok
    rintro ⟨v, r''⟩ hv
    have hlt' := (scanValue_eats t hv).length_lt
    simp only [scanMembersAux_eq t (show 2 * r''.length + 2 ≤ 2 * inp.length + 1 by omega)]

end Fuel

section Induction

/-- Properties of scanned values, element lists and member lists that hold along every way in which a
scan goes on. -/
structure ScanRule (t : Tail) (V : Bytes → Lex → Bytes → Prop)
    (I M : Bool → Bytes → List (Bytes × Lex) → Bytes → Prop) : Prop where
  scalar : ∀ {inp v r}, scanHead t inp = .ok (.scalar v, r) → V inp v r
  items : ∀ {inp r1 vs r}, scanHead t inp = .ok (.items, r1) → scanItems t true r1 = .ok (vs, r) →
    I true r1 vs r → V inp (.arr vs) r
  members : ∀ {inp r1 ms r}, scanHead t inp = .ok (.members, r1) → scanMembers t true r1 = .ok (ms, r) →
    M true r1 ms r → V inp (.obj ms) r
  noItem : ∀ {first inp r}, nextItem t closeBracket first inp = .ok (false, r) → I first inp [] r
  item : ∀ {first inp mid v r1 vs r}, nextItem t closeBracket first inp = .ok (true, mid) →
    scanValue t mid = .ok (v, r1) → V mid v r1 → scanItems t false r1 = .ok (vs, r) → I false r1 vs r →
    I first inp ((consumed mid r1, v) :: vs) r
  noMember : ∀ {first inp r}, nextItem t closeBrace first inp = .ok (false, r) → M first inp [] r
  member : ∀ {first inp mid key r1 v r2 ms r}, nextItem t closeBrace first inp = .ok (true, mid) →
    scanKey t mid = .ok (key, r1) → scanValue t r1 = .ok (v, r2) → V r1 v r2 →
    scanMembers t false r2 = .ok (ms, r) → M false r2 ms r → M first inp ((key, v) :: ms) r

variable {t : Tail} {V : Bytes → Lex → Bytes → Prop} {I M : Bool → Bytes → List (Bytes × Lex) → Bytes → Prop}

/-- By induction on a bound of the input's length. -/
lemma ScanRule.bounded (h : ScanRule t V I M) (n : ℕ) :
    (∀ inp v r, inp.length ≤ n → scanValue t inp = .ok (v, r) → V inp v r) ∧
    (∀ first inp vs r, inp.length < n → scanItems t first inp = .ok (vs, r) → I first inp vs r) ∧
    (∀ first inp ms r, inp.length < n → scanMembers t first inp = .ok (ms, r) → M first inp ms r) := by
  induction n with
  | zero =>
    refine ⟨fun inp v r hn hv => ?_, fun _ _ _ _ hn => by omega, fun _ _ _ _ hn => by omega⟩
    have hlt := (scanValue_eats t hv).length_lt
    omega
  | succ n ih =>
    obtain ⟨ihv, ihi, ihm⟩ := ih
    have hi : ∀ first inp vs r, inp.length < n + 1 → scanItems t first inp = .ok (vs, r) → I first inp vs r := by
      intro first inp vs r hn hvs
      rw [scanItems_eq] at hvs
      obtain ⟨⟨more, mid⟩, hnext, hvs⟩ := bind_ok_iff.mp hvs
      have hle := (nextItem_leaves t hnext).1.length_le
      cases more with
      | false =>
        cases hvs
        exact h.noItem hnext
      | true =>
        obtain ⟨⟨v, r1⟩, hv, hvs⟩ := bind_ok_iff.mp hvs
        obtain ⟨⟨vs', r2⟩, hvs', hvs⟩ := bind_ok_iff.mp hvs
        cases hvs
        have hlt := (scanValue_eats t hv).length_lt
        exact h.item hnext hv (ihv mid v r1 (by omega) hv) hvs' (ihi false r1 vs' r (by omega) hvs')
    have hm : ∀ first inp ms r, inp.length < n + 1 → scanMembers t first inp = .ok (ms, r) → M first inp ms r := by
      intro first inp ms r hn hms
      rw [scanMembers_eq] at hms
      obtain ⟨⟨more, mid⟩, hnext, hms⟩ := bind_ok_iff.mp hms
      have hle := (nextItem_leaves t hnext).1.length_le
      cases more with
      | false =>
        cases hms
        exact h.noMember hnext
      | true =>
        obtain ⟨⟨key, r1⟩, hkey, hms⟩ := bind_ok_iff.mp hms
        obtain ⟨⟨v, r2⟩, hv, hms⟩ := bind_ok_iff.mp hms
        obtain ⟨⟨ms', r3⟩, hms', hms⟩ := bind_ok_iff.mp hms
        cases hms
        have hlt := (scanKey_eats t hkey).length_lt
        have hlt' := (scanValue_eats t hv).length_lt
        exact h.member hnext hkey hv (ihv r1 v r2 (by omega) hv) hms' (ihm false r2 ms' r (by omega) hms')
    refine ⟨fun inp v r hn hv => ?_, hi, hm⟩
    rw [scanValue_eq] at hv
    obtain ⟨⟨hd, r1⟩, hhd, hv⟩ := bind_ok_iff.mp hv
    have hlt := (scanHead_eats t hhd).length_lt
    cases hd with
    | scalar v' =>
      cases hv
      exact h.scalar hhd
    | items =>
      obtain ⟨⟨vs, r2⟩, hvs, hv⟩ := bind_ok_iff.mp hv
      cases hv
      exact h.items hhd hvs (hi true r1 vs r (by omega) hvs)
    | members =>
      obtain ⟨⟨ms, r2⟩, hms, hv⟩ := bind_ok_iff.mp hv
      cases hv
      exact h.members hhd hms (hm true r1 ms r (by omega) hms)

/-- What holds along every way in which a scan goes on holds of every successful scan. -/
theorem ScanRule.scan (h : ScanRule t V I M) :
    (∀ inp v r, scanValue t inp = .ok (v, r) → V inp v r) ∧
    (∀ first inp vs r, scanItems t first inp = .ok (vs, r) → I first inp vs r) ∧
    (∀ first inp ms r, scanMembers t first inp = .ok (ms, r) → M first inp ms r) :=
  ⟨fun inp v r => (h.bounded inp.length).1 inp v r le_rfl,
    fun first inp vs r => (h.bounded (inp.length + 1)).2.1 first inp vs r (Nat.lt_succ_self _),
    fun first inp ms r => (h.bounded (inp.length + 1)).2.2 first inp ms r (Nat.lt_succ_self _)⟩

end Induction

section Agreement

/-- What a computation on a cut input decides, another decides too, with `ext` applied to a
result. Nothing is said when the first is starved. -/
def Agrees {α : Type} (ext : α → α) (x y : Except Fault α) : Prop :=
  match x with
  | .ok a => y = .ok (ext a)
  | .error .malformed => y = .error .malformed
  | .error .starved => True

/-- The remaining input grows by `q`. -/
def extend {α : Type} (q : Bytes) (r : α × Bytes) : α × Bytes := (r.1, r.2 ++ q)

lemma Agrees.bind {α β : Type} {ext : α → α} {ext' : β → β} {x y : Except Fault α}
    {f g : α → Except Fault β} (h : Agrees ext x y)
    (hf : ∀ a, x = .ok a → Agrees ext' (f a) (g (ext a))) : Agrees ext' (x >>= f) (y >>= g) := by
  cases x with
  | ok a =>
    have hy : y = .ok (ext a) := h
    simpa [hy] using hf a rfl
  | error e =>
    cases e with
    | malformed =>
      have hy : y = .error .malformed := h
      simp [hy, Agrees]
    | starved => trivial

lemma Agrees.ok {α : Type} (ext : α → α) (a : α) : Agrees ext (.ok a) (.ok (ext a)) := rfl

lemma Agrees.malformed {α : Type} (ext : α → α) :
    Agrees ext (.error .malformed) (.error .malformed) := rfl

lemma Agrees.starved {α : Type} (ext : α → α) (y : Except Fault α) :
    Agrees ext (.error .starved) y := trivial

variable (t : Tail) (q : Bytes)

lemma skipWs_agrees (p : Bytes) : Agrees (· ++ q) (skipWs .cut p) (skipWs t (p ++ q)) := by
  induction p with
  | nil => exact .starved _ _
  | cons b rest ih =>
    simp only [skipWs, List.cons_append]
    split_ifs
    · exact ih
    · rfl

lemma scanIdent_agrees (expected p : Bytes) :
    Agrees (· ++ q) (scanIdent .cut expected p) (scanIdent t expected (p ++ q)) := by
  induction expected generalizing p with
  | nil => simp [scanIdent, Agrees]
  | cons e expected ih =>
    cases p with
    | nil => exact .starved _ _
    | cons b rest =>
      simp only [scanIdent, List.cons_append]
      split_ifs
      · exact ih rest
      · rfl

lemma scanDigits_agrees (p : Bytes) :
    Agrees (extend q) (scanDigits .cut p) (scanDigits t (p ++ q)) := by
  induction p with
  | nil => exact .starved _ _
  | cons b rest ih =>
    simp only [scanDigits, List.cons_append]
    split_ifs
    · exact ih.bind (fun _ _ => rfl)
    · rfl

lemma scanDigits1_agrees (p : Bytes) :
    Agrees (extend q) (scanDigits1 .cut p) (scanDigits1 t (p ++ q)) := by
  cases p with
  | nil => exact .starved _ _
  | cons b rest =>
    simp only [scanDigits1, List.cons_append]
    split_ifs
    · exact (scanDigits_agrees t q rest).bind (fun _ _ => rfl)
    · rfl

lemma scanInteger_agrees (p : Bytes) :
    Agrees (extend q) (scanInteger .cut p) (scanInteger t (p ++ q)) := by
  cases p with
  | nil => exact .starved _ _
  | cons b rest =>
    simp only [scanInteger, List.cons_append]
    split_ifs
    · cases rest with
      | nil => exact .starved _ _
      | cons d rest =>
        simp only [List.cons_append]
        split_ifs <;> rfl
    · exact scanDigits1_agrees t q (b :: rest)

lemma scanFraction_agrees (p : Bytes) :
    Agrees (extend q) (scanFraction .cut p) (scanFraction t (p ++ q)) := by
  cases p with
  | nil => exact .starved _ _
  | cons b rest =>
    simp only [scanFraction, List.cons_append]
    split_ifs
    · exact (scanDigits1_agrees t q rest).bind (fun _ _ => rfl)
    · rfl

lemma scanSign_agrees (p : Bytes) :
    Agrees (extend q) (scanSign .cut p) (scanSign t (p ++ q)) := by
  cases p with
  | nil => exact .starved _ _
  | cons b rest =>
    simp only [scanSign, List.cons_append]
    split_ifs <;> rfl

lemma scanExponent_agrees (p : Bytes) :
    Agrees (extend q) (scanExponent .cut p) (scanExponent t (p ++ q)) := by
  cases p with
  | nil => exact .starved _ _
  | cons b rest =>
    simp only [scanExponent, List.cons_append]
    split_ifs
    · exact (scanSign_agrees t q rest).bind (fun s _ =>
        (scanDigits1_agrees t q s.2).bind (fun _ _ => rfl))
    · rfl

lemma scanUnsigned_agrees (p : Bytes) :
    Agrees (extend q) (scanUnsigned .cut p) (scanUnsigned t (p ++ q)) :=
  (scanInteger_agrees t q p).bind (fun i _ => (scanFraction_agrees t q i.2).bind (fun f _ =>
    (scanExponent_agrees t q f.2).bind (fun _ _ => rfl)))

lemma scanString_agrees (p : Bytes) :
    Agrees (extend q) (scanString .cut p) (scanString t (p ++ q)) := by
  induction p using scanString.induct with
  | case1 => exact .starved _ _
  | case2 rest => unfold scanString; simp [Agrees, extend]
  | case3 hq => unfold scanString; simp [hq, Tail.missing, Agrees]
  | case4 e rest he hq ih =>
    unfold scanString
    simp only [List.cons_append, hq, if_false, if_true, he]
    exact ih.bind (fun _ _ => rfl)
  | case5 h1 h2 h3 h4 rest hh hq hu ih =>
    unfold scanString
    simp only [List.cons_append, hq, if_false, if_true, hu, hh, and_self]
    exact ih.bind (fun _ _ => rfl)
  | case6 h1 h2 h3 h4 rest hh hq hu =>
    unfold scanString
    simp [hq, hu, hh, Agrees]
  | case7 rest hshort hq hu =>
    -- fewer than four bytes after `\u`: the cut input is starved
    have hstarved : scanString .cut (backslash :: 117 :: rest) = .error .starved := by
      unfold scanString
      simp only [hq, if_false, if_true, hu]
      rcases rest with _ | ⟨h1, _ | ⟨h2, _ | ⟨h3, _ | ⟨h4, rest⟩⟩⟩⟩
      · rfl
      · rfl
      · rfl
      · rfl
      · exact (hshort _ _ _ _ _ rfl).elim
    rw [hstarved]
    exact .starved _ _
  | case8 e rest he hu hq =>
    unfold scanString
    simp [hq, he, hu, Agrees]
  | case9 b rest hq hb hlt =>
    unfold scanString
    simp [hq, hb, hlt, Agrees]
  | case10 b rest hq hb hlt ih =>
    unfold scanString
    simp only [List.cons_append, hq, hb, hlt, if_false]
    exact ih.bind (fun _ _ => rfl)

lemma nextItem_agrees (close : UInt8) (first : Bool) (p : Bytes) :
    Agrees (extend q) (nextItem .cut close first p) (nextItem t close first (p ++ q)) := by
  refine (skipWs_agrees t q p).bind (fun w hw => ?_)
  cases w with
  | nil => exact (skipWs_cut_ne_nil hw).elim
  | cons b rest =>
    simp only [List.cons_append]
    split_ifs
    · rfl
    · rfl
    · refine (skipWs_agrees t q rest).bind (fun w hw => ?_)
      cases w with
      | nil => exact (skipWs_cut_ne_nil hw).elim
      | cons b' rest' =>
        simp only [List.cons_append]
        split_ifs <;> rfl
    · rfl

lemma scanKey_agrees (p : Bytes) : Agrees (extend q) (scanKey .cut p) (scanKey t (p ++ q)) := by
  cases p with
  | nil => exact .starved _ _
  | cons b rest =>
    simp only [scanKey, List.cons_append]
    split_ifs
    · refine (scanString_agrees t q rest).bind (fun s _ => ?_)
      refine (skipWs_agrees t q s.2).bind (fun w hw => ?_)
      cases w with
      | nil => exact (skipWs_cut_ne_nil hw).elim
      | cons c rest' =>
        simp only [List.cons_append]
        split_ifs <;> rfl
    · rfl

lemma scanHead_agrees (p : Bytes) : Agrees (extend q) (scanHead .cut p) (scanHead t (p ++ q)) := by
  refine (skipWs_agrees t q p).bind (fun w hw => ?_)
  cases w with
  | nil => exact (skipWs_cut_ne_nil hw).elim
  | cons b rest =>
    simp only [List.cons_append]
    split_ifs
    · exact (scanIdent_agrees t q _ rest).bind (fun _ _ => rfl)
    · exact (scanIdent_agrees t q _ rest).bind (fun _ _ => rfl)
    · exact (scanIdent_agrees t q _ rest).bind (fun _ _ => rfl)
    · exact (scanUnsigned_agrees t q rest).bind (fun _ _ => rfl)
    · exact (scanUnsigned_agrees t q (b :: rest)).bind (fun _ _ => rfl)
    · exact (scanString_agrees t q rest).bind (fun _ _ => rfl)
    · rfl
    · rfl
    · rfl

lemma consumed_extend {inp r : Bytes} (h : r <:+ inp) (q : Bytes) :
    consumed (inp ++ q) (r ++ q) = consumed inp r := by
  obtain ⟨c, rfl⟩ := h
  rw [List.append_assoc, consumed_append, consumed_append]

/-- The three recursive scans at once, by induction on a bound of the cut input's length. -/
lemma scan_agrees (n : ℕ) :
    (∀ p, p.length ≤ n → Agrees (extend q) (scanValue .cut p) (scanValue t (p ++ q))) ∧
    (∀ first p, p.length < n →
      Agrees (extend q) (scanItems .cut first p) (scanItems t first (p ++ q))) ∧
    (∀ first p, p.length < n →
      Agrees (extend q) (scanMembers .cut first p) (scanMembers t first (p ++ q))) := by
  induction n with
  | zero =>
    refine ⟨fun p hp => ?_, fun _ _ hp => by omega, fun _ _ hp => by omega⟩
    obtain rfl : p = [] := by simpa using hp
    exact .starved _ _
  | succ n ih =>
    obtain ⟨ihv, ihi, ihm⟩ := ih
    have hi : ∀ first p, p.length < n + 1 →
        Agrees (extend q) (scanItems .cut first p) (scanItems t first (p ++ q)) := by
      intro first p hp
      rw [scanItems_eq, scanItems_eq]
      refine (nextItem_agrees t q closeBracket first p).bind ?_
      rintro ⟨more, r⟩ hnext
      have hle := (nextItem_leaves _ hnext).1.length_le
      cases more with
      | false => rfl
      | true =>
        refine (ihv r (by omega)).bind ?_
        rintro ⟨v, r'⟩ hv
        have he := scanValue_eats _ hv
        have hlt := he.length_lt
        refine (ihi false r' (by omega)).bind ?_
        rintro ⟨vs, r''⟩ -
        simp [Agrees, extend, consumed_extend he.leaves]
    have hm : ∀ first p, p.length < n + 1 →
        Agrees (extend q) (scanMembers .cut first p) (scanMembers t first (p ++ q)) := by
      intro first p hp
      rw [scanMembers_eq, scanMembers_eq]
      refine (nextItem_agrees t q closeBrace first p).bind ?_
      rintro ⟨more, r⟩ hnext
      have hle := (nextItem_leaves _ hnext).1.length_le
      cases more with
      | false => rfl
      | true =>
        refine (scanKey_agrees t q r).bind ?_
        rintro ⟨k, r'⟩ hk
        have hlt := (scanKey_eats _ hk).length_lt
        refine (ihv r' (by omega)).bind ?_
        rintro ⟨v, r''⟩ hv
        have hlt' := (scanValue_eats _ hv).length_lt
        refine (ihm false r'' (by omega)).bind ?_
        rintro ⟨ms, r3⟩ -
        rfl
    refine ⟨?_, hi, hm⟩
    intro p hp
    rw [scanValue_eq, scanValue_eq]
    refine (scanHead_agrees t q p).bind ?_
    rintro ⟨hd, r⟩ hh
    have hlt := (scanHead_eats _ hh).length_lt
    cases hd with
    | scalar v => rfl
    | items => exact (hi true r (by omega)).bind (fun _ _ => rfl)
    | members => exact (hm true r (by omega)).bind (fun _ _ => rfl)

/-- What the scan of a value decides on a cut input it decides on every continuation. -/
theorem scanValue_agrees (p : Bytes) :
    Agrees (extend q) (scanValue .cut p) (scanValue t (p ++ q)) :=
  (scan_agrees t q p.length).1 p le_rfl

theorem scanItems_agrees (first : Bool) (p : Bytes) :
    Agrees (extend q) (scanItems .cut first p) (scanItems t first (p ++ q)) :=
  (scan_agrees t q (p.length + 1)).2.1 first p (by omega)

end Agreement

end CloudTrailFilter.Json
