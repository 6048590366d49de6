import Mathlib.Tactic

/-!
# Unsigned integers of a text

`FromStr` of the unsigned integer types: an optional plus sign and at least one decimal digit. The
digits are read from the front, so a text with several faults has the error of the first one.
-/

namespace CloudTrailFilter

/-- The values of an unsigned integer type of `w` bits. -/
abbrev Word (w : ℕ) := Fin (2 ^ w)

inductive ParseIntError where
  | empty
  | invalidDigit
  | posOverflow
deriving DecidableEq, Repr

def ParseIntError.message : ParseIntError → String
  | .empty => "cannot parse integer from empty string"
  | .invalidDigit => "invalid digit found in string"
  | .posOverflow => "number too large to fit in target type"

namespace Decimal

/-- The value of the digits read so far followed by these. -/
def readDigits (w acc : ℕ) (h : acc < 2 ^ w) : List Char → Except ParseIntError (Word w)
  | [] => .ok ⟨acc, h⟩
  | c :: rest =>
    if c.isDigit then
      if h' : 10 * acc + (c.toNat - '0'.toNat) < 2 ^ w then
        readDigits w (10 * acc + (c.toNat - '0'.toNat)) h' rest
      else .error .posOverflow
    else .error .invalidDigit

def fromStr (w : ℕ) (s : String) : Except ParseIntError (Word w) :=
  match s.toList with
  | [] => .error .empty
  | ['+'] => .error .invalidDigit
  | '+' :: digits => readDigits w 0 (Nat.two_pow_pos w) digits
  | digits => readDigits w 0 (Nat.two_pow_pos w) digits

/-- The decimal digits of a value. -/
def render {w : ℕ} (n : Word w) : String := String.ofList (Nat.toDigits 10 n.val)

variable {w : ℕ}

lemma le_ofDigitChars (digits : List Char) (acc : ℕ) : acc ≤ Nat.ofDigitChars 10 digits acc := by
  induction digits generalizing acc with
  | nil => simp
  | cons c rest ih =>
    rw [Nat.ofDigitChars_cons]
    have := ih (10 * acc + (c.toNat - '0'.toNat))
    omega

/-- Digits are read exactly when their value is in range. -/
lemma readDigits_ok_iff {digits : List Char} {acc : ℕ} {h : acc < 2 ^ w} {n : Word w} :
    readDigits w acc h digits = .ok n ↔
      digits.all Char.isDigit = true ∧ Nat.ofDigitChars 10 digits acc = n.val := by
  induction digits generalizing acc with
  | nil =>
    simp only [readDigits, Except.ok.injEq, List.all_nil, Nat.ofDigitChars_nil, true_and]
    exact Fin.ext_iff
  | cons c rest ih =>
    rw [readDigits, Nat.ofDigitChars_cons, List.all_cons]
    by_cases hdigit : c.isDigit
    · rw [if_pos hdigit]
      split_ifs with hrange
      · rw [ih]
        simp [hdigit]
      · simp only [hdigit, Bool.true_and]
        constructor
        · intro h
          cases h
        · rintro ⟨-, hvalue⟩
          have hle := le_ofDigitChars rest (10 * acc + (c.toNat - '0'.toNat))
          have hlt := n.isLt
          omega
    · rw [if_neg hdigit]
      simp [hdigit]

/-- What is rendered is read back. -/
theorem fromStr_render (n : Word w) : fromStr w (render n) = .ok n := by
  have hdigits : (Nat.toDigits 10 n.val).all Char.isDigit = true := by
    rw [List.all_eq_true]
    intro c hc
    exact Nat.isDigit_of_mem_toDigits (by decide) (by decide) hc
  have hread : readDigits w 0 (Nat.two_pow_pos w) (Nat.toDigits 10 n.val) = .ok n := by
    exact readDigits_ok_iff.mpr ⟨hdigits, Nat.ofDigitChars_ten_toDigits⟩
  unfold fromStr render
  rw [String.toList_ofList]
  have hne : Nat.toDigits 10 n.val ≠ [] := Nat.toDigits_ne_nil
  revert hdigits hread hne
  generalize Nat.toDigits 10 n.val = digits
  intro hdigits hread hne
  split
  · exact (hne rfl).elim
  · simp at hdigits
  · simp at hdigits
  · exact hread

lemma fromStr_signed {s : String} {sign digits : List Char} (hs : s.toList = sign ++ digits)
    (hsign : sign = [] ∨ sign = ['+']) (hne : digits ≠ []) (hdigits : digits.all Char.isDigit = true) :
    fromStr w s = readDigits w 0 (Nat.two_pow_pos w) digits := by
  obtain ⟨c, rest, rfl⟩ := List.exists_cons_of_ne_nil hne
  have hc : c ≠ '+' := by
    rintro rfl
    simp at hdigits
  unfold fromStr
  rcases hsign with rfl | rfl
  · rw [hs, List.nil_append]
    split
    · contradiction
    · rename_i h
      exact absurd (List.cons.inj h).1 hc
    · rename_i h
      exact absurd (List.cons.inj h).1 hc
    · rfl
  · rw [hs]
    rfl

/-- The texts of a value: its digits, with any zeros before them, and a plus sign before those or not. -/
theorem fromStr_ok_iff {s : String} {n : Word w} : fromStr w s = .ok n ↔
    ∃ sign digits : List Char, s.toList = sign ++ digits ∧ (sign = [] ∨ sign = ['+']) ∧ digits ≠ [] ∧
      digits.all Char.isDigit = true ∧ Nat.ofDigitChars 10 digits 0 = n.val := by
  constructor
  · intro h
    unfold fromStr at h
    split at h
    · cases h
    · cases h
    · rename_i digits hne hs
      obtain ⟨hdigits, hvalue⟩ := readDigits_ok_iff.mp h
      exact ⟨['+'], digits, hs, .inr rfl, hne, hdigits, hvalue⟩
    · rename_i hne _ _
      obtain ⟨hdigits, hvalue⟩ := readDigits_ok_iff.mp h
      exact ⟨[], s.toList, rfl, .inl rfl, hne, hdigits, hvalue⟩
  · rintro ⟨sign, digits, hs, hsign, hne, hdigits, hvalue⟩
    rw [fromStr_signed hs hsign hne hdigits]
    exact readDigits_ok_iff.mpr ⟨hdigits, hvalue⟩

/-- The digits of one. -/
lemma ofDigitChars_eq_one_iff {digits : List Char} (h : digits.all Char.isDigit = true) :
    Nat.ofDigitChars 10 digits 0 = 1 ↔ ∃ zeros, digits = List.replicate zeros '0' ++ ['1'] := by
  induction digits with
  | nil => simp
  | cons c rest ih =>
    rw [List.all_cons, Bool.and_eq_true] at h
    have hrange : '0'.toNat ≤ c.toNat := by
      have hdigit := h.1
      simp only [Char.isDigit, Bool.and_eq_true, decide_eq_true_eq, UInt32.le_iff_toNat_le] at hdigit
      exact hdigit.1
    rw [Nat.ofDigitChars_cons]
    by_cases hc : c = '0'
    · subst hc
      rw [show 10 * 0 + ('0'.toNat - '0'.toNat) = 0 from rfl, ih h.2]
      constructor
      · rintro ⟨zeros, rfl⟩
        exact ⟨zeros + 1, rfl⟩
      · rintro ⟨zeros, hzeros⟩
        cases zeros with
        | zero => simp at hzeros
        | succ zeros => exact ⟨zeros, (List.cons.inj hzeros).2⟩
    · have hpos : c.toNat ≠ '0'.toNat := fun heq => hc (Char.toNat_inj.mp heq)
      have hle := le_ofDigitChars rest (10 * 0 + (c.toNat - '0'.toNat))
      constructor
      · intro hone
        have hnat : c.toNat = '1'.toNat := by
          have : '1'.toNat = '0'.toNat + 1 := rfl
          omega
        have hc1 : c = '1' := Char.toNat_inj.mp hnat
        subst hc1
        cases rest with
        | nil => exact ⟨0, rfl⟩
        | cons d rest =>
          rw [Nat.ofDigitChars_cons] at hone
          have hten := le_ofDigitChars rest (10 * (10 * 0 + ('1'.toNat - '0'.toNat)) + (d.toNat - '0'.toNat))
          have : '1'.toNat - '0'.toNat = 1 := rfl
          omega
      · rintro ⟨zeros, hzeros⟩
        cases zeros with
        | zero =>
          obtain ⟨rfl, rfl⟩ := List.cons.inj hzeros
          rfl
        | succ zeros => exact absurd (List.cons.inj hzeros).1 hc

end Decimal

end CloudTrailFilter
