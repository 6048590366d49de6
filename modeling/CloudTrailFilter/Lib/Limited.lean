import Mathlib.Tactic

/-!
# Reading to the end under a cap

A source delivers a sequence in reads of arbitrary sizes and then ends, cleanly or with an error.
`takeToEnd` collects what it delivers before a limit, and `readCapped` sets the limit one past a
cap, in arithmetic that saturates, to tell a sequence that fits from one that does not. What comes
out is a function of the sequence and its end alone.
-/

namespace CloudTrailFilter

section Unsigned
variable (w : ℕ)

/-- The largest unsigned integer of `w` bits. -/
def maxUnsigned : ℕ := 2 ^ w - 1

def saturatingAdd (a b : ℕ) : ℕ := min (a + b) (maxUnsigned w)

def saturatingMul (a b : ℕ) : ℕ := min (a * b) (maxUnsigned w)

def wrappingSub (a b : ℕ) : ℕ := if b ≤ a then a - b else a + (2 ^ w - b)

variable {w}

lemma saturatingMul_le (a b : ℕ) : saturatingMul w a b ≤ a * b := Nat.min_le_left _ _

lemma saturatingAdd_one_of_lt {a : ℕ} (h : a < maxUnsigned w) : saturatingAdd w a 1 = a + 1 :=
  Nat.min_eq_left h

lemma saturatingAdd_max (b : ℕ) : saturatingAdd w (maxUnsigned w) b = maxUnsigned w :=
  Nat.min_eq_right (Nat.le_add_right _ b)

/-- Where the difference stays within the minuend, nothing has wrapped. -/
lemma wrappingSub_add_le {a b : ℕ} (hb : b < 2 ^ w) (h : wrappingSub w a b ≤ a) :
    wrappingSub w a b + b ≤ a := by
  unfold wrappingSub at *
  split_ifs at * with hle
  · omega
  · omega

end Unsigned

section Reader
variable {α ε β : Type*}

/-- `read_to_end` of a reader under `take`: `rest` is what the reader has not delivered, `ending`
its error if it does not end cleanly. The `i`-th read delivers at most `pieces i + 1` items, and
no more than the limit leaves. The reader is not asked once the limit is used up. -/
def takeToEnd (ending : Option ε) (pieces : ℕ → ℕ) (i limit : ℕ) (rest buf : List α) :
    Except ε (List α) :=
  if limit = 0 then .ok buf
  else if rest = [] then
    match ending with
    | none => .ok buf
    | some e => .error e
  else
    let n := min (pieces i + 1) (min limit rest.length)
    takeToEnd ending pieces (i + 1) (limit - n) (rest.drop n) (buf ++ rest.take n)
termination_by rest.length
decreasing_by
  have hpos : 0 < rest.length := List.length_pos_iff.mpr ‹_›
  simp only [List.length_drop]
  omega

/-- The sizes of the reads do not matter: the end is seen exactly when the sequence is shorter
than the limit. -/
lemma takeToEnd_eq (ending : Option ε) (pieces : ℕ → ℕ) (i limit : ℕ) (rest buf : List α) :
    takeToEnd ending pieces i limit rest buf =
      if limit ≤ rest.length then .ok (buf ++ rest.take limit)
      else match ending with
        | none => .ok (buf ++ rest)
        | some e => .error e := by
  fun_induction takeToEnd ending pieces i limit rest buf with
  | case1 i rest buf => simp
  | case2 i limit buf hlimit hend => simp [hlimit, hend]
  | case3 i limit buf hlimit e hend => simp [hlimit, hend]
  | case4 i limit rest buf hlimit hrest n ih =>
    have hn : n ≤ limit ∧ n ≤ rest.length := ⟨by omega, by omega⟩
    rw [ih, List.length_drop, List.append_assoc, List.append_assoc, List.take_append_drop]
    by_cases hle : limit ≤ rest.length
    · have hsplit : rest.take n ++ (rest.drop n).take (limit - n) = rest.take limit := by
        rw [← List.take_add, Nat.add_sub_cancel' hn.1]
      rw [if_pos (by omega), if_pos hle, hsplit]
    · rw [if_neg (by omega), if_neg hle]

/-- A whole sequence in memory, or `tooLarge` when it has more than `cap` items. The limit of the
read is one past the cap, saturating at `w` bits. -/
def readCapped (w : ℕ) (tooLarge : ε) (ending : Option ε) (pieces : ℕ → ℕ) (cap : ℕ)
    (items : List α) : Except ε (List α) :=
  match takeToEnd ending pieces 0 (saturatingAdd w cap 1) items [] with
  | .error e => .error e
  | .ok buf => if cap < buf.length then .error tooLarge else .ok buf

/-- What `w` bits can count: at the largest cap the limit is the cap itself, and a sequence that
reaches it would fill the memory. -/
def Countable (w cap produced : ℕ) : Prop := cap = maxUnsigned w → produced < maxUnsigned w

lemma countable_of_lt {w cap : ℕ} (h : cap < maxUnsigned w) (produced : ℕ) : Countable w cap produced := by
  intro hmax
  omega

/-- The result of a read that knows the whole sequence beforehand. -/
def underCap (tooLarge : ε) (ending : Option ε) (cap produced : ℕ) (whole : β) : Except ε β :=
  if cap < produced then .error tooLarge
  else match ending with
    | none => .ok whole
    | some e => .error e

/-- The fate of `produced` items under a cap: all of them when the end is clean and they fit, too
large from one item past the cap on, and the error of the end otherwise. -/
structure ExactCap (cap produced : ℕ) (tooLarge : ε) (ending : Option ε) (whole : β)
    (result : Except ε β) : Prop where
  ok_iff : ∀ out, result = .ok out ↔ ending = none ∧ produced ≤ cap ∧ out = whole
  tooLarge_iff : result = .error tooLarge ↔ cap + 1 ≤ produced
  error_iff : ∀ e, e ≠ tooLarge → (result = .error e ↔ ending = some e ∧ produced ≤ cap)

section Capped
variable {w cap : ℕ} {tooLarge : ε} {ending : Option ε} {pieces : ℕ → ℕ} {items : List α}

lemma readCapped_eq (hcap : cap ≤ maxUnsigned w) (hcount : Countable w cap items.length) :
    readCapped w tooLarge ending pieces cap items = underCap tooLarge ending cap items.length items := by
  unfold readCapped underCap
  rw [takeToEnd_eq, List.nil_append]
  rcases Nat.lt_or_eq_of_le hcap with hlt | heq
  · rw [saturatingAdd_one_of_lt hlt]
    by_cases hlarge : cap < items.length
    · have hlen : (items.take (cap + 1)).length = cap + 1 := List.length_take_of_le hlarge
      simp [hlarge, Nat.succ_le_of_lt hlarge, hlen]
    · have hshort : ¬ cap + 1 ≤ items.length := by omega
      rw [if_neg hshort, if_neg hlarge]
      cases ending with
      | none => simp [hlarge]
      | some e => rfl
  · have hshort := hcount heq
    rw [heq, saturatingAdd_max, if_neg (by omega), if_neg (by omega)]
    cases ending with
    | none =>
      have hfits : ¬ maxUnsigned w < items.length := by omega
      simp [hfits]
    | some e => rfl

/-- At the largest cap nothing is too large, however long the sequence is. -/
lemma readCapped_max (hne : ending ≠ some tooLarge) :
    readCapped w tooLarge ending pieces (maxUnsigned w) items ≠ .error tooLarge := by
  unfold readCapped
  rw [saturatingAdd_max, takeToEnd_eq, List.nil_append]
  by_cases hle : maxUnsigned w ≤ items.length
  · have hlen : (items.take (maxUnsigned w)).length = maxUnsigned w := List.length_take_of_le hle
    simp [hle, hlen]
  · have hfits : ¬ maxUnsigned w < items.length := by omega
    cases ending with
    | none => simp [hle, hfits]
    | some e => simpa [hle] using fun h => hne (by rw [h])

lemma map_underCap {γ : Type*} (f : β → γ) (tooLarge : ε) (ending : Option ε) (cap produced : ℕ) (whole : β) :
    (underCap tooLarge ending cap produced whole).map f = underCap tooLarge ending cap produced (f whole) := by
  unfold underCap
  split_ifs
  · rfl
  · cases ending <;> rfl

lemma underCap_exact (hne : ending ≠ some tooLarge) (produced : ℕ) (whole : β) :
    ExactCap cap produced tooLarge ending whole (underCap tooLarge ending cap produced whole) := by
  unfold underCap
  by_cases hlarge : cap < produced
  · constructor
    · intro out
      have hnot : ¬ produced ≤ cap := by omega
      simp [hlarge, hnot]
    · simp [hlarge]
    · intro e he
      have hnot : ¬ produced ≤ cap := by omega
      simpa [hlarge, hnot] using he.symm
  · have hfits : produced ≤ cap := by omega
    have hshort : ¬ cap + 1 ≤ produced := by omega
    cases ending with
    | none => constructor <;> simp [hlarge, hfits, hshort, eq_comm]
    | some e =>
      constructor
      · simp [hlarge]
      · simp [hlarge, hshort, show e ≠ tooLarge from fun h => hne (by rw [h])]
      · intro e' _
        simp [hlarge, hfits]

end Capped

end Reader

end CloudTrailFilter
