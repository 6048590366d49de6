import CloudTrailFilter.Json.Text

/-!
# Streaming record extraction

The visitors that `extract_records` drives over the decompressed text. They hand over each
element of the `Records` array as soon as it has been scanned and only at the end say whether
the text was an envelope. The text may be cut, and what has been handed over then stays a
prefix of what every continuation hands over.
-/

namespace CloudTrailFilter.Process
open Json Fallible

/-- A computation that sends records before it returns or fails. -/
structure Sending (α : Type) where
  records : List Bytes
  result : Except Fault α

namespace Sending
variable {α β : Type}

/-- A computation that sends nothing. -/
def quiet (result : Except Fault α) : Sending α := ⟨[], result⟩

/-- Sends one record first. -/
def send (record : Bytes) (x : Sending α) : Sending α := ⟨record :: x.records, x.result⟩

def andThen (x : Sending α) (f : α → Sending β) : Sending β :=
  match x.result with
  | .ok a => ⟨x.records ++ (f a).records, (f a).result⟩
  | .error e => ⟨x.records, .error e⟩

lemma of_andThen_ok {x : Sending α} {f : α → Sending β} {b : β} (h : (x.andThen f).result = .ok b) :
    ∃ a, x.result = .ok a ∧ (f a).result = .ok b := by
  cases hx : x.result with
  | ok a => exact ⟨a, rfl, by simpa [andThen, hx] using h⟩
  | error e => simp [andThen, hx] at h

lemma of_quiet_ok {x : Except Fault α} {f : α → Sending β} {b : β}
    (h : ((quiet x).andThen f).result = .ok b) : ∃ a, x = .ok a ∧ (f a).result = .ok b :=
  of_andThen_ok h

end Sending

section Visitors
variable (t : Tail) (float : FloatParser)

/-- `RecordsVisitor::visit_seq`. An element is a `RawValue`: skipped by the grammar, its text
checked for UTF-8. -/
def sendItems : ℕ → Bool → Bytes → Sending Bytes
  | 0, _, _ => .quiet (.error .malformed)
  | n + 1, first, inp =>
    (Sending.quiet (nextItem t closeBracket first inp)).andThen (fun r =>
      if r.1 then
        (Sending.quiet (scanValue t r.2)).andThen (fun v =>
          if isUtf8 (consumed r.2 v.2) then (sendItems n false v.2).send (consumed r.2 v.2)
          else .quiet (.error .malformed))
      else .quiet (.ok r.2))

/-- `RecordsVisitor::visit_map`: keys are decoded, values skipped. -/
def skipEntries : ℕ → Bool → Bytes → Except Fault Bytes
  | 0, _, _ => .error .malformed
  | n + 1, first, inp => do
    let (more, rest) ← nextItem t closeBrace first inp
    if more then do
      let (_, rest) ← parseKey t rest
      let (_, rest) ← scanValue t rest
      skipEntries n false rest
    else .ok rest

/-- `RecordsSeed`: whether the value is an array, after sending its elements. -/
def recordsSeed (inp : Bytes) : Sending (Bool × Bytes) :=
  (Sending.quiet (parseToken t float inp)).andThen (fun r =>
    match r.1 with
    | .scalar => .quiet (.ok (false, r.2))
    | .seq => (sendItems t (r.2.length + 1) true r.2).andThen (fun rest => .quiet (.ok (true, rest)))
    | .map => .quiet (do
        let rest ← skipEntries t (r.2.length + 1) true r.2
        .ok (false, rest)))

/-- `EnvelopeVisitor::visit_map`. Only the first `Records` is streamed; a second makes the
object unrecognized. -/
def visitEnvelope : ℕ → Bool → Bool → ℕ → Bytes → Sending (Bool × Bytes)
  | 0, _, _, _, _ => .quiet (.error .malformed)
  | n + 1, first, found, recordsKeys, inp =>
    (Sending.quiet (nextItem t closeBrace first inp)).andThen (fun r =>
      if r.1 then
        (Sending.quiet (parseKey t r.2)).andThen (fun k =>
          if k.1 = "Records" then
            if recordsKeys = 0 then
              (recordsSeed t float k.2).andThen (fun v => visitEnvelope n false v.1 1 v.2)
            else
              (Sending.quiet (scanValue t k.2)).andThen (fun v =>
                visitEnvelope n false found (recordsKeys + 1) v.2)
          else
            (Sending.quiet (scanValue t k.2)).andThen (fun v =>
              visitEnvelope n false found recordsKeys v.2))
      else .quiet (.ok (found && recordsKeys == 1, r.2)))

/-- The value at the top of the text: `deserialize_any` with the `EnvelopeVisitor`. -/
def visitTop (inp : Bytes) : Sending (Bool × Bytes) :=
  (Sending.quiet (parseToken t float inp)).andThen (fun r =>
    match r.1 with
    | .scalar => .quiet (.ok (false, r.2))
    | .seq => .quiet (do
        let (_, rest) ← scanItems t true r.2
        .ok (false, rest))
    | .map => visitEnvelope t float (r.2.length + 1) true false 0 r.2)

/-- The whole text: one value, then `Deserializer::end`. -/
def extract (inp : Bytes) : Sending Bool :=
  (visitTop t float inp).andThen (fun r => .quiet (do
    scanEnd t r.2
    .ok r.1))

end Visitors

section Agreement
variable {α β : Type}

/-- `x` is what a cut text gives and `y` what a continuation gives: a verdict persists, and
the records sent before a starvation come first. -/
def Extends (ext : α → α) (x y : Sending α) : Prop :=
  Agrees ext x.result y.result ∧ x.records <+: y.records ∧
    (x.result ≠ .error .starved → y.records = x.records)

lemma Extends.quiet {ext : α → α} {x y : Except Fault α} (h : Agrees ext x y) :
    Extends ext (.quiet x) (.quiet y) :=
  ⟨h, List.prefix_rfl, fun _ => rfl⟩

lemma Extends.andThen {ext : α → α} {ext' : β → β} {x y : Sending α} {f g : α → Sending β}
    (h : Extends ext x y) (hf : ∀ a, x.result = .ok a → Extends ext' (f a) (g (ext a))) :
    Extends ext' (x.andThen f) (y.andThen g) := by
  obtain ⟨hagree, hpre, hsame⟩ := h
  unfold Sending.andThen
  cases hx : x.result with
  | ok a =>
    rw [hx] at hagree hsame
    have hy : y.result = .ok (ext a) := hagree
    have hrec := hsame (by simp)
    obtain ⟨hagree', hpre', hsame'⟩ := hf a hx
    simp only [hy]
    refine ⟨hagree', ?_, ?_⟩
    · rw [hrec]
      exact (List.prefix_append_right_inj _).mpr hpre'
    · intro hne
      rw [hrec, hsame' hne]
  | error e =>
    rw [hx] at hagree hsame
    cases e with
    | malformed =>
      have hy : y.result = .error .malformed := hagree
      have hrec := hsame (by simp)
      simp only [hy]
      exact ⟨rfl, by rw [hrec], fun _ => hrec⟩
    | starved =>
      refine ⟨.starved _ _, ?_, fun hne => (hne rfl).elim⟩
      cases hy : y.result with
      | ok b => exact hpre.trans (List.prefix_append _ _)
      | error e => exact hpre

lemma Extends.send {ext : α → α} {x y : Sending α} (h : Extends ext x y) (record : Bytes) :
    Extends ext (x.send record) (y.send record) := by
  obtain ⟨hagree, hpre, hsame⟩ := h
  exact ⟨hagree, (List.prefix_cons_inj record).mpr hpre, fun hne => congrArg (record :: ·) (hsame hne)⟩

variable (t : Tail) (q : Bytes) (float : FloatParser)

lemma sendItems_extends (n : ℕ) : ∀ first p m, p.length < n → (p ++ q).length < m →
    Extends (· ++ q) (sendItems .cut n first p) (sendItems t m first (p ++ q)) := by
  induction n with
  | zero => intro first p m hn; omega
  | succ n ih =>
    intro first p m hn hm
    obtain ⟨m, rfl⟩ : ∃ m', m = m' + 1 := ⟨m - 1, by omega⟩
    simp only [sendItems]
    refine (Extends.quiet (nextItem_agrees t q closeBracket first p)).andThen (fun r hr => ?_)
    simp only [extend]
    by_cases hmore : r.1 = true
    · simp only [hmore, if_true]
      refine (Extends.quiet (scanValue_agrees t q r.2)).andThen (fun v hv => ?_)
      have hleaves := (nextItem_leaves .cut (r := r.2) hr).1
      have heats := scanValue_eats .cut (v := v.1) (r := v.2) hv
      have hlen := heats.length_lt
      have hle := hleaves.length_le
      simp only [extend, consumed_extend heats.leaves]
      by_cases hutf : isUtf8 (consumed r.2 v.2) = true
      · simp only [hutf, if_true]
        simp only [List.length_append] at hm
        exact (ih false v.2 m (by omega) (by simp only [List.length_append]; omega)).send _
      · simp only [hutf]
        exact .quiet (.malformed _)
    · simp only [hmore]
      exact .quiet (.ok _ _)

lemma skipEntries_agrees (n : ℕ) : ∀ first p m, p.length < n → (p ++ q).length < m →
    Agrees (· ++ q) (skipEntries .cut n first p) (skipEntries t m first (p ++ q)) := by
  induction n with
  | zero => intro first p m hn; omega
  | succ n ih =>
    intro first p m hn hm
    obtain ⟨m, rfl⟩ : ∃ m', m = m' + 1 := ⟨m - 1, by omega⟩
    simp only [skipEntries]
    refine (nextItem_agrees t q closeBrace first p).bind (fun r hr => ?_)
    simp only [extend]
    by_cases hmore : r.1 = true
    · simp only [hmore, if_true]
      refine (parseKey_agrees t q r.2).bind (fun k hk => ?_)
      refine (scanValue_agrees t q k.2).bind (fun v hv => ?_)
      have hle := (nextItem_leaves .cut (r := r.2) hr).1.length_le
      have hkey := (parseKey_eats .cut (r := k.2) hk).length_lt
      have hval := (scanValue_eats .cut (v := v.1) (r := v.2) hv).length_lt
      simp only [List.length_append] at hm
      exact ih false v.2 m (by omega) (by simp only [List.length_append]; omega)
    · simp only [hmore]
      rfl

lemma sendItems_leaves {n : ℕ} {first : Bool} {inp r : Bytes}
    (h : (sendItems t n first inp).result = .ok r) : r <:+ inp := by
  induction n generalizing first inp with
  | zero => simp [sendItems, Sending.quiet] at h
  | succ n ih =>
    obtain ⟨⟨more, mid⟩, hnext, h⟩ := Sending.of_quiet_ok h
    have hmid := (nextItem_leaves t hnext).1
    cases more with
    | false =>
      cases h
      exact hmid
    | true =>
      obtain ⟨⟨v, rest⟩, hv, h⟩ := Sending.of_quiet_ok h
      have hrest := (scanValue_eats t hv).leaves
      simp only at h
      split_ifs at h
      · exact ((ih h).trans hrest).trans hmid
      · simp [Sending.quiet] at h

lemma skipEntries_leaves {n : ℕ} {first : Bool} {inp r : Bytes}
    (h : skipEntries t n first inp = .ok r) : r <:+ inp := by
  induction n generalizing first inp with
  | zero => simp [skipEntries] at h
  | succ n ih =>
    obtain ⟨⟨more, mid⟩, hnext, h⟩ := bind_ok_iff.mp h
    have hmid := (nextItem_leaves t hnext).1
    cases more with
    | false =>
      cases h
      exact hmid
    | true =>
      obtain ⟨⟨k, rest⟩, hk, h⟩ := bind_ok_iff.mp h
      obtain ⟨⟨v, rest'⟩, hv, h⟩ := bind_ok_iff.mp h
      exact (((ih h).trans (scanValue_eats t hv).leaves).trans (parseKey_eats t hk).leaves).trans hmid

lemma recordsSeed_leaves {inp : Bytes} {v : Bool × Bytes}
    (h : (recordsSeed t float inp).result = .ok v) : v.2 <:+ inp := by
  obtain ⟨⟨k, rest⟩, hk, h⟩ := Sending.of_quiet_ok h
  have hrest := (parseToken_eats t hk).leaves
  cases k with
  | scalar =>
    cases h
    exact hrest
  | seq =>
    obtain ⟨r, hr, h⟩ := Sending.of_andThen_ok h
    cases h
    exact (sendItems_leaves t hr).trans hrest
  | map =>
    obtain ⟨r, hr, h⟩ := bind_ok_iff.mp h
    cases h
    exact (skipEntries_leaves t hr).trans hrest

lemma recordsSeed_extends (p : Bytes) :
    Extends (extend q) (recordsSeed .cut float p) (recordsSeed t float (p ++ q)) := by
  refine (Extends.quiet (parseToken_agrees t q float p)).andThen (fun r _ => ?_)
  simp only [extend]
  cases r.1 with
  | scalar => exact .quiet (.ok _ _)
  | seq =>
    exact (sendItems_extends t q _ true r.2 _ (Nat.lt_succ_self _) (Nat.lt_succ_self _)).andThen
      (fun _ _ => .quiet (.ok _ _))
  | map =>
    exact .quiet ((skipEntries_agrees t q _ true r.2 _ (Nat.lt_succ_self _) (Nat.lt_succ_self _)).bind
      (fun _ _ => rfl))

lemma visitEnvelope_extends (n : ℕ) : ∀ first found recordsKeys p m, p.length < n →
    (p ++ q).length < m →
    Extends (extend q) (visitEnvelope .cut float n first found recordsKeys p)
      (visitEnvelope t float m first found recordsKeys (p ++ q)) := by
  induction n with
  | zero => intro first found recordsKeys p m hn; omega
  | succ n ih =>
    intro first found recordsKeys p m hn hm
    obtain ⟨m, rfl⟩ : ∃ m', m = m' + 1 := ⟨m - 1, by omega⟩
    simp only [visitEnvelope]
    refine (Extends.quiet (nextItem_agrees t q closeBrace first p)).andThen (fun r hr => ?_)
    simp only [extend]
    have hle := (nextItem_leaves .cut (r := r.2) hr).1.length_le
    simp only [List.length_append] at hm
    by_cases hmore : r.1 = true
    · simp only [hmore, if_true]
      refine (Extends.quiet (parseKey_agrees t q r.2)).andThen (fun k hk => ?_)
      have hkey := (parseKey_eats .cut (r := k.2) hk).length_lt
      -- the rest of the loop, once the value has been consumed in any way
      have hloop : ∀ found recordsKeys rest, rest.length ≤ k.2.length →
          Extends (extend q) (visitEnvelope .cut float n false found recordsKeys rest)
            (visitEnvelope t float m false found recordsKeys (rest ++ q)) := by
        intro found recordsKeys rest hrest
        exact ih false found recordsKeys rest m (by omega) (by simp only [List.length_append]; omega)
      have hskip : ∀ found recordsKeys, Extends (extend q)
          ((Sending.quiet (scanValue .cut k.2)).andThen
            (fun v => visitEnvelope .cut float n false found recordsKeys v.2))
          ((Sending.quiet (scanValue t (k.2 ++ q))).andThen
            (fun v => visitEnvelope t float m false found recordsKeys v.2)) := by
        intro found recordsKeys
        refine (Extends.quiet (scanValue_agrees t q k.2)).andThen (fun v hv => ?_)
        exact hloop _ _ _ (scanValue_eats .cut (v := v.1) (r := v.2) hv).length_lt.le
      simp only [extend]
      by_cases hrec : k.1 = "Records"
      · simp only [hrec, if_true]
        by_cases hzero : recordsKeys = 0
        · simp only [hzero, if_true]
          refine (recordsSeed_extends t q float k.2).andThen (fun v hv => ?_)
          exact hloop _ _ _ (recordsSeed_leaves .cut float hv).length_le
        · simp only [hzero, if_false]
          exact hskip found (recordsKeys + 1)
      · simp only [hrec, if_false]
        exact hskip found recordsKeys
    · simp only [hmore]
      exact .quiet (.ok _ _)

lemma visitTop_extends (p : Bytes) :
    Extends (extend q) (visitTop .cut float p) (visitTop t float (p ++ q)) := by
  refine (Extends.quiet (parseToken_agrees t q float p)).andThen (fun r _ => ?_)
  simp only [extend]
  cases r.1 with
  | scalar => exact .quiet (.ok _ _)
  | seq => exact .quiet ((scanItems_agrees t q true r.2).bind (fun _ _ => rfl))
  | map =>
    exact visitEnvelope_extends t q float _ true false 0 r.2 _ (Nat.lt_succ_self _) (Nat.lt_succ_self _)

lemma scanEnd_agrees (p : Bytes) : Agrees id (scanEnd .cut p) (scanEnd t (p ++ q)) := by
  refine (skipWs_agrees t q p).bind (fun w hw => ?_)
  cases w with
  | nil => exact (skipWs_cut_ne_nil hw).elim
  | cons b rest => rfl

/-- What a cut text sends comes first in what every continuation of it sends, and a syntax
error it shows is one of every continuation. -/
theorem extract_extends (p : Bytes) : Extends id (extract .cut float p) (extract t float (p ++ q)) := by
  refine (visitTop_extends t q float p).andThen (fun r _ => .quiet ?_)
  exact (scanEnd_agrees t q r.2).bind (fun _ _ => rfl)

/-- A cut text is never accepted: the end of the text has to be seen. -/
theorem extract_cut_ne_ok (p : Bytes) (b : Bool) : (extract .cut float p).result ≠ .ok b := by
  intro h
  obtain ⟨r, -, h⟩ := Sending.of_andThen_ok h
  obtain ⟨_, hend, -⟩ := bind_ok_iff.mp h
  obtain ⟨w, hw, hnil⟩ := bind_ok_iff.mp hend
  cases w with
  | nil => exact skipWs_cut_ne_nil hw
  | cons c w => cases hnil

end Agreement

end CloudTrailFilter.Process
