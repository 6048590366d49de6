import CloudTrailFilter.Json.Text
import CloudTrailFilter.Json.Utf8

/-!
# What decodes is UTF-8

A reader that decodes every string of a value has checked the encoding of its whole text: the rest of
the text is ASCII, and an escape stands for whole characters.
-/

namespace CloudTrailFilter.Json
open Fallible

section Contents

/-- What a scan leaves of a string: plain bytes and well-formed escapes. -/
inductive StringContents : Bytes → Prop where
  | nil : StringContents []
  | plain {b : UInt8} {raw : Bytes} (hb : b ≠ backslash) (h : StringContents raw) : StringContents (b :: raw)
  | simple {e : UInt8} {raw : Bytes} (he : e ∈ simpleEscapes) (h : StringContents raw) :
      StringContents (backslash :: e :: raw)
  | unicode {h1 h2 h3 h4 : UInt8} {raw : Bytes} (hhex : isHex h1 ∧ isHex h2 ∧ isHex h3 ∧ isHex h4)
      (h : StringContents raw) : StringContents (backslash :: 0x75 :: h1 :: h2 :: h3 :: h4 :: raw)

lemma scanString_contents {t : Tail} {inp raw r : Bytes} (h : scanString t inp = .ok (raw, r)) : StringContents raw := by
  induction inp using scanString.induct generalizing raw with
  | case1 => simp [scanString] at h
  | case2 rest =>
    unfold scanString at h
    simp only [if_true, Except.ok.injEq, Prod.mk.injEq] at h
    rw [← h.1]
    exact .nil
  | case3 hq => simp [scanString, hq] at h
  | case4 e rest he hq ih =>
    unfold scanString at h
    simp only [hq, if_false, if_true, he] at h
    obtain ⟨⟨raw', r1⟩, hraw, h⟩ := bind_ok_iff.mp h
    cases h
    exact .simple he (ih hraw)
  | case5 h1 h2 h3 h4 rest hh hq hu ih =>
    simp only [scanString, hq, if_false, if_true, hu, hh, and_self] at h
    obtain ⟨⟨raw', r1⟩, hraw, h⟩ := bind_ok_iff.mp h
    cases h
    exact .unicode hh (ih hraw)
  | case6 h1 h2 h3 h4 rest hh hq hu => simp [scanString, hq, hu, hh] at h
  | case7 rest hshort hq hu =>
    simp only [scanString, hq, if_false, if_true, hu] at h
    simp at h
  | case8 e rest he hu hq =>
    unfold scanString at h
    simp [hq, he, hu] at h
  | case9 b rest hq hb hlt =>
    unfold scanString at h
    simp [hq, hb, hlt] at h
  | case10 b rest hq hb hlt ih =>
    unfold scanString at h
    simp only [hq, hb, hlt, if_false] at h
    obtain ⟨⟨raw', r1⟩, hraw, h⟩ := bind_ok_iff.mp h
    cases h
    exact .plain hb (ih hraw)

/-- The bytes of a character begin with no continuation byte. -/
lemma encodeChar_head (c : Char) : ∃ b rest, String.utf8EncodeChar c = b :: rest ∧ isContinuation b = false := by
  have hlead : ∀ n, n < 256 → n < 0x80 ∨ 0xBF < n → isContinuation (UInt8.ofNat n) = false := by
    intro n hn hout
    simp only [isContinuation, UInt8.le_iff_toNat_le, toNat_ofNat_small hn, decide_eq_false_iff_not]
    simp
    omega
  simp only [String.utf8EncodeChar]
  split_ifs with h1 h2 h3
  · exact ⟨_, _, rfl, hlead _ (by omega) (by omega)⟩
  · exact ⟨_, _, rfl, hlead _ (by omega) (by omega)⟩
  · exact ⟨_, _, rfl, hlead _ (by omega) (by omega)⟩
  · exact ⟨_, _, rfl, hlead _ (by omega) (by omega)⟩

lemma isHex_ascii {b : UInt8} (h : isHex b = true) : b < 0x80 := by
  simp only [isHex, isDigit, decide_eq_true_eq] at h
  rcases h with h | h | h
  · exact UInt8.lt_of_le_of_lt h.2 (by decide)
  · exact UInt8.lt_of_le_of_lt h.2 (by decide)
  · exact UInt8.lt_of_le_of_lt h.2 (by decide)

/-- A unicode escape, or a pair of them, stands for a character. -/
lemma StringContents.unicode_char {h1 h2 h3 h4 : UInt8} {raw u : Bytes} (h : StringContents raw)
    (hhex : isHex h1 ∧ isHex h2 ∧ isHex h3 ∧ isHex h4)
    (hu : unescape (backslash :: 0x75 :: h1 :: h2 :: h3 :: h4 :: raw) = some u) :
    ∃ (c : Char) (escape raw' u' : Bytes), backslash :: 0x75 :: h1 :: h2 :: h3 :: h4 :: raw = escape ++ raw' ∧
      (∀ b ∈ escape, b < 0x80) ∧ escape ≠ [] ∧ StringContents raw' ∧ unescape raw' = some u' ∧
      u = String.utf8EncodeChar c ++ u' := by
  have hascii : ∀ {g1 g2 g3 g4 : UInt8}, isHex g1 ∧ isHex g2 ∧ isHex g3 ∧ isHex g4 →
      ∀ b ∈ [backslash, 0x75, g1, g2, g3, g4], b < 0x80 := by
    rintro g1 g2 g3 g4 ⟨hg1, hg2, hg3, hg4⟩
    simp [isHex_ascii hg1, isHex_ascii hg2, isHex_ascii hg3, isHex_ascii hg4, backslash]
  cases hlow : isLowSurrogate (hex4 h1 h2 h3 h4) with
  | true =>
    rw [unescape_low hlow] at hu
    cases hu
  | false =>
    cases hhigh : isHighSurrogate (hex4 h1 h2 h3 h4) with
    | false =>
      rw [unescape_unit hlow hhigh] at hu
      obtain ⟨u', hu', rfl⟩ := Option.map_eq_some_iff.mp hu
      exact ⟨_, [backslash, 0x75, h1, h2, h3, h4], raw, u', rfl, hascii hhex, by simp, h, hu', rfl⟩
    | true =>
      by_cases hpair : ∃ g1 g2 g3 g4 rest, raw = backslash :: 0x75 :: g1 :: g2 :: g3 :: g4 :: rest
      · obtain ⟨g1, g2, g3, g4, rest, rfl⟩ := hpair
        rw [unescape_pair g1 g2 g3 g4 hlow hhigh] at hu
        split_ifs at hu
        obtain ⟨u', hu', rfl⟩ := Option.map_eq_some_iff.mp hu
        cases h with
        | plain hb h => exact absurd rfl hb
        | simple he h => exact absurd he unicode_not_simple
        | unicode hhex' h =>
          refine ⟨_, [backslash, 0x75, h1, h2, h3, h4] ++ [backslash, 0x75, g1, g2, g3, g4], rest, u', rfl, ?_, by simp, h,
            hu', rfl⟩
          intro b hb
          rcases List.mem_append.mp hb with hb | hb
          · exact hascii hhex b hb
          · exact hascii hhex' b hb
      · rw [unescape_high hlow hhigh (fun g1 g2 g3 g4 rest hraw => hpair ⟨g1, g2, g3, g4, rest, hraw⟩)] at hu
        cases hu

/-- A continuation byte of a decoded string was not escaped. -/
lemma StringContents.continuation {raw u : Bytes} {b : UInt8} (h : StringContents raw) (hu : unescape raw = some (b :: u))
    (hb : isContinuation b = true) : ∃ raw', raw = b :: raw' ∧ StringContents raw' ∧ unescape raw' = some u := by
  cases h with
  | nil => cases hu
  | @plain b' raw hplain h =>
    rw [unescape_plain hplain] at hu
    obtain ⟨u', hu', heq⟩ := Option.map_eq_some_iff.mp hu
    cases heq
    exact ⟨raw, rfl, h, hu'⟩
  | @simple e raw he h =>
    have hne : e ≠ 0x75 := by
      rintro rfl
      exact unicode_not_simple he
    rw [unescape_simple hne] at hu
    obtain ⟨u', -, heq⟩ := Option.map_eq_some_iff.mp hu
    obtain ⟨rfl, -⟩ := List.cons.inj heq
    have hall : ∀ e ∈ simpleEscapes, isContinuation (simpleEscape e) = false := by decide +kernel
    rw [hall e he] at hb
    cases hb
  | @unicode h1 h2 h3 h4 raw hhex h =>
    obtain ⟨c, escape, raw', u', -, -, -, -, -, heq⟩ := h.unicode_char hhex hu
    obtain ⟨b', rest, hc, hb'⟩ := encodeChar_head c
    rw [hc, List.cons_append, List.cons.injEq] at heq
    rw [← heq.1, hb] at hb'
    cases hb'

lemma StringContents.continuations {raw more rest : Bytes} (h : StringContents raw) (hu : unescape raw = some (more ++ rest))
    (hmore : ∀ b ∈ more, isContinuation b = true) :
    ∃ raw', raw = more ++ raw' ∧ StringContents raw' ∧ unescape raw' = some rest := by
  induction more generalizing raw with
  | nil => exact ⟨raw, rfl, h, hu⟩
  | cons b more ih =>
    obtain ⟨raw', rfl, h', hu'⟩ := h.continuation hu (hmore b (by simp))
    obtain ⟨raw'', rfl, h'', hu''⟩ := ih h' hu' (fun b hb => hmore b (by simp [hb]))
    exact ⟨raw'', rfl, h'', hu''⟩

/-- What begins with a byte that is not ASCII goes on with continuation bytes, however many the first asks for. -/
lemma isUtf8_multibyte {b0 : UInt8} {tail : Bytes} (hb0 : ¬b0 < 0x80) (h : isUtf8 (b0 :: tail) = true) :
    ∃ more rest, tail = more ++ rest ∧ (∀ b ∈ more, isContinuation b = true) ∧ isUtf8 rest = true ∧
      ∀ rest', isUtf8 rest' = true → isUtf8 (b0 :: (more ++ rest')) = true := by
  rw [isUtf8, utf8Decode.eq_def] at h
  simp only at h
  split_ifs at h with hC2 hE0 hF0 hF5
  · simp at h
  · rcases tail with _ | ⟨b1, rest⟩
    · simp at h
    · simp only at h
      split_ifs at h with hc
      · refine ⟨[b1], rest, rfl, by simpa using hc, by simpa [isUtf8] using h, fun r hr => ?_⟩
        rw [isUtf8, utf8Decode.eq_def]
        simpa [hb0, hC2, hE0, hc, isUtf8] using hr
      · simp at h
  · rcases tail with _ | ⟨b1, _ | ⟨b2, rest⟩⟩
    · simp at h
    · simp at h
    · simp only at h
      split_ifs at h with hc
      · refine ⟨[b1, b2], rest, rfl, by simpa using ⟨hc.1, hc.2.1⟩, by simpa [isUtf8] using h, fun r hr => ?_⟩
        rw [isUtf8, utf8Decode.eq_def]
        simp only [hb0, hC2, hE0, hF0, if_false, if_true, List.cons_append, List.nil_append, hc]
        simpa [isUtf8] using hr
      · simp at h
  · rcases tail with _ | ⟨b1, _ | ⟨b2, _ | ⟨b3, rest⟩⟩⟩
    · simp at h
    · simp at h
    · simp at h
    · simp only at h
      split_ifs at h with hc
      · refine ⟨[b1, b2, b3], rest, rfl, by simpa using ⟨hc.1, hc.2.1, hc.2.2.1⟩, by simpa [isUtf8] using h,
          fun r hr => ?_⟩
        rw [isUtf8, utf8Decode.eq_def]
        simp only [hb0, hC2, hE0, hF0, hF5, if_false, if_true, List.cons_append, List.nil_append, hc]
        simpa [isUtf8] using hr
      · simp at h
  · simp at h

lemma isUtf8_ascii_cons {b : UInt8} {tail : Bytes} (hb : b < 0x80) (h : isUtf8 tail = true) : isUtf8 (b :: tail) = true := by
  rw [isUtf8, utf8Decode.eq_def]
  simpa [hb, isUtf8] using h

lemma isUtf8_ascii_append {x y : Bytes} (hx : ∀ b ∈ x, b < 0x80) (hy : isUtf8 y = true) : isUtf8 (x ++ y) = true := by
  induction x with
  | nil => exact hy
  | cons b x ih => exact isUtf8_ascii_cons (hx b (by simp)) (ih (fun b hb => hx b (by simp [hb])))

/-- A string that decodes was UTF-8 with its escapes. -/
theorem StringContents.isUtf8 {raw u : Bytes} (h : StringContents raw) (hu : unescape raw = some u)
    (hutf : isUtf8 u = true) : isUtf8 raw = true := by
  induction hn : raw.length using Nat.strong_induction_on generalizing raw u with
  | _ n ih =>
    cases h with
    | nil => rfl
    | @plain b raw hb h =>
      rw [unescape_plain hb] at hu
      obtain ⟨u', hu', rfl⟩ := Option.map_eq_some_iff.mp hu
      by_cases hascii : b < 0x80
      · exact isUtf8_ascii_cons hascii (ih _ (by simp [← hn]) h hu' (isUtf8_of_ascii_cons hascii hutf) rfl)
      · -- the rest of the character is not escaped
        obtain ⟨more, rest, rfl, hmore, hrest, hclosed⟩ := isUtf8_multibyte hascii hutf
        obtain ⟨raw', rfl, h', hu''⟩ := h.continuations hu' hmore
        exact hclosed raw' (ih _ (by simp [← hn]) h' hu'' hrest rfl)
    | @simple e raw he h =>
      have hne : e ≠ 0x75 := by
        rintro rfl
        exact unicode_not_simple he
      rw [unescape_simple hne] at hu
      obtain ⟨u', hu', rfl⟩ := Option.map_eq_some_iff.mp hu
      have hall : ∀ e ∈ simpleEscapes, e < 0x80 ∧ simpleEscape e < 0x80 := by decide +kernel
      obtain ⟨he1, he2⟩ := hall e he
      have hraw := ih _ (by simp [← hn]) h hu' (isUtf8_of_ascii_cons he2 hutf) rfl
      exact isUtf8_ascii_cons (by decide) (isUtf8_ascii_cons he1 hraw)
    | @unicode h1 h2 h3 h4 raw hhex h =>
      obtain ⟨c, escape, raw', u', hraw, hescape, hne, h', hu', rfl⟩ := h.unicode_char hhex hu
      have hrest : Json.isUtf8 u' = true := by
        rw [Json.isUtf8, utf8Decode_encodeChar, Option.isSome_map] at hutf
        exact hutf
      have hlt : raw'.length < n := by
        have hpos := List.length_pos_iff.mpr hne
        rw [← hn, hraw, List.length_append]
        omega
      rw [hraw]
      exact isUtf8_ascii_append hescape (ih _ hlt h' hu' hrest rfl)

end Contents

section Between
variable {t : Tail}

/-- Nothing but ASCII stands between two places of a text. -/
def AsciiTo (inp r : Bytes) : Prop := ∃ c, inp = c ++ r ∧ ∀ b ∈ c, b < 0x80

lemma AsciiTo.refl (inp : Bytes) : AsciiTo inp inp := ⟨[], rfl, by simp⟩

lemma AsciiTo.cons {b : UInt8} {rest r : Bytes} (hb : b < 0x80) (h : AsciiTo rest r) : AsciiTo (b :: rest) r := by
  obtain ⟨c, rfl, hc⟩ := h
  refine ⟨b :: c, rfl, fun b' hb' => ?_⟩
  rcases List.mem_cons.mp hb' with rfl | hb'
  · exact hb
  · exact hc b' hb'

lemma AsciiTo.trans {inp mid r : Bytes} (h : AsciiTo inp mid) (h' : AsciiTo mid r) : AsciiTo inp r := by
  obtain ⟨c, rfl, hc⟩ := h
  obtain ⟨c', rfl, hc'⟩ := h'
  refine ⟨c ++ c', (List.append_assoc _ _ _).symm, fun b hb => ?_⟩
  rcases List.mem_append.mp hb with hb | hb
  · exact hc b hb
  · exact hc' b hb

lemma isDigit_ascii {b : UInt8} (h : isDigit b = true) : b < 0x80 := by
  simp only [isDigit, decide_eq_true_eq] at h
  exact UInt8.lt_of_le_of_lt h.2 (by decide)

lemma skipWs_asciiTo {inp r : Bytes} (h : skipWs t inp = .ok r) : AsciiTo inp r := by
  induction inp with
  | nil =>
    cases t with
    | eof =>
      cases h
      exact .refl []
    | cut => cases h
  | cons b inp ih =>
    simp only [skipWs] at h
    split_ifs at h with hb
    · exact .cons (isWhitespace_ascii hb) (ih h)
    · cases h
      exact .refl _

lemma scanIdent_asciiTo {expected inp r : Bytes} (hexpected : ∀ b ∈ expected, b < 0x80)
    (h : scanIdent t expected inp = .ok r) : AsciiTo inp r := by
  induction expected generalizing inp with
  | nil =>
    cases h
    exact .refl _
  | cons e expected ih =>
    cases inp with
    | nil => cases h
    | cons b inp =>
      simp only [scanIdent] at h
      split_ifs at h with hb
      exact .cons (hb ▸ hexpected e (by simp)) (ih (fun b hb => hexpected b (by simp [hb])) h)

lemma scanDigits_asciiTo {inp ds r : Bytes} (h : scanDigits t inp = .ok (ds, r)) : AsciiTo inp r := by
  induction inp generalizing ds with
  | nil =>
    cases t with
    | eof =>
      cases h
      exact .refl []
    | cut => cases h
  | cons b inp ih =>
    simp only [scanDigits] at h
    split_ifs at h with hb
    · obtain ⟨⟨ds', r'⟩, hds, h⟩ := bind_ok_iff.mp h
      cases h
      exact .cons (isDigit_ascii hb) (ih hds)
    · cases h
      exact .refl _

lemma scanDigits1_asciiTo {inp ds r : Bytes} (h : scanDigits1 t inp = .ok (ds, r)) : AsciiTo inp r := by
  cases inp with
  | nil => cases h
  | cons b inp =>
    simp only [scanDigits1] at h
    split_ifs at h with hb
    obtain ⟨⟨ds', r'⟩, hds, h⟩ := bind_ok_iff.mp h
    cases h
    exact .cons (isDigit_ascii hb) (scanDigits_asciiTo hds)

lemma scanInteger_asciiTo {inp ds r : Bytes} (h : scanInteger t inp = .ok (ds, r)) : AsciiTo inp r := by
  cases inp with
  | nil => cases h
  | cons b inp =>
    simp only [scanInteger] at h
    split_ifs at h with hb
    · have hzero : b < 0x80 := by
        rw [hb]
        decide
      cases inp with
      | nil =>
        cases t with
        | eof =>
          cases h
          exact .cons hzero (.refl [])
        | cut => cases h
      | cons d inp =>
        simp only at h
        split_ifs at h
        cases h
        exact .cons hzero (.refl _)
    · exact scanDigits1_asciiTo h

lemma scanFraction_asciiTo {inp ds r : Bytes} (h : scanFraction t inp = .ok (ds, r)) : AsciiTo inp r := by
  cases inp with
  | nil =>
    cases t with
    | eof =>
      cases h
      exact .refl []
    | cut => cases h
  | cons b inp =>
    simp only [scanFraction] at h
    split_ifs at h with hb
    · obtain ⟨⟨ds', r'⟩, hds, h⟩ := bind_ok_iff.mp h
      cases h
      refine .cons ?_ (scanDigits1_asciiTo hds)
      rw [hb]
      decide
    · cases h
      exact .refl _

lemma scanSign_asciiTo {inp sign r : Bytes} (h : scanSign t inp = .ok (sign, r)) : AsciiTo inp r := by
  cases inp with
  | nil => cases h
  | cons b inp =>
    simp only [scanSign] at h
    split_ifs at h with hb
    · cases h
      refine .cons ?_ (.refl _)
      rcases hb with rfl | rfl <;> decide
    · cases h
      exact .refl _

lemma scanExponent_asciiTo {inp ds r : Bytes} (h : scanExponent t inp = .ok (ds, r)) : AsciiTo inp r := by
  cases inp with
  | nil =>
    cases t with
    | eof =>
      cases h
      exact .refl []
    | cut => cases h
  | cons b inp =>
    simp only [scanExponent] at h
    split_ifs at h with hb
    · obtain ⟨⟨sign, r1⟩, hsign, h⟩ := bind_ok_iff.mp h
      obtain ⟨⟨ds', r2⟩, hds, h⟩ := bind_ok_iff.mp h
      cases h
      refine .cons ?_ ((scanSign_asciiTo hsign).trans (scanDigits1_asciiTo hds))
      rcases hb with rfl | rfl <;> decide
    · cases h
      exact .refl _

lemma scanUnsigned_asciiTo {inp ds r : Bytes} (h : scanUnsigned t inp = .ok (ds, r)) : AsciiTo inp r := by
  obtain ⟨⟨int, r1⟩, hint, h⟩ := bind_ok_iff.mp h
  obtain ⟨⟨frac, r2⟩, hfrac, h⟩ := bind_ok_iff.mp h
  obtain ⟨⟨exp, r3⟩, hexp, h⟩ := bind_ok_iff.mp h
  cases h
  exact (scanInteger_asciiTo hint).trans ((scanFraction_asciiTo hfrac).trans (scanExponent_asciiTo hexp))

lemma nextItem_asciiTo {close : UInt8} (hclose : close < 0x80) {first more : Bool} {inp r : Bytes}
    (h : nextItem t close first inp = .ok (more, r)) : AsciiTo inp r := by
  obtain ⟨w, hw, h⟩ := bind_ok_iff.mp h
  refine (skipWs_asciiTo hw).trans ?_
  cases w with
  | nil => cases h
  | cons b rest =>
    simp only at h
    split_ifs at h with hend hfirst hcomma
    · cases h
      exact .cons (hend ▸ hclose) (.refl _)
    · cases h
      exact .refl _
    · obtain ⟨w', hw', h⟩ := bind_ok_iff.mp h
      have hcomma' : b < 0x80 := by
        rw [hcomma]
        decide
      refine .cons hcomma' ((skipWs_asciiTo hw').trans ?_)
      cases w' with
      | nil => cases h
      | cons b' rest' =>
        simp only at h
        split_ifs at h
        cases h
        exact .refl _

end Between

section Values
variable {t : Tail} {float : FloatParser}

/-- What stands between two places of a text is UTF-8. -/
def Utf8To (inp r : Bytes) : Prop := ∃ c, inp = c ++ r ∧ isUtf8 c = true

lemma isUtf8_concat {x y : Bytes} (hx : isUtf8 x = true) (hy : isUtf8 y = true) : isUtf8 (x ++ y) = true := by
  induction hn : x.length using Nat.strong_induction_on generalizing x with
  | _ n ih =>
    cases x with
    | nil => exact hy
    | cons b0 tail =>
      obtain ⟨c, rest, hsplit, hc, hrest⟩ := isUtf8_cons hx
      have hlt : rest.length < n := by
        have hlength := congrArg List.length hsplit
        have hpos := List.length_pos_iff.mpr hc.nonempty
        simp only [List.length_append] at hlength
        omega
      rw [hsplit, List.append_assoc]
      exact hc.closed _ (ih _ hlt hrest rfl)

lemma AsciiTo.utf8 {inp r : Bytes} (h : AsciiTo inp r) : Utf8To inp r := by
  obtain ⟨c, rfl, hc⟩ := h
  refine ⟨c, rfl, ?_⟩
  have hutf := isUtf8_ascii_append hc (y := []) rfl
  rwa [List.append_nil] at hutf

lemma Utf8To.trans {inp mid r : Bytes} (h : Utf8To inp mid) (h' : Utf8To mid r) : Utf8To inp r := by
  obtain ⟨c, rfl, hc⟩ := h
  obtain ⟨c', rfl, hc'⟩ := h'
  exact ⟨c ++ c', (List.append_assoc _ _ _).symm, isUtf8_concat hc hc'⟩

lemma scanString_utf8To {inp raw r : Bytes} {s : String} (h : scanString t inp = .ok (raw, r))
    (hs : decodeString raw = some s) : Utf8To inp r := by
  obtain ⟨chars, hchars, -⟩ := Option.map_eq_some_iff.mp hs
  obtain ⟨u, hu, hchars⟩ := Option.bind_eq_some_iff.mp hchars
  have hraw := (scanString_contents h).isUtf8 hu (by rw [isUtf8, hchars]; rfl)
  rw [scanString_append t h]
  have hquote : AsciiTo (quote :: r) r := .cons (by decide) (.refl r)
  exact .trans ⟨raw, rfl, hraw⟩ hquote.utf8

lemma scanKey_utf8To {inp key r : Bytes} {s : String} (h : scanKey t inp = .ok (key, r))
    (hs : decodeString key = some s) : Utf8To inp r := by
  cases inp with
  | nil => cases h
  | cons b inp =>
    simp only [scanKey] at h
    split_ifs at h with hb
    obtain ⟨⟨raw, r1⟩, hraw, h⟩ := bind_ok_iff.mp h
    obtain ⟨w, hw, h⟩ := bind_ok_iff.mp h
    cases w with
    | nil => cases h
    | cons x rest =>
      simp only at h
      split_ifs at h with hcolon
      cases h
      have hopen : AsciiTo (b :: inp) inp := .cons (hb ▸ by decide) (.refl inp)
      have hclose : AsciiTo (x :: r) r := .cons (hcolon ▸ by decide) (.refl r)
      exact hopen.utf8.trans ((scanString_utf8To hraw hs).trans ((skipWs_asciiTo hw).trans hclose).utf8)

/-- A scalar that decodes, or an opening bracket. -/
lemma scanHead_utf8To {inp r : Bytes} {hd : Head} (h : scanHead t inp = .ok (hd, r))
    (hdecodes : ∀ raw, hd = .scalar (.str raw) → (decodeString raw).isSome = true) : Utf8To inp r := by
  obtain ⟨w, hw, h⟩ := bind_ok_iff.mp h
  refine (skipWs_asciiTo hw).utf8.trans ?_
  cases w with
  | nil => cases h
  | cons b rest =>
    simp only at h
    split_ifs at h with h1 h2 h3 h4 h5 h6 h7 h8
    · obtain ⟨r', hident, h⟩ := bind_ok_iff.mp h
      cases h
      exact (AsciiTo.cons (h1 ▸ by decide) (scanIdent_asciiTo (by decide +kernel) hident)).utf8
    · obtain ⟨r', hident, h⟩ := bind_ok_iff.mp h
      cases h
      exact (AsciiTo.cons (h2 ▸ by decide) (scanIdent_asciiTo (by decide +kernel) hident)).utf8
    · obtain ⟨r', hident, h⟩ := bind_ok_iff.mp h
      cases h
      exact (AsciiTo.cons (h3 ▸ by decide) (scanIdent_asciiTo (by decide +kernel) hident)).utf8
    · obtain ⟨⟨lexeme, r'⟩, hnum, h⟩ := bind_ok_iff.mp h
      cases h
      exact (AsciiTo.cons (h4 ▸ by decide) (scanUnsigned_asciiTo hnum)).utf8
    · obtain ⟨⟨lexeme, r'⟩, hnum, h⟩ := bind_ok_iff.mp h
      cases h
      exact (scanUnsigned_asciiTo hnum).utf8
    · obtain ⟨⟨raw, r'⟩, hraw, h⟩ := bind_ok_iff.mp h
      cases h
      obtain ⟨s, hs⟩ := Option.isSome_iff_exists.mp (hdecodes raw rfl)
      have hopen : AsciiTo (b :: rest) rest := .cons (h6 ▸ by decide) (.refl rest)
      exact hopen.utf8.trans (scanString_utf8To hraw hs)
    · cases h
      exact (AsciiTo.cons (h7 ▸ by decide) (.refl r)).utf8
    · cases h
      exact (AsciiTo.cons (h8 ▸ by decide) (.refl r)).utf8

lemma encoded_rule :
    ScanRule t (fun inp v r => ∀ depth tree, v.decode float depth = some tree → Utf8To inp r)
      (fun _ inp vs r => ∀ depth trees, decodeItems float depth vs = some trees → Utf8To inp r)
      (fun _ inp ms r => ∀ depth trees, decodeMembers float depth ms = some trees → Utf8To inp r) where
  scalar := by
    intro inp v r hhd depth tree htree
    refine scanHead_utf8To hhd ?_
    rintro raw ⟨⟩
    obtain ⟨s, hs, -⟩ := Option.map_eq_some_iff.mp htree
    exact Option.isSome_iff_exists.mpr ⟨s, hs⟩
  items := by
    intro inp r1 vs r hhd _ ih depth tree htree
    rw [Lex.decode] at htree
    split_ifs at htree
    obtain ⟨trees, htrees, -⟩ := Option.map_eq_some_iff.mp htree
    exact (scanHead_utf8To hhd (by simp)).trans (ih _ _ htrees)
  members := by
    intro inp r1 ms r hhd _ ih depth tree htree
    rw [Lex.decode] at htree
    split_ifs at htree
    obtain ⟨trees, htrees, -⟩ := Option.map_eq_some_iff.mp htree
    exact (scanHead_utf8To hhd (by simp)).trans (ih _ _ htrees)
  noItem hnext _ _ _ := (nextItem_asciiTo (by decide) hnext).utf8
  item := by
    intro first inp mid v r1 vs r hnext _ ihv _ ih depth trees htrees
    obtain ⟨tree, htree, htrees⟩ := Option.bind_eq_some_iff.mp htrees
    obtain ⟨trees', htrees', -⟩ := Option.bind_eq_some_iff.mp htrees
    exact (nextItem_asciiTo (by decide) hnext).utf8.trans ((ihv _ _ htree).trans (ih _ _ htrees'))
  noMember hnext _ _ _ := (nextItem_asciiTo (by decide) hnext).utf8
  member := by
    intro first inp mid key r1 v r2 ms r hnext hkey _ ihv _ ih depth trees htrees
    obtain ⟨name, hname, htrees⟩ := Option.bind_eq_some_iff.mp htrees
    obtain ⟨tree, htree, htrees⟩ := Option.bind_eq_some_iff.mp htrees
    obtain ⟨trees', htrees', -⟩ := Option.bind_eq_some_iff.mp htrees
    exact (nextItem_asciiTo (by decide) hnext).utf8.trans
      ((scanKey_utf8To hkey hname).trans ((ihv _ _ htree).trans (ih _ _ htrees')))

/-- A document whose tokens decode is UTF-8. -/
theorem isUtf8_of_decode {text : Bytes} {v : Lex} {depth : ℕ} {tree : Tree} (hv : scanDocument text = .ok v)
    (htree : v.decode float depth = some tree) : isUtf8 text = true := by
  obtain ⟨⟨v', rest⟩, hv', hv⟩ := bind_ok_iff.mp hv
  obtain ⟨_, hend, hv⟩ := bind_ok_iff.mp hv
  cases hv
  obtain ⟨w, hw, hend⟩ := bind_ok_iff.mp hend
  cases w with
  | cons b w => cases hend
  | nil =>
    obtain ⟨c, hc, hutf⟩ := (encoded_rule.scan.1 _ _ _ hv' depth tree htree).trans (skipWs_asciiTo hw).utf8
    rw [List.append_nil] at hc
    rwa [hc]

end Values

end CloudTrailFilter.Json
