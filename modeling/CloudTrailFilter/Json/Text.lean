import CloudTrailFilter.Json.Decode
import CloudTrailFilter.Json.Incremental

/-!
# Decoding while scanning

`deserialize_str` and `deserialize_any` decode as they read: a lone surrogate is refused at the
escape that shows it, before the end of the string has been seen. On a complete text this is
the same as scanning first and decoding the scanned text; on a cut one it can fail earlier.
-/

namespace CloudTrailFilter.Json
open Fallible

section Definitions
variable (t : Tail)

/-- `decode_hex_escape`. -/
def hexEscape : Bytes → Except Fault (ℕ × Bytes)
  | h1 :: h2 :: h3 :: h4 :: rest =>
    if isHex h1 ∧ isHex h2 ∧ isHex h3 ∧ isHex h4 then .ok (hex4 h1 h2 h3 h4, rest)
    else .error .malformed
  | _ => .error t.missing

/-- The second half of a surrogate pair, after the first. -/
def parseLowHalf (n : ℕ) (inp : Bytes) : Except Fault (Bytes × Bytes) := do
  let rest ← scanIdent t [backslash, 0x75] inp
  let (m, rest) ← hexEscape t rest
  if isLowSurrogate m then .ok (encodePair n m, rest) else .error .malformed

/-- `parse_escape`: the bytes one escape stands for, after its backslash. A high surrogate
takes the escape of its low half with it. -/
def parseEscape : Bytes → Except Fault (Bytes × Bytes)
  | [] => .error t.missing
  | e :: rest =>
    if e ∈ simpleEscapes then .ok ([simpleEscape e], rest)
    else if e = 0x75 then do
      let (n, rest) ← hexEscape t rest
      if isLowSurrogate n then .error .malformed
      else if isHighSurrogate n then parseLowHalf t n rest
      else .ok (encodeUnit n, rest)
    else .error .malformed

def parseStrAux : ℕ → Bytes → Except Fault (Bytes × Bytes)
  | 0, _ => .error .malformed
  | _ + 1, [] => .error t.missing
  | n + 1, b :: rest =>
    if b = quote then .ok ([], rest)
    else if b = backslash then do
      let (c, rest) ← parseEscape t rest
      let (text, rest) ← parseStrAux n rest
      .ok (c ++ text, rest)
    else if b < 0x20 then .error .malformed
    else do
      let (text, rest) ← parseStrAux n rest
      .ok (b :: text, rest)

/-- The decoded bytes of a string after its opening quote. -/
def parseStr (inp : Bytes) : Except Fault (Bytes × Bytes) := parseStrAux t (inp.length + 1) inp

/-- `parse_str`: a decoded string. UTF-8 is checked at the closing quote. -/
def parseText (inp : Bytes) : Except Fault (String × Bytes) := do
  let (text, rest) ← parseStr t inp
  match utf8Decode text with
  | some chars => .ok (String.ofList chars, rest)
  | none => .error .malformed

/-- A decoded key and the colon after it. -/
def parseKey : Bytes → Except Fault (String × Bytes)
  | [] => .error t.missing
  | b :: rest =>
    if b = quote then do
      let (key, rest) ← parseText t rest
      match ← skipWs t rest with
      | [] => .error t.missing
      | b :: rest => if b = colon then .ok (key, rest) else .error .malformed
    else .error .malformed

/-- What a visitor of `deserialize_any` is told first. -/
inductive Token where
  | scalar
  | seq
  | map
deriving DecidableEq, Repr

/-- The visitor call a value's head leads to. A scalar is decoded. -/
def Head.token (float : FloatParser) : Head → Option Token
  | .scalar v => (v.decode float 1).map (fun _ => .scalar)
  | .items => some .seq
  | .members => some .map

/-- `deserialize_any` up to the first call of a visitor: a scalar is decoded in full. A number is decoded
where it ends, so in a text that is cut inside an exponent that already overflows, which the
deserializer refuses at that digit, more is waited for. -/
def parseToken (float : FloatParser) (inp : Bytes) : Except Fault (Token × Bytes) := do
  match ← skipWs t inp with
  | [] => .error t.missing
  | b :: rest =>
    if b = quote then do
      let (_, rest) ← parseText t rest
      .ok (.scalar, rest)
    else do
      let (head, rest) ← scanHead t (b :: rest)
      match head.token float with
      | some k => .ok (k, rest)
      | none => .error .malformed

end Definitions

section Suffix
variable (t : Tail)

lemma hexEscape_leaves {inp r : Bytes} {n : ℕ} (h : hexEscape t inp = .ok (n, r)) : r <:+ inp := by
  match inp, h with
  | h1 :: h2 :: h3 :: h4 :: rest, h =>
    simp only [hexEscape] at h
    split_ifs at h
    cases h
    exact ⟨[h1, h2, h3, h4], rfl⟩
  | [], h | [_], h | [_, _], h | [_, _, _], h => simp [hexEscape] at h

lemma parseLowHalf_leaves {n : ℕ} {inp c r : Bytes} (h : parseLowHalf t n inp = .ok (c, r)) :
    r <:+ inp := by
  obtain ⟨r1, hi, h⟩ := bind_ok_iff.mp h
  obtain ⟨⟨m, r2⟩, hm, h⟩ := bind_ok_iff.mp h
  simp only at h
  split_ifs at h
  simp only [Except.ok.injEq, Prod.mk.injEq] at h
  obtain ⟨-, rfl⟩ := h
  exact (hexEscape_leaves t hm).trans (scanIdent_leaves t hi)

lemma parseEscape_leaves {inp c r : Bytes} (h : parseEscape t inp = .ok (c, r)) : r <:+ inp := by
  cases inp with
  | nil => simp [parseEscape] at h
  | cons e rest =>
    simp only [parseEscape] at h
    split_ifs at h
    · cases h
      exact List.suffix_cons _ _
    · obtain ⟨⟨n, r1⟩, hn, h⟩ := bind_ok_iff.mp h
      have hr1 := (hexEscape_leaves t hn).trans (List.suffix_cons e rest)
      simp only at h
      split_ifs at h
      · exact (parseLowHalf_leaves t h).trans hr1
      · simp only [Except.ok.injEq, Prod.mk.injEq] at h
        obtain ⟨-, rfl⟩ := h
        exact hr1

lemma parseStrAux_eats {n : ℕ} {inp text r : Bytes} (h : parseStrAux t n inp = .ok (text, r)) :
    Eats inp r := by
  induction n generalizing inp text with
  | zero => simp [parseStrAux] at h
  | succ n ih =>
    cases inp with
    | nil => simp [parseStrAux] at h
    | cons b rest =>
      simp only [parseStrAux] at h
      split_ifs at h
      · cases h
        exact .cons List.suffix_rfl
      · obtain ⟨⟨c, r1⟩, hc, h⟩ := bind_ok_iff.mp h
        obtain ⟨⟨text', r2⟩, hs, h⟩ := bind_ok_iff.mp h
        cases h
        exact .cons ((ih hs).leaves.trans (parseEscape_leaves t hc))
      · obtain ⟨⟨text', r2⟩, hs, h⟩ := bind_ok_iff.mp h
        cases h
        exact .cons (ih hs).leaves

lemma parseText_eats {inp r : Bytes} {s : String} (h : parseText t inp = .ok (s, r)) : Eats inp r := by
  obtain ⟨⟨text, r'⟩, hs, h⟩ := bind_ok_iff.mp h
  simp only at h
  split at h
  · cases h
    exact parseStrAux_eats t hs
  · simp at h

lemma parseKey_eats {inp r : Bytes} {key : String} (h : parseKey t inp = .ok (key, r)) :
    Eats inp r := by
  cases inp with
  | nil => simp [parseKey] at h
  | cons b rest =>
    simp only [parseKey] at h
    split_ifs at h
    obtain ⟨⟨k, r1⟩, hs, h⟩ := bind_ok_iff.mp h
    obtain ⟨w, hw, h⟩ := bind_ok_iff.mp h
    cases w with
    | nil => simp at h
    | cons c w =>
      simp only at h
      split_ifs at h
      cases h
      have hw' := skipWs_leaves t hw
      exact .cons (((List.suffix_cons c r).trans hw').trans (parseText_eats t hs).leaves)

lemma parseToken_eats {float : FloatParser} {inp r : Bytes} {k : Token}
    (h : parseToken t float inp = .ok (k, r)) : Eats inp r := by
  obtain ⟨w, hw, h⟩ := bind_ok_iff.mp h
  refine .of_leaves (skipWs_leaves t hw) ?_
  cases w with
  | nil => simp at h
  | cons b rest =>
    simp only at h
    split_ifs at h
    · obtain ⟨⟨s, r'⟩, hs, h⟩ := bind_ok_iff.mp h
      cases h
      exact .cons (parseText_eats t hs).leaves
    · obtain ⟨⟨hd, r'⟩, hh, h⟩ := bind_ok_iff.mp h
      simp only at h
      split at h
      · cases h
        exact scanHead_eats t hh
      · cases h

end Suffix

section Agreement
variable (t : Tail) (q : Bytes)

lemma hexEscape_agrees (p : Bytes) :
    Agrees (extend q) (hexEscape .cut p) (hexEscape t (p ++ q)) := by
  match p with
  | h1 :: h2 :: h3 :: h4 :: rest =>
    simp only [hexEscape, List.cons_append]
    split_ifs <;> rfl
  | [] | [_] | [_, _] | [_, _, _] => exact .starved _ _

lemma parseLowHalf_agrees (n : ℕ) (p : Bytes) :
    Agrees (extend q) (parseLowHalf .cut n p) (parseLowHalf t n (p ++ q)) := by
  refine (scanIdent_agrees t q _ p).bind (fun r _ => ?_)
  refine (hexEscape_agrees t q r).bind (fun m _ => ?_)
  simp only [extend]
  by_cases hm : isLowSurrogate m.1 = true
  · simp only [hm, if_true, Agrees, extend]
  · simp only [hm]
    rfl

lemma parseEscape_agrees (p : Bytes) :
    Agrees (extend q) (parseEscape .cut p) (parseEscape t (p ++ q)) := by
  cases p with
  | nil => exact .starved _ _
  | cons e rest =>
    simp only [parseEscape, List.cons_append]
    split_ifs
    · rfl
    · refine (hexEscape_agrees t q rest).bind (fun n _ => ?_)
      simp only [extend]
      by_cases hlow : isLowSurrogate n.1 = true
      · simp only [hlow, if_true]
        rfl
      by_cases hhigh : isHighSurrogate n.1 = true
      · simp only [hlow, hhigh, if_true]
        exact parseLowHalf_agrees t q n.1 n.2
      · simp only [hlow, hhigh]
        rfl
    · rfl

lemma parseStrAux_agrees (n : ℕ) : ∀ p m, p.length < n → (p ++ q).length < m →
    Agrees (extend q) (parseStrAux .cut n p) (parseStrAux t m (p ++ q)) := by
  induction n with
  | zero => intro p m hn; omega
  | succ n ih =>
    intro p m hn hm
    obtain ⟨m, rfl⟩ : ∃ m', m = m' + 1 := ⟨m - 1, by omega⟩
    cases p with
    | nil => exact .starved _ _
    | cons b rest =>
      simp only [List.length_cons, List.cons_append] at hn hm
      simp only [parseStrAux, List.cons_append]
      split_ifs
      · rfl
      · refine (parseEscape_agrees t q rest).bind (fun c hc => ?_)
        have hle := (parseEscape_leaves .cut (c := c.1) (r := c.2) hc).length_le
        simp only [List.length_append] at hm
        refine (ih c.2 m (by omega) (by simp only [List.length_append]; omega)).bind (fun _ _ => rfl)
      · rfl
      · exact (ih rest m (by omega) (by omega)).bind (fun _ _ => rfl)

lemma parseText_agrees (p : Bytes) :
    Agrees (extend q) (parseText .cut p) (parseText t (p ++ q)) := by
  refine (parseStrAux_agrees t q _ p _ (Nat.lt_succ_self _) (Nat.lt_succ_self _)).bind (fun s _ => ?_)
  simp only [extend]
  split <;> rfl

lemma parseKey_agrees (p : Bytes) :
    Agrees (extend q) (parseKey .cut p) (parseKey t (p ++ q)) := by
  cases p with
  | nil => exact .starved _ _
  | cons b rest =>
    simp only [parseKey, List.cons_append]
    split_ifs
    · refine (parseText_agrees t q rest).bind (fun s _ => ?_)
      refine (skipWs_agrees t q s.2).bind (fun w hw => ?_)
      cases w with
      | nil => exact (skipWs_cut_ne_nil hw).elim
      | cons c w =>
        simp only [List.cons_append, extend]
        split_ifs <;> rfl
    · rfl

lemma parseToken_agrees (float : FloatParser) (p : Bytes) :
    Agrees (extend q) (parseToken .cut float p) (parseToken t float (p ++ q)) := by
  refine (skipWs_agrees t q p).bind (fun w hw => ?_)
  cases w with
  | nil => exact (skipWs_cut_ne_nil hw).elim
  | cons b rest =>
    simp only [List.cons_append]
    split_ifs
    · exact (parseText_agrees t q rest).bind (fun _ _ => rfl)
    · refine (scanHead_agrees t q (b :: rest)).bind (fun r _ => ?_)
      simp only [extend]
      cases r.1.token float <;> rfl

end Agreement

section Complete

lemma scanString_append (t : Tail) {inp raw r : Bytes} (h : scanString t inp = .ok (raw, r)) :
    inp = raw ++ quote :: r := by
  induction inp using scanString.induct generalizing raw with
  | case1 => simp [scanString] at h
  | case2 rest =>
    unfold scanString at h
    simp only [if_true, Except.ok.injEq, Prod.mk.injEq] at h
    simp [← h.1, h.2]
  | case3 hq => simp [scanString, hq] at h
  | case4 e rest he hq ih =>
    unfold scanString at h
    simp only [hq, if_false, if_true, he] at h
    obtain ⟨⟨raw', r'⟩, hs, h⟩ := bind_ok_iff.mp h
    cases h
    rw [ih hs]
    rfl
  | case5 h1 h2 h3 h4 rest hh hq hu ih =>
    unfold scanString at h
    simp only [hq, if_false, if_true, hu, hh, and_self] at h
    obtain ⟨⟨raw', r'⟩, hs, h⟩ := bind_ok_iff.mp h
    cases h
    rw [ih hs]
    rfl
  | case6 h1 h2 h3 h4 rest hh hq hu =>
    unfold scanString at h
    simp only [hq, if_false, if_true, hu, hh] at h
    cases h
  | case7 rest hshort hq hu =>
    unfold scanString at h
    simp only [hq, if_false, if_true, hu] at h
    cases h
  | case8 e rest he hu hq =>
    unfold scanString at h
    simp [hq, he, hu] at h
  | case9 b rest hq hb hlt =>
    unfold scanString at h
    simp [hq, hb, hlt] at h
  | case10 b rest hq hb hlt ih =>
    unfold scanString at h
    simp only [hq, hb, hlt, if_false] at h
    obtain ⟨⟨raw', r'⟩, hs, h⟩ := bind_ok_iff.mp h
    cases h
    rw [ih hs]
    rfl

/-- The bytes of a complete scan after decoding. -/
def unescaped (r : Bytes × Bytes) : Option (Bytes × Bytes) := (unescape r.1).map (·, r.2)

lemma backslash_ne_quote : backslash ≠ quote := by decide

lemma unicode_not_simple : (0x75 : UInt8) ∉ simpleEscapes := by decide

lemma scanString_plain (t : Tail) {b : UInt8} {rest : Bytes} (hq : b ≠ quote) (hb : b ≠ backslash)
    (hc : ¬ b < 0x20) : scanString t (b :: rest) = (do
      let (raw, rest) ← scanString t rest
      .ok (b :: raw, rest)) := by
  conv_lhs => unfold scanString
  simp only [hq, hb, hc, if_false]

lemma scanString_simple (t : Tail) {e : UInt8} {rest : Bytes} (he : e ∈ simpleEscapes) :
    scanString t (backslash :: e :: rest) = (do
      let (raw, rest) ← scanString t rest
      .ok (backslash :: e :: raw, rest)) := by
  conv_lhs => unfold scanString
  simp only [backslash_ne_quote, he, if_false, if_true]

lemma scanString_unicode (t : Tail) (h1 h2 h3 h4 : UInt8) (rest : Bytes) :
    scanString t (backslash :: 0x75 :: h1 :: h2 :: h3 :: h4 :: rest) =
      if isHex h1 ∧ isHex h2 ∧ isHex h3 ∧ isHex h4 then (do
        let (raw, rest) ← scanString t rest
        .ok (backslash :: 0x75 :: h1 :: h2 :: h3 :: h4 :: raw, rest))
      else .error .malformed := by
  conv_lhs => unfold scanString
  simp only [backslash_ne_quote, unicode_not_simple, if_false, if_true]

lemma unescape_plain {b : UInt8} (hb : b ≠ backslash) (raw : Bytes) :
    unescape (b :: raw) = (unescape raw).map (b :: ·) := by
  conv_lhs => unfold unescape
  simp [hb]

lemma unescape_simple {e : UInt8} (he : e ≠ 0x75) (raw : Bytes) :
    unescape (backslash :: e :: raw) = (unescape raw).map (simpleEscape e :: ·) := by
  conv_lhs => unfold unescape
  simp [he]

lemma unescape_unit {h1 h2 h3 h4 : UInt8} (hlow : isLowSurrogate (hex4 h1 h2 h3 h4) = false)
    (hhigh : isHighSurrogate (hex4 h1 h2 h3 h4) = false) (raw : Bytes) :
    unescape (backslash :: 0x75 :: h1 :: h2 :: h3 :: h4 :: raw) =
      (unescape raw).map (encodeUnit (hex4 h1 h2 h3 h4) ++ ·) := by
  conv_lhs => unfold unescape
  simp [hlow, hhigh]

lemma unescape_low {h1 h2 h3 h4 : UInt8} (hlow : isLowSurrogate (hex4 h1 h2 h3 h4) = true)
    (raw : Bytes) : unescape (backslash :: 0x75 :: h1 :: h2 :: h3 :: h4 :: raw) = none := by
  unfold unescape
  simp [hlow]

lemma unescape_pair {h1 h2 h3 h4 : UInt8} (g1 g2 g3 g4 : UInt8)
    (hlow : isLowSurrogate (hex4 h1 h2 h3 h4) = false)
    (hhigh : isHighSurrogate (hex4 h1 h2 h3 h4) = true) (raw : Bytes) :
    unescape (backslash :: 0x75 :: h1 :: h2 :: h3 :: h4 :: backslash :: 0x75 :: g1 :: g2 :: g3 :: g4 :: raw) =
      if isLowSurrogate (hex4 g1 g2 g3 g4) then
        (unescape raw).map (encodePair (hex4 h1 h2 h3 h4) (hex4 g1 g2 g3 g4) ++ ·)
      else none := by
  conv_lhs => unfold unescape
  simp [hlow, hhigh]

/-- A high surrogate needs the escape of a low one right after it. -/
lemma unescape_high {h1 h2 h3 h4 : UInt8} (hlow : isLowSurrogate (hex4 h1 h2 h3 h4) = false)
    (hhigh : isHighSurrogate (hex4 h1 h2 h3 h4) = true) {raw : Bytes}
    (hraw : ∀ g1 g2 g3 g4 rest, raw ≠ backslash :: 0x75 :: g1 :: g2 :: g3 :: g4 :: rest) :
    unescape (backslash :: 0x75 :: h1 :: h2 :: h3 :: h4 :: raw) = none := by
  unfold unescape
  simp only [ne_eq, not_true_eq_false, if_false, hlow, hhigh, if_true, Bool.false_eq_true]
  split
  · split_ifs with hs
    · exact (hraw _ _ _ _ _ (by rw [hs.1, hs.2.1])).elim
    · rfl
  · rfl

section Step
variable {inp rest p : Bytes}

/-- A piece `p` of a scanned string that decodes to `c` on its own. -/
lemma unescaped_step {c : Bytes} (hscan : scanString .eof inp = (do
      let (raw, r) ← scanString .eof rest
      .ok (p ++ raw, r)))
    (hdecode : ∀ raw, unescape (p ++ raw) = (unescape raw).map (c ++ ·)) :
    (scanString .eof inp).toOption.bind unescaped =
      ((scanString .eof rest).toOption.bind unescaped).bind (fun r => some (c ++ r.1, r.2)) := by
  rw [hscan]
  cases scanString .eof rest with
  | error e => rfl
  | ok r =>
    simp only [ok_bind, toOption_ok, Option.bind_some, unescaped, hdecode]
    cases unescape r.1 <;> rfl

/-- A piece that no continuation of the string lets decode. -/
lemma unescaped_none (hscan : scanString .eof inp = (do
      let (raw, r) ← scanString .eof rest
      .ok (p ++ raw, r)))
    (hdecode : ∀ raw r, scanString .eof rest = .ok (raw, r) → unescape (p ++ raw) = none) :
    (scanString .eof inp).toOption.bind unescaped = none := by
  rw [hscan]
  cases hr : scanString .eof rest with
  | error e => rfl
  | ok r =>
    simp only [ok_bind, toOption_ok, Option.bind_some, unescaped, hdecode r.1 r.2 hr, Option.map_none]

end Step

lemma parseLowHalf_escape (t : Tail) (n : ℕ) (g1 g2 g3 g4 : UInt8) (rest : Bytes) :
    parseLowHalf t n (backslash :: 0x75 :: g1 :: g2 :: g3 :: g4 :: rest) =
      if isHex g1 ∧ isHex g2 ∧ isHex g3 ∧ isHex g4 then
        if isLowSurrogate (hex4 g1 g2 g3 g4) then .ok (encodePair n (hex4 g1 g2 g3 g4), rest)
        else .error .malformed
      else .error .malformed := by
  simp only [parseLowHalf, scanIdent, if_true, ok_bind, hexEscape]
  by_cases hhex : isHex g1 ∧ isHex g2 ∧ isHex g3 ∧ isHex g4
  · simp only [if_pos hhex, ok_bind]
  · simp only [if_neg hhex, error_bind]

lemma parseLowHalf_other {inp : Bytes}
    (h : ∀ g1 g2 g3 g4 rest, inp ≠ backslash :: 0x75 :: g1 :: g2 :: g3 :: g4 :: rest) (n : ℕ) :
    (parseLowHalf .eof n inp).toOption = none := by
  match inp, h with
  | [], _ => rfl
  | [s], _ =>
    by_cases hs : s = backslash <;> simp [parseLowHalf, scanIdent, hs]
  | s :: u :: rest, h =>
    by_cases hs : s = backslash
    · by_cases hu : u = 0x75
      · subst hs hu
        rcases rest with _ | ⟨g1, _ | ⟨g2, _ | ⟨g3, _ | ⟨g4, rest⟩⟩⟩⟩
        · simp [parseLowHalf, scanIdent, hexEscape]
        · simp [parseLowHalf, scanIdent, hexEscape]
        · simp [parseLowHalf, scanIdent, hexEscape]
        · simp [parseLowHalf, scanIdent, hexEscape]
        · exact (h g1 g2 g3 g4 rest rfl).elim
      · simp [parseLowHalf, scanIdent, hs, hu]
    · simp [parseLowHalf, scanIdent, hs]

/-- A high surrogate decodes with the escape after it, or the string does not decode. -/
lemma pairEscape_eof {h1 h2 h3 h4 : UInt8} (hhex : isHex h1 ∧ isHex h2 ∧ isHex h3 ∧ isHex h4)
    (hlow : isLowSurrogate (hex4 h1 h2 h3 h4) = false)
    (hhigh : isHighSurrogate (hex4 h1 h2 h3 h4) = true) (rest : Bytes) :
    (scanString .eof (backslash :: 0x75 :: h1 :: h2 :: h3 :: h4 :: rest)).toOption.bind unescaped =
      (parseLowHalf .eof (hex4 h1 h2 h3 h4) rest).toOption.bind (fun c =>
        ((scanString .eof c.2).toOption.bind unescaped).bind (fun r => some (c.1 ++ r.1, r.2))) := by
  have hscan := scanString_unicode .eof h1 h2 h3 h4 rest
  rw [if_pos hhex] at hscan
  by_cases hrest : ∃ g1 g2 g3 g4 rest', rest = backslash :: 0x75 :: g1 :: g2 :: g3 :: g4 :: rest'
  · obtain ⟨g1, g2, g3, g4, rest, rfl⟩ := hrest
    rw [scanString_unicode .eof g1 g2 g3 g4 rest] at hscan
    rw [parseLowHalf_escape]
    by_cases hhex' : isHex g1 ∧ isHex g2 ∧ isHex g3 ∧ isHex g4
    · rw [if_pos hhex'] at hscan ⊢
      have hboth : scanString .eof (backslash :: 0x75 :: h1 :: h2 :: h3 :: h4 ::
          backslash :: 0x75 :: g1 :: g2 :: g3 :: g4 :: rest) = (do
            let (raw, r) ← scanString .eof rest
            .ok ([backslash, 0x75, h1, h2, h3, h4, backslash, 0x75, g1, g2, g3, g4] ++ raw, r)) := by
        rw [hscan]
        cases scanString .eof rest <;> rfl
      by_cases hm : isLowSurrogate (hex4 g1 g2 g3 g4) = true
      · rw [if_pos hm]
        refine unescaped_step hboth (fun raw => ?_)
        simpa [hm] using unescape_pair g1 g2 g3 g4 hlow hhigh raw
      · rw [if_neg hm]
        refine unescaped_none hboth (fun raw _ _ => ?_)
        simpa [hm] using unescape_pair g1 g2 g3 g4 hlow hhigh raw
    · rw [if_neg hhex'] at hscan ⊢
      rw [hscan]
      rfl
  · push Not at hrest
    rw [parseLowHalf_other hrest]
    refine unescaped_none (p := [backslash, 0x75, h1, h2, h3, h4]) hscan (fun raw r hr => ?_)
    refine unescape_high hlow hhigh (fun g1 g2 g3 g4 raw' hraw => ?_)
    have hraw : raw = backslash :: 0x75 :: g1 :: g2 :: g3 :: g4 :: raw' := hraw
    rw [scanString_append .eof hr, hraw] at hrest
    exact hrest g1 g2 g3 g4 _ rfl

/-- One escape decodes as it is read, or the string does not decode. -/
lemma parseEscape_eof (e : UInt8) (rest : Bytes) :
    (scanString .eof (backslash :: e :: rest)).toOption.bind unescaped =
      (parseEscape .eof (e :: rest)).toOption.bind (fun c =>
        ((scanString .eof c.2).toOption.bind unescaped).bind (fun r => some (c.1 ++ r.1, r.2))) := by
  by_cases he : e ∈ simpleEscapes
  · have heu : e ≠ 0x75 := by
      rintro rfl
      exact unicode_not_simple he
    simp only [parseEscape, he, if_true, toOption_ok, Option.bind_some]
    exact unescaped_step (p := [backslash, e]) (scanString_simple .eof he) (unescape_simple heu)
  by_cases hu : e = 0x75
  · subst hu
    simp only [parseEscape, he, if_false, if_true, toOption_bind]
    match rest with
    | h1 :: h2 :: h3 :: h4 :: rest =>
      have hscan := scanString_unicode .eof h1 h2 h3 h4 rest
      by_cases hhex : isHex h1 ∧ isHex h2 ∧ isHex h3 ∧ isHex h4
      · rw [if_pos hhex] at hscan
        simp only [hexEscape, if_pos hhex, toOption_ok, Option.bind_some]
        by_cases hlow : isLowSurrogate (hex4 h1 h2 h3 h4) = true
        · simp only [hlow, if_true, toOption_error, Option.bind_none]
          exact unescaped_none (p := [backslash, 0x75, h1, h2, h3, h4]) hscan
            (fun raw _ _ => unescape_low hlow raw)
        by_cases hhigh : isHighSurrogate (hex4 h1 h2 h3 h4) = true
        · simp only [hlow, hhigh, if_true, Bool.false_eq_true, if_false]
          exact pairEscape_eof hhex (by simpa using hlow) hhigh rest
        · simp only [hlow, hhigh, Bool.false_eq_true, if_false, toOption_ok, Option.bind_some]
          exact unescaped_step (p := [backslash, 0x75, h1, h2, h3, h4]) hscan
            (unescape_unit (by simpa using hlow) (by simpa using hhigh))
      · rw [hscan]
        simp [hexEscape, hhex]
    | [] | [_] | [_, _] | [_, _, _] =>
      unfold scanString
      simp [he, backslash_ne_quote, hexEscape]
  · unfold scanString
    simp [parseEscape, he, backslash_ne_quote, hu]

/-- On a complete text decoding while scanning is scanning and then decoding. -/
lemma parseStrAux_eof (n : ℕ) : ∀ inp, inp.length < n →
    (parseStrAux .eof n inp).toOption = (scanString .eof inp).toOption.bind unescaped := by
  induction n with
  | zero => intro inp h; omega
  | succ n ih =>
    intro inp hlen
    cases inp with
    | nil => rfl
    | cons b rest =>
      simp only [List.length_cons] at hlen
      by_cases hq : b = quote
      · subst hq
        unfold parseStrAux scanString
        simp [unescaped, unescape]
      by_cases hb : b = backslash
      · subst hb
        simp only [parseStrAux, hq, if_false, if_true, toOption_bind]
        cases rest with
        | nil => simp [parseEscape, scanString, hq]
        | cons e rest =>
          rw [parseEscape_eof]
          cases hesc : parseEscape .eof (e :: rest) with
          | error err => rfl
          | ok c =>
            have hle := (parseEscape_leaves .eof (c := c.1) (r := c.2) hesc).length_le
            simp only [toOption_ok, Option.bind_some, ih c.2 (by omega)]
      by_cases hc : b < 0x20
      · unfold scanString
        simp [parseStrAux, hq, hb, hc]
      · simp only [parseStrAux, hq, hb, hc, if_false, toOption_bind, ih rest (by omega)]
        exact (unescaped_step (p := [b]) (c := [b]) (scanString_plain .eof hq hb hc)
          (unescape_plain hb)).symm

lemma parseText_eof (inp : Bytes) : (parseText .eof inp).toOption =
    (scanString .eof inp).toOption.bind (fun r => (decodeString r.1).map (·, r.2)) := by
  rw [parseText, toOption_bind, parseStr, parseStrAux_eof _ inp (Nat.lt_succ_self _), Option.bind_assoc]
  congr 1
  funext r
  simp only [unescaped, decodeString]
  cases unescape r.1 with
  | none => rfl
  | some text =>
    simp only [Option.map_some, Option.bind_some]
    cases utf8Decode text <;> rfl

lemma parseKey_eof (inp : Bytes) : (parseKey .eof inp).toOption =
    (scanKey .eof inp).toOption.bind (fun r => (decodeString r.1).map (·, r.2)) := by
  cases inp with
  | nil => rfl
  | cons b rest =>
    simp only [parseKey, scanKey]
    split_ifs with hb
    · rw [toOption_bind, parseText_eof, toOption_bind, Option.bind_assoc, Option.bind_assoc]
      congr 1
      funext r
      rw [toOption_bind]
      cases hd : decodeString r.1 with
      | none =>
        cases skipWs .eof r.2 with
        | error e => rfl
        | ok w =>
          cases w with
          | nil => rfl
          | cons c w => by_cases hc : c = colon <;> simp [hc, hd]
      | some key =>
        cases hw : skipWs .eof r.2 with
        | error e => simp [hw]
        | ok w =>
          cases w with
          | nil => simp [hw]
          | cons c w => by_cases hc : c = colon <;> simp [hc, hd, hw]
    · rfl

lemma skipWs_idem (t : Tail) {inp w : Bytes} {b : UInt8} (h : skipWs t inp = .ok (b :: w)) :
    skipWs t (b :: w) = .ok (b :: w) := by
  induction inp with
  | nil => cases t <;> simp [skipWs] at h
  | cons c rest ih =>
    simp only [skipWs] at h
    split_ifs at h with hc
    · exact ih h
    · cases h
      simp [skipWs, hc]

lemma parseToken_eof (float : FloatParser) (inp : Bytes) : (parseToken .eof float inp).toOption =
    (scanHead .eof inp).toOption.bind (fun r => (r.1.token float).map (·, r.2)) := by
  rw [parseToken, toOption_bind]
  cases hw : skipWs .eof inp with
  | error e => simp [scanHead, hw]
  | ok w =>
    cases w with
    | nil => simp [scanHead, hw]
    | cons b rest =>
      have hhead : scanHead .eof inp = scanHead .eof (b :: rest) := by
        rw [scanHead, scanHead, hw, skipWs_idem .eof hw]
      simp only [toOption_ok, Option.bind_some, hhead]
      split_ifs with hq
      · subst hq
        have hstr : scanHead .eof (quote :: rest) = (do
            let (raw, rest) ← scanString .eof rest
            .ok (.scalar (.str raw), rest)) := by
          rw [scanHead, skipWs_idem .eof hw]
          rfl
        rw [hstr, toOption_bind, toOption_bind, parseText_eof, Option.bind_assoc, Option.bind_assoc]
        congr 1
        funext r
        simp only [toOption_ok, Option.bind_some, Head.token, Lex.decode]
        cases decodeString r.1 <;> rfl
      · rw [toOption_bind]
        congr 1
        funext r
        cases r.1.token float <;> rfl

end Complete

end CloudTrailFilter.Json
