import CloudTrailFilter.Json.Decode
import CloudTrailFilter.Json.Incremental

/-!
# UTF-8 text and its parts

JSON is delimited by ASCII bytes, and UTF-8 can be cut before any of them. So the elements of an
array in a UTF-8 text are UTF-8 themselves, which is what a `RawValue` asks of them. A `String` is
read back from its bytes.
-/

namespace CloudTrailFilter.Json
open Fallible

section Cut

/-- A text that goes on with an ASCII byte. -/
def StartsAscii (inp : Bytes) : Prop := ∃ b rest, inp = b :: rest ∧ b < 0x80

/-- The bytes of one character: a single ASCII byte, or none of them ASCII. -/
structure CharBytes (c : Bytes) : Prop where
  nonempty : c ≠ []
  ascii : (∃ b, c = [b]) ∨ ∀ b ∈ c, 0x80 ≤ b
  closed : ∀ rest, isUtf8 rest = true → isUtf8 (c ++ rest) = true

lemma isContinuation_ge {b : UInt8} (h : isContinuation b = true) : 0x80 ≤ b := by
  simp only [isContinuation, decide_eq_true_eq] at h
  exact h.1

/-- UTF-8 text begins with a character. -/
lemma isUtf8_cons {b0 : UInt8} {tail : Bytes} (h : isUtf8 (b0 :: tail) = true) :
    ∃ c rest, b0 :: tail = c ++ rest ∧ CharBytes c ∧ isUtf8 rest = true := by
  rw [isUtf8, utf8Decode.eq_def] at h
  simp only at h
  split_ifs at h with h80 hC2 hE0 hF0 hF5
  · refine ⟨[b0], tail, rfl, ⟨by simp, .inl ⟨b0, rfl⟩, fun rest hr => ?_⟩, by simpa [isUtf8] using h⟩
    rw [List.singleton_append, isUtf8, utf8Decode.eq_def]
    simpa [h80, isUtf8] using hr
  · simp at h
  · match tail with
    | [] => simp at h
    | b1 :: rest =>
      simp only at h
      split_ifs at h with hc
      · refine ⟨[b0, b1], rest, rfl, ⟨by simp, .inr ?_, fun r hr => ?_⟩, by simpa [isUtf8] using h⟩
        · simp [UInt8.not_lt.mp h80, isContinuation_ge hc]
        · rw [List.cons_append, isUtf8, utf8Decode.eq_def]
          simpa [h80, hC2, hE0, hc, isUtf8] using hr
      · simp at h
  · match tail with
    | [] => simp at h
    | [_] => simp at h
    | b1 :: b2 :: rest =>
      simp only at h
      split_ifs at h with hc
      · refine ⟨[b0, b1, b2], rest, rfl, ⟨by simp, .inr ?_, fun r hr => ?_⟩, by simpa [isUtf8] using h⟩
        · simp [UInt8.not_lt.mp h80, isContinuation_ge hc.1, isContinuation_ge hc.2.1]
        · rw [List.cons_append, isUtf8, utf8Decode.eq_def]
          simp only [h80, hC2, hE0, hF0, if_false, if_true, List.cons_append, List.nil_append, hc]
          simpa [isUtf8] using hr
      · simp at h
  · match tail with
    | [] => simp at h
    | [_] => simp at h
    | [_, _] => simp at h
    | b1 :: b2 :: b3 :: rest =>
      simp only at h
      split_ifs at h with hc
      · refine ⟨[b0, b1, b2, b3], rest, rfl, ⟨by simp, .inr ?_, fun r hr => ?_⟩, by simpa [isUtf8] using h⟩
        · simp [UInt8.not_lt.mp h80, isContinuation_ge hc.1, isContinuation_ge hc.2.1,
            isContinuation_ge hc.2.2.1]
        · rw [List.cons_append, isUtf8, utf8Decode.eq_def]
          simp only [h80, hC2, hE0, hF0, hF5, if_false, if_true, List.cons_append, List.nil_append, hc]
          simpa [isUtf8] using hr
      · simp at h
  · simp at h

/-- UTF-8 can be cut before an ASCII byte. -/
theorem isUtf8_append {x y : Bytes} (hy : StartsAscii y) (h : isUtf8 (x ++ y) = true) :
    isUtf8 x = true ∧ isUtf8 y = true := by
  induction hn : x.length using Nat.strong_induction_on generalizing x with
  | _ n ih =>
    cases x with
    | nil => exact ⟨rfl, h⟩
    | cons b0 tail =>
      obtain ⟨c, rest, hsplit, hc, hrest⟩ := isUtf8_cons h
      have happ : b0 :: tail ++ y = c ++ rest := hsplit
      rcases List.append_eq_append_iff.mp happ with ⟨more, hcx, hmore⟩ | ⟨more, hxc, hmore⟩
      · -- the character would reach into the rest, but that starts with another one
        obtain ⟨b, ys, rfl, hb⟩ := hy
        cases more with
        | nil =>
          rw [List.append_nil] at hcx
          rw [List.nil_append] at hmore
          refine ⟨?_, by rw [hmore]; exact hrest⟩
          have := hc.closed [] rfl
          rwa [List.append_nil, hcx] at this
        | cons first more =>
          obtain ⟨rfl, -⟩ := List.cons.inj hmore
          rcases hc.ascii with ⟨b', hone⟩ | hnone
          · rw [hone] at hcx
            have := congrArg List.length hcx
            simp at this
          · exact (UInt8.not_lt.mpr (hnone b (by rw [hcx]; simp)) hb).elim
      · have hlt : more.length < n := by
          have := congrArg List.length hxc
          have hpos := List.length_pos_iff.mpr hc.nonempty
          simp only [List.length_append] at this
          omega
        obtain ⟨hx, hy'⟩ := ih more.length hlt (by rw [← hmore]; exact hrest) rfl
        exact ⟨by rw [hxc]; exact hc.closed more hx, hy'⟩

end Cut

section Elements
variable (t : Tail)

lemma isUtf8_suffix {inp mid : Bytes} (h : isUtf8 inp = true) (hs : mid <:+ inp) (hmid : StartsAscii mid) :
    isUtf8 mid = true := by
  obtain ⟨pre, rfl⟩ := hs
  exact (isUtf8_append hmid h).2

lemma isWhitespace_ascii {b : UInt8} (h : isWhitespace b = true) : b < 0x80 := by
  simp only [isWhitespace, decide_eq_true_eq] at h
  rcases h with rfl | rfl | rfl | rfl <;> decide

lemma skipWs_ascii {inp rest : Bytes} {b : UInt8} (h : skipWs t inp = .ok (b :: rest)) (hb : b < 0x80) :
    StartsAscii inp := by
  cases inp with
  | nil => cases t <;> simp [skipWs] at h
  | cons c tail =>
    by_cases hw : isWhitespace c = true
    · exact ⟨c, tail, rfl, isWhitespace_ascii hw⟩
    · simp only [skipWs, hw] at h
      cases h
      exact ⟨b, rest, rfl, hb⟩

lemma scanHead_ascii {inp r : Bytes} {hd : Head} (h : scanHead t inp = .ok (hd, r)) : StartsAscii inp := by
  obtain ⟨w, hw, h⟩ := bind_ok_iff.mp h
  cases w with
  | nil => simp at h
  | cons b rest =>
    refine skipWs_ascii t hw ?_
    simp only at h
    split_ifs at h with h1 h2 h3 h4 h5 h6 h7 h8
    · rw [h1]; decide
    · rw [h2]; decide
    · rw [h3]; decide
    · rw [h4]; decide
    · simp only [isDigit, decide_eq_true_eq] at h5
      exact UInt8.lt_of_le_of_lt h5.2 (by decide)
    · rw [h6]; decide
    · rw [h7]; decide
    · rw [h8]; decide

lemma scanValue_ascii {inp r : Bytes} {v : Lex} (h : scanValue t inp = .ok (v, r)) : StartsAscii inp := by
  rw [scanValue_eq] at h
  obtain ⟨⟨hd, rest⟩, hh, -⟩ := bind_ok_iff.mp h
  exact scanHead_ascii t hh

lemma isUtf8_of_ascii_cons {b : UInt8} {tail : Bytes} (hb : b < 0x80) (h : isUtf8 (b :: tail) = true) :
    isUtf8 tail = true := by
  rw [isUtf8, utf8Decode.eq_def] at h
  simpa [hb, isUtf8] using h

/-- The inside of a container in a UTF-8 text. -/
lemma scanHead_utf8 {inp r : Bytes} {hd : Head} (hutf : isUtf8 inp = true)
    (h : scanHead t inp = .ok (hd, r)) (hcontainer : ∀ v, hd ≠ .scalar v) : isUtf8 r = true := by
  obtain ⟨w, hw, h⟩ := bind_ok_iff.mp h
  have hsuffix := skipWs_leaves t hw
  cases w with
  | nil => simp at h
  | cons b rest =>
    simp only at h
    split_ifs at h with h1 h2 h3 h4 h5 h6 h7 h8
    iterate 6
      obtain ⟨r', -, h⟩ := bind_ok_iff.mp h
      cases h
      exact (hcontainer _ rfl).elim
    · cases h
      have hb : b < 0x80 := by
        rw [h7]
        decide
      exact isUtf8_of_ascii_cons hb (isUtf8_suffix hutf hsuffix ⟨b, r, rfl, hb⟩)
    · cases h
      have hb : b < 0x80 := by
        rw [h8]
        decide
      exact isUtf8_of_ascii_cons hb (isUtf8_suffix hutf hsuffix ⟨b, r, rfl, hb⟩)

/-- What follows an element of a list is a delimiter. -/
lemma nextItem_ascii {close : UInt8} (hclose : close < 0x80) {inp : Bytes} {r : Bool × Bytes}
    (h : nextItem t close false inp = .ok r) : StartsAscii inp := by
  obtain ⟨w, hw, h⟩ := bind_ok_iff.mp h
  cases w with
  | nil => simp at h
  | cons b rest =>
    refine skipWs_ascii t hw ?_
    simp only at h
    split_ifs at h with hend hfirst hcomma
    · rw [hend]
      exact hclose
    · simp at hfirst
    · rw [hcomma]
      decide

/-- The elements of a value's array are UTF-8, and so are those of the arrays directly in an object. -/
def Utf8Elements : Lex → Prop
  | .arr items => ∀ item ∈ items, isUtf8 item.1 = true
  | .obj members => ∀ key items, (key, Lex.arr items) ∈ members → ∀ item ∈ items, isUtf8 item.1 = true
  | _ => True

/-- A UTF-8 text can be cut after each of its elements, since a delimiter follows. -/
lemma utf8_rule :
    ScanRule t (fun inp v _ => isUtf8 inp = true → Utf8Elements v)
      (fun _ inp items _ => isUtf8 inp = true → Utf8Elements (.arr items))
      (fun _ inp members _ => isUtf8 inp = true → Utf8Elements (.obj members)) where
  scalar := by
    intro inp v r hh _
    obtain ⟨harr, hobj⟩ := scanHead_scalar t hh
    cases v with
    | arr items => exact (harr items rfl).elim
    | obj members => exact (hobj members rfl).elim
    | null | bool b | num lexeme | str raw => trivial
  items hh _ ih hutf := ih (scanHead_utf8 t hutf hh (by simp))
  members hh _ ih hutf := ih (scanHead_utf8 t hutf hh (by simp))
  noItem _ _ := by simp [Utf8Elements]
  item := by
    intro first inp mid v r1 vs r hnext hv _ hvs ih hutf
    have hmidUtf := isUtf8_suffix hutf (nextItem_leaves t hnext).1 (scanValue_ascii t hv)
    have hrest : StartsAscii r1 := by
      rw [scanItems_eq] at hvs
      obtain ⟨_, hdelim, -⟩ := bind_ok_iff.mp hvs
      exact nextItem_ascii t (by decide) hdelim
    obtain ⟨c, -, rfl⟩ := scanValue_eats t hv
    obtain ⟨hspan, hrestUtf⟩ := isUtf8_append hrest hmidUtf
    intro item hitem
    rcases List.mem_cons.mp hitem with rfl | hitem
    · rw [consumed_append]
      exact hspan
    · exact ih hrestUtf item hitem
  noMember _ _ := by simp [Utf8Elements]
  member := by
    intro first inp mid key r1 v r2 ms r hnext hkey hv ihv hms ih hutf
    have hkeyUtf : isUtf8 r1 = true :=
      isUtf8_suffix hutf ((scanKey_eats t hkey).leaves.trans (nextItem_leaves t hnext).1) (scanValue_ascii t hv)
    have hrest : StartsAscii r2 := by
      rw [scanMembers_eq] at hms
      obtain ⟨_, hdelim, -⟩ := bind_ok_iff.mp hms
      exact nextItem_ascii t (by decide) hdelim
    have hrestUtf := isUtf8_suffix hkeyUtf (scanValue_eats t hv).leaves hrest
    intro key' items hmem
    rcases List.mem_cons.mp hmem with heq | hmem
    · obtain ⟨rfl, rfl⟩ := Prod.mk.inj heq
      exact ihv hkeyUtf
    · exact ih hrestUtf key' items hmem

/-- The arrays directly in a UTF-8 document have UTF-8 elements. -/
theorem scanDocument_utf8 {text : Bytes} {members : List (Bytes × Lex)} (hutf : isUtf8 text = true)
    (h : scanDocument text = .ok (.obj members)) {key : Bytes} {items : List (Bytes × Lex)}
    (hmem : (key, Lex.arr items) ∈ members) : ∀ item ∈ items, isUtf8 item.1 = true := by
  obtain ⟨⟨v, rest⟩, hv, h⟩ := bind_ok_iff.mp h
  obtain ⟨_, -, h⟩ := bind_ok_iff.mp h
  cases h
  exact (utf8_rule .eof).scan.1 text _ rest hv hutf key items hmem

end Elements

section Encode

lemma toNat_ofNat_small {n : ℕ} (h : n < 256) : (UInt8.ofNat n).toNat = n := by
  simpa using h

lemma isContinuation_ofNat {n : ℕ} (h : n < 64) : isContinuation (UInt8.ofNat (n + 0x80)) = true := by
  have hn := toNat_ofNat_small (show n + 0x80 < 256 by omega)
  simp only [isContinuation, decide_eq_true_eq, UInt8.le_iff_toNat_le, hn]
  exact ⟨by simp, by simp; omega⟩

/-- A character is read back from its bytes. -/
lemma utf8Decode_encodeChar (c : Char) (rest : Bytes) :
    utf8Decode (String.utf8EncodeChar c ++ rest) = (utf8Decode rest).map (c :: ·) := by
  have hc : Char.ofNat c.val.toNat = c := Char.ofNat_toNat c
  have hvalid : c.val.toNat < 0xD800 ∨ 0xDFFF < c.val.toNat ∧ c.val.toNat < 0x110000 := c.valid
  simp only [String.utf8EncodeChar]
  generalize c.val.toNat = v at hc hvalid
  have hlow : isContinuation (UInt8.ofNat (v % 0x40 + 0x80)) = true :=
    isContinuation_ofNat (Nat.mod_lt _ (by decide))
  have hmid : isContinuation (UInt8.ofNat (v / 64 % 0x40 + 0x80)) = true :=
    isContinuation_ofNat (Nat.mod_lt _ (by decide))
  have hhigh : isContinuation (UInt8.ofNat (v / 4096 % 0x40 + 0x80)) = true :=
    isContinuation_ofNat (Nat.mod_lt _ (by decide))
  have nlow := toNat_ofNat_small (show v % 0x40 + 0x80 < 256 by omega)
  have nmid := toNat_ofNat_small (show v / 64 % 0x40 + 0x80 < 256 by omega)
  have nhigh := toNat_ofNat_small (show v / 4096 % 0x40 + 0x80 < 256 by omega)
  split_ifs with h1 h2 h3
  · have hv : (UInt8.ofNat v).toNat = v := toNat_ofNat_small (by omega)
    rw [List.cons_append, List.nil_append, utf8Decode.eq_def]
    simp [UInt8.lt_iff_toNat_lt, hv, show v < 128 by omega, hc]
  · have hb := toNat_ofNat_small (show v / 64 % 0x20 + 0xc0 < 256 by omega)
    have hn : (v / 64 % 0x20 + 0xc0 - 0xC0) * 64 + (v % 0x40 + 0x80 - 0x80) = v := by omega
    simp only [List.cons_append, List.nil_append]
    rw [utf8Decode.eq_def]
    simp only [UInt8.lt_iff_toNat_lt, hb, nlow, hlow, if_true, hn, hc]
    rw [if_neg (by simp), if_neg (by simp; omega), if_pos (by simp; omega)]
  · have hb := toNat_ofNat_small (show v / 4096 % 0x10 + 0xe0 < 256 by omega)
    have hn : (v / 4096 % 0x10 + 0xe0 - 0xE0) * 4096 + (v / 64 % 0x40 + 0x80 - 0x80) * 64 +
      (v % 0x40 + 0x80 - 0x80) = v := by omega
    simp only [List.cons_append, List.nil_append]
    rw [utf8Decode.eq_def]
    simp only [UInt8.lt_iff_toNat_lt, hb, nlow, hlow, nmid, hmid, hn, hc]
    rw [if_neg (by simp), if_neg (by simp), if_neg (by simp), if_pos (by simp; omega),
      if_pos (by simp; omega)]
  · have hb := toNat_ofNat_small (show v / 262144 % 0x08 + 0xf0 < 256 by omega)
    have hn : (v / 262144 % 0x08 + 0xf0 - 0xF0) * 262144 + (v / 4096 % 0x40 + 0x80 - 0x80) * 4096 +
      (v / 64 % 0x40 + 0x80 - 0x80) * 64 + (v % 0x40 + 0x80 - 0x80) = v := by omega
    simp only [List.cons_append, List.nil_append]
    rw [utf8Decode.eq_def]
    simp only [UInt8.lt_iff_toNat_lt, hb, nlow, hlow, nmid, hmid, nhigh, hhigh, hn, hc]
    rw [if_neg (by simp), if_neg (by simp), if_neg (by simp), if_neg (by simp), if_pos (by simp; omega),
      if_pos (by simp; omega)]

/-- A byte array as a list is the list of its data. -/
lemma toList_loop (bs : ByteArray) (i : ℕ) (r : Bytes) :
    ByteArray.toList.loop bs i r = r.reverse ++ bs.data.toList.drop i := by
  fun_induction ByteArray.toList.loop bs i r with
  | case1 i r hlt ih =>
    have hi : i < bs.data.toList.length := by simpa using hlt
    rw [ih, List.drop_eq_getElem_cons hi]
    simp [ByteArray.get!, hlt]
  | case2 i r hlt =>
    rw [List.drop_eq_nil_of_le (by simpa using Nat.le_of_not_lt hlt)]
    simp

/-- The bytes of a text are those of its characters. -/
lemma toUTF8_toList (text : String) :
    text.toUTF8.toList = text.toList.flatMap String.utf8EncodeChar := by
  rw [ByteArray.toList, toList_loop, String.toUTF8_eq_toByteArray, ← String.utf8Encode_toList,
    List.utf8Encode, List.toList_data_toByteArray]
  rfl

/-- `str::from_utf8` reads a text back from its bytes. -/
theorem utf8Decode_toUTF8 (text : String) : utf8Decode text.toUTF8.toList = some text.toList := by
  rw [toUTF8_toList]
  induction text.toList with
  | nil => rfl
  | cons c chars ih => rw [List.flatMap_cons, utf8Decode_encodeChar, ih, Option.map_some]

/-- The bytes of a character other than an ASCII one are not ASCII. -/
lemma encodeChar_bytes (c : Char) :
    String.utf8EncodeChar c = [UInt8.ofNat c.toNat] ∧ c.toNat < 0x80 ∨
      ∀ b ∈ String.utf8EncodeChar c, 0x80 ≤ b := by
  have hge : ∀ n, n < 128 → 0x80 ≤ UInt8.ofNat (n + 0x80) := fun n hn => by
    rw [UInt8.le_iff_toNat_le, toNat_ofNat_small (by omega)]
    simp
  simp only [String.utf8EncodeChar]
  change _ ∧ c.val.toNat < _ ∨ _
  split_ifs with h1 h2 h3
  · exact .inl ⟨rfl, by omega⟩
  all_goals
    right
    simp only [List.forall_mem_cons, List.not_mem_nil, false_imp_iff, implies_true, and_true]
  · exact ⟨hge (_ + 0x40) (by omega), hge _ (by omega)⟩
  · exact ⟨hge (_ + 0x60) (by omega), hge _ (by omega), hge _ (by omega)⟩
  · exact ⟨hge (_ + 0x70) (by omega), hge _ (by omega), hge _ (by omega), hge _ (by omega)⟩
/-- The byte of an ASCII character is among the bytes of no other character. -/
lemma encodeChar_ne {a c : Char} (ha : a.toNat < 0x80) (hne : c ≠ a) :
    ∀ b ∈ String.utf8EncodeChar c, b ≠ UInt8.ofNat a.toNat := by
  rcases encodeChar_bytes c with ⟨hbytes, hlt⟩ | hge
  · rintro b hb heq
    rw [hbytes, List.mem_singleton] at hb
    have hnat := congrArg UInt8.toNat (hb.symm.trans heq)
    rw [toNat_ofNat_small (by omega), toNat_ofNat_small (by omega)] at hnat
    exact hne (Char.ext (UInt32.toNat_inj.mp hnat))
  · rintro b hb rfl
    have hle := UInt8.le_iff_toNat_le.mp (hge _ hb)
    rw [toNat_ofNat_small (by omega)] at hle
    exact absurd ha (Nat.not_lt.mpr hle)

/-- The size of the encoding of a code point. -/
lemma utf8Size_ofNat {n : ℕ} (h : n < 0xD800 ∨ 0xDFFF < n ∧ n < 0x110000) :
    (Char.ofNat n).utf8Size = if n ≤ 0x7F then 1 else if n ≤ 0x7FF then 2 else if n ≤ 0xFFFF then 3 else 4 := by
  have hval : (Char.ofNat n).val.toNat = n := by
    rw [Char.ofNat, dif_pos (show n.isValidChar from h)]
    rfl
  simp only [Char.utf8Size, UInt32.le_iff_toNat_le, hval]
  rfl

lemma isContinuation_bounds {b : UInt8} (h : isContinuation b = true) : 0x80 ≤ b.toNat ∧ b.toNat ≤ 0xBF := by
  simpa [isContinuation, UInt8.le_iff_toNat_le] using h

/-- Bytes that decode are as many as the encodings of their characters. -/
lemma utf8Decode_length {bytes : Bytes} {chars : List Char} (h : utf8Decode bytes = some chars) :
    bytes.length = (chars.flatMap String.utf8EncodeChar).length := by
  fun_induction utf8Decode bytes generalizing chars with
  | case1 =>
    cases h
    rfl
  | case2 b0 rest h1 ih =>
    obtain ⟨cs, hcs, rfl⟩ := Option.map_eq_some_iff.mp h
    have hn : b0.toNat < 0x80 := by simpa [UInt8.lt_iff_toNat_lt] using h1
    have hsize := utf8Size_ofNat (.inl (show b0.toNat < 0xD800 by omega))
    rw [if_pos (by omega)] at hsize
    rw [List.flatMap_cons, List.length_append, String.length_utf8EncodeChar, hsize, ← ih hcs, List.length_cons]
    omega
  | case4 b0 h1 h2 h3 b1 rest hcont ih =>
    obtain ⟨cs, hcs, rfl⟩ := Option.map_eq_some_iff.mp h
    have hb := isContinuation_bounds hcont
    have hge : 0xC2 ≤ b0.toNat := by simpa [UInt8.lt_iff_toNat_lt] using h2
    have hlt : b0.toNat < 0xE0 := by simpa [UInt8.lt_iff_toNat_lt] using h3
    have hsize := utf8Size_ofNat (.inl (show (b0.toNat - 0xC0) * 64 + (b1.toNat - 0x80) < 0xD800 by omega))
    rw [if_neg (by omega), if_pos (by omega)] at hsize
    rw [List.flatMap_cons, List.length_append, String.length_utf8EncodeChar, hsize, ← ih hcs]
    simp only [List.length_cons]
    omega
  | case7 b0 _ _ _ h4 b1 b2 rest n hcont =>
    rename_i ih
    obtain ⟨cs, hcs, rfl⟩ := Option.map_eq_some_iff.mp h
    obtain ⟨hcont1, hcont2, hge, hsurrogate⟩ := hcont
    have hb1 := isContinuation_bounds hcont1
    have hb2 := isContinuation_bounds hcont2
    have hlt : b0.toNat < 0xF0 := by simpa [UInt8.lt_iff_toNat_lt] using h4
    have hle : n ≤ 0xFFFF := by
      simp only [n]
      omega
    have hsize := utf8Size_ofNat (show n < 0xD800 ∨ 0xDFFF < n ∧ n < 0x110000 by omega)
    rw [if_neg (by omega), if_neg (by omega), if_pos hle] at hsize
    rw [List.flatMap_cons, List.length_append, String.length_utf8EncodeChar, hsize, ← ih hcs]
    simp only [List.length_cons]
    omega
  | case10 b0 _ _ _ _ _ b1 b2 b3 rest n hcont =>
    rename_i ih
    obtain ⟨cs, hcs, rfl⟩ := Option.map_eq_some_iff.mp h
    obtain ⟨-, -, -, hge, hle⟩ := hcont
    have hsize := utf8Size_ofNat (show n < 0xD800 ∨ 0xDFFF < n ∧ n < 0x110000 by omega)
    rw [if_neg (by omega), if_neg (by omega), if_neg (by omega)] at hsize
    rw [List.flatMap_cons, List.length_append, String.length_utf8EncodeChar, hsize, ← ih hcs]
    simp only [List.length_cons]
    omega
  | _ => cases h

end Encode

end CloudTrailFilter.Json
