import CloudTrailFilter.Decode.S3
import CloudTrailFilter.Json.Utf8

/-!
# Keys of an S3 notification

The keys of a notification are form-urlencoded. The plus signs become spaces before the escapes are
decoded, in the text as a whole. An escape holds no plus sign and a character that is not one has
none among its bytes, so the two steps act as one on the bytes, and every encoding of a key decodes
to the key.
-/

namespace CloudTrailFilter.Decode
open Json Fallible

section Percent

/-- What `percent_decode` does to its input: an escape becomes its byte, any other byte stays. -/
structure PercentDecodes (decode : Bytes → Bytes) : Prop where
  nil : decode [] = []
  escape {h l : UInt8} (rest : Bytes) (hh : isHex h = true) (hl : isHex l = true) :
    decode (0x25 :: h :: l :: rest) = UInt8.ofNat (16 * hexValue h + hexValue l) :: decode rest
  other {b : UInt8} {rest : Bytes}
    (hb : ∀ h l rest', b :: rest = 0x25 :: h :: l :: rest' → ¬ (isHex h = true ∧ isHex l = true)) :
    decode (b :: rest) = b :: decode rest

lemma percentDecode_escape {h l : UInt8} (rest : Bytes) (hh : isHex h = true) (hl : isHex l = true) :
    percentDecode (0x25 :: h :: l :: rest) =
      UInt8.ofNat (16 * hexValue h + hexValue l) :: percentDecode rest := by
  rw [percentDecode, if_pos ⟨hh, hl⟩]

lemma percentDecode_other {b : UInt8} {rest : Bytes}
    (hb : ∀ h l rest', b :: rest = 0x25 :: h :: l :: rest' → ¬ (isHex h = true ∧ isHex l = true)) :
    percentDecode (b :: rest) = b :: percentDecode rest := by
  rw [percentDecode.eq_def]
  split
  · rename_i h l rest' heq
    obtain ⟨rfl, rfl⟩ := List.cons.inj heq
    rw [if_neg (hb h l rest' rfl)]
  · rename_i heq
    obtain ⟨rfl, rfl⟩ := List.cons.inj heq
    rfl
  · rename_i heq
    cases heq

/-- Nothing but `percentDecode` does this. -/
theorem percentDecodes_iff {decode : Bytes → Bytes} : PercentDecodes decode ↔ decode = percentDecode := by
  constructor
  · intro hd
    funext bytes
    fun_induction percentDecode bytes with
    | case1 h l rest hhex ih => rw [hd.escape rest hhex.1 hhex.2, ih]
    | case2 h l rest hhex ih =>
      rw [hd.other, ih]
      intro h' l' rest' heq
      cases heq
      exact hhex
    | case3 b rest hesc ih =>
      rw [hd.other, ih]
      intro h l rest' heq
      obtain ⟨hb, hrest⟩ := List.cons.inj heq
      exact (hesc h l rest' hb hrest).elim
    | case4 => exact hd.nil
  · rintro rfl
    exact ⟨rfl, percentDecode_escape, percentDecode_other⟩

end Percent

section Plus

/-- What the replacement of the plus signs does to a byte of the text. -/
def plusByte (b : UInt8) : UInt8 := if b = 0x2B then 0x20 else b

lemma plusByte_isHex {b : UInt8} (h : isHex b = true) : plusByte b = b := by
  refine if_neg (fun heq => ?_)
  rw [heq] at h
  exact absurd h (by decide)

lemma plusDecoded_char (c : Char) :
    String.utf8EncodeChar (if c = '+' then ' ' else c) = (String.utf8EncodeChar c).map plusByte := by
  by_cases hc : c = '+'
  · rw [if_pos hc, hc]
    rfl
  · have hne : ∀ b ∈ String.utf8EncodeChar c, plusByte b = b := fun b hb =>
      if_neg (encodeChar_ne (a := '+') (by decide) hc b hb)
    rw [if_neg hc, List.map_congr_left hne, List.map_id']

/-- The replacement in the text is one on its bytes. -/
theorem plusDecoded_toUTF8 (key : String) :
    (plusDecoded key).toUTF8.toList = key.toUTF8.toList.map plusByte := by
  rw [toUTF8_toList, toUTF8_toList, plusDecoded, String.toList_ofList]
  induction key.toList with
  | nil => rfl
  | cons c chars ih => rw [List.map_cons, List.flatMap_cons, List.flatMap_cons, List.map_append, ih, plusDecoded_char]

end Plus

section Encodings
variable {bytes text : Bytes}

/-- The form-urlencodings of the bytes of a key. A space has three forms, a percent sign and a plus sign
have only their escapes. In a text that is a `String` the literal bytes make up whole characters. -/
inductive FormEncodes : Bytes → Bytes → Prop
  | nil : FormEncodes [] []
  | plus {bytes text : Bytes} (hrest : FormEncodes bytes text) :
      FormEncodes (0x20 :: bytes) (0x2B :: text)
  | escape {b h l : UInt8} {bytes text : Bytes} (hh : isHex h = true) (hl : isHex l = true)
      (hb : 16 * hexValue h + hexValue l = b.toNat) (hrest : FormEncodes bytes text) :
      FormEncodes (b :: bytes) (0x25 :: h :: l :: text)
  | literal {b : UInt8} {bytes text : Bytes} (hpercent : b ≠ 0x25) (hplus : b ≠ 0x2B)
      (hrest : FormEncodes bytes text) : FormEncodes (b :: bytes) (b :: text)

/-- Both steps on the bytes of an encoding. -/
theorem percentDecode_formEncodes (h : FormEncodes bytes text) :
    percentDecode (text.map plusByte) = bytes := by
  induction h with
  | nil => rfl
  | plus _ ih =>
    rw [List.map_cons, percentDecode_other (by simp [plusByte]), ih]
    rfl
  | escape hh hl hb _ ih =>
    simp only [List.map_cons, plusByte_isHex hh, plusByte_isHex hl]
    change percentDecode (0x25 :: _ :: _ :: _) = _
    rw [percentDecode_escape _ hh hl, hb, UInt8.ofNat_toNat, ih]
  | literal hpercent hplus _ ih =>
    rw [List.map_cons, plusByte, if_neg hplus, percentDecode_other, ih]
    exact fun _ _ _ heq => absurd (List.cons.inj heq).1 hpercent

lemma formEncodes_literal (head : Bytes) (hhead : ∀ b ∈ head, b ≠ 0x25 ∧ b ≠ 0x2B)
    (h : FormEncodes bytes text) : FormEncodes (head ++ bytes) (head ++ text) := by
  induction head with
  | nil => exact h
  | cons b head ih =>
    obtain ⟨hb, hhead⟩ := List.forall_mem_cons.mp hhead
    exact .literal hb.1 hb.2 (ih hhead)

/-- Every key has an encoding: its text with the percent and plus signs escaped. -/
theorem formEncodes_exists (key : String) :
    ∃ text : String, FormEncodes key.toUTF8.toList text.toUTF8.toList := by
  suffices h : ∃ chars : List Char,
      FormEncodes (key.toList.flatMap String.utf8EncodeChar) (chars.flatMap String.utf8EncodeChar) by
    obtain ⟨chars, h⟩ := h
    refine ⟨String.ofList chars, ?_⟩
    rwa [toUTF8_toList, toUTF8_toList, String.toList_ofList]
  induction key.toList with
  | nil => exact ⟨[], .nil⟩
  | cons c cs ih =>
    obtain ⟨chars, hchars⟩ := ih
    by_cases hpercent : c = '%'
    · subst hpercent
      exact ⟨'%' :: '2' :: '5' :: chars, .escape (by decide) (by decide) (by decide) hchars⟩
    by_cases hplus : c = '+'
    · subst hplus
      exact ⟨'%' :: '2' :: 'B' :: chars, .escape (by decide) (by decide) (by decide) hchars⟩
    refine ⟨c :: chars, formEncodes_literal _ (fun b hb => ⟨?_, ?_⟩) hchars⟩
    · exact encodeChar_ne (a := '%') (by decide) hpercent b hb
    · exact encodeChar_ne (a := '+') (by decide) hplus b hb

end Encodings

section Keys
variable {texts : LibraryTexts} {float : FloatParser} {key text : String}

lemma decodeFormUrlencodedKey_ok (h : FormEncodes key.toUTF8.toList text.toUTF8.toList) :
    decodeFormUrlencodedKey texts text = .ok key := by
  unfold decodeFormUrlencodedKey
  rw [plusDecoded_toUTF8, percentDecode_formEncodes h]
  simp only [utf8Decode_toUTF8, String.ofList_toList]

lemma mapM_objectRef_keys (texts : LibraryTexts) {records : List S3RecordEnvelope} {keys : List String}
    (hkeys : List.Forall₂ (fun r key => FormEncodes key.toUTF8.toList r.s3.object.key.toUTF8.toList)
      records keys) :
    ∃ objects, records.mapM (S3RecordEnvelope.objectRef texts) = .ok objects ∧
      objects.map ObjectRef.key = keys := by
  induction hkeys with
  | nil => exact ⟨[], rfl, rfl⟩
  | @cons r key rest keys hkey _ ih =>
    obtain ⟨objects, hobjects, hmap⟩ := ih
    refine ⟨⟨r.s3.bucket.name, key, r.s3.object.size⟩ :: objects, ?_, by rw [List.map_cons, hmap]⟩
    rw [List.mapM_cons, S3RecordEnvelope.objectRef, decodeFormUrlencodedKey_ok hkey, hobjects]
    rfl

/-- A notification names the keys that were encoded in it, in order. -/
theorem notification_keys_decoded {payload : Bytes} {value : Value} {notification : S3Notification}
    {keys : List String} (hvalue : Value.fromSlice float payload = some value)
    (htest : isTestEvent value = false) (hread : S3Notification.fromValue value = some notification)
    (hkeys : List.Forall₂ (fun r key => FormEncodes key.toUTF8.toList r.s3.object.key.toUTF8.toList)
      notification.created keys) :
    ∃ objects skipped, parseS3Notification texts float payload = .ok (objects, skipped) ∧
      objects.map ObjectRef.key = keys := by
  obtain ⟨objects, hobjects, hmap⟩ := mapM_objectRef_keys texts hkeys
  refine ⟨objects, notification.records.any (fun r => !isObjectCreated r.eventName), ?_, hmap⟩
  unfold parseS3Notification
  simp only [hvalue, htest, hread, collectObjects_eq, Bool.false_eq_true, if_false]
  rw [show notification.records.filter (fun r => isObjectCreated r.eventName) = notification.created from rfl,
    hobjects]
  rfl

/-- `decode_form_urlencoded_key` undoes every form-urlencoding of every key, and the object of a record
has the key that was encoded. -/
theorem form_key_decoded (h : FormEncodes key.toUTF8.toList text.toUTF8.toList) :
    decodeFormUrlencodedKey texts text = .ok key ∧
      ∀ r : S3RecordEnvelope, r.s3.object.key = text →
        r.objectRef texts = .ok ⟨r.s3.bucket.name, key, r.s3.object.size⟩ := by
  have hkey : decodeFormUrlencodedKey texts text = .ok key := decodeFormUrlencodedKey_ok h
  refine ⟨hkey, fun r hr => ?_⟩
  rw [S3RecordEnvelope.objectRef, hr, hkey]
  rfl

/-- A plus sign and each form of a space, and a letter of two bytes as it is and in mixed escapes. -/
theorem form_key_decoded_sample :
    decodeFormUrlencodedKey ⟨fun _ => "", fun _ => "", fun _ => "", fun _ => "", fun _ => ""⟩
      "1%2b1 =%202+é%c3%A9" = .ok "1+1 = 2 éé" := by
  have hkey : "1+1 = 2 éé".toUTF8.toList =
      [0x31, 0x2B, 0x31, 0x20, 0x3D, 0x20, 0x32, 0x20, 0xC3, 0xA9, 0xC3, 0xA9] := by decide +kernel
  have htext : "1%2b1 =%202+é%c3%A9".toUTF8.toList =
      [0x31, 0x25, 0x32, 0x62, 0x31, 0x20, 0x3D, 0x25, 0x32, 0x30, 0x32, 0x2B, 0xC3, 0xA9,
        0x25, 0x63, 0x33, 0x25, 0x41, 0x39] := by decide +kernel
  refine (form_key_decoded ?_).1
  rw [hkey, htext]
  refine .literal (by decide) (by decide) ?_
  refine .escape (by decide) (by decide) (by decide) ?_
  refine formEncodes_literal [0x31, 0x20, 0x3D] (by decide +kernel) ?_
  refine .escape (by decide) (by decide) (by decide) ?_
  refine .literal (by decide) (by decide) ?_
  refine .plus ?_
  refine formEncodes_literal [0xC3, 0xA9] (by decide +kernel) ?_
  exact .escape (by decide) (by decide) (by decide) (.escape (by decide) (by decide) (by decide) .nil)

end Keys

end CloudTrailFilter.Decode
