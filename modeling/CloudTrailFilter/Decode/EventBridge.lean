import CloudTrailFilter.Decode.FormKey
import CloudTrailFilter.Lib.Decimal

/-!
# EventBridge notifications

An EventBridge event is about one object. Its key is not encoded, unlike that of an S3 notification,
so the same object has two texts. Both decoders name it alike.
-/

namespace CloudTrailFilter.Decode
open Json Fallible

section Event

structure Bucket where
  name : String
deriving DecidableEq, Repr

structure ObjectDetail where
  key : String
  size : Option ℕ
deriving DecidableEq, Repr

structure Detail where
  eventVersion : String
  bucket : Bucket
  object : ObjectDetail
deriving DecidableEq, Repr

structure EventBridgeEvent where
  detailType : String
  detail : Detail
deriving DecidableEq, Repr

def Bucket.read (v : Lex) : Option Bucket :=
  match v.fields ["name"] with
  | some [some name] => do
    let name ← name.text
    some ⟨name⟩
  | _ => none

def ObjectDetail.read (v : Lex) : Option ObjectDetail :=
  match v.fields ["key", "size"] with
  | some [some key, size] => do
    let key ← key.text
    let size ← Lex.optU64 size
    some ⟨key, size⟩
  | _ => none

def Detail.read (v : Lex) : Option Detail :=
  match v.fields ["event-version", "bucket", "object"] with
  | some [some eventVersion, some bucket, some object] => do
    let eventVersion ← eventVersion.text
    let bucket ← Bucket.read bucket
    let object ← ObjectDetail.read object
    some ⟨eventVersion, bucket, object⟩
  | _ => none

def EventBridgeEvent.read (v : Lex) : Option EventBridgeEvent :=
  match v.fields ["detail-type", "detail"] with
  | some [some detailType, some detail] => do
    let detailType ← detailType.text
    let detail ← Detail.read detail
    some ⟨detailType, detail⟩
  | _ => none

/-- `serde_json::from_slice::<EventBridgeEvent>`. -/
def EventBridgeEvent.fromSlice (payload : Bytes) : Option EventBridgeEvent :=
  (scanDocument payload).toOption.bind EventBridgeEvent.read

def EventBridgeEvent.objectRef (event : EventBridgeEvent) : ObjectRef :=
  ⟨event.detail.bucket.name, event.detail.object.key, event.detail.object.size⟩

end Event

section Decoder
variable (debug : String → String)

def objectCreated : String := "Object Created"

/-- The first of the parts between dots. -/
def eventVersionMajor (eventVersion : String) : Except String (Word 64) :=
  match Decimal.fromStr 64 (String.ofList (eventVersion.toList.takeWhile (· ≠ '.'))) with
  | .ok major => .ok major
  | .error _ => .error ("invalid detail.event-version " ++ debug eventVersion)

/-- `EventBridgeDecoder::decode`. The text of an error about the event itself is `eventText`. -/
def EventBridgeDecoder.decode (eventText : Bytes → String) (payload : Bytes) : Except String (List SourceItem) :=
  match EventBridgeEvent.fromSlice payload with
  | none => .error (eventText payload)
  | some event =>
    if event.detailType ≠ objectCreated then .ok []
    else do
      let major ← eventVersionMajor debug event.detail.eventVersion
      if major.val ≠ 1 then
        .error ("unsupported detail.event-version " ++ debug event.detail.eventVersion ++ ": expected major version 1")
      else .ok [.new none [event.objectRef]]

end Decoder

section Versions
variable {debug : String → String}

/-- The versions of major one: a one, with zeros and a plus sign before it or not, up to the first dot. -/
def NamesMajorOne (eventVersion : String) : Prop :=
  ∃ (sign : List Char) (zeros : ℕ) (rest : List Char), eventVersion.toList = sign ++ (List.replicate zeros '0' ++ '1' :: rest) ∧
    (sign = [] ∨ sign = ['+']) ∧ ∀ c ∈ rest.head?, c = '.'

lemma takeWhile_version {sign rest : List Char} {zeros : ℕ} (hsign : sign = [] ∨ sign = ['+'])
    (hrest : ∀ c ∈ rest.head?, c = '.') :
    (sign ++ (List.replicate zeros '0' ++ '1' :: rest)).takeWhile (· ≠ '.') =
      sign ++ (List.replicate zeros '0' ++ ['1']) := by
  have hnil : rest.takeWhile (· ≠ '.') = [] := by
    cases rest with
    | nil => rfl
    | cons c rest => simp [hrest c rfl]
  rw [List.takeWhile_append_of_pos, List.takeWhile_append_of_pos, List.takeWhile_cons_of_pos (by decide), hnil]
  · intro c hc
    rw [List.eq_of_mem_replicate hc]
    decide
  · rcases hsign with rfl | rfl
    · simp
    · simp

lemma eventVersionMajor_one_iff {eventVersion : String} :
    (∃ major, eventVersionMajor debug eventVersion = .ok major ∧ major.val = 1) ↔ NamesMajorOne eventVersion := by
  have hok : ∀ major, eventVersionMajor debug eventVersion = .ok major ↔
      Decimal.fromStr 64 (String.ofList (eventVersion.toList.takeWhile (· ≠ '.'))) = .ok major := by
    intro major
    unfold eventVersionMajor
    cases Decimal.fromStr 64 (String.ofList (eventVersion.toList.takeWhile (· ≠ '.'))) <;> simp
  simp only [hok, Decimal.fromStr_ok_iff, String.toList_ofList]
  constructor
  · rintro ⟨major, ⟨sign, digits, hs, hsign, -, hdigits, hvalue⟩, hone⟩
    rw [hone] at hvalue
    obtain ⟨zeros, rfl⟩ := (Decimal.ofDigitChars_eq_one_iff hdigits).mp hvalue
    refine ⟨sign, zeros, eventVersion.toList.dropWhile (· ≠ '.'), ?_, hsign, ?_⟩
    · have hjoin := List.takeWhile_append_dropWhile (p := fun c => decide (c ≠ '.')) (l := eventVersion.toList)
      rw [hs] at hjoin
      refine hjoin.symm.trans ?_
      simp only [List.append_assoc, List.singleton_append]
    · intro c hc
      have hhead := List.head?_dropWhile_not (fun c => decide (c ≠ '.')) eventVersion.toList
      rw [Option.mem_def.mp hc] at hhead
      simpa using hhead
  · rintro ⟨sign, zeros, rest, hversion, hsign, hrest⟩
    have hdigits : (List.replicate zeros '0' ++ ['1']).all Char.isDigit = true := by
      rw [List.all_append, List.all_replicate]
      simp
    refine ⟨⟨1, by norm_num⟩, ⟨sign, _, ?_, hsign, by simp, hdigits, ?_⟩, rfl⟩
    · rw [hversion, takeWhile_version hsign hrest]
    · exact (Decimal.ofDigitChars_eq_one_iff hdigits).mpr ⟨zeros, rfl⟩

end Versions

section Decoded
variable {debug : String → String} {eventText : Bytes → String} {payload : Bytes}

/-- An event of a created object yields the object, any other event nothing. -/
lemma eventBridge_ok_iff {items : List SourceItem} : EventBridgeDecoder.decode debug eventText payload = .ok items ↔
    ∃ event, EventBridgeEvent.fromSlice payload = some event ∧
      (event.detailType ≠ objectCreated ∧ items = [] ∨
        event.detailType = objectCreated ∧ NamesMajorOne event.detail.eventVersion ∧
          items = [.new none [event.objectRef]]) := by
  unfold EventBridgeDecoder.decode
  cases EventBridgeEvent.fromSlice payload with
  | none => simp
  | some event =>
    simp only [Option.some.injEq, exists_eq_left']
    by_cases hcreated : event.detailType = objectCreated
    · rw [if_neg (not_not.mpr hcreated), bind_ok_iff, ← @eventVersionMajor_one_iff debug]
      simp only [hcreated, ne_eq, not_true_eq_false, false_and, false_or, true_and]
      constructor
      · rintro ⟨major, hmajor, hitems⟩
        split_ifs at hitems with hone
        cases hitems
        exact ⟨⟨major, hmajor, hone⟩, rfl⟩
      · rintro ⟨⟨major, hmajor, hone⟩, rfl⟩
        exact ⟨major, hmajor, by rw [if_neg (not_not.mpr hone)]⟩
    · rw [if_pos hcreated]
      simp [hcreated, eq_comm]

end Decoded

section Raw

/-- A percent sign with two hexadecimal digits after it. -/
def HasEscape (bytes : Bytes) : Prop :=
  ∃ h l before after, bytes = before ++ 0x25 :: h :: l :: after ∧ isHex h = true ∧ isHex l = true

lemma hasEscape_cons {b : UInt8} {bytes : Bytes}
    (hb : ∀ h l rest, b :: bytes = 0x25 :: h :: l :: rest → ¬ (isHex h = true ∧ isHex l = true)) :
    HasEscape (b :: bytes) ↔ HasEscape bytes := by
  constructor
  · rintro ⟨h, l, before, after, heq, hh, hl⟩
    cases before with
    | nil => exact absurd ⟨hh, hl⟩ (hb h l after heq)
    | cons b' before => exact ⟨h, l, before, after, (List.cons.inj heq).2, hh, hl⟩
  · rintro ⟨h, l, before, after, rfl, hh, hl⟩
    exact ⟨h, l, b :: before, after, rfl, hh, hl⟩

/-- Decoding shortens a text at each of its escapes, and leaves one without escapes alone. -/
lemma percentDecode_length (bytes : Bytes) :
    (percentDecode bytes).length ≤ bytes.length ∧
      ((percentDecode bytes).length = bytes.length → ¬HasEscape bytes) ∧
      (¬HasEscape bytes → percentDecode bytes = bytes) := by
  fun_induction percentDecode bytes with
  | case1 h l rest hhex ih =>
    simp only [List.length_cons]
    refine ⟨by omega, by omega, fun hno => ?_⟩
    exact absurd ⟨h, l, [], rest, rfl, hhex.1, hhex.2⟩ hno
  | case2 h l rest hhex ih =>
    have hcons : HasEscape (0x25 :: h :: l :: rest) ↔ HasEscape (h :: l :: rest) :=
      hasEscape_cons fun h' l' rest' heq => by
        cases heq
        exact hhex
    rw [hcons]
    simp only [List.length_cons] at ih ⊢
    refine ⟨by omega, fun hlen => ih.2.1 (by omega), fun hno => by rw [ih.2.2 hno]⟩
  | case3 b rest hesc ih =>
    have hcons : HasEscape (b :: rest) ↔ HasEscape rest :=
      hasEscape_cons fun h l rest' heq => by
        obtain ⟨hb, hrest⟩ := List.cons.inj heq
        exact (hesc h l rest' hb hrest).elim
    rw [hcons]
    simp only [List.length_cons]
    exact ⟨by omega, fun hlen => ih.2.1 (by omega), fun hno => by rw [ih.2.2 hno]⟩
  | case4 =>
    refine ⟨le_rfl, fun _ => ?_, fun _ => rfl⟩
    rintro ⟨h, l, before, after, heq, -⟩
    simp at heq

lemma plusDecoded_eq_iff {key : String} : plusDecoded key = key ↔ '+' ∉ key.toList := by
  rw [plusDecoded, ← String.toList_inj, String.toList_ofList]
  constructor
  · intro h hmem
    obtain ⟨i, hi, hplus⟩ := List.mem_iff_getElem.mp hmem
    have hget := congrArg (fun l => l[i]?) h
    simp [hi, hplus] at hget
  · intro h
    refine (List.map_congr_left fun c hc => ?_).trans (List.map_id _)
    exact if_neg fun (heq : c = '+') => h (heq ▸ hc)

/-- A key that is its own form-urlencoding: one that has no plus sign and no escape. -/
lemma decodeFormUrlencodedKey_self_iff {texts : LibraryTexts} {key : String} :
    decodeFormUrlencodedKey texts key = .ok key ↔ '+' ∉ key.toList ∧ ¬HasEscape key.toUTF8.toList := by
  rw [← plusDecoded_eq_iff]
  constructor
  · intro h
    have hlength : (percentDecode (plusDecoded key).toUTF8.toList).length = key.toUTF8.toList.length := by
      unfold decodeFormUrlencodedKey at h
      cases hdecode : utf8Decode (percentDecode (plusDecoded key).toUTF8.toList) with
      | none => simp only [hdecode, reduceCtorEq] at h
      | some chars =>
        simp only [hdecode, Except.ok.injEq] at h
        rw [utf8Decode_length hdecode, toUTF8_toList, ← h, String.toList_ofList]
    have hplus : (plusDecoded key).toUTF8.toList.length = key.toUTF8.toList.length := by
      rw [plusDecoded_toUTF8, List.length_map]
    obtain ⟨-, hescape, hkeep⟩ := percentDecode_length (plusDecoded key).toUTF8.toList
    have hno := hescape (hlength.trans hplus.symm)
    have hsame : plusDecoded key = key := by
      unfold decodeFormUrlencodedKey at h
      simpa only [hkeep hno, utf8Decode_toUTF8, String.ofList_toList, Except.ok.injEq] using h
    rw [hsame] at hno
    exact ⟨hsame, hno⟩
  · rintro ⟨hplus, hno⟩
    unfold decodeFormUrlencodedKey
    rw [hplus]
    simp only [(percentDecode_length _).2.2 hno, utf8Decode_toUTF8, String.ofList_toList]

end Raw

section Same
variable {texts : LibraryTexts} {float : FloatParser} {debug : String → String} {eventText : Bytes → String}

/-- A text that notifies of one record, which creates an object. -/
def NotifiesOf (float : FloatParser) (text : Bytes) (r : S3RecordEnvelope) : Prop :=
  ∃ value, Value.fromSlice float text = some value ∧ isTestEvent value = false ∧
    S3Notification.fromValue value = some ⟨[r]⟩ ∧ isObjectCreated r.eventName = true

lemma decode_notifiesOf {text : Bytes} {r : S3RecordEnvelope} (h : NotifiesOf float text r) :
    S3EventDecoder.decode texts float text = (r.objectRef texts).map (fun object => [.new none [object]]) := by
  obtain ⟨value, hvalue, htest, hread, hcreated⟩ := h
  unfold S3EventDecoder.decode parseS3Notification
  simp only [hvalue, htest, hread, collectObjects_eq]
  cases hobject : r.objectRef texts with
  | error e => simp [hobject, hcreated, bind, Except.bind, Except.map]
  | ok object => simp [hobject, hcreated, bind, Except.bind, Except.map, pure, Except.pure, asSourceItem]

/-- An EventBridge event is read as the S3 notification of the same object. An event of a created object
yields the object under its key as it is, another event nothing. Every notification that has
the key in any encoding is read alike; one that has it as it is, exactly when the key has no plus sign and
no escape. -/
theorem eventBridge_names_same_object (texts : LibraryTexts) (float : FloatParser) (debug : String → String)
    (eventText : Bytes → String) (payload : Bytes) :
    (∀ items, EventBridgeDecoder.decode debug eventText payload = .ok items ↔
      ∃ event, EventBridgeEvent.fromSlice payload = some event ∧
        (event.detailType ≠ objectCreated ∧ items = [] ∨
          event.detailType = objectCreated ∧ NamesMajorOne event.detail.eventVersion ∧
            items = [.new none [event.objectRef]])) ∧
    ∀ event text r, EventBridgeEvent.fromSlice payload = some event → event.detailType = objectCreated →
      NamesMajorOne event.detail.eventVersion → NotifiesOf float text r →
      r.s3.bucket.name = event.detail.bucket.name → r.s3.object.size = event.detail.object.size →
      (FormEncodes event.detail.object.key.toUTF8.toList r.s3.object.key.toUTF8.toList →
        S3EventDecoder.decode texts float text = EventBridgeDecoder.decode debug eventText payload) ∧
      (r.s3.object.key = event.detail.object.key →
        (S3EventDecoder.decode texts float text = EventBridgeDecoder.decode debug eventText payload ↔
          '+' ∉ event.detail.object.key.toList ∧ ¬HasEscape event.detail.object.key.toUTF8.toList)) := by
  refine ⟨fun items => eventBridge_ok_iff, fun event text r hevent hcreated hversion hnotifies hbucket hsize => ?_⟩
  have hdecode : EventBridgeDecoder.decode debug eventText payload = .ok [.new none [event.objectRef]] :=
    eventBridge_ok_iff.mpr ⟨event, hevent, .inr ⟨hcreated, hversion, rfl⟩⟩
  have hsame : S3EventDecoder.decode texts float text = .ok [.new none [event.objectRef]] ↔
      decodeFormUrlencodedKey texts r.s3.object.key = .ok event.detail.object.key := by
    rw [decode_notifiesOf hnotifies, S3RecordEnvelope.objectRef]
    cases decodeFormUrlencodedKey texts r.s3.object.key with
    | error e => simp [bind, Except.bind, Except.map]
    | ok key =>
      simp [bind, Except.bind, Except.map, pure, Except.pure, EventBridgeEvent.objectRef, hbucket, hsize, SourceItem.new]
  rw [hdecode]
  refine ⟨fun hkey => hsame.mpr (decodeFormUrlencodedKey_ok hkey), fun hkey => ?_⟩
  rw [hsame, hkey]
  exact decodeFormUrlencodedKey_self_iff

def sampleEvent : Bytes :=
  ("\x7b\"detail-type\":\"Object Created\",\"detail\":\x7b\"event-version\":\"1.0\",\"bucket\":\x7b\"name\":\"b\"\x7d," ++
    "\"object\":\x7b\"key\":\"a+b\",\"size\":5\x7d\x7d\x7d").toUTF8.toList

def sampleNotice : Bytes :=
  ("\x7b\"Records\":[\x7b\"s3\":\x7b\"bucket\":\x7b\"name\":\"b\"\x7d," ++
    "\"object\":\x7b\"key\":\"a%2Bb\",\"size\":5\x7d\x7d\x7d]\x7d").toUTF8.toList

lemma sampleNotice_notifies :
    NotifiesOf (fun _ => none) sampleNotice ⟨none, ⟨⟨"b"⟩, ⟨"a%2Bb", some 5⟩⟩⟩ := by
  have hread : (Value.fromSlice (fun _ => none) sampleNotice).bind S3Notification.fromValue =
      some ⟨[⟨none, ⟨⟨"b"⟩, ⟨"a%2Bb", some 5⟩⟩⟩]⟩ := by decide +kernel
  have htest : (Value.fromSlice (fun _ => none) sampleNotice).map isTestEvent = some false := by decide +kernel
  obtain ⟨value, hvalue, hnotification⟩ := Option.bind_eq_some_iff.mp hread
  rw [hvalue, Option.map_some, Option.some.injEq] at htest
  exact ⟨value, hvalue, htest, hnotification, rfl⟩

theorem eventBridge_names_same_object_sample :
    S3EventDecoder.decode ⟨fun _ => "", fun _ => "", fun _ => "", fun _ => "", fun _ => ""⟩ (fun _ => none) sampleNotice =
      EventBridgeDecoder.decode id (fun _ => "") sampleEvent := by
  have hevent : EventBridgeEvent.fromSlice sampleEvent = some ⟨"Object Created", ⟨"1.0", ⟨"b"⟩, ⟨"a+b", some 5⟩⟩⟩ := by
    decide +kernel
  have hkey : "a+b".toUTF8.toList = [0x61, 0x2B, 0x62] := by decide +kernel
  have htext : "a%2Bb".toUTF8.toList = [0x61, 0x25, 0x32, 0x42, 0x62] := by decide +kernel
  have hencodes : FormEncodes "a+b".toUTF8.toList "a%2Bb".toUTF8.toList := by
    rw [hkey, htext]
    refine .literal (by decide) (by decide) ?_
    refine .escape (by decide) (by decide) (by decide) ?_
    exact .literal (by decide) (by decide) .nil
  exact ((eventBridge_names_same_object _ _ id (fun _ => "") sampleEvent).2 _ _ _ hevent rfl
    ⟨[], 0, ['.', '0'], rfl, .inl rfl, by simp⟩ sampleNotice_notifies rfl rfl).1 hencodes

end Same

end CloudTrailFilter.Decode
