import CloudTrailFilter.Json.Struct
import CloudTrailFilter.Lib.Fallible
import CloudTrailFilter.Model

/-!
# S3 bucket notifications

`parse_s3_notification`: the objects that a notification references, one for each record that
creates an object. All decoders share it. The texts that the libraries give for their errors
are a parameter.
-/

namespace CloudTrailFilter.Decode
open Json Fallible

/-- The texts of the errors that `serde_json` and `str::from_utf8` give. -/
structure LibraryTexts where
  value : Bytes → String
  notification : Value → String
  event : Bytes → String
  envelope : Bytes → String
  utf8 : Bytes → String

section Notification

structure S3Bucket where
  name : String
deriving DecidableEq, Repr

structure S3Object where
  key : String
  size : Option ℕ
deriving DecidableEq, Repr

structure S3Detail where
  bucket : S3Bucket
  object : S3Object
deriving DecidableEq, Repr

/-- An entry of a notification. `eventName` may be missing. -/
structure S3RecordEnvelope where
  eventName : Option String
  s3 : S3Detail
deriving DecidableEq, Repr

structure S3Notification where
  records : List S3RecordEnvelope
deriving DecidableEq, Repr

def S3Bucket.fromValue (v : Value) : Option S3Bucket :=
  match v.fields ["name"] with
  | some [some name] => do
    let name ← name.text
    some ⟨name⟩
  | _ => none

def S3Object.fromValue (v : Value) : Option S3Object :=
  match v.fields ["key", "size"] with
  | some [some key, size] => do
    let key ← key.text
    let size ← Value.optU64 size
    some ⟨key, size⟩
  | _ => none

def S3Detail.fromValue (v : Value) : Option S3Detail :=
  match v.fields ["bucket", "object"] with
  | some [some bucket, some object] => do
    let bucket ← S3Bucket.fromValue bucket
    let object ← S3Object.fromValue object
    some ⟨bucket, object⟩
  | _ => none

def S3RecordEnvelope.fromValue (v : Value) : Option S3RecordEnvelope :=
  match v.fields ["eventName", "s3"] with
  | some [eventName, some s3] => do
    let eventName ← Value.optText eventName
    let s3 ← S3Detail.fromValue s3
    some ⟨eventName, s3⟩
  | _ => none

/-- `serde_json::from_value::<S3Notification>`. A missing `Records` is an error. -/
def S3Notification.fromValue (v : Value) : Option S3Notification :=
  match v.fields ["Records"] with
  | some [some records] => do
    let records ← records.vec S3RecordEnvelope.fromValue
    some ⟨records⟩
  | _ => none

end Notification

section Key

/-- `percent_decode`: a percent sign without two hexadecimal digits after it stands for itself. -/
def percentDecode : Bytes → Bytes
  | 0x25 :: h :: l :: rest =>
    if isHex h ∧ isHex l then UInt8.ofNat (16 * hexValue h + hexValue l) :: percentDecode rest
    else 0x25 :: percentDecode (h :: l :: rest)
  | b :: rest => b :: percentDecode rest
  | [] => []

/-- `key.replace('+', " ")`. -/
def plusDecoded (key : String) : String :=
  String.ofList (key.toList.map (fun c => if c = '+' then ' ' else c))

/-- The key of an S3 notification: a plus is a space as well as the usual escapes. -/
def decodeFormUrlencodedKey (texts : LibraryTexts) (key : String) : Except String String :=
  let bytes := percentDecode (plusDecoded key).toUTF8.toList
  match utf8Decode bytes with
  | some chars => .ok (String.ofList chars)
  | none => .error (texts.utf8 bytes)

end Key

/-- Whether an event creates an object, with or without the `s3:` before its name. A record
without an event name is kept. -/
def isObjectCreated : Option String → Bool
  | none => true
  | some name =>
    "ObjectCreated:".toList.isPrefixOf (("s3:".toList.isPrefixOf? name.toList).getD name.toList)

/-- The object that a record names. -/
def S3RecordEnvelope.objectRef (texts : LibraryTexts) (r : S3RecordEnvelope) : Except String ObjectRef := do
  let key ← decodeFormUrlencodedKey texts r.s3.object.key
  pure ⟨r.s3.bucket.name, key, r.s3.object.size⟩

/-- The loop over the records. The key of a record that creates no object is not decoded. -/
def collectObjects (texts : LibraryTexts) (objects : List ObjectRef) (skipped : Bool) :
    List S3RecordEnvelope → Except String (List ObjectRef × Bool)
  | [] => .ok (objects, skipped)
  | r :: rest =>
    if isObjectCreated r.eventName then do
      let object ← r.objectRef texts
      collectObjects texts (objects ++ [object]) skipped rest
    else collectObjects texts objects true rest

/-- The test event that S3 sends when a notification is set up. -/
def isTestEvent : Value → Bool
  | .object entries => (Value.get entries "Event").bind Value.text = some "s3:TestEvent"
  | _ => false

/-- The objects of a notification and whether a record was skipped. An error carries the message
of `DecodeError::InvalidPayload`. -/
def parseS3Notification (texts : LibraryTexts) (float : FloatParser) (payload : Bytes) :
    Except String (List ObjectRef × Bool) :=
  match Value.fromSlice float payload with
  | none => .error (texts.value payload)
  | some value =>
    if isTestEvent value then .ok ([], false)
    else
      match S3Notification.fromValue value with
      | none => .error (texts.notification value)
      | some notification => collectObjects texts [] false notification.records

/-- The only item of a notification, if it has objects. -/
def asSourceItem (objects : List ObjectRef) : Option SourceItem :=
  if objects = [] then none else some (.new none objects)

def S3EventDecoder.decode (texts : LibraryTexts) (float : FloatParser) (payload : Bytes) :
    Except String (List SourceItem) := do
  let (objects, _) ← parseS3Notification texts float payload
  pure (asSourceItem objects).toList

section Spec
variable (texts : LibraryTexts) (float : FloatParser)

/-- The records of a notification that create an object. -/
def S3Notification.created (notification : S3Notification) : List S3RecordEnvelope :=
  notification.records.filter (fun r => isObjectCreated r.eventName)

/-- The loop collects the objects of the records that create one and tells whether another
record was there. -/
lemma collectObjects_eq (objects : List ObjectRef) (skipped : Bool) (records : List S3RecordEnvelope) :
    collectObjects texts objects skipped records = (do
      let created ← (records.filter (fun r => isObjectCreated r.eventName)).mapM
        (S3RecordEnvelope.objectRef texts)
      .ok (objects ++ created, skipped || records.any (fun r => !isObjectCreated r.eventName))) := by
  induction records generalizing objects skipped with
  | nil =>
    rw [collectObjects, List.filter_nil, List.mapM_nil]
    change _ = Except.ok (objects ++ [], skipped || false)
    rw [List.append_nil, Bool.or_false]
  | cons r rest ih =>
    by_cases hr : isObjectCreated r.eventName = true
    · simp only [collectObjects, hr, if_true, List.filter_cons_of_pos, List.mapM_cons, bind_assoc,
        pure_bind, List.any_cons, Bool.not_true, Bool.false_or]
      cases r.objectRef texts with
      | error e => rfl
      | ok object =>
        change collectObjects texts (objects ++ [object]) skipped rest = _
        rw [ih]
        simp only [List.append_assoc, List.singleton_append]
        rfl
    · simp only [collectObjects, hr, List.any_cons]
      rw [List.filter_cons_of_neg (by simpa using hr), if_neg (by simp), ih]
      simp

/-- A payload that parses is a test event, or a notification whose keys all decode. -/
theorem parseS3Notification_ok {payload : Bytes} {objects : List ObjectRef} {skipped : Bool}
    (h : parseS3Notification texts float payload = .ok (objects, skipped)) :
    ∃ value, Value.fromSlice float payload = some value ∧
      (isTestEvent value = true ∧ objects = [] ∧ skipped = false ∨
        isTestEvent value = false ∧ ∃ notification, S3Notification.fromValue value = some notification ∧
          notification.created.mapM (S3RecordEnvelope.objectRef texts) = .ok objects ∧
          skipped = notification.records.any (fun r => !isObjectCreated r.eventName)) := by
  unfold parseS3Notification at h
  cases hvalue : Value.fromSlice float payload with
  | none => simp [hvalue] at h
  | some value =>
    refine ⟨value, rfl, ?_⟩
    simp only [hvalue] at h
    by_cases htest : isTestEvent value = true
    · left
      simp only [htest, if_true, Except.ok.injEq, Prod.mk.injEq] at h
      exact ⟨htest, h.1.symm, h.2.symm⟩
    · right
      simp only [htest] at h
      refine ⟨by simpa using htest, ?_⟩
      cases hread : S3Notification.fromValue value with
      | none => simp [hread] at h
      | some notification =>
        refine ⟨notification, rfl, ?_⟩
        simp only [hread, collectObjects_eq] at h
        simp only [Bool.false_eq_true, if_false] at h
        obtain ⟨created, hcreated, h⟩ := bind_ok_iff.mp h
        simp only [List.nil_append, Bool.false_or, Except.ok.injEq, Prod.mk.injEq] at h
        obtain ⟨rfl, rfl⟩ := h
        exact ⟨hcreated, rfl⟩

end Spec

end CloudTrailFilter.Decode
