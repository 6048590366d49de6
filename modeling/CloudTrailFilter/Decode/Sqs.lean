import CloudTrailFilter.Decode.S3

/-!
# SQS events

An SQS event is a list of messages, each of which carries a notification in its body, bare or in
an SNS envelope. A body that does not decode becomes an item of its own that carries the failure;
a body whose records are all deletions becomes no item.
-/

namespace CloudTrailFilter.Decode
open Json Fallible

structure SqsRecord where
  messageId : String
  body : String
deriving DecidableEq, Repr

structure SqsEvent where
  records : List SqsRecord
deriving DecidableEq, Repr

inductive SqsBodyFormat where
  | s3
  | sns
  | auto
deriving DecidableEq, Repr

def SqsRecord.read (v : Lex) : Option SqsRecord :=
  match v.fields ["messageId", "body"] with
  | some [some messageId, some text] => do
    let messageId ← messageId.text
    let text ← text.text
    some ⟨messageId, text⟩
  | _ => none

def SqsEvent.read (v : Lex) : Option SqsEvent :=
  match v.fields ["Records"] with
  | some [some (.arr items)] => do
    let records ← items.mapM (fun i => SqsRecord.read i.2)
    some ⟨records⟩
  | _ => none

/-- `serde_json::from_slice::<SqsEvent>`. -/
def SqsEvent.fromSlice (payload : Bytes) : Option SqsEvent :=
  (scanDocument payload).toOption.bind SqsEvent.read

/-- The `Type` of a body that reads as a struct with that field. -/
def typeSniff (v : Lex) : Option (Option String) :=
  match v.fields ["Type"] with
  | some [type] => Lex.optText type
  | _ => none

def looksLikeSnsNotification (text : Bytes) : Bool :=
  (scanDocument text).toOption.bind typeSniff = some (some "Notification")

/-- The `Message` of an SNS envelope. -/
def snsMessage (v : Lex) : Option String :=
  match v.fields ["Message"] with
  | some [some message] => message.text
  | _ => none

section Decoder
variable (texts : LibraryTexts) (float : FloatParser)

def unwrapSns (text : Bytes) : Except String Bytes :=
  match (scanDocument text).toOption.bind snsMessage with
  | some message => .ok message.toUTF8.toList
  | none => .error (texts.envelope text)

/-- The bytes of the notification that a message carries. With the format `s3` an SNS envelope
is refused rather than unwrapped. -/
def s3Payload (format : SqsBodyFormat) (text : Bytes) : Except String Bytes :=
  match format with
  | .s3 =>
    if looksLikeSnsNotification text then
      .error ("sqs.body_format is `s3` but this message body is an SNS Notification envelope; " ++
        "set sqs.body_format to `sns` (or `auto`)")
    else .ok text
  | .sns => unwrapSns texts text
  | .auto => if looksLikeSnsNotification text then unwrapSns texts text else .ok text

def decodeBody (format : SqsBodyFormat) (text : String) : Except String (List ObjectRef × Bool) := do
  let payload ← s3Payload texts format text.toUTF8.toList
  parseS3Notification texts float payload

/-- The `Display` of `DecodeError::InvalidPayload`. -/
def displayInvalidPayload (message : String) : String := "failed to decode event payload: " ++ message

/-- The item of a message, if it has one. -/
def SqsRecord.item (format : SqsBodyFormat) (record : SqsRecord) : Option SourceItem :=
  match decodeBody texts float format record.body with
  | .ok (objects, skipped) =>
    if objects = [] ∧ skipped then none else some (.new (some record.messageId) objects)
  | .error message => some (.undecodable (some record.messageId) (displayInvalidPayload message))

/-- `SqsEventDecoder::decode`. -/
def SqsEventDecoder.decode (format : SqsBodyFormat) (payload : Bytes) : Except String (List SourceItem) :=
  match SqsEvent.fromSlice payload with
  | none => .error (texts.event payload)
  | some event => .ok (event.records.filterMap (SqsRecord.item texts float format))

variable (format : SqsBodyFormat)

/-- The parsed text of the notification that a message carries. -/
def SqsRecord.value (record : SqsRecord) : Option Value :=
  (s3Payload texts format record.body.toUTF8.toList).toOption.bind (Value.fromSlice float)

/-- The notification that a message carries, its `Event` aside. -/
def SqsRecord.notification (record : SqsRecord) : Option S3Notification :=
  (record.value texts float format).bind S3Notification.fromValue

variable {texts float format} in
/-- A message that decodes carries a test event, or a notification whose objects are the decoded
ones. -/
lemma SqsRecord.notification_of_decodeBody {record : SqsRecord} {objects : List ObjectRef} {skipped : Bool}
    (h : decodeBody texts float format record.body = .ok (objects, skipped)) :
    ∃ value, record.value texts float format = some value ∧
      (isTestEvent value = true ∧ objects = [] ∧ skipped = false ∨
        isTestEvent value = false ∧ ∃ notification, record.notification texts float format = some notification ∧
          notification.created.mapM (S3RecordEnvelope.objectRef texts) = .ok objects) := by
  obtain ⟨payload, hpayload, hparse⟩ := bind_ok_iff.mp h
  obtain ⟨value, hvalue, hcases⟩ := parseS3Notification_ok texts float hparse
  have hrecord : record.value texts float format = some value := by
    unfold SqsRecord.value
    rw [hpayload]
    exact hvalue
  refine ⟨value, hrecord, ?_⟩
  rcases hcases with htest | ⟨htest, notification, hread, hobjects, -⟩
  · exact .inl htest
  · refine .inr ⟨htest, notification, ?_, hobjects⟩
    simp [SqsRecord.notification, hrecord, hread]

variable {texts float format} in
/-- What becomes of a message: an item with its objects, an item with its failure, or nothing if
it has no object and only records that create none. -/
lemma SqsRecord.item_cases (record : SqsRecord) :
    (∃ message, decodeBody texts float format record.body = .error message ∧
      record.item texts float format =
        some (.undecodable (some record.messageId) (displayInvalidPayload message))) ∨
    (∃ objects skipped, decodeBody texts float format record.body = .ok (objects, skipped) ∧
      record.item texts float format = some (.new (some record.messageId) objects)) ∨
    ∃ skipped, decodeBody texts float format record.body = .ok ([], skipped) ∧
      record.item texts float format = none := by
  unfold SqsRecord.item
  cases hdecode : decodeBody texts float format record.body with
  | error message => exact .inl ⟨message, rfl, rfl⟩
  | ok r =>
    obtain ⟨objects, skipped⟩ := r
    by_cases hnone : objects = [] ∧ skipped = true
    · exact .inr (.inr ⟨skipped, by rw [hnone.1], by simp [hnone]⟩)
    · exact .inr (.inl ⟨objects, skipped, rfl, by simp only [hnone, if_false]⟩)

variable {texts float format} in
lemma SqsRecord.item_ackId {record : SqsRecord} {item : SourceItem}
    (h : record.item texts float format = some item) : item.ackId = some record.messageId := by
  rcases record.item_cases with ⟨_, -, hitem⟩ | ⟨_, _, -, hitem⟩ | ⟨_, -, hitem⟩
  · rw [hitem, Option.some.injEq] at h
    rw [← h]
    rfl
  · rw [hitem, Option.some.injEq] at h
    rw [← h]
    rfl
  · simp [hitem] at h

/-- The items of an event name its messages, in their order. -/
lemma items_ackIds_sublist (records : List SqsRecord) :
    ((records.filterMap (SqsRecord.item texts float format)).map SourceItem.ackId).Sublist
      (records.map (fun r => some r.messageId)) := by
  induction records with
  | nil => exact List.Sublist.slnil
  | cons record rest ih =>
    cases hitem : record.item texts float format with
    | none =>
      rw [List.filterMap_cons_none hitem, List.map_cons]
      exact ih.cons _
    | some item =>
      rw [List.filterMap_cons_some hitem, List.map_cons, List.map_cons, SqsRecord.item_ackId hitem]
      exact ih.cons_cons _

end Decoder

end CloudTrailFilter.Decode
