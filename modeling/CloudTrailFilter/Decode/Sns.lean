import CloudTrailFilter.Decode.S3

/-!
# SNS events

An SNS event is a list of records, each of which carries a notification as its message. Unlike a
message of SQS, a record that does not decode fails the event.
-/

namespace CloudTrailFilter.Decode
open Json Fallible

structure SnsMessage where
  message : String
deriving DecidableEq, Repr

structure SnsRecordEnvelope where
  sns : SnsMessage
deriving DecidableEq, Repr

structure SnsNotification where
  records : List SnsRecordEnvelope
deriving DecidableEq, Repr

def SnsMessage.read (v : Lex) : Option SnsMessage :=
  match v.fields ["Message"] with
  | some [some message] => do
    let message ← message.text
    some ⟨message⟩
  | _ => none

def SnsRecordEnvelope.read (v : Lex) : Option SnsRecordEnvelope :=
  match v.fields ["Sns"] with
  | some [some sns] => do
    let sns ← SnsMessage.read sns
    some ⟨sns⟩
  | _ => none

/-- A missing `Records` is an error. -/
def SnsNotification.read (v : Lex) : Option SnsNotification :=
  match v.fields ["Records"] with
  | some [some (.arr items)] => do
    let records ← items.mapM (fun i => SnsRecordEnvelope.read i.2)
    some ⟨records⟩
  | _ => none

/-- `serde_json::from_slice::<SnsNotification>`. -/
def SnsNotification.fromSlice (payload : Bytes) : Option SnsNotification :=
  (scanDocument payload).toOption.bind SnsNotification.read

section Decoder
variable (texts : LibraryTexts) (float : FloatParser)

/-- The loop over the records. -/
def collectItems (items : List SourceItem) : List SnsRecordEnvelope → Except String (List SourceItem)
  | [] => .ok items
  | record :: rest => do
    let (objects, _) ← parseS3Notification texts float record.sns.message.toUTF8.toList
    collectItems (items ++ (asSourceItem objects).toList) rest

/-- `SnsEventDecoder::decode`. The text of an error about the event itself is `eventText`. -/
def SnsEventDecoder.decode (eventText : Bytes → String) (payload : Bytes) : Except String (List SourceItem) :=
  match SnsNotification.fromSlice payload with
  | none => .error (eventText payload)
  | some notification => collectItems texts float [] notification.records

/-- An event of records yields what `S3EventDecoder` yields for their messages. -/
lemma collectItems_eq (items : List SourceItem) (records : List SnsRecordEnvelope) :
    collectItems texts float items records = (do
      let decoded ← records.mapM (fun record => S3EventDecoder.decode texts float record.sns.message.toUTF8.toList)
      .ok (items ++ decoded.flatten)) := by
  induction records generalizing items with
  | nil =>
    rw [collectItems, List.mapM_nil]
    change _ = Except.ok (items ++ [])
    rw [List.append_nil]
  | cons record rest ih =>
    rw [collectItems, List.mapM_cons]
    unfold S3EventDecoder.decode
    cases parseS3Notification texts float record.sns.message.toUTF8.toList with
    | error e => rfl
    | ok r =>
      simp only [ok_bind, ih, bind_assoc, pure_bind, List.flatten_cons, List.append_assoc]
      rfl

end Decoder

end CloudTrailFilter.Decode
