import CloudTrailFilter.Decode.Sns
import CloudTrailFilter.Decode.Sqs
import CloudTrailFilter.Lib.Split

/-!
# Trigger topologies

A notification reaches the filter directly, through SNS, through SQS, or through SNS and then SQS.
The objects that are seen do not depend on the route.
-/

namespace CloudTrailFilter.Decode
open Json Fallible

section Notified

/-- The events that create an object, with or without the `s3:` before their name. -/
def namesCreation (name : String) : Bool :=
  "ObjectCreated:".toList.isPrefixOf name.toList || "s3:ObjectCreated:".toList.isPrefixOf name.toList

/-- A record of a notification creates an object if its `eventName` is absent, null or the name of
such an event. -/
def createsObject (record : Value) : Bool :=
  match record.fields ["eventName", "s3"] with
  | some [none, _] => true
  | some [some .null, _] => true
  | some [some (.string name), _] => namesCreation name
  | _ => false

/-- The object of a record, with its key decoded. -/
def Names (texts : LibraryTexts) (record : Value) (object : ObjectRef) : Prop :=
  ∃ r, S3RecordEnvelope.fromValue record = some r ∧ object.bucket = r.s3.bucket.name ∧
    decodeFormUrlencodedKey texts r.s3.object.key = .ok object.key ∧ object.size = r.s3.object.size

/-- What a text notifies of: a test event of nothing, another notification of the objects its
records create. All of its records must read. -/
def Notifies (texts : LibraryTexts) (float : FloatParser) (text : Bytes) (objects : List ObjectRef) : Prop :=
  ∃ value, Value.fromSlice float text = some value ∧
    (isTestEvent value = true ∧ objects = [] ∨
      isTestEvent value = false ∧ ∃ records, value.fields ["Records"] = some [some (.array records)] ∧
        (∀ record ∈ records, (S3RecordEnvelope.fromValue record).isSome) ∧
        List.Forall₂ (Names texts) (records.filter createsObject) objects)

variable {texts : LibraryTexts} {float : FloatParser}

lemma isObjectCreated_some (name : String) : isObjectCreated (some name) = namesCreation name := by
  have hlong : "s3:ObjectCreated:".toList = "s3:".toList ++ "ObjectCreated:".toList := by decide
  have hne : ∀ cs, ¬ "ObjectCreated:".toList <+: "s3:".toList ++ cs := fun cs h => by
    have hhead := (List.cons_prefix_cons.mp (show 'O' :: _ <+: 's' :: _ from h)).1
    simp at hhead
  rw [Bool.eq_iff_iff]
  simp only [isObjectCreated, namesCreation, Bool.or_eq_true, List.isPrefixOf_iff_prefix, hlong]
  by_cases hs3 : "s3:".toList <+: name.toList
  · obtain ⟨cs, hcs⟩ := hs3
    rw [← hcs, Split.isPrefixOf?_append, Option.getD_some, List.prefix_append_right_inj]
    exact ⟨.inr, fun h => h.resolve_left (hne cs)⟩
  · rw [Split.isPrefixOf?_eq_none hs3, Option.getD_none]
    exact ⟨.inl, fun h => h.resolve_right (fun hpre => hs3 ((List.prefix_append _ _).trans hpre))⟩

lemma createsObject_eq {record : Value} {r : S3RecordEnvelope} (h : S3RecordEnvelope.fromValue record = some r) :
    createsObject record = isObjectCreated r.eventName := by
  unfold S3RecordEnvelope.fromValue at h
  unfold createsObject
  split at h
  · rename_i eventName s3 hfields
    simp only [Option.bind_eq_bind, Option.bind_eq_some_iff, Option.some.injEq] at h
    obtain ⟨name, hname, detail, -, rfl⟩ := h
    rw [hfields]
    rcases eventName with _ | v
    · cases hname
      rfl
    cases v with
    | null =>
      cases hname
      rfl
    | string text =>
      cases hname
      exact (isObjectCreated_some text).symm
    | bool b => simp [Value.optText, Value.text] at hname
    | number n => simp [Value.optText, Value.text] at hname
    | array items => simp [Value.optText, Value.text] at hname
    | object entries => simp [Value.optText, Value.text] at hname
  · simp at h

lemma objectRef_ok_iff {r : S3RecordEnvelope} {object : ObjectRef} :
    r.objectRef texts = .ok object ↔ object.bucket = r.s3.bucket.name ∧
      decodeFormUrlencodedKey texts r.s3.object.key = .ok object.key ∧ object.size = r.s3.object.size := by
  unfold S3RecordEnvelope.objectRef
  rw [bind_ok_iff]
  constructor
  · rintro ⟨key, hkey, hobject⟩
    cases hobject
    exact ⟨rfl, hkey, rfl⟩
  · rintro ⟨hbucket, hkey, hsize⟩
    refine ⟨object.key, hkey, congrArg Except.ok ?_⟩
    rw [← hbucket, ← hsize]

/-- The objects of the records that are kept, read record by record. -/
lemma names_created {items : List Value} {records : List S3RecordEnvelope}
    (hread : List.Forall₂ (fun item r => S3RecordEnvelope.fromValue item = some r) items records)
    (objects : List ObjectRef) :
    List.Forall₂ (Names texts) (items.filter createsObject) objects ↔
      List.Forall₂ (fun r object => r.objectRef texts = .ok object)
        (records.filter (fun r => isObjectCreated r.eventName)) objects := by
  induction hread generalizing objects with
  | nil => simp
  | @cons item r items records hitem hread ih =>
    rw [List.filter_cons, List.filter_cons, createsObject_eq hitem]
    split_ifs
    · have hnames : ∀ object, Names texts item object ↔ r.objectRef texts = .ok object := by
        intro object
        rw [objectRef_ok_iff, Names, hitem]
        simp
      simp only [List.forall₂_cons_left_iff, hnames, ih]
    · exact ih objects

lemma notification_fromValue {value : Value} {notification : S3Notification} :
    S3Notification.fromValue value = some notification ↔
      ∃ items, value.fields ["Records"] = some [some (.array items)] ∧
        List.Forall₂ (fun item r => S3RecordEnvelope.fromValue item = some r) items notification.records := by
  unfold S3Notification.fromValue
  constructor
  · intro h
    split at h
    · rename_i records hfields
      simp only [Option.bind_eq_bind, Option.bind_eq_some_iff, Option.some.injEq] at h
      obtain ⟨rs, hvec, rfl⟩ := h
      cases records with
      | array items => exact ⟨items, hfields, mapM_some_iff.mp hvec⟩
      | null | bool | number | string | object => simp [Value.vec] at hvec
    · simp at h
  · rintro ⟨items, hfields, hread⟩
    have hvec : (Value.array items).vec S3RecordEnvelope.fromValue = some notification.records :=
      mapM_some_iff.mpr hread
    simp [hfields, hvec]

/-- The objects that the decoders share are those a text notifies of. -/
theorem notifies_iff {text : Bytes} {objects : List ObjectRef} :
    Notifies texts float text objects ↔ ∃ skipped, parseS3Notification texts float text = .ok (objects, skipped) := by
  constructor
  · rintro ⟨value, hvalue, ⟨htest, rfl⟩ | ⟨htest, items, hfields, hread, hnames⟩⟩
    · exact ⟨false, by simp [parseS3Notification, hvalue, htest]⟩
    · obtain ⟨records, hrecords⟩ := Option.isSome_iff_exists.mp (mapM_isSome_iff.mpr hread)
      have hforall := mapM_some_iff.mp hrecords
      have hnotification := notification_fromValue.mpr ⟨items, hfields, hforall⟩
      have hobjects := mapM_ok_iff.mpr ((names_created hforall objects).mp hnames)
      simp [parseS3Notification, hvalue, htest, hnotification, collectObjects_eq, hobjects]
  · rintro ⟨skipped, h⟩
    obtain ⟨value, hvalue, ⟨htest, rfl, -⟩ | ⟨htest, notification, hread, hobjects, -⟩⟩ :=
      parseS3Notification_ok texts float h
    · exact ⟨value, hvalue, .inl ⟨htest, rfl⟩⟩
    · obtain ⟨items, hfields, hforall⟩ := notification_fromValue.mp hread
      have hsome : (items.mapM S3RecordEnvelope.fromValue).isSome := by rw [mapM_some_iff.mpr hforall]; rfl
      have hnames := (names_created hforall objects).mpr (mapM_ok_iff.mp hobjects)
      exact ⟨value, hvalue, .inr ⟨htest, items, hfields, mapM_isSome_iff.mp hsome, hnames⟩⟩

end Notified

section Routes
variable {texts : LibraryTexts} {float : FloatParser}

/-- The objects of a list of items, in order. -/
def seen (items : List SourceItem) : List ObjectRef := items.flatMap SourceItem.objects

/-- An SNS event with this text as its only message. -/
def WrapsInSnsEvent (payload : Bytes) (text : String) : Prop :=
  SnsNotification.fromSlice payload = some ⟨[⟨⟨text⟩⟩]⟩

/-- An SNS `Notification`, as SQS carries it, with this text as its message. -/
def WrapsInSnsNotification (envelope text : String) : Prop :=
  looksLikeSnsNotification envelope.toUTF8.toList = true ∧
    (scanDocument envelope.toUTF8.toList).toOption.bind snsMessage = some text

instance (payload : Bytes) (text : String) : Decidable (WrapsInSnsEvent payload text) :=
  inferInstanceAs (Decidable (_ = _))

instance (envelope text : String) : Decidable (WrapsInSnsNotification envelope text) :=
  inferInstanceAs (Decidable (_ ∧ _))

/-- A message that carries a text in a format that it can have: bare, or in an SNS envelope. -/
def Carries (format : SqsBodyFormat) (carrier text : String) : Prop :=
  carrier = text ∧ (format = .auto ∨ format = .s3) ∨
    WrapsInSnsNotification carrier text ∧ (format = .auto ∨ format = .sns)

lemma seen_asSourceItem (objects : List ObjectRef) : seen (asSourceItem objects).toList = objects := by
  unfold asSourceItem
  split_ifs with hnil
  · exact hnil.symm
  · simp [seen, SourceItem.new]

variable (texts float) in
/-- A message that carries a text decodes as that text does. -/
lemma decodeBody_of_carries {format : SqsBodyFormat} {carrier text : String} (h : Carries format carrier text)
    (hplain : looksLikeSnsNotification text.toUTF8.toList = false) :
    decodeBody texts float format carrier = parseS3Notification texts float text.toUTF8.toList := by
  have hunwrap : WrapsInSnsNotification carrier text →
      unwrapSns texts carrier.toUTF8.toList = .ok text.toUTF8.toList := by
    rintro ⟨-, hmessage⟩
    simp only [unwrapSns, hmessage]
  have hpayload : s3Payload texts format carrier.toUTF8.toList = .ok text.toUTF8.toList := by
    rcases h with ⟨rfl, rfl | rfl⟩ | ⟨hwraps, rfl | rfl⟩
    · simp only [s3Payload, hplain, Bool.false_eq_true, if_false]
    · simp only [s3Payload, hplain, Bool.false_eq_true, if_false]
    · simp only [s3Payload, hwraps.1, if_true, hunwrap hwraps]
    · simp only [s3Payload, hunwrap hwraps]
  rw [decodeBody, hpayload, ok_bind]

variable (texts float) in
/-- An SNS event with one message decodes as a bare notification. -/
lemma decode_of_wraps {payload : Bytes} {text : String} (h : WrapsInSnsEvent payload text) (eventText : Bytes → String) :
    SnsEventDecoder.decode texts float eventText payload = S3EventDecoder.decode texts float text.toUTF8.toList := by
  unfold SnsEventDecoder.decode
  rw [show SnsNotification.fromSlice payload = some ⟨[⟨⟨text⟩⟩]⟩ from h]
  simp only [collectItems_eq, List.mapM_cons, List.mapM_nil]
  cases S3EventDecoder.decode texts float text.toUTF8.toList with
  | error e => rfl
  | ok items =>
    change Except.ok ([] ++ [items].flatten) = _
    simp

variable (texts float) in
/-- A batch yields message by message what each of them yields alone. -/
lemma decode_batch (format : SqsBodyFormat) {payload : Bytes} {records : List SqsRecord}
    (h : SqsEvent.fromSlice payload = some ⟨records⟩) :
    SqsEventDecoder.decode texts float format payload =
      .ok (records.flatMap (fun record => (record.item texts float format).toList)) := by
  have hitems : ∀ rs : List SqsRecord, rs.filterMap (SqsRecord.item texts float format) =
      rs.flatMap (fun record => (record.item texts float format).toList) := by
    intro rs
    induction rs with
    | nil => rfl
    | cons record rest ih =>
      rw [List.filterMap_cons, List.flatMap_cons, ← ih]
      cases record.item texts float format <;> rfl
  simp only [SqsEventDecoder.decode, h, hitems]

/-- Whatever route a notification takes, the decoders see the objects that it notifies of; one that
does not decode fails the event, and in a batch only its message. -/
theorem topology_preserves_objects (eventText : Bytes → String) (text : String)
    (hplain : looksLikeSnsNotification text.toUTF8.toList = false)
    (snsPayload : Bytes) (hsns : WrapsInSnsEvent snsPayload text)
    (format : SqsBodyFormat) (carrier : String) (hcarries : Carries format carrier text)
    (before after : List SqsRecord) (messageId : String) (sqsPayload : Bytes)
    (hsqs : SqsEvent.fromSlice sqsPayload = some ⟨before ++ ⟨messageId, carrier⟩ :: after⟩) :
    ∃ alone : SqsRecord → List SourceItem,
      (∀ record payload, SqsEvent.fromSlice payload = some ⟨[record]⟩ →
        SqsEventDecoder.decode texts float format payload = .ok (alone record)) ∧
      (∀ objects, Notifies texts float text.toUTF8.toList objects →
        (∃ items, S3EventDecoder.decode texts float text.toUTF8.toList = .ok items ∧ seen items = objects) ∧
        (∃ items, SnsEventDecoder.decode texts float eventText snsPayload = .ok items ∧ seen items = objects) ∧
        ∃ items, SqsEventDecoder.decode texts float format sqsPayload =
            .ok (before.flatMap alone ++ items ++ after.flatMap alone) ∧ seen items = objects ∧
          ∀ item ∈ items, item.ackId = some messageId ∧ item.decodeError = none) ∧
      ((∀ objects, ¬ Notifies texts float text.toUTF8.toList objects) →
        (∃ e, S3EventDecoder.decode texts float text.toUTF8.toList = .error e) ∧
        (∃ e, SnsEventDecoder.decode texts float eventText snsPayload = .error e) ∧
        ∃ message, SqsEventDecoder.decode texts float format sqsPayload =
          .ok (before.flatMap alone ++ [.undecodable (some messageId) message] ++ after.flatMap alone)) := by
  have hdecode := decode_of_wraps texts float hsns eventText
  have hbody := decodeBody_of_carries texts float hcarries hplain
  have hbatch := decode_batch texts float format hsqs
  rw [List.flatMap_append, List.flatMap_cons, ← List.append_assoc] at hbatch
  refine ⟨fun record => (record.item texts float format).toList, ?_, ?_, ?_⟩
  · intro record payload hrecord
    rw [decode_batch texts float format hrecord, List.flatMap_singleton]
  · intro objects hnotifies
    obtain ⟨skipped, hparse⟩ := notifies_iff.mp hnotifies
    have hs3 : S3EventDecoder.decode texts float text.toUTF8.toList = .ok (asSourceItem objects).toList := by
      rw [S3EventDecoder.decode, hparse]
      rfl
    refine ⟨⟨_, hs3, seen_asSourceItem objects⟩, ⟨_, hdecode.trans hs3, seen_asSourceItem objects⟩, _, hbatch, ?_⟩
    simp only [SqsRecord.item, hbody, hparse]
    split_ifs with hnone
    · exact ⟨hnone.1.symm, by simp⟩
    · simp [seen, SourceItem.new]
  · intro hnone
    cases hparse : parseS3Notification texts float text.toUTF8.toList with
    | ok r => exact (hnone r.1 (notifies_iff.mpr ⟨r.2, hparse⟩)).elim
    | error e =>
      have hs3 : S3EventDecoder.decode texts float text.toUTF8.toList = .error e := by
        rw [S3EventDecoder.decode, hparse]
        rfl
      refine ⟨⟨e, hs3⟩, ⟨e, hdecode.trans hs3⟩, displayInvalidPayload e, ?_⟩
      simp only [hbatch, SqsRecord.item, hbody, hparse, Option.toList_some]

/-- A text as a JSON string. -/
def quoted (text : String) : Bytes :=
  quote :: text.toUTF8.toList.flatMap (fun b => if b = quote ∨ b = backslash then [backslash, b] else [b]) ++ [quote]

def sampleNotification : String :=
  "\x7b\"Records\":[\x7b\"s3\":\x7b\"bucket\":\x7b\"name\":\"t\"\x7d,\"object\":\x7b\"key\":\"a+b\"\x7d\x7d\x7d]\x7d"

/-- The notification as SNS sends it to SQS. -/
def sampleEnvelope : String :=
  "\x7b\"Type\":\"Notification\",\"Message\":\"" ++
    String.ofList (sampleNotification.toList.flatMap (fun c => if c = '"' then ['\\', c] else [c])) ++ "\"\x7d"

def sampleSnsPayload : Bytes :=
  "\x7b\"Records\":[\x7b\"Sns\":\x7b\"Message\":".toUTF8.toList ++ quoted sampleNotification ++
    [closeBrace, closeBrace, closeBracket, closeBrace]

/-- The envelope after a message that does not decode. -/
def sampleSqsPayload : Bytes :=
  "\x7b\"Records\":[\x7b\"messageId\":\"m1\",\"body\":\"oops\"\x7d,".toUTF8.toList ++
    "\x7b\"messageId\":\"m2\",\"body\":".toUTF8.toList ++ quoted sampleEnvelope ++ [closeBrace, closeBracket, closeBrace]

def sampleErrors : LibraryTexts :=
  ⟨fun _ => "not a JSON text", fun _ => "not a notification", fun _ => "not an event", fun _ => "not an envelope",
    fun _ => "not UTF-8"⟩

theorem topology_preserves_objects_sample :
    (∃ items, S3EventDecoder.decode sampleErrors (fun _ => none) sampleNotification.toUTF8.toList = .ok items ∧
      seen items = [⟨"t", "a b", none⟩]) ∧
    (∃ items, SnsEventDecoder.decode sampleErrors (fun _ => none) (fun _ => "") sampleSnsPayload = .ok items ∧
      seen items = [⟨"t", "a b", none⟩]) ∧
    ∃ first items, SqsEventDecoder.decode sampleErrors (fun _ => none) .auto sampleSqsPayload = .ok (first ++ items) ∧
      seen items = [⟨"t", "a b", none⟩] := by
  have hcarries : Carries .auto sampleEnvelope sampleNotification :=
    .inr ⟨by decide +kernel, .inl rfl⟩
  obtain ⟨alone, -, hseen, -⟩ := @topology_preserves_objects sampleErrors (fun _ => none) (fun _ => "")
    sampleNotification (by decide +kernel) sampleSnsPayload (by decide +kernel) .auto sampleEnvelope hcarries
    [⟨"m1", "oops"⟩] [] "m2" sampleSqsPayload (by decide +kernel)
  obtain ⟨hs3, hsns, items, hsqs, hitems, -⟩ :=
    hseen [⟨"t", "a b", none⟩] (notifies_iff.mpr ⟨false, by decide +kernel⟩)
  rw [List.flatMap_nil, List.append_nil] at hsqs
  exact ⟨hs3, hsns, [⟨"m1", "oops"⟩].flatMap alone, items, hsqs, hitems⟩

end Routes

end CloudTrailFilter.Decode
