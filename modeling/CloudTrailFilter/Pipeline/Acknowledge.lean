import CloudTrailFilter.Decode.Sqs
import CloudTrailFilter.Pipeline.Outcome

/-!
# Which messages a batch acknowledges

A message is acknowledged if the outcome of its batch does not list it. From the decoder through
the three passes, its records are followed to the objects queued for it and to their results.
-/

namespace CloudTrailFilter.Pipeline
open CloudTrailFilter.Json CloudTrailFilter.Filter CloudTrailFilter.Process CloudTrailFilter.Decode

section Items
variable (gz : Gzip) (float : FloatParser) (settings : Settings) (engine : Option Engine)
  (attempts : ℕ → Attempt) (items : List SourceItem)

/-- The queued objects of one message, with their places in the queue. -/
def messageTasks (id : String) : List (Work × ℕ) :=
  (tasks settings items).filter (fun t => (items[t.1.itemIdx]?).bind SourceItem.ackId = some id)

/-- The failures of an item: that it does not decode, or those of its queued objects. -/
lemma mem_batchNotes {i : ℕ} {item : SourceItem} {e : CoreError} :
    (i, item, e) ∈ batchNotes gz float settings engine attempts items ↔ items[i]? = some item ∧
      ((∃ message, item.decodeError = some message ∧ e = .decode message) ∨
        ∃ t ∈ tasks settings items, t.1.itemIdx = i ∧
          (runWork gz float settings engine attempts t).result = .error e) := by
  unfold batchNotes
  rw [List.mem_append]
  constructor
  · rintro (h | h)
    · obtain ⟨n, message, hn, hget, hmessage, he⟩ := mem_decodeNotes.mp h
      rw [zero_add] at hn
      subst hn
      exact ⟨hget, .inl ⟨message, hmessage, he⟩⟩
    · obtain ⟨t, ht, hnote⟩ := List.mem_flatMap.mp h
      obtain ⟨hi, hget, herr⟩ := (mem_noteOf items).mp hnote
      subst hi
      exact ⟨hget, .inr ⟨t, ht, rfl, herr⟩⟩
  · rintro ⟨hget, ⟨message, hmessage, he⟩ | ⟨t, ht, hi, herr⟩⟩
    · exact .inl (mem_decodeNotes.mpr ⟨i, message, (zero_add i).symm, hget, hmessage, he⟩)
    · subst hi
      exact .inr (List.mem_flatMap.mpr ⟨t, ht, (mem_noteOf items).mpr ⟨rfl, hget, herr⟩⟩)

lemma mem_isolatedAckIds {id : String} : id ∈ isolatedAckIds gz float settings engine attempts items ↔
    ∃ i item e, item.ackId = some id ∧ isolated settings item = true ∧
      (i, item, e) ∈ batchNotes gz float settings engine attempts items := by
  unfold isolatedAckIds
  constructor
  · intro h
    obtain ⟨⟨item, i⟩, hmem, hid⟩ := List.mem_filterMap.mp h
    obtain ⟨hzip, hany⟩ := List.mem_filter.mp hmem
    obtain ⟨⟨j, noted, e⟩, hnote, hmatch⟩ := List.any_eq_true.mp hany
    simp only [Bool.and_eq_true, beq_iff_eq] at hmatch
    obtain ⟨rfl, hisolated⟩ := hmatch
    have hget : items[j]? = some item := List.mk_mem_zipIdx_iff_getElem?.mp hzip
    have hnoted := ((mem_batchNotes gz float settings engine attempts items).mp hnote).1
    rw [hget, Option.some.injEq] at hnoted
    subst hnoted
    exact ⟨j, item, e, hid, hisolated, hnote⟩
  · rintro ⟨i, item, e, hid, hisolated, hnote⟩
    have hget := ((mem_batchNotes gz float settings engine attempts items).mp hnote).1
    refine List.mem_filterMap.mpr ⟨(item, i), List.mem_filter.mpr ⟨?_, ?_⟩, hid⟩
    · exact List.mk_mem_zipIdx_iff_getElem?.mpr hget
    · exact List.any_eq_true.mpr ⟨(i, item, e), hnote, by simp [hisolated]⟩

/-- The messages are reported in the order of their items. -/
lemma isolatedAckIds_sublist : (isolatedAckIds gz float settings engine attempts items).Sublist
    (items.filterMap SourceItem.ackId) := by
  have hall : items.zipIdx.filterMap (fun p => p.1.ackId) = items.filterMap SourceItem.ackId := by
    have hfst := List.zipIdx_map_fst 0 items
    calc items.zipIdx.filterMap (fun p => p.1.ackId)
        = (items.zipIdx.map Prod.fst).filterMap SourceItem.ackId := by rw [List.filterMap_map]; rfl
      _ = items.filterMap SourceItem.ackId := by rw [hfst]
  rw [← hall]
  exact List.Sublist.filterMap _ List.filter_sublist

variable {gz float settings engine attempts items} in
/-- A batch that is handled is completed and reports the messages whose failures were isolated. -/
lemma Handles.completed_of_ok {x : ObjectM BatchOutcome} {outcome : BatchOutcome}
    (h : Handles gz float settings engine (.ok items) attempts x) (hok : x.result = .ok outcome) :
    Completed gz float settings engine attempts items x ∧
      outcome.failedAckIds = isolatedAckIds gz float settings engine attempts items := by
  have hcompleted : Completed gz float settings engine attempts items x := by
    rcases handles_cases gz float settings engine attempts h with ⟨_, hbad, -⟩ | ⟨_, _, -, -, hx⟩ |
      ⟨_, -, -, -, _, hx⟩ | ⟨items', hitems, -, -, hcompleted⟩
    · simp at hbad
    · simp [hx] at hok
    · simp [hx] at hok
    · cases hitems
      exact hcompleted
  refine ⟨hcompleted, ?_⟩
  rcases hcompleted.result_cases with ⟨e, _, _, herror, -⟩ | ⟨houtcome, -⟩
  · simp [hok] at herror
  · rw [hok, Except.ok.injEq] at houtcome
    rw [houtcome]

variable {gz float settings engine attempts items} in
/-- An item that is not reported decoded, and all its queued objects were processed. -/
lemma Completed.item_done {x : ObjectM BatchOutcome} {outcome : BatchOutcome}
    (h : Completed gz float settings engine attempts items x) (hok : x.result = .ok outcome) {i : ℕ}
    {item : SourceItem} {id : String} (hget : items[i]? = some item) (hid : item.ackId = some id)
    (hacked : id ∉ outcome.failedAckIds) :
    item.decodeError = none ∧ ∀ t ∈ tasks settings items, t.1.itemIdx = i →
      (runWork gz float settings engine attempts t).result = .ok () := by
  rcases h.result_cases with ⟨e, _, _, herror, -⟩ | ⟨houtcome, hsoft⟩
  · simp [hok] at herror
  rw [hok, Except.ok.injEq] at houtcome
  rw [houtcome] at hacked
  -- an isolated failure reports the item, any other fails the batch
  have hquiet : ∀ e, (i, item, e) ∉ batchNotes gz float settings engine attempts items := by
    intro e hnote
    by_cases hisolated : isolated settings item = true
    · exact hacked ((mem_isolatedAckIds gz float settings engine attempts items).mpr
        ⟨i, item, e, hid, hisolated, hnote⟩)
    · have hheld : isolated settings item = false := by simpa using hisolated
      obtain ⟨-, ⟨message, hmessage, rfl⟩ | ⟨⟨w, k⟩, ht, rfl, herr⟩⟩ :=
        (mem_batchNotes gz float settings engine attempts items).mp hnote
      · exact hsoft _ _ _ (.decode hget hmessage hheld)
      · exact hsoft _ _ _ (.object (List.mk_mem_zipIdx_iff_getElem?.mp ht) hget hheld herr)
  constructor
  · cases hdecode : item.decodeError with
    | none => rfl
    | some message =>
      exact (hquiet _ ((mem_batchNotes gz float settings engine attempts items).mpr
        ⟨hget, .inl ⟨message, hdecode, rfl⟩⟩)).elim
  · intro t ht hidx
    cases hrun : (runWork gz float settings engine attempts t).result with
    | ok _ => rfl
    | error e =>
      exact (hquiet e ((mem_batchNotes gz float settings engine attempts items).mpr
        ⟨hget, .inr ⟨t, ht, hidx, hrun⟩⟩)).elim

lemma queuedOf_itemIdx {itemIdx : ℕ} {item : SourceItem} {w : Work} (h : w ∈ queuedOf settings itemIdx item) :
    w.itemIdx = itemIdx := by
  unfold queuedOf at h
  split_ifs at h
  · simp at h
  · obtain ⟨object, -, rfl⟩ := List.mem_map.mp h
    rfl

/-- The queue holds the objects of an item under its index. -/
lemma queuedFrom_filter (itemIdx i : ℕ) {item : SourceItem} (hget : items[i]? = some item) :
    (queuedFrom settings itemIdx items).filter (fun w => w.itemIdx = itemIdx + i) =
      queuedOf settings (itemIdx + i) item := by
  induction items generalizing itemIdx i with
  | nil => simp at hget
  | cons first rest ih =>
    rw [queuedFrom, List.filter_append]
    cases i with
    | zero =>
      obtain rfl : first = item := by simpa using hget
      have hfirst : (queuedOf settings itemIdx first).filter (fun w => w.itemIdx = itemIdx + 0) =
          queuedOf settings itemIdx first := by
        apply List.filter_eq_self.mpr
        intro w hw
        simp [queuedOf_itemIdx settings hw]
      have hrest : (queuedFrom settings (itemIdx + 1) rest).filter (fun w => w.itemIdx = itemIdx + 0) = [] := by
        apply List.filter_eq_nil_iff.mpr
        intro w hw
        obtain ⟨i, _, hi, -⟩ := queuedFrom_itemIdx settings hw
        simp only [decide_eq_true_eq]
        omega
      rw [hfirst, hrest, List.append_nil, add_zero]
    | succ i =>
      have hfirst : (queuedOf settings itemIdx first).filter (fun w => w.itemIdx = itemIdx + (i + 1)) = [] := by
        apply List.filter_eq_nil_iff.mpr
        intro w hw
        simp [queuedOf_itemIdx settings hw]
      have hidx : itemIdx + (i + 1) = itemIdx + 1 + i := by omega
      rw [hfirst, List.nil_append, hidx]
      exact ih (itemIdx + 1) i (by simpa using hget)

/-- Distinct messages have distinct items. -/
lemma ackId_eq_iff (hdistinct : (items.map SourceItem.ackId).Nodup) {i : ℕ} {item : SourceItem}
    {id : String} (hget : items[i]? = some item) (hid : item.ackId = some id) (j : ℕ) :
    (items[j]?).bind SourceItem.ackId = some id ↔ j = i := by
  constructor
  · intro h
    obtain ⟨other, hother, hackId⟩ := Option.bind_eq_some_iff.mp h
    obtain ⟨hj, -⟩ := List.getElem?_eq_some_iff.mp hother
    have hsame : (items.map SourceItem.ackId)[j]? = (items.map SourceItem.ackId)[i]? := by
      simp [hother, hget, hackId, hid]
    exact (List.getElem?_inj (by simpa using hj) hdistinct).mp hsame
  · rintro rfl
    simp [hget, hid]

/-- With distinct messages the objects queued for a message are those of its item. -/
lemma messageTasks_eq (hdistinct : (items.map SourceItem.ackId).Nodup) {i : ℕ} {item : SourceItem}
    {id : String} (hget : items[i]? = some item) (hid : item.ackId = some id) :
    (messageTasks settings items id).map Prod.fst = queuedOf settings i item := by
  have hpred : messageTasks settings items id =
      (tasks settings items).filter (fun t => t.1.itemIdx = i) := by
    unfold messageTasks
    congr 1
    funext t
    simp only [ackId_eq_iff items hdistinct hget hid]
  have hqueue := queuedFrom_filter settings items 0 i hget
  rw [zero_add] at hqueue
  rw [hpred, ← hqueue, tasks]
  conv_rhs => rw [← List.zipIdx_map_fst 0 (queuedFrom settings 0 items), List.filter_map]
  rfl

end Items

section Messages
variable (texts : LibraryTexts) (gz : Gzip) (float : FloatParser) (settings : Settings)
  (engine : Option Engine) (attempts : ℕ → Attempt) (format : SqsBodyFormat)

/-- Nothing of a notification is left to do for its message. Each record that creates an object
names one; those that pass the key filter are queued for the message, in the order of the records,
and each of them was processed. -/
def NotificationDone (items : List SourceItem) (id : String) (notification : S3Notification) : Prop :=
  ∃ objects, notification.created.mapM (S3RecordEnvelope.objectRef texts) = .ok objects ∧
    (messageTasks settings items id).map (fun t => t.1.object) =
      objects.filter (fun object => settings.keyFilter.allows object.key) ∧
    ∀ t ∈ messageTasks settings items id, (runWork gz float settings engine attempts t).result = .ok ()

/-- The items of the messages of an event. -/
def messageItems (event : SqsEvent) : List SourceItem :=
  event.records.filterMap (SqsRecord.item texts float format)

variable {texts gz float settings engine attempts format}

variable (texts float format) in
lemma messageItems_nodup {event : SqsEvent} (hdistinct : (event.records.map SqsRecord.messageId).Nodup) :
    ((messageItems texts float format event).map SourceItem.ackId).Nodup := by
  have hsome : (event.records.map (fun r => some r.messageId)).Nodup := by
    have hmap := hdistinct.map (Option.some_injective String)
    rwa [List.map_map] at hmap
  exact hsome.sublist (items_ackIds_sublist texts float format event.records)

/-- The messages of the items, in the order of the event. -/
lemma messageItems_ackIds_sublist (event : SqsEvent) :
    ((messageItems texts float format event).filterMap SourceItem.ackId).Sublist
      (event.records.map SqsRecord.messageId) := by
  have hids := (items_ackIds_sublist texts float format event.records).filterMap id
  rw [List.filterMap_map, List.filterMap_map] at hids
  have hsome : event.records.filterMap (id ∘ fun r => some r.messageId) =
      event.records.map SqsRecord.messageId := by
    simp [List.filterMap_eq_map']
  rw [← hsome]
  exact hids

lemma mem_messageItems {event : SqsEvent} {i : ℕ} {item : SourceItem}
    (hget : (messageItems texts float format event)[i]? = some item) :
    ∃ m ∈ event.records, m.item texts float format = some item :=
  List.mem_filterMap.mp (List.mem_of_getElem? hget)

lemma mem_messageTasks {items : List SourceItem} {id : String} {t : Work × ℕ} :
    t ∈ messageTasks settings items id ↔ t ∈ tasks settings items ∧
      ∃ item, items[t.1.itemIdx]? = some item ∧ item.ackId = some id := by
  simp [messageTasks, Option.bind_eq_some_iff]

/-- Without an item nothing is queued for a message. -/
lemma messageTasks_of_no_item {event : SqsEvent}
    (hdistinct : (event.records.map SqsRecord.messageId).Nodup) {m : SqsRecord} (hm : m ∈ event.records)
    (hitem : m.item texts float format = none) :
    messageTasks settings (messageItems texts float format event) m.messageId = [] := by
  apply List.eq_nil_iff_forall_not_mem.mpr
  intro t ht
  obtain ⟨-, item, hget, hid⟩ := mem_messageTasks.mp ht
  obtain ⟨other, hother, hread⟩ := mem_messageItems hget
  have hsame : other.messageId = m.messageId := by
    rw [SqsRecord.item_ackId hread, Option.some.injEq] at hid
    exact hid
  obtain rfl : other = m := List.inj_on_of_nodup_map hdistinct hother hm hsame
  simp [hitem] at hread

/-- A message that is not reported decoded, and its queue is processed. -/
lemma message_done {event : SqsEvent} {x : ObjectM BatchOutcome} {outcome : BatchOutcome}
    (hdistinct : (event.records.map SqsRecord.messageId).Nodup)
    (h : Completed gz float settings engine attempts (messageItems texts float format event) x)
    (hok : x.result = .ok outcome) {m : SqsRecord} (hm : m ∈ event.records)
    (hacked : m.messageId ∉ outcome.failedAckIds) :
    ∃ objects skipped, decodeBody texts float format m.body = .ok (objects, skipped) ∧
      (messageTasks settings (messageItems texts float format event) m.messageId).map (fun t => t.1.object) =
        objects.filter (fun object => settings.keyFilter.allows object.key) ∧
      ∀ t ∈ messageTasks settings (messageItems texts float format event) m.messageId,
        (runWork gz float settings engine attempts t).result = .ok () := by
  have hplace : ∀ item, m.item texts float format = some item →
      ∃ i : ℕ, (messageItems texts float format event)[i]? = some item := by
    intro item hitem
    exact List.mem_iff_getElem?.mp (List.mem_filterMap.mpr ⟨m, hm, hitem⟩)
  have hunique := messageItems_nodup texts float format hdistinct
  rcases m.item_cases with ⟨message, -, hitem⟩ | ⟨objects, skipped, hdecode, hitem⟩ | ⟨skipped, hdecode, hitem⟩
  · obtain ⟨i, hget⟩ := hplace _ hitem
    have hdone := h.item_done hok hget rfl hacked
    simp [SourceItem.undecodable] at hdone
  · obtain ⟨i, hget⟩ := hplace _ hitem
    refine ⟨objects, skipped, hdecode, ?_, ?_⟩
    · have hqueue := messageTasks_eq settings _ hunique hget rfl
      have hobjects := congrArg (List.map Work.object) hqueue
      rw [List.map_map] at hobjects
      refine hobjects.trans ?_
      simp [queuedOf, SourceItem.new, Function.comp_def]
    · intro t ht
      obtain ⟨htask, item, hat, hid⟩ := mem_messageTasks.mp ht
      have hidx : t.1.itemIdx = i := by
        apply (ackId_eq_iff _ hunique hget rfl t.1.itemIdx).mp
        simp [hat, hid]
      exact (h.item_done hok hget rfl hacked).2 t htask hidx
  · have hnone : messageTasks settings (messageItems texts float format event) m.messageId = [] :=
      messageTasks_of_no_item hdistinct hm hitem
    refine ⟨[], skipped, hdecode, ?_, ?_⟩
    · simp [hnone]
    · simp [hnone]

/-- A reported message did not decode, or one of its objects failed. -/
lemma message_failed {event : SqsEvent} {id : String}
    (h : id ∈ isolatedAckIds gz float settings engine attempts (messageItems texts float format event)) :
    ∃ m ∈ event.records, m.messageId = id ∧
      ((∃ message, decodeBody texts float format m.body = .error message) ∨
        ∃ t ∈ messageTasks settings (messageItems texts float format event) id, ∃ e,
          (runWork gz float settings engine attempts t).result = .error e) := by
  obtain ⟨i, item, e, hid, -, hnote⟩ := (mem_isolatedAckIds gz float settings engine attempts _).mp h
  obtain ⟨hget, hcause⟩ := (mem_batchNotes gz float settings engine attempts _).mp hnote
  obtain ⟨m, hm, hitem⟩ := mem_messageItems hget
  have hsame : m.messageId = id := by
    rw [SqsRecord.item_ackId hitem, Option.some.injEq] at hid
    exact hid
  refine ⟨m, hm, hsame, ?_⟩
  rcases hcause with ⟨message, hmessage, -⟩ | ⟨t, ht, hidx, herr⟩
  · left
    rcases m.item_cases with ⟨message', hdecode, -⟩ | ⟨objects, _, -, hnew⟩ | ⟨_, -, hnone⟩
    · exact ⟨message', hdecode⟩
    · rw [hnew, Option.some.injEq] at hitem
      simp [← hitem, SourceItem.new] at hmessage
    · simp [hnone] at hitem
  · right
    exact ⟨t, mem_messageTasks.mpr ⟨ht, item, by rw [hidx]; exact hget, hid⟩, e, herr⟩

/-- No message is acknowledged with unfinished work. If `handle` returns an outcome for an SQS
event with distinct messages, then each message that the outcome does not list decoded, and unless
it is the test event that S3 sends, every record of it that creates an object is done with: its
object is excluded by the key filter, or was queued and processed, which it also counts as when
it is missing and missing objects are skipped. A message that is listed did not decode or has an
object that failed; each is listed once, in the order of the event. -/
theorem acknowledged_messages_done {payload : Bytes} {event : SqsEvent} {x : ObjectM BatchOutcome}
    {outcome : BatchOutcome} (hevent : SqsEvent.fromSlice payload = some event)
    (hdistinct : (event.records.map SqsRecord.messageId).Nodup)
    (hhandles : Handles gz float settings engine (SqsEventDecoder.decode texts float format payload) attempts x)
    (hok : x.result = .ok outcome) :
    (∀ m ∈ event.records, m.messageId ∉ outcome.failedAckIds →
      (∃ objects skipped, decodeBody texts float format m.body = .ok (objects, skipped)) ∧
      ((m.value texts float format).any isTestEvent = false →
        ∃ notification, m.notification texts float format = some notification ∧
          NotificationDone texts gz float settings engine attempts (messageItems texts float format event)
            m.messageId notification)) ∧
    (∀ id ∈ outcome.failedAckIds, ∃ m ∈ event.records, m.messageId = id ∧
      ((∃ message, decodeBody texts float format m.body = .error message) ∨
        ∃ t ∈ messageTasks settings (messageItems texts float format event) id, ∃ e,
          (runWork gz float settings engine attempts t).result = .error e)) ∧
    outcome.failedAckIds.Nodup ∧
    outcome.failedAckIds.Sublist (event.records.map SqsRecord.messageId) := by
  have hdecoded : SqsEventDecoder.decode texts float format payload =
      .ok (messageItems texts float format event) := by
    simp [SqsEventDecoder.decode, hevent, messageItems]
  rw [hdecoded] at hhandles
  obtain ⟨hcompleted, hlisted⟩ := hhandles.completed_of_ok hok
  have hsublist : outcome.failedAckIds.Sublist (event.records.map SqsRecord.messageId) := by
    rw [hlisted]
    exact (isolatedAckIds_sublist gz float settings engine attempts _).trans (messageItems_ackIds_sublist event)
  refine ⟨?_, ?_, hdistinct.sublist hsublist, hsublist⟩
  · intro m hm hacked
    obtain ⟨objects, skipped, hdecode, hqueue, hrun⟩ := message_done hdistinct hcompleted hok hm hacked
    refine ⟨⟨objects, skipped, hdecode⟩, ?_⟩
    intro htest
    obtain ⟨value, hvalue, ⟨htrue, -⟩ | ⟨-, notification, hread, hobjects⟩⟩ :=
      SqsRecord.notification_of_decodeBody hdecode
    · simp [hvalue, htrue] at htest
    · exact ⟨notification, hread, objects, hobjects, hqueue, hrun⟩
  · intro id hid
    rw [hlisted] at hid
    exact message_failed hid

section Samples

def sampleTexts : LibraryTexts where
  value := fun _ => "expected value at line 1 column 1"
  notification := fun _ => "missing field `Records`"
  event := fun _ => "missing field `Records` at line 1 column 2"
  envelope := fun _ => "missing field `Message` at line 1 column 2"
  utf8 := fun _ => "invalid utf-8 sequence of 1 bytes from index 0"

/-- A JSON string of a text whose only characters to escape are quotes. -/
def quotedText (text : String) : Bytes :=
  quote :: text.toUTF8.toList.flatMap (fun b => if b = quote then [backslash, b] else [b]) ++ [quote]

/-- A message as it stands in an SQS event. -/
def messageText (m : SqsRecord) : Bytes :=
  "\x7b\"messageId\":".toUTF8.toList ++ quotedText m.messageId ++ ",\"body\":".toUTF8.toList ++
    quotedText m.body ++ [closeBrace]

/-- The payload of an SQS event with these messages. -/
def eventPayload (messages : List SqsRecord) : Bytes :=
  "\x7b\"Records\":[".toUTF8.toList ++ [comma].intercalate (messages.map messageText) ++ [closeBracket, closeBrace]

/-- A notification with these members before those of its only record, which names an object. -/
def notificationText (members record : String) : String :=
  "\x7b" ++ members ++ "\"Records\":[\x7b" ++ record ++
    "\"s3\":\x7b\"bucket\":\x7b\"name\":\"trail\"\x7d,\"object\":\x7b\"key\":\"a+b.gz\"\x7d\x7d\x7d]\x7d"

/-- A message with an object, and one that does not decode. -/
def sampleMessages : List SqsRecord := [⟨"m1", notificationText "" ""⟩, ⟨"m2", "oops"⟩]

/-- A test event that also has a record. -/
def testEventMessages : List SqsRecord :=
  [⟨"m1", notificationText "\"Event\":\"s3:TestEvent\"," "\"eventName\":\"ObjectCreated:Put\","⟩]

/-- An event is handled with the outcome of the run of one object after the other. -/
lemma sampleOutcome {payload : Bytes} {items : List SourceItem} {outcome : BatchOutcome}
    (hdecode : SqsEventDecoder.decode sampleTexts (fun _ => none) .auto payload = .ok items)
    (hresult : (handleSequential storedGzip (fun _ => none) sampleSettings (some passEngine) (.ok items)
      (fun _ => sampleAttempt envelopeText)).result = .ok outcome) :
    ∃ x, Handles storedGzip (fun _ => none) sampleSettings (some passEngine)
        (SqsEventDecoder.decode sampleTexts (fun _ => none) .auto payload) (fun _ => sampleAttempt envelopeText) x ∧
      x.result = .ok outcome := by
  rw [hdecode]
  obtain ⟨x, hx⟩ := exists_handles storedGzip (fun _ => none) sampleSettings (some passEngine)
    (fun _ => sampleAttempt envelopeText) (.ok items) le_rfl
  have hone : Handles storedGzip (fun _ => none) (sampleSettings.withConcurrency 1) (some passEngine)
    (.ok items) (fun _ => sampleAttempt envelopeText) x := hx
  exact ⟨x, hx, (handleSequential_eq _ _ _ _ _ hone).1.trans hresult⟩

/-- A test event is acknowledged even if it has a record: the record names an object that the key
filter lets through, and nothing is queued for it. -/
theorem test_event_records_unprocessed :
    SqsEvent.fromSlice (eventPayload testEventMessages) = some ⟨testEventMessages⟩ ∧
    (∃ x, Handles storedGzip (fun _ => none) sampleSettings (some passEngine)
      (SqsEventDecoder.decode sampleTexts (fun _ => none) .auto (eventPayload testEventMessages))
      (fun _ => sampleAttempt envelopeText) x ∧ x.result = .ok ⟨[]⟩) ∧
    testEventMessages.map (SqsRecord.notification sampleTexts (fun _ => none) .auto) =
      [some ⟨[⟨some "ObjectCreated:Put", ⟨⟨"trail"⟩, ⟨"a+b.gz", none⟩⟩⟩]⟩] ∧
    isObjectCreated (some "ObjectCreated:Put") = true ∧
    decodeFormUrlencodedKey sampleTexts "a+b.gz" = .ok "a b.gz" ∧
    sampleSettings.behavior.partialBatchFailures = true ∧
    sampleSettings.keyFilter.allows "a b.gz" = true ∧
    tasks sampleSettings (messageItems sampleTexts (fun _ => none) .auto ⟨testEventMessages⟩) = [] := by
  have hevent : SqsEvent.fromSlice (eventPayload testEventMessages) = some ⟨testEventMessages⟩ := by
    decide +kernel
  have hitems : messageItems sampleTexts (fun _ => none) .auto ⟨testEventMessages⟩ =
      [.new (some "m1") []] := by decide +kernel
  refine ⟨hevent, ?_, by decide +kernel, by decide +kernel, by decide +kernel, rfl, rfl, ?_⟩
  · apply sampleOutcome
    · simp only [SqsEventDecoder.decode, hevent]
      exact congrArg Except.ok hitems
    · decide +kernel
  · rw [hitems]
    rfl

theorem acknowledged_messages_done_sample :
    ∃ x, Handles storedGzip (fun _ => none) sampleSettings (some passEngine)
        (SqsEventDecoder.decode sampleTexts (fun _ => none) .auto (eventPayload sampleMessages))
        (fun _ => sampleAttempt envelopeText) x ∧ x.result = .ok ⟨["m2"]⟩ ∧
      ∀ m ∈ sampleMessages, m.messageId = "m1" →
        ∃ notification, m.notification sampleTexts (fun _ => none) .auto = some notification ∧
          NotificationDone sampleTexts storedGzip (fun _ => none) sampleSettings (some passEngine)
            (fun _ => sampleAttempt envelopeText)
            (messageItems sampleTexts (fun _ => none) .auto ⟨sampleMessages⟩) m.messageId notification := by
  have hevent : SqsEvent.fromSlice (eventPayload sampleMessages) = some ⟨sampleMessages⟩ := by decide +kernel
  have hitems : messageItems sampleTexts (fun _ => none) .auto ⟨sampleMessages⟩ =
      [.new (some "m1") [⟨"trail", "a b.gz", none⟩],
        .undecodable (some "m2") (displayInvalidPayload "expected value at line 1 column 1")] := by
    decide +kernel
  have htest : ∀ m ∈ sampleMessages, (m.value sampleTexts (fun _ => none) .auto).any isTestEvent = false := by
    decide +kernel
  obtain ⟨x, hx, hok⟩ : ∃ x, Handles storedGzip (fun _ => none) sampleSettings (some passEngine)
      (SqsEventDecoder.decode sampleTexts (fun _ => none) .auto (eventPayload sampleMessages))
      (fun _ => sampleAttempt envelopeText) x ∧ x.result = .ok ⟨["m2"]⟩ := by
    apply sampleOutcome
    · simp only [SqsEventDecoder.decode, hevent]
      exact congrArg Except.ok hitems
    · decide +kernel
  obtain ⟨hacked, -⟩ := acknowledged_messages_done hevent (by decide) hx hok
  refine ⟨x, hx, hok, ?_⟩
  intro m hm hid
  exact (hacked m hm (by simp [hid])).2 (htest m hm)

end Samples

end Messages

end CloudTrailFilter.Pipeline
