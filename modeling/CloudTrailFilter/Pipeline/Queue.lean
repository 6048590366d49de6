import CloudTrailFilter.Lib.Concurrency
import CloudTrailFilter.Pipeline.Acknowledge
import CloudTrailFilter.Pipeline.Redelivery

/-!
# The queue between deliveries

The SQS function behind its queue. Any number of invocations are under way at once, each with a batch
of messages that are still in the queue; a message may be in several of them. An invocation writes
its objects one after the other, may be cut off at any point, and at its end answers with the
messages that failed: the queue removes the others of the batch, and none if there is an error in
place of an answer.
-/

namespace CloudTrailFilter.Pipeline
open CloudTrailFilter.Json CloudTrailFilter.Filter CloudTrailFilter.Process CloudTrailFilter.Decode

section Response

/-- The answer of the function to its event source. -/
def batchResponse (outcome : BatchOutcome) : Value :=
  .object [("batchItemFailures",
    .array (outcome.failedAckIds.map (fun id => .object [("itemIdentifier", .string id)])))]

/-- The answer of an invocation of `handle`. -/
def respond (x : ObjectM BatchOutcome) : Except CoreError Value := x.result.map batchResponse

/-- The identifiers an answer lists. An answer without the list, or with an entry that has no
identifier, is no answer. -/
def itemIdentifiers (response : Value) : Option (List String) :=
  match response with
  | .object entries =>
    match Value.get entries "batchItemFailures" with
    | some (.array failures) => failures.mapM (fun failure =>
        match failure with
        | .object entry =>
          match Value.get entry "itemIdentifier" with
          | some (.string id) => some id
          | _ => none
        | _ => none)
    | _ => none
  | _ => none

/-- The messages of a batch that the queue removes after an answer. -/
def acknowledged (response : Except CoreError Value) (sent : List SqsRecord) : List SqsRecord :=
  match response with
  | .error _ => []
  | .ok response =>
    match itemIdentifiers response with
    | none => []
    | some failed => sent.filter (fun m => m.messageId ∉ failed)

lemma itemIdentifiers_batchResponse (outcome : BatchOutcome) :
    itemIdentifiers (batchResponse outcome) = some outcome.failedAckIds := by
  have hentry : ∀ id : String, Value.get [("itemIdentifier", Value.string id)] "itemIdentifier" = some (.string id) :=
    fun _ => rfl
  have hlist : Value.get [("batchItemFailures", Value.array (outcome.failedAckIds.map
      (fun id => .object [("itemIdentifier", .string id)])))] "batchItemFailures" =
      some (.array (outcome.failedAckIds.map (fun id => .object [("itemIdentifier", .string id)]))) := rfl
  simp only [itemIdentifiers, batchResponse, hlist]
  rw [Fallible.mapM_some_iff, List.forall₂_map_left_iff, List.forall₂_same]
  intro id _
  simp only [hentry]

/-- What an invocation acknowledges: after an outcome the messages that it does not list. -/
lemma mem_acknowledged {x : ObjectM BatchOutcome} {sent : List SqsRecord} {m : SqsRecord} :
    m ∈ acknowledged (respond x) sent ↔
      m ∈ sent ∧ ∃ outcome, x.result = .ok outcome ∧ m.messageId ∉ outcome.failedAckIds := by
  unfold respond acknowledged
  cases hresult : x.result with
  | error e => simp [Except.map]
  | ok outcome => simp [Except.map, itemIdentifiers_batchResponse]

end Response

section Queue
variable (texts : LibraryTexts) (gz : Gzip) (float : FloatParser) (settings : Settings) (engine : Option Engine)
  (format : SqsBodyFormat) (sources : Location → Option Bytes)

/-- An invocation for a batch of messages. -/
structure BatchRun where
  event : SqsEvent
  delivery : Delivery gz float settings engine sources
  decoded : delivery.decoded = .ok (messageItems texts float format event)
  distinct : (event.records.map SqsRecord.messageId).Nodup

/-- An invocation under way, with the writes it has still to make. -/
structure Flight where
  run : BatchRun texts gz float settings engine format sources
  left : List (Location × Bytes)

/-- The queue, the invocations under way and the writes so far. What was ever sent, removed and
received is remembered. -/
structure QueueState where
  sent : List SqsRecord
  messages : List SqsRecord
  removed : List SqsRecord
  flights : List (Flight texts gz float settings engine format sources)
  received : List (BatchRun texts gz float settings engine format sources)
  writes : List (Location × Bytes)

inductive QueueAction where
  | send (message : SqsRecord)
  | receive (run : BatchRun texts gz float settings engine format sources)
  | write (flight : ℕ)
  | finish (flight : ℕ)
  /-- An invocation is cut off: it writes no more and does not answer. -/
  | crash (flight : ℕ)

variable {texts gz float settings engine format sources}

namespace QueueState

def start : QueueState texts gz float settings engine format sources := ⟨[], [], [], [], [], []⟩

def step (s : QueueState texts gz float settings engine format sources) :
    QueueAction texts gz float settings engine format sources →
      Option (QueueState texts gz float settings engine format sources)
  | .send message =>
    if message.messageId ∈ s.sent.map SqsRecord.messageId then none
    else some { s with sent := s.sent ++ [message], messages := s.messages ++ [message] }
  | .receive run =>
    if ∀ m ∈ run.event.records, m ∈ s.messages then
      some { s with flights := s.flights ++ [⟨run, landed run.delivery.outcome⟩], received := s.received ++ [run] }
    else none
  | .write i =>
    match s.flights[i]? with
    | some ⟨run, write :: rest⟩ =>
      some { s with flights := s.flights.set i ⟨run, rest⟩, writes := s.writes ++ [write] }
    | _ => none
  | .finish i =>
    match s.flights[i]? with
    | some ⟨run, []⟩ =>
      let done := acknowledged (respond run.delivery.outcome) run.event.records
      some { s with
        flights := s.flights.eraseIdx i
        messages := s.messages.filter (· ∉ done)
        removed := s.removed ++ s.messages.filter (· ∈ done) }
    | _ => none
  | .crash i => if i < s.flights.length then some { s with flights := s.flights.eraseIdx i } else none

/-- What every run keeps. No message is lost or removed twice, a flight has made the writes it has not
left to make, and a removed message was acknowledged by an invocation that had made all of its own. -/
structure Inv (s : QueueState texts gz float settings engine format sources) : Prop where
  ids : (s.sent.map SqsRecord.messageId).Nodup
  parts : (s.messages ++ s.removed).Perm s.sent
  flights : ∀ f ∈ s.flights, f.run ∈ s.received ∧
    ∃ made, landed f.run.delivery.outcome = made ++ f.left ∧ ∀ write ∈ made, write ∈ s.writes
  writes : ∀ write ∈ s.writes, ∃ run ∈ s.received, write ∈ landed run.delivery.outcome
  removed : ∀ m ∈ s.removed, ∃ run ∈ s.received, m ∈ run.event.records ∧
    (∃ outcome, run.delivery.outcome.result = .ok outcome ∧ m.messageId ∉ outcome.failedAckIds) ∧
    ∀ write ∈ landed run.delivery.outcome, write ∈ s.writes

variable {s s' : QueueState texts gz float settings engine format sources}

lemma Inv.send (h : s.Inv) {message : SqsRecord} (hstep : s.step (.send message) = some s') : s'.Inv := by
  simp only [step] at hstep
  split_ifs at hstep with hfresh
  cases hstep
  refine ⟨?_, ?_, h.flights, h.writes, h.removed⟩
  · rw [List.map_append]
    exact List.nodup_append.mpr ⟨h.ids, by simp, by
      intro id hid other hother heq
      rw [List.map_singleton, List.mem_singleton] at hother
      exact hfresh (hother ▸ heq ▸ hid)⟩
  · rw [List.append_assoc]
    refine (List.perm_append_comm.append_left s.messages).trans ?_
    rw [← List.append_assoc]
    exact h.parts.append_right _

lemma Inv.receive (h : s.Inv) {run : BatchRun texts gz float settings engine format sources}
    (hstep : s.step (.receive run) = some s') : s'.Inv := by
  simp only [step] at hstep
  split_ifs at hstep
  cases hstep
  refine ⟨h.ids, h.parts, ?_, ?_, ?_⟩
  · intro f hf
    rcases List.mem_append.mp hf with hf | hf
    · obtain ⟨hrun, hmade⟩ := h.flights f hf
      exact ⟨List.mem_append_left _ hrun, hmade⟩
    · rw [List.mem_singleton] at hf
      subst hf
      exact ⟨by simp, [], rfl, by simp⟩
  · intro write hwrite
    obtain ⟨run', hrun', hlanded⟩ := h.writes write hwrite
    exact ⟨run', List.mem_append_left _ hrun', hlanded⟩
  · intro m hm
    obtain ⟨run', hrun', hacked⟩ := h.removed m hm
    exact ⟨run', List.mem_append_left _ hrun', hacked⟩

lemma Inv.write (h : s.Inv) {i : ℕ} (hstep : s.step (.write i) = some s') : s'.Inv := by
  simp only [step] at hstep
  split at hstep
  · rename_i run write rest hflight
    cases hstep
    obtain ⟨hrun, made, hlanded, hmade⟩ := h.flights _ (List.mem_of_getElem? hflight)
    refine ⟨h.ids, h.parts, ?_, ?_, ?_⟩
    · intro f hf
      rcases List.mem_or_eq_of_mem_set hf with hf | rfl
      · obtain ⟨hrun', made', hlanded', hmade'⟩ := h.flights f hf
        exact ⟨hrun', made', hlanded', fun w hw => List.mem_append_left _ (hmade' w hw)⟩
      · refine ⟨hrun, made ++ [write], by simpa using hlanded, ?_⟩
        intro w hw
        rcases List.mem_append.mp hw with hw | hw
        · exact List.mem_append_left _ (hmade w hw)
        · exact List.mem_append_right _ hw
    · intro w hw
      rcases List.mem_append.mp hw with hw | hw
      · exact h.writes w hw
      · rw [List.mem_singleton] at hw
        subst hw
        exact ⟨run, hrun, by rw [hlanded]; simp⟩
    · intro m hm
      obtain ⟨run', hrun', hmem, hacked, hall⟩ := h.removed m hm
      exact ⟨run', hrun', hmem, hacked, fun w hw => List.mem_append_left _ (hall w hw)⟩
  · cases hstep

lemma Inv.finish (h : s.Inv) {i : ℕ} (hstep : s.step (.finish i) = some s') : s'.Inv := by
  simp only [step] at hstep
  split at hstep
  · rename_i run hflight
    cases hstep
    obtain ⟨hrun, made, hlanded, hmade⟩ := h.flights _ (List.mem_of_getElem? hflight)
    refine ⟨h.ids, ?_, fun f hf => h.flights f (List.mem_of_mem_eraseIdx hf), h.writes, ?_⟩
    · refine List.Perm.trans ?_ h.parts
      refine (List.perm_append_comm.append_left _).trans ?_
      rw [← List.append_assoc]
      refine List.Perm.append_right _ ?_
      have hsplit := List.filter_append_perm (fun m => decide
        (m ∉ acknowledged (respond run.delivery.outcome) run.event.records)) s.messages
      simpa using hsplit
    · intro m hm
      rcases List.mem_append.mp hm with hm | hm
      · exact h.removed m hm
      · obtain ⟨-, hdone⟩ := List.mem_filter.mp hm
        obtain ⟨hmem, hacked⟩ := mem_acknowledged.mp (of_decide_eq_true hdone)
        have hall : landed run.delivery.outcome = made := hlanded.trans (List.append_nil made)
        exact ⟨run, hrun, hmem, hacked, fun w hw => hmade w (hall ▸ hw)⟩
  · cases hstep

lemma Inv.crash (h : s.Inv) {i : ℕ} (hstep : s.step (.crash i) = some s') : s'.Inv := by
  simp only [step] at hstep
  split_ifs at hstep
  cases hstep
  exact ⟨h.ids, h.parts, fun f hf => h.flights f (List.mem_of_mem_eraseIdx hf), h.writes, h.removed⟩

theorem inv (h : Concurrency.Reachable step start s) : s.Inv := by
  have hstart : (start : QueueState texts gz float settings engine format sources).Inv :=
    ⟨List.nodup_nil, List.Perm.refl _, by simp [start], by simp [start], by simp [start]⟩
  refine h.invariant hstart ?_
  intro s action s' hs hstep
  cases action with
  | send message => exact hs.send hstep
  | receive run => exact hs.receive hstep
  | write i => exact hs.write hstep
  | finish i => exact hs.finish hstep
  | crash i => exact hs.crash hstep

end QueueState

section Effects
variable {s : QueueState texts gz float settings engine format sources}

/-- A batch that comes to an outcome has attempted all its tasks. -/
lemma Delivery.tasks_eq {d : Delivery gz float settings engine sources} {items : List SourceItem}
    {outcome : BatchOutcome} (hdecoded : d.decoded = .ok items) (hok : d.outcome.result = .ok outcome) :
    tasks settings items = d.queue.zipIdx := by
  have hhandles := d.handles
  unfold Delivery.queue
  rcases openBatch_cases settings engine d.decoded with ⟨_, -, hopen⟩ | ⟨_, _, -, -, hopen⟩ |
    ⟨_, -, -, -, _, _, hopen⟩ | ⟨items', hdecoded', -, -, hopen⟩
  · simp [hhandles.refused hopen] at hok
  · simp [hhandles.refused hopen] at hok
  · simp [hhandles.refused hopen] at hok
  · rw [hdecoded] at hdecoded'
    cases hdecoded'
    rw [queueOf_opened hopen]
    rfl

/-- The write of an object, if its bytes make it one. -/
def objectWrite (gz : Gzip) (float : FloatParser) (settings : Settings) (engine : Option Engine)
    (sources : Location → Option Bytes) (object : ObjectRef) : Option (Location × Bytes) :=
  writeOf gz float settings engine sources ⟨0, object, destOf settings object⟩

lemma Delivery.objectWrite_eq {d : Delivery gz float settings engine sources} {w : Work} (h : w ∈ d.queue) :
    objectWrite gz float settings engine sources w.object = writeOf gz float settings engine sources w := by
  unfold objectWrite writeOf
  rw [Delivery.dest_eq h]

/-- An acknowledged message is a notification whose objects were all processed or excluded, or the
test event. -/
lemma BatchRun.acknowledged_done (run : BatchRun texts gz float settings engine format sources) {m : SqsRecord}
    (hm : m ∈ run.event.records) {outcome : BatchOutcome} (hok : run.delivery.outcome.result = .ok outcome)
    (hacked : m.messageId ∉ outcome.failedAckIds) :
    (m.value texts float format).any isTestEvent = true ∨
    ∃ notification objects, m.notification texts float format = some notification ∧
      notification.created.mapM (S3RecordEnvelope.objectRef texts) = .ok objects ∧
      ∀ object ∈ objects, settings.keyFilter.allows object.key = true → run.delivery.Succeeded object := by
  have hhandles := run.delivery.handles
  rw [run.decoded] at hhandles
  obtain ⟨hcompleted, -⟩ := hhandles.completed_of_ok hok
  obtain ⟨objects, skipped, hdecode, hqueue, hrun⟩ := message_done run.distinct hcompleted hok hm hacked
  obtain ⟨value, hvalue, ⟨htrue, -⟩ | ⟨-, notification, hread, hobjects⟩⟩ :=
    SqsRecord.notification_of_decodeBody hdecode
  · exact .inl (by simp [hvalue, htrue])
  · refine .inr ⟨notification, objects, hread, hobjects, ?_⟩
    intro object hobject hallows
    have hmem : object ∈ (messageTasks settings (messageItems texts float format run.event) m.messageId).map
        (fun t => t.1.object) := by
      rw [hqueue]
      exact List.mem_filter.mpr ⟨hobject, hallows⟩
    obtain ⟨t, ht, hsame⟩ := List.mem_map.mp hmem
    refine ⟨t, ?_, hsame, hrun t ht⟩
    rw [← Delivery.tasks_eq run.decoded hok]
    exact (mem_messageTasks.mp ht).1

/-- Among all objects that were ever attempted, those of one destination are one source, and one mode
decides about a source at all its deliveries. -/
structure QueueState.Apart (s : QueueState texts gz float settings engine format sources) : Prop where
  sources : ∀ run ∈ s.received, ∀ run' ∈ s.received, ∀ w ∈ run.delivery.queue, ∀ w' ∈ run'.delivery.queue,
    w.dest = w'.dest → sourceOf w.object = sourceOf w'.object
  modes : ∀ run ∈ s.received, ∀ run' ∈ s.received, run.delivery.AgreesOn run'.delivery

/-- Nothing is lost and nothing is done twice. All invocations run under the same settings and rules, on
sources that do not change, and the objects are apart. Under every interleaving of any number of them,
with redeliveries and with invocations that are cut off anywhere: each message that was sent is still in the
queue or was removed, once; of a removed message, unless it is the test event of S3, each object that
passes the key filter has at its destination what its bytes and the rules determine, however often it
was written and whatever is still under way; and a destination that no attempted object goes to is as
it was. -/
theorem queue_effects_in_place (hgz : gz.Lawful) (h : Concurrency.Reachable QueueState.step QueueState.start s)
    (hapart : s.Apart) (before : Contents Location Bytes) :
    ((s.messages ++ s.removed).Perm s.sent ∧ (s.sent.map SqsRecord.messageId).Nodup) ∧
    (∀ m ∈ s.removed, (m.value texts float format).any isTestEvent = true ∨
      ∃ notification objects, m.notification texts float format = some notification ∧
        notification.created.mapM (S3RecordEnvelope.objectRef texts) = .ok objects ∧
        ∀ object ∈ objects, settings.keyFilter.allows object.key = true →
          ∀ write, objectWrite gz float settings engine sources object = some write →
            before.after s.writes write.1 = some write.2) ∧
    ∀ dest, (∀ run ∈ s.received, ∀ w ∈ run.delivery.queue, w.dest ≠ dest) →
      before.after s.writes dest = before dest := by
  have hinv := QueueState.inv h
  have hdetermined : ∀ write ∈ s.writes, ∃ run ∈ s.received, ∃ w ∈ run.delivery.queue,
      writeOf gz float settings engine sources w = some write := by
    intro write hwrite
    obtain ⟨run, hrun, hlanded⟩ := hinv.writes write hwrite
    obtain ⟨w, hw, hwrite⟩ := Delivery.writeOf_of_landed hgz hlanded
    exact ⟨run, hrun, w, hw, hwrite⟩
  refine ⟨⟨hinv.parts, hinv.ids⟩, ?_, ?_⟩
  · intro m hm
    obtain ⟨run, hrun, hmem, ⟨outcome, hok, hacked⟩, hmade⟩ := hinv.removed m hm
    rcases run.acknowledged_done hmem hok hacked with htest | ⟨notification, objects, hread, hobjects, hdone⟩
    · exact .inl htest
    · refine .inr ⟨notification, objects, hread, hobjects, ?_⟩
      intro object hobject hallows write hwrite
      obtain ⟨w, hw, rfl, hlands⟩ := Delivery.landed_of_succeeded hgz (hdone object hobject hallows)
      rw [Delivery.objectWrite_eq hw] at hwrite
      have hin : (write.1, write.2) ∈ s.writes := hmade write (hlands write hwrite)
      -- whoever else writes there writes the same
      have hsame : ∀ write' ∈ s.writes, write'.1 = write.1 → write'.2 = write.2 := by
        intro write' hwrite' hdest
        obtain ⟨run', hrun', w', hw', hwrite'⟩ := hdetermined write' hwrite'
        rw [writeOf_dest hwrite', writeOf_dest hwrite] at hdest
        have hsource := hapart.sources run' hrun' run hrun w' hw' w hw hdest
        have hmode := hapart.modes run' hrun' run hrun w' hw' w hw hsource
        rw [Delivery.writeOf_congr hw' hw hsource hmode, hwrite] at hwrite'
        rw [Option.some.inj hwrite']
      rw [Contents.after_apply, Contents.lastWrite_eq_of_forall hin hsame, Option.some_or]
  · intro dest hnone
    have hnever : ∀ write ∈ s.writes, write.1 ≠ dest := by
      intro write hwrite hdest
      obtain ⟨run, hrun, w, hw, hwrite⟩ := hdetermined write hwrite
      exact hnone run hrun w hw (by rw [← hdest, writeOf_dest hwrite])
    rw [Contents.after_apply, Contents.lastWrite_eq_none_iff.mpr hnever, Option.none_or]

/-- A message that names one object. -/
def sampleMessage : SqsRecord := ⟨"m1", notificationText "" ""⟩

def sampleMessageItems : List SourceItem := [.new (some "m1") [⟨"trail", "a b.gz", none⟩]]

lemma sampleMessage_items : messageItems sampleTexts (fun _ => none) .auto ⟨[sampleMessage]⟩ = sampleMessageItems := by
  decide +kernel

/-- An invocation for the message in which nothing fails. -/
lemma exists_sampleRun : ∃ run : BatchRun sampleTexts storedGzip (fun _ => none) sampleSettings (some passEngine)
    .auto envelopeSources, run.event = ⟨[sampleMessage]⟩ ∧ run.delivery.outcome.result = .ok ⟨[]⟩ ∧
      ∃ write, landed run.delivery.outcome = [write] := by
  have hfree : ∀ source : Location, (wholeAttempt (envelopeSources source)).Of (envelopeSources source) :=
    fun source => (wholeAttempt_failureFree _).of
  obtain ⟨d, hdecoded, hattempts⟩ := exists_delivery storedGzip (fun _ => none) sampleSettings (some passEngine)
    envelopeSources (.ok sampleMessageItems) (fun _ => wholeAttempt (envelopeSources ("", ""))) le_rfl
    (fun _ _ => hfree _)
  have hsequential := handleSequential_eq (n := 1) storedGzip (fun _ => none) sampleSettings _ _ d.handles
  rw [hdecoded, hattempts] at hsequential
  obtain ⟨hresult, -, hcalls⟩ := hsequential
  refine ⟨⟨⟨[sampleMessage]⟩, d, by rw [hdecoded, sampleMessage_items], by simp⟩, rfl, ?_, ?_⟩
  · rw [hresult]
    decide +kernel
  · have hone : (landed (handleSequential storedGzip (fun _ => none) sampleSettings (some passEngine)
        (.ok sampleMessageItems) (fun _ => wholeAttempt (envelopeSources ("", ""))))).length = 1 := by decide +kernel
    obtain ⟨write, hwrite⟩ := List.length_eq_one_iff.mp hone
    refine ⟨write, List.perm_singleton.mp ?_⟩
    rw [← hwrite]
    exact hcalls.filterMap _

/-- One message from its arrival to its removal. -/
theorem queue_effects_in_place_sample :
    ∃ s : QueueState sampleTexts storedGzip (fun _ => none) sampleSettings (some passEngine) .auto envelopeSources,
      Concurrency.Reachable QueueState.step QueueState.start s ∧ s.removed = [sampleMessage] ∧ s.Apart ∧
      ∀ (before : Contents Location Bytes), ∀ m ∈ s.removed,
        (m.value sampleTexts (fun _ => none) .auto).any isTestEvent = true ∨
        ∃ notification objects, m.notification sampleTexts (fun _ => none) .auto = some notification ∧
          notification.created.mapM (S3RecordEnvelope.objectRef sampleTexts) = .ok objects ∧
          ∀ object ∈ objects, sampleSettings.keyFilter.allows object.key = true → ∀ write,
            objectWrite storedGzip (fun _ => none) sampleSettings (some passEngine) envelopeSources object = some write →
              before.after s.writes write.1 = some write.2 := by
  obtain ⟨run, hevent, hok, write, hwrite⟩ := exists_sampleRun
  let s : QueueState sampleTexts storedGzip (fun _ => none) sampleSettings (some passEngine) .auto envelopeSources :=
    ⟨[sampleMessage], [], [sampleMessage], [], [run], [write]⟩
  have hdone : acknowledged (respond run.delivery.outcome) [sampleMessage] = [sampleMessage] := by
    simp [respond, hok, Except.map, acknowledged, itemIdentifiers_batchResponse]
  have hreach : Concurrency.Reachable QueueState.step QueueState.start s := by
    refine Concurrency.Reachable.start.run [.send sampleMessage, .receive run, .write 0, .finish 0] ?_
    simp [Concurrency.runActions, QueueState.step, QueueState.start, hevent, hwrite, hdone, s]
  have hqueue : run.delivery.queue = queueOf sampleSettings (some passEngine) (.ok sampleMessageItems) := by
    rw [Delivery.queue, run.decoded, hevent, sampleMessage_items]
  have hlength : (queueOf sampleSettings (some passEngine) (.ok sampleMessageItems)).length = 1 := by decide +kernel
  obtain ⟨only, honly⟩ := List.length_eq_one_iff.mp hlength
  have hworks : ∀ run' ∈ s.received, ∀ w ∈ run'.delivery.queue, w = only := by
    intro run' hrun' w hw
    rw [List.mem_singleton.mp hrun', hqueue, honly] at hw
    exact List.mem_singleton.mp hw
  have hapart : s.Apart := by
    constructor
    · intro run₁ hrun₁ run₂ hrun₂ w hw w' hw' _
      rw [hworks run₁ hrun₁ w hw, hworks run₂ hrun₂ w' hw']
    · intro run₁ hrun₁ run₂ hrun₂ w hw w' hw' _
      rw [hworks run₁ hrun₁ w hw, hworks run₂ hrun₂ w' hw']
      exact .refl only
  exact ⟨s, hreach, rfl, hapart, fun before => (queue_effects_in_place storedGzip_lawful hreach hapart before).2.1⟩

end Effects

end Queue

end CloudTrailFilter.Pipeline
