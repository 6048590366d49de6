import CloudTrailFilter.Lib.Buffered
import CloudTrailFilter.Pipeline.Object

/-!
# A batch through the pipeline

`handle_inner` in its three passes: everything that can reject an object without touching the
store, the objects in flight, and the adjudication of their results in the order of submission.
The objects run on the bounded executor, so `Handles` has an outcome for every interleaving;
`handleSequential` is the run of one object after the other.
-/

namespace CloudTrailFilter.Pipeline
open CloudTrailFilter.Json CloudTrailFilter.Filter CloudTrailFilter.Process

structure BatchOutcome where
  failedAckIds : List String
deriving DecidableEq, Repr

/-- An object in the queue, with the index of its item and where it goes. -/
structure Work where
  itemIdx : ℕ
  object : ObjectRef
  dest : Location
deriving DecidableEq, Repr

/-- Keeps the failure of the lowest item seen, and of several of one item the first. -/
def noteHardError (slot : Option (ℕ × CoreError)) (itemIdx : ℕ) (e : CoreError) :
    Option (ℕ × CoreError) :=
  match slot with
  | none => some (itemIdx, e)
  | some (idx, e') => if itemIdx < idx then some (itemIdx, e) else some (idx, e')

/-- `item_failed` and `hard_error`. -/
@[ext]
structure Ledger where
  itemFailed : List Bool
  hardError : Option (ℕ × CoreError)

section Triage
variable (settings : Settings)

/-- Whether a failure of an item fails its message only. -/
def isolated (item : SourceItem) : Bool :=
  settings.behavior.partialBatchFailures && item.ackId.isSome

/-- A failure of an item is isolated to its message, or held as the failure of the batch. -/
def Ledger.note (ledger : Ledger) (itemIdx : ℕ) (item : SourceItem) (e : CoreError) : Ledger :=
  if isolated settings item then { ledger with itemFailed := ledger.itemFailed.set itemIdx true }
  else { ledger with hardError := noteHardError ledger.hardError itemIdx e }

def destOf (object : ObjectRef) : Location :=
  (settings.destination.bucket, settings.destination.keyPrefix ++ object.key)

/-- The destination is the source, or the source is output read back in. -/
def selfTriggers (object : ObjectRef) : Bool :=
  (destOf settings object).1 = object.bucket ∧
    ((destOf settings object).2 = object.key ∨
      (settings.destination.keyPrefix ≠ "" ∧
        settings.destination.keyPrefix.toList <+: object.key.toList))

/-- The objects of an item that are queued. -/
def queueObjects (itemIdx : ℕ) : List ObjectRef → ObjectM (List Work)
  | [] => pure []
  | object :: rest =>
    if settings.keyFilter.allows object.key then
      if selfTriggers settings object then do
        Effect.publish (Metrics.addObjectsFailed 1)
        Effect.fail (.selfTrigger (destOf settings object).1 (destOf settings object).2)
      else do
        let work ← queueObjects itemIdx rest
        pure (⟨itemIdx, object, destOf settings object⟩ :: work)
    else do
      Effect.publish (Metrics.addObjectsExcludedByKey 1)
      queueObjects itemIdx rest

def triageItem (ledger : Ledger) (itemIdx : ℕ) (item : SourceItem) : ObjectM (Ledger × List Work) :=
  match item.decodeError with
  | some message => do
    Effect.publish (Metrics.addDecodeErrors 1)
    pure (ledger.note settings itemIdx item (.decode message), [])
  | none => do
    Effect.publish (if item.objects = [] then Metrics.addItemsWithoutObjects 1 else 0)
    let work ← queueObjects settings itemIdx item.objects
    pure (ledger, work)

/-- Pass 1, from the item with this index on. -/
def triage (ledger : Ledger) (itemIdx : ℕ) : List SourceItem → ObjectM (Ledger × List Work)
  | [] => pure (ledger, [])
  | item :: rest => do
    let (ledger, work) ← triageItem settings ledger itemIdx item
    let (ledger, more) ← triage ledger (itemIdx + 1) rest
    pure (ledger, work ++ more)

end Triage

section Adjudication
variable (settings : Settings) (items : List SourceItem) (work : List Work)

/-- The state of pass 3. -/
structure Adjudicator where
  ledger : Ledger
  done : ℕ

/-- One round of pass 3. The results come in the order of submission, so the `done`-th is that of
`work[done]`; an index past the end is a panic of the source. -/
def adjudicate (st : Adjudicator) (outcome : Except CoreError Unit) : Adjudicator × Metrics :=
  match outcome with
  | .ok () => (⟨st.ledger, st.done + 1⟩, 0)
  | .error e =>
    match work[st.done]?.bind (fun w => (items[w.itemIdx]?).map (w.itemIdx, ·)) with
    | some (itemIdx, item) =>
      (⟨st.ledger.note settings itemIdx item e, st.done + 1⟩, Metrics.addObjectsFailed 1)
    | none => (⟨st.ledger, st.done + 1⟩, 0)

/-- The end of a batch: its failure, or the messages that failed in the order of the items. -/
def settle (ledger : Ledger) : Except CoreError BatchOutcome :=
  match ledger.hardError with
  | some (_, e) => .error e
  | none => .ok ⟨((items.zip ledger.itemFailed).filter (fun p => p.2)).filterMap (fun p => p.1.ackId)⟩

end Adjudication

section Handle
variable (gz : Gzip) (float : FloatParser) (settings : Settings) (engine : Option Engine)

/-- What is done with a queued object, which without a ruleset is a raw copy. -/
def processWork (attempt : Attempt) (w : Work) : ObjectM Unit :=
  match engine with
  | some engine => processObject gz float settings engine attempt w.object w.dest
  | none => rawCopy settings attempt (w.object.bucket, w.object.key) w.dest

variable (decoded : Except String (List SourceItem))

/-- Everything before the first object: the items, the ledger of pass 1 and the queue. -/
def openBatch : ObjectM (List SourceItem × Ledger × List Work) :=
  match decoded with
  | .error message => do
    Effect.publish (Metrics.addDecodeErrors 1)
    Effect.fail (.decode message)
  | .ok items =>
    if engine.isNone ∧ settings.behavior.onConfigError = .closed then
      Effect.fail (.config "no compiled ruleset is cached and on_config_error is 'closed'")
    else do
      let (ledger, work) ← triage settings ⟨List.replicate items.length false, none⟩ 0 items
      pure (items, ledger, work)

variable (attempts : ℕ → Attempt)

/-- The `k`-th queued object under the `k`-th attempt. -/
def runWork (task : Work × ℕ) : ObjectM Unit :=
  processWork gz float settings engine (attempts task.2) task.1

/-- What a call of `handle` can come to, over all interleavings of the objects in flight. -/
def Handles (x : ObjectM BatchOutcome) : Prop :=
  let opened := openBatch settings engine decoded
  match opened.result with
  | .error e => x = ⟨.error e, opened.calls, opened.metrics⟩
  | .ok (items, ledger, work) => ∃ s,
    Executor.Runs (runWork gz float settings engine attempts) (adjudicate settings items work)
      settings.processing.objectConcurrency work.zipIdx ⟨ledger, 0⟩ s ∧ s.Drained ∧
    x = ⟨settle items s.consumer.ledger, opened.calls ++ s.calls, opened.metrics + s.metrics⟩

/-- A call of `handle` that processes one object after the other. -/
def handleSequential : ObjectM BatchOutcome := do
  let (items, ledger, work) ← openBatch settings engine decoded
  let (st, calls, metrics) := Executor.sequential (runWork gz float settings engine attempts)
    (adjudicate settings items work) ⟨ledger, 0⟩ work.zipIdx
  ⟨settle items st.ledger, calls, metrics⟩

end Handle

end CloudTrailFilter.Pipeline
