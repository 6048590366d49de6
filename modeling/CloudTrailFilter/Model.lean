import Mathlib.Tactic

/-!
# Data shared by the pipeline

Object references, settings, errors and counters, as the source's `model`, `error`, `metrics`
and `config::settings` have them. Counters are additive: what a computation publishes is
an element of a commutative monoid.
-/

namespace CloudTrailFilter

structure ObjectRef where
  bucket : String
  key : String
  size : Option ℕ
deriving DecidableEq, Repr

/-- One decoded unit of work. An item with a decode error has no objects. -/
structure SourceItem where
  ackId : Option String
  objects : List ObjectRef
  decodeError : Option String
deriving DecidableEq, Repr

def SourceItem.new (ackId : Option String) (objects : List ObjectRef) : SourceItem :=
  ⟨ackId, objects, none⟩

def SourceItem.undecodable (ackId : Option String) (error : String) : SourceItem :=
  ⟨ackId, [], some error⟩

inductive StoreError where
  | notFound (bucket key : String)
  | backend (message : String)
deriving DecidableEq, Repr

/-- What went wrong inside the process, rather than with its input or the store. -/
inductive InternalFailure where
  | compression
  | producerVanished
  | extractionPanicked
deriving DecidableEq, Repr

/-- Why an object or a batch failed. The texts the compression and JSON libraries give for
their errors are left out. -/
inductive CoreError where
  | store (error : StoreError)
  | config (message : String)
  | gzip
  | json
  | internal (cause : InternalFailure)
  | objectTooLarge (limit : ℕ)
  | decode (message : String)
  | selfTrigger (destBucket destKey : String)
  | unrecognizedObject (bucket key : String)
deriving DecidableEq, Repr

/-- The only errors `on_parse_error: copy` may fail open on. -/
def CoreError.isUnparsableSource : CoreError → Bool
  | .gzip | .json => true
  | _ => false

section Settings

inductive ProcessingMode where
  | buffer
  | stream
  | auto
deriving DecidableEq, Repr

structure Processing where
  mode : ProcessingMode
  streamThresholdBytes : ℕ
  maxObjectBytes : ℕ
  gzipLevel : ℕ
  objectConcurrency : ℕ
  gzipChunks : ℕ
deriving Repr

inductive OnConfigError where
  | «open»
  | closed
deriving DecidableEq, Repr

inductive OnMissingObject where
  | skip
  | error
deriving DecidableEq, Repr

inductive OnUnrecognizedObject where
  | copy
  | skip
  | error
deriving DecidableEq, Repr

inductive OnParseError where
  | error
  | copy
deriving DecidableEq, Repr

inductive OnObjectTooLarge where
  | error
  | stream
deriving DecidableEq, Repr

structure Behavior where
  dryRun : Bool
  onConfigError : OnConfigError
  onMissingObject : OnMissingObject
  onUnrecognizedObject : OnUnrecognizedObject
  onParseError : OnParseError
  onObjectTooLarge : OnObjectTooLarge
  partialBatchFailures : Bool
deriving Repr

structure Destination where
  bucket : String
  keyPrefix : String
deriving Repr

/-- The compiled include and exclude patterns of the source keys. -/
structure KeyFilter where
  includes : String → Bool
  excludes : String → Bool

def KeyFilter.allows (filter : KeyFilter) (key : String) : Bool :=
  filter.includes key && !filter.excludes key

structure Settings where
  keyFilter : KeyFilter
  destination : Destination
  processing : Processing
  behavior : Behavior

end Settings

/-- The counters of one snapshot. A rule's drops are the multiplicity of its name. -/
@[ext]
structure Metrics where
  objectsProcessed : ℕ
  objectsSkipped : ℕ
  objectsFailed : ℕ
  objectsExcludedByKey : ℕ
  unrecognizedObjects : ℕ
  objectsCopiedUnparsed : ℕ
  recordsIn : ℕ
  recordsKept : ℕ
  recordsDropped : ℕ
  bytesIn : ℕ
  bytesOut : ℕ
  parseErrors : ℕ
  decodeErrors : ℕ
  itemsWithoutObjects : ℕ
  ruleDrops : Multiset String
deriving DecidableEq

namespace Metrics

instance : Zero Metrics := ⟨⟨0, 0, 0, 0, 0, 0, 0, 0, 0, 0, 0, 0, 0, 0, 0⟩⟩

instance : Add Metrics where
  add a b :=
    { objectsProcessed := a.objectsProcessed + b.objectsProcessed
      objectsSkipped := a.objectsSkipped + b.objectsSkipped
      objectsFailed := a.objectsFailed + b.objectsFailed
      objectsExcludedByKey := a.objectsExcludedByKey + b.objectsExcludedByKey
      unrecognizedObjects := a.unrecognizedObjects + b.unrecognizedObjects
      objectsCopiedUnparsed := a.objectsCopiedUnparsed + b.objectsCopiedUnparsed
      recordsIn := a.recordsIn + b.recordsIn
      recordsKept := a.recordsKept + b.recordsKept
      recordsDropped := a.recordsDropped + b.recordsDropped
      bytesIn := a.bytesIn + b.bytesIn
      bytesOut := a.bytesOut + b.bytesOut
      parseErrors := a.parseErrors + b.parseErrors
      decodeErrors := a.decodeErrors + b.decodeErrors
      itemsWithoutObjects := a.itemsWithoutObjects + b.itemsWithoutObjects
      ruleDrops := a.ruleDrops + b.ruleDrops }

/-- Counters add up in any order. -/
instance : AddCommMonoid Metrics where
  add_assoc a b c := by ext1 <;> exact add_assoc _ _ _
  zero_add a := by ext1 <;> exact zero_add _
  add_zero a := by ext1 <;> exact add_zero _
  add_comm a b := by ext1 <;> exact add_comm _ _
  nsmul := nsmulRec

section Increments

def addObjectsProcessed (n : ℕ) : Metrics := { (0 : Metrics) with objectsProcessed := n }
def addObjectsSkipped (n : ℕ) : Metrics := { (0 : Metrics) with objectsSkipped := n }
def addObjectsFailed (n : ℕ) : Metrics := { (0 : Metrics) with objectsFailed := n }
def addObjectsExcludedByKey (n : ℕ) : Metrics := { (0 : Metrics) with objectsExcludedByKey := n }
def addUnrecognizedObjects (n : ℕ) : Metrics := { (0 : Metrics) with unrecognizedObjects := n }
def addObjectsCopiedUnparsed (n : ℕ) : Metrics := { (0 : Metrics) with objectsCopiedUnparsed := n }
def addBytesIn (n : ℕ) : Metrics := { (0 : Metrics) with bytesIn := n }
def addBytesOut (n : ℕ) : Metrics := { (0 : Metrics) with bytesOut := n }
def addDecodeErrors (n : ℕ) : Metrics := { (0 : Metrics) with decodeErrors := n }
def addItemsWithoutObjects (n : ℕ) : Metrics := { (0 : Metrics) with itemsWithoutObjects := n }

end Increments

end Metrics

end CloudTrailFilter
