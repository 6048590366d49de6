import CloudTrailFilter.Metrics.Registry
import CloudTrailFilter.Json.Value
import CloudTrailFilter.Lib.Fallible

/-!
# Snapshots in the embedded metric format

A snapshot leaves the process as log lines: one with every counter, and one more for each rule that
dropped records. A log line in the embedded metric format names its metrics and dimensions in
`_aws` and has their values beside it; `dataPoints` is what a reader of the format takes from a line,
and nothing if the line declares what it does not have.
-/

namespace CloudTrailFilter
open CloudTrailFilter.Json

section Lines

def Counter.metricName : Counter → String
  | .objectsProcessed => "ObjectsProcessed"
  | .objectsSkipped => "ObjectsSkipped"
  | .objectsFailed => "ObjectsFailed"
  | .objectsExcludedByKey => "ObjectsExcludedByKey"
  | .unrecognizedObjects => "UnrecognizedObjects"
  | .objectsCopiedUnparsed => "ObjectsCopiedUnparsed"
  | .recordsIn => "RecordsIn"
  | .recordsKept => "RecordsKept"
  | .recordsDropped => "RecordsDropped"
  | .bytesIn => "BytesIn"
  | .bytesOut => "BytesOut"
  | .configLoadErrors => "ConfigLoadErrors"
  | .parseErrors => "ParseErrors"
  | .decodeErrors => "DecodeErrors"
  | .itemsWithoutObjects => "ItemsWithoutObjects"

def Counter.unit : Counter → String
  | .bytesIn | .bytesOut => "Bytes"
  | _ => "Count"

variable (metricNamespace : String) (timestamp : ℕ)

def metricEntry (name unit : String) : Value := .object [("Name", .string name), ("Unit", .string unit)]

/-- The `_aws` member of a line with one set of dimensions. -/
def awsMember (dimensions : List String) (metrics : List Value) : Value :=
  .object [("Timestamp", .number (.u64 timestamp)),
    ("CloudWatchMetrics", .array [.object [("Namespace", .string metricNamespace),
      ("Dimensions", .array [.array (dimensions.map Value.string)]), ("Metrics", .array metrics)]])]

/-- The line with every counter but the drops of the rules. -/
def aggregateLine (snapshot : MetricSnapshot (Word 64)) : Value :=
  .object (("_aws", awsMember metricNamespace timestamp []
      (Counter.all.map (fun c => metricEntry c.metricName c.unit) ++ [metricEntry "ColdStart" "Count"])) ::
    (Counter.all.map (fun c => (c.metricName, .number (.u64 (snapshot.counter c).val))) ++
      [("ColdStart", .number (.u64 snapshot.coldStart.toNat))]))

/-- The line of one rule. -/
def ruleLine (rule : String) (count : Word 64) : Value :=
  .object [("_aws", awsMember metricNamespace timestamp ["Rule"] [metricEntry "RuleDrops" "Count"]),
    ("Rule", .string rule), ("RuleDrops", .number (.u64 count.val))]

def buildLines (snapshot : MetricSnapshot (Word 64)) : List Value :=
  aggregateLine metricNamespace timestamp snapshot ::
    snapshot.ruleDrops.map (fun drops => ruleLine metricNamespace timestamp drops.1 drops.2)

end Lines

section Reader

/-- One value of one metric. -/
structure DataPoint where
  metricNamespace : String
  timestamp : ℕ
  dimensions : List (String × String)
  name : String
  unit : String
  value : ℕ
deriving DecidableEq, Repr

def asObject : Value → Option (List (String × Value))
  | .object entries => some entries
  | _ => none

def asArray : Value → Option (List Value)
  | .array items => some items
  | _ => none

def asString : Value → Option String
  | .string s => some s
  | _ => none

def asCount : Value → Option ℕ
  | .number (.u64 n) => some n
  | _ => none

variable (root : List (String × Value))

/-- A dimension, whose value stands in the line under its name. -/
def readDimension (name : Value) : Option (String × String) := do
  let name ← asString name
  let value ← (Value.get root name).bind asString
  pure (name, value)

/-- A metric, whose value stands in the line under its name. -/
def readMetric (metricNamespace : String) (timestamp : ℕ) (dimensions : List (String × String)) (metric : Value) :
    Option DataPoint := do
  let fields ← asObject metric
  let name ← (Value.get fields "Name").bind asString
  let unit ← (Value.get fields "Unit").bind asString
  let value ← (Value.get root name).bind asCount
  pure ⟨metricNamespace, timestamp, dimensions, name, unit, value⟩

/-- Every metric of a directive under each of its dimension sets. -/
def readDirective (timestamp : ℕ) (directive : Value) : Option (List DataPoint) := do
  let fields ← asObject directive
  let metricNamespace ← (Value.get fields "Namespace").bind asString
  let sets ← (Value.get fields "Dimensions").bind asArray
  let metrics ← (Value.get fields "Metrics").bind asArray
  let points ← sets.mapM (fun set => do
    let names ← asArray set
    let dimensions ← names.mapM (readDimension root)
    metrics.mapM (readMetric root metricNamespace timestamp dimensions))
  pure points.flatten

def dataPoints (line : Value) : Option (List DataPoint) := do
  let root ← asObject line
  let aws ← (Value.get root "_aws").bind asObject
  let timestamp ← (Value.get aws "Timestamp").bind asCount
  let directives ← (Value.get aws "CloudWatchMetrics").bind asArray
  let points ← directives.mapM (readDirective root timestamp)
  pure points.flatten

end Reader

section Published
variable (metricNamespace : String) (timestamp : ℕ)

/-- What a snapshot is to publish. -/
def MetricSnapshot.points (snapshot : MetricSnapshot (Word 64)) : List DataPoint :=
  Counter.all.map (fun c => ⟨metricNamespace, timestamp, [], c.metricName, c.unit, (snapshot.counter c).val⟩) ++
    [⟨metricNamespace, timestamp, [], "ColdStart", "Count", snapshot.coldStart.toNat⟩] ++
    snapshot.ruleDrops.map (fun drops =>
      ⟨metricNamespace, timestamp, [("Rule", drops.1)], "RuleDrops", "Count", drops.2.val⟩)

variable {metricNamespace timestamp}

lemma readMetric_entry {root : List (String × Value)} {dimensions : List (String × String)} {unit : String}
    (name : String) (n : ℕ) (h : Value.get root name = some (.number (.u64 n))) :
    readMetric root metricNamespace timestamp dimensions (metricEntry name unit) =
      some ⟨metricNamespace, timestamp, dimensions, name, unit, n⟩ := by
  have hname : (Value.get [("Name", Value.string name), ("Unit", .string unit)] "Name").bind asString = some name := rfl
  have hunit : (Value.get [("Name", Value.string name), ("Unit", .string unit)] "Unit").bind asString = some unit := rfl
  simp [readMetric, metricEntry, asObject, hname, hunit, h, asCount]

lemma mapM_eq_some_map {α β γ : Type} {f : β → Option γ} {g : α → β} {h : α → γ} {l : List α}
    (hf : ∀ a ∈ l, f (g a) = some (h a)) : (l.map g).mapM f = some (l.map h) := by
  rw [Fallible.mapM_some_iff, List.forall₂_map_left_iff, List.forall₂_map_right_iff, List.forall₂_same]
  exact hf

/-- A line is read as its metrics under its one set of dimensions. -/
lemma dataPoints_line {members : List (String × Value)} {names : List String}
    (dimensions : List (String × String)) {metrics : List Value} {points : List DataPoint}
    (hdimensions : (names.map Value.string).mapM (readDimension
      (("_aws", awsMember metricNamespace timestamp names metrics) :: members)) = some dimensions)
    (hmetrics : metrics.mapM (readMetric (("_aws", awsMember metricNamespace timestamp names metrics) :: members)
      metricNamespace timestamp dimensions) = some points) :
    dataPoints (.object (("_aws", awsMember metricNamespace timestamp names metrics) :: members)) = some points := by
  let root := ("_aws", awsMember metricNamespace timestamp names metrics) :: members
  let directive : Value := .object [("Namespace", .string metricNamespace),
    ("Dimensions", .array [.array (names.map Value.string)]), ("Metrics", .array metrics)]
  have hdirective : readDirective root timestamp directive = some points := by
    simp only [readDirective, directive, asObject, Value.get_cons, asArray, asString, Option.bind_eq_bind,
      Option.bind_some, reduceIte, String.reduceEq, List.mapM_cons, List.mapM_nil, hdimensions, hmetrics, root]
    simp
  have haws : (Value.get root "_aws").bind asObject = some [("Timestamp", .number (.u64 timestamp)),
      ("CloudWatchMetrics", .array [directive])] := rfl
  have htimestamp : (Value.get [("Timestamp", .number (.u64 timestamp)),
      ("CloudWatchMetrics", .array [directive])] "Timestamp").bind asCount = some timestamp := rfl
  have hdirectives : (Value.get [("Timestamp", .number (.u64 timestamp)),
      ("CloudWatchMetrics", .array [directive])] "CloudWatchMetrics").bind asArray = some [directive] := rfl
  change dataPoints (.object root) = some points
  simp [dataPoints, asObject, haws, htimestamp, hdirectives, hdirective]

lemma get_members (snapshot : MetricSnapshot (Word 64)) (aws : Value) (c : Counter) :
    Value.get (("_aws", aws) :: (Counter.all.map (fun c => (c.metricName, .number (.u64 (snapshot.counter c).val))) ++
      [("ColdStart", .number (.u64 snapshot.coldStart.toNat))])) c.metricName =
      some (.number (.u64 (snapshot.counter c).val)) := by
  cases c <;> rfl

lemma dataPoints_aggregateLine (snapshot : MetricSnapshot (Word 64)) :
    dataPoints (aggregateLine metricNamespace timestamp snapshot) =
      some (Counter.all.map (fun c => ⟨metricNamespace, timestamp, [], c.metricName, c.unit, (snapshot.counter c).val⟩) ++
        [⟨metricNamespace, timestamp, [], "ColdStart", "Count", snapshot.coldStart.toNat⟩]) := by
  refine dataPoints_line [] rfl ?_
  rw [List.mapM_append, mapM_eq_some_map (fun c _ => readMetric_entry _ _ (get_members snapshot _ c))]
  simp only [List.mapM_cons, List.mapM_nil]
  rw [readMetric_entry "ColdStart" snapshot.coldStart.toNat rfl]
  rfl

lemma dataPoints_ruleLine (rule : String) (count : Word 64) :
    dataPoints (ruleLine metricNamespace timestamp rule count) =
      some [⟨metricNamespace, timestamp, [("Rule", rule)], "RuleDrops", "Count", count.val⟩] := by
  refine dataPoints_line [("Rule", rule)] rfl ?_
  simp only [List.mapM_cons, List.mapM_nil]
  rw [readMetric_entry "RuleDrops" count.val rfl]
  rfl

/-- A reader of the format finds in the lines of a snapshot what the snapshot has, and no line
declares a metric or a dimension it does not have. -/
theorem dataPoints_buildLines (snapshot : MetricSnapshot (Word 64)) :
    ((buildLines metricNamespace timestamp snapshot).mapM dataPoints).map List.flatten =
      some (snapshot.points metricNamespace timestamp) := by
  rw [buildLines, List.mapM_cons, dataPoints_aggregateLine,
    mapM_eq_some_map (fun drops _ => dataPoints_ruleLine drops.1 drops.2)]
  simp only [Option.bind_eq_bind, Option.bind_some, Option.pure_def, Option.map_some, List.flatten_cons,
    MetricSnapshot.points, ← List.flatMap_def]
  rw [← List.map_eq_flatMap]

end Published

end CloudTrailFilter
