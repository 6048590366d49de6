import CloudTrailFilter.Model
import CloudTrailFilter.Filter.Project
import CloudTrailFilter.Process.Envelope
import CloudTrailFilter.Process.Gzip

/-!
# Buffer mode

`bufferRun` decompresses a whole object, reads its envelope, filters it record by record and
compresses the survivors. It publishes no counters; they come back as a `RecordTally` that is
committed once the object's fate is decided.
-/

namespace CloudTrailFilter.Process
open CloudTrailFilter.Json CloudTrailFilter.Filter

section Tally

/-- One object's record counters. A rule's drops are the multiplicity of its index. -/
@[ext]
structure RecordTally where
  recordsIn : ℕ
  kept : ℕ
  parseErrors : ℕ
  ruleDrops : Multiset ℕ
deriving DecidableEq

namespace RecordTally

/-- `RecordTally::default()`. -/
def empty : RecordTally := ⟨0, 0, 0, 0⟩

def recordIn (tally : RecordTally) : RecordTally := { tally with recordsIn := tally.recordsIn + 1 }

def keep (tally : RecordTally) : RecordTally := { tally with kept := tally.kept + 1 }

def dropByRule (tally : RecordTally) (ruleIdx : ℕ) : RecordTally :=
  { tally with ruleDrops := ruleIdx ::ₘ tally.ruleDrops }

def parseError (tally : RecordTally) : RecordTally :=
  { tally with parseErrors := tally.parseErrors + 1 }

/-- What a commit publishes. -/
def commit (tally : RecordTally) (engine : Engine) : Metrics :=
  { (0 : Metrics) with
    recordsIn := tally.recordsIn
    recordsKept := tally.kept
    recordsDropped := tally.recordsIn - tally.kept
    parseErrors := tally.parseErrors
    ruleDrops := tally.ruleDrops.map engine.ruleName }

end RecordTally

end Tally

/-- How an object came out. Buffer mode hands over the compressed survivors, stream mode has
already written them. -/
inductive Outcome where
  | written (body : Option Bytes)
  | nothingKept
  | unrecognized
deriving DecidableEq, Repr

def openEnvelope : Bytes := "\x7b\"Records\":[".toUTF8.toList

def closeEnvelope : Bytes := "]\x7d".toUTF8.toList

/-- The records joined by commas. -/
def joinRecords : List Bytes → Bytes
  | [] => []
  | record :: rest => record ++ (rest.map (comma :: ·)).flatten

/-- The filtered envelope of the kept records. -/
def envelopeBody (survivors : List Bytes) : Bytes := openEnvelope ++ joinRecords survivors ++ closeEnvelope

section Compress
variable (gz : Gzip)

def minChunkBytes : ℕ := 64 * 1024

/-- The size of the parts `body` is split into for `chunks` members. -/
def chunkSize (body : Bytes) (chunks : ℕ) : ℕ := (body.length + chunks - 1) / chunks

/-- Members that together decompress to `body`. -/
def gzipCompressChunked (body : Bytes) (level chunks : ℕ) : Bytes :=
  let chunks := max (min chunks (body.length / minChunkBytes)) 1
  if chunks = 1 then gz.gzipCompress body level
  else ((body.toChunks (chunkSize body chunks)).map (gz.gzipCompress · level)).flatten

end Compress

section Run
variable (gz : Gzip) (float : FloatParser) (engine : Engine) (cfg : Processing)

/-- The body of an object, read no further than one byte past the cap. A cap of `u64::MAX`
saturates in the source, where no buffer is that long. -/
def decompressCapped (input : Bytes) : Except CoreError Bytes :=
  let (out, intact) := gz.readToEnd input
  if cfg.maxObjectBytes < out.length then .error (.objectTooLarge cfg.maxObjectBytes)
  else if intact then .ok out
  else .error .gzip

/-- One round of the record loop: the tally and the survivors so far. A record that does not
parse is kept. -/
def filterStep (acc : RecordTally × List Bytes) (text : Bytes) : RecordTally × List Bytes :=
  let tally := acc.1.recordIn
  match engine.evaluateRaw float text with
  | some .keep => (tally.keep, acc.2 ++ [text])
  | some (.drop ruleIdx) => (tally.dropByRule ruleIdx, acc.2)
  | none => (tally.parseError.keep, acc.2 ++ [text])

/-- Whether a record is kept, that is, no rule drops it. -/
def keeps (text : Bytes) : Bool :=
  match engine.evaluateRaw float text with
  | some (.drop _) => false
  | _ => true

def filterRecords (records : List Bytes) : RecordTally × List Bytes :=
  records.foldl (filterStep float engine) (.empty, [])

/-- `compressFails` is a failure of the encoder or of a compression worker. -/
def bufferRun (compressFails : Bool) (input : Bytes) : Except CoreError (Outcome × RecordTally) := do
  let decompressed ← decompressCapped gz cfg input
  match envelopeFromSlice decompressed with
  | none =>
    match Value.fromSlice float decompressed with
    | some _ => .ok (.unrecognized, .empty)
    | none => .error .json
  | some records =>
    let (tally, survivors) := filterRecords float engine records
    if survivors = [] then .ok (.nothingKept, tally)
    else if compressFails then .error (.internal .compression)
    else .ok (.written (some (gzipCompressChunked gz (envelopeBody survivors) cfg.gzipLevel cfg.gzipChunks)), tally)

end Run

section Loop
variable {float : FloatParser} {engine : Engine}

/-- What the loop keeps of the tally: the survivors are the kept records, and every record
was kept or dropped by a rule. -/
structure TallyOf (tally : RecordTally) (survivors : List Bytes) : Prop where
  kept : tally.kept = survivors.length
  balance : tally.recordsIn = tally.kept + tally.ruleDrops.card

lemma TallyOf.filterStep {acc : RecordTally × List Bytes} (h : TallyOf acc.1 acc.2) (text : Bytes) :
    TallyOf (filterStep float engine acc text).1 (filterStep float engine acc text).2 := by
  obtain ⟨hkept, hbal⟩ := h
  unfold Process.filterStep
  cases engine.evaluateRaw float text with
  | none =>
    constructor
    · simp [RecordTally.recordIn, RecordTally.parseError, RecordTally.keep, hkept]
    · simp only [RecordTally.recordIn, RecordTally.parseError, RecordTally.keep]
      omega
  | some d =>
    cases d with
    | keep =>
      constructor
      · simp [RecordTally.recordIn, RecordTally.keep, hkept]
      · simp only [RecordTally.recordIn, RecordTally.keep]
        omega
    | drop ruleIdx =>
      constructor
      · simp [RecordTally.recordIn, RecordTally.dropByRule, hkept]
      · simp only [RecordTally.recordIn, RecordTally.dropByRule, Multiset.card_cons]
        omega

theorem filterRecords_tally (records : List Bytes) :
    TallyOf (filterRecords float engine records).1 (filterRecords float engine records).2 := by
  have hfold : ∀ (records : List Bytes) (acc : RecordTally × List Bytes), TallyOf acc.1 acc.2 →
      TallyOf (records.foldl (filterStep float engine) acc).1
        (records.foldl (filterStep float engine) acc).2 := by
    intro records
    induction records with
    | nil => intro acc h; exact h
    | cons text records ih => intro acc h; exact ih _ (h.filterStep text)
  exact hfold records _ ⟨rfl, rfl⟩

lemma filterStep_survivors (acc : RecordTally × List Bytes) (text : Bytes) :
    (filterStep float engine acc text).2 = acc.2 ++ [text].filter (keeps float engine) := by
  unfold filterStep
  cases hd : engine.evaluateRaw float text with
  | none => simp [keeps, hd]
  | some d => cases d <;> simp [keeps, hd]

/-- The survivors are the records no rule drops, in their order. -/
theorem filterRecords_survivors (records : List Bytes) :
    (filterRecords float engine records).2 = records.filter (keeps float engine) := by
  have hfold : ∀ (records : List Bytes) (acc : RecordTally × List Bytes),
      (records.foldl (filterStep float engine) acc).2 = acc.2 ++ records.filter (keeps float engine) := by
    intro records
    induction records with
    | nil => intro acc; simp
    | cons text records ih =>
      intro acc
      rw [List.foldl_cons, ih, filterStep_survivors, List.append_assoc, ← List.filter_append,
        List.singleton_append]
  exact hfold records (.empty, [])

end Loop

section Members
variable {gz : Gzip}

lemma flatten_toChunks (n : ℕ) (xs : Bytes) : (xs.toChunks n).flatten = xs := by
  have hgo : ∀ (n : ℕ) (xs : Bytes) (acc : Array UInt8) (out : Array (List UInt8)),
      (List.toChunks.go n xs acc out).flatten = out.toList.flatten ++ acc.toList ++ xs := by
    intro n xs
    induction xs with
    | nil => intro acc out; simp [List.toChunks.go]
    | cons x xs ih =>
      intro acc out
      rw [List.toChunks.go]
      split <;> simp [ih]
  match n, xs with
  | _, [] => simp [List.toChunks]
  | 0, x :: xs => simp [List.toChunks]
  | n + 1, x :: xs => simp [List.toChunks, hgo]

/-- At every chunk count the members decompress to the body. -/
theorem readToEnd_chunked (hgz : gz.Lawful) (body : Bytes) (level chunks : ℕ) :
    gz.readToEnd (gzipCompressChunked gz body level chunks) = (body, true) := by
  unfold gzipCompressChunked
  simp only
  split_ifs with hone
  · exact hgz.readToEnd_compress level body
  · have hne : body.toChunks (chunkSize body (max (min chunks (body.length / minChunkBytes)) 1)) ≠ [] := by
      intro hnil
      have hflat := flatten_toChunks
        (chunkSize body (max (min chunks (body.length / minChunkBytes)) 1)) body
      rw [hnil, List.flatten_nil] at hflat
      simp [← hflat] at hone
    rw [hgz.readToEnd_members level _ hne, flatten_toChunks]

end Members

end CloudTrailFilter.Process
