import CloudTrailFilter.Cli.Rules
import CloudTrailFilter.Json.Encoded
import CloudTrailFilter.Json.Struct
import CloudTrailFilter.Process.Survivors

/-!
# Trying rules on a sample

`test` says of each record in a decompressed object whether the rules keep it. It parses the whole
object at once, where buffer mode captures the text of each record and walks it on its own.
-/

namespace CloudTrailFilter.Json

section Whole

mutual

/-- Every array element, at any depth, has a text that is a document of the element. -/
def Lex.Whole : Lex → Prop
  | .arr items => ItemsWhole items
  | .obj members => MembersWhole members
  | .null | .bool _ | .num _ | .str _ => True

def ItemsWhole : List (Bytes × Lex) → Prop
  | [] => True
  | (span, v) :: rest => scanDocument span = .ok v ∧ v.Whole ∧ ItemsWhole rest

def MembersWhole : List (Bytes × Lex) → Prop
  | [] => True
  | (_, v) :: rest => v.Whole ∧ MembersWhole rest

end

variable {t : Tail} {float : FloatParser}

lemma whole_rule :
    ScanRule t (fun _ v _ => v.Whole) (fun _ _ vs _ => ItemsWhole vs) (fun _ _ ms _ => MembersWhole ms) where
  scalar := by
    intro inp v r hhd
    obtain ⟨harr, hobj⟩ := scanHead_scalar t hhd
    cases v with
    | arr items => exact (harr items rfl).elim
    | obj members => exact (hobj members rfl).elim
    | null | bool b | num lexeme | str raw => trivial
  items _ _ h := h
  members _ _ h := h
  noItem _ := trivial
  item := by
    intro first inp mid v r1 vs r _ hv h _ hrest
    obtain ⟨span, -, rfl⟩ := scanValue_eats t hv
    rw [consumed_append]
    exact ⟨scanDocument_alone hv, h, hrest⟩
  noMember _ := trivial
  member _ _ _ h _ hrest := ⟨h, hrest⟩

lemma scanDocument_whole {text : Bytes} {v : Lex} (h : scanDocument text = .ok v) : v.Whole := by
  obtain ⟨⟨v', rest⟩, hv, h⟩ := Fallible.bind_ok_iff.mp h
  obtain ⟨_, -, h⟩ := Fallible.bind_ok_iff.mp h
  cases h
  exact whole_rule.scan.1 _ _ _ hv

mutual

/-- A value that decodes with some levels of recursion decodes the same with more. -/
theorem Lex.decode_mono {depth depth' : ℕ} (hle : depth ≤ depth') :
    ∀ (v : Lex) {tree : Tree}, v.decode float depth = some tree → v.decode float depth' = some tree
  | .null, _, h => h
  | .bool _, _, h => h
  | .num _, _, h => h
  | .str _, _, h => h
  | .arr items, tree, h => by
    rw [Lex.decode] at h ⊢
    split_ifs at h with hdepth
    obtain ⟨trees, htrees, rfl⟩ := Option.map_eq_some_iff.mp h
    rw [if_neg (by omega), decodeItems_mono (Nat.sub_le_sub_right hle 1) items htrees]
    rfl
  | .obj members, tree, h => by
    rw [Lex.decode] at h ⊢
    split_ifs at h with hdepth
    obtain ⟨trees, htrees, rfl⟩ := Option.map_eq_some_iff.mp h
    rw [if_neg (by omega), decodeMembers_mono (Nat.sub_le_sub_right hle 1) members htrees]
    rfl

theorem decodeItems_mono {depth depth' : ℕ} (hle : depth ≤ depth') :
    ∀ (items : List (Bytes × Lex)) {trees : List Tree},
      decodeItems float depth items = some trees → decodeItems float depth' items = some trees
  | [], _, h => h
  | (_, v) :: rest, trees, h => by
    obtain ⟨tree, htree, h⟩ := Option.bind_eq_some_iff.mp h
    obtain ⟨trees', htrees, h⟩ := Option.bind_eq_some_iff.mp h
    cases h
    rw [decodeItems, Lex.decode_mono hle v htree, decodeItems_mono hle rest htrees]
    rfl

theorem decodeMembers_mono {depth depth' : ℕ} (hle : depth ≤ depth') :
    ∀ (members : List (Bytes × Lex)) {trees : List (String × Tree)},
      decodeMembers float depth members = some trees → decodeMembers float depth' members = some trees
  | [], _, h => h
  | (key, v) :: rest, trees, h => by
    obtain ⟨name, hname, h⟩ := Option.bind_eq_some_iff.mp h
    obtain ⟨tree, htree, h⟩ := Option.bind_eq_some_iff.mp h
    obtain ⟨trees', htrees, h⟩ := Option.bind_eq_some_iff.mp h
    cases h
    rw [decodeMembers, hname, Option.bind_eq_bind, Option.bind_some, Lex.decode_mono hle v htree,
      decodeMembers_mono hle rest htrees]
    rfl

end

end Whole

end CloudTrailFilter.Json

namespace CloudTrailFilter.Cli
open CloudTrailFilter.Json CloudTrailFilter.Filter CloudTrailFilter.Process

section Read
variable (float : FloatParser)

/-- The text of a raw value inside a `Value` is parsed in its turn. -/
def rawValue (s : String) : Option Value := Value.fromSlice float s.toUTF8.toList

/-- The envelope of a sample, each record parsed. -/
structure Sample where
  records : List Value

/-- `Sample::deserialize`. A record stands two levels into the text. -/
def Sample.read (v : Lex) : Option Sample := do
  match ← v.fields ["Records"] with
  | [some (.arr items)] =>
    let trees ← decodeItems float (recursionLimit - 2) items
    let records ← itemsToValue (rawValue float) trees
    some ⟨records⟩
  | _ => none

def Sample.fromSlice (text : Bytes) : Option Sample := (scanDocument text).toOption.bind (Sample.read float)

/-- A record as `test` reads it, from its own text. -/
def recordValue (record : Bytes) : Option Value :=
  (scanDocument record).toOption.bind (fun v => (v.decode float (recursionLimit - 2)).bind
    (Tree.toValue (rawValue float)))

/-- The struct of buffer mode takes the same texts as the one of `test`, up to what it makes of a record. -/
lemma envelopeFields_eq (found : Option (List Bytes)) (members : List (Bytes × Lex)) :
    envelopeFields found members = (namedFields members).bind (fun fields =>
      match found, fields.filter (fun f => f.1 = "Records") with
      | found, [] => found
      | none, [(_, .arr items)] => rawValues items
      | _, _ => none) := by
  induction members generalizing found with
  | nil => cases found <;> rfl
  | cons member rest ih =>
    obtain ⟨key, v⟩ := member
    cases hkey : decodeString key with
    | none => simp [envelopeFields, namedFields, hkey]
    | some name =>
      by_cases hrecords : name = "Records"
      · subst hrecords
        cases hfields : namedFields rest with
        | none =>
          have hnone : ∀ records, envelopeFields (some records) rest = none := by
            intro records
            rw [ih, hfields]
            rfl
          cases found <;> cases v <;> simp [envelopeFields, namedFields, hkey, hfields, hnone]
        | some fields =>
          have hrest : ∀ records, envelopeFields (some records) rest =
              if fields.filter (fun f => f.1 = "Records") = [] then some records else none := by
            intro records
            rw [ih, hfields, Option.bind_some]
            cases fields.filter (fun f => f.1 = "Records") <;> simp
          simp only [envelopeFields, namedFields, hkey, hfields, hrest, Option.bind_eq_bind, Option.bind_some, if_true]
          cases found with
          | some records => cases v <;> simp
          | none =>
            cases v with
            | arr items => cases rawValues items <;> cases hmore : fields.filter (fun f => f.1 = "Records") <;> simp [hmore]
            | _ => cases hmore : fields.filter (fun f => f.1 = "Records") <;> simp [hmore]
      · simp only [envelopeFields, namedFields, hkey, Option.bind_eq_bind, Option.bind_some, if_neg hrecords, ih]
        cases namedFields rest with
        | none => rfl
        | some fields => simp [hrecords]

/-- Parsed in place or from their own texts, the records of an array are the same. -/
lemma items_read_alone {items : List (Bytes × Lex)} (hwhole : ItemsWhole items) :
    (decodeItems float (recursionLimit - 2) items).bind
        (itemsToValue (rawValue float)) =
      (rawValues items).bind (fun records => records.mapM (recordValue float)) := by
  induction items with
  | nil => rfl
  | cons item rest ih =>
    obtain ⟨span, v⟩ := item
    obtain ⟨hspan, -, hrest⟩ := hwhole
    have hread : recordValue float span = (v.decode float (recursionLimit - 2)).bind
        (Tree.toValue (rawValue float)) := by
      rw [recordValue, hspan]
      rfl
    rw [decodeItems, rawValues]
    cases htree : v.decode float (recursionLimit - 2) with
    | none =>
      rw [htree] at hread
      cases isUtf8 span <;> cases rawValues rest <;> simp [hread]
    | some tree =>
      rw [htree, Option.bind_some] at hread
      specialize ih hrest
      rw [if_pos (isUtf8_of_decode hspan htree)]
      have hleft : ((decodeItems float (recursionLimit - 2) rest).bind (fun trees => some (tree :: trees))).bind
          (itemsToValue (rawValue float)) = (tree.toValue (rawValue float)).bind (fun value =>
            ((decodeItems float (recursionLimit - 2) rest).bind (itemsToValue (rawValue float))).map (value :: ·)) := by
        cases decodeItems float (recursionLimit - 2) rest with
        | none => cases tree.toValue (rawValue float) <;> rfl
        | some trees =>
          simp only [Option.bind_some, itemsToValue]
          cases tree.toValue (rawValue float) with
          | none => rfl
          | some value => cases itemsToValue (rawValue float) trees <;> rfl
      have hright : ((rawValues rest).map (span :: ·)).bind (fun records => records.mapM (recordValue float)) =
          (recordValue float span).bind (fun value =>
            ((rawValues rest).bind (fun records => records.mapM (recordValue float))).map (value :: ·)) := by
        cases rawValues rest with
        | none => cases recordValue float span <;> rfl
        | some records =>
          simp only [Option.map_some, Option.bind_some, List.mapM_cons]
          cases recordValue float span with
          | none => rfl
          | some value => cases records.mapM (recordValue float) <;> rfl
      rw [hright, ← ih, hread]
      exact hleft

lemma read_array {items : List (Bytes × Lex)} (hwhole : ItemsWhole items) :
    (decodeItems float (recursionLimit - 2) items).bind (fun trees =>
        (itemsToValue (rawValue float) trees).bind (fun records => some (Sample.mk records))) =
      (rawValues items).bind (fun records => (records.mapM (recordValue float)).map Sample.mk) := by
  have h := congrArg (Option.map Sample.mk) (items_read_alone float hwhole)
  simpa only [Option.map_eq_bind, Option.bind_assoc, Function.comp_def] using h

lemma whole_of_namedFields {members : List (Bytes × Lex)} (hwhole : MembersWhole members) {fields : List (String × Lex)}
    (h : namedFields members = some fields) : ∀ field ∈ fields, field.2.Whole := by
  induction members generalizing fields with
  | nil =>
    cases h
    simp
  | cons member rest ih =>
    obtain ⟨key, v⟩ := member
    obtain ⟨name, -, h⟩ := Option.bind_eq_some_iff.mp h
    obtain ⟨fields', hfields, h⟩ := Option.bind_eq_some_iff.mp h
    cases h
    intro field hfield
    rcases List.mem_cons.mp hfield with rfl | hfield
    · exact hwhole.1
    · exact ih hwhole.2 hfields field hfield

lemma read_eq {v : Lex} (hwhole : v.Whole) : Sample.read float v =
    (envelopeOf v).bind (fun records => (records.mapM (recordValue float)).map Sample.mk) := by
  cases v with
  | obj members =>
    rw [envelopeOf, envelopeFields_eq, Sample.read, Lex.fields]
    cases hfields : namedFields members with
    | none => rfl
    | some fields =>
      simp only [Option.bind_eq_bind, Option.bind_some, List.mapM_cons, List.mapM_nil, fieldOf]
      cases hfilter : fields.filter (fun f => f.1 = "Records") with
      | nil => rfl
      | cons field more =>
        cases more with
        | cons field' more => simp
        | nil =>
          obtain ⟨name, v⟩ := field
          have hmem : (name, v) ∈ fields := List.mem_of_mem_filter (by rw [hfilter]; exact List.mem_singleton_self _)
          have hv := whole_of_namedFields hwhole hfields _ hmem
          cases v with
          | arr items => exact read_array float hv
          | _ => rfl
  | arr items =>
    rcases items with _ | ⟨⟨span, v⟩, _ | ⟨second, rest⟩⟩
    · rfl
    · obtain ⟨-, hv, -⟩ := hwhole
      cases v with
      | arr items => exact read_array float hv
      | _ => rfl
    · simp [Sample.read, Lex.fields, envelopeOf]
  | null | bool b | num lexeme | str raw => rfl

/-- `test` reads of a sample what buffer mode captures of it, each record parsed from its text. -/
theorem sample_read_alone (text : Bytes) : Sample.fromSlice float text =
    (envelopeFromSlice text).bind (fun records => (records.mapM (recordValue float)).map Sample.mk) := by
  rw [Sample.fromSlice, envelopeFromSlice]
  cases h : scanDocument text with
  | error e => rfl
  | ok v => exact read_eq float (scanDocument_whole h)

end Read

section Test
variable (gz : Gzip) (float : FloatParser) (debug : String → String) (percent : ℕ → ℕ → String)

/-- Why `test` ends with an error. -/
inductive TestError where
  | rules (error : RulesError)
  | unread (path message : String)
  | decompress (path : String)
  | envelope (path : String)

/-- What `test` prints, and how it ends. -/
structure Tested where
  stdout : List String
  result : Except TestError Unit

/-- The line of a record, counted from 1. -/
def verdictLine (engine : Engine) (record : ℕ) : Decision → String
  | .keep => "KEEP  record " ++ toString record
  | .drop ruleIdx => "DROP  record " ++ toString record ++ " (rule: \"" ++ engine.ruleName ruleIdx ++ "\")"

/-- `percent n total` is how `n` of `total` prints in percent, with one decimal. -/
def summaryLine (kept dropped : ℕ) : String :=
  "summary: " ++ toString (kept + dropped) ++ " records, " ++ toString kept ++ " kept (" ++
    percent kept (kept + dropped) ++ "%), " ++ toString dropped ++ " dropped (" ++ percent dropped (kept + dropped) ++ "%)"

/-- One round of the loop: the records kept and dropped so far, and the lines printed. -/
def testRound (engine : Engine) (acc : ℕ × ℕ × List String) (record : Value × ℕ) : ℕ × ℕ × List String :=
  let decision := engine.evaluate record.1
  let lines := acc.2.2 ++ [verdictLine engine (record.2 + 1) decision]
  match decision with
  | .keep => (acc.1 + 1, acc.2.1, lines)
  | .drop _ => (acc.1, acc.2.1 + 1, lines)

def readSample (path : String) (read : Except String Bytes) : Except TestError Sample := do
  let gzBytes ← read.mapError (fun message => TestError.unread (debug path) message)
  match gz.readToEnd gzBytes with
  | (_, false) => .error (.decompress (debug path))
  | (decompressed, true) =>
    match Sample.fromSlice float decompressed with
    | none => .error (.envelope (debug path))
    | some sample => .ok sample

def cmdTest (loaded : Except RulesError (Engine × RuleSet)) (path : String) (read : Except String Bytes) : Tested :=
  match loaded with
  | .error e => ⟨[], .error (.rules e)⟩
  | .ok (engine, _) =>
    match readSample gz float debug path read with
    | .error e => ⟨[], .error e⟩
    | .ok sample =>
      let (kept, dropped, lines) := sample.records.zipIdx.foldl (testRound engine) (0, 0, [])
      ⟨lines ++ [summaryLine percent kept dropped], .ok ()⟩

end Test

section Preview
variable {gz : Gzip} {float : FloatParser} {debug : String → String} {percent : ℕ → ℕ → String}
variable {B : RulesBackend} {places : Places} {uri : String} {engine : Engine} {rs : RuleSet}

/-- The rule a record was dropped by. -/
def droppedBy : Decision → Option ℕ
  | .keep => none
  | .drop ruleIdx => some ruleIdx

@[simp] lemma filterMap_droppedBy_keep (verdicts : List Decision) :
    (Decision.keep :: verdicts).filterMap droppedBy = verdicts.filterMap droppedBy := rfl

@[simp] lemma filterMap_droppedBy_drop (ruleIdx : ℕ) (verdicts : List Decision) :
    (Decision.drop ruleIdx :: verdicts).filterMap droppedBy = ruleIdx :: verdicts.filterMap droppedBy := rfl

/-- The records whose verdict is to keep them. -/
def keptOf (records : List Bytes) (verdicts : List Decision) : List Bytes :=
  ((records.zip verdicts).filter (fun r => r.2 = .keep)).map Prod.fst

lemma testRound_fold (records : List Value) (n kept dropped : ℕ) (lines : List String) :
    (records.zipIdx n).foldl (testRound engine) (kept, dropped, lines) =
      (kept + (records.map engine.evaluate).count .keep,
        dropped + ((records.map engine.evaluate).filterMap droppedBy).length,
        lines ++ ((records.map engine.evaluate).zipIdx n).map (fun d => verdictLine engine (d.2 + 1) d.1)) := by
  induction records generalizing n kept dropped lines with
  | nil => simp
  | cons record rest ih =>
    rw [List.zipIdx_cons, List.foldl_cons]
    cases hdecision : engine.evaluate record with
    | keep =>
      simp only [testRound, hdecision, ih, List.map_cons, List.zipIdx_cons, filterMap_droppedBy_keep, List.count_cons_self,
        Nat.add_assoc, List.append_assoc, List.singleton_append]
      simp [Nat.add_comm]
    | drop ruleIdx =>
      simp only [testRound, hdecision, ih, List.map_cons, List.zipIdx_cons, filterMap_droppedBy_drop, List.length_cons,
        Nat.add_assoc, List.append_assoc, List.singleton_append]
      simp [Nat.add_comm]

/-- The record loop of buffer mode when every record parses. -/
lemma filterStep_fold {records : List Bytes} {verdicts : List Decision}
    (h : records.map (engine.evaluateRaw float) = verdicts.map some) (acc : RecordTally × List Bytes) :
    records.foldl (filterStep float engine) acc =
      (⟨acc.1.recordsIn + verdicts.length, acc.1.kept + verdicts.count .keep, acc.1.parseErrors,
        (verdicts.filterMap droppedBy : Multiset ℕ) + acc.1.ruleDrops⟩, acc.2 ++ keptOf records verdicts) := by
  induction records generalizing verdicts acc with
  | nil =>
    obtain rfl : verdicts = [] := by simpa using h.symm
    simp [keptOf]
  | cons record rest ih =>
    cases verdicts with
    | nil => simp at h
    | cons verdict verdicts =>
      obtain ⟨hverdict, hrest⟩ := List.cons.inj h
      rw [List.foldl_cons, ih hrest]
      cases verdict with
      | keep =>
        simp [filterStep, hverdict, RecordTally.recordIn, RecordTally.keep, keptOf, droppedBy]
        omega
      | drop ruleIdx =>
        simp [filterStep, hverdict, RecordTally.recordIn, RecordTally.dropByRule, keptOf, droppedBy]
        refine ⟨by omega, ?_⟩
        rw [← Multiset.cons_coe, Multiset.cons_add]

/-- A record that `test` parses is decided as its text is, unless it has the key of a raw value. -/
lemma evaluateRaw_of_recordValue (hbuilt : engine.Built) {record : Bytes} {value : Value}
    (hvalue : recordValue float record = some value)
    (hfree : ∀ tree, Tree.fromSlice float record = some tree → tree.tokenFree = true) :
    engine.evaluateRaw float record = some (engine.evaluate value) := by
  obtain ⟨v, hv, hvalue⟩ := Option.bind_eq_some_iff.mp hvalue
  obtain ⟨tree, htree, hvalue⟩ := Option.bind_eq_some_iff.mp hvalue
  have hslice : Tree.fromSlice float record = some tree := by
    cases hscan : scanDocument record with
    | error e =>
      rw [hscan] at hv
      cases hv
    | ok v' =>
      rw [hscan] at hv
      cases hv
      rw [Tree.fromSlice, hscan]
      exact Lex.decode_mono (Nat.sub_le _ _) v htree
  rw [Tree.toValue_eq_plain _ tree (hfree tree hslice), Option.some.injEq] at hvalue
  rw [hbuilt.evaluateRaw_eq hslice (hfree tree hslice), hvalue]

lemma verdicts_agree (hbuilt : engine.Built) {records : List Bytes} {values : List Value}
    (hvalues : records.mapM (recordValue float) = some values)
    (hfree : ∀ record ∈ records, ∀ tree, Tree.fromSlice float record = some tree → tree.tokenFree = true) :
    records.map (engine.evaluateRaw float) = (values.map engine.evaluate).map some := by
  induction records generalizing values with
  | nil =>
    cases hvalues
    rfl
  | cons record rest ih =>
    rw [List.mapM_cons] at hvalues
    obtain ⟨value, hvalue, hvalues⟩ := Option.bind_eq_some_iff.mp hvalues
    obtain ⟨values', hvalues', hvalues⟩ := Option.bind_eq_some_iff.mp hvalues
    cases hvalues
    rw [List.map_cons, List.map_cons, List.map_cons, ih hvalues' (fun r hr => hfree r (by simp [hr])),
      evaluateRaw_of_recordValue hbuilt hvalue (hfree record (by simp))]

lemma readSample_ok_iff {path : String} {input text : Bytes} (hinput : gz.readToEnd input = (text, true)) {sample : Sample} :
    readSample gz float debug path (.ok input) = .ok sample ↔ Sample.fromSlice float text = some sample := by
  simp only [readSample, Except.mapError, Fallible.ok_bind, hinput]
  cases Sample.fromSlice float text with
  | none => simp
  | some sample' => simp

/-- The count of the verdicts that drop is that of the rules they name. -/
lemma count_keep_add_drops (verdicts : List Decision) :
    verdicts.count .keep + (verdicts.filterMap droppedBy).length = verdicts.length := by
  induction verdicts with
  | nil => rfl
  | cons verdict rest ih =>
    cases verdict with
    | keep =>
      rw [filterMap_droppedBy_keep, List.count_cons_self, List.length_cons]
      omega
    | drop ruleIdx =>
      rw [filterMap_droppedBy_drop, List.length_cons, List.length_cons, List.count_cons_of_ne (by simp)]
      omega

/-- What `test` says is what the function does. It accepts a sample exactly when buffer mode finds
records in it and each of them parses, two levels of recursion short of the limit. Then, if no
record has the key of a raw value, its lines are the verdicts of buffer mode in order: under any cap
that the sample is within, buffer mode keeps the records with a line that says so, as they are, and
counts what the summary says, with no parse error. -/
theorem test_previews_buffer (h : loadEngine debug places B uri = .ok (engine, rs)) (path : String) {input text : Bytes}
    (hinput : gz.readToEnd input = (text, true)) :
    ((cmdTest gz float debug percent (loadEngine debug places B uri) path (.ok input)).result = .ok () ↔
      ∃ records, envelopeFromSlice text = some records ∧ ∀ record ∈ records, (recordValue float record).isSome = true) ∧
    ∀ records, envelopeFromSlice text = some records →
      (∀ record ∈ records, (recordValue float record).isSome = true) →
      (∀ record ∈ records, ∀ tree, Tree.fromSlice float record = some tree → tree.tokenFree = true) →
      ∃ verdicts : List Decision, records.map (engine.evaluateRaw float) = verdicts.map some ∧
        (cmdTest gz float debug percent (loadEngine debug places B uri) path (.ok input)).stdout =
          verdicts.zipIdx.map (fun d => verdictLine engine (d.2 + 1) d.1) ++
            [summaryLine percent (verdicts.count .keep) (verdicts.length - verdicts.count .keep)] ∧
        ∀ cfg : Processing, text.length ≤ cfg.maxObjectBytes →
          bufferRun gz float engine cfg false input =
            .ok (if keptOf records verdicts = [] then .nothingKept
                else .written (some (gzipCompressChunked gz (envelopeBody (keptOf records verdicts)) cfg.gzipLevel
                  cfg.gzipChunks)),
              ⟨verdicts.length, verdicts.count .keep, 0, (verdicts.filterMap droppedBy : Multiset ℕ)⟩) := by
  obtain ⟨-, -, -, hengine⟩ := loadEngine_ok_iff.mp h
  have hbuilt := Engine.new_built B hengine
  have hmapM : ∀ records : List Bytes, (∀ record ∈ records, (recordValue float record).isSome = true) ↔
      ∃ values, records.mapM (recordValue float) = some values :=
    fun _ => Fallible.mapM_isSome_iff.symm.trans Option.isSome_iff_exists
  rw [h]
  constructor
  · have hread : (cmdTest gz float debug percent (.ok (engine, rs)) path (.ok input)).result = .ok () ↔
        ∃ sample, readSample gz float debug path (.ok input) = .ok sample := by
      rw [cmdTest]
      cases readSample gz float debug path (.ok input) <;> simp
    rw [hread]
    simp only [readSample_ok_iff hinput, sample_read_alone, hmapM, Option.bind_eq_some_iff, Option.map_eq_some_iff]
    constructor
    · rintro ⟨sample, records, hrecords, values, hvalues, -⟩
      exact ⟨records, hrecords, values, hvalues⟩
    · rintro ⟨records, hrecords, values, hvalues⟩
      exact ⟨⟨values⟩, records, hrecords, values, hvalues, rfl⟩
  · intro records hrecords hparse hfree
    obtain ⟨values, hvalues⟩ := (hmapM records).mp hparse
    have hverdicts := verdicts_agree hbuilt hvalues hfree
    have hsample : readSample gz float debug path (.ok input) = .ok ⟨values⟩ := by
      rw [readSample_ok_iff hinput, sample_read_alone, hrecords, Option.bind_some, hvalues, Option.map_some]
    refine ⟨values.map engine.evaluate, hverdicts, ?_, ?_⟩
    · have hcount := count_keep_add_drops (values.map engine.evaluate)
      rw [cmdTest]
      simp only [hsample, testRound_fold, Nat.zero_add, List.nil_append]
      congr 3
      omega
    · intro cfg hcap
      have hloop := filterStep_fold hverdicts (.empty, [])
      rw [bufferRun_of_envelope ((decompressCapped_fits hinput hcap).trans (if_pos rfl)) hrecords, filterRecords, hloop]
      simp only [RecordTally.empty, Nat.zero_add, List.nil_append, add_zero, Bool.false_eq_true, if_false]
      split_ifs <;> rfl

/-- A record that the first of the sample rules drops, and one that none does. -/
def sampleObject : Bytes :=
  ("\x7b\"Records\":[\x7b\"eventSource\":\"kms.amazonaws.com\",\"eventName\":\"Decrypt\"\x7d, " ++
    "\x7b\"eventName\":\"Encrypt\",\"userIdentity\":\x7b\"type\":\"Role\"\x7d\x7d]\x7d").toUTF8.toList

theorem test_previews_buffer_sample : ∃ (records : List Bytes) (verdicts : List Decision) (engine : Engine),
    envelopeFromSlice sampleObject = some records ∧
    records.map (engine.evaluateRaw (fun _ => none)) = verdicts.map some ∧
    (cmdTest storedGzip (fun _ => none) id (fun n _ => toString n) (loadEngine id samplePlaces sampleBackend "rules.yaml")
        "sample.json.gz" (.ok (storedGzip.gzipCompress sampleObject 6))).stdout =
      verdicts.zipIdx.map (fun d => verdictLine engine (d.2 + 1) d.1) ++
        [summaryLine (fun n _ => toString n) (verdicts.count .keep) (verdicts.length - verdicts.count .keep)] ∧
    ∃ outcome, bufferRun storedGzip (fun _ => none) engine sampleProcessing false
        (storedGzip.gzipCompress sampleObject 6) =
      .ok (outcome, ⟨verdicts.length, verdicts.count .keep, 0, (verdicts.filterMap droppedBy : Multiset ℕ)⟩) := by
  obtain ⟨engine, hengine⟩ : ∃ engine, Engine.new sampleBackend sampleRules = .ok engine := ⟨_, rfl⟩
  have hload : loadEngine id samplePlaces sampleBackend "rules.yaml" = .ok (engine, sampleRules) := by
    refine loadEngine_ok_iff.mpr ⟨[], ?_, sampleRules_parse, hengine⟩
    have hpath : ¬"://".toList <:+: "rules.yaml".toList := by decide
    rw [loadRulesBytes, if_neg hpath]
    rfl
  have hinput := storedGzip_lawful.readToEnd_compress 6 sampleObject
  obtain ⟨records, hrecords⟩ := Option.isSome_iff_exists.mp
    (show (envelopeFromSlice sampleObject).isSome = true by decide +kernel)
  have hparse : (envelopeFromSlice sampleObject).all (fun records => records.all (fun record =>
      (recordValue (fun _ => none) record).isSome && (Tree.fromSlice (fun _ => none) record).all Tree.tokenFree)) =
      true := by decide +kernel
  simp only [hrecords, Option.all_some, List.all_eq_true, Bool.and_eq_true] at hparse
  obtain ⟨verdicts, hverdicts, hstdout, hruns⟩ := (test_previews_buffer hload "sample.json.gz" hinput).2 records hrecords
    (fun record hr => (hparse record hr).1) (fun record hr tree htree => by simpa [htree] using (hparse record hr).2)
  have hcap : sampleObject.length ≤ sampleProcessing.maxObjectBytes := by decide +kernel
  exact ⟨records, verdicts, engine, hrecords, hverdicts, hstdout, _, hruns sampleProcessing hcap⟩

end Preview

end CloudTrailFilter.Cli
