import CloudTrailFilter.Filter.Meaning
import CloudTrailFilter.Process.Survivors

/-!
# Filters in series

An object that one deployment has filtered may be the source of another. The second one reads back
the records that the first has kept, so that two filters in series do what a single filter does under
the rules of the first and then those of the second, and what is left at the end does not depend on
which of the two comes first.
-/

namespace CloudTrailFilter

namespace Filter
open CloudTrailFilter.Json

section Verdicts

/-- The decision under the rules of two engines, of which the first has `n`. -/
def Decision.andThen (first : Decision) (n : ℕ) (second : Decision) : Decision :=
  match first, second with
  | .drop ruleIdx, _ => .drop ruleIdx
  | .keep, .drop ruleIdx => .drop (n + ruleIdx)
  | .keep, .keep => .keep

lemma firstFiring_add (n m : ℕ) (fires : ℕ → Bool) :
    firstFiring (n + m) fires = (firstFiring n fires).andThen n (firstFiring m (fun j => fires (n + j))) := by
  unfold firstFiring
  rw [List.range_add, List.find?_append, List.find?_map]
  cases (List.range n).find? fires with
  | some i => rfl
  | none =>
    have hcomp : (fires ∘ fun j => n + j) = fun j => fires (n + j) := rfl
    rw [Option.none_or, hcomp]
    cases (List.range m).find? (fun j => fires (n + j)) with
    | some i => rfl
    | none => rfl

variable {B : RulesBackend} {version : String} {rules more : List Rule} {first second both : Engine}

/-- Rules that are added at the end decide what the rules before them leave. -/
lemma evaluateLinear_append (hfirst : Engine.new B ⟨version, rules⟩ = .ok first)
    (hsecond : Engine.new B ⟨version, more⟩ = .ok second) (hboth : Engine.new B ⟨version, rules ++ more⟩ = .ok both)
    (record : Value) : both.evaluateLinear record =
      (first.evaluateLinear record).andThen rules.length (second.evaluateLinear record) := by
  obtain ⟨major, hmajor⟩ := major_of_new hfirst
  obtain ⟨hlen₁, hfires₁⟩ := ruleFires_iff hfirst hmajor
  obtain ⟨hlen₂, hfires₂⟩ := ruleFires_iff hsecond hmajor
  obtain ⟨hlen, hfires⟩ := ruleFires_iff hboth hmajor
  have hleft : ∀ i < rules.length, both.ruleFires i record = first.ruleFires i record := by
    intro i hi
    rw [Bool.eq_iff_iff, hfires, hfires₁, List.getElem?_append_left hi]
  have hright : ∀ j, both.ruleFires (rules.length + j) record = second.ruleFires j record := by
    intro j
    rw [Bool.eq_iff_iff, hfires, hfires₂, List.getElem?_append_right (Nat.le_add_right _ _), Nat.add_sub_cancel_left]
  rw [Engine.evaluateLinear, Engine.evaluateLinear, Engine.evaluateLinear, hlen, hlen₁, hlen₂, List.length_append,
    firstFiring_add, firstFiring_congr (fun i hi => hleft i hi), firstFiring_congr (fun j _ => hright j)]

/-- The regexes of some rules match nothing outside the literals taken from their patterns. -/
def PatternsSound (B : RulesBackend) (rules : List Rule) : Prop :=
  ∀ rule ∈ rules, ∀ m ∈ rule.matches, ∀ pattern, m.op = .regex pattern → ∀ isMatch, B.regexBuild pattern = .ok isMatch →
    ∀ L, extractLiterals pattern = some L → ∀ s, isMatch s = true → s ∈ L

lemma literalsSound_of_patterns {rs : RuleSet} {engine : Engine} (hnew : Engine.new B rs = .ok engine)
    (hsound : PatternsSound B rs.rules) : engine.LiteralsSound := by
  intro rule hrule m hm re hre L hL s hs
  obtain ⟨r, hr, m', hm', hop, hbuild⟩ := Engine.new_regex B hnew hrule hm hre
  exact hsound r hr m' hm' re.pattern hop re.isMatch hbuild L hL s hs

lemma evaluate_of_patterns {rs : RuleSet} {engine : Engine} (hnew : Engine.new B rs = .ok engine)
    (hsound : PatternsSound B rs.rules) (record : Value) : engine.evaluate record = engine.evaluateLinear record :=
  Engine.evaluate_of_sound (Engine.new_built B hnew) (literalsSound_of_patterns hnew hsound) record

/-- What one engine decides, and the other where it keeps, on the text of a record. -/
def InSeries (float : FloatParser) (n : ℕ) (first second both : Engine) (text : Bytes) : Prop :=
  match first.evaluateRaw float text, second.evaluateRaw float text with
  | some v, some w => both.evaluateRaw float text = some (v.andThen n w)
  | none, none => both.evaluateRaw float text = none
  | _, _ => False

lemma inSeries_of_append (hfirst : Engine.new B ⟨version, rules⟩ = .ok first)
    (hsecond : Engine.new B ⟨version, more⟩ = .ok second) (hboth : Engine.new B ⟨version, rules ++ more⟩ = .ok both)
    (hsound : PatternsSound B (rules ++ more)) {float : FloatParser} {text : Bytes}
    (hfree : ∀ tree, Tree.fromSlice float text = some tree → tree.tokenFree = true) :
    InSeries float rules.length first second both text := by
  unfold InSeries
  cases htree : Tree.fromSlice float text with
  | none => simp only [evaluateRaw_eq_none htree]
  | some tree =>
    have hraw := fun {rs engine} (hnew : Engine.new B rs = .ok engine) =>
      (Engine.new_built B hnew).evaluateRaw_eq htree (hfree tree htree)
    have hrules : PatternsSound B rules := fun rule hrule => hsound rule (List.mem_append_left _ hrule)
    have hmore : PatternsSound B more := fun rule hrule => hsound rule (List.mem_append_right _ hrule)
    simp only [hraw hfirst, hraw hsecond, hraw hboth, Option.some.injEq]
    rw [evaluate_of_patterns hfirst hrules, evaluate_of_patterns hsecond hmore, evaluate_of_patterns hboth hsound,
      evaluateLinear_append hfirst hsecond hboth]

end Verdicts

end Filter

namespace Process
open CloudTrailFilter.Json CloudTrailFilter.Filter CloudTrailFilter.Fallible

section Loops
variable {float : FloatParser} {n : ℕ} {first second both : Engine}

/-- The tally of a filter that does the work of two: it takes in what the first does, keeps what the
second does and counts the drops of both. -/
def RecordTally.andThen (one : RecordTally) (n : ℕ) (two : RecordTally) : RecordTally :=
  ⟨one.recordsIn, two.kept, two.parseErrors, one.ruleDrops + two.ruleDrops.map (n + ·)⟩

lemma filterRecords_concat (engine : Engine) (records : List Bytes) (text : Bytes) :
    filterRecords float engine (records ++ [text]) = filterStep float engine (filterRecords float engine records) text := by
  simp [filterRecords]

/-- The loop under the rules of both, against the loop of the second over what the first has kept. -/
lemma filterRecords_series {records : List Bytes} (h : ∀ text ∈ records, InSeries float n first second both text) :
    let one := filterRecords float first records
    let two := filterRecords float second one.2
    filterRecords float both records = (one.1.andThen n two.1, two.2) := by
  induction records using List.reverseRecOn with
  | nil => rfl
  | append_singleton records text ih =>
    have hinit := ih (fun r hr => h r (List.mem_append_left _ hr))
    have hlast := h text (by simp)
    simp only at hinit ⊢
    rw [filterRecords_concat, hinit, filterRecords_concat]
    generalize filterRecords float first records = one
    unfold InSeries at hlast
    cases hv : first.evaluateRaw float text with
    | none =>
      -- a record that does not parse goes through all three
      cases hw : second.evaluateRaw float text with
      | some w => simp [hv, hw] at hlast
      | none =>
        simp only [hv, hw] at hlast
        simp only [filterStep, hv, hw, hlast, filterRecords_concat, RecordTally.andThen, RecordTally.recordIn,
          RecordTally.parseError, RecordTally.keep]
    | some v =>
      cases hw : second.evaluateRaw float text with
      | none => simp [hv, hw] at hlast
      | some w =>
        simp only [hv, hw] at hlast
        cases v with
        | drop ruleIdx =>
          simp only [filterStep, hv, hlast, Decision.andThen, RecordTally.andThen, RecordTally.recordIn,
            RecordTally.dropByRule, Multiset.cons_add]
        | keep =>
          cases w with
          | keep =>
            simp only [filterStep, hv, hw, hlast, filterRecords_concat, Decision.andThen, RecordTally.andThen,
              RecordTally.recordIn, RecordTally.keep]
          | drop ruleIdx =>
            simp only [filterStep, hv, hw, hlast, filterRecords_concat, Decision.andThen, RecordTally.andThen,
              RecordTally.recordIn, RecordTally.keep, RecordTally.dropByRule, Multiset.map_cons, Multiset.add_cons]

/-- What a loop that keeps nothing counts. -/
lemma filterRecords_nothing {engine : Engine} {records : List Bytes} (h : (filterRecords float engine records).2 = []) :
    (filterRecords float engine records).1.kept = 0 ∧ (filterRecords float engine records).1.parseErrors = 0 := by
  refine ⟨by rw [(filterRecords_tally records).kept, h, List.length_nil], ?_⟩
  rw [filterRecords_survivors, filter_keeps_eq_nil_iff] at h
  rw [(filterRecords_counts records).2, List.countP_eq_zero]
  intro record hr hnone
  obtain ⟨ruleIdx, hdrop⟩ := h record hr
  simp [hdrop] at hnone

end Loops

section Objects

lemma joinRecords_length (records : List Bytes) :
    (joinRecords records).length = (records.map (fun record => record.length + 1)).sum - 1 := by
  cases records with
  | nil => rfl
  | cons record rest =>
    have hrest : ((rest.map (comma :: ·)).flatten).length = (rest.map (fun record => record.length + 1)).sum := by
      rw [List.length_flatten, List.map_map]
      rfl
    rw [joinRecords, List.length_append, hrest, List.map_cons, List.sum_cons]
    omega

/-- Fewer records make a shorter envelope. -/
lemma envelopeBody_length_le {records more : List Bytes} (h : records.Sublist more) :
    (envelopeBody records).length ≤ (envelopeBody more).length := by
  have hsum := (h.map (fun record => record.length + 1)).sum_le_sum (by simp)
  simp only [envelopeBody, List.length_append, joinRecords_length]
  omega

variable (gz : Gzip) (float : FloatParser) (cfg : Processing)

/-- An object that a first filter takes in, and a second one what the first has written. -/
def filteredTwice (n : ℕ) (first second : Engine) (input : Bytes) : Except CoreError (Outcome × RecordTally) := do
  let (outcome, one) ← bufferRun gz float first cfg false input
  match outcome with
  | .written (some written) => do
    let (outcome, two) ← bufferRun gz float second cfg false written
    .ok (outcome, one.andThen n two)
  | _ => .ok (outcome, one)

variable {gz float cfg}

/-- What a run leaves of the records of an envelope. -/
def leaves (gz : Gzip) (cfg : Processing) (survivors : List Bytes) : Outcome :=
  if survivors = [] then .nothingKept
  else .written (some (gzipCompressChunked gz (envelopeBody survivors) cfg.gzipLevel cfg.gzipChunks))

lemma bufferRun_leaves {engine : Engine} {input text : Bytes} {records : List Bytes}
    (hread : decompressCapped gz cfg input = .ok text) (henv : envelopeFromSlice text = some records) :
    bufferRun gz float engine cfg false input =
      .ok (leaves gz cfg (filterRecords float engine records).2, (filterRecords float engine records).1) := by
  rw [bufferRun_of_envelope hread henv]
  by_cases hnil : (filterRecords float engine records).2 = []
  · simp [leaves, hnil]
  · simp [leaves, hnil]

/-- The two runs over an envelope whose records fit the cap. -/
lemma filteredTwice_of_envelope (hgz : gz.Lawful) (n : ℕ) {first second : Engine} {input text : Bytes} {records : List Bytes}
    (hread : decompressCapped gz cfg input = .ok text) (henv : envelopeFromSlice text = some records)
    (hcap : (envelopeBody records).length ≤ cfg.maxObjectBytes) :
    let one := filterRecords float first records
    let two := filterRecords float second one.2
    filteredTwice gz float cfg n first second input = .ok (leaves gz cfg two.2, one.1.andThen n two.1) := by
  intro one two
  rw [filteredTwice, bufferRun_leaves hread henv, ok_bind]
  change (match leaves gz cfg one.2 with
    | .written (some written) => do
      let (outcome, two) ← bufferRun gz float second cfg false written
      .ok (outcome, one.1.andThen n two)
    | _ => .ok (leaves gz cfg one.2, one.1)) = _
  by_cases hnil : one.2 = []
  · have hnothing : leaves gz cfg one.2 = .nothingKept := if_pos hnil
    have htwo : two = (.empty, []) := by
      change filterRecords float second one.2 = _
      rw [hnil]
      rfl
    have htally : one.1.andThen n .empty = one.1 := by
      obtain ⟨hkept, herrors⟩ : one.1.kept = 0 ∧ one.1.parseErrors = 0 := filterRecords_nothing hnil
      change RecordTally.mk one.1.recordsIn 0 0 (one.1.ruleDrops + 0) =
        RecordTally.mk one.1.recordsIn one.1.kept one.1.parseErrors one.1.ruleDrops
      rw [hkept, herrors, add_zero]
    rw [hnothing, htwo, htally]
    rfl
  · have hwritten : leaves gz cfg one.2 =
        .written (some (gzipCompressChunked gz (envelopeBody one.2) cfg.gzipLevel cfg.gzipChunks)) := if_neg hnil
    have hsurvivors : one.2 = records.filter (keeps float first) := filterRecords_survivors records
    have hfits : (envelopeBody one.2).length ≤ cfg.maxObjectBytes :=
      (envelopeBody_length_le (hsurvivors ▸ List.filter_sublist)).trans hcap
    have hreread := (decompressCapped_fits
      (readToEnd_chunked hgz (envelopeBody one.2) cfg.gzipLevel cfg.gzipChunks) hfits).trans (if_pos rfl)
    have henv' : envelopeFromSlice (envelopeBody one.2) = some one.2 := by
      have hrecords := envelopeFromSlice_records henv
      rw [hsurvivors]
      exact envelopeFromSlice_envelopeBody (fun record hr => hrecords record (List.mem_of_mem_filter hr))
    rw [hwritten]
    simp only [bufferRun_leaves hreread henv', ok_bind]
    rfl

/-- Without an envelope a run ends the same way under any rules. -/
lemma bufferRun_of_none {engine : Engine} {input : Bytes}
    (h : ∀ text records, decompressCapped gz cfg input = .ok text → envelopeFromSlice text ≠ some records) :
    bufferRun gz float engine cfg false input =
      (decompressCapped gz cfg input).bind (fun text =>
        if (Value.fromSlice float text).isSome then .ok (.unrecognized, .empty) else .error .json) := by
  cases hread : decompressCapped gz cfg input with
  | error e =>
    rw [bufferRun, hread]
    rfl
  | ok text =>
    have henv : envelopeFromSlice text = none := Option.eq_none_iff_forall_ne_some.mpr (fun records => h text records hread)
    simp only [bufferRun, hread, ok_bind, henv, Except.bind]
    cases Value.fromSlice float text <;> rfl

lemma filteredTwice_of_none (n : ℕ) {first second : Engine} {input : Bytes}
    (h : ∀ text records, decompressCapped gz cfg input = .ok text → envelopeFromSlice text ≠ some records) :
    filteredTwice gz float cfg n first second input = bufferRun gz float first cfg false input := by
  rw [filteredTwice, bufferRun_of_none h]
  cases decompressCapped gz cfg input with
  | error e => rfl
  | ok text =>
    simp only [Except.bind]
    split_ifs <;> rfl

/-- Two filters in series. Under the rules of two rulesets, one after the other, a run does what two runs
do of which the second takes up what the first has written, down to the bytes of the result and the
rules that drops are counted for; and the object at the end is the same whichever run comes first. -/
theorem filters_in_series (hgz : gz.Lawful) (B : RulesBackend) {version : String} {rules more : List Rule}
    {first second both : Engine} (hfirst : Engine.new B ⟨version, rules⟩ = .ok first)
    (hsecond : Engine.new B ⟨version, more⟩ = .ok second) (hboth : Engine.new B ⟨version, rules ++ more⟩ = .ok both)
    (hsound : PatternsSound B (rules ++ more)) {input : Bytes}
    (hrecords : ∀ text records, decompressCapped gz cfg input = .ok text → envelopeFromSlice text = some records →
      (envelopeBody records).length ≤ cfg.maxObjectBytes ∧
        ∀ record ∈ records, ∀ tree, Tree.fromSlice float record = some tree → tree.tokenFree = true) :
    bufferRun gz float both cfg false input = filteredTwice gz float cfg rules.length first second input ∧
      (filteredTwice gz float cfg more.length second first input).map Prod.fst =
        (filteredTwice gz float cfg rules.length first second input).map Prod.fst := by
  by_cases henv : ∃ text records, decompressCapped gz cfg input = .ok text ∧ envelopeFromSlice text = some records
  · obtain ⟨text, records, hread, henv⟩ := henv
    obtain ⟨hcap, hfree⟩ := hrecords text records hread henv
    have hseries := filterRecords_series (fun record hr => inSeries_of_append hfirst hsecond hboth hsound (hfree record hr))
    simp only at hseries
    rw [bufferRun_leaves hread henv, filteredTwice_of_envelope hgz _ hread henv hcap,
      filteredTwice_of_envelope hgz _ hread henv hcap, hseries]
    refine ⟨rfl, ?_⟩
    have hswap : (filterRecords float first (filterRecords float second records).2).2 =
        (filterRecords float second (filterRecords float first records).2).2 := by
      simp only [filterRecords_survivors, List.filter_filter, Bool.and_comm]
    simp only [Except.map, hswap]
  · have hnone : ∀ text records, decompressCapped gz cfg input = .ok text → envelopeFromSlice text ≠ some records :=
      fun text records hread hsome => henv ⟨text, records, hread, hsome⟩
    rw [filteredTwice_of_none _ hnone, filteredTwice_of_none _ hnone]
    simp only [bufferRun_of_none hnone, true_and]

/-- A record for either rule of the sample, and one for none of them. -/
def seriesText : Bytes :=
  ("\x7b\"Records\":[\x7b\"eventSource\":\"s3.amazonaws.com\",\"eventName\":\"Decrypt\",\"userIdentity\":\x7b\"type\":\"R\"\x7d\x7d, " ++
    "\x7b\x7d,\x7b\"userIdentity\":\x7b\"type\":\"R\"\x7d\x7d]\x7d").toUTF8.toList

lemma sampleRules_sound : PatternsSound sampleBackend sampleRules.rules := by
  have hlit : extractLiterals "^Decrypt$" = some ["Decrypt"] := by decide
  intro rule hrule m hm pattern hop isMatch hbuild L hL s hs
  by_cases hp : pattern = "^Decrypt$"
  · subst hp
    simp only [sampleBackend, if_true, Except.ok.injEq] at hbuild
    subst hbuild
    rw [hlit, Option.some.injEq] at hL
    simpa [← hL] using hs
  · simp [sampleBackend, hp] at hbuild

theorem filters_in_series_sample : ∃ first second both outcome tally, tally.kept = 1 ∧
    bufferRun storedGzip (fun _ => none) both sampleProcessing false (storedGzip.gzipCompress seriesText 6) =
        .ok (outcome, tally) ∧
      filteredTwice storedGzip (fun _ => none) sampleProcessing 1 first second (storedGzip.gzipCompress seriesText 6) =
        .ok (outcome, tally) ∧
      (filteredTwice storedGzip (fun _ => none) sampleProcessing 1 second first
        (storedGzip.gzipCompress seriesText 6)).map Prod.fst = .ok outcome := by
  obtain ⟨first, hfirst⟩ : ∃ engine, Engine.new sampleBackend ⟨"2.0.0", sampleRules.rules.take 1⟩ = .ok engine :=
    ⟨_, rfl⟩
  obtain ⟨second, hsecond⟩ : ∃ engine, Engine.new sampleBackend ⟨"2.0.0", sampleRules.rules.drop 1⟩ = .ok engine :=
    ⟨_, rfl⟩
  obtain ⟨both, hboth⟩ : ∃ engine, Engine.new sampleBackend
      ⟨"2.0.0", sampleRules.rules.take 1 ++ sampleRules.rules.drop 1⟩ = .ok engine := ⟨_, rfl⟩
  have hsound : PatternsSound sampleBackend (sampleRules.rules.take 1 ++ sampleRules.rules.drop 1) := by
    rw [List.take_append_drop]
    exact sampleRules_sound
  have hread : decompressCapped storedGzip sampleProcessing (storedGzip.gzipCompress seriesText 6) = .ok seriesText :=
    (decompressCapped_fits (storedGzip_lawful.readToEnd_compress 6 seriesText) (by decide +kernel)).trans (if_pos rfl)
  obtain ⟨records, henv⟩ := Option.isSome_iff_exists.mp
    (show (envelopeFromSlice seriesText).isSome = true by decide +kernel)
  have hall : (envelopeFromSlice seriesText).all (fun records =>
      decide ((envelopeBody records).length ≤ sampleProcessing.maxObjectBytes) &&
        records.all (fun record => (Tree.fromSlice (fun _ => none) record).all Tree.tokenFree)) = true := by
    decide +kernel
  simp only [henv, Option.all_some, Bool.and_eq_true, decide_eq_true_eq, List.all_eq_true] at hall
  have htally : (Engine.new sampleBackend
      ⟨"2.0.0", sampleRules.rules.take 1 ++ sampleRules.rules.drop 1⟩).toOption.bind (fun both =>
        (envelopeFromSlice seriesText).map (fun records => (filterRecords (fun _ => none) both records).1.kept)) =
      some 1 := by decide +kernel
  simp only [hboth, toOption_ok, Option.bind_some, henv, Option.map_some, Option.some.injEq] at htally
  have hrecords : ∀ text records',
      decompressCapped storedGzip sampleProcessing (storedGzip.gzipCompress seriesText 6) = .ok text →
      envelopeFromSlice text = some records' → (envelopeBody records').length ≤ sampleProcessing.maxObjectBytes ∧
        ∀ record ∈ records', ∀ tree, Tree.fromSlice (fun _ => none) record = some tree → tree.tokenFree = true := by
    intro text records' htext henv'
    obtain rfl : seriesText = text := Except.ok.inj (hread.symm.trans htext)
    obtain rfl : records = records' := Option.some.inj (henv.symm.trans henv')
    refine ⟨hall.1, fun record hr tree htree => ?_⟩
    simpa [htree] using hall.2 record hr
  obtain ⟨hseries, hswap⟩ := filters_in_series storedGzip_lawful sampleBackend hfirst hsecond hboth hsound hrecords
  have hrun : bufferRun storedGzip (fun _ => none) both sampleProcessing false (storedGzip.gzipCompress seriesText 6) =
      .ok (leaves storedGzip sampleProcessing (filterRecords (fun _ => none) both records).2,
        (filterRecords (fun _ => none) both records).1) :=
    bufferRun_leaves hread henv
  have htwice := hseries.symm.trans hrun
  refine ⟨first, second, both, _, _, htally, hrun, htwice, ?_⟩
  exact hswap.trans (congrArg (Except.map Prod.fst) htwice)

end Objects

end Process

end CloudTrailFilter
