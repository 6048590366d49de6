import CloudTrailFilter.Json.Utf8
import CloudTrailFilter.Pipeline.Counters

/-!
# Attempts at an unchanged source

A read of an object delivers all of its bytes or fails after some of them. What stream mode may
decide then depends on the bytes of the source alone, however they arrive: a part of them is
never taken for the whole, and an object that parses is never taken for one that does not.
`writes_only_filtered_envelope` draws the conclusion that an envelope is never copied unfiltered.
-/

namespace CloudTrailFilter

namespace Process
open CloudTrailFilter.Json CloudTrailFilter.Filter

section Source

/-- How a reader of an object with these bytes can go: all of them, or a part and an error. -/
def Body.Reads (source : Bytes) (body : Body) : Prop :=
  match body.ending with
  | .eof => body.bytes = source
  | .failed _ => body.bytes <+: source

/-- What the streaming visitors make of a whole object, if it is intact and they accept it. -/
def sourceRecords (gz : Gzip) (float : FloatParser) (source : Bytes) : Option (List Bytes × Bool) :=
  if (gz.readToEnd source).2 then (extract .eof float (gz.readToEnd source).1).outcome else none

variable {gz : Gzip} (float : FloatParser)

/-- No part of an object that is read on is decided. -/
lemma extraction_cut {chunks : List Bytes} {ending : Option BodyEnd}
    (h : (textOf gz chunks ending).2 ≠ .eof) : (extraction gz float chunks ending).outcome = none := by
  have htail : (textOf gz chunks ending).2.tail = .cut := by
    cases hend : (textOf gz chunks ending).2 with
    | eof => exact (h hend).elim
    | damaged => rfl
    | failed => rfl
    | pending => rfl
  unfold extraction Sending.outcome
  rw [htail]
  cases hres : (extract .cut float (textOf gz chunks ending).1).result with
  | ok found => exact (extract_cut_ne_ok float _ found hres).elim
  | error e => rfl

/-- A whole object is judged by its bytes, in whatever chunks they arrive. -/
lemma extraction_whole (hgz : gz.Lawful) (chunks : List Bytes) :
    (extraction gz float chunks (some .eof)).outcome = sourceRecords gz float chunks.flatten := by
  unfold sourceRecords
  cases hread : gz.readToEnd chunks.flatten with
  | mk text intact =>
    cases intact with
    | true => simp [extraction, textOf_intact hgz hread, TextEnd.tail]
    | false => simp [extraction_cut float (by rw [textOf_damaged hgz hread]; simp)]

variable (gz) in
lemma textOf_failed (chunks : List Bytes) (message : String) :
    (textOf gz chunks (some (.failed message))).1 = (textOf gz chunks none).1 ∧
      ((textOf gz chunks (some (.failed message))).2 = .damaged ∧ (textOf gz chunks none).2 = .damaged ∨
        (textOf gz chunks (some (.failed message))).2 = .failed) := by
  by_cases h : (gz.inflate chunks .cut).2 = .corrupt
  · simp [textOf, h]
  · simp [textOf, h]

/-- Damage or a syntax error in a part of an object is one of the object. -/
lemma sourceRecords_of_part (hgz : gz.Lawful) {body : Body} {source : Bytes}
    (hpart : body.bytes <+: source) (message : String)
    (h : (textOf gz body.chunks (some (.failed message))).2 = .damaged ∨
      (extraction gz float body.chunks (some (.failed message))).result = .error .malformed) :
    sourceRecords gz float source = none := by
  obtain ⟨rest, hrest⟩ := hpart
  have hsource : source = (body.chunks ++ [rest]).flatten := by
    rw [← hrest]
    simp [Body.bytes]
  rw [hsource, ← extraction_whole float hgz]
  obtain ⟨htext, hend⟩ := textOf_failed gz body.chunks message
  rcases h with hdamaged | hmalformed
  · have hnone : (textOf gz body.chunks none).2 = .damaged := by
      rcases hend with ⟨-, hnone⟩ | hfailed
      · exact hnone
      · simp [hdamaged] at hfailed
    apply extraction_cut
    rw [textOf_damaged_append hgz [rest] .eof hnone, hnone]
    simp
  · have htail : (textOf gz body.chunks none).2.tail =
        (textOf gz body.chunks (some (.failed message))).2.tail := by
      have hcut : (textOf gz body.chunks none).2.tail = .cut := by
        simp only [textOf]
        split_ifs <;> rfl
      rw [hcut]
      rcases hend with ⟨hend, -⟩ | hend <;> rw [hend] <;> rfl
    have hsame : extraction gz float body.chunks (some (.failed message)) =
        extraction gz float body.chunks none := by
      rw [extraction, extraction, htext, htail]
    have hagree : Agrees id (extraction gz float body.chunks none).result _ :=
      (extraction_extends hgz body.chunks [rest] (some .eof)).1
    rw [← hsame, hmalformed] at hagree
    have hresult : (extraction gz float (body.chunks ++ [rest]) (some .eof)).result =
      .error .malformed := hagree
    simp [Sending.outcome, hresult]

/-- How the extraction ends, by the source. Only an error of the transport says nothing of it. -/
lemma finishOf_reads (hgz : gz.Lawful) {body : Body} {source : Bytes} (h : body.Reads source)
    (overread : Bool) :
    match finishOf gz float overread body with
    | .recordsFound =>
      sourceRecords gz float source = some ((extraction gz float body.chunks (some body.ending)).records, true)
    | .unrecognized => ∃ records, sourceRecords gz float source = some (records, false)
    | .error (.transport _) => True
    | .error _ => sourceRecords gz float source = none := by
  cases hending : body.ending with
  | eof =>
    have hsource : source = body.chunks.flatten := by
      simp only [Body.Reads, hending] at h
      exact h.symm
    rw [finishOf_eof body overread hending, hsource, ← extraction_whole float hgz]
    unfold Sending.outcome
    cases (extraction gz float body.chunks (some .eof)).result with
    | ok found => cases found <;> simp [finishKind]
    | error e =>
      cases e with
      | malformed => rfl
      | starved =>
        simp only [finishKind]
        split_ifs <;> rfl
  | failed message =>
    have hpart : body.bytes <+: source := by
      simpa only [Body.Reads, hending] using h
    have hsource := sourceRecords_of_part float hgz hpart message
    obtain ⟨-, hend⟩ := textOf_failed gz body.chunks message
    have hne : (textOf gz body.chunks (some (.failed message))).2 ≠ .eof := by
      rcases hend with ⟨hend, -⟩ | hend <;> simp [hend]
    have hcut := extraction_cut float hne
    simp only [finishOf, hending]
    cases hres : (extraction gz float body.chunks (some (.failed message))).result with
    | ok found => simp [Sending.outcome, hres] at hcut
    | error e =>
      cases htransport : transportError overread (.failed message)
          (textOf gz body.chunks (some (.failed message))).2 (.error e) with
      | some message' => simp [finishKind]
      | none =>
        cases e with
        | malformed => exact hsource (.inr hres)
        | starved =>
          rcases hend with ⟨hdamaged, -⟩ | hfailed
          · simp only [finishKind, hdamaged, if_true]
            exact hsource (.inl hdamaged)
          · simp [transportError, hfailed] at htransport

/-- The body stream mode writes for these records. -/
def streamBody (gz : Gzip) (float : FloatParser) (engine : Engine) (cfg : Processing)
    (records : List Bytes) : Bytes :=
  gz.gzipCompress (envelopeBody (filterRecords float engine records).2) cfg.gzipLevel

/-- What stream mode decides about an object, by the source. -/
lemma streamRun_reads (hgz : gz.Lawful) (engine : Engine) (cfg : Processing) (env : StreamEnv)
    {body : Body} {source : Bytes} (h : body.Reads source) :
    let run := streamRun gz float engine cfg env body
    match run.result with
    | .ok (.written _) => ∃ records, sourceRecords gz float source = some (records, true) ∧
        (filterRecords float engine records).2 ≠ [] ∧
        run.committed = some (streamBody gz float engine cfg records)
    | .ok .nothingKept => ∃ records, sourceRecords gz float source = some (records, true) ∧
        (filterRecords float engine records).2 = []
    | .ok .unrecognized => ∃ records, sourceRecords gz float source = some (records, false)
    | .error e => e.isUnparsableSource = true → sourceRecords gz float source = none := by
  intro run
  have hfinish := finishOf_reads float hgz h env.overread
  have hmatch := filtering_matches gz float engine cfg.gzipLevel outputFlushThreshold
    (extraction gz float body.chunks (some body.ending)).records
  rcases streamRunAt_cases gz float engine cfg outputFlushThreshold env body with
    ⟨hfin, hkept, -, hrun⟩ | ⟨hfin, hkept, hrun⟩ | ⟨hfin, hrun⟩ | ⟨failure, hfin, hrun⟩ | ⟨e, hrun⟩ |
    ⟨cause, hrun⟩ <;> replace hrun : run = _ := hrun <;> rw [hrun]
  · rw [hfin] at hfinish
    rw [hmatch.tally, (filterRecords_tally _).kept] at hkept
    exact ⟨_, hfinish, List.ne_nil_of_length_pos hkept, congrArg some (hmatch.close hgz)⟩
  · rw [hfin] at hfinish
    rw [hmatch.tally, (filterRecords_tally _).kept] at hkept
    exact ⟨_, hfinish, List.length_eq_zero_iff.mp hkept⟩
  · rw [hfin] at hfinish
    exact hfinish
  · rw [hfin] at hfinish
    intro hunparsable
    cases failure with
    | gzip => exact hfinish
    | json => exact hfinish
    | transport message => simp [ParseFailure.toError, CoreError.isUnparsableSource] at hunparsable
  · simp [CoreError.isUnparsableSource]
  · simp [CoreError.isUnparsableSource]

end Source

section Envelope

lemma rawValues_utf8 {items : List (Bytes × Lex)} (h : ∀ item ∈ items, isUtf8 item.1 = true) :
    rawValues items = some (items.map Prod.fst) := by
  induction items with
  | nil => rfl
  | cons item items ih =>
    have hrest := ih (fun other hmem => h other (List.mem_cons_of_mem _ hmem))
    simp [rawValues, h item (by simp), hrest]

/-- Whether a member of an object is called `Records`. -/
def isRecords (m : Bytes × Lex) : Bool := decodeString m.1 = some "Records"

lemma envelopeFields_none_left {members : List (Bytes × Lex)} (records : Option (List Bytes))
    (hkeys : keysDecode members = true) (hnone : members.filter isRecords = []) :
    envelopeFields records members = records := by
  induction members with
  | nil => rfl
  | cons m rest ih =>
    obtain ⟨key, v⟩ := m
    simp only [keysDecode, List.all_cons, Bool.and_eq_true] at hkeys
    obtain ⟨name, hname⟩ := Option.isSome_iff_exists.mp hkeys.1
    have hne : name ≠ "Records" := by
      intro heq
      simp [isRecords, hname, heq] at hnone
    have hrest : rest.filter isRecords = [] := by
      simpa [isRecords, hname, hne] using hnone
    simp only [envelopeFields, hname, Option.bind_eq_bind, Option.bind_some, hne, if_false]
    exact ih hkeys.2 hrest

/-- An object whose keys decode and whose only `Records` is an array of UTF-8 elements is an
envelope. -/
lemma envelopeFields_of_one {members : List (Bytes × Lex)} {key : Bytes} {items : List (Bytes × Lex)}
    (hkeys : keysDecode members = true) (hone : members.filter isRecords = [(key, .arr items)])
    (hutf : ∀ item ∈ items, isUtf8 item.1 = true) :
    envelopeFields none members = some (items.map Prod.fst) := by
  induction members with
  | nil => simp at hone
  | cons m rest ih =>
    obtain ⟨key', v⟩ := m
    simp only [keysDecode, List.all_cons, Bool.and_eq_true] at hkeys
    obtain ⟨name, hname⟩ := Option.isSome_iff_exists.mp hkeys.1
    simp only [envelopeFields, hname, Option.bind_eq_bind, Option.bind_some]
    by_cases hrec : name = "Records"
    · simp only [List.filter_cons, isRecords, hname, hrec, decide_true, if_true, List.cons.injEq,
        Prod.mk.injEq] at hone
      obtain ⟨⟨rfl, rfl⟩, hrest⟩ := hone
      simp only [hrec, if_true, rawValues_utf8 hutf, Option.bind_some]
      exact envelopeFields_none_left _ hkeys.2 hrest
    · rw [if_neg hrec]
      refine ih hkeys.2 ?_
      simpa [isRecords, hname, hrec] using hone

/-- The elements of `Records` in a text that is one JSON object, if all its keys decode and it has
exactly one `Records`, an array. -/
def soleRecords (text : Bytes) : Option (List Bytes) :=
  match scanDocument text with
  | .ok (.obj members) =>
    if keysDecode members then
      match members.filter isRecords with
      | [(_, .arr items)] => some (items.map Prod.fst)
      | _ => none
    else none
  | _ => none

lemma soleRecords_eq_some {text : Bytes} {records : List Bytes} (h : soleRecords text = some records) :
    ∃ members key items, scanDocument text = .ok (.obj members) ∧ keysDecode members = true ∧
      members.filter isRecords = [(key, .arr items)] ∧ records = items.map Prod.fst := by
  unfold soleRecords at h
  split at h
  · rename_i members hdoc
    split_ifs at h with hkeys
    split at h
    · rename_i key items hone
      exact ⟨members, key, items, hdoc, hkeys, hone, (Option.some.inj h).symm⟩
    · cases h
  · cases h

variable {gz : Gzip} {text : Bytes} {records : List Bytes}

/-- Such a text is an envelope for buffer mode. -/
lemma envelopeFromSlice_of_sole (hutf : isUtf8 text = true) (h : soleRecords text = some records) :
    envelopeFromSlice text = some records := by
  obtain ⟨members, key, items, hdoc, hkeys, hone, rfl⟩ := soleRecords_eq_some h
  have hmem : (key, Lex.arr items) ∈ members := by
    have : (key, Lex.arr items) ∈ members.filter isRecords := by simp [hone]
    exact List.mem_of_mem_filter this
  rw [envelopeFromSlice, hdoc]
  exact envelopeFields_of_one hkeys hone (scanDocument_utf8 hutf hdoc hmem)

/-- The same for stream mode. -/
lemma sourceRecords_of_sole (float : FloatParser) {source : Bytes} (hread : gz.readToEnd source = (text, true))
    (hutf : isUtf8 text = true) (h : soleRecords text = some records) :
    sourceRecords gz float source = some (records, true) := by
  have henv := envelopeFromSlice_of_sole hutf h
  obtain ⟨members, key, items, hdoc, -, -, -⟩ := soleRecords_eq_some h
  rw [envelopeFromSlice, hdoc] at henv
  simp only [sourceRecords, hread, if_true]
  rw [extract_eof, hdoc]
  exact (membersOf_iff float members records).mpr henv

end Envelope

end Process

namespace Pipeline
open CloudTrailFilter.Json CloudTrailFilter.Filter CloudTrailFilter.Process

section Fate
variable (gz : Gzip) (float : FloatParser) (settings : Settings) (engine : Engine)

/-- The answers a store with this source can give. -/
def GetAnswer.Reads (source : Bytes) : GetAnswer → Prop
  | .body delivered => delivered.Reads source
  | .notFound | .failed _ => True

/-- No read of an attempt sees another object than this one. -/
structure Attempt.Reads (source : Bytes) (attempt : Attempt) : Prop where
  fetch : attempt.fetch.Reads source
  read : attempt.read.Reads source
  reread : attempt.reread.Reads source

/-- What an object is, by its source and the mode that decides about it. -/
inductive Fate where
  | filtered (body : Option Bytes)
  | unrecognized
  | unparsable
  | tooLarge

def bufferFate (source : Bytes) : Fate :=
  match bufferRun gz float engine settings.processing false source with
  | .ok (.written body, _) => .filtered body
  | .ok (.nothingKept, _) => .filtered none
  | .ok (.unrecognized, _) => .unrecognized
  | .error (.objectTooLarge _) => .tooLarge
  | .error _ => .unparsable

def streamFate (source : Bytes) : Fate :=
  match sourceRecords gz float source with
  | some (records, true) =>
    if (filterRecords float engine records).2 = [] then .filtered none
    else .filtered (some (streamBody gz float engine settings.processing records))
  | some (_, false) => .unrecognized
  | none => .unparsable

def fate (mode : ObjectMode) (source : Bytes) : Fate :=
  match mode with
  | .buffer => bufferFate gz float settings engine source
  | .stream => streamFate gz float settings engine source

/-- The body the policies give an object, if any, unless they make it an error. -/
def Fate.body (source : Bytes) : Fate → Option (Option Bytes)
  | .filtered body => some body
  | .unrecognized =>
    match settings.behavior.onUnrecognizedObject with
    | .copy => some (some source)
    | .skip => some none
    | .error => none
  | .unparsable =>
    match settings.behavior.onParseError with
    | .copy => some (some source)
    | .error => none
  | .tooLarge => none

variable {gz float settings engine} {attempt : Attempt} {source : Bytes}

variable (gz float settings engine) in
/-- A failure of the compression is the only thing that can come between the source and what
buffer mode makes of it. -/
lemma bufferRun_compressFails (compressFails : Bool) (input : Bytes) :
    bufferRun gz float engine settings.processing compressFails input =
        bufferRun gz float engine settings.processing false input ∨
      bufferRun gz float engine settings.processing compressFails input = .error (.internal .compression) := by
  cases compressFails with
  | false => exact .inl rfl
  | true =>
    unfold bufferRun
    cases decompressCapped gz settings.processing input with
    | error e => exact .inl rfl
    | ok text =>
      simp only [Fallible.ok_bind]
      cases envelopeFromSlice text with
      | none => exact .inl rfl
      | some records =>
        simp only [Bool.false_eq_true, if_false, if_true]
        split_ifs with hnil
        · exact .inl rfl
        · exact .inr rfl

/-- What buffer mode files is the object's fate. -/
lemma bufferFate_of_decides {compressFails : Bool} {out : Option Bytes} {tally : RecordTally}
    (h : Decides settings (bufferRun gz float engine settings.processing compressFails source)
      (committedOf (bufferRun gz float engine settings.processing compressFails source)) (· = source) out tally) :
    (bufferFate gz float settings engine source).body settings source = some out := by
  have hsame : bufferRun gz float engine settings.processing compressFails source =
      bufferRun gz float engine settings.processing false source := by
    rcases bufferRun_compressFails gz float settings engine compressFails source with hsame | hfails
    · exact hsame
    · rw [hfails] at h
      cases h with
      | unparsed e bytes hres hsource => cases hres; simp [CoreError.isUnparsableSource] at hsource
      | _ => contradiction
  rw [hsame] at h
  unfold bufferFate
  cases h with
  | written body tally hres => simp [hres, committedOf, Fate.body]
  | nothingKept tally hres => simp [hres, Fate.body]
  | unrecognizedSkip tally hres hpolicy => simp [hres, Fate.body, hpolicy]
  | unrecognizedCopy tally bytes hres hpolicy hcopy => simp [hres, Fate.body, hpolicy, hcopy]
  | unparsed e bytes hres hsource hpolicy hcopy =>
    rw [hres]
    cases e with
    | gzip => simp [Fate.body, hpolicy, hcopy]
    | json => simp [Fate.body, hpolicy, hcopy]
    | _ => simp [CoreError.isUnparsableSource] at hsource

lemma copyOf_reads (h : attempt.reread.Reads source) {bytes : Bytes} (hcopy : CopyOf attempt none bytes) :
    bytes = source := by
  obtain ⟨body, hbody, hend, rfl⟩ := hcopy
  simpa [hbody, GetAnswer.Reads, Body.Reads, hend] using h

/-- What stream mode files is the object's fate. -/
lemma streamFate_of_decides (hgz : gz.Lawful) {env : StreamEnv} {body : Body} (hbody : body.Reads source)
    (hreread : attempt.reread.Reads source) {out : Option Bytes} {tally : RecordTally}
    (h : Decides settings (decisionOf (streamRun gz float engine settings.processing env body))
      (streamRun gz float engine settings.processing env body).committed (CopyOf attempt none) out tally) :
    (streamFate gz float settings engine source).body settings source = some out := by
  have hrun := streamRun_reads float hgz engine settings.processing env hbody
  unfold streamFate
  cases h with
  | written body' tally hres =>
    simp only [(decisionOf_ok_iff.mp hres).1] at hrun
    obtain ⟨records, hsource, hne, hcommitted⟩ := hrun
    simp [hsource, hne, hcommitted, Fate.body]
  | nothingKept tally hres =>
    simp only [(decisionOf_ok_iff.mp hres).1] at hrun
    obtain ⟨records, hsource, hnil⟩ := hrun
    simp [hsource, hnil, Fate.body]
  | unrecognizedSkip tally hres hpolicy =>
    simp only [(decisionOf_ok_iff.mp hres).1] at hrun
    obtain ⟨records, hsource⟩ := hrun
    simp [hsource, hpolicy, Fate.body]
  | unrecognizedCopy tally bytes hres hpolicy hcopy =>
    simp only [(decisionOf_ok_iff.mp hres).1] at hrun
    obtain ⟨records, hsource⟩ := hrun
    simp [hsource, hpolicy, Fate.body, copyOf_reads hreread hcopy]
  | unparsed e bytes hres hunparsable hpolicy hcopy =>
    simp only [decisionOf_error_iff.mp hres] at hrun
    simp [hrun hunparsable, hpolicy, Fate.body, copyOf_reads hreread hcopy]

/-- Whatever an attempt files for an object is what its source and the deciding mode make it. -/
theorem fate_of_files (hgz : gz.Lawful) (hreads : attempt.Reads source)
    (hlive : settings.behavior.dryRun = false) {mode : ObjectMode} {out : Option Bytes}
    {tally : RecordTally} (h : Files gz float settings engine attempt mode out tally) :
    (fate gz float settings engine mode source).body settings source = some out := by
  cases mode with
  | buffer =>
    obtain ⟨body, hbody, hend, -, h⟩ := h
    simp only [hlive, Bool.false_eq_true, if_false] at h
    have hsource : body.bytes = source := by
      simpa [hbody, GetAnswer.Reads, Body.Reads, hend] using hreads.fetch
    rw [hsource] at h
    exact bufferFate_of_decides h
  | stream =>
    obtain ⟨body, hbody, h⟩ := h
    simp only [hlive, Bool.false_eq_true, if_false] at h
    have hsource : body.Reads source := by
      simpa [hbody, GetAnswer.Reads] using hreads.read
    exact streamFate_of_decides hgz hsource hreads.reread h

end Fate

section Envelopes
variable {gz : Gzip} {float : FloatParser} {settings : Settings} {engine : Engine}

/-- In both modes the only body an envelope can get is its filtered one. -/
lemma fate_envelope (hgz : gz.Lawful) {source text : Bytes} {records : List Bytes}
    (hread : gz.readToEnd source = (text, true)) (henv : envelopeFromSlice text = some records)
    (hstream : sourceRecords gz float source = some (records, true)) {mode : ObjectMode} {body : Bytes}
    (h : (fate gz float settings engine mode source).body settings source = some (some body)) :
    gz.readToEnd body = (envelopeBody (records.filter (keeps float engine)), true) := by
  rw [← filterRecords_survivors]
  cases mode with
  | stream =>
    simp only [fate, streamFate, hstream] at h
    split_ifs at h with hnil
    · simp [Fate.body] at h
    · simp only [Fate.body, Option.some.injEq] at h
      rw [← h]
      exact hgz.readToEnd_compress _ _
  | buffer =>
    simp only [fate, bufferFate, bufferRun, decompressCapped, hread] at h
    by_cases hlarge : settings.processing.maxObjectBytes < text.length
    · simp [hlarge, Fate.body] at h
    · simp only [hlarge, if_false, if_true, Fallible.ok_bind, henv, Bool.false_eq_true] at h
      split_ifs at h with hnil
      · simp [Fate.body] at h
      · simp only [Fate.body, Option.some.injEq] at h
        rw [← h]
        exact readToEnd_chunked hgz _ _ _

/-- Fail-open never leaks. For an object that is one JSON object with one array `Records`, every
write of every attempt is at the destination and carries the filtered envelope, whatever the
mode, the policies and the failures. The text of the object is UTF-8, as a JSON text is. -/
theorem writes_only_filtered_envelope (hgz : gz.Lawful) (float : FloatParser) (settings : Settings)
    (engine : Engine) (object : ObjectRef) (dest : Location) {source text : Bytes}
    (hread : gz.readToEnd source = (text, true)) (hutf : isUtf8 text = true) {records : List Bytes}
    (hrecords : soleRecords text = some records) {attempt : Attempt} (hattempt : attempt.Reads source) :
    ∀ write ∈ landed (processObject gz float settings engine attempt object dest),
      write.1 = dest ∧ gz.readToEnd write.2 = (envelopeBody (records.filter (keeps float engine)), true) := by
  intro write hwrite
  have hfiled : Filed engine dest _ (processObject gz float settings engine attempt object dest) :=
    processObject_filed object dest
  cases hfiled with
  | failed e _ hnone => simp [hnone] at hwrite
  | skipped _ hnone => simp [hnone] at hwrite
  | done out tally hfiles _ hlanded =>
    rw [hlanded] at hwrite
    cases out with
    | none => simp at hwrite
    | some body =>
      simp only [Option.toList_some, List.map_cons, List.map_nil, List.mem_singleton] at hwrite
      subst hwrite
      refine ⟨rfl, ?_⟩
      have hlive : settings.behavior.dryRun = false := by
        by_contra hdry
        simpa using (tallyOf_of_files hfiles).2 (by simpa using hdry)
      exact fate_envelope hgz hread (envelopeFromSlice_of_sole hutf hrecords)
        (sourceRecords_of_sole float hread hutf hrecords) (fate_of_files hgz hattempt hlive hfiles)

/-- The engine of a rule that drops the events called `A`. -/
def dropEngine : Engine := Engine.assemble [⟨"noise", [⟨keyPath "eventName", .equals "A", false, 0⟩]⟩]

/-- The record of an event, as `envelopeText` has it. -/
def sampleRecord (name : String) : Bytes := ("\x7b\"eventName\":\"" ++ name ++ "\"\x7d").toUTF8.toList

/-- Both policies that copy are on, and only the record no rule drops is written. -/
theorem writes_only_filtered_envelope_sample :
    let x := processObject storedGzip (fun _ => none) sampleSettings dropEngine
      (sampleAttempt envelopeText) sampleObject ("filtered", sampleObject.key)
    landed x ≠ [] ∧ ∀ write ∈ landed x, write.1 = ("filtered", sampleObject.key) ∧
      storedGzip.readToEnd write.2 = (envelopeBody [sampleRecord "B"], true) := by
  intro x
  have hrecords : soleRecords envelopeText.toUTF8.toList = some [sampleRecord "A", sampleRecord "B"] := by
    decide +kernel
  have hfilter : [sampleRecord "A", sampleRecord "B"].filter (keeps (fun _ => none) dropEngine) =
      [sampleRecord "B"] := by decide +kernel
  have hreads : (sampleAttempt envelopeText).Reads (storedMember envelopeText.toUTF8.toList) :=
    ⟨List.append_nil _, List.append_nil _, List.append_nil _⟩
  refine ⟨by decide +kernel, ?_⟩
  rw [← hfilter]
  exact writes_only_filtered_envelope storedGzip_lawful (fun _ => none) sampleSettings dropEngine
    sampleObject ("filtered", sampleObject.key) (by decide +kernel) (by decide +kernel) hrecords hreads

end Envelopes

end Pipeline

end CloudTrailFilter
