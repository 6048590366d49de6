import CloudTrailFilter.Json.Relocate
import CloudTrailFilter.Process.Parity

/-!
# Survivors are verbatim

The text of a kept record goes into the filtered envelope unchanged. The envelope reads back as
those texts, so filtering the output a second time keeps everything and gives the same envelope.
-/

namespace CloudTrailFilter.Process
open CloudTrailFilter.Json CloudTrailFilter.Filter Fallible

section Captured

/-- The text of an array element: it begins with the value and scans to it wherever it stands. -/
structure Element (span : Bytes) : Prop where
  head : ∃ b rest, span = b :: rest ∧ isWhitespace b = false ∧ b ≠ closeBracket
  scan : ∃ v, ∀ r, Stops r → scanValue .eof (span ++ r) = .ok (v, r)

mutual

/-- The arrays of a value, at any depth, hold element texts. -/
def Captured : Lex → Prop
  | .arr items => ItemsCaptured items
  | .obj members => MembersCaptured members
  | .null | .bool _ | .num _ | .str _ => True

def ItemsCaptured : List (Bytes × Lex) → Prop
  | [] => True
  | (span, v) :: rest => Element span ∧ Captured v ∧ ItemsCaptured rest

def MembersCaptured : List (Bytes × Lex) → Prop
  | [] => True
  | (_, v) :: rest => Captured v ∧ MembersCaptured rest

end

variable {t : Tail}

lemma nextItem_head {close : UInt8} {first : Bool} {inp mid : Bytes}
    (h : nextItem t close first inp = .ok (true, mid)) :
    ∃ b rest, mid = b :: rest ∧ isWhitespace b = false ∧ b ≠ close := by
  obtain ⟨w, hw, h⟩ := bind_ok_iff.mp h
  cases w with
  | nil => simp at h
  | cons b rest =>
    simp only at h
    split_ifs at h with hclose hfirst hcomma
    · simp at h
    · cases h
      exact ⟨b, rest, rfl, skipWs_head hw, hclose⟩
    · obtain ⟨w', hw', h⟩ := bind_ok_iff.mp h
      cases w' with
      | nil => simp at h
      | cons b' rest' =>
        simp only at h
        split_ifs at h with hclose'
        cases h
        exact ⟨b', rest', rfl, skipWs_head hw', hclose'⟩

lemma element_of_scan {first : Bool} {inp mid r : Bytes} {v : Lex}
    (hnext : nextItem t closeBracket first inp = .ok (true, mid)) (hv : scanValue t mid = .ok (v, r)) :
    Element (consumed mid r) := by
  obtain ⟨span, hspan, rfl⟩ := scanValue_eats t hv
  rw [consumed_append]
  obtain ⟨b, rest, hmid, hws, hclose⟩ := nextItem_head hnext
  constructor
  · cases span with
    | nil => exact (hspan rfl).elim
    | cons b' span =>
      obtain ⟨rfl, -⟩ := List.cons.inj hmid
      exact ⟨b', span, rfl, hws, hclose⟩
  · exact ⟨v, fun r' hr => scanValue_moves hr hv⟩

lemma captured_rule :
    ScanRule t (fun _ v _ => Captured v) (fun _ _ vs _ => ItemsCaptured vs) (fun _ _ ms _ => MembersCaptured ms) where
  scalar := by
    intro inp v r hhd
    obtain ⟨harr, hobj⟩ := scanHead_scalar t hhd
    cases v with
    | arr items => exact (harr items rfl).elim
    | obj members => exact (hobj members rfl).elim
    | null | bool b | num lexeme | str raw => trivial
  items _ _ h := h
  members _ _ h := h
  noItem _ := trivial
  item hnext hv h _ hrest := ⟨element_of_scan hnext hv, h, hrest⟩
  noMember _ := trivial
  member _ _ _ h _ hrest := ⟨h, hrest⟩

/-- What a scan returns captures its elements. -/
lemma scanValue_captured {inp r : Bytes} {v : Lex} (h : scanValue t inp = .ok (v, r)) : Captured v :=
  captured_rule.scan.1 inp v r h

/-- A record of an envelope: an element's text in UTF-8. -/
def IsRecord (span : Bytes) : Prop := Element span ∧ isUtf8 span = true

lemma rawValues_records {items : List (Bytes × Lex)} {records : List Bytes} (hitems : ItemsCaptured items)
    (h : rawValues items = some records) : ∀ record ∈ records, IsRecord record := by
  induction items generalizing records with
  | nil =>
    obtain rfl : [] = records := by simpa [rawValues] using h
    simp
  | cons item items ih =>
    obtain ⟨span, v⟩ := item
    obtain ⟨hspan, -, hrest⟩ := hitems
    simp only [rawValues] at h
    split_ifs at h with hutf
    obtain ⟨records', hrecords, rfl⟩ := Option.map_eq_some_iff.mp h
    intro record hmem
    rcases List.mem_cons.mp hmem with rfl | hmem
    · exact ⟨hspan, hutf⟩
    · exact ih hrest hrecords record hmem

lemma envelopeFields_records {members : List (Bytes × Lex)} {found : Option (List Bytes)} {records : List Bytes}
    (hmembers : MembersCaptured members) (hfound : ∀ rs, found = some rs → ∀ record ∈ rs, IsRecord record)
    (h : envelopeFields found members = some records) : ∀ record ∈ records, IsRecord record := by
  induction members generalizing found with
  | nil => exact hfound records h
  | cons m members ih =>
    obtain ⟨key, v⟩ := m
    obtain ⟨hv, hrest⟩ := hmembers
    obtain ⟨name, -, h⟩ := Option.bind_eq_some_iff.mp h
    split_ifs at h with hname
    · split at h
      · rename_i items
        obtain ⟨rs, hrs, h⟩ := Option.bind_eq_some_iff.mp h
        apply ih hrest _ h
        rintro rs' ⟨⟩
        exact rawValues_records hv hrs
      · simp at h
    · exact ih hrest hfound h

/-- Every record of an envelope is an element's text. -/
theorem envelopeFromSlice_records {text : Bytes} {records : List Bytes} (h : envelopeFromSlice text = some records) :
    ∀ record ∈ records, IsRecord record := by
  obtain ⟨v, hdoc, h⟩ := Option.bind_eq_some_iff.mp h
  obtain ⟨⟨v', rest⟩, hv, hend⟩ : ∃ r, scanValue .eof text = .ok r ∧ r.1 = v := by
    rw [scanDocument] at hdoc
    cases hscan : scanValue .eof text with
    | error e => simp [hscan] at hdoc
    | ok r =>
      refine ⟨r, rfl, ?_⟩
      cases hend : scanEnd .eof r.2 <;> simp [hscan, hend] at hdoc
      exact hdoc
  obtain rfl : v' = v := hend
  have hcaptured := scanValue_captured hv
  unfold envelopeOf at h
  split at h
  · rename_i members
    exact envelopeFields_records hcaptured (by simp) h
  · rename_i span items
    exact rawValues_records hcaptured.2.1 h
  · simp at h

end Captured

section Rebuilt

lemma stops_comma (rest : Bytes) : Stops (comma :: rest) := ⟨comma, rest, rfl, .inl rfl⟩

lemma stops_close (rest : Bytes) : Stops (closeBracket :: rest) := ⟨closeBracket, rest, rfl, .inr rfl⟩

lemma nextItem_comma {span : Bytes} (h : Element span) (rest : Bytes) :
    nextItem .eof closeBracket false (comma :: (span ++ rest)) = .ok (true, span ++ rest) := by
  obtain ⟨b, tail, rfl, hws, hclose⟩ := h.head
  have hcomma : isWhitespace comma = false := by decide
  have hne : comma ≠ closeBracket := by decide
  simp [nextItem, skipWs, hcomma, hne, hws, hclose]

lemma nextItem_first {span : Bytes} (h : Element span) (rest : Bytes) :
    nextItem .eof closeBracket true (span ++ rest) = .ok (true, span ++ rest) := by
  obtain ⟨b, tail, rfl, hws, hclose⟩ := h.head
  simp [nextItem, skipWs, hws, hclose]

lemma nextItem_close (close : UInt8) (hclose : isWhitespace close = false) (first : Bool) (rest : Bytes) :
    nextItem .eof close first (close :: rest) = .ok (false, rest) := by
  simp [nextItem, skipWs, hclose]

/-- Element texts behind commas scan back as the elements. -/
lemma scanItems_commas {spans : List Bytes} (h : ∀ span ∈ spans, Element span) (rest : Bytes) :
    ∃ items, scanItems .eof false ((spans.map (comma :: ·)).flatten ++ closeBracket :: rest) = .ok (items, rest) ∧
      items.map Prod.fst = spans := by
  induction spans with
  | nil =>
    refine ⟨[], ?_, rfl⟩
    rw [scanItems_eq, List.map_nil, List.flatten_nil, List.nil_append, nextItem_close _ (by decide)]
    rfl
  | cons span spans ih =>
    obtain ⟨items, hitems, hspans⟩ := ih (fun s hs => h s (List.mem_cons_of_mem _ hs))
    have hspan := h span (by simp)
    obtain ⟨v, hv⟩ := hspan.scan
    have hstop : Stops ((spans.map (comma :: ·)).flatten ++ closeBracket :: rest) := by
      cases spans with
      | nil => exact stops_close rest
      | cons next spans => exact stops_comma _
    refine ⟨(span, v) :: items, ?_, by simp [hspans]⟩
    simp only [List.map_cons, List.flatten_cons, List.cons_append, List.append_assoc]
    rw [scanItems_eq, nextItem_comma hspan]
    simp only [ok_bind, hv _ hstop, hitems, consumed_append]

lemma scanItems_joined {spans : List Bytes} (h : ∀ span ∈ spans, Element span) (rest : Bytes) :
    ∃ items, scanItems .eof true (joinRecords spans ++ closeBracket :: rest) = .ok (items, rest) ∧
      items.map Prod.fst = spans := by
  cases spans with
  | nil =>
    refine ⟨[], ?_, rfl⟩
    rw [scanItems_eq, joinRecords, List.nil_append, nextItem_close _ (by decide)]
    rfl
  | cons span spans =>
    obtain ⟨items, hitems, hspans⟩ := scanItems_commas (fun s hs => h s (List.mem_cons_of_mem _ hs)) rest
    have hspan := h span (by simp)
    obtain ⟨v, hv⟩ := hspan.scan
    have hstop : Stops ((spans.map (comma :: ·)).flatten ++ closeBracket :: rest) := by
      cases spans with
      | nil => exact stops_close rest
      | cons next spans => exact stops_comma _
    refine ⟨(span, v) :: items, ?_, by simp [hspans]⟩
    rw [joinRecords, List.append_assoc, scanItems_eq, nextItem_first hspan]
    simp only [ok_bind, hv _ hstop, hitems, consumed_append]

lemma rawValues_of_utf8 {items : List (Bytes × Lex)} (h : ∀ item ∈ items, isUtf8 item.1 = true) :
    rawValues items = some (items.map Prod.fst) := by
  induction items with
  | nil => rfl
  | cons item items ih =>
    obtain ⟨span, v⟩ := item
    have hspan : isUtf8 span = true := h (span, v) (by simp)
    rw [rawValues, if_pos hspan, ih (fun i hi => h i (List.mem_cons_of_mem _ hi))]
    rfl

/-- The bytes of `Records`. -/
def recordsName : Bytes := [0x52, 0x65, 0x63, 0x6F, 0x72, 0x64, 0x73]

def recordsKeyText : Bytes := quote :: (recordsName ++ [quote, colon])

lemma envelopeBody_eq (spans : List Bytes) : envelopeBody spans =
    openBrace :: (recordsKeyText ++ openBracket :: (joinRecords spans ++ [closeBracket, closeBrace])) := by
  have hopen : openEnvelope = openBrace :: (recordsKeyText ++ [openBracket]) := by decide +kernel
  have hclose : closeEnvelope = [closeBracket, closeBrace] := by decide +kernel
  simp [envelopeBody, hopen, hclose]

lemma scanKey_records (rest : Bytes) :
    scanKey .eof (recordsKeyText ++ rest) = .ok (recordsName, rest) := by
  have hcut : scanKey .cut recordsKeyText = .ok (recordsName, []) := by rfl
  have hagrees := scanKey_agrees .eof rest recordsKeyText
  rw [hcut] at hagrees
  exact hagrees

/-- The filtered envelope reads back as the records it was built from. -/
theorem envelopeFromSlice_envelopeBody {records : List Bytes} (h : ∀ record ∈ records, IsRecord record) :
    envelopeFromSlice (envelopeBody records) = some records := by
  obtain ⟨items, hitems, hspans⟩ := scanItems_joined (fun record hr => (h record hr).1) [closeBrace]
  have hvalue : scanValue .eof (openBracket :: (joinRecords records ++ [closeBracket, closeBrace])) =
      .ok (.arr items, [closeBrace]) := by
    have hhead : scanHead .eof (openBracket :: (joinRecords records ++ [closeBracket, closeBrace])) =
        .ok (.items, joinRecords records ++ [closeBracket, closeBrace]) := by
      rfl
    rw [scanValue_eq, hhead]
    simp only [ok_bind, hitems]
  have hend : scanMembers .eof false [closeBrace] = .ok ([], []) := by
    rw [scanMembers_eq, nextItem_close _ (by decide)]
    rfl
  have hdoc : scanDocument (envelopeBody records) = .ok (.obj [(recordsName, .arr items)]) := by
    rw [envelopeBody_eq, scanDocument, scanValue_eq]
    have hhead : scanHead .eof
        (openBrace :: (recordsKeyText ++ openBracket :: (joinRecords records ++ [closeBracket, closeBrace]))) =
        .ok (.members, recordsKeyText ++ openBracket :: (joinRecords records ++ [closeBracket, closeBrace])) := by
      rfl
    have hnext : nextItem .eof closeBrace true
        (recordsKeyText ++ openBracket :: (joinRecords records ++ [closeBracket, closeBrace])) =
        .ok (true, recordsKeyText ++ openBracket :: (joinRecords records ++ [closeBracket, closeBrace])) := by
      rfl
    rw [hhead]
    simp only [ok_bind]
    rw [scanMembers_eq, hnext]
    simp only [ok_bind, scanKey_records, hvalue, hend]
    rfl
  have hutf : ∀ item ∈ items, isUtf8 item.1 = true := by
    intro item hitem
    have hmem : item.1 ∈ records := by
      rw [← hspans]
      exact List.mem_map_of_mem hitem
    exact (h _ hmem).2
  rw [envelopeFromSlice, hdoc]
  have hkey : decodeString recordsName = some "Records" := by decide +kernel
  simp [envelopeOf, envelopeFields, hkey, rawValues_of_utf8 hutf, hspans, toOption_ok]

end Rebuilt

section Counts
variable {float : FloatParser} {engine : Engine}

lemma filterStep_recordsIn (acc : RecordTally × List Bytes) (text : Bytes) :
    (filterStep float engine acc text).1.recordsIn = acc.1.recordsIn + 1 := by
  unfold filterStep
  cases engine.evaluateRaw float text with
  | none => rfl
  | some d => cases d <;> rfl

lemma filterStep_parseErrors (acc : RecordTally × List Bytes) (text : Bytes) :
    (filterStep float engine acc text).1.parseErrors =
      acc.1.parseErrors + [text].countP (fun r => (engine.evaluateRaw float r).isNone) := by
  unfold filterStep
  cases hd : engine.evaluateRaw float text with
  | none => simp [hd, RecordTally.recordIn, RecordTally.parseError, RecordTally.keep]
  | some d => cases d <;> simp [hd, RecordTally.recordIn, RecordTally.keep, RecordTally.dropByRule]

lemma filterRecords_counts (records : List Bytes) :
    (filterRecords float engine records).1.recordsIn = records.length ∧
      (filterRecords float engine records).1.parseErrors =
        records.countP (fun r => (engine.evaluateRaw float r).isNone) := by
  have hfold : ∀ (records : List Bytes) (acc : RecordTally × List Bytes),
      (records.foldl (filterStep float engine) acc).1.recordsIn = acc.1.recordsIn + records.length ∧
        (records.foldl (filterStep float engine) acc).1.parseErrors =
          acc.1.parseErrors + records.countP (fun r => (engine.evaluateRaw float r).isNone) := by
    intro records
    induction records with
    | nil => intro acc; simp
    | cons text records ih =>
      intro acc
      obtain ⟨hin, herrors⟩ := ih (filterStep float engine acc text)
      rw [List.foldl_cons, hin, herrors, filterStep_recordsIn, filterStep_parseErrors]
      have hcount : (text :: records).countP (fun r => (engine.evaluateRaw float r).isNone) =
          [text].countP (fun r => (engine.evaluateRaw float r).isNone) +
            records.countP (fun r => (engine.evaluateRaw float r).isNone) := by
        rw [← List.countP_append]
        rfl
      refine ⟨by simp only [List.length_cons]; omega, by omega⟩
  have h := hfold records (.empty, [])
  simp only [RecordTally.empty, zero_add] at h
  exact h

/-- The records that are kept are all kept again, with the same counts and no drops. -/
lemma filterRecords_again (records : List Bytes) :
    let once := filterRecords float engine records
    let twice := filterRecords float engine once.2
    twice.2 = once.2 ∧ twice.1.kept = once.1.kept ∧ twice.1.parseErrors = once.1.parseErrors ∧
      twice.1.ruleDrops = 0 := by
  intro once twice
  have hsurvivors : once.2 = records.filter (keeps float engine) := filterRecords_survivors records
  have htwice : twice.2 = once.2 := by
    change (filterRecords float engine once.2).2 = once.2
    rw [filterRecords_survivors, hsurvivors, List.filter_filter]
    simp
  have honce : TallyOf once.1 once.2 := filterRecords_tally records
  have htally : TallyOf twice.1 twice.2 := filterRecords_tally once.2
  have hkept : twice.1.kept = once.1.kept := by rw [htally.kept, htwice, honce.kept]
  refine ⟨htwice, hkept, ?_, ?_⟩
  · have hunparsed : ∀ r, (engine.evaluateRaw float r).isNone = true → keeps float engine r = true := by
      intro r hr
      rw [Option.isNone_iff_eq_none] at hr
      simp [keeps, hr]
    change (filterRecords float engine once.2).1.parseErrors = (filterRecords float engine records).1.parseErrors
    rw [(filterRecords_counts _).2, (filterRecords_counts _).2, hsurvivors, List.countP_filter]
    apply List.countP_congr
    intro r _
    simpa using hunparsed r
  · have hin : twice.1.recordsIn = once.2.length := (filterRecords_counts once.2).1
    have hbalance := htally.balance
    rw [hin, hkept, honce.kept] at hbalance
    exact Multiset.card_eq_zero.mp (by omega)

end Counts

section Idempotent
variable {gz : Gzip}

/-- A run over an envelope that reads and decompresses. -/
lemma bufferRun_of_envelope {float : FloatParser} {engine : Engine} {cfg : Processing} {input text : Bytes}
    {records : List Bytes} (hread : decompressCapped gz cfg input = .ok text)
    (henv : envelopeFromSlice text = some records) (compressFails : Bool) :
    bufferRun gz float engine cfg compressFails input =
      if (filterRecords float engine records).2 = [] then .ok (.nothingKept, (filterRecords float engine records).1)
      else if compressFails then .error (.internal .compression)
      else .ok (.written (some (gzipCompressChunked gz (envelopeBody (filterRecords float engine records).2)
        cfg.gzipLevel cfg.gzipChunks)), (filterRecords float engine records).1) := by
  simp only [bufferRun, hread, ok_bind, henv]

lemma bufferRun_nothingKept {float : FloatParser} {engine : Engine} {cfg : Processing} {compressFails : Bool}
    {input : Bytes} {tally : RecordTally}
    (h : bufferRun gz float engine cfg compressFails input = .ok (.nothingKept, tally)) :
    ∃ text records, decompressCapped gz cfg input = .ok text ∧ envelopeFromSlice text = some records ∧
      (filterRecords float engine records).2 = [] := by
  obtain ⟨text, hread, h'⟩ := bind_ok_iff.mp h
  cases henv : envelopeFromSlice text with
  | none =>
    simp only [henv] at h'
    split at h' <;> simp at h'
  | some records =>
    rw [bufferRun_of_envelope hread henv] at h
    split_ifs at h with hnil
    · exact ⟨text, records, hread, henv, hnil⟩
    · simp at h

lemma filter_keeps_eq_nil_iff {float : FloatParser} {engine : Engine} {records : List Bytes} :
    records.filter (keeps float engine) = [] ↔
      ∀ record ∈ records, ∃ ruleIdx, engine.evaluateRaw float record = some (.drop ruleIdx) := by
  rw [List.filter_eq_nil_iff]
  apply forall₂_congr
  intro record _
  unfold keeps
  cases engine.evaluateRaw float record with
  | none => simp
  | some d => cases d <;> simp

/-- A kept record goes out as it came in. The output reads back as the kept records, and a second
run keeps all of them. -/
theorem bufferRun_verbatim (hgz : gz.Lawful) (float : FloatParser) (engine : Engine) (cfg : Processing)
    (compressFails : Bool) (input : Bytes) :
    (∀ out tally, bufferRun gz float engine cfg compressFails input = .ok (.written (some out), tally) →
      ∃ text records, decompressCapped gz cfg input = .ok text ∧ envelopeFromSlice text = some records ∧
        let survivors := records.filter (keeps float engine)
        gz.readToEnd out = (envelopeBody survivors, true) ∧
        envelopeFromSlice (envelopeBody survivors) = some survivors ∧
        ∀ cfg' : Processing, (envelopeBody survivors).length ≤ cfg'.maxObjectBytes →
          ∃ out' tally', bufferRun gz float engine cfg' false out = .ok (.written (some out'), tally') ∧
            gz.readToEnd out' = (envelopeBody survivors, true) ∧ tally'.kept = tally.kept ∧
            tally'.parseErrors = tally.parseErrors ∧ tally'.ruleDrops = 0) ∧
    ((∃ tally, bufferRun gz float engine cfg compressFails input = .ok (.nothingKept, tally)) ↔
      ∃ text records, decompressCapped gz cfg input = .ok text ∧ envelopeFromSlice text = some records ∧
        ∀ record ∈ records, ∃ ruleIdx, engine.evaluateRaw float record = some (.drop ruleIdx)) := by
  constructor
  · intro out tally h
    obtain ⟨text, records, hread, henv, rfl, rfl⟩ := bufferRun_written h
    have hrecords := envelopeFromSlice_records henv
    have hsurvivors := @filterRecords_survivors float engine records
    have hreread : envelopeFromSlice (envelopeBody (records.filter (keeps float engine))) =
        some (records.filter (keeps float engine)) :=
      envelopeFromSlice_envelopeBody (fun record hr => hrecords record (List.mem_of_mem_filter hr))
    have hne : (filterRecords float engine records).2 ≠ [] := by
      intro hnil
      rw [bufferRun_of_envelope hread henv, if_pos hnil] at h
      simp at h
    obtain ⟨htwice, hkept, herrors, hdrops⟩ := @filterRecords_again float engine records
    rw [hsurvivors] at htwice hkept herrors hdrops hne ⊢
    have hout := readToEnd_chunked hgz (envelopeBody (records.filter (keeps float engine))) cfg.gzipLevel cfg.gzipChunks
    refine ⟨text, records, hread, henv, hout, hreread, ?_⟩
    intro cfg' hcap
    have hread' : decompressCapped gz cfg' (gzipCompressChunked gz
        (envelopeBody (records.filter (keeps float engine))) cfg.gzipLevel cfg.gzipChunks) =
        .ok (envelopeBody (records.filter (keeps float engine))) := by
      simp [decompressCapped, hout, hcap]
    refine ⟨_, _, ?_, readToEnd_chunked hgz _ cfg'.gzipLevel cfg'.gzipChunks, hkept, herrors, hdrops⟩
    rw [bufferRun_of_envelope hread' hreread, htwice, if_neg hne]
    rfl
  · constructor
    · rintro ⟨tally, h⟩
      obtain ⟨text, records, hread, henv, hnil⟩ := bufferRun_nothingKept h
      rw [filterRecords_survivors] at hnil
      exact ⟨text, records, hread, henv, filter_keeps_eq_nil_iff.mp hnil⟩
    · rintro ⟨text, records, hread, henv, hdropped⟩
      have hnil := filter_keeps_eq_nil_iff.mpr hdropped
      rw [← filterRecords_survivors] at hnil
      exact ⟨_, by rw [bufferRun_of_envelope hread henv, if_pos hnil]⟩

/-- Records of several shapes: one the sample rule drops, and a lone surrogate that does not parse. -/
def mixedText : String := "\x7b\"Records\":[\x7b\"eventName\":\"A\"\x7d ,\"\\ud800\", [7 ]]\x7d"

def mixedSurvivors : String := "\x7b\"Records\":[\"\\ud800\",[7 ]]\x7d"

theorem bufferRun_verbatim_sample :
    let engine := Engine.assemble [⟨"noise", [⟨keyPath "eventName", .equals "A", false, 0⟩]⟩]
    bufferRun storedGzip (fun _ => none) engine sampleProcessing false (storedMember mixedText.toUTF8.toList) =
        .ok (.written (some (storedMember mixedSurvivors.toUTF8.toList)), ⟨3, 2, 1, {0}⟩) ∧
      ∃ text records, decompressCapped storedGzip sampleProcessing (storedMember mixedText.toUTF8.toList) = .ok text ∧
        envelopeFromSlice text = some records ∧
        let survivors := records.filter (keeps (fun _ => none) engine)
        storedGzip.readToEnd (storedMember mixedSurvivors.toUTF8.toList) = (envelopeBody survivors, true) ∧
        envelopeFromSlice (envelopeBody survivors) = some survivors ∧
        ∀ cfg' : Processing, (envelopeBody survivors).length ≤ cfg'.maxObjectBytes →
          ∃ out' tally', bufferRun storedGzip (fun _ => none) engine cfg' false
              (storedMember mixedSurvivors.toUTF8.toList) = .ok (.written (some out'), tally') ∧
            storedGzip.readToEnd out' = (envelopeBody survivors, true) ∧ tally'.kept = 2 ∧
            tally'.parseErrors = 1 ∧ tally'.ruleDrops = 0 := by
  intro engine
  have hrun : bufferRun storedGzip (fun _ => none) engine sampleProcessing false
      (storedMember mixedText.toUTF8.toList) =
      .ok (.written (some (storedMember mixedSurvivors.toUTF8.toList)), ⟨3, 2, 1, {0}⟩) := by
    decide +kernel
  exact ⟨hrun, (bufferRun_verbatim storedGzip_lawful (fun _ => none) engine sampleProcessing false _).1 _ _ hrun⟩

end Idempotent

end CloudTrailFilter.Process
