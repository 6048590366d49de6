import CloudTrailFilter.Pipeline.Container
import CloudTrailFilter.Pipeline.Redelivery
import CloudTrailFilter.Process.Stages

/-!
# What a container does with its objects

From the configuration document to the bytes at the destination: which ruleset an invocation of a
container runs under, what it does without one, and that what it writes of an envelope are the
records its engine keeps, which are those that no rule of the document drops as far as the literals
of its regexes are sound.
-/

namespace CloudTrailFilter

namespace Filter
open CloudTrailFilter.Json

/-- A record that parses, and has no raw value, is decided by what it parses to. -/
lemma evaluateRaw_of_parse (float : FloatParser) {text : Bytes} {record : Value}
    (hparse : Value.fromSlice float text = some record)
    (htoken : ∀ tree, Tree.fromSlice float text = some tree → tree.tokenFree = true) {engine : Engine}
    (hbuilt : engine.Built) : engine.evaluateRaw float text = some (engine.evaluate record) := by
  obtain ⟨tree, htree⟩ := Tree.of_fromSlice float hparse
  have hplain : record = tree.plain := by
    have hsame := Value.fromSlice_eq_plain float htree (htoken tree htree)
    rw [hparse] at hsame
    exact Option.some.inj hsame
  rw [hbuilt.evaluateRaw_eq htree (htoken tree htree), hplain]

end Filter

namespace Pipeline
open CloudTrailFilter.Json CloudTrailFilter.Filter CloudTrailFilter.Process

section Serving
variable {B : RulesBackend} {gz : Gzip} {float : FloatParser} {settings : Settings} {ttl : ℕ} {doc : Config.Document}

/-- An engine of a rules document: the document parses, and the engine is built from its rules. -/
lemma compileRules_ok {bytes : Bytes} {engine : Engine} (h : compileRules B bytes = .ok engine) :
    ∃ rs major, RuleSet.parse B bytes = .ok rs ∧ Engine.new B rs = .ok engine ∧
      B.semverMajor rs.version = .ok major := by
  obtain ⟨rs, hparse, hnew⟩ := Fallible.bind_ok_iff.mp h
  obtain ⟨major, hmajor⟩ := major_of_new hnew
  exact ⟨rs, major, hparse, hnew, hmajor⟩

/-- Of the records that parse and have no raw value, just those are kept that no rule of a document
drops. -/
def KeepsUndropped (B : RulesBackend) (float : FloatParser) (rs : RuleSet) (major : ℕ) (keep : Bytes → Bool) : Prop :=
  ∀ text record, Value.fromSlice float text = some record →
    (∀ tree, Tree.fromSlice float text = some tree → tree.tokenFree = true) →
    (keep text = true ↔ ∀ rule ∈ rs.rules, ¬rule.Drops B major record)

lemma keeps_undropped {rs : RuleSet} {engine : Engine} {major : ℕ} (hnew : Engine.new B rs = .ok engine)
    (hmajor : B.semverMajor rs.version = .ok major) (hsound : engine.LiteralsSound) :
    KeepsUndropped B float rs major (keeps float engine) := by
  intro text record hparse htoken
  have hbuilt := Engine.new_built B hnew
  rw [← evaluateLinear_keep_iff hnew hmajor record, ← Engine.evaluate_of_sound hbuilt hsound record, keeps,
    evaluateRaw_of_parse float hparse htoken hbuilt]
  cases engine.evaluate record <;> simp

/-- The body of an envelope's object is that of the records its engine keeps. -/
lemma written_envelope (hgz : gz.Lawful) {engine : Engine} {object : ObjectRef} {source text body : Bytes}
    {records : List Bytes} (hread : gz.readToEnd source = (text, true)) (hutf : isUtf8 text = true)
    (hrecords : soleRecords text = some records)
    (h : written gz float settings (some engine) object source = some body) :
    gz.readToEnd body = (envelopeBody (records.filter (keeps float engine)), true) := by
  simp only [written] at h
  split_ifs at h
  exact fate_envelope hgz hread (envelopeFromSlice_of_sole hutf hrecords)
    (sourceRecords_of_sole float hread hutf hrecords) (Option.join_eq_some_iff.mp h)

variable {calls : List (Config.Call Engine)} {served : List Served} {cached : Option (Config.Cached Engine)}
  {metrics : AtomicMetrics (Word 64)} {revision clock : ℕ}

/-- From the rules document to the destination. In every run of a container and under any rewrites of
the rules document, an invocation is without a ruleset exactly as long as no load has succeeded.
Without one it fails before any call of the store if configuration errors close, and otherwise it
writes nothing but verbatim copies. With one its engine is built from the rules that one revision of
the document had, and from a source that is an envelope in UTF-8 with one `Records` it writes the
envelope of those records that the engine keeps. If the literals of the engine's regexes are sound,
these are, of the records that parse and have no raw value, the ones no rule drops. -/
theorem container_filters (hgz : gz.Lawful)
    (h : Serves B gz float settings ttl doc calls served cached metrics revision clock) (inv : Invocation)
    {items : List SourceItem} (hdecoded : inv.decoded = .ok items)
    (hfollows : inv.Follows B gz float settings ttl doc cached revision clock)
    (sources : Location → Option Bytes)
    (hreads : ∀ t ∈ (queueOf settings (inv.engine B ttl) inv.decoded).zipIdx,
      (inv.attempts t.2).Of (sources (t.1.object.bucket, t.1.object.key))) :
    (inv.engine B ttl = none ↔ ∀ call ∈ calls ++ [inv.get], ∀ bytes version value,
      ¬call.Loads (compileRules B) ttl bytes version value) ∧
    (inv.engine B ttl = none → settings.behavior.onConfigError = .closed → inv.outcome =
      ⟨.error (.config "no compiled ruleset is cached and on_config_error is 'closed'"), [], 0⟩) ∧
    (inv.engine B ttl = none → ∀ write ∈ landed inv.outcome, ∃ object : ObjectRef,
      write.1 = destOf settings object ∧ sources (object.bucket, object.key) = some write.2) ∧
    ∀ engine, inv.engine B ttl = some engine → ∃ r ≤ inv.get.stop, ∃ rs major,
      RuleSet.parse B (doc.content r) = .ok rs ∧ Engine.new B rs = .ok engine ∧
      B.semverMajor rs.version = .ok major ∧
      (engine.LiteralsSound → KeepsUndropped B float rs major (keeps float engine)) ∧
      ∀ write ∈ landed inv.outcome, ∃ (object : ObjectRef) (source : Bytes),
        write.1 = destOf settings object ∧ sources (object.bucket, object.key) = some source ∧
        ∀ text records, gz.readToEnd source = (text, true) → isUtf8 text = true →
          soleRecords text = some records →
            gz.readToEnd write.2 = (envelopeBody (records.filter (keeps float engine)), true) := by
  have hrun := Config.Run.call inv.get h.config hfollows.before hfollows.start hfollows.observes hfollows.clock
  have hfresh := hrun.fresh
  let delivery : Delivery gz float settings (inv.engine B ttl) sources :=
    ⟨inv.decoded, inv.attempts, inv.outcome, hfollows.handles, hreads⟩
  have hwrites : ∀ write ∈ landed inv.outcome, ∃ w : Work, w.dest = destOf settings w.object ∧
      writeOf gz float settings (inv.engine B ttl) sources w = some write := by
    intro write hwrite
    obtain ⟨w, hw, hwrite⟩ := Delivery.writeOf_of_landed (d := delivery) hgz hwrite
    exact ⟨w, Delivery.dest_eq (d := delivery) hw, hwrite⟩
  refine ⟨?_, ?_, ?_, ?_⟩
  · constructor
    · intro hnone call hcall bytes version value hloads
      have hsome := hfresh.loaded call hcall bytes version value hloads
      rw [Invocation.engine, Config.Call.returned, Option.map_eq_none_iff] at hnone
      simp [hnone] at hsome
    · intro hnever
      rw [Invocation.engine, Config.Call.returned, Option.map_eq_none_iff]
      by_contra hne
      obtain ⟨c, hc⟩ := Option.ne_none_iff_exists'.mp hne
      obtain ⟨call, hcall, bytes, hloads⟩ := hfresh.origin c hc
      exact hnever call hcall bytes c.version c.value hloads
  · intro hnone hclosed
    have hhandles := hfollows.handles
    rw [hnone, hdecoded] at hhandles
    refine hhandles.refused ?_
    simp only [openBatch, hclosed]
    simp
    rfl
  · intro hnone write hwrite
    obtain ⟨w, hdest, hw⟩ := hwrites write hwrite
    rw [hnone] at hw
    obtain ⟨body, hbody, rfl⟩ := Option.map_eq_some_iff.mp hw
    obtain ⟨source, hsource, hwritten⟩ := Option.bind_eq_some_iff.mp hbody
    cases hwritten
    exact ⟨w.object, hdest, hsource⟩
  · intro engine hengine
    obtain ⟨c, hc, rfl⟩ := Option.map_eq_some_iff.mp hengine
    obtain ⟨_, r, -, hcompile, -, hle⟩ := hfresh.revisions c hc
    obtain ⟨rs, major, hparse, hnew, hmajor⟩ := compileRules_ok hcompile
    refine ⟨r, hle, rs, major, hparse, hnew, hmajor, keeps_undropped hnew hmajor, ?_⟩
    intro write hwrite
    obtain ⟨w, hdest, hw⟩ := hwrites write hwrite
    rw [hengine] at hw
    obtain ⟨body, hbody, rfl⟩ := Option.map_eq_some_iff.mp hw
    obtain ⟨source, hsource, hwritten⟩ := Option.bind_eq_some_iff.mp hbody
    refine ⟨w.object, source, hdest, hsource, ?_⟩
    intro text records hread hutf hrecords
    exact written_envelope hgz hread hutf hrecords hwritten

def ruledSources (_ : Location) : Option Bytes := some (sampleBody ruledText).bytes

lemma sampleAttempt_of (text : String) : (sampleAttempt text).Of (some (sampleBody text).bytes) := by
  have hof : GetAnswer.Of (some (sampleBody text).bytes) (.body (sampleBody text)) := ⟨_, rfl, rfl⟩
  exact ⟨hof, hof, hof⟩

/-- The first invocation of a container without rules fails, and the second, which finds them,
writes the record that they leave. -/
theorem container_filters_sample : ∃ calls served metrics, ∃ (inv : Invocation) (engine : Engine)
    (write : Location × Bytes) (kept dropped : Bytes),
    Serves sampleBackend storedGzip (fun _ => none) sampleSettings 60 Config.sampleDocument calls served none metrics 0 1 ∧
      inv.engine sampleBackend 60 = some engine ∧
      inv.Follows sampleBackend storedGzip (fun _ => none) sampleSettings 60 Config.sampleDocument none 0 1 ∧
      landed inv.outcome = [write] ∧ soleRecords ruledText.toUTF8.toList = some [kept, dropped] ∧
      storedGzip.readToEnd write.2 = (envelopeBody [kept], true) ∧
      KeepsUndropped sampleBackend (fun _ => none) sampleRules 2 (keeps (fun _ => none) engine) := by
  obtain ⟨engine, hengine⟩ : ∃ engine, Engine.new sampleBackend sampleRules = .ok engine := ⟨_, rfl⟩
  obtain ⟨calls, served, metrics, hclosed, -, -⟩ := closedContainer
  obtain ⟨inv, hdecoded, -, hattempts, hreturned, hfollows, -, -, hlanded⟩ := exists_ruledInvocation hengine
  obtain ⟨write, hwrite⟩ := List.length_eq_one_iff.mp hlanded
  obtain ⟨-, -, -, hfilters⟩ := container_filters storedGzip_lawful hclosed inv hdecoded hfollows ruledSources
    (fun _ _ => hattempts ▸ sampleAttempt_of ruledText)
  obtain ⟨r, -, rs, major, hparse, -, hmajor, hkeeps, hwrites⟩ := hfilters engine hreturned
  obtain rfl : sampleRules = rs := Except.ok.inj hparse
  obtain rfl : 2 = major := Except.ok.inj hmajor
  obtain ⟨_, source, -, hsource, henvelope⟩ := hwrites write (by rw [hwrite]; exact List.mem_singleton_self _)
  obtain rfl := Option.some.inj hsource
  have hread : storedGzip.readToEnd (sampleBody ruledText).bytes = (ruledText.toUTF8.toList, true) := by decide +kernel
  let kept : Bytes := "\x7b\"userIdentity\":\x7b\"type\":\"R\"\x7d\x7d".toUTF8.toList
  let dropped : Bytes := "\x7b\x7d".toUTF8.toList
  have hrecords : soleRecords ruledText.toUTF8.toList = some [kept, dropped] := by decide +kernel
  have hkept : (Engine.new sampleBackend sampleRules).toOption.map
      (fun engine => [kept, dropped].filter (keeps (fun _ => none) engine)) = some [kept] := by decide +kernel
  simp only [hengine, Fallible.toOption_ok, Option.map_some, Option.some.injEq] at hkept
  refine ⟨calls, served, metrics, inv, engine, write, kept, dropped, hclosed, hreturned, hfollows, hwrite, hrecords,
    ?_, hkeeps (literalsSound_of_patterns hengine sampleRules_sound)⟩
  rw [henvelope _ _ hread (by decide +kernel) hrecords, hkept]

end Serving

end Pipeline

end CloudTrailFilter
