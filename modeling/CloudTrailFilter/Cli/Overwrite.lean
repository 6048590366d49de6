import CloudTrailFilter.Cli.Mirror
import CloudTrailFilter.Pipeline.Feedback
import CloudTrailFilter.Pipeline.Source

/-!
# Sources that a batch overwrites

`Filterer::overwrites_source` compares an object with its own destination. A batch leaves all of its
sources alone when no object that is written has another source for its destination, and when an
object that is its own destination can be told to be.
-/

namespace CloudTrailFilter.Cli
open CloudTrailFilter.Json CloudTrailFilter.Filter CloudTrailFilter.Process Fallible
open CloudTrailFilter.Pipeline (Attempt StoreCall)

section Writes

/-- The temporary sibling that a local stream is written to before it is renamed. -/
def partialKey (pid : ℕ) (key : String) : String := key ++ "." ++ toString pid ++ ".partial"

/-- Where a call of the destination's store writes. A local `put` that fails may have truncated its
file. -/
def writes (cwd : List String) (pid : ℕ) (dst : Location) : StoreCall → List Place
  | .getStream _ => []
  | .put (_, key) _ landed =>
    match dst with
    | .local _ => [place cwd dst key]
    | .s3 _ _ => if landed then [place cwd dst key] else []
  | .putStream (_, key) landed =>
    match dst with
    | .local _ => place cwd dst (partialKey pid key) :: (if landed.isSome then [place cwd dst key] else [])
    | .s3 _ _ => if landed.isSome then [place cwd dst key] else []

/-- Where a source object is. No path that a run writes names a file whose name is no UTF-8. -/
def Origin.place (cwd : List String) : Origin → Option Place
  | .file root names _ =>
    (names.mapM (fun name => (utf8Decode name).map String.ofList)).map
      (fun names => .file ((Path.new root).resolve cwd ++ names))
  | .object bucket _ key => some (.object bucket key)

/-- A key that an object is its own destination under, and that the guard can tell to be: on a local
side both paths lead to a directory that exists. -/
def OwnSource (cwd : List String) (canonicalize : Path → Option Path) (src dst : Location) (srcKey dstKey : String) :
    Prop :=
  place cwd src srcKey = place cwd dst dstKey ∧
    match dst with
    | .local _ => (canonical canonicalize (Path.new srcKey)).isSome ∧ (canonical canonicalize (Path.new dstKey)).isSome
    | .s3 _ _ => True

/-- A place at which no source object is. -/
def NoSource (cwd : List String) (sources : List Origin) (p : Place) : Prop :=
  ∀ origin ∈ sources, origin.place cwd ≠ some p

section Spared
variable (gz : Gzip) (float : FloatParser) (f : Filterer) (attempt : Attempt)

/-- An object that is filtered in memory: selected for buffer mode, and not too large for it if that would
send it to stream mode. -/
def InMemory (size : Option ℕ) : Prop :=
  f.cfg.selectMode size = .buffer ∧ (f.cfg.onObjectTooLarge = .stream → ∀ body, attempt.fetch = .body body →
    body.bytes.length ≤ f.cfg.processing.maxObjectBytes ∧
      (gz.readToEnd body.bytes).1.length ≤ f.cfg.processing.maxObjectBytes)

/-- An object that is an envelope, read by a lawful decoder, all of whose records the rules drop. -/
def AllDropped : Prop :=
  gz.Lawful ∧ ∃ source text records, attempt.Reads source ∧ gz.readToEnd source = (text, true) ∧ isUtf8 text = true ∧
    soleRecords text = some records ∧ records.filter (keeps float f.engine) = []

/-- An object that writes at no source: its destination is none, unless all of its records are dropped, and on a
local side the temporary sibling is none, unless it is filtered in memory. -/
structure Spares (cwd : List String) (pid : ℕ) (sources : List Origin) (size : Option ℕ) (dstKey : String) : Prop where
  key : NoSource cwd sources (place cwd f.dst dstKey) ∨ AllDropped gz float f attempt
  sibling : ∀ root, f.dst = .local root →
    NoSource cwd sources (place cwd f.dst (partialKey pid dstKey)) ∨ InMemory gz f attempt size

end Spared

variable {gz : Gzip} {float : FloatParser} {f : Filterer} {attempt : Attempt} {cwd : List String} {pid : ℕ}
  {canonicalize : Path → Option Path}

/-- The guard refuses an object that is its own destination and can be told to be. -/
lemma overwritesSource_of_ownSource (hfs : LinkFree cwd canonicalize) {srcKey dstKey : String}
    (h : OwnSource cwd canonicalize f.src f.dst srcKey dstKey) : f.overwritesSource canonicalize srcKey dstKey = true := by
  obtain ⟨hplace, hresolves⟩ := h
  unfold Filterer.overwritesSource
  cases hsrc : f.src with
  | s3 sb pre =>
    cases hdst : f.dst with
    | s3 db pre' =>
      rw [hsrc, hdst] at hplace
      simpa [place] using hplace
    | «local» root =>
      rw [hsrc, hdst] at hplace
      simp [place] at hplace
  | «local» root =>
    cases hdst : f.dst with
    | s3 db pre =>
      rw [hsrc, hdst] at hplace
      simp [place] at hplace
    | «local» root' =>
      rw [hsrc, hdst] at hplace
      rw [hdst] at hresolves
      obtain ⟨s, hs⟩ := Option.isSome_iff_exists.mp hresolves.1
      obtain ⟨d, hd⟩ := Option.isSome_iff_exists.mp hresolves.2
      have hsame : s = d := by
        rw [canonical_eq hfs hs, canonical_eq hfs hd, absolute_inj]
        exact Place.file.inj hplace
      simp [hs, hd, hsame]

/-- The settings of a deployment under which the pipeline does what a filter run does. -/
def pipelineSettings (cfg : FilterConfig) : Settings where
  keyFilter := cfg.keys
  destination := ⟨"", ""⟩
  processing := cfg.processing
  behavior := ⟨cfg.dryRun, .open, .error, cfg.onUnrecognized, cfg.onParseError, cfg.onObjectTooLarge, false⟩

/-- An object that is filtered writes at its destination only. -/
lemma process_targets {srcKey dstKey : String} (hdest : f.overwritesSource canonicalize srcKey dstKey = false)
    (size : Option ℕ) : ∀ c ∈ (f.process gz float canonicalize attempt srcKey dstKey size).calls,
      c.target = none ∨ c.target = some (f.dest dstKey) := by
  have hagrees := @agrees_process (pipelineSettings f.cfg) attempt f gz float canonicalize rfl rfl srcKey dstKey size hdest
  have hcalls := hagrees.calls
  simp only [List.filter_true] at hcalls
  rw [hcalls]
  exact (Pipeline.contained_processWork gz float (pipelineSettings f.cfg) (some f.engine) attempt
    ⟨0, ⟨f.src.bucket, srcKey, size⟩, f.dest dstKey⟩).calls

/-- A call that leaves nothing at a destination: a read, or an upload that is aborted. -/
def LeavesNothing : StoreCall → Prop
  | .getStream _ => True
  | .put _ _ _ => False
  | .putStream _ landed => landed = none

/-- What a call at a key writes is there, if it leaves something, or a stream's at its temporary sibling. -/
lemma writes_cases {c : StoreCall} {bucket key : String} (h : c.target = none ∨ c.target = some (bucket, key))
    {dst : Location} {p : Place} (hp : p ∈ writes cwd pid dst c) :
    p = place cwd dst key ∧ ¬LeavesNothing c ∨
      ∃ root dest landed, dst = .local root ∧ p = place cwd dst (partialKey pid key) ∧ c = .putStream dest landed := by
  cases c with
  | getStream source => simp [writes] at hp
  | put dest body landed =>
    obtain ⟨b, k⟩ := dest
    obtain ⟨rfl, rfl⟩ : b = bucket ∧ k = key := by simpa [StoreCall.target] using h
    left
    cases dst with
    | «local» root => simpa [writes, LeavesNothing] using hp
    | s3 db pre =>
      simp only [writes] at hp
      split_ifs at hp
      · simpa [LeavesNothing] using hp
      · simp at hp
  | putStream dest landed =>
    obtain ⟨b, k⟩ := dest
    obtain ⟨rfl, rfl⟩ : b = bucket ∧ k = key := by simpa [StoreCall.target] using h
    cases landed with
    | none =>
      cases dst with
      | «local» root => exact .inr ⟨root, _, _, rfl, by simpa [writes] using hp, rfl⟩
      | s3 db pre => simp [writes] at hp
    | some body =>
      cases dst with
      | «local» root =>
        simp only [writes, Option.isSome_some, if_true, List.mem_cons, List.not_mem_nil, or_false] at hp
        rcases hp with rfl | rfl
        · exact .inr ⟨root, _, _, rfl, rfl, rfl⟩
        · exact .inl ⟨rfl, by simp [LeavesNothing]⟩
      | s3 db pre =>
        left
        simpa [writes, LeavesNothing] using hp

lemma writes_at {c : StoreCall} {bucket key : String} (h : c.target = none ∨ c.target = some (bucket, key))
    {dst : Location} {p : Place} (hp : p ∈ writes cwd pid dst c) :
    p = place cwd dst key ∨ (∃ root, dst = .local root) ∧ p = place cwd dst (partialKey pid key) := by
  rcases writes_cases h hp with ⟨hplace, -⟩ | ⟨root, _, _, hroot, hplace, -⟩
  · exact .inl hplace
  · exact .inr ⟨⟨root, hroot⟩, hplace⟩

end Writes

section Calls
variable {gz : Gzip} {float : FloatParser} {f : Filterer} {attempt : Attempt}

/-- A fetch delivers the object whole, finds it too large or fails. -/
lemma fetchCapped_result (srcKey : String) :
    (∀ c ∈ (f.fetchCapped attempt srcKey).calls, c = .getStream (f.source srcKey)) ∧
    ((∃ body, attempt.fetch = .body body ∧ body.ending = .eof ∧
        (f.fetchCapped attempt srcKey).result = .ok body.bytes) ∨
      (∃ body, attempt.fetch = .body body ∧ f.cfg.processing.maxObjectBytes < body.bytes.length ∧
        (f.fetchCapped attempt srcKey).result = .error (.objectTooLarge f.cfg.processing.maxObjectBytes)) ∨
      ∃ e, (f.fetchCapped attempt srcKey).result = .error (.store e)) := by
  unfold Filterer.fetchCapped Filterer.getStream
  cases hfetch : attempt.fetch with
  | notFound => exact ⟨by simp [Effect.mapError, Except.mapError, Effect.error_bind], .inr (.inr ⟨_, rfl⟩)⟩
  | failed message => exact ⟨by simp [Effect.mapError, Except.mapError, Effect.error_bind], .inr (.inr ⟨_, rfl⟩)⟩
  | body body =>
    simp only [Effect.call_bind, Effect.pure_result, Effect.pure_calls, Effect.pure_metrics, Effect.mapError,
      Except.mapError, Effect.ok_bind]
    split_ifs with hlarge
    · exact ⟨by simp, .inr (.inl ⟨body, rfl, hlarge, rfl⟩)⟩
    · cases hend : body.ending with
      | eof => exact ⟨by simp, .inl ⟨body, rfl, hend, rfl⟩⟩
      | failed message => exact ⟨by simp, .inr (.inr ⟨_, rfl⟩)⟩

/-- The calls of a run of buffer mode are the fetch and those of what follows from it. -/
lemma runBuffer_calls {P : StoreCall → Prop} {srcKey dstKey : String} (hget : P (.getStream (f.source srcKey)))
    (hfetched : ∀ body, attempt.fetch = .body body → body.ending = .eof →
      ∀ c ∈ (f.conclude gz float attempt srcKey dstKey (some body.bytes)
        (bufferRun gz float f.engine f.cfg.processing attempt.compressFails body.bytes)).calls, P c)
    (hlarge : ∀ body, attempt.fetch = .body body → f.cfg.processing.maxObjectBytes < body.bytes.length →
      ∀ c ∈ (f.conclude gz float attempt srcKey dstKey none
        (.error (.objectTooLarge f.cfg.processing.maxObjectBytes))).calls, P c) :
    ∀ c ∈ (f.runBuffer gz float attempt srcKey dstKey).calls, P c := by
  obtain ⟨hcalls, hresult⟩ := @fetchCapped_result f attempt srcKey
  have hreads : ∀ c ∈ (f.fetchCapped attempt srcKey).calls, P c := fun c hc => hcalls c hc ▸ hget
  unfold Filterer.runBuffer Filterer.bufferEval
  rcases hresult with ⟨body, hbody, hend, hfetch⟩ | ⟨body, hbody, hlt, hfetch⟩ | ⟨e, hfetch⟩
  · rw [Effect.bind_of_ok hfetch]
    refine Effect.bind_calls_of_ok (by simpa [Effect.attempt, Effect.mapError] using hreads) ?_
    intro evaluated hok
    cases hok
    exact hfetched body hbody hend
  · rw [Effect.bind_of_error hfetch]
    refine Effect.bind_calls_of_ok hreads ?_
    intro evaluated hok
    cases hok
    exact hlarge body hbody hlt
  · rw [Effect.bind_of_error hfetch]
    refine Effect.bind_calls_of_ok hreads ?_
    intro evaluated hok
    cases hok
    simp [Filterer.conclude, Filterer.retriesViaStream, Filterer.copiesUnparsable, CoreError.isUnparsableSource]

lemma put_calls (dstKey : String) (bytes : Bytes) :
    ∀ c ∈ (f.put attempt dstKey bytes).calls, ∃ landed, c = .put (f.dest dstKey) bytes landed := by
  unfold Filterer.put
  cases attempt.put <;> simp

lemma unrecognized_calls {P : StoreCall → Prop} {srcKey dstKey : String} {bytes : Bytes}
    (hput : ∀ landed, P (.put (f.dest dstKey) bytes landed)) :
    ∀ c ∈ (f.unrecognized attempt srcKey dstKey (some bytes)).calls, P c := by
  unfold Filterer.unrecognized Filterer.copy
  cases f.cfg.onUnrecognized with
  | copy =>
    refine Effect.bind_calls (by simp [Effect.publish]) (fun _ => Effect.bind_calls ?_ (by simp))
    intro c hc
    obtain ⟨landed, rfl⟩ := put_calls dstKey bytes c hc
    exact hput landed
  | skip => simp [Effect.publish]
  | error => simp

/-- What follows an evaluation in memory that is not retried are puts of the bytes that are there. -/
lemma conclude_calls {P : StoreCall → Prop} {srcKey dstKey : String} {bytes : Bytes}
    {result : Except CoreError (Outcome × RecordTally)} (hretry : ∀ e, result = .error e → f.retriesViaStream e = false)
    (hcopied : (∃ e, result = .error e ∧ f.copiesUnparsable e = true) ∨ (∃ tally, result = .ok (.unrecognized, tally)) →
      ∀ landed, P (.put (f.dest dstKey) bytes landed))
    (hwritten : ∀ out tally, result = .ok (.written (some out), tally) → ∀ landed, P (.put (f.dest dstKey) out landed)) :
    ∀ c ∈ (f.conclude gz float attempt srcKey dstKey (some bytes) result).calls, P c := by
  unfold Filterer.conclude
  cases result with
  | error e =>
    simp only [hretry e rfl, Bool.false_eq_true, if_false]
    split_ifs with hcopies
    · unfold Filterer.copyUnparsable Filterer.copy
      refine Effect.bind_calls (by simp [Effect.publish]) (fun _ => ?_)
      split_ifs
      · simp
      · refine Effect.bind_calls ?_ (by simp)
        intro c hc
        obtain ⟨landed, rfl⟩ := put_calls dstKey bytes c hc
        exact hcopied (.inl ⟨e, rfl, hcopies⟩) landed
    · simp
  | ok r =>
    obtain ⟨outcome, tally⟩ := r
    refine Effect.bind_calls ?_ (fun _ => by simp [Effect.publish])
    unfold Filterer.writeOutcome
    split_ifs
    · simp [Effect.publish]
    · simp
    · cases outcome with
      | written body =>
        cases body with
        | some out =>
          refine Effect.bind_calls ?_ (by simp)
          intro c hc
          obtain ⟨landed, rfl⟩ := put_calls dstKey out c hc
          exact hwritten out tally rfl landed
        | none => simp
      | nothingKept => simp
      | unrecognized => exact unrecognized_calls (hcopied (.inr ⟨tally, rfl⟩))

/-- Buffer mode finds an object too large by its text only. -/
lemma bufferRun_tooLarge {compressFails : Bool} {input : Bytes} {limit : ℕ}
    (h : bufferRun gz float f.engine f.cfg.processing compressFails input = .error (.objectTooLarge limit)) :
    f.cfg.processing.maxObjectBytes < (gz.readToEnd input).1.length := by
  by_contra hfits
  have hread : decompressCapped gz f.cfg.processing input =
      if (gz.readToEnd input).2 then .ok (gz.readToEnd input).1 else .error .gzip :=
    decompressCapped_fits rfl (by omega)
  unfold bufferRun at h
  rw [hread] at h
  cases hintact : (gz.readToEnd input).2 with
  | false => simp [hintact] at h
  | true =>
    simp only [hintact, if_true, ok_bind] at h
    cases henv : envelopeFromSlice (gz.readToEnd input).1 with
    | none =>
      simp only [henv] at h
      cases hvalue : Value.fromSlice float (gz.readToEnd input).1 <;> simp [hvalue] at h
    | some records =>
      simp only [henv] at h
      split_ifs at h
      simp at h

/-- An object that is filtered in memory is not streamed. -/
lemma runBuffer_inMemory {size : Option ℕ} (h : InMemory gz f attempt size) (srcKey dstKey : String) :
    ∀ c ∈ (f.runBuffer gz float attempt srcKey dstKey).calls, ∀ dest landed, c ≠ .putStream dest landed := by
  obtain ⟨-, hfits⟩ := h
  refine runBuffer_calls (by simp) ?_ ?_
  · intro body hbody hend
    refine conclude_calls ?_ (by simp) (by simp)
    intro e he
    cases e with
    | objectTooLarge limit =>
      have hlarge := bufferRun_tooLarge he
      have hpolicy : f.cfg.onObjectTooLarge ≠ .stream := fun hstream => absurd hlarge (hfits hstream body hbody).2.not_gt
      simp [Filterer.retriesViaStream, hpolicy]
    | _ => rfl
  · intro body hbody hlt
    have hpolicy : f.cfg.onObjectTooLarge ≠ .stream := fun hstream => absurd hlt (hfits hstream body hbody).1.not_gt
    simp [Filterer.conclude, Filterer.retriesViaStream, hpolicy, Filterer.copiesUnparsable, CoreError.isUnparsableSource]

/-- Stream mode aborts the upload of an envelope without a record to keep. -/
lemma processStream_allDropped (h : AllDropped gz float f attempt) (srcKey dstKey : String) :
    ∀ c ∈ (f.processStream gz float attempt srcKey dstKey).calls, LeavesNothing c := by
  obtain ⟨hgz, source, text, records, hreads, hread, hutf, hrecords, hnil⟩ := h
  have hsource := sourceRecords_of_sole float hread hutf hrecords
  rw [← filterRecords_survivors] at hnil
  unfold Filterer.processStream Filterer.getStream
  cases hanswer : attempt.read with
  | notFound => simp [Effect.mapError, Except.mapError, Effect.error_bind, LeavesNothing]
  | failed message => simp [Effect.mapError, Except.mapError, Effect.error_bind, LeavesNothing]
  | body body =>
    have hbody : body.Reads source := by
      simpa [hanswer, Pipeline.GetAnswer.Reads] using hreads.read
    have hrun := streamRun_reads float hgz f.engine f.cfg.processing attempt.stream hbody
    simp only [Effect.call_bind, Effect.pure_result, Effect.pure_calls, Effect.pure_metrics, Effect.mapError,
      Except.mapError, Effect.ok_bind, Filterer.streamToStore, Effect.attempt]
    rcases Pipeline.streamRun_published gz float f.engine f.cfg.processing attempt.stream body with
      ⟨out, hresult, -, -⟩ | ⟨hresult, hcommitted, -⟩ | ⟨hresult, -, -, -⟩ | ⟨e, hresult, hcommitted, -, -⟩
    · simp only [hresult, hsource, Option.some.injEq, Prod.mk.injEq, and_true] at hrun
      obtain ⟨_, rfl, hne, -⟩ := hrun
      exact absurd hnil hne
    · simp [hresult, hcommitted, LeavesNothing]
    · simp [hresult, hsource] at hrun
    · have hparsed : f.copiesUnparsable e = false := by
        simp only [hresult, hsource, reduceCtorEq, imp_false] at hrun
        simp [Filterer.copiesUnparsable, hrun]
      simp [hresult, hcommitted, hparsed, LeavesNothing]

/-- Buffer mode puts nothing for an envelope without a record to keep. -/
lemma runBuffer_allDropped (hlive : f.cfg.dryRun = false) (h : AllDropped gz float f attempt)
    (srcKey dstKey : String) : ∀ c ∈ (f.runBuffer gz float attempt srcKey dstKey).calls, LeavesNothing c := by
  have hstream := processStream_allDropped h srcKey dstKey
  obtain ⟨-, source, text, records, hreads, hread, hutf, hrecords, hnil⟩ := h
  have henvelope := envelopeFromSlice_of_sole hutf hrecords
  rw [← filterRecords_survivors] at hnil
  -- an object that is too large is retried as a stream, or fails
  have hretried : ∀ bytes limit, ∀ c ∈ (f.conclude gz float attempt srcKey dstKey bytes
      (.error (.objectTooLarge limit))).calls, LeavesNothing c := by
    intro bytes limit
    unfold Filterer.conclude Filterer.runStream
    simp only [hlive, Bool.false_eq_true, if_false, Filterer.copiesUnparsable, CoreError.isUnparsableSource, and_false,
      decide_false]
    split_ifs
    · exact hstream
    · simp
  refine runBuffer_calls trivial ?_ (fun _ _ _ => hretried none _)
  intro body hbody hend
  have hbytes : body.bytes = source := by
    simpa [hbody, Pipeline.GetAnswer.Reads, Body.Reads, hend] using hreads.fetch
  by_cases hlarge : f.cfg.processing.maxObjectBytes < text.length
  · have hrun : bufferRun gz float f.engine f.cfg.processing attempt.compressFails body.bytes =
        .error (.objectTooLarge f.cfg.processing.maxObjectBytes) := by
      simp [bufferRun, decompressCapped, hbytes, hread, hlarge]
    rw [hrun]
    exact hretried _ _
  · have hrun : bufferRun gz float f.engine f.cfg.processing attempt.compressFails body.bytes =
        .ok (.nothingKept, (filterRecords float f.engine records).1) := by
      simp [bufferRun, decompressCapped, hbytes, hread, hlarge, henvelope, hnil]
    rw [hrun]
    exact conclude_calls (by simp) (by simp) (by simp)

/-- What a live object may do of which all records are dropped. -/
lemma process_allDropped (hlive : f.cfg.dryRun = false) (h : AllDropped gz float f attempt)
    (canonicalize : Path → Option Path) (srcKey dstKey : String) (size : Option ℕ) :
    ∀ c ∈ (f.process gz float canonicalize attempt srcKey dstKey size).calls, LeavesNothing c := by
  unfold Filterer.process
  split_ifs
  · simp
  · cases f.cfg.selectMode size with
    | stream =>
      simp only [Filterer.runStream, hlive, Bool.false_eq_true, if_false]
      exact processStream_allDropped h srcKey dstKey
    | buffer => exact runBuffer_allDropped hlive h srcKey dstKey

lemma process_inMemory {size : Option ℕ} (h : InMemory gz f attempt size) (canonicalize : Path → Option Path)
    (srcKey dstKey : String) :
    ∀ c ∈ (f.process gz float canonicalize attempt srcKey dstKey size).calls, ∀ dest landed, c ≠ .putStream dest landed := by
  unfold Filterer.process
  split_ifs
  · simp
  · rw [h.1]
    exact runBuffer_inMemory h srcKey dstKey

end Calls

section Sources
variable {gz : Gzip} {float : FloatParser} {debug : String → String} {f : Filterer} {cwd : List String} {pid : ℕ}

/-- An object is refused, or what it writes hits no source. -/
lemma filterObject_spares {canonicalize : Path → Option Path} {attempt : Attempt} {sources : List Origin} {obj : SrcObject}
    (hfs : LinkFree cwd canonicalize)
    (h : ∀ dstKey, batchDestKey debug f.dst obj.rel = .ok dstKey →
      OwnSource cwd canonicalize f.src f.dst obj.fetch dstKey ∨
        Spares gz float f attempt cwd pid sources obj.size dstKey)
    (hlive : f.cfg.dryRun = false) : ∀ c ∈ (filterObject gz float debug f canonicalize attempt obj).calls,
      ∀ p ∈ writes cwd pid f.dst c, ∀ origin ∈ sources, origin.place cwd ≠ some p := by
  unfold filterObject
  cases hdest : batchDestKey debug f.dst obj.rel with
  | error text => simp
  | ok dstKey =>
    intro c hc p hp
    cases hguard : f.overwritesSource canonicalize obj.fetch dstKey with
    | true => simp [Filterer.process, hlive, hguard] at hc
    | false =>
      rcases h dstKey hdest with hown | hspares
      · rw [overwritesSource_of_ownSource hfs hown] at hguard
        simp at hguard
      · rcases writes_cases (process_targets hguard obj.size c hc) hp with ⟨rfl, hleaves⟩ |
          ⟨root, dest, landed, hroot, rfl, hstreams⟩
        · rcases hspares.key with hclear | hdropped
          · exact hclear
          · exact absurd (process_allDropped hlive hdropped canonicalize obj.fetch dstKey obj.size c hc) hleaves
        · rcases hspares.sibling root hroot with hclear | hmemory
          · exact hclear
          · exact absurd hstreams (process_inMemory hmemory canonicalize obj.fetch dstKey c hc dest landed)

lemma filterObjects_spares {canonicalize : ℕ → Path → Option Path} {attempt : ℕ → Attempt} {sources : List Origin}
    (hfs : ∀ i, LinkFree cwd (canonicalize i)) (hlive : f.cfg.dryRun = false) (objects : List SrcObject) :
    ∀ k : ℕ, (∀ (i : ℕ) obj dstKey, objects[i]? = some obj → batchDestKey debug f.dst obj.rel = .ok dstKey →
        OwnSource cwd (canonicalize (k + i)) f.src f.dst obj.fetch dstKey ∨
          Spares gz float f (attempt (k + i)) cwd pid sources obj.size dstKey) →
      ∀ c ∈ (filterObjects gz float debug f canonicalize attempt k objects).calls,
        ∀ p ∈ writes cwd pid f.dst c, ∀ origin ∈ sources, origin.place cwd ≠ some p := by
  induction objects with
  | nil => simp [filterObjects]
  | cons obj rest ih =>
    intro k h
    unfold filterObjects
    apply Effect.bind_calls
    · exact filterObject_spares (hfs k) (fun dstKey => h 0 obj dstKey rfl) hlive
    · intro outcome
      apply Effect.bind_calls
      · apply ih (k + 1)
        intro i obj' dstKey hobj
        have hnext := h (i + 1) obj' dstKey (by simpa using hobj)
        rwa [show k + (i + 1) = k + 1 + i by omega] at hnext
      · simp

/-- A live batch writes at none of its sources, if each object is its own destination, with both paths to
be resolved, or writes at no source: its destination is none, unless its records are all dropped, and
the temporary sibling is none, unless the object is filtered in memory. -/
theorem batch_spares_sources (gz : Gzip) (float : FloatParser) (debug : String → String) (f : Filterer)
    (cwd : List String) (pid : ℕ) (canonicalize : ℕ → Path → Option Path) (hfs : ∀ i, LinkFree cwd (canonicalize i))
    (attempt : ℕ → Attempt) (listed : Listed) (hlive : f.cfg.dryRun = false)
    (hapart : ∀ objects, enumerate f.cfg.keys f.src listed = .ok objects →
      ∀ (i : ℕ) obj dstKey, objects[i]? = some obj → batchDestKey debug f.dst obj.rel = .ok dstKey →
        OwnSource cwd (canonicalize i) f.src f.dst obj.fetch dstKey ∨
          Spares gz float f (attempt i) cwd pid (inScope f.cfg.keys f.src listed) obj.size dstKey) :
    ∀ c ∈ (cmdFilter gz float debug f canonicalize attempt listed).calls, ∀ p ∈ writes cwd pid f.dst c,
      ∀ origin ∈ inScope f.cfg.keys f.src listed, origin.place cwd ≠ some p := by
  unfold cmdFilter
  cases henumerate : enumerate f.cfg.keys f.src listed with
  | error e => simp
  | ok objects =>
    apply Effect.bind_calls
    · apply filterObjects_spares hfs hlive objects 0
      intro i obj dstKey hobj hdest
      rw [Nat.zero_add]
      exact hapart objects henumerate i obj dstKey hobj hdest
    · intro outcomes
      dsimp only
      split_ifs <;> simp

/-- A filter run that passes every record, between two places in one bucket. -/
def bucketFilterer (srcPrefix dstPrefix : String) : Filterer :=
  ⟨passEngine, .resolve backfillSettings, .s3 "trail" srcPrefix, .s3 "trail" dstPrefix⟩

/-- The second run of a backfill into a place under its own source: an object is filtered over the one
that the first run wrote, which is still to be processed. -/
theorem batch_overwrites_source :
    let f := bucketFilterer "logs/" "logs/out"
    let listed : Listed := ⟨.ok [], .ok ["logs/a.gz", "logs/out/a.gz"]⟩
    f.cfg.dryRun = false ∧
      ∃ c ∈ (cmdFilter storedGzip (fun _ => none) id f (fun _ _ => none)
        (fun _ => Pipeline.sampleAttempt envelopeText) listed).calls,
      ∃ p ∈ writes [] 1 f.dst c, ∃ origin ∈ inScope f.cfg.keys f.src listed, origin.place [] = some p := by
  have hany : (cmdFilter storedGzip (fun _ => none) id (bucketFilterer "logs/" "logs/out") (fun _ _ => none)
      (fun _ => Pipeline.sampleAttempt envelopeText) ⟨.ok [], .ok ["logs/a.gz", "logs/out/a.gz"]⟩).calls.any
        (fun c => (writes [] 1 (.s3 "trail" "logs/out") c).any (fun p =>
          p = .object "trail" "logs/out/a.gz")) = true := by
    decide +kernel
  simp only [List.any_eq_true, decide_eq_true_eq] at hany
  obtain ⟨c, hc, p, hp, rfl⟩ := hany
  exact ⟨rfl, c, hc, _, hp, .object "trail" "logs/" "logs/out/a.gz", by decide +kernel, rfl⟩

lemma sampleAttempt_reads (text : String) : (Pipeline.sampleAttempt text).Reads (sampleBody text).bytes :=
  ⟨rfl, rfl, rfl⟩

/-- An object whose one record the sample rules drop. -/
lemma allDropped_sample {engine : Engine} (hengine : Engine.new sampleBackend sampleRules = .ok engine)
    (srcPrefix dstPrefix : String) : AllDropped storedGzip (fun _ => none)
      { bucketFilterer srcPrefix dstPrefix with engine := engine }
      (Pipeline.sampleAttempt "\x7b\"Records\":[\x7b\x7d]\x7d") := by
  let text := "\x7b\"Records\":[\x7b\x7d]\x7d"
  let record : Bytes := "\x7b\x7d".toUTF8.toList
  have hread : storedGzip.readToEnd (sampleBody text).bytes = (text.toUTF8.toList, true) := by decide +kernel
  have hrecords : soleRecords text.toUTF8.toList = some [record] := by decide +kernel
  have hdropped : (Engine.new sampleBackend sampleRules).toOption.map
      (fun engine => [record].filter (keeps (fun _ => none) engine)) = some [] := by decide +kernel
  simp only [hengine, toOption_ok, Option.map_some, Option.some.injEq] at hdropped
  exact ⟨storedGzip_lawful, _, _, _, sampleAttempt_reads text, hread, by decide +kernel, hrecords, hdropped⟩

/-- A backfill into a place outside its source, and one into its own source of which nothing is kept. -/
theorem batch_spares_sources_sample :
    let listed : Listed := ⟨.ok [], .ok ["logs/a.gz", "logs/out/a.gz"]⟩
    (let f := bucketFilterer "logs/" "out"
      ∀ c ∈ (cmdFilter storedGzip (fun _ => none) id f (fun _ _ => none)
        (fun _ => Pipeline.sampleAttempt envelopeText) listed).calls,
      ∀ p ∈ writes [] 1 f.dst c, ∀ origin ∈ inScope f.cfg.keys f.src listed, origin.place [] ≠ some p) ∧
    ∀ engine, Engine.new sampleBackend sampleRules = .ok engine →
      let f : Filterer := { bucketFilterer "logs/" "logs/out" with engine := engine }
      ∀ c ∈ (cmdFilter storedGzip (fun _ => none) id f (fun _ _ => none)
        (fun _ => Pipeline.sampleAttempt "\x7b\"Records\":[\x7b\x7d]\x7d") listed).calls,
      ∀ p ∈ writes [] 1 f.dst c, ∀ origin ∈ inScope f.cfg.keys f.src listed, origin.place [] ≠ some p := by
  intro listed
  have hlinks : ∀ _ : ℕ, LinkFree [] (fun _ => none) := by
    intro i p q h
    simp at h
  constructor
  · intro f
    have hscope : inScope f.cfg.keys f.src listed =
        [.object "trail" "logs/" "logs/a.gz", .object "trail" "logs/" "logs/out/a.gz"] := by decide +kernel
    have hobjects : enumerate f.cfg.keys f.src listed =
        .ok [⟨"logs/a.gz", "a.gz", none⟩, ⟨"logs/out/a.gz", "out/a.gz", none⟩] := by decide +kernel
    refine batch_spares_sources storedGzip (fun _ => none) id f [] 1 (fun _ _ => none) hlinks
      (fun _ => Pipeline.sampleAttempt envelopeText) listed rfl ?_
    intro objects h i obj dstKey hobj hdest
    obtain rfl := Except.ok.inj (hobjects.symm.trans h)
    right
    have hkey : dstKey = "out/a.gz" ∨ dstKey = "out/out/a.gz" := by
      cases hdest
      match i with
      | 0 =>
        cases hobj
        exact .inl (by decide +kernel)
      | 1 =>
        cases hobj
        exact .inr (by decide +kernel)
    refine ⟨.inl ?_, ?_⟩
    · intro origin horigin
      rw [hscope] at horigin
      rcases List.mem_pair.mp horigin with rfl | rfl <;> rcases hkey with rfl | rfl <;> decide +kernel
    · rintro root ⟨⟩
  · intro engine hengine f
    refine batch_spares_sources storedGzip (fun _ => none) id f [] 1 (fun _ _ => none) hlinks
      (fun _ => Pipeline.sampleAttempt "\x7b\"Records\":[\x7b\x7d]\x7d") listed rfl ?_
    intro objects h i obj dstKey hobj hdest
    refine .inr ⟨.inr (allDropped_sample hengine "logs/" "logs/out"), ?_⟩
    rintro root ⟨⟩

end Sources

end CloudTrailFilter.Cli
