import CloudTrailFilter.Pipeline.Accounting
import CloudTrailFilter.Pipeline.DryRun
import CloudTrailFilter.Pipeline.Mode

/-!
# What an object's destination gets

`written` is the body that the bytes of an object, the settings and the ruleset determine. An attempt
that succeeds lands it, an attempt that fails lands it or nothing, and an attempt in which no
call fails lands it.
-/

namespace CloudTrailFilter

namespace Metrics

/-- The counters in which no object was skipped. -/
def unskipped : AddSubmonoid Metrics where
  carrier := {m | m.objectsSkipped = 0}
  zero_mem' := rfl
  add_mem' := by
    intro a b ha hb
    change a.objectsSkipped + b.objectsSkipped = 0
    rw [show a.objectsSkipped = 0 from ha, show b.objectsSkipped = 0 from hb]

end Metrics

namespace Pipeline
open CloudTrailFilter.Json CloudTrailFilter.Filter CloudTrailFilter.Process

section Written
variable (gz : Gzip) (float : FloatParser) (settings : Settings)

/-- Whether buffer mode finds an object with these bytes too large. -/
def sourceTooLarge (engine : Engine) (source : Bytes) : Bool :=
  settings.processing.maxObjectBytes < source.length ||
    match bufferRun gz float engine settings.processing false source with
    | .error (.objectTooLarge _) => true
    | _ => false

/-- The mode that decides about an object with these bytes. -/
def sourceMode (engine : Engine) (object : ObjectRef) (source : Bytes) : ObjectMode :=
  match selectMode settings object.size with
  | .stream => .stream
  | .buffer =>
    if settings.behavior.onObjectTooLarge = .stream ∧ sourceTooLarge gz float settings engine source then .stream
    else .buffer

/-- The body an object with these bytes gets at its destination, if any. -/
def written (engine : Option Engine) (object : ObjectRef) (source : Bytes) : Option Bytes :=
  match engine with
  | none => some source
  | some engine =>
    let mode := sourceMode gz float settings engine object source
    if settings.behavior.dryRun ∨ mode = .buffer ∧ sourceTooLarge gz float settings engine source then none
    else ((fate gz float settings engine mode source).body settings source).join

/-- The write of a queued object, if it writes, by what the store holds. -/
def writeOf (engine : Option Engine) (sources : Location → Option Bytes) (w : Work) : Option (Location × Bytes) :=
  ((sources (w.object.bucket, w.object.key)).bind (written gz float settings engine w.object)).map (w.dest, ·)

variable {gz float settings} in
lemma writeOf_dest {engine : Option Engine} {sources : Location → Option Bytes} {w : Work} {write : Location × Bytes}
    (h : writeOf gz float settings engine sources w = some write) : write.1 = w.dest := by
  obtain ⟨_, -, rfl⟩ := Option.map_eq_some_iff.mp h
  rfl

end Written

section Answers

/-- The answers a store gives that holds these bytes, or no object: a get may fail. -/
def GetAnswer.Of (source : Option Bytes) : GetAnswer → Prop
  | .body delivered => ∃ bytes, source = some bytes ∧ delivered.Reads bytes
  | .notFound => source = none
  | .failed _ => True

/-- An attempt at an object that its store holds with these bytes, or does not hold. -/
structure Attempt.Of (source : Option Bytes) (attempt : Attempt) : Prop where
  fetch : attempt.fetch.Of source
  read : attempt.read.Of source
  reread : attempt.reread.Of source

/-- The answer to a get that does not fail. -/
def GetAnswer.Gives (source : Option Bytes) (answer : GetAnswer) : Prop :=
  match source with
  | some bytes => ∃ delivered, answer = .body delivered ∧ delivered.ending = .eof ∧ delivered.bytes = bytes
  | none => answer = .notFound

/-- An attempt in which nothing fails. -/
structure Attempt.FailureFree (source : Option Bytes) (attempt : Attempt) : Prop where
  fetch : attempt.fetch.Gives source
  read : attempt.read.Gives source
  reread : attempt.reread.Gives source
  put : attempt.put = none
  copyUpload : attempt.copyUpload = none
  compress : attempt.compressFails = false
  upload : attempt.stream.upload = none
  extraction : attempt.stream.extractionPanics = false
  encoder : attempt.stream.encoderFails = false

variable {source : Bytes} {answer : GetAnswer} {attempt : Attempt}

lemma GetAnswer.Of.reads (h : answer.Of (some source)) : answer.Reads source := by
  cases answer with
  | body body =>
    obtain ⟨bytes, hbytes, hreads⟩ := h
    cases hbytes
    exact hreads
  | notFound => trivial
  | failed message => trivial

lemma GetAnswer.Of.found (h : answer.Of (some source)) : answer ≠ .notFound := by
  rintro rfl
  cases h

lemma GetAnswer.Of.absent (h : answer.Of none) (body : Body) : answer ≠ .body body := by
  rintro rfl
  obtain ⟨_, hbytes, -⟩ := h
  cases hbytes

lemma GetAnswer.Gives.of {source : Option Bytes} (h : answer.Gives source) : answer.Of source := by
  cases source with
  | none =>
    rw [show answer = .notFound from h]
    rfl
  | some bytes =>
    obtain ⟨body, rfl, hend, hbytes⟩ := h
    refine ⟨bytes, rfl, ?_⟩
    unfold Body.Reads
    rw [hend]
    exact hbytes

lemma Attempt.Of.reads (h : attempt.Of (some source)) : attempt.Reads source :=
  ⟨h.fetch.reads, h.read.reads, h.reread.reads⟩

lemma Attempt.FailureFree.of {source : Option Bytes} (h : attempt.FailureFree source) : attempt.Of source :=
  ⟨h.fetch.of, h.read.of, h.reread.of⟩

end Answers

section Unskipped
variable (gz : Gzip) (float : FloatParser) (settings : Settings) (engine : Engine) {attempt : Attempt} {bytes : Bytes}

lemma publish_unskipped {m : Metrics} (h : m.objectsSkipped = 0) :
    (Effect.publish m : ObjectM Unit).metrics ∈ Metrics.unskipped := h

lemma openWithMissingPolicy_unskipped {answer : GetAnswer} (h : answer ≠ .notFound) (source : Location) :
    (openWithMissingPolicy settings answer source).metrics ∈ Metrics.unskipped := by
  cases answer with
  | notFound => exact (h rfl).elim
  | body body => rfl
  | failed message => rfl

lemma unskipped_policies : HoldsPolicies Metrics.unskipped := ⟨rfl, rfl, fun _ => rfl, fun _ _ => rfl⟩

/-- What follows the run of stream mode. -/
lemma processStream_unskipped (hread : attempt.read ≠ .notFound) (hreread : attempt.reread ≠ .notFound)
    (source dest : Location) :
    (processStream gz float settings engine attempt source dest).metrics ∈ Metrics.unskipped := by
  unfold processStream
  refine Effect.bind_metrics_mem _ (openWithMissingPolicy_unskipped settings hread source) (fun reader => ?_)
  cases reader with
  | none => rfl
  | some body =>
    have hrun : (streamToStore gz float settings engine attempt body dest).attempt.metrics ∈ Metrics.unskipped := by
      obtain ⟨k, hm⟩ := streamRun_metrics gz float engine settings.processing attempt.stream body
      change (streamRun gz float engine settings.processing attempt.stream body).metrics ∈ _
      rw [hm]
      rfl
    refine Effect.bind_metrics_mem _ hrun (fun result => ?_)
    split
    · split_ifs
      · exact unskipped_policies.copyUnparsable_mem settings attempt (fun h => (hreread h).elim) source dest none
      · rfl
    · split
      · refine Effect.bind_metrics_mem _ (publish_unskipped rfl) (fun _ => ?_)
        split
        · exact unskipped_policies.copied_mem settings attempt (fun h => (hreread h).elim) source dest
        · exact publish_unskipped rfl
        · rfl
      · exact publish_unskipped rfl
      · exact publish_unskipped rfl

lemma processBuffer_unskipped (hfetch : attempt.fetch ≠ .notFound) (hreread : attempt.reread ≠ .notFound)
    (source dest : Location) :
    (processBuffer gz float settings engine attempt source dest).metrics ∈ Metrics.unskipped := by
  unfold processBuffer fetchWithMissingPolicy
  refine Effect.bind_metrics_mem _ ?_ (fun fetched => ?_)
  · refine Effect.bind_metrics_mem _ (openWithMissingPolicy_unskipped settings hfetch source) (fun reader => ?_)
    cases reader with
    | none => rfl
    | some body =>
      dsimp only
      split_ifs
      · rfl
      · split <;> rfl
  · cases fetched with
    | none => rfl
    | some bytes =>
      refine Effect.bind_metrics_mem _ (publish_unskipped ?_) (fun _ => ?_)
      · unfold billFetched
        split_ifs <;> rfl
      · split
        · split_ifs
          · exact unskipped_policies.copyUnparsable_mem settings attempt (fun h => (hreread h).elim) source dest
              (some bytes)
          · rfl
        · split
          · exact Effect.bind_metrics_mem _ (unskipped_policies.putBytes_mem attempt dest _)
              (fun _ => unskipped_policies.commit_mem engine _)
          · refine Effect.bind_metrics_mem _ (publish_unskipped rfl) (fun _ => ?_)
            exact Effect.bind_metrics_mem _
              (unskipped_policies.applyUnrecognizedPolicy_mem settings attempt source dest bytes)
              (fun _ => unskipped_policies.commit_mem engine _)
          · exact unskipped_policies.commit_mem engine _
          · exact unskipped_policies.commit_mem engine _

/-- An object that its store holds is not skipped as missing. -/
lemma processObject_unskipped (hlive : settings.behavior.dryRun = false) (h : attempt.Of (some bytes))
    (object : ObjectRef) (dest : Location) :
    (processObject gz float settings engine attempt object dest).metrics ∈ Metrics.unskipped := by
  have hstream := processStream_unskipped gz float settings engine h.read.found h.reread.found
    (object.bucket, object.key) dest
  have hbuffer := processBuffer_unskipped gz float settings engine h.fetch.found h.reread.found
    (object.bucket, object.key) dest
  unfold processObject runBuffer runStream
  simp only [hlive, Bool.false_eq_true, if_false]
  split
  · refine Effect.bind_metrics_mem _ hbuffer (fun result => ?_)
    split_ifs
    · exact hstream
    · split <;> rfl
  · exact hstream

end Unskipped

section Landed
variable {gz : Gzip} (float : FloatParser) {settings : Settings} {attempt : Attempt}

lemma sourceTooLarge_iff {engine : Engine} {source : Bytes} :
    sourceTooLarge gz float settings engine source = true ↔
      settings.processing.maxObjectBytes < source.length ∨
        ∃ limit, bufferRun gz float engine settings.processing false source = .error (.objectTooLarge limit) := by
  unfold sourceTooLarge
  rw [Bool.or_eq_true, decide_eq_true_iff]
  refine or_congr_right ?_
  split
  · rename_i limit hrun
    exact iff_of_true rfl ⟨limit, hrun⟩
  · rename_i hne
    exact iff_of_false (by simp) (fun ⟨limit, hrun⟩ => hne limit hrun)

/-- What buffer mode finds too large is. -/
lemma TooLargeToBuffer.source {engine : Engine} {source : Bytes} (hreads : attempt.fetch.Reads source)
    (h : TooLargeToBuffer gz float settings engine attempt) :
    sourceTooLarge gz float settings engine source = true := by
  obtain ⟨body, hbody, h⟩ := h
  rw [hbody] at hreads
  rw [sourceTooLarge_iff]
  rcases h with hlarge | ⟨hend, limit, hrun⟩
  · left
    have hle : body.bytes.length ≤ source.length := by
      unfold GetAnswer.Reads Body.Reads at hreads
      cases hend : body.ending with
      | eof =>
        simp only [hend] at hreads
        rw [hreads]
      | failed message =>
        simp only [hend] at hreads
        exact hreads.length_le
    omega
  · right
    have hsource : body.bytes = source := by
      simpa [GetAnswer.Reads, Body.Reads, hend] using hreads
    rw [hsource] at hrun
    rcases bufferRun_compressFails gz float settings engine attempt.compressFails source with hsame | hfails
    · exact ⟨limit, by rw [← hsame, hrun]⟩
    · rw [hfails] at hrun
      cases hrun

/-- An object that buffer mode files is not too large for it. -/
lemma not_sourceTooLarge_of_files {engine : Engine} {source : Bytes} (hreads : attempt.fetch.Reads source)
    (hlive : settings.behavior.dryRun = false) {out : Option Bytes} {tally : RecordTally}
    (h : Files gz float settings engine attempt .buffer out tally) :
    sourceTooLarge gz float settings engine source = false := by
  obtain ⟨body, hbody, hend, hfits, h⟩ := h
  simp only [hlive, Bool.false_eq_true, if_false] at h
  have hsource : body.bytes = source := by
    simpa [hbody, GetAnswer.Reads, Body.Reads, hend] using hreads
  rw [hsource] at h hfits
  rw [← Bool.not_eq_true, sourceTooLarge_iff]
  rintro (hlarge | ⟨limit, hrun⟩)
  · omega
  · have herror : ∃ e, bufferRun gz float engine settings.processing attempt.compressFails source = .error e ∧
        e.isUnparsableSource = false := by
      rcases bufferRun_compressFails gz float settings engine attempt.compressFails source with hsame | hfails
      · exact ⟨_, by rw [hsame, hrun], rfl⟩
      · exact ⟨_, hfails, rfl⟩
    obtain ⟨e, herr, hparse⟩ := herror
    rw [herr] at h
    cases h with
    | unparsed e' bytes hres hunparsable =>
      cases hres
      simp [hparse] at hunparsable
    | _ => contradiction

/-- An attempt that files an object is decided by the mode its bytes determine. -/
lemma decidingMode_eq_sourceMode {engine : Engine} {source : Bytes} (hreads : attempt.fetch.Reads source)
    (hlive : settings.behavior.dryRun = false) {object : ObjectRef} {dest : Location} {out : Option Bytes}
    {tally : RecordTally}
    (h : Files gz float settings engine attempt (decidingMode gz float settings engine attempt object dest) out tally) :
    decidingMode gz float settings engine attempt object dest = sourceMode gz float settings engine object source ∧
      ¬(sourceMode gz float settings engine object source = .buffer ∧
        sourceTooLarge gz float settings engine source = true) := by
  have hstream := decidingMode_eq_stream_iff gz float settings engine attempt object dest
  unfold DecidedByStream at hstream
  unfold sourceMode
  cases hmode : decidingMode gz float settings engine attempt object dest with
  | stream =>
    rcases hstream.mp hmode with hselect | ⟨hpolicy, hlarge⟩
    · simp [hselect]
    · have hlarge := hlarge.source float hreads
      cases selectMode settings object.size <;> simp [hpolicy, hlarge]
  | buffer =>
    rw [hmode] at h
    have hfits := not_sourceTooLarge_of_files float hreads hlive h
    have hselect : selectMode settings object.size = .buffer := by
      cases hselect : selectMode settings object.size with
      | buffer => rfl
      | stream =>
        have := hstream.mpr (.inl hselect)
        simp [hmode] at this
    simp [hselect, hfits]

/-- Of an object that is there, an attempt lands the body its bytes determine or nothing, and the
body if it succeeds. -/
lemma processObject_landed (hgz : gz.Lawful) (engine : Engine) {source : Bytes} (h : attempt.Of (some source))
    (object : ObjectRef) (dest : Location) :
    let x := processObject gz float settings engine attempt object dest
    let out := (written gz float settings (some engine) object source).toList.map (dest, ·)
    (landed x = [] ∨ landed x = out) ∧ (x.result = .ok () → landed x = out) := by
  intro x out
  cases hdry : settings.behavior.dryRun with
  | true =>
    have hout : out = [] := by simp [out, written, hdry]
    have hnone : landed x = [] := by
      unfold landed
      rw [List.filterMap_eq_nil_iff]
      intro c hc
      have hread := processObject_reads gz float hdry engine attempt object dest c hc
      cases c with
      | getStream _ => rfl
      | put _ _ _ => cases hread
      | putStream _ _ => cases hread
    rw [hout]
    exact ⟨.inl hnone, fun _ => hnone⟩
  | false =>
    have hfiled : Filed engine dest _ x := processObject_filed object dest
    cases hfiled with
    | failed e hr hnone _ => exact ⟨.inl hnone, fun hok => by simp [hr] at hok⟩
    | skipped _ _ hm =>
      have hskipped : x.metrics.objectsSkipped = 0 :=
        processObject_unskipped gz float settings engine hdry h object dest
      have hone := congrArg Metrics.objectsSkipped hm
      rw [show x.metrics.settled.objectsSkipped = x.metrics.objectsSkipped from rfl, hskipped] at hone
      cases hone
    | done body tally hfiles _ hlanded _ =>
      obtain ⟨hmode, hfits⟩ := decidingMode_eq_sourceMode float h.fetch.reads hdry hfiles
      have hfate := fate_of_files hgz h.reads hdry hfiles
      rw [hmode] at hfate
      have hwritten : written gz float settings (some engine) object source = body := by
        simp only [written, hdry, hfits, Bool.false_eq_true, or_self, if_false, hfate, Option.join_some]
      have hout : landed x = out := by rw [hlanded, ← hwritten]
      exact ⟨.inr hout, fun _ => hout⟩

/-- Of an object that is not there nothing lands. -/
lemma landed_of_absent (engine : Option Engine) (h : attempt.Of none) (w : Work) :
    landed (processWork gz float settings engine attempt w) = [] := by
  have hcopy : ∀ bytes, ¬CopyOf attempt none bytes := by
    rintro bytes ⟨body, hbody, -⟩
    exact h.reread.absent body hbody
  cases engine with
  | none =>
    simp only [processWork]
    rcases rawCopy_cases settings attempt (w.object.bucket, w.object.key) w.dest with
      ⟨bytes, hbytes, -⟩ | hrun | ⟨e, calls, n, hcalls, hrun⟩
    · exact (hcopy bytes hbytes).elim
    · rw [hrun]
      rfl
    · rw [hrun]
      exact hcalls
  | some engine =>
    simp only [processWork]
    have hfiled : Filed engine w.dest _ (processObject gz float settings engine attempt w.object w.dest) :=
      processObject_filed w.object w.dest
    cases hfiled with
    | failed _ _ hnone _ => exact hnone
    | skipped _ hnone _ => exact hnone
    | done out tally hfiles _ _ _ =>
      cases hmode : decidingMode gz float settings engine attempt w.object w.dest with
      | buffer =>
        rw [hmode] at hfiles
        obtain ⟨body, hbody, -⟩ := hfiles
        exact (h.fetch.absent body hbody).elim
      | stream =>
        rw [hmode] at hfiles
        obtain ⟨body, hbody, -⟩ := hfiles
        exact (h.read.absent body hbody).elim

variable (settings) in
/-- An attempt at a queued object lands the body its bytes determine or nothing, and the body if it
succeeds. -/
theorem processWork_landed (hgz : gz.Lawful) (engine : Option Engine) {sources : Location → Option Bytes} (w : Work)
    (h : attempt.Of (sources (w.object.bucket, w.object.key))) :
    let x := processWork gz float settings engine attempt w
    let out := (writeOf gz float settings engine sources w).toList
    (landed x = [] ∨ landed x = out) ∧ (x.result = .ok () → landed x = out) := by
  intro x out
  have hout : out = ((sources (w.object.bucket, w.object.key)).bind (written gz float settings engine w.object)).toList.map
      (w.dest, ·) := Option.toList_map
  clear_value out
  subst hout
  generalize sources (w.object.bucket, w.object.key) = source at h ⊢
  cases source with
  | none =>
    have hnone : landed x = [] := landed_of_absent float engine h w
    exact ⟨.inl hnone, fun _ => hnone⟩
  | some source =>
    cases engine with
    | some engine => exact processObject_landed float hgz engine h w.object w.dest
    | none =>
      have hx : x = rawCopy settings attempt (w.object.bucket, w.object.key) w.dest := rfl
      rcases rawCopy_cases settings attempt (w.object.bucket, w.object.key) w.dest with
        ⟨bytes, hbytes, hrun⟩ | hrun | ⟨e, calls, n, hcalls, hrun⟩
      · have hsource := copyOf_reads h.reread.reads hbytes
        have hcopied : landed x = [(w.dest, source)] := by
          rw [hx, hrun, hsource]
          rfl
        exact ⟨.inr hcopied, fun _ => hcopied⟩
      · have hfound := h.reread.found
        simp only [rawCopy, streamCopy, openWithMissingPolicy] at hrun
        cases hreread : attempt.reread with
        | notFound => exact (hfound hreread).elim
        | failed message => simp [hreread] at hrun
        | body body =>
          cases herr : copyError attempt body <;> simp [hreread, herr, Effect.publish] at hrun
      · have hnone : landed x = [] := by
          rw [hx, hrun]
          exact hcalls
        exact ⟨.inl hnone, fun hok => by simp [hx, hrun] at hok⟩

end Landed

section FailureFree
variable {gz : Gzip} (float : FloatParser) {settings : Settings} {attempt : Attempt} {source : Bytes}

lemma finishKind_parse {result : Except Fault Bool} {ending : TextEnd} {failure : ParseFailure}
    (h : finishKind none result ending = .error failure) : failure.toError.isUnparsableSource = true := by
  rcases result with (_ | _) | (_ | _)
  · simp only [finishKind, FinishKind.error.injEq] at h
    subst h
    rfl
  · simp only [finishKind, FinishKind.error.injEq] at h
    subst h
    split_ifs <;> rfl
  · cases h
  · cases h

/-- When nothing fails, stream mode fails only on what it cannot parse. -/
lemma streamRun_unparsable {engine : Engine} {cfg : Processing} {env : StreamEnv} {body : Body}
    (hend : body.ending = .eof) (hupload : env.upload = none) (hpanics : env.extractionPanics = false)
    (hencoder : env.encoderFails = false) {e : CoreError}
    (h : (streamRun gz float engine cfg env body).result = .error e) : e.isUnparsableSource = true := by
  have hfinish : finishOf gz float env.overread body = _ := finishOf_eof body env.overread hend
  unfold streamRun streamRunAt at h
  simp only [hpanics, hencoder, hupload, Bool.false_eq_true, if_false] at h
  cases hfin : finishOf gz float env.overread body with
  | recordsFound =>
    simp only [hfin] at h
    split_ifs at h
  | unrecognized => simp [hfin] at h
  | error failure =>
    simp only [hfin, Except.error.injEq] at h
    rw [hfinish] at hfin
    subst h
    exact finishKind_parse hfin

variable (settings) in
lemma copied_ok (h : attempt.FailureFree (some source)) (location dest : Location) :
    (do
      let copied ← streamCopy settings attempt location dest .alreadyCounted
      if copied then Effect.publish (Metrics.addObjectsProcessed 1) else pure () : ObjectM Unit).result = .ok () := by
  obtain ⟨body, hbody, hend, -⟩ := h.reread
  simp [streamCopy, openWithMissingPolicy, hbody, copyError, hend, h.copyUpload, Effect.publish]

lemma copyUnparsable_ok (h : attempt.FailureFree (some source)) (hlive : settings.behavior.dryRun = false)
    (location dest : Location) (bytes : Option Bytes) :
    (copyUnparsable settings attempt location dest bytes).result = .ok () := by
  unfold copyUnparsable
  simp only [hlive, Bool.false_eq_true, if_false, Effect.publish_bind]
  cases bytes with
  | some bytes => simp [putBytes, h.put, Effect.publish]
  | none => exact copied_ok settings h location dest

/-- When nothing fails, stream mode succeeds on what its policies do not make an error. -/
lemma processStream_ok (hgz : gz.Lawful) {engine : Engine} (h : attempt.FailureFree (some source))
    (hlive : settings.behavior.dryRun = false) (location dest : Location) {out : Option Bytes}
    (hfate : (streamFate gz float settings engine source).body settings source = some out) :
    (processStream gz float settings engine attempt location dest).result = .ok () := by
  obtain ⟨body, hbody, hend, hbytes⟩ := h.read
  have hreads : body.Reads source := by simpa [Body.Reads, hend] using hbytes
  have hrun := streamRun_reads float hgz engine settings.processing attempt.stream hreads
  unfold processStream streamToStore
  simp only [openWithMissingPolicy, hbody, Effect.call_bind, Effect.ok_bind, Effect.attempt, Effect.pure_result]
  unfold streamFate at hfate
  cases hres : (streamRun gz float engine settings.processing attempt.stream body).result with
  | error e =>
    have hunparsable := streamRun_unparsable float hend h.upload h.extraction h.encoder hres
    simp only [hres] at hrun
    rw [hrun hunparsable] at hfate
    have hpolicy : settings.behavior.onParseError = .copy := by
      cases hpolicy : settings.behavior.onParseError with
      | copy => rfl
      | error => simp [Fate.body, hpolicy] at hfate
    have hcopies : copiesUnparsable settings e = true := copiesUnparsable_iff.mpr ⟨hpolicy, hunparsable⟩
    simp only [hcopies, if_true]
    exact copyUnparsable_ok h hlive location dest none
  | ok outcome =>
    cases outcome with
    | written _ => rfl
    | nothingKept => rfl
    | unrecognized =>
      simp only [hres] at hrun
      obtain ⟨records, hsource⟩ := hrun
      rw [hsource] at hfate
      cases hpolicy : settings.behavior.onUnrecognizedObject with
      | copy =>
        simp only [Effect.publish_bind]
        exact copied_ok settings h location dest
      | skip => rfl
      | error => simp [Fate.body, hpolicy] at hfate

/-- When nothing fails, buffer mode fails only on what it cannot parse or finds too large. -/
lemma bufferRun_error {engine : Engine} {cfg : Processing} {input : Bytes} {e : CoreError}
    (h : bufferRun gz float engine cfg false input = .error e) :
    e.isUnparsableSource = true ∨ ∃ limit, e = .objectTooLarge limit := by
  unfold bufferRun decompressCapped at h
  simp only [Bool.false_eq_true, if_false] at h
  split_ifs at h with hlarge hintact
  · exact .inr ⟨_, (Except.error.inj h).symm⟩
  · simp only [Fallible.ok_bind] at h
    split at h
    · split at h
      · cases h
      · cases h
        exact .inl rfl
    · split_ifs at h
  · cases h
    exact .inl rfl

/-- The same for buffer mode, on an object that is not too large for it. -/
lemma processBuffer_ok {engine : Engine} (h : attempt.FailureFree (some source))
    (hlive : settings.behavior.dryRun = false) (hfits : sourceTooLarge gz float settings engine source = false)
    (location dest : Location) {out : Option Bytes}
    (hfate : (bufferFate gz float settings engine source).body settings source = some out) :
    (processBuffer gz float settings engine attempt location dest).result = .ok () := by
  obtain ⟨body, hbody, hend, hbytes⟩ := h.fetch
  have hlarge : ¬settings.processing.maxObjectBytes < source.length := by
    intro hlt
    rw [(sourceTooLarge_iff float).mpr (.inl hlt)] at hfits
    cases hfits
  have hfetch : fetchWithMissingPolicy settings attempt location = ⟨.ok (some source), [.getStream location], 0⟩ := by
    simp [fetchWithMissingPolicy, openWithMissingPolicy, hbody, hend, hbytes, hlarge]
  unfold processBuffer
  rw [hfetch, h.compress]
  simp only [Effect.ok_bind, Effect.publish_bind]
  unfold bufferFate at hfate
  rcases hrun : bufferRun gz float engine settings.processing false source with e | ⟨outcome, tally⟩
  · simp only [hrun] at hfate
    have hunparsable : e.isUnparsableSource = true := by
      rcases bufferRun_error float hrun with hunparsable | ⟨limit, rfl⟩
      · exact hunparsable
      · rw [(sourceTooLarge_iff float).mpr (.inr ⟨limit, hrun⟩)] at hfits
        cases hfits
    have hpolicy : settings.behavior.onParseError = .copy := by
      cases hpolicy : settings.behavior.onParseError with
      | copy => rfl
      | error => cases e <;> simp [Fate.body, hpolicy] at hfate hunparsable
    simp only [copiesUnparsable_iff.mpr ⟨hpolicy, hunparsable⟩, if_true]
    exact copyUnparsable_ok h hlive location dest (some source)
  · cases outcome with
    | nothingKept => rfl
    | written body =>
      cases body with
      | none => rfl
      | some body => simp [putBytes, h.put, Effect.publish]
    | unrecognized =>
      simp only [hrun] at hfate
      cases hpolicy : settings.behavior.onUnrecognizedObject with
      | copy => simp [applyUnrecognizedPolicy, hpolicy, putBytes, h.put, Effect.publish]
      | skip => simp [applyUnrecognizedPolicy, hpolicy, Effect.publish]
      | error => simp [Fate.body, hpolicy] at hfate

/-- What is too large, buffer mode finds too large when nothing fails. -/
lemma tooLargeToBuffer_of_source {engine : Engine} (h : attempt.FailureFree (some source))
    (hlarge : sourceTooLarge gz float settings engine source = true) :
    TooLargeToBuffer gz float settings engine attempt := by
  obtain ⟨body, hbody, hend, hbytes⟩ := h.fetch
  refine ⟨body, hbody, ?_⟩
  rw [hbytes, h.compress]
  exact ((sourceTooLarge_iff float).mp hlarge).imp id (fun hrun => ⟨hend, hrun⟩)

/-- An attempt in which nothing fails succeeds on an object that is to be written. -/
lemma processObject_ok (hgz : gz.Lawful) {engine : Engine} (h : attempt.FailureFree (some source))
    {object : ObjectRef} {dest : Location} {body : Bytes}
    (hwritten : written gz float settings (some engine) object source = some body) :
    (processObject gz float settings engine attempt object dest).result = .ok () := by
  simp only [written] at hwritten
  split_ifs at hwritten with hcond
  push Not at hcond
  obtain ⟨hdry, hfits⟩ := hcond
  have hlive : settings.behavior.dryRun = false := by simpa using hdry
  obtain ⟨out, hfate⟩ : ∃ out, (fate gz float settings engine (sourceMode gz float settings engine object source)
      source).body settings source = some out := by
    cases hfate : (fate gz float settings engine (sourceMode gz float settings engine object source)
        source).body settings source with
    | none => simp [hfate] at hwritten
    | some out => exact ⟨out, rfl⟩
  have hretried := retried_runBuffer_iff gz float settings engine attempt (object.bucket, object.key) dest
  unfold processObject
  unfold sourceMode at hfate hfits
  cases hselect : selectMode settings object.size with
  | stream =>
    simp only [hselect] at hfate
    simp only [runStream, hlive, Bool.false_eq_true, if_false]
    exact processStream_ok float hgz h hlive _ dest hfate
  | buffer =>
    simp only [hselect] at hfate hfits
    by_cases hlarge : settings.behavior.onObjectTooLarge = .stream ∧
        sourceTooLarge gz float settings engine source = true
    · simp only [hlarge, and_self, if_true] at hfate
      have hretry := hretried.mpr ⟨hlarge.1, tooLargeToBuffer_of_source float h hlarge.2⟩
      dsimp only
      rw [orRetry_of_retried _ hretry]
      simp only [runStream, hlive, Bool.false_eq_true, if_false]
      exact processStream_ok float hgz h hlive _ dest hfate
    · simp only [hlarge, if_false] at hfate hfits
      have hok : (runBuffer gz float settings engine attempt (object.bucket, object.key) dest).result = .ok () := by
        simp only [runBuffer, hlive, Bool.false_eq_true, if_false]
        exact processBuffer_ok float h hlive (by simpa using hfits) _ dest hfate
      dsimp only
      rw [orRetry_of_not_retried _ (by rw [hok]; rfl)]
      exact hok

variable (settings) in
/-- An attempt in which nothing fails lands the body that the object's bytes determine. -/
theorem processWork_failureFree (hgz : gz.Lawful) (engine : Option Engine) {sources : Location → Option Bytes}
    (w : Work) (h : attempt.FailureFree (sources (w.object.bucket, w.object.key))) :
    landed (processWork gz float settings engine attempt w) = (writeOf gz float settings engine sources w).toList := by
  obtain ⟨hlanded, hok⟩ := processWork_landed float settings hgz engine w h.of
  cases hwrite : writeOf gz float settings engine sources w with
  | none => simpa [hwrite] using hlanded
  | some write =>
    have hresult : (processWork gz float settings engine attempt w).result = .ok () := by
      unfold writeOf at hwrite
      obtain ⟨body, hbody, -⟩ := Option.map_eq_some_iff.mp hwrite
      obtain ⟨source, hsource, hwritten⟩ := Option.bind_eq_some_iff.mp hbody
      rw [hsource] at h
      cases engine with
      | some engine => exact processObject_ok float hgz h hwritten
      | none =>
        obtain ⟨body, hbody, hend, -⟩ := h.reread
        simp [processWork, rawCopy, streamCopy, openWithMissingPolicy, hbody, copyError, hend, h.copyUpload,
          Effect.publish]
    rw [← hwrite]
    exact hok hresult

end FailureFree

end Pipeline

end CloudTrailFilter
