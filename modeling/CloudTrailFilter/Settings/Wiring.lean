import CloudTrailFilter.Aws.PutStream
import CloudTrailFilter.Pipeline.Outcome
import CloudTrailFilter.Settings.Accepted

/-!
# What validation is for

The composition roots take the settings as loaded: `Pipeline::new` compiles the key patterns again and
panics where they do not compile, the executor takes the concurrency as its limit, and the store
takes the part size of its uploads. On accepted settings none of this can go wrong; with a
concurrency of zero, which validation refuses, a batch with work would never end.
-/

namespace CloudTrailFilter.Loader
open CloudTrailFilter.Json CloudTrailFilter.Process CloudTrailFilter.Aws CloudTrailFilter.Pipeline

section Roots
variable (B : Backend)

/-- The settings as the pipeline reads them. -/
def Settings.forPipeline (s : Settings) (keyFilter : KeyFilter) : CloudTrailFilter.Settings where
  keyFilter := keyFilter
  destination := s.destination
  processing :=
    { mode := s.processing.mode
      streamThresholdBytes := s.processing.streamThresholdBytes.val
      maxObjectBytes := s.processing.maxObjectBytes.val
      gzipLevel := s.processing.gzipLevel.val
      objectConcurrency := s.processing.objectConcurrency.val
      gzipChunks := s.processing.gzipChunks.val }
  behavior := s.behavior

/-- `Pipeline::new`. There is no pipeline where it panics. -/
def Pipeline.new (s : Settings) : Option CloudTrailFilter.Settings :=
  match KeyFilter.compile B s.source with
  | .ok keyFilter => some (s.forPipeline keyFilter)
  | .error _ => none

def defaultMultipartPartBytes : ℕ := 8 * 1024 * 1024

/-- `checked_or_default` for a type of `w` bits. -/
def checkedOrDefault (w v default : ℕ) : ℕ := if v < 2 ^ w then v else default

/-- The part size of `S3ObjectStore::from_settings` on a target with `usize` of `w` bits. -/
def S3ObjectStore.fromSettings (w : ℕ) (processing : Processing) : ℕ :=
  checkedOrDefault w processing.multipartPartBytes.val defaultMultipartPartBytes

end Roots

section Parts
variable {answers : S3Answers} {partSize : ℕ} {ending : BodyEnd} {uploadId : String}

/-- The body of an upload call. -/
def partBody : S3Call → Option Bytes
  | .uploadPart _ _ body _ => some body
  | _ => none

lemma uploadPart_bodies (partNumber : Int32) (buf : Bytes) :
    (uploadPart answers uploadId partNumber buf).calls.filterMap partBody = [buf] := by
  unfold uploadPart
  cases answers.part partNumber <;> rfl

lemma bodies_concat_full {bodies : List Bytes} {buf : Bytes} (hbuf : buf.length = partSize)
    (h : ∀ body ∈ bodies.dropLast, body.length = partSize) :
    ∀ body ∈ (buf :: bodies).dropLast, body.length = partSize := by
  intro body hbody
  cases bodies with
  | nil => simp at hbody
  | cons next rest =>
    rw [List.dropLast_cons_cons] at hbody
    rcases List.mem_cons.mp hbody with rfl | hbody
    · exact hbuf
    · exact h body hbody

/-- Only the last part of an upload can be less than a full one, whether or not the upload ends well. -/
lemma uploadParts_full (n : ℕ) : ∀ (partNumber : Int32) (chunks : List Bytes), (∀ chunk ∈ chunks, chunk ≠ []) →
    ∀ body ∈ ((uploadParts answers partSize ending uploadId n partNumber chunks).calls.filterMap partBody).dropLast,
      body.length = partSize := by
  induction n with
  | zero => simp [uploadParts]
  | succ n ih =>
    intro partNumber chunks hne
    unfold uploadParts
    cases hfill : fillPart partSize ending [] chunks with
    | error e => simp
    | ok r =>
      obtain ⟨buf, rest⟩ := r
      obtain ⟨-, hle, -, hrest⟩ := fillPart_ok hfill (Nat.zero_le _) hne
      have hbodies := @uploadPart_bodies answers uploadId partNumber buf
      simp only
      split_ifs with hnil hshort
      · simp
      · cases hresult : (uploadPart answers uploadId partNumber buf).result with
        | error e => simp [Effect.bind_of_error hresult, hbodies]
        | ok eTag => simp [Effect.bind_of_ok hresult, hbodies]
      · cases hresult : (uploadPart answers uploadId partNumber buf).result with
        | error e => simp [Effect.bind_of_error hresult, hbodies]
        | ok eTag =>
          have hcalls : ((uploadParts answers partSize ending uploadId n (partNumber + 1) rest >>=
              fun parts => pure (⟨partNumber, eTag⟩ :: parts)) : S3M (List CompletedPart)).calls =
              (uploadParts answers partSize ending uploadId n (partNumber + 1) rest).calls := by
            cases hmore : (uploadParts answers partSize ending uploadId n (partNumber + 1) rest).result with
            | error e => rw [Effect.bind_of_error hmore]
            | ok parts => rw [Effect.bind_of_ok hmore, Effect.pure_calls, List.append_nil]
          rw [Effect.bind_of_ok hresult, List.filterMap_append, hbodies, hcalls]
          exact bodies_concat_full (by omega) (ih _ _ hrest)

variable {putMeta : PutMeta} {body : Body}

lemma putObject_bodies (b : Bytes) : (putObject answers putMeta b).calls.filterMap partBody = [] := by
  unfold putObject
  cases answers.put <;> rfl

lemma putParts_bodies : (putParts answers partSize uploadId putMeta body).calls.filterMap partBody =
    (rounds answers partSize uploadId body).calls.filterMap partBody := by
  cases hrounds : (rounds answers partSize uploadId body).result with
  | error e =>
    rw [(putParts_of_error hrounds).2, List.filterMap_append]
    simp [partBody]
  | ok parts =>
    by_cases hnil : parts = []
    · subst hnil
      rw [(putParts_of_nil hrounds).2, List.filterMap_append, List.filterMap_cons_none rfl, putObject_bodies,
        List.append_nil]
    · obtain ⟨accepted, hcalls, -⟩ := @putParts_of_parts answers partSize putMeta body uploadId parts hnil hrounds
      rw [hcalls, List.filterMap_append, List.filterMap_cons_none rfl]
      cases accepted <;> simp [partBody]

/-- Every part that `put_stream` sends is a full one, except the last. -/
lemma putStream_full : ∀ part ∈ ((putStream answers partSize putMeta body).calls.filterMap partBody).dropLast,
    part.length = partSize := by
  by_cases hcreate : ∃ uploadId, answers.create = .created uploadId
  · obtain ⟨uploadId, hcreate⟩ := hcreate
    rw [(putStream_of_created hcreate).2, List.filterMap_cons_none rfl, putParts_bodies]
    exact uploadParts_full _ _ _ body.nonempty
  · rw [(putStream_of_not_created (fun uploadId h => hcreate ⟨uploadId, h⟩)).2]
    rintro part ⟨⟩

end Parts

section Stuck
variable {τ κ μ ε α σ : Type} [AddCommMonoid μ] {run : τ → Effect κ μ ε α} {consume : σ → Except ε α → σ × μ}

/-- Nothing is ever started with room for nothing. -/
lemma runs_of_no_room {tasks : List τ} {consumer : σ} {s : Executor τ κ μ ε α σ}
    (h : Executor.Runs run consume 0 tasks consumer s) : s = Executor.init tasks consumer := by
  induction h with
  | refl => rfl
  | tail _ hstep ih =>
    subst ih
    generalize hinit : (Executor.init tasks consumer : Executor τ κ μ ε α σ) = s at hstep
    cases hstep with
    | start t rest flights consumer' calls metrics hlt => exact absurd hlt (Nat.not_lt_zero _)
    | progress waiting before after => cases before <;> simp [Executor.init] at hinit
    | finish waiting before after => cases before <;> simp [Executor.init] at hinit
    | yield waiting flights => simp [Executor.init] at hinit

end Stuck

section Accepted
variable {B : Backend} {s : Settings}

lemma pipeline_new_of_valid (h : s.Valid B) : ∃ keyFilter, KeyFilter.compile B s.source = .ok keyFilter ∧
    Pipeline.new B s = some (s.forPipeline keyFilter) := by
  rcases compile_cases (B := B) s.source with ⟨includes, excludes, -, -, hcompile⟩ | ⟨hfails, -⟩
  · exact ⟨_, hcompile, by rw [Pipeline.new, hcompile]⟩
  · rcases hfails with hfails | hfails
    · exact (Bool.false_ne_true (hfails.symm.trans h.includes)).elim
    · exact (Bool.false_ne_true (hfails.symm.trans h.excludes)).elim

lemma partSize_of_valid (h : s.Valid B) (w : ℕ) :
    5 * 1024 * 1024 ≤ S3ObjectStore.fromSettings w s.processing := by
  have hparts := h.parts
  unfold S3ObjectStore.fromSettings checkedOrDefault defaultMultipartPartBytes
  split_ifs <;> omega

/-- Whatever is accepted can be run. The pipeline is built without a panic, with the filter that was
compiled at load and a gzip level its codec has; every batch comes to an outcome, and from
wherever its objects are they can be driven to it; and of every upload all parts but the last have
the size that S3 asks for, on targets of any width. The bound on the concurrency is needed: with
none a batch that has work has no outcome. -/
theorem accepted_settings_run (B : Backend) (bytes : Option Bytes) (env : String → Option String) (s : Settings)
    (h : Settings.fromParts B bytes env = .ok s) :
    (∃ cfg, Pipeline.new B s = some cfg ∧ cfg.processing.gzipLevel ≤ 9 ∧ cfg.destination.bucket ≠ "" ∧
      (∀ gz float engine attempts decoded, ∃ x, Handles gz float cfg engine decoded attempts x) ∧
      (∀ gz float engine attempts items ledger work st,
        Executor.Runs (runWork gz float cfg engine attempts) (adjudicate cfg items work)
          cfg.processing.objectConcurrency work.zipIdx ⟨ledger, 0⟩ st →
        ∃ st', Relation.ReflTransGen (Executor.Step (runWork gz float cfg engine attempts)
          (adjudicate cfg items work) cfg.processing.objectConcurrency) st st' ∧ st'.Drained) ∧
      (∀ gz float engine attempts decoded items ledger work, work ≠ [] →
        (openBatch cfg engine decoded).result = .ok (items, ledger, work) →
        ∀ x, ¬Handles gz float (cfg.withConcurrency 0) engine decoded attempts x)) ∧
    ∀ w answers putMeta body, ∀ part ∈ ((putStream answers (S3ObjectStore.fromSettings w s.processing) putMeta
      body).calls.filterMap partBody).dropLast, 5 * 1024 * 1024 ≤ part.length := by
  have hvalid := ((fromParts_ok_iff B bytes env s).mp h).2
  obtain ⟨keyFilter, -, hnew⟩ := pipeline_new_of_valid hvalid
  constructor
  · refine ⟨_, hnew, hvalid.gzipLevel, hvalid.bucket, ?_, ?_, ?_⟩
    · intro gz float engine attempts decoded
      exact exists_handles gz float _ engine attempts decoded hvalid.objectConcurrency.1
    · intro gz float engine attempts items ledger work st _
      exact Executor.can_drain _ _ hvalid.objectConcurrency.1 st
    · intro gz float engine attempts decoded items ledger work hwork hopen x hx
      have hsame : openBatch ((s.forPipeline keyFilter).withConcurrency 0) engine decoded =
          openBatch (s.forPipeline keyFilter) engine decoded := by
        apply openBatch_congr <;> rfl
      unfold Handles at hx
      simp only [hsame, hopen] at hx
      obtain ⟨st, hruns, ⟨hwaiting, -⟩, -⟩ := hx
      rw [runs_of_no_room hruns] at hwaiting
      have hempty : work = [] := by simpa [Executor.init, List.zipIdx_eq_nil_iff] using hwaiting
      exact hwork hempty
  · intro w answers putMeta body part hpart
    rw [putStream_full part hpart]
    exact partSize_of_valid hvalid w

/-- The two patterns of the default settings, and no other one. -/
def sampleBackend : Backend where
  yaml _ := .error "empty"
  regexBuild pattern :=
    if pattern = Source.default.includeKeyRegex then .ok (fun key => key.endsWith ".json.gz")
    else if pattern = Source.default.excludeKeyRegex then
      .ok (fun key => "/CloudTrail-Digest/".toList <:+: key.toList || "/CloudTrail-Insight/".toList <:+: key.toList ||
        key.endsWith "/")
    else .error "regex parse error"
  debug s := "\"" ++ s ++ "\""

/-- Settings at the bounds of what is accepted: the highest gzip level, concurrency and number of gzip
chunks, the smallest parts, and a threshold at the cap. -/
def boundSettings : Settings :=
  { Document.default.intoSettings with
    destination := ⟨"filtered", ""⟩
    processing :=
      { Processing.default with
        streamThresholdBytes := Processing.default.maxObjectBytes
        multipartPartBytes := ⟨5242880, by norm_num⟩
        gzipLevel := ⟨9, by norm_num⟩
        objectConcurrency := ⟨64, by norm_num⟩
        gzipChunks := ⟨16, by norm_num⟩ } }

/-- Settings at the bounds are accepted, and a batch with two objects runs under them. -/
theorem accepted_settings_run_sample :
    Settings.fromParts sampleBackend none (renderEnv boundSettings) = .ok boundSettings ∧
    ∃ cfg, Pipeline.new sampleBackend boundSettings = some cfg ∧ cfg.processing.gzipLevel ≤ 9 ∧
      (openBatch cfg (some passEngine) (.ok pairItems)).result.toOption.map (fun opened => opened.2.2.length) = some 2 ∧
      (∃ x, Handles storedGzip (fun _ => none) cfg (some passEngine) (.ok pairItems) pairAttempts x) ∧
      ∀ x, ¬Handles storedGzip (fun _ => none) (cfg.withConcurrency 0) (some passEngine) (.ok pairItems) pairAttempts x := by
  have hload : Settings.fromParts sampleBackend none (renderEnv boundSettings) = .ok boundSettings := by
    rw [fromParts_ok_iff]
    refine ⟨⟨.empty, rfl, rfl, fun v => layered_renderEnv sampleBackend boundSettings v _⟩, ?_⟩
    constructor <;> decide
  obtain ⟨⟨cfg, hnew, hlevel, -, hhandles, -, hstuck⟩, -⟩ := accepted_settings_run sampleBackend none
    (renderEnv boundSettings) boundSettings hload
  have hlength : (Pipeline.new sampleBackend boundSettings).map (fun cfg =>
      (openBatch cfg (some passEngine) (.ok pairItems)).result.toOption.map (fun opened => opened.2.2.length)) =
      some (some 2) := by decide +kernel
  rw [hnew, Option.map_some, Option.some.injEq] at hlength
  refine ⟨hload, cfg, hnew, hlevel, hlength, hhandles _ _ _ _ _, ?_⟩
  cases hopen : (openBatch cfg (some passEngine) (.ok pairItems)).result with
  | error e => simp [hopen] at hlength
  | ok opened =>
    obtain ⟨items, ledger, work⟩ := opened
    refine hstuck storedGzip (fun _ => none) (some passEngine) pairAttempts (.ok pairItems) items ledger work ?_ hopen
    rintro rfl
    simp [hopen] at hlength

end Accepted

end CloudTrailFilter.Loader
