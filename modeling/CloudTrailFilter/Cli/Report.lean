import CloudTrailFilter.Cli.Overwrite
import CloudTrailFilter.Pipeline.Accounting

/-!
# What a filter run reports

`cmd_filter` over a single file, a directory or a prefix: one line for each object, the counts and the
records at the end, and the exit. Its lines are what happened at the destination, its counts are of
those lines, and its records balance, whichever objects fail on the way. The notes on stderr about a
retry or a copy are left out.
-/

namespace CloudTrailFilter.Cli
open CloudTrailFilter.Json CloudTrailFilter.Filter CloudTrailFilter.Process Fallible
open CloudTrailFilter.Pipeline (Attempt StoreCall)

section Command

/-- What a local source path leads to. `other` is a directory or anything else that exists. -/
inductive PathKind where
  | file (size : Option ℕ)
  | other
  | missing

/-- The key a single file goes to. -/
def singleDestKey : Location → Except String String
  | .local path => .ok path
  | .s3 _ keyPrefix =>
    if keyPrefix = "" then .error "s3 destination for a single file needs a key, not just a bucket" else .ok keyPrefix

def CopyReason.label : CopyReason → String
  | .unparsed => "did not parse"
  | .unrecognized => "unrecognized shape"

/-- What is printed of an object that did not fail. -/
def outcomeText : ObjectOutcome → String
  | .written place => place
  | .nothingKept => "(all records dropped, nothing written)"
  | .copied place reason => place ++ " (" ++ reason.label ++ ", copied verbatim)"
  | .skipped => "(unrecognized shape, skipped)"
  | .dryRun => "(dry run, nothing written)"

/-- The counts of the summary. -/
structure Counts where
  written : ℕ
  fullyDropped : ℕ
  copied : ℕ
  skipped : ℕ
  failed : ℕ
deriving DecidableEq, Repr

/-- One round of the loop. A preview is in none of the counts. -/
def Counts.add (counts : Counts) : Except CliError ObjectOutcome → Counts
  | .ok (.written _) => { counts with written := counts.written + 1 }
  | .ok .nothingKept => { counts with fullyDropped := counts.fullyDropped + 1 }
  | .ok (.copied _ _) => { counts with copied := counts.copied + 1 }
  | .ok .skipped => { counts with skipped := counts.skipped + 1 }
  | .ok .dryRun => counts
  | .error _ => { counts with failed := counts.failed + 1 }

/-- What a run leaves behind. -/
structure Reported where
  stdout : List String
  stderr : List String
  calls : List StoreCall
  metrics : Metrics
  result : Except CliError Unit

variable (gz : Gzip) (float : FloatParser) (debug : String → String) (render : CliError → String) (f : Filterer)

/-- The objects of the run, and the key a single file goes to. The key filter does not apply to a file
that was named. -/
def Filterer.queue (kind : PathKind) (listed : Listed) : Except CliError (List SrcObject × Option String) :=
  match f.src, kind with
  | .local path, .file size =>
    match singleDestKey f.dst with
    | .ok key => .ok ([⟨path, "", size⟩], some key)
    | .error text => .error (.message text)
  | .local path, .missing => .error (.message ("source path " ++ debug path ++ " does not exist"))
  | _, _ => (enumerate f.cfg.keys f.src listed).map (fun objects => (objects, none))

/-- One object, to the key of a single file or to the place of its relative key. -/
def Filterer.round (canonicalize : Path → Option Path) (attempt : Attempt) (single : Option String) (obj : SrcObject) :
    CliM ObjectOutcome :=
  match single with
  | some key => f.process gz float canonicalize attempt obj.fetch key obj.size
  | none => filterObject gz float debug f canonicalize attempt obj

def label (single : Option String) (obj : SrcObject) : String := if single.isSome then obj.fetch else obj.rel

/-- The rounds of the loop, which an object that fails does not stop. -/
def Filterer.rounds (canonicalize : ℕ → Path → Option Path) (attempt : ℕ → Attempt) (single : Option String)
    (objects : List SrcObject) : List (CliM ObjectOutcome) :=
  objects.zipIdx.map (fun t => f.round gz float debug (canonicalize t.2) (attempt t.2) single t.1)

def summaryText (dryRun : Bool) (total : ℕ) (counts : Counts) (snap : Metrics) : String :=
  if dryRun then
    "dry run: " ++ toString total ++ " object(s) evaluated (" ++ toString snap.unrecognizedObjects ++
      " unrecognized, " ++ toString counts.failed ++ " failed), nothing written"
  else
    "processed " ++ toString total ++ " object(s): " ++ toString counts.written ++ " written, " ++
      toString counts.fullyDropped ++ " fully dropped, " ++ toString counts.copied ++ " copied verbatim, " ++
      toString counts.skipped ++ " skipped, " ++ toString counts.failed ++ " failed"

def recordsText (snap : Metrics) : String :=
  "records: " ++ toString snap.recordsIn ++ " in, " ++ toString snap.recordsKept ++ " kept, " ++
    toString snap.recordsDropped ++ " dropped"

/-- The line on stdout of an object that did not fail. -/
def outcomeLine (single : Option String) (t : SrcObject × Except CliError ObjectOutcome) : Option String :=
  match t.2 with
  | .ok outcome => some ("  " ++ label single t.1 ++ " -> " ++ outcomeText outcome)
  | .error _ => none

/-- What is kept of an object that failed. `render` is the alternate form of an error, with its causes. -/
def failureOf (single : Option String) (t : SrcObject × Except CliError ObjectOutcome) : Option (String × String) :=
  match t.2 with
  | .ok _ => none
  | .error e => some (label single t.1, render e)

/-- The end of a run over some objects. -/
def Filterer.report (single : Option String) (objects : List SrcObject) (rounds : List (CliM ObjectOutcome)) : Reported :=
  let outcomes := rounds.map Effect.result
  let metrics := (rounds.map Effect.metrics).sum
  let counts := outcomes.foldl Counts.add ⟨0, 0, 0, 0, 0⟩
  let failures := (objects.zip outcomes).filterMap (failureOf render single)
  { stdout := (objects.zip outcomes).filterMap (outcomeLine single) ++
      [summaryText f.cfg.dryRun objects.length counts metrics, recordsText metrics]
    stderr := failures.map (fun t => "  " ++ t.1 ++ " -> FAILED: " ++ t.2) ++
      if failures = [] then []
      else (toString failures.length ++ " object(s) failed:") :: failures.map (fun t => "  " ++ t.1 ++ ": " ++ t.2)
    calls := (rounds.map Effect.calls).flatten
    metrics := metrics
    result := if failures = [] then .ok ()
      else .error (.message (toString failures.length ++ " of " ++ toString objects.length ++ " object(s) failed")) }

/-- `cmd_filter` once the rules and the settings are loaded. `source` is the argument as it was given. -/
def cmdFilterReport (source : String) (canonicalize : ℕ → Path → Option Path) (attempt : ℕ → Attempt) (kind : PathKind)
    (listed : Listed) : Reported :=
  match f.queue debug kind listed with
  | .error e => ⟨[], [], [], 0, .error e⟩
  | .ok ([], _) => ⟨["no in-scope objects found under " ++ source], [], [], 0, .ok ()⟩
  | .ok (objects, single) => f.report render single objects (f.rounds gz float debug canonicalize attempt single objects)

end Command

section Told
variable {gz : Gzip} {float : FloatParser} {f : Filterer} {attempt : Attempt}

/-- The writes of a round that succeeded. -/
def landedOf {α : Type} (x : CliM α) : List (Pipeline.Location × Bytes) := x.calls.filterMap StoreCall.landed

/-- Where a round wrote, whether or not the write succeeded. -/
def touchedBy {α : Type} (cwd : List String) (pid : ℕ) (f : Filterer) (x : CliM α) : List Place :=
  x.calls.flatMap (writes cwd pid f.dst)

/-- The temporary sibling that a local stream is written to. -/
def AtTemporary (cwd : List String) (pid : ℕ) (dst : Location) (dstKey : String) (p : Place) : Prop :=
  (∃ root, dst = .local root) ∧ p = place cwd dst (partialKey pid dstKey)

/-- What an outcome says is what succeeded: one write at the place it names, or none. -/
def ToldAt (f : Filterer) (dstKey : String) (result : Except CliError ObjectOutcome)
    (writes : List (Pipeline.Location × Bytes)) : Prop :=
  match result with
  | .ok (.written place) | .ok (.copied place _) =>
    f.cfg.dryRun = false ∧ place = f.dst.display dstKey ∧ ∃ bytes, writes = [(f.dest dstKey, bytes)]
  | .ok .nothingKept | .ok .skipped => f.cfg.dryRun = false ∧ writes = []
  | .ok .dryRun => f.cfg.dryRun = true ∧ writes = []
  | .error _ => writes = []

/-- The outcomes after which the destination may have been written: a place that is named, or a failure,
which may be that of a write that was under way. -/
def mayTouch : Except CliError ObjectOutcome → Bool
  | .ok (.written _) | .ok (.copied _ _) | .error _ => true
  | .ok .nothingKept | .ok .skipped | .ok .dryRun => false

/-- A round whose outcome is true and whose counters balance. -/
structure Told (f : Filterer) (dstKey : String) (x : CliM ObjectOutcome) : Prop where
  landed : ToldAt f dstKey x.result (landedOf x)
  touched : ∀ cwd pid, ∀ p ∈ touchedBy cwd pid f x, f.cfg.dryRun = false ∧
    (AtTemporary cwd pid f.dst dstKey p ∨ p = place cwd f.dst dstKey ∧ mayTouch x.result = true)
  balanced : x.metrics.Balanced

/-- What a round may do before it comes to its outcome: it reads, or streams an object that is aborted. -/
structure Prepares (f : Filterer) (dstKey : String) {α : Type} (x : CliM α) : Prop where
  landed : landedOf x = []
  touched : ∀ cwd pid, ∀ p ∈ touchedBy cwd pid f x, f.cfg.dryRun = false ∧ AtTemporary cwd pid f.dst dstKey p
  balanced : x.metrics.Balanced

lemma Prepares.of_reads {α : Type} {x : CliM α} (dstKey : String) (h : ∀ c ∈ x.calls, c.isWrite = false)
    (hbalanced : x.metrics.Balanced) : Prepares f dstKey x := by
  have hreads : ∀ c ∈ x.calls, ∃ source, c = .getStream source := by
    intro c hc
    have hwrite := h c hc
    cases c with
    | getStream source => exact ⟨source, rfl⟩
    | put dest body landed => cases hwrite
    | putStream dest landed => cases hwrite
  refine ⟨?_, ?_, hbalanced⟩
  · rw [landedOf, List.filterMap_eq_nil_iff]
    intro c hc
    obtain ⟨source, rfl⟩ := hreads c hc
    rfl
  · intro cwd pid p hp
    obtain ⟨c, hc, hp⟩ := List.mem_flatMap.mp hp
    obtain ⟨source, rfl⟩ := hreads c hc
    cases hp

/-- A round that reads only. -/
lemma Told.of_reads {x : CliM ObjectOutcome} (dstKey : String) (h : ∀ c ∈ x.calls, c.isWrite = false)
    (hresult : ToldAt f dstKey x.result []) (hbalanced : x.metrics.Balanced) : Told f dstKey x := by
  obtain ⟨hlanded, htouched, -⟩ := Prepares.of_reads dstKey h hbalanced
  refine ⟨by rw [hlanded]; exact hresult, ?_, hbalanced⟩
  intro cwd pid p hp
  obtain ⟨hlive, htemporary⟩ := htouched cwd pid p hp
  exact ⟨hlive, .inl htemporary⟩

lemma Told.fail (dstKey : String) (e : CliError) : Told f dstKey (Effect.fail e) :=
  Told.of_reads dstKey (by simp) rfl ⟨rfl, rfl⟩

lemma Told.quiet {dstKey : String} {outcome : ObjectOutcome} (h : ToldAt f dstKey (.ok outcome) []) :
    Told f dstKey (pure outcome) :=
  Told.of_reads dstKey (by simp) h ⟨rfl, rfl⟩

/-- What prepares a round may come before it. -/
lemma Told.after {α : Type} {x : CliM α} {g : α → CliM ObjectOutcome} {dstKey : String} (hx : Prepares f dstKey x)
    (hg : ∀ a, x.result = .ok a → Told f dstKey (g a)) : Told f dstKey (x >>= g) := by
  obtain ⟨hlanded, htouched, hbalanced⟩ := hx
  cases hr : x.result with
  | error e =>
    rw [Effect.bind_of_error hr]
    refine ⟨hlanded, ?_, hbalanced⟩
    intro cwd pid p hp
    obtain ⟨hlive, htemporary⟩ := htouched cwd pid p hp
    exact ⟨hlive, .inl htemporary⟩
  | ok a =>
    obtain ⟨htold, hmore, hbalanced'⟩ := hg a hr
    rw [Effect.bind_of_ok hr]
    refine ⟨?_, ?_, Metrics.balanced.add_mem hbalanced hbalanced'⟩
    · have hsame : landedOf (⟨(g a).result, x.calls ++ (g a).calls, x.metrics + (g a).metrics⟩ : CliM ObjectOutcome) =
          landedOf (g a) := by
        unfold landedOf at hlanded ⊢
        rw [List.filterMap_append, hlanded, List.nil_append]
      rw [hsame]
      exact htold
    · intro cwd pid p hp
      rw [touchedBy, List.flatMap_append, List.mem_append] at hp
      rcases hp with hp | hp
      · obtain ⟨hlive, htemporary⟩ := htouched cwd pid p hp
        exact ⟨hlive, .inl htemporary⟩
      · exact hmore cwd pid p hp

/-- Counters that are published around a round leave what it tells. -/
lemma Told.publish {m : Metrics} {g : Unit → CliM ObjectOutcome} {dstKey : String} (hm : m.Balanced)
    (hg : Told f dstKey (g ())) : Told f dstKey (Effect.publish m >>= g) :=
  Told.after (.of_reads dstKey (by simp [Effect.publish]) hm) (fun _ _ => hg)

lemma Told.finish {x : CliM ObjectOutcome} {m : Metrics} {dstKey : String} (hx : Told f dstKey x) (hm : m.Balanced) :
    Told f dstKey (do
      let outcome ← x
      Effect.publish m
      pure outcome) := by
  obtain ⟨hlanded, htouched, hbalanced⟩ := hx
  cases hr : x.result with
  | error e =>
    rw [hr] at hlanded htouched
    rw [Effect.bind_of_error hr]
    exact ⟨hlanded, htouched, hbalanced⟩
  | ok outcome =>
    have hmore : (do
        Effect.publish m
        pure outcome : CliM ObjectOutcome) = ⟨.ok outcome, [], m⟩ := by
      rw [Effect.publish_bind, Effect.pure_result, Effect.pure_calls, Effect.pure_metrics, add_zero]
    rw [hr] at hlanded htouched
    rw [Effect.bind_of_ok hr, hmore]
    exact ⟨by simpa only [landedOf, List.append_nil] using hlanded, by simpa only [touchedBy, List.append_nil] using htouched,
      Metrics.balanced.add_mem hbalanced hm⟩

end Told

section Object
variable {gz : Gzip} {float : FloatParser} {f : Filterer} {attempt : Attempt}

lemma getStream_prepares (answer : Pipeline.GetAnswer) (srcKey dstKey : String) :
    Prepares f dstKey ((f.getStream answer srcKey).mapError CliError.store) := by
  unfold Filterer.getStream
  cases answer with
  | body body => exact .of_reads dstKey (by simp [Effect.mapError, StoreCall.isWrite]) ⟨rfl, rfl⟩
  | notFound => exact .of_reads dstKey (by simp [Effect.mapError, StoreCall.isWrite]) ⟨rfl, rfl⟩
  | failed message => exact .of_reads dstKey (by simp [Effect.mapError, StoreCall.isWrite]) ⟨rfl, rfl⟩

/-- A write that names the place where it succeeded. -/
structure Placed (f : Filterer) (dstKey : String) (x : CliM String) : Prop where
  ok : ∀ place, x.result = .ok place → place = f.dst.display dstKey ∧ ∃ bytes, landedOf x = [(f.dest dstKey, bytes)]
  error : ∀ e, x.result = .error e → landedOf x = []
  targets : ∀ c ∈ x.calls, c.target = none ∨ c.target = some (f.dest dstKey)
  metrics : x.metrics.Balanced

lemma put_placed (dstKey : String) (bytes : Bytes) : Placed f dstKey (f.put attempt dstKey bytes) := by
  unfold Filterer.put
  cases attempt.put with
  | none =>
    refine ⟨fun place h => ?_, fun e h => ?_, by simp [Effect.call, StoreCall.target], rfl, rfl⟩
    · cases h
      exact ⟨rfl, bytes, rfl⟩
    · cases h
  | some error =>
    refine ⟨fun place h => ?_, fun e h => rfl, by simp [Effect.call, StoreCall.target], rfl, rfl⟩
    cases h

lemma streamCopy_placed (srcKey dstKey : String) : Placed f dstKey (f.streamCopy attempt srcKey dstKey) := by
  unfold Filterer.streamCopy Filterer.getStream
  cases attempt.reread with
  | notFound =>
    exact ⟨fun place h => (by cases h), fun e h => rfl,
      by simp [Effect.mapError, Except.mapError, Effect.error_bind, StoreCall.target], rfl, rfl⟩
  | failed message =>
    exact ⟨fun place h => (by cases h), fun e h => rfl,
      by simp [Effect.mapError, Except.mapError, Effect.error_bind, StoreCall.target], rfl, rfl⟩
  | body body =>
    simp only [Effect.call_bind, Effect.pure_result, Effect.pure_calls, Effect.pure_metrics, Effect.mapError,
      Except.mapError, Effect.ok_bind]
    cases Pipeline.copyError attempt body with
    | none =>
      refine ⟨fun place h => ?_, fun e h => ?_, by simp [StoreCall.target], rfl, rfl⟩
      · cases h
        exact ⟨rfl, body.bytes, rfl⟩
      · cases h
    | some error => exact ⟨fun place h => (by cases h), fun e h => rfl, by simp [StoreCall.target], rfl, rfl⟩

lemma copy_placed (srcKey dstKey : String) (bytes : Option Bytes) : Placed f dstKey (f.copy attempt srcKey dstKey bytes) := by
  cases bytes with
  | some bytes => exact put_placed dstKey bytes
  | none => exact streamCopy_placed srcKey dstKey

/-- Calls at a key write at its place, or at the temporary sibling. -/
lemma touched_of_targets {α : Type} {x : CliM α} {dstKey : String}
    (h : ∀ c ∈ x.calls, c.target = none ∨ c.target = some (f.dest dstKey)) (cwd : List String) (pid : ℕ) :
    ∀ p ∈ touchedBy cwd pid f x, AtTemporary cwd pid f.dst dstKey p ∨ p = place cwd f.dst dstKey := by
  intro p hp
  obtain ⟨c, hc, hp⟩ := List.mem_flatMap.mp hp
  exact (writes_at (h c hc) hp).symm

/-- A round that ends with a write. -/
lemma Placed.told {x : CliM String} {dstKey : String} (h : Placed f dstKey x) (hdryRun : f.cfg.dryRun = false)
    {g : String → ObjectOutcome} (hg : g = .written ∨ ∃ reason, g = (.copied · reason)) :
    Told f dstKey (do
      let place ← x
      pure (g place)) := by
  cases hr : x.result with
  | error e =>
    rw [Effect.bind_of_error hr]
    refine ⟨h.error e hr, ?_, h.metrics⟩
    intro cwd pid p hp
    exact ⟨hdryRun, (touched_of_targets h.targets cwd pid p hp).imp_right (fun hplace => ⟨hplace, rfl⟩)⟩
  | ok at' =>
    obtain ⟨hplace, bytes, hlanded⟩ := h.ok at' hr
    have hpure : (⟨(pure (g at') : CliM ObjectOutcome).result, x.calls ++ (pure (g at') : CliM ObjectOutcome).calls,
        x.metrics + (pure (g at') : CliM ObjectOutcome).metrics⟩ : CliM ObjectOutcome) =
        ⟨.ok (g at'), x.calls, x.metrics⟩ := by
      rw [Effect.pure_result, Effect.pure_calls, Effect.pure_metrics, List.append_nil, add_zero]
    have hmay : mayTouch (.ok (g at')) = true := by
      rcases hg with rfl | ⟨reason, rfl⟩ <;> rfl
    rw [Effect.bind_of_ok hr, hpure]
    refine ⟨?_, ?_, h.metrics⟩
    · change ToldAt f dstKey (.ok (g at')) (landedOf x)
      rw [hlanded]
      rcases hg with rfl | ⟨reason, rfl⟩
      · exact ⟨hdryRun, hplace, bytes, rfl⟩
      · exact ⟨hdryRun, hplace, bytes, rfl⟩
    · intro cwd pid p hp
      exact ⟨hdryRun, (touched_of_targets h.targets cwd pid p hp).imp_right (fun hplace => ⟨hplace, hmay⟩)⟩

lemma copyUnparsable_told {dryRun : Bool} (hdryRun : f.cfg.dryRun = dryRun) (srcKey dstKey : String) (bytes : Option Bytes) :
    Told f dstKey (f.copyUnparsable attempt srcKey dstKey bytes dryRun) := by
  unfold Filterer.copyUnparsable
  refine Told.publish ⟨rfl, rfl⟩ ?_
  cases dryRun with
  | true => exact Told.quiet ⟨hdryRun, rfl⟩
  | false => exact (copy_placed srcKey dstKey bytes).told hdryRun (.inr ⟨_, rfl⟩)

lemma unrecognized_told (hdryRun : f.cfg.dryRun = false) (srcKey dstKey : String) (bytes : Option Bytes) :
    Told f dstKey (f.unrecognized attempt srcKey dstKey bytes) := by
  unfold Filterer.unrecognized
  cases f.cfg.onUnrecognized with
  | copy => exact Told.publish ⟨rfl, rfl⟩ ((copy_placed srcKey dstKey bytes).told hdryRun (.inr ⟨_, rfl⟩))
  | skip => exact Told.publish ⟨rfl, rfl⟩ (Told.quiet ⟨hdryRun, rfl⟩)
  | error => exact Told.fail dstKey _

/-- A preview that counts an unrecognized object. -/
lemma preview_told (hdryRun : f.cfg.dryRun = true) (dstKey : String) (outcome : Outcome) : Told f dstKey (do
    if outcome = .unrecognized then Effect.publish (Metrics.addUnrecognizedObjects 1) else pure ()
    pure .dryRun) := by
  split_ifs
  · exact Told.publish ⟨rfl, rfl⟩ (Told.quiet ⟨hdryRun, rfl⟩)
  · exact Told.quiet ⟨hdryRun, rfl⟩

lemma streamRun_balanced (engine : Engine) (cfg : Processing) (env : StreamEnv) (body : Body) :
    (streamRun gz float engine cfg env body).metrics.Balanced := by
  have hcounted := @Pipeline.streamRun_counted gz float engine cfg env body
  have hread : ∀ n, Metrics.addBytesIn n ∈ Metrics.balanced := fun n => ⟨rfl, rfl⟩
  have hwrote : ∀ n, Metrics.addBytesOut n ∈ Metrics.balanced := fun n => ⟨rfl, rfl⟩
  rcases streamRunAt_cases gz float engine cfg outputFlushThreshold env body with
    ⟨-, -, -, h⟩ | ⟨-, -, h⟩ | ⟨-, h⟩ | ⟨_, -, h⟩ | ⟨_, h⟩ | ⟨_, h⟩ <;> rw [streamRun, h] at hcounted ⊢
  · exact Metrics.balanced.add_mem (Metrics.balanced.add_mem (hread _) (hwrote _)) (hcounted.commit engine)
  · exact Metrics.balanced.add_mem (hread _) (hcounted.commit engine)
  · exact Metrics.balanced.add_mem (hread _) (hcounted.commit engine)
  all_goals exact hread _

lemma processDryRunStream_told (hdryRun : f.cfg.dryRun = true) (srcKey dstKey : String) :
    Told f dstKey (f.processDryRunStream gz float attempt srcKey) := by
  unfold Filterer.processDryRunStream
  refine Told.after (getStream_prepares attempt.read srcKey dstKey) (fun body _ => ?_)
  refine Told.publish (streamRun_balanced f.engine f.cfg.processing { attempt.stream with upload := none } body) ?_
  cases (streamRun gz float f.engine f.cfg.processing { attempt.stream with upload := none } body).result with
  | ok outcome => exact preview_told hdryRun dstKey outcome
  | error e =>
    simp only
    split_ifs
    · -- the key of the copy, which a preview has none for, does not matter
      exact @copyUnparsable_told f attempt true hdryRun srcKey dstKey none
    · exact Told.fail dstKey _

lemma processStream_told (hdryRun : f.cfg.dryRun = false) (srcKey dstKey : String) :
    Told f dstKey (f.processStream gz float attempt srcKey dstKey) := by
  unfold Filterer.processStream
  refine Told.after (getStream_prepares attempt.read srcKey dstKey) (fun body _ => ?_)
  have hmetrics := @streamRun_balanced gz float f.engine f.cfg.processing attempt.stream body
  unfold Filterer.streamToStore
  -- the upload of an object that is not written is aborted
  have haborted : ∀ result, Prepares f dstKey ((⟨result, [.putStream (f.dest dstKey) none],
      (streamRun gz float f.engine f.cfg.processing attempt.stream body).metrics⟩ : CliM (Except CoreError Outcome))) := by
    intro result
    refine ⟨rfl, ?_, hmetrics⟩
    intro cwd pid p hp
    obtain ⟨c, hc, hp⟩ := List.mem_flatMap.mp hp
    obtain rfl := List.mem_singleton.mp hc
    cases hdst : f.dst with
    | s3 bucket keyPrefix =>
      rw [hdst] at hp
      cases hp
    | «local» root =>
      rw [hdst] at hp
      exact ⟨hdryRun, ⟨root, rfl⟩, List.mem_singleton.mp hp⟩
  rcases Pipeline.streamRun_published gz float f.engine f.cfg.processing attempt.stream body with
    ⟨out, hresult, hcommitted, -⟩ | ⟨hresult, hcommitted, -⟩ | ⟨hresult, hcommitted, -, -⟩ | ⟨e, hresult, hcommitted, -, -⟩
  · simp only [Effect.attempt, Effect.mapError, Except.mapError, Effect.ok_bind, hresult, hcommitted]
    have htargets : ∀ c ∈ [StoreCall.putStream (f.dest dstKey) (some out)],
        c.target = none ∨ c.target = some (f.dest dstKey) := by
      simp [StoreCall.target]
    refine ⟨⟨hdryRun, rfl, out, rfl⟩, ?_, Metrics.balanced.add_mem hmetrics Metrics.balanced.zero_mem⟩
    intro cwd pid p hp
    obtain ⟨c, hc, hp⟩ := List.mem_flatMap.mp hp
    exact ⟨hdryRun, (writes_at (htargets c hc) hp).symm.imp_right (fun hplace => ⟨hplace, rfl⟩)⟩
  · simp only [Effect.attempt, Effect.mapError, Except.mapError, hresult, hcommitted]
    refine Told.after (haborted _) (fun result hok => ?_)
    cases hok
    exact Told.quiet ⟨hdryRun, rfl⟩
  · simp only [Effect.attempt, Effect.mapError, Except.mapError, hresult, hcommitted]
    refine Told.after (haborted _) (fun result hok => ?_)
    cases hok
    exact unrecognized_told hdryRun srcKey dstKey none
  · simp only [Effect.attempt, Effect.mapError, Except.mapError, hresult, hcommitted]
    refine Told.after (haborted _) (fun result hok => ?_)
    cases hok
    simp only
    split_ifs
    · exact copyUnparsable_told hdryRun srcKey dstKey none
    · exact Told.fail dstKey _

lemma runStream_told (srcKey dstKey : String) : Told f dstKey (f.runStream gz float attempt srcKey dstKey) := by
  unfold Filterer.runStream
  split_ifs with hdryRun
  · exact processDryRunStream_told hdryRun srcKey dstKey
  · exact processStream_told (by simpa using hdryRun) srcKey dstKey

lemma conclude_told (srcKey dstKey : String) (bytes : Option Bytes) {result : Except CoreError (Outcome × RecordTally)}
    (hcounted : ∀ outcome tally, result = .ok (outcome, tally) → Pipeline.Counted tally) :
    Told f dstKey (f.conclude gz float attempt srcKey dstKey bytes result) := by
  unfold Filterer.conclude
  cases result with
  | error e =>
    simp only
    split_ifs
    · exact runStream_told srcKey dstKey
    · exact copyUnparsable_told rfl srcKey dstKey bytes
    · exact Told.fail dstKey _
  | ok r =>
    obtain ⟨outcome, tally⟩ := r
    refine Told.finish ?_ ((hcounted outcome tally rfl).commit f.engine)
    unfold Filterer.writeOutcome
    by_cases hdryRun : f.cfg.dryRun = true
    · rw [if_pos hdryRun]
      exact preview_told hdryRun dstKey outcome
    · have hlive : f.cfg.dryRun = false := by simpa using hdryRun
      rw [if_neg hdryRun]
      cases outcome with
      | written body =>
        cases body with
        | some out => exact (put_placed dstKey out).told hlive (.inl rfl)
        | none => exact Told.quiet ⟨hlive, rfl⟩
      | nothingKept => exact Told.quiet ⟨hlive, rfl⟩
      | unrecognized => exact unrecognized_told hlive srcKey dstKey bytes

lemma fetchCapped_reads (srcKey : String) : (∀ c ∈ (f.fetchCapped attempt srcKey).calls, c.isWrite = false) ∧
    (f.fetchCapped attempt srcKey).metrics.Balanced := by
  constructor
  · intro c hc
    rw [(fetchCapped_result srcKey).1 c hc]
    rfl
  · unfold Filterer.fetchCapped Filterer.getStream
    cases attempt.fetch with
    | notFound => exact ⟨rfl, rfl⟩
    | failed message => exact ⟨rfl, rfl⟩
    | body body =>
      simp only [Effect.call_bind, Effect.pure_result, Effect.pure_calls, Effect.pure_metrics, Effect.mapError,
        Except.mapError, Effect.ok_bind]
      split_ifs
      · exact ⟨rfl, rfl⟩
      · cases body.ending <;> exact ⟨rfl, rfl⟩

lemma runBuffer_told (srcKey dstKey : String) : Told f dstKey (f.runBuffer gz float attempt srcKey dstKey) := by
  unfold Filterer.runBuffer Filterer.bufferEval
  obtain ⟨hreads, hbalanced⟩ := @fetchCapped_reads f attempt srcKey
  cases hfetch : (f.fetchCapped attempt srcKey).result with
  | error e =>
    rw [Effect.bind_of_error hfetch]
    refine Told.after (.of_reads dstKey hreads hbalanced) (fun evaluated hok => ?_)
    cases hok
    exact conclude_told srcKey dstKey none (fun _ _ h => by cases h)
  | ok bytes =>
    rw [Effect.bind_of_ok hfetch]
    refine Told.after (.of_reads dstKey ?_ ?_) (fun evaluated hok => ?_)
    · simpa [Effect.attempt, Effect.mapError] using hreads
    · simpa [Effect.attempt, Effect.mapError] using hbalanced
    · cases hok
      exact conclude_told srcKey dstKey (some bytes) (fun _ _ h => Pipeline.bufferRun_counted h)

/-- What becomes of an object is what the round says of it. -/
theorem process_told (canonicalize : Path → Option Path) (srcKey dstKey : String) (size : Option ℕ) :
    Told f dstKey (f.process gz float canonicalize attempt srcKey dstKey size) := by
  unfold Filterer.process
  split_ifs
  · exact Told.fail dstKey _
  · cases f.cfg.selectMode size with
    | stream => exact runStream_told srcKey dstKey
    | buffer => exact runBuffer_told srcKey dstKey

end Object

section Run
variable {gz : Gzip} {float : FloatParser} {debug : String → String} {render : CliError → String} {f : Filterer}
  {canonicalize : ℕ → Path → Option Path} {attempt : ℕ → Attempt}

/-- The key an object of the run goes to. -/
def Filterer.destKey (debug : String → String) (f : Filterer) (single : Option String) (obj : SrcObject) :
    Except String String :=
  match single with
  | some key => .ok key
  | none => batchDestKey debug f.dst obj.rel

/-- A round is told truly, or failed for a relative key that is not safe, with nothing done. -/
lemma round_told (canonicalize : Path → Option Path) (attempt : Attempt) (single : Option String) (obj : SrcObject) :
    let x := f.round gz float debug canonicalize attempt single obj
    (∃ key, f.destKey debug single obj = .ok key ∧ Told f key x) ∨
      ∃ text, f.destKey debug single obj = .error text ∧ x = Effect.fail (.message text) := by
  cases single with
  | some key => exact .inl ⟨key, rfl, process_told canonicalize obj.fetch key obj.size⟩
  | none =>
    change (∃ key, batchDestKey debug f.dst obj.rel = .ok key ∧
        Told f key (filterObject gz float debug f canonicalize attempt obj)) ∨
      ∃ text, batchDestKey debug f.dst obj.rel = .error text ∧
        filterObject gz float debug f canonicalize attempt obj = Effect.fail (.message text)
    unfold filterObject
    cases batchDestKey debug f.dst obj.rel with
    | ok key => exact .inl ⟨key, rfl, process_told canonicalize obj.fetch key obj.size⟩
    | error text => exact .inr ⟨text, rfl, rfl⟩

/-- An outcome that names a place. -/
def namesPlace : Except CliError ObjectOutcome → Bool
  | .ok (.written _) | .ok (.copied _ _) => true
  | _ => false

def isPreview : Except CliError ObjectOutcome → Bool
  | .ok .dryRun => true
  | _ => false

lemma round_landed (canonicalize : Path → Option Path) (attempt : Attempt) (single : Option String) (obj : SrcObject) :
    let x := f.round gz float debug canonicalize attempt single obj
    x.metrics.Balanced ∧ (landedOf x).length = (if namesPlace x.result then 1 else 0) ∧
      (f.cfg.dryRun = true → namesPlace x.result = false ∧ ∀ cwd pid, touchedBy cwd pid f x = []) ∧
      (f.cfg.dryRun = false → isPreview x.result = false) := by
  intro x
  rcases @round_told gz float debug f canonicalize attempt single obj with
    ⟨key, -, htold, htouched, hbalanced⟩ | ⟨text, -, hfail⟩
  · have hnowhere : f.cfg.dryRun = true → ∀ cwd pid, touchedBy cwd pid f x = [] := by
      intro hdry cwd pid
      refine List.eq_nil_iff_forall_not_mem.mpr (fun p hp => ?_)
      have hlive := (htouched cwd pid p hp).1
      rw [hdry] at hlive
      cases hlive
    refine ⟨hbalanced, ?_⟩
    change ToldAt f key x.result (landedOf x) at htold
    cases hr : x.result with
    | error e =>
      rw [hr] at htold
      have hnone : landedOf x = [] := htold
      exact ⟨by rw [hnone]; rfl, fun hdry => ⟨rfl, hnowhere hdry⟩, fun _ => rfl⟩
    | ok outcome =>
      rw [hr] at htold
      cases outcome with
      | written place =>
        obtain ⟨hlive, -, bytes, hlanded⟩ := htold
        exact ⟨by rw [hlanded]; rfl, fun hdry => by simp [hlive] at hdry, fun _ => rfl⟩
      | copied place reason =>
        obtain ⟨hlive, -, bytes, hlanded⟩ := htold
        exact ⟨by rw [hlanded]; rfl, fun hdry => by simp [hlive] at hdry, fun _ => rfl⟩
      | nothingKept | skipped =>
        obtain ⟨hlive, hlanded⟩ := htold
        exact ⟨by rw [hlanded]; rfl, fun hdry => by simp [hlive] at hdry, fun _ => rfl⟩
      | dryRun =>
        obtain ⟨hdry, hlanded⟩ := htold
        exact ⟨by rw [hlanded]; rfl, fun hdry => ⟨rfl, hnowhere hdry⟩, fun hlive => by simp [hdry] at hlive⟩
  · have hx : x = Effect.fail (.message text) := hfail
    rw [hx]
    exact ⟨⟨rfl, rfl⟩, rfl, fun _ => ⟨rfl, fun _ _ => rfl⟩, fun _ => rfl⟩

/-- All objects that are counted. -/
def Counts.total (counts : Counts) : ℕ :=
  counts.written + counts.fullyDropped + counts.copied + counts.skipped + counts.failed

/-- What the loop counts: each object once, but for the previews. -/
lemma foldl_counts (outcomes : List (Except CliError ObjectOutcome)) (counts : Counts) :
    (outcomes.foldl Counts.add counts).total + outcomes.countP isPreview = counts.total + outcomes.length ∧
    (outcomes.foldl Counts.add counts).written + (outcomes.foldl Counts.add counts).copied =
      counts.written + counts.copied + outcomes.countP namesPlace ∧
    (outcomes.foldl Counts.add counts).failed = counts.failed + outcomes.countP (fun outcome => !outcome.isOk) := by
  induction outcomes generalizing counts with
  | nil => simp
  | cons outcome rest ih =>
    obtain ⟨htotal, hplaced, hfailed⟩ := ih (counts.add outcome)
    rw [List.foldl_cons, List.countP_cons, List.countP_cons, List.countP_cons, List.length_cons]
    cases outcome with
    | error e =>
      simp only [Counts.add, Counts.total, isPreview, namesPlace, Except.isOk, Except.toBool] at htotal hplaced hfailed ⊢
      simp only [Bool.false_eq_true, if_false, Bool.not_false, if_true]
      omega
    | ok outcome =>
      cases outcome <;>
        simp only [Counts.add, Counts.total, isPreview, namesPlace, Except.isOk, Except.toBool] at htotal hplaced hfailed ⊢ <;>
        simp only [Bool.false_eq_true, if_false, Bool.not_true, if_true] <;>
        omega

/-- Each object is told on stdout or kept as a failure. -/
lemma zip_told (single : Option String) (objects : List SrcObject) (outcomes : List (Except CliError ObjectOutcome))
    (hlength : objects.length = outcomes.length) :
    ((objects.zip outcomes).filterMap (failureOf render single)).length = outcomes.countP (fun outcome => !outcome.isOk) ∧
    ((objects.zip outcomes).filterMap (outcomeLine single)).length + outcomes.countP (fun outcome => !outcome.isOk) =
      objects.length := by
  induction objects generalizing outcomes with
  | nil =>
    obtain rfl : outcomes = [] := List.length_eq_zero_iff.mp hlength.symm
    exact ⟨rfl, rfl⟩
  | cons obj objects ih =>
    cases outcomes with
    | nil => simp at hlength
    | cons outcome outcomes =>
      obtain ⟨hfailures, hlines⟩ := ih outcomes (by simpa using hlength)
      rw [List.zip_cons_cons, List.filterMap_cons, List.filterMap_cons, List.countP_cons]
      cases outcome with
      | ok outcome =>
        have hok : (.ok outcome : Except CliError ObjectOutcome).isOk = true := rfl
        simp only [failureOf, outcomeLine, hok, Bool.not_true, Bool.false_eq_true, if_false, List.length_cons]
        exact ⟨hfailures, by omega⟩
      | error e =>
        have hok : (.error e : Except CliError ObjectOutcome).isOk = false := rfl
        simp only [failureOf, outcomeLine, hok, Bool.not_false, if_true, List.length_cons]
        exact ⟨by omega, by omega⟩

/-- The loop over a batch runs its rounds one after the other. -/
lemma filterObjects_rounds (i : ℕ) (objects : List SrcObject) :
    filterObjects gz float debug f canonicalize attempt i objects =
      let rounds := (objects.zipIdx i).map (fun t => f.round gz float debug (canonicalize t.2) (attempt t.2) none t.1)
      ⟨.ok (rounds.map Effect.result), (rounds.map Effect.calls).flatten, (rounds.map Effect.metrics).sum⟩ := by
  induction objects generalizing i with
  | nil => rfl
  | cons obj rest ih =>
    rw [filterObjects, ih, List.zipIdx_cons]
    simp only [Effect.attempt, Effect.ok_bind, Effect.pure_result, Effect.pure_calls, Effect.pure_metrics,
      List.append_nil, add_zero, List.map_cons, List.flatten_cons, List.sum_cons]
    rfl

lemma rounds_length (single : Option String) (objects : List SrcObject) :
    (f.rounds gz float debug canonicalize attempt single objects).length = objects.length := by
  simp [Filterer.rounds]

lemma rounds_mem {single : Option String} {objects : List SrcObject} {x : CliM ObjectOutcome}
    (h : x ∈ f.rounds gz float debug canonicalize attempt single objects) :
    ∃ i obj, x = f.round gz float debug (canonicalize i) (attempt i) single obj := by
  obtain ⟨t, -, rfl⟩ := List.mem_map.mp h
  exact ⟨t.2, t.1, rfl⟩

/-- What is not a single file is enumerated. -/
lemma queue_batch {kind : PathKind} {listed : Listed} {objects : List SrcObject}
    (h : f.queue debug kind listed = .ok (objects, none)) : enumerate f.cfg.keys f.src listed = .ok objects := by
  have hmap : ∀ x : Except CliError (List SrcObject), x.map (fun objects => (objects, (none : Option String))) =
      .ok (objects, none) → x = .ok objects := by
    intro x hx
    cases x with
    | error e => cases hx
    | ok queued =>
      cases hx
      rfl
  unfold Filterer.queue at h
  split at h
  · split at h
    · cases h
    · cases h
  · cases h
  · exact hmap _ h

/-- A batch makes its rounds, and fails if one of them did. -/
lemma cmdFilter_rounds {listed : Listed} {objects : List SrcObject} (h : enumerate f.cfg.keys f.src listed = .ok objects) :
    let rounds := f.rounds gz float debug canonicalize attempt none objects
    let failures := (rounds.map Effect.result).countP (fun outcome => !outcome.isOk)
    cmdFilter gz float debug f canonicalize attempt listed =
      ⟨if failures = 0 then .ok (rounds.map Effect.result)
        else .error (.message (toString failures ++ " of " ++ toString objects.length ++ " object(s) failed")),
        (rounds.map Effect.calls).flatten, (rounds.map Effect.metrics).sum⟩ := by
  intro rounds failures
  have hrounds : filterObjects gz float debug f canonicalize attempt 0 objects =
      ⟨.ok (rounds.map Effect.result), (rounds.map Effect.calls).flatten, (rounds.map Effect.metrics).sum⟩ :=
    filterObjects_rounds 0 objects
  unfold cmdFilter
  rw [h]
  simp only [hrounds, Effect.ok_bind]
  by_cases hnone : failures = 0
  · rw [if_pos hnone, if_pos hnone]
    simp
  · rw [if_neg hnone, if_neg hnone]
    simp [Effect.fail, failures]

/-- All that a run lands is what its rounds land. -/
lemma landed_rounds (rounds : List (CliM ObjectOutcome)) :
    ((rounds.map Effect.calls).flatten).filterMap StoreCall.landed = (rounds.map landedOf).flatten := by
  induction rounds with
  | nil => rfl
  | cons x rest ih =>
    rw [List.map_cons, List.flatten_cons, List.filterMap_append, ih]
    rfl

lemma landed_count {rounds : List (CliM ObjectOutcome)}
    (h : ∀ x ∈ rounds, (landedOf x).length = if namesPlace x.result then 1 else 0) :
    ((rounds.map landedOf).flatten).length = (rounds.map Effect.result).countP namesPlace := by
  induction rounds with
  | nil => rfl
  | cons x rest ih =>
    rw [List.map_cons, List.flatten_cons, List.length_append, h x (by simp), ih (fun y hy => h y (by simp [hy])),
      List.map_cons, List.countP_cons, Nat.add_comm]

/-- What the outcome of no round is, no outcome of the run is. -/
lemma countP_result_eq_zero {p : Except CliError ObjectOutcome → Bool} {rounds : List (CliM ObjectOutcome)}
    (h : ∀ x ∈ rounds, p x.result = false) : (rounds.map Effect.result).countP p = 0 := by
  rw [List.countP_eq_zero]
  intro outcome houtcome
  obtain ⟨x, hx, rfl⟩ := List.mem_map.mp houtcome
  simp [h x hx]

/-- Each object has its round, which is told truly. -/
lemma rounds_told {single : Option String} {objects : List SrcObject} {i : ℕ} {obj : SrcObject}
    (hobj : objects[i]? = some obj) :
    ∃ x : CliM ObjectOutcome, (f.rounds gz float debug canonicalize attempt single objects)[i]? = some x ∧
      ((∃ key, f.destKey debug single obj = .ok key ∧ Told f key x) ∨
        ∃ text, f.destKey debug single obj = .error text ∧ x = Effect.fail (.message text)) := by
  have hget : (f.rounds gz float debug canonicalize attempt single objects)[i]? =
      some (f.round gz float debug (canonicalize i) (attempt i) single obj) := by
    simp [Filterer.rounds, hobj]
  exact ⟨_, hget, round_told (canonicalize i) (attempt i) single obj⟩

/-- Over a batch the report is of the run that the loop makes. -/
lemma report_batch (render : CliError → String) {listed : Listed} {objects : List SrcObject}
    (h : enumerate f.cfg.keys f.src listed = .ok objects) :
    let run := f.report render none objects (f.rounds gz float debug canonicalize attempt none objects)
    (run.calls, run.metrics, run.result) =
      let batch := cmdFilter gz float debug f canonicalize attempt listed
      (batch.calls, batch.metrics, batch.result.map (fun _ => ())) := by
  have hlength : objects.length =
      ((f.rounds gz float debug canonicalize attempt none objects).map Effect.result).length := by
    rw [List.length_map, rounds_length]
  have hfailures := (@zip_told render none objects _ hlength).1
  have hbatch := @cmdFilter_rounds gz float debug f canonicalize attempt listed objects h
  simp only at hbatch ⊢
  rw [hbatch]
  unfold Filterer.report
  by_cases hnone : ((f.rounds gz float debug canonicalize attempt none objects).map Effect.result).countP
      (fun outcome => !outcome.isOk) = 0
  · have hnil := List.length_eq_zero_iff.mp (hfailures.trans hnone)
    simp only [hnil, if_true]
    rw [if_pos hnone]
    rfl
  · have hsome := List.length_eq_zero_iff.not.mp (hfailures.trans_ne hnone)
    simp only [hsome, if_false, hfailures]
    rw [if_neg hnone]
    rfl

/-- A run over no objects is a report over none, but for what it prints. -/
lemma cmdFilterReport_queued {source : String} {kind : PathKind} {listed : Listed} {objects : List SrcObject}
    {single : Option String} (h : f.queue debug kind listed = .ok (objects, single)) :
    let report := f.report render single objects (f.rounds gz float debug canonicalize attempt single objects)
    cmdFilterReport gz float debug render f source canonicalize attempt kind listed =
      ⟨if objects = [] then ["no in-scope objects found under " ++ source] else report.stdout, report.stderr,
        report.calls, report.metrics, report.result⟩ := by
  cases objects with
  | nil =>
    rw [cmdFilterReport, h]
    rfl
  | cons obj rest =>
    rw [cmdFilterReport, h]
    rfl

/-- What a run reports is what it did. Each object is on one line, on stdout or, if it failed, on stderr. A line
that names a place is of an object one write of which succeeded there; an object that failed wrote at its own
destination at most, where a part may be left; any other left its destination alone; and a preview wrote
nowhere. The summary counts these lines, live every object once and as many of them written or copied as
writes succeeded. The records balance, and the exit is an error exactly if the objects could not be
enumerated, before any of them, or if one failed, which stops no other. Over a batch this is the run that
the loop makes. -/
theorem filter_reports_what_landed (gz : Gzip) (float : FloatParser) (debug : String → String) (render : CliError → String)
    (f : Filterer) (source : String) (canonicalize : ℕ → Path → Option Path) (attempt : ℕ → Attempt) (kind : PathKind)
    (listed : Listed) :
    let run := cmdFilterReport gz float debug render f source canonicalize attempt kind listed
    (∀ e, f.queue debug kind listed = .error e → run = ⟨[], [], [], 0, .error e⟩) ∧
    ∀ objects single, f.queue debug kind listed = .ok (objects, single) →
      let rounds := f.rounds gz float debug canonicalize attempt single objects
      let lines := (objects.zip (rounds.map Effect.result)).filterMap (outcomeLine single)
      let failures := (objects.zip (rounds.map Effect.result)).filterMap (failureOf render single)
      let counts := (rounds.map Effect.result).foldl Counts.add ⟨0, 0, 0, 0, 0⟩
      run.stdout = (if objects = [] then ["no in-scope objects found under " ++ source]
        else lines ++ [summaryText f.cfg.dryRun objects.length counts run.metrics, recordsText run.metrics]) ∧
      run.stderr = failures.map (fun t => "  " ++ t.1 ++ " -> FAILED: " ++ t.2) ++
        (if failures = [] then []
        else (toString failures.length ++ " object(s) failed:") :: failures.map (fun t => "  " ++ t.1 ++ ": " ++ t.2)) ∧
      lines.length + failures.length = objects.length ∧
      (∀ (i : ℕ) (obj : SrcObject), objects[i]? = some obj → ∃ x : CliM ObjectOutcome, rounds[i]? = some x ∧
        ((∃ key, f.destKey debug single obj = .ok key ∧ Told f key x) ∨
          ∃ text, f.destKey debug single obj = .error text ∧ x = Effect.fail (.message text))) ∧
      run.calls.filterMap StoreCall.landed = (rounds.map landedOf).flatten ∧
      (f.cfg.dryRun = false → counts.total = objects.length ∧
        (run.calls.filterMap StoreCall.landed).length = counts.written + counts.copied) ∧
      (f.cfg.dryRun = true → counts.written + counts.copied = 0 ∧
        ∀ cwd pid, run.calls.flatMap (writes cwd pid f.dst) = []) ∧
      run.metrics.Balanced ∧
      counts.failed = failures.length ∧
      run.result = (if failures = [] then .ok ()
        else .error (.message (toString failures.length ++ " of " ++ toString objects.length ++ " object(s) failed"))) ∧
      (single = none → (run.calls, run.metrics, run.result) =
        let batch := cmdFilter gz float debug f canonicalize attempt listed
        (batch.calls, batch.metrics, batch.result.map (fun _ => ()))) := by
  intro run
  refine ⟨?_, ?_⟩
  · intro e h
    change cmdFilterReport gz float debug render f source canonicalize attempt kind listed = _
    rw [cmdFilterReport, h]
  intro objects single h rounds lines failures counts
  have hlength : objects.length = (rounds.map Effect.result).length := by
    rw [List.length_map]
    exact (rounds_length single objects).symm
  have hrun := @cmdFilterReport_queued gz float debug render f canonicalize attempt source kind listed objects single h
  change run = _ at hrun
  have hcalls : run.calls = (rounds.map Effect.calls).flatten := congrArg Reported.calls hrun
  have hmetrics : run.metrics = (rounds.map Effect.metrics).sum := congrArg Reported.metrics hrun
  obtain ⟨htotal, hplaced, hfailed⟩ := foldl_counts (rounds.map Effect.result) ⟨0, 0, 0, 0, 0⟩
  simp only [Counts.total, Nat.zero_add, Nat.add_zero] at htotal hplaced hfailed
  change counts.written + counts.fullyDropped + counts.copied + counts.skipped + counts.failed + _ = _ at htotal
  change counts.written + counts.copied = _ at hplaced
  change counts.failed = _ at hfailed
  obtain ⟨hfailures, hlines⟩ := @zip_told render single objects (rounds.map Effect.result) hlength
  change failures.length = _ at hfailures
  change lines.length + _ = _ at hlines
  have hrounds : ∀ x ∈ rounds, x.metrics.Balanced ∧ (landedOf x).length = (if namesPlace x.result then 1 else 0) ∧
      (f.cfg.dryRun = true → namesPlace x.result = false ∧ ∀ cwd pid, touchedBy cwd pid f x = []) ∧
      (f.cfg.dryRun = false → isPreview x.result = false) := by
    intro x hx
    obtain ⟨i, obj, rfl⟩ := rounds_mem hx
    exact round_landed (canonicalize i) (attempt i) single obj
  have hlanded : run.calls.filterMap StoreCall.landed = (rounds.map landedOf).flatten := by
    rw [hcalls]
    exact landed_rounds rounds
  have hcount : (run.calls.filterMap StoreCall.landed).length = (rounds.map Effect.result).countP namesPlace := by
    rw [hlanded]
    exact landed_count (fun x hx => (hrounds x hx).2.1)
  refine ⟨?_, congrArg Reported.stderr hrun, by omega, ?_, hlanded, ?_, ?_, ?_, by omega, congrArg Reported.result hrun, ?_⟩
  · rw [hmetrics]
    exact congrArg Reported.stdout hrun
  · intro i obj hobj
    exact rounds_told hobj
  · intro hlive
    have hnone : (rounds.map Effect.result).countP isPreview = 0 :=
      countP_result_eq_zero (fun x hx => (hrounds x hx).2.2.2 hlive)
    exact ⟨by unfold Counts.total; omega, by omega⟩
  · intro hdryRun
    have hnone : (rounds.map Effect.result).countP namesPlace = 0 :=
      countP_result_eq_zero (fun x hx => ((hrounds x hx).2.2.1 hdryRun).1)
    refine ⟨by omega, fun cwd pid => ?_⟩
    rw [hcalls, List.flatMap_eq_nil_iff]
    intro c hc
    obtain ⟨calls, hcalls, hc⟩ := List.mem_flatten.mp hc
    obtain ⟨x, hx, rfl⟩ := List.mem_map.mp hcalls
    exact List.flatMap_eq_nil_iff.mp (((hrounds x hx).2.2.1 hdryRun).2 cwd pid) c hc
  · rw [hmetrics]
    refine Metrics.balanced.list_sum_mem ?_
    intro m hm
    obtain ⟨x, hx, rfl⟩ := List.mem_map.mp hm
    exact (hrounds x hx).1
  · rintro rfl
    rw [hrun]
    exact report_batch render (queue_batch h)

/-- A run between two buckets, live or dry, that copies what does not parse. -/
def copyingFilterer (dryRun : Bool) : Filterer :=
  ⟨passEngine, { FilterConfig.resolve backfillSettings with dryRun := dryRun, onParseError := .copy }, .s3 "trail" "logs/",
    .s3 "filtered" "out"⟩

/-- The first object is filtered, the second does not parse, and the third cannot be put. -/
def mixedAttempts : ℕ → Attempt
  | 0 => Pipeline.sampleAttempt envelopeText
  | 1 => Pipeline.sampleAttempt "x"
  | _ => { Pipeline.sampleAttempt envelopeText with put := some (.backend "503") }

theorem filter_reports_what_landed_sample :
    let report := fun dryRun => cmdFilterReport storedGzip (fun _ => none) id (fun _ => "503") (copyingFilterer dryRun)
      "s3://trail/logs/" (fun _ _ => none) mixedAttempts .other ⟨.ok [], .ok ["logs/a.gz", "logs/b.gz", "logs/c.gz"]⟩
    (report false).stderr = ["  c.gz -> FAILED: 503", "1 object(s) failed:", "  c.gz: 503"] ∧
      ((report false).calls.filterMap StoreCall.landed).length = 2 ∧
      (report false).result = .error (.message "1 of 3 object(s) failed") ∧
      ∀ cwd pid, (report true).calls.flatMap (writes cwd pid (.s3 "filtered" "out")) = [] := by
  intro report
  have hqueue : ∀ dryRun, (copyingFilterer dryRun).queue id .other ⟨.ok [], .ok ["logs/a.gz", "logs/b.gz", "logs/c.gz"]⟩ =
      .ok ([⟨"logs/a.gz", "a.gz", none⟩, ⟨"logs/b.gz", "b.gz", none⟩, ⟨"logs/c.gz", "c.gz", none⟩], none) := by
    decide +kernel
  have hreport := fun dryRun => (filter_reports_what_landed storedGzip (fun _ => none) id (fun _ => "503")
    (copyingFilterer dryRun) "s3://trail/logs/" (fun _ _ => none) mixedAttempts .other
    ⟨.ok [], .ok ["logs/a.gz", "logs/b.gz", "logs/c.gz"]⟩).2 _ _ (hqueue dryRun)
  have hfailures : ([⟨"logs/a.gz", "a.gz", none⟩, ⟨"logs/b.gz", "b.gz", none⟩, ⟨"logs/c.gz", "c.gz", none⟩].zip
      (((copyingFilterer false).rounds storedGzip (fun _ => none) id (fun _ _ => none) mixedAttempts none
        [⟨"logs/a.gz", "a.gz", none⟩, ⟨"logs/b.gz", "b.gz", none⟩, ⟨"logs/c.gz", "c.gz", none⟩]).map Effect.result)).filterMap
          (failureOf (fun _ => "503") none) = [("c.gz", "503")] := by
    decide +kernel
  obtain ⟨-, hstderr, -, -, -, hlive, -, -, -, hresult, -⟩ := hreport false
  obtain ⟨-, -, -, -, -, -, hdry, -⟩ := hreport true
  rw [hfailures] at hstderr hresult
  exact ⟨hstderr, (hlive rfl).2.trans (by decide +kernel), hresult, (hdry rfl).2⟩

end Run

end CloudTrailFilter.Cli
