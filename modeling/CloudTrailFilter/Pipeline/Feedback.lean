import CloudTrailFilter.Pipeline.DryRun

/-!
# No feedback

Pass 1 refuses a batch that would read the destination's own output. What is written under some
settings is therefore never processed again under them, whether it is delivered in the same batch
or in a later one, and a refusal comes before the first call of the store.
-/

namespace CloudTrailFilter.Pipeline
open CloudTrailFilter.Json CloudTrailFilter.Filter CloudTrailFilter.Process

section Contained

/-- Where a call of the store writes. -/
def StoreCall.target : StoreCall → Option Location
  | .getStream _ => none
  | .put dest _ _ | .putStream dest _ => some dest

def isSelfTrigger : CoreError → Bool
  | .selfTrigger _ _ => true
  | _ => false

/-- A computation on an object that writes nowhere else and does not fail as a self-trigger. -/
structure Contained {α : Type} (dest : Location) (x : ObjectM α) : Prop where
  calls : ∀ c ∈ x.calls, c.target = none ∨ c.target = some dest
  errors : ∀ e, x.result = .error e → isSelfTrigger e = false

variable {α β : Type} {dest : Location}

lemma Contained.bind {x : ObjectM α} {f : α → ObjectM β} (hx : Contained dest x) (hf : ∀ a, Contained dest (f a)) :
    Contained dest (x >>= f) :=
  ⟨Effect.bind_calls hx.calls (fun a => (hf a).calls), Effect.bind_errors hx.errors (fun a => (hf a).errors)⟩

lemma contained_pure (a : α) : Contained dest (pure a : ObjectM α) :=
  ⟨by simp, by simp⟩

lemma contained_publish (m : Metrics) : Contained dest (Effect.publish m : ObjectM Unit) :=
  ⟨by simp [Effect.publish], by simp [Effect.publish]⟩

lemma contained_fail {e : CoreError} (he : isSelfTrigger e = false) : Contained dest (Effect.fail e : ObjectM α) :=
  ⟨by simp, by simpa using he⟩

lemma contained_call {c : StoreCall} (hc : c.target = none ∨ c.target = some dest) :
    Contained dest (Effect.call c : ObjectM Unit) :=
  ⟨by simpa [Effect.call] using hc, by simp [Effect.call]⟩

/-- What follows on a result that is matched on may rely on its error. -/
lemma Contained.attempt_bind {x : ObjectM α} {f : Except CoreError α → ObjectM β} (hx : Contained dest x)
    (hf : ∀ result, (∀ e, result = .error e → isSelfTrigger e = false) → Contained dest (f result)) :
    Contained dest (x.attempt >>= f) := by
  have hnext := hf x.result hx.errors
  rw [Effect.bind_of_ok rfl]
  refine ⟨?_, hnext.errors⟩
  intro c hc
  rcases List.mem_append.mp hc with hc | hc
  · exact hx.calls c hc
  · exact hnext.calls c hc

end Contained

section Object
variable {gz : Gzip} {float : FloatParser} {settings : Settings} {engine : Engine} {attempt : Attempt} {dest : Location}

lemma contained_openWithMissingPolicy (answer : GetAnswer) (source : Location) :
    Contained dest (openWithMissingPolicy settings answer source) := by
  apply (contained_call (.inl rfl)).bind
  intro _
  cases answer with
  | body body => exact contained_pure _
  | failed message => exact contained_fail rfl
  | notFound =>
    cases settings.behavior.onMissingObject with
    | skip => exact (contained_publish _).bind (fun _ => contained_pure _)
    | error => exact contained_fail rfl

lemma contained_fetchWithMissingPolicy (source : Location) :
    Contained dest (fetchWithMissingPolicy settings attempt source) := by
  apply (contained_openWithMissingPolicy _ _).bind
  intro reader
  cases reader with
  | none => exact contained_pure _
  | some body =>
    simp only
    split_ifs
    · exact contained_fail rfl
    · cases body.ending with
      | failed message => exact contained_fail rfl
      | eof => exact contained_pure _

lemma contained_putBytes (body : Bytes) : Contained dest (putBytes attempt dest body) := by
  unfold putBytes
  cases attempt.put with
  | none => exact (contained_call (.inr rfl)).bind (fun _ => contained_publish _)
  | some e => exact (contained_call (.inr rfl)).bind (fun _ => contained_fail rfl)

lemma contained_streamCopy (source : Location) (policy : BytesInPolicy) :
    Contained dest (streamCopy settings attempt source dest policy) := by
  apply (contained_openWithMissingPolicy _ _).bind
  intro reader
  cases reader with
  | none => exact contained_pure _
  | some body =>
    simp only
    cases copyError attempt body with
    | none =>
      exact (contained_call (.inr rfl)).bind (fun _ => (contained_publish _).bind (fun _ => contained_pure _))
    | some e =>
      exact (contained_call (.inr rfl)).bind (fun _ => (contained_publish _).bind (fun _ => contained_fail rfl))

/-- A copy that counts the object if it was there. -/
lemma contained_copied (source : Location) (policy : BytesInPolicy) :
    Contained dest (do
      let copied ← streamCopy settings attempt source dest policy
      if copied then Effect.publish (Metrics.addObjectsProcessed 1) else pure ()) := by
  apply (contained_streamCopy source policy).bind
  intro copied
  split_ifs
  · exact contained_publish _
  · exact contained_pure _

lemma contained_copyUnparsable (source : Location) (bytes : Option Bytes) :
    Contained dest (copyUnparsable settings attempt source dest bytes) := by
  apply (contained_publish _).bind
  intro _
  split_ifs
  · exact contained_publish _
  · cases bytes with
    | some bytes => exact (contained_putBytes bytes).bind (fun _ => contained_publish _)
    | none => exact contained_copied source _

lemma contained_applyUnrecognizedPolicy (source : Location) (bytes : Bytes) :
    Contained dest (applyUnrecognizedPolicy settings attempt source dest bytes) := by
  unfold applyUnrecognizedPolicy
  cases settings.behavior.onUnrecognizedObject with
  | copy => exact contained_putBytes bytes
  | skip => exact contained_pure _
  | error => exact contained_fail rfl

lemma bufferRun_not_selfTrigger {compressFails : Bool} {input : Bytes} {e : CoreError}
    (h : bufferRun gz float engine settings.processing compressFails input = .error e) : isSelfTrigger e = false := by
  unfold bufferRun at h
  cases hread : decompressCapped gz settings.processing input with
  | error e' =>
    rw [hread, Fallible.error_bind] at h
    cases h
    unfold decompressCapped at hread
    simp only at hread
    split_ifs at hread <;> cases hread <;> rfl
  | ok text =>
    rw [hread, Fallible.ok_bind] at h
    cases henv : envelopeFromSlice text with
    | none =>
      simp only [henv] at h
      split at h
      · cases h
      · cases h
        rfl
    | some records =>
      simp only [henv] at h
      split_ifs at h
      cases h
      rfl

lemma streamRun_not_selfTrigger {env : StreamEnv} {body : Body} {e : CoreError}
    (h : (streamRun gz float engine settings.processing env body).result = .error e) : isSelfTrigger e = false := by
  have hfailure : ∀ failure : ParseFailure, isSelfTrigger failure.toError = false := by
    intro failure
    cases failure <;> rfl
  unfold streamRun streamRunAt at h
  simp only at h
  split_ifs at h with hpanics hencoder hkept
  · cases h
    rfl
  · cases h
    rfl
  · split at h
    · split at h <;> cases h
      rfl
    · cases h
    · cases h
      exact hfailure _
  · split at h
    · cases h
    · cases h
    · cases h
      exact hfailure _

lemma contained_processBuffer (source : Location) :
    Contained dest (processBuffer gz float settings engine attempt source dest) := by
  apply (contained_fetchWithMissingPolicy source).bind
  intro fetched
  cases fetched with
  | none => exact contained_pure _
  | some bytes =>
    apply (contained_publish _).bind
    intro _
    cases hrun : bufferRun gz float engine settings.processing attempt.compressFails bytes with
    | error e =>
      simp only
      split_ifs
      · exact contained_copyUnparsable source _
      · exact contained_fail (bufferRun_not_selfTrigger hrun)
    | ok r =>
      obtain ⟨outcome, tally⟩ := r
      have hend : Contained dest (do
          Effect.publish (tally.commit engine)
          Effect.publish (Metrics.addObjectsProcessed 1) : ObjectM Unit) :=
        (contained_publish _).bind (fun _ => contained_publish _)
      cases outcome with
      | written out =>
        cases out with
        | some out => exact (contained_putBytes out).bind (fun _ => hend)
        | none => exact hend
      | nothingKept => exact hend
      | unrecognized =>
        exact (contained_publish _).bind
          (fun _ => (contained_applyUnrecognizedPolicy source bytes).bind (fun _ => hend))

lemma contained_streamToStore (body : Body) :
    Contained dest (streamToStore gz float settings engine attempt body dest) :=
  ⟨by simp [streamToStore, StoreCall.target], fun _ h => streamRun_not_selfTrigger h⟩

lemma contained_processStream (source : Location) :
    Contained dest (processStream gz float settings engine attempt source dest) := by
  apply (contained_openWithMissingPolicy _ _).bind
  intro reader
  cases reader with
  | none => exact contained_pure _
  | some body =>
    apply (contained_streamToStore body).attempt_bind
    intro result herror
    cases result with
    | error e =>
      simp only
      split_ifs
      · exact contained_copyUnparsable source _
      · exact contained_fail (herror e rfl)
    | ok outcome =>
      cases outcome with
      | written out => exact contained_publish _
      | nothingKept => exact contained_publish _
      | unrecognized =>
        apply (contained_publish _).bind
        intro _
        cases settings.behavior.onUnrecognizedObject with
        | copy => exact contained_copied source _
        | skip => exact contained_publish _
        | error => exact contained_fail rfl

/-- A dry run counts the copy of an object that did not parse without making it. -/
lemma contained_copyUnparsable_dry (hdry : settings.behavior.dryRun = true) (source elsewhere : Location)
    (bytes : Option Bytes) : Contained dest (copyUnparsable settings attempt source elsewhere bytes) := by
  apply (contained_publish _).bind
  intro _
  rw [if_pos hdry]
  exact contained_publish _

/-- The end of a dry run: an unrecognized object is counted, then the object. -/
lemma contained_counted (outcome : Outcome) {rest : ObjectM Unit} (hrest : Contained dest rest) :
    Contained dest (do
      if outcome = .unrecognized then Effect.publish (Metrics.addUnrecognizedObjects 1) else pure ()
      rest) := by
  split_ifs
  · exact (contained_publish _).bind (fun _ => hrest)
  · exact hrest

lemma contained_processDryRun (hdry : settings.behavior.dryRun = true) (source : Location) :
    Contained dest (processDryRun gz float settings engine attempt source) := by
  apply (contained_fetchWithMissingPolicy source).bind
  intro fetched
  cases fetched with
  | none => exact contained_pure _
  | some bytes =>
    apply (contained_publish _).bind
    intro _
    cases hrun : bufferRun gz float engine settings.processing attempt.compressFails bytes with
    | error e =>
      simp only
      split_ifs
      · exact contained_copyUnparsable_dry hdry source _ _
      · exact contained_fail (bufferRun_not_selfTrigger hrun)
    | ok r =>
      exact contained_counted r.1 ((contained_publish _).bind (fun _ => contained_publish _))

lemma contained_processDryRunStream (hdry : settings.behavior.dryRun = true) (source : Location) :
    Contained dest (processDryRunStream gz float settings engine attempt source) := by
  apply (contained_openWithMissingPolicy _ _).bind
  intro reader
  cases reader with
  | none => exact contained_pure _
  | some body =>
    apply (contained_publish _).bind
    intro _
    cases hrun : (streamRun gz float engine settings.processing { attempt.stream with upload := none } body).result with
    | error e =>
      simp only
      split_ifs
      · exact contained_copyUnparsable_dry hdry source _ _
      · exact contained_fail (streamRun_not_selfTrigger hrun)
    | ok outcome => exact contained_counted outcome (contained_publish _)

lemma contained_runBuffer (source : Location) :
    Contained dest (runBuffer gz float settings engine attempt source dest) := by
  unfold runBuffer
  split_ifs with hdry
  · exact contained_processDryRun hdry source
  · exact contained_processBuffer source

lemma contained_runStream (source : Location) :
    Contained dest (runStream gz float settings engine attempt source dest) := by
  unfold runStream
  split_ifs with hdry
  · exact contained_processDryRunStream hdry source
  · exact contained_processStream source

lemma contained_orRetry {run retry : ObjectM Unit} (hrun : Contained dest run) (hretry : Contained dest retry) :
    Contained dest (orRetry settings run retry) := by
  apply hrun.attempt_bind
  intro result herror
  split_ifs
  · exact hretry
  · cases result with
    | ok _ => exact contained_pure _
    | error e => exact contained_fail (herror e rfl)

/-- The processing of a queued object writes at its destination only. -/
theorem contained_processWork (gz : Gzip) (float : FloatParser) (settings : Settings) (engine : Option Engine)
    (attempt : Attempt) (w : Work) : Contained w.dest (processWork gz float settings engine attempt w) := by
  unfold processWork
  cases engine with
  | none => exact contained_copied _ _
  | some engine =>
    unfold processObject
    cases selectMode settings w.object.size with
    | buffer => exact contained_orRetry (contained_runBuffer _) (contained_runStream _)
    | stream => exact contained_runStream _

end Object

section Feedback

/-- A batch that delivers the object at a location. -/
def Delivers (items : List SourceItem) (location : Location) : Prop :=
  ∃ item ∈ items, item.decodeError = none ∧ ∃ object ∈ item.objects, (object.bucket, object.key) = location

variable {gz : Gzip} {float : FloatParser} {settings : Settings} {engine : Option Engine}

/-- Whatever is sent to a destination triggers itself there. -/
lemma selfTriggers_of_dest {object output : ObjectRef}
    (h : destOf settings object = (output.bucket, output.key)) : selfTriggers settings output = true := by
  obtain ⟨hbucket, hkey⟩ := Prod.mk.inj h
  rw [selfTriggers, decide_eq_true_eq]
  refine ⟨hbucket, ?_⟩
  by_cases hempty : settings.destination.keyPrefix = ""
  · left
    rw [destOf, hempty, String.empty_append]
  · right
    refine ⟨hempty, object.key.toList, ?_⟩
    rw [← hkey, String.toList_append]

lemma opened_queue {decoded : Except String (List SourceItem)} {items : List SourceItem} {ledger : Ledger}
    {work : List Work} (h : (openBatch settings engine decoded).result = .ok (items, ledger, work)) :
    NoSelfTrigger settings items ∧ work = queuedFrom settings 0 items := by
  rcases openBatch_cases settings engine decoded with ⟨_, -, hopen⟩ | ⟨_, _, -, -, hopen⟩ |
    ⟨_, -, -, -, _, _, hopen⟩ | ⟨items', -, -, hself, hopen⟩
  · simp [hopen] at h
  · simp [hopen] at h
  · simp [hopen] at h
  · rw [hopen] at h
    obtain ⟨rfl, -, rfl⟩ := by simpa using h
    exact ⟨hself, rfl⟩

/-- No queued object is another's destination. -/
lemma queue_disjoint {decoded : Except String (List SourceItem)} {items : List SourceItem} {ledger : Ledger}
    {work : List Work} (h : (openBatch settings engine decoded).result = .ok (items, ledger, work)) :
    ∀ w ∈ work, ∀ w' ∈ work, w.dest = destOf settings w.object ∧ w.dest ≠ (w'.object.bucket, w'.object.key) := by
  obtain ⟨hself, rfl⟩ := opened_queue h
  intro w hw w' hw'
  obtain ⟨_, _, -, -, -, -, -, hdest⟩ := queuedFrom_itemIdx settings hw
  obtain ⟨_, item, -, hitem, hdecode, hobject, hallows, -⟩ := queuedFrom_itemIdx settings hw'
  refine ⟨hdest, ?_⟩
  intro heq
  have hno := hself item (List.mem_of_getElem? hitem) hdecode w'.object hobject hallows
  rw [selfTriggers_of_dest (hdest.symm.trans heq)] at hno
  simp at hno

/-- Every write of a call of `handle` is at the destination of an object. -/
lemma Handles.target {decoded : Except String (List SourceItem)} {attempts : ℕ → Attempt}
    {x : ObjectM BatchOutcome} (h : Handles gz float settings engine decoded attempts x) {c : StoreCall}
    (hc : c ∈ x.calls) {location : Location} (htarget : c.target = some location) :
    ∃ object, location = destOf settings object := by
  rcases handles_cases gz float settings engine attempts h with ⟨_, -, hx⟩ | ⟨_, _, -, -, hx⟩ |
    ⟨_, -, -, -, _, hx⟩ | ⟨items, -, -, -, hcompleted⟩
  · simp [hx] at hc
  · simp [hx] at hc
  · simp [hx] at hc
  · rw [hcompleted.calls.mem_iff] at hc
    obtain ⟨⟨w, k⟩, ht, hc⟩ := List.mem_flatMap.mp hc
    have hw : w ∈ queuedFrom settings 0 items := List.fst_mem_of_mem_zipIdx ht
    obtain ⟨_, _, -, -, -, -, -, hdest⟩ := queuedFrom_itemIdx settings hw
    rcases (contained_processWork gz float settings engine (attempts k) w).calls c hc with hnone | hsome
    · rw [hnone] at htarget
      simp at htarget
    · rw [hsome, Option.some.injEq] at htarget
      exact ⟨w.object, htarget.symm.trans hdest⟩

/-- A batch that delivers what triggers itself is refused, as that or for want of a ruleset. -/
lemma Handles.refuses {items : List SourceItem} {attempts : ℕ → Attempt} {y : ObjectM BatchOutcome}
    (h : Handles gz float settings engine (.ok items) attempts y) (hself : ¬NoSelfTrigger settings items) :
    (∃ bucket key, y.result = .error (.selfTrigger bucket key)) ∨
      closedGate settings engine = true ∧ (∃ message, y.result = .error (.config message)) ∧ y.calls = [] := by
  rcases handles_cases gz float settings engine attempts h with ⟨_, hbad, -⟩ | ⟨_, message, -, hgate, hx⟩ |
    ⟨_, -, -, -, dest, hx⟩ | ⟨items', heq, -, hno, -⟩
  · simp at hbad
  · exact .inr ⟨hgate, ⟨message, by rw [hx]⟩, by rw [hx]⟩
  · exact .inl ⟨dest.1, dest.2, by rw [hx]⟩
  · obtain rfl := Except.ok.inj heq
    exact (hself hno).elim

/-- A call of `handle` that ends in a self-trigger has not called the store. -/
lemma Handles.selfTrigger_calls {decoded : Except String (List SourceItem)} {attempts : ℕ → Attempt}
    {x : ObjectM BatchOutcome} (h : Handles gz float settings engine decoded attempts x) {bucket key : String}
    (hx : x.result = .error (.selfTrigger bucket key)) : x.calls = [] := by
  rcases handles_cases gz float settings engine attempts h with ⟨_, -, rfl⟩ | ⟨_, _, -, -, rfl⟩ |
    ⟨_, -, -, -, _, rfl⟩ | ⟨items, -, -, -, hcompleted⟩
  · rfl
  · rfl
  · rfl
  · rcases hcompleted.result_cases with ⟨e, i, k, herror, hfailure, -⟩ | ⟨hok, -⟩
    · rw [herror] at hx
      obtain rfl := Except.error.inj hx
      cases hfailure with
      | @object _ w _ _ _ _ _ hrun =>
        have hnot := (contained_processWork gz float settings engine (attempts k) w).errors _ hrun
        simp [isSelfTrigger] at hnot
    · rw [hok] at hx
      simp at hx

/-- The guard closes every feedback loop. No queued object is the destination of one, what is ever
written is refused when it is delivered under the same settings, unless its key is excluded, and
a self-trigger comes before the first call of the store. Without a ruleset that is asked for, the
batch is refused for that first. -/
theorem self_trigger_closes_feedback (gz : Gzip) (float : FloatParser) (settings : Settings) :
    (∀ engine decoded items ledger work, (openBatch settings engine decoded).result = .ok (items, ledger, work) →
      ∀ w ∈ work, ∀ w' ∈ work, w.dest = destOf settings w.object ∧ w.dest ≠ (w'.object.bucket, w'.object.key)) ∧
    (∀ engine decoded attempts x, Handles gz float settings engine decoded attempts x →
      ∀ c ∈ x.calls, ∀ location, c.target = some location →
        ∀ engine' items', Delivers items' location →
          settings.keyFilter.allows location.2 = false ∨
          ∀ attempts' y, Handles gz float settings engine' (.ok items') attempts' y →
            (∃ bucket key, y.result = .error (.selfTrigger bucket key)) ∨
            closedGate settings engine' = true ∧ (∃ message, y.result = .error (.config message)) ∧ y.calls = []) ∧
    ∀ engine decoded attempts x, Handles gz float settings engine decoded attempts x →
      ∀ bucket key, x.result = .error (.selfTrigger bucket key) → x.calls = [] := by
  refine ⟨fun _ _ _ _ _ h => queue_disjoint h, ?_, fun _ _ _ _ h _ _ hx => h.selfTrigger_calls hx⟩
  intro engine decoded attempts x h c hc location htarget engine' items' hdelivers
  by_cases hallows : settings.keyFilter.allows location.2 = true
  · right
    intro attempts' y hy
    apply hy.refuses
    intro hno
    obtain ⟨source, hsource⟩ := h.target hc htarget
    obtain ⟨item, hitem, hdecode, object, hobject, hlocation⟩ := hdelivers
    have hkey : object.key = location.2 := congrArg Prod.snd hlocation
    have hnot := hno item hitem hdecode object hobject (by rw [hkey, hallows])
    rw [selfTriggers_of_dest (hsource.symm.trans hlocation.symm)] at hnot
    simp at hnot
  · exact .inl (by simpa using hallows)

/-- The output of the sample object under `feedbackSettings`, delivered as a source. -/
def outputItems : List SourceItem := [.new none [⟨"filtered", "out/2024/01/01/a.json.gz", none⟩]]

/-- A run that writes the sample object's output. -/
lemma exists_output_written :
    ∃ x, Handles storedGzip (fun _ => none) feedbackSettings (some passEngine) (.ok [.new none [sampleObject]])
        (fun _ => sampleAttempt envelopeText) x ∧
      ∃ c ∈ x.calls, c.target = some ("filtered", "out/2024/01/01/a.json.gz") := by
  obtain ⟨x, hx⟩ := exists_handles storedGzip (fun _ => none) feedbackSettings (some passEngine)
    (fun _ => sampleAttempt envelopeText) (.ok [.new none [sampleObject]]) le_rfl
  have hcalls := (handleSequential_eq (n := 1) storedGzip (fun _ => none) feedbackSettings (some passEngine)
    (fun _ => sampleAttempt envelopeText) hx).2.2
  have hwrites : (handleSequential storedGzip (fun _ => none) feedbackSettings (some passEngine)
      (.ok [.new none [sampleObject]]) (fun _ => sampleAttempt envelopeText)).calls.any
        (fun c => c.target = some ("filtered", "out/2024/01/01/a.json.gz")) = true := by
    decide +kernel
  obtain ⟨c, hc, htarget⟩ := List.any_eq_true.mp hwrites
  exact ⟨x, hx, c, hcalls.mem_iff.mpr hc, by simpa using htarget⟩

theorem self_trigger_closes_feedback_sample :
    ∃ y, Handles storedGzip (fun _ => none) feedbackSettings (some passEngine) (.ok outputItems)
        (fun _ => sampleAttempt envelopeText) y ∧
      (∃ bucket key, y.result = .error (.selfTrigger bucket key)) ∧ y.calls = [] := by
  obtain ⟨x, hx, c, hc, htarget⟩ := exists_output_written
  obtain ⟨y, hy⟩ := exists_handles storedGzip (fun _ => none) feedbackSettings (some passEngine)
    (fun _ => sampleAttempt envelopeText) (.ok outputItems) le_rfl
  obtain ⟨-, hlater, hcalls⟩ := self_trigger_closes_feedback storedGzip (fun _ => none) feedbackSettings
  have hdelivers : Delivers outputItems ("filtered", "out/2024/01/01/a.json.gz") :=
    ⟨_, List.mem_singleton_self _, rfl, _, List.mem_singleton_self _, rfl⟩
  rcases hlater _ _ _ x hx c hc _ htarget (some passEngine) outputItems hdelivers with hexcluded | hrefused
  · simp [feedbackSettings, sampleSettings, KeyFilter.allows] at hexcluded
  · rcases hrefused _ y hy with ⟨bucket, key, hresult⟩ | ⟨hgate, -⟩
    · exact ⟨y, hy, ⟨bucket, key, hresult⟩, hcalls _ _ _ y hy bucket key hresult⟩
    · simp [closedGate] at hgate

/-- Without a ruleset the batch is refused before pass 1 looks for a self-trigger. -/
theorem self_trigger_behind_closed_gate :
    ∃ x y, Handles storedGzip (fun _ => none) feedbackSettings (some passEngine) (.ok [.new none [sampleObject]])
        (fun _ => sampleAttempt envelopeText) x ∧
      (∃ c ∈ x.calls, c.target = some ("filtered", "out/2024/01/01/a.json.gz")) ∧
      Delivers outputItems ("filtered", "out/2024/01/01/a.json.gz") ∧
      feedbackSettings.keyFilter.allows "out/2024/01/01/a.json.gz" = true ∧
      Handles storedGzip (fun _ => none) feedbackSettings none (.ok outputItems)
        (fun _ => sampleAttempt envelopeText) y ∧
      ∀ bucket key, y.result ≠ .error (.selfTrigger bucket key) := by
  obtain ⟨x, hx, hwritten⟩ := exists_output_written
  obtain ⟨y, hy⟩ := exists_handles storedGzip (fun _ => none) feedbackSettings none
    (fun _ => sampleAttempt envelopeText) (.ok outputItems) le_rfl
  have hgate : closedGate feedbackSettings none = true := by decide
  refine ⟨x, y, hx, hwritten, ⟨_, List.mem_singleton_self _, rfl, _, List.mem_singleton_self _, rfl⟩, rfl, hy, ?_⟩
  intro bucket key hresult
  rcases handles_cases _ _ _ _ _ hy with ⟨_, hbad, -⟩ | ⟨_, _, -, -, rfl⟩ | ⟨_, -, hopen, -⟩ | ⟨_, -, hopen, -⟩
  · simp at hbad
  · simp at hresult
  · simp [hgate] at hopen
  · simp [hgate] at hopen

end Feedback

end CloudTrailFilter.Pipeline
