import CloudTrailFilter.Pipeline.Landing

/-!
# Redelivery

An object may be delivered any number of times, in any grouping, and its attempts may fail anywhere.
Over an unchanged source, and as long as one mode decides about it at every delivery, every write of
it carries the same body, so that once each object has had an attempt that succeeded the destination
is the one a single run without failures leaves. Which mode decides may hang on the size that the
notification gives, and the two modes do not always write the same bytes.
-/

namespace CloudTrailFilter.Pipeline
open CloudTrailFilter.Json CloudTrailFilter.Filter CloudTrailFilter.Process

section Redelivery
variable (gz : Gzip) (float : FloatParser) (settings : Settings) (engine : Option Engine)
  (sources : Location → Option Bytes)

/-- A call of `handle` over a store with these sources. -/
structure Delivery where
  decoded : Except String (List SourceItem)
  attempts : ℕ → Attempt
  outcome : ObjectM BatchOutcome
  handles : Handles gz float settings engine decoded attempts outcome
  reads : ∀ t ∈ (queueOf settings engine decoded).zipIdx,
    (attempts t.2).Of (sources (t.1.object.bucket, t.1.object.key))

/-- Where an object is. Its size is only what the notification says. -/
def sourceOf (object : ObjectRef) : Location := (object.bucket, object.key)

/-- The same mode decides about two queued objects, with the bytes that are there. -/
def SameMode (w w' : Work) : Prop :=
  ∀ ruleset source, engine = some ruleset → sources (sourceOf w.object) = some source →
    sourceMode gz float settings ruleset w.object source = sourceMode gz float settings ruleset w'.object source

variable {gz float settings engine sources}

lemma SameMode.refl (w : Work) : SameMode gz float settings engine sources w w := fun _ _ _ _ => rfl

lemma SameMode.of_size {w w' : Work} (h : selectMode settings w.object.size = selectMode settings w'.object.size) :
    SameMode gz float settings engine sources w w' := by
  intro ruleset source _ _
  simp only [sourceMode, h]

namespace Delivery
variable (d : Delivery gz float settings engine sources)

/-- The objects that a call of `handle` attempts. -/
def queue : List Work := queueOf settings engine d.decoded

/-- The call had an attempt at this object that returned `Ok`. -/
def Succeeded (object : ObjectRef) : Prop :=
  ∃ t ∈ d.queue.zipIdx, t.1.object = object ∧ (runWork gz float settings engine d.attempts t).result = .ok ()

/-- No call of the store and no step of an attempt failed. -/
def FailureFree : Prop := Succeeds sources d.queue d.attempts

variable {d}

/-- The writes of a call of `handle` are those of its attempts. -/
lemma mem_landed {write : Location × Bytes} :
    write ∈ landed d.outcome ↔
      ∃ t ∈ d.queue.zipIdx, write ∈ landed (runWork gz float settings engine d.attempts t) := by
  have hhandles := d.handles
  unfold queue
  rcases openBatch_cases settings engine d.decoded with ⟨_, -, hopen⟩ | ⟨_, _, -, -, hopen⟩ |
    ⟨_, -, -, -, _, _, hopen⟩ | ⟨items, hdecoded, hgate, hself, hopen⟩
  · simp [hhandles.refused hopen, queueOf_refused hopen, landed]
  · simp [hhandles.refused hopen, queueOf_refused hopen, landed]
  · simp [hhandles.refused hopen, queueOf_refused hopen, landed]
  · rw [hdecoded] at hhandles
    have hcompleted := hhandles.completed hgate hself
    rw [queueOf_opened hopen]
    unfold landed
    rw [(hcompleted.calls.filterMap _).mem_iff, List.filterMap_flatMap]
    simp only [List.mem_flatMap, tasks]

lemma dest_eq {w : Work} (h : w ∈ d.queue) : w.dest = destOf settings w.object := by
  unfold queue at h
  rcases openBatch_cases settings engine d.decoded with ⟨_, -, hopen⟩ | ⟨_, _, -, -, hopen⟩ |
    ⟨_, -, -, -, _, _, hopen⟩ | ⟨items, -, -, -, hopen⟩
  · simp [queueOf_refused hopen] at h
  · simp [queueOf_refused hopen] at h
  · simp [queueOf_refused hopen] at h
  · rw [queueOf_opened hopen] at h
    obtain ⟨_, _, -, -, -, -, -, hdest⟩ := queuedFrom_itemIdx settings h
    exact hdest

/-- Queued works at one source write the same, if one mode decides about both. -/
lemma writeOf_congr {d' : Delivery gz float settings engine sources} {w w' : Work} (h : w ∈ d.queue)
    (h' : w' ∈ d'.queue) (hsource : sourceOf w.object = sourceOf w'.object)
    (hmode : SameMode gz float settings engine sources w w') :
    writeOf gz float settings engine sources w = writeOf gz float settings engine sources w' := by
  have hkey : w.object.key = w'.object.key := congrArg Prod.snd hsource
  have hdest : w.dest = w'.dest := by
    rw [dest_eq h, dest_eq h', destOf, destOf, hkey]
  unfold writeOf
  rw [hdest]
  change ((sources (sourceOf w.object)).bind _).map _ = ((sources (sourceOf w'.object)).bind _).map _
  rw [← hsource]
  cases hbytes : sources (sourceOf w.object) with
  | none => rfl
  | some source =>
    have hwritten : written gz float settings engine w.object source = written gz float settings engine w'.object source := by
      cases engine with
      | none => rfl
      | some ruleset => simp only [written, hmode ruleset source rfl hbytes]
    simp only [Option.bind_some, hwritten]

/-- Whatever the failures, a write is the one its object determines. -/
lemma writeOf_of_landed (hgz : gz.Lawful) {write : Location × Bytes} (h : write ∈ landed d.outcome) :
    ∃ w ∈ d.queue, writeOf gz float settings engine sources w = some write := by
  obtain ⟨⟨w, k⟩, ht, hwrite⟩ := mem_landed.mp h
  obtain ⟨hlanded, -⟩ := processWork_landed float settings hgz engine w (d.reads (w, k) ht)
  refine ⟨w, List.fst_mem_of_mem_zipIdx ht, ?_⟩
  rcases hlanded with hnone | hlanded
  · rw [runWork, hnone] at hwrite
    cases hwrite
  · rw [runWork, hlanded] at hwrite
    exact Option.mem_toList.mp hwrite

/-- An attempt that returned `Ok` landed the write of its object. -/
lemma landed_of_succeeded (hgz : gz.Lawful) {object : ObjectRef} (h : d.Succeeded object) :
    ∃ w ∈ d.queue, w.object = object ∧ ∀ write, writeOf gz float settings engine sources w = some write →
      write ∈ landed d.outcome := by
  obtain ⟨⟨w, k⟩, ht, hobject, hok⟩ := h
  obtain ⟨-, hlanded⟩ := processWork_landed float settings hgz engine w (d.reads (w, k) ht)
  refine ⟨w, List.fst_mem_of_mem_zipIdx ht, hobject, ?_⟩
  intro write hwrite
  refine mem_landed.mpr ⟨(w, k), ht, ?_⟩
  rw [runWork, hlanded hok]
  exact Option.mem_toList.mpr hwrite

/-- In a call without failures the writes are those of its objects. -/
lemma mem_landed_of_failureFree (hgz : gz.Lawful) (h : d.FailureFree) {write : Location × Bytes} :
    write ∈ landed d.outcome ↔ ∃ w ∈ d.queue, writeOf gz float settings engine sources w = some write := by
  refine ⟨writeOf_of_landed hgz, ?_⟩
  rintro ⟨w, hw, hwrite⟩
  obtain ⟨k, hk⟩ := List.mem_iff_getElem?.mp hw
  have ht := List.mk_mem_zipIdx_iff_getElem?.mpr hk
  refine mem_landed.mpr ⟨(w, k), ht, ?_⟩
  rw [show landed _ = _ from landed_runWork hgz h ht]
  exact Option.mem_toList.mpr hwrite

end Delivery

/-- The writes of a history of calls. -/
def historyWrites (history : List (Delivery gz float settings engine sources)) : List (Location × Bytes) :=
  history.flatMap (fun d => landed d.outcome)

/-- Every write of a history is the one that an object attempted in it determines. -/
lemma writeOf_of_historyWrites (hgz : gz.Lawful) {history : List (Delivery gz float settings engine sources)}
    {write : Location × Bytes} (h : write ∈ historyWrites history) :
    ∃ d ∈ history, ∃ w ∈ d.queue, writeOf gz float settings engine sources w = some write := by
  obtain ⟨d, hd, hwrite⟩ := List.mem_flatMap.mp h
  obtain ⟨w, hw, hwrite⟩ := Delivery.writeOf_of_landed hgz hwrite
  exact ⟨d, hd, w, hw, hwrite⟩

/-- Two calls attempt each source that both have in one mode. -/
def Delivery.AgreesOn (d d' : Delivery gz float settings engine sources) : Prop :=
  ∀ w ∈ d.queue, ∀ w' ∈ d'.queue, sourceOf w.object = sourceOf w'.object →
    SameMode gz float settings engine sources w w'

variable (gz float settings engine sources) in
/-- Every batch has a delivery with these attempts. -/
lemma exists_delivery (decoded : Except String (List SourceItem)) (attempts : ℕ → Attempt)
    (hroom : 1 ≤ settings.processing.objectConcurrency) (hreads : ∀ t ∈ (queueOf settings engine decoded).zipIdx,
      (attempts t.2).Of (sources (t.1.object.bucket, t.1.object.key))) :
    ∃ d : Delivery gz float settings engine sources, d.decoded = decoded ∧ d.attempts = attempts := by
  obtain ⟨x, hx⟩ := exists_handles gz float settings engine attempts decoded hroom
  exact ⟨⟨decoded, attempts, x, hx, hreads⟩, rfl, rfl⟩

/-- A store that holds the same envelope under every key. -/
def envelopeSources (_ : Location) : Option Bytes := some (storedMember envelopeText.toUTF8.toList)

/-- The sample object, notified with a size. -/
def sizedObject (size : Option ℕ) : ObjectRef := { sampleObject with size := size }

def sizedWork (size : Option ℕ) : Work := ⟨0, sizedObject size, ("filtered", sampleObject.key)⟩

def sizedItems (size : Option ℕ) : List SourceItem := [.new (some "m1") [sizedObject size]]

lemma sizedItems_queue (size : Option ℕ) :
    queueOf sampleSettings (some passEngine) (.ok (sizedItems size)) = [sizedWork size] := by
  cases size <;> rfl

/-- A delivery of the sample object in which nothing fails but, perhaps, the put. -/
lemma exists_sizedDelivery (sources : Location → Option Bytes) (size : Option ℕ) (put : Option StoreError) :
    ∃ d : Delivery storedGzip (fun _ => none) sampleSettings (some passEngine) sources,
      d.queue = [sizedWork size] ∧
        d.attempts = fun _ => { wholeAttempt (sources (sourceOf sampleObject)) with put := put } := by
  have hof : (wholeAttempt (sources (sourceOf sampleObject))).Of (sources (sourceOf sampleObject)) :=
    (wholeAttempt_failureFree _).of
  obtain ⟨d, hdecoded, hattempts⟩ := exists_delivery storedGzip (fun _ => none) sampleSettings (some passEngine)
    sources (.ok (sizedItems size)) (fun _ => { wholeAttempt (sources (sourceOf sampleObject)) with put := put }) le_rfl
    (by
      intro t ht
      rw [sizedItems_queue] at ht
      obtain rfl : t = (sizedWork size, 0) := by simpa using ht
      exact ⟨hof.fetch, hof.read, hof.reread⟩)
  exact ⟨d, by rw [Delivery.queue, hdecoded, sizedItems_queue], hattempts⟩

lemma sizedDelivery_failureFree {sources : Location → Option Bytes} {size : Option ℕ}
    {d : Delivery storedGzip (fun _ => none) sampleSettings (some passEngine) sources}
    (hqueue : d.queue = [sizedWork size])
    (hattempts : d.attempts = fun _ => { wholeAttempt (sources (sourceOf sampleObject)) with put := none }) :
    d.FailureFree := by
  intro t ht
  rw [hqueue] at ht
  obtain rfl : t = (sizedWork size, 0) := by simpa using ht
  rw [hattempts]
  exact wholeAttempt_failureFree _

/-- A store that holds an array of records in an array. -/
def nestedSources (_ : Location) : Option Bytes := some (storedMember nestedText.toUTF8.toList)

end Redelivery

end CloudTrailFilter.Pipeline
