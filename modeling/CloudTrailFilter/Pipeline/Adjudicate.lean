import CloudTrailFilter.Pipeline.Batch

/-!
# What a batch comes to

Pass 1 and pass 3 as statements about the items: which objects are queued, which failures are
held and which are isolated, and that the failure of a batch is the one with the least item and,
within it, the least place in the queue.
-/

namespace CloudTrailFilter.Pipeline
open CloudTrailFilter.Json CloudTrailFilter.Filter CloudTrailFilter.Process

section Queue
variable (settings : Settings)

/-- The objects of an item that go into the queue. -/
def queuedOf (itemIdx : ℕ) (item : SourceItem) : List Work :=
  if item.decodeError.isSome then []
  else (item.objects.filter (fun object => settings.keyFilter.allows object.key)).map
    (fun object => ⟨itemIdx, object, destOf settings object⟩)

/-- The queue of the items from this index on. -/
def queuedFrom (itemIdx : ℕ) : List SourceItem → List Work
  | [] => []
  | item :: rest => queuedOf settings itemIdx item ++ queuedFrom (itemIdx + 1) rest

/-- The failures pass 1 notes. -/
def decodeNotes (itemIdx : ℕ) : List SourceItem → List (ℕ × SourceItem × CoreError)
  | [] => []
  | item :: rest =>
    (item.decodeError.toList.map (fun message => (itemIdx, item, .decode message))) ++
      decodeNotes (itemIdx + 1) rest

/-- A failure, as the ledger notes it. -/
def Ledger.noteAll (ledger : Ledger) (notes : List (ℕ × SourceItem × CoreError)) : Ledger :=
  notes.foldl (fun ledger note => ledger.note settings note.1 note.2.1 note.2.2) ledger

lemma Ledger.noteAll_append (ledger : Ledger) (a b : List (ℕ × SourceItem × CoreError)) :
    ledger.noteAll settings (a ++ b) = (ledger.noteAll settings a).noteAll settings b :=
  List.foldl_append

/-- What pass 1 publishes about an item. -/
def itemMetrics (item : SourceItem) : Metrics :=
  match item.decodeError with
  | some _ => Metrics.addDecodeErrors 1
  | none => (if item.objects = [] then Metrics.addItemsWithoutObjects 1 else 0) +
      Metrics.addObjectsExcludedByKey
        (item.objects.countP (fun object => !settings.keyFilter.allows object.key))

/-- No object of these items that gets past the key filter would trigger its own processing. -/
def NoSelfTrigger (settings : Settings) (items : List SourceItem) : Prop :=
  ∀ item ∈ items, item.decodeError = none → ∀ object ∈ item.objects,
    settings.keyFilter.allows object.key = true → selfTriggers settings object = false

/-- An item is queued whole unless one of its objects would trigger itself. -/
lemma queueObjects_cases (itemIdx : ℕ) (objects : List ObjectRef) :
    (queueObjects settings itemIdx objects =
        ⟨.ok ((objects.filter (fun object => settings.keyFilter.allows object.key)).map
          (fun object => ⟨itemIdx, object, destOf settings object⟩)), [],
          Metrics.addObjectsExcludedByKey (objects.countP (fun object => !settings.keyFilter.allows object.key))⟩ ∧
      ∀ object ∈ objects, settings.keyFilter.allows object.key = true → selfTriggers settings object = false) ∨
    ∃ object m, queueObjects settings itemIdx objects =
        ⟨.error (.selfTrigger (destOf settings object).1 (destOf settings object).2), [], m⟩ ∧
      object ∈ objects ∧ settings.keyFilter.allows object.key = true ∧ selfTriggers settings object = true := by
  induction objects with
  | nil => exact .inl ⟨rfl, by simp⟩
  | cons object rest ih =>
    unfold queueObjects
    by_cases hallows : settings.keyFilter.allows object.key = true
    · by_cases hself : selfTriggers settings object = true
      · right
        refine ⟨object, Metrics.addObjectsFailed 1, ?_, by simp, hallows, hself⟩
        simp [hallows, hself]
      · rcases ih with ⟨hrest, hnone⟩ | ⟨other, m, hrest, hmem, hother⟩
        · left
          constructor
          · simp [hallows, hself, hrest]
          · intro other hmem hother
            rcases List.mem_cons.mp hmem with rfl | hmem
            · simpa using hself
            · exact hnone other hmem hother
        · right
          exact ⟨other, m, by simp [hallows, hself, hrest], List.mem_cons_of_mem _ hmem, hother⟩
    · rcases ih with ⟨hrest, hnone⟩ | ⟨other, m, hrest, hmem, hother⟩
      · left
        constructor
        · simp [hallows, hrest]
          rw [add_comm]
          rfl
        · intro other hmem hother
          rcases List.mem_cons.mp hmem with rfl | hmem
          · exact (hallows hother).elim
          · exact hnone other hmem hother
      · right
        exact ⟨other, _, by simp [hallows, hrest]; rfl, List.mem_cons_of_mem _ hmem, hother⟩

lemma triageItem_cases (ledger : Ledger) (itemIdx : ℕ) (item : SourceItem) :
    (triageItem settings ledger itemIdx item =
        ⟨.ok (ledger.noteAll settings (item.decodeError.toList.map (fun message => (itemIdx, item, .decode message))),
          queuedOf settings itemIdx item), [], itemMetrics settings item⟩ ∧
      NoSelfTrigger settings [item]) ∨
    ∃ (dest : Location) (m : Metrics), triageItem settings ledger itemIdx item =
        ⟨.error (.selfTrigger dest.1 dest.2), [], m⟩ ∧ ¬NoSelfTrigger settings [item] := by
  unfold triageItem itemMetrics queuedOf NoSelfTrigger
  cases hdecode : item.decodeError with
  | some message =>
    left
    refine ⟨by simp [Ledger.noteAll], ?_⟩
    intro other hmem hnone
    rw [List.mem_singleton] at hmem
    simp [hmem, hdecode] at hnone
  | none =>
    rcases queueObjects_cases settings itemIdx item.objects with
      ⟨hqueue, hself⟩ | ⟨object, m, hqueue, hmem, hallows, hself⟩
    · left
      refine ⟨by simp [hqueue, Ledger.noteAll], ?_⟩
      intro other hmem _
      rw [List.mem_singleton] at hmem
      rw [hmem]
      exact hself
    · right
      refine ⟨destOf settings object, _, by simp [hqueue]; rfl, ?_⟩
      intro hnone
      simp [hnone item (by simp) hdecode object hmem hallows] at hself

/-- Pass 1 queues every object that passes the key filter and notes every decode failure, unless
it stops at an object that would trigger itself. -/
lemma triage_cases (ledger : Ledger) (itemIdx : ℕ) (items : List SourceItem) :
    (triage settings ledger itemIdx items =
        ⟨.ok (ledger.noteAll settings (decodeNotes itemIdx items), queuedFrom settings itemIdx items), [],
          (items.map (itemMetrics settings)).sum⟩ ∧ NoSelfTrigger settings items) ∨
    ∃ (dest : Location) (m : Metrics), triage settings ledger itemIdx items =
        ⟨.error (.selfTrigger dest.1 dest.2), [], m⟩ ∧ ¬NoSelfTrigger settings items := by
  induction items generalizing ledger itemIdx with
  | nil => exact .inl ⟨rfl, by simp [NoSelfTrigger]⟩
  | cons item rest ih =>
    unfold triage
    rcases triageItem_cases settings ledger itemIdx item with ⟨hitem, hself⟩ | ⟨dest, m, hitem, hself⟩
    · rw [hitem, Effect.ok_bind]
      rcases ih (ledger.noteAll settings (item.decodeError.toList.map
          (fun message => (itemIdx, item, .decode message)))) (itemIdx + 1) with
        ⟨hrest, hselves⟩ | ⟨dest, m, hrest, hselves⟩
      · left
        constructor
        · simp [hrest, Ledger.noteAll_append, decodeNotes, queuedFrom]
        · intro other hmem
          rcases List.mem_cons.mp hmem with rfl | hmem
          · exact hself other (by simp)
          · exact hselves other hmem
      · right
        refine ⟨dest, itemMetrics settings item + m, by simp [hrest], ?_⟩
        intro hnone
        exact hselves (fun other hmem => hnone other (List.mem_cons_of_mem _ hmem))
    · right
      refine ⟨dest, m, by rw [hitem]; rfl, ?_⟩
      intro hnone
      refine hself (fun other hmem => hnone other ?_)
      rw [List.mem_singleton] at hmem
      simp [hmem]

lemma mem_decodeNotes {itemIdx : ℕ} {items : List SourceItem} {i : ℕ} {item : SourceItem} {e : CoreError} :
    (i, item, e) ∈ decodeNotes itemIdx items ↔
      ∃ n message, i = itemIdx + n ∧ items[n]? = some item ∧ item.decodeError = some message ∧
        e = .decode message := by
  induction items generalizing itemIdx with
  | nil => simp [decodeNotes]
  | cons first rest ih =>
    rw [decodeNotes, List.mem_append, ih]
    constructor
    · rintro (h | ⟨n, message, rfl, hget, hmessage, he⟩)
      · obtain ⟨message, hmem, heq⟩ := List.mem_map.mp h
        simp only [Prod.mk.injEq] at heq
        obtain ⟨rfl, rfl, rfl⟩ := heq
        exact ⟨0, message, rfl, rfl, by simpa using hmem, rfl⟩
      · exact ⟨n + 1, message, by omega, by simpa using hget, hmessage, he⟩
    · rintro ⟨n, message, rfl, hget, hmessage, rfl⟩
      cases n with
      | zero =>
        have hfirst : first = item := by simpa using hget
        subst hfirst
        exact .inl (List.mem_map.mpr ⟨message, by simpa using hmessage, rfl⟩)
      | succ n => exact .inr ⟨n, message, by omega, by simpa using hget, hmessage, rfl⟩

lemma queuedFrom_itemIdx {itemIdx : ℕ} {items : List SourceItem} {w : Work}
    (h : w ∈ queuedFrom settings itemIdx items) :
    ∃ i item, w.itemIdx = itemIdx + i ∧ items[i]? = some item ∧ item.decodeError = none ∧
      w.object ∈ item.objects ∧ settings.keyFilter.allows w.object.key = true ∧
      w.dest = destOf settings w.object := by
  induction items generalizing itemIdx with
  | nil => simp [queuedFrom] at h
  | cons item rest ih =>
    rcases List.mem_append.mp h with h | h
    · unfold queuedOf at h
      split_ifs at h with hdecode
      · simp at h
      · obtain ⟨object, hobject, rfl⟩ := List.mem_map.mp h
        obtain ⟨hmem, hallows⟩ := List.mem_filter.mp hobject
        exact ⟨0, item, rfl, rfl, by simpa using hdecode, hmem, hallows, rfl⟩
    · obtain ⟨i, item', hidx, hget, hrest⟩ := ih h
      exact ⟨i + 1, item', by omega, by simpa using hget, hrest⟩

end Queue

section Notes
variable (settings : Settings) (items : List SourceItem)

/-- The failure of a queued object, as the ledger notes it. -/
def noteOf (w : Work) (outcome : Except CoreError Unit) : List (ℕ × SourceItem × CoreError) :=
  match outcome, items[w.itemIdx]? with
  | .error e, some item => [(w.itemIdx, item, e)]
  | _, _ => []

/-- What pass 3 publishes about a result. -/
def failedMetrics (outcome : Except CoreError Unit) : Metrics :=
  match outcome with
  | .ok () => 0
  | .error _ => Metrics.addObjectsFailed 1

/-- One round of pass 3 at the place of `w` in the queue. -/
lemma adjudicate_at {before after : List Work} {w : Work} (hidx : w.itemIdx < items.length)
    (ledger : Ledger) (outcome : Except CoreError Unit) :
    adjudicate settings items (before ++ w :: after) ⟨ledger, before.length⟩ outcome =
      (⟨ledger.noteAll settings (noteOf items w outcome), before.length + 1⟩, failedMetrics outcome) := by
  obtain ⟨item, hitem⟩ : ∃ item, items[w.itemIdx]? = some item := ⟨_, List.getElem?_eq_getElem hidx⟩
  cases outcome with
  | ok u => simp [adjudicate, noteOf, failedMetrics, Ledger.noteAll]
  | error e => simp [adjudicate, noteOf, failedMetrics, hitem, Ledger.noteAll]

variable (run : Work × ℕ → ObjectM Unit)

/-- Pass 3 over the rest of the queue notes the failures of its objects in their order. -/
lemma sequential_adjudicate (before rest : List Work) (hidx : ∀ w ∈ rest, w.itemIdx < items.length)
    (ledger : Ledger) :
    Executor.sequential run (adjudicate settings items (before ++ rest)) ⟨ledger, before.length⟩
        (rest.zipIdx before.length) =
      (⟨ledger.noteAll settings
          ((rest.zipIdx before.length).flatMap (fun t => noteOf items t.1 (run t).result)),
          before.length + rest.length⟩,
        (rest.zipIdx before.length).flatMap (fun t => (run t).calls),
        ((rest.zipIdx before.length).map (fun t => (run t).metrics + failedMetrics (run t).result)).sum) := by
  induction rest generalizing before ledger with
  | nil => simp [Executor.sequential, Ledger.noteAll]
  | cons w rest ih =>
    have hw := hidx w (by simp)
    have hnext := ih (before ++ [w]) (fun w' hmem => hidx w' (List.mem_cons_of_mem _ hmem))
      (ledger.noteAll settings (noteOf items w (run (w, before.length)).result))
    simp only [List.append_assoc, List.singleton_append, List.length_append, List.length_singleton] at hnext
    simp only [List.zipIdx_cons, Executor.sequential, adjudicate_at settings items hw, hnext,
      List.flatMap_cons, List.map_cons, List.sum_cons, Ledger.noteAll_append, List.length_cons]
    simp only [Prod.mk.injEq, Adjudicator.mk.injEq, true_and, and_true]
    omega

end Notes

section Failures

/-- The slot holds the first of the failures with the least item. -/
lemma foldl_noteHardError (l : List (ℕ × ℕ × CoreError)) :
    l.foldl (fun slot t => noteHardError slot t.1 t.2.2) none = none ∧ l = [] ∨
    ∃ a i k e b, l.foldl (fun slot t => noteHardError slot t.1 t.2.2) none = some (i, e) ∧
      l = a ++ (i, k, e) :: b ∧ (∀ t ∈ a, i < t.1) ∧ ∀ t ∈ b, i ≤ t.1 := by
  induction l using List.reverseRecOn with
  | nil => exact .inl ⟨rfl, rfl⟩
  | append_singleton l t ih =>
    right
    rw [List.foldl_append]
    rcases ih with ⟨hnone, rfl⟩ | ⟨a, i, k, e, b, hsome, rfl, ha, hb⟩
    · exact ⟨[], t.1, t.2.1, t.2.2, [], by simp [noteHardError], by simp, by simp, by simp⟩
    · rw [hsome]
      by_cases hlt : t.1 < i
      · refine ⟨a ++ (i, k, e) :: b, t.1, t.2.1, t.2.2, [], by simp [noteHardError, hlt], by simp, ?_, by simp⟩
        intro u hu
        rcases List.mem_append.mp hu with hu | hu
        · exact hlt.trans (ha u hu)
        · rcases List.mem_cons.mp hu with rfl | hu
          · exact hlt
          · exact lt_of_lt_of_le hlt (hb u hu)
      · refine ⟨a, i, k, e, b ++ [t], by simp [noteHardError, hlt], by simp, ha, ?_⟩
        intro u hu
        rcases List.mem_append.mp hu with hu | hu
        · exact hb u hu
        · rw [List.mem_singleton] at hu
          rw [hu]
          exact not_lt.mp hlt

/-- With failures in the order of their ranks, the slot holds the one with the least item and
rank. -/
lemma foldl_noteHardError_least {l : List (ℕ × ℕ × CoreError)}
    (hsorted : l.Pairwise (fun s t => s.2.1 ≤ t.2.1)) {i : ℕ} {e : CoreError}
    (h : l.foldl (fun slot t => noteHardError slot t.1 t.2.2) none = some (i, e)) :
    ∃ k, (i, k, e) ∈ l ∧ ∀ t ∈ l, toLex (i, k) ≤ toLex (t.1, t.2.1) := by
  rcases foldl_noteHardError l with ⟨hnone, -⟩ | ⟨a, i', k, e', b, hsome, rfl, ha, hb⟩
  · simp [h] at hnone
  · rw [h] at hsome
    simp only [Option.some.injEq, Prod.mk.injEq] at hsome
    obtain ⟨rfl, rfl⟩ := hsome
    refine ⟨k, by simp, ?_⟩
    intro t ht
    rw [Prod.Lex.toLex_le_toLex]
    rcases List.mem_append.mp ht with ht | ht
    · exact .inl (ha t ht)
    · rcases List.mem_cons.mp ht with rfl | ht
      · exact .inr ⟨rfl, le_rfl⟩
      · rcases lt_or_eq_of_le (hb t ht) with hlt | heq
        · exact .inl hlt
        · refine .inr ⟨heq, ?_⟩
          rw [List.pairwise_append] at hsorted
          exact (List.pairwise_cons.mp hsorted.2.1).1 t ht

variable (settings : Settings)

/-- A failure that is not isolated is held. -/
lemma noteAll_hardError (ledger : Ledger) (notes : List (ℕ × SourceItem × CoreError)) :
    (ledger.noteAll settings notes).hardError =
      (notes.filter (fun note => !isolated settings note.2.1)).foldl
        (fun slot note => noteHardError slot note.1 note.2.2) ledger.hardError := by
  induction notes generalizing ledger with
  | nil => rfl
  | cons note notes ih =>
    rw [Ledger.noteAll, List.foldl_cons, ← Ledger.noteAll, ih]
    cases hiso : isolated settings note.2.1 <;> simp [Ledger.note, hiso]

/-- A failure that is isolated marks its message. -/
lemma noteAll_itemFailed (ledger : Ledger) (notes : List (ℕ × SourceItem × CoreError)) (i : ℕ) :
    (ledger.noteAll settings notes).itemFailed[i]? =
      (ledger.itemFailed[i]?).map
        (fun failed => failed || notes.any (fun note => note.1 == i && isolated settings note.2.1)) := by
  induction notes generalizing ledger with
  | nil => simp [Ledger.noteAll]
  | cons note notes ih =>
    rw [Ledger.noteAll, List.foldl_cons, ← Ledger.noteAll, ih]
    cases hiso : isolated settings note.2.1 with
    | false => simp [Ledger.note, hiso]
    | true =>
      simp only [Ledger.note, hiso, if_true, List.getElem?_set, List.any_cons, Bool.and_true]
      by_cases heq : note.1 = i
      · subst heq
        by_cases hlt : note.1 < ledger.itemFailed.length
        · simp [hlt]
        · simp [hlt]
      · have hne : (note.1 == i) = false := by simpa using heq
        simp [heq, hne]

/-- The messages of the items whose failures were isolated, in the order of the items. -/
lemma settle_noteAll (items : List SourceItem) (notes : List (ℕ × SourceItem × CoreError))
    (hnone : (Ledger.noteAll settings ⟨List.replicate items.length false, none⟩ notes).hardError = none) :
    settle items (Ledger.noteAll settings ⟨List.replicate items.length false, none⟩ notes) =
      .ok ⟨(items.zipIdx.filter (fun p =>
        notes.any (fun note => note.1 == p.2 && isolated settings note.2.1))).filterMap (fun p => p.1.ackId)⟩ := by
  have hflags : (Ledger.noteAll settings ⟨List.replicate items.length false, none⟩ notes).itemFailed =
      (List.range items.length).map
        (fun i => notes.any (fun note => note.1 == i && isolated settings note.2.1)) := by
    apply List.ext_getElem?
    intro i
    rw [noteAll_itemFailed]
    by_cases hlt : i < items.length
    · simp [hlt]
    · simp [hlt]
  have hzip : items.zip ((List.range items.length).map
      (fun i => notes.any (fun note => note.1 == i && isolated settings note.2.1))) =
      items.zipIdx.map (Prod.map id
        (fun i => notes.any (fun note => note.1 == i && isolated settings note.2.1))) := by
    rw [List.zip_map_right, List.zipIdx_eq_zip_range', List.range_eq_range']
  unfold settle
  rw [hnone, hflags, hzip, List.filter_map, List.filterMap_map]
  rfl

end Failures

end CloudTrailFilter.Pipeline
