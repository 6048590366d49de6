import CloudTrailFilter.Process.Extract

/-!
# Two readings of the envelope

Buffer mode deserializes the text into the derived `Envelope` struct, stream mode drives the
visitors of `extract`. Both are stated here on the lexical tree of a complete text, and the
streaming visitors are shown to compute the second.
-/

namespace CloudTrailFilter.Process
open Json Fallible

/-- The elements of an array as `RawValue`s: unparsed text that has to be UTF-8. -/
def rawValues : List (Bytes × Lex) → Option (List Bytes)
  | [] => some []
  | (span, _) :: rest => if isUtf8 span then (rawValues rest).map (span :: ·) else none

/-- The derived `visit_map` of `Envelope`: a second `Records` key and a `Records` that is not
an array are errors, and so is a missing one. -/
def envelopeFields (records : Option (List Bytes)) : List (Bytes × Lex) → Option (List Bytes)
  | [] => records
  | (key, v) :: rest => do
    let key ← decodeString key
    if key = "Records" then
      match records, v with
      | none, .arr items => do
        let rs ← rawValues items
        envelopeFields (some rs) rest
      | _, _ => none
    else envelopeFields records rest

/-- `Envelope::deserialize`: a derived struct accepts a map and also the sequence of its fields. -/
def envelopeOf : Lex → Option (List Bytes)
  | .obj members => envelopeFields none members
  | .arr [(_, .arr items)] => rawValues items
  | _ => none

/-- `serde_json::from_slice::<Envelope>`. -/
def envelopeFromSlice (text : Bytes) : Option (List Bytes) :=
  (scanDocument text).toOption.bind envelopeOf

section Stream
variable (float : FloatParser)

/-- Whether all keys of an object decode. -/
def keysDecode (members : List (Bytes × Lex)) : Bool :=
  members.all (fun m => (decodeString m.1).isSome)

/-- What `recordsSeed` does with a value: the records it sends and whether it was an array. -/
def seedOf : Lex → Option (List Bytes × Bool)
  | .arr items => (rawValues items).map (·, true)
  | .obj members => if keysDecode members then some ([], false) else none
  | v => (v.decode float 1).map (fun _ => ([], false))

/-- What `visitEnvelope` does with the members of an object. -/
def membersOf (found : Bool) (recordsKeys : ℕ) : List (Bytes × Lex) → Option (List Bytes × Bool)
  | [] => some ([], found && recordsKeys == 1)
  | (key, v) :: rest => do
    let key ← decodeString key
    if key = "Records" then
      if recordsKeys = 0 then do
        let (records, found) ← seedOf float v
        let (records', found) ← membersOf found 1 rest
        some (records ++ records', found)
      else membersOf found (recordsKeys + 1) rest
    else membersOf found recordsKeys rest

/-- What `visitTop` does with a value. -/
def topOf : Lex → Option (List Bytes × Bool)
  | .obj members => membersOf float false 0 members
  | .arr _ => some ([], false)
  | v => (v.decode float 1).map (fun _ => ([], false))

end Stream

section Complete

/-- The records and the value of a computation that succeeds. -/
def Sending.outcome {α : Type} (x : Sending α) : Option (List Bytes × α) :=
  x.result.toOption.map (x.records, ·)

namespace Sending
variable {α β : Type}

@[simp] lemma outcome_quiet (r : Except Fault α) : (quiet r).outcome = r.toOption.map ([], ·) := rfl

@[simp] lemma outcome_send (record : Bytes) (x : Sending α) :
    (x.send record).outcome = x.outcome.map (fun r => (record :: r.1, r.2)) := by
  simp [outcome, send, Option.map_map, Function.comp_def]

lemma outcome_andThen (x : Sending α) (f : α → Sending β) : (x.andThen f).outcome =
    x.outcome.bind (fun r => (f r.2).outcome.map (fun s => (r.1 ++ s.1, s.2))) := by
  unfold outcome andThen
  cases x.result with
  | error e => rfl
  | ok a => simp [Option.map_map, Function.comp_def]

@[simp] lemma outcome_quiet_andThen (r : Except Fault α) (f : α → Sending β) :
    ((quiet r).andThen f).outcome = r.toOption.bind (fun a => (f a).outcome) := by
  rw [outcome_andThen, outcome_quiet]
  cases r with
  | error e => rfl
  | ok a => simp

end Sending

variable (float : FloatParser)

lemma sendItems_eof (n : ℕ) : ∀ first inp, inp.length < n → (sendItems .eof n first inp).outcome =
    (scanItems .eof first inp).toOption.bind (fun r => (rawValues r.1).map (·, r.2)) := by
  induction n with
  | zero => intro first inp h; omega
  | succ n ih =>
    intro first inp hlen
    rw [scanItems_eq, sendItems, Sending.outcome_quiet_andThen, toOption_bind]
    cases hnext : nextItem .eof closeBracket first inp with
    | error e => rfl
    | ok r =>
      obtain ⟨more, mid⟩ := r
      have hmid := (nextItem_leaves .eof hnext).1.length_le
      cases more with
      | false => rfl
      | true =>
        simp only [toOption_ok, Option.bind_some, if_true, Sending.outcome_quiet_andThen, toOption_bind]
        cases hv : scanValue .eof mid with
        | error e => rfl
        | ok v =>
          obtain ⟨v, rest⟩ := v
          have hrest := (scanValue_eats .eof hv).length_lt
          simp only [toOption_ok, Option.bind_some]
          split_ifs with hutf
          · rw [Sending.outcome_send, ih false rest (by omega)]
            cases scanItems .eof false rest with
            | error e => rfl
            | ok r =>
              simp only [toOption_ok, Option.bind_some, rawValues, hutf, if_true]
              cases rawValues r.1 <;> rfl
          · cases scanItems .eof false rest with
            | error e => rfl
            | ok r => simp [rawValues, hutf]

lemma skipEntries_eof (n : ℕ) : ∀ first inp, inp.length < n → (skipEntries .eof n first inp).toOption =
    (scanMembers .eof first inp).toOption.bind (fun r => if keysDecode r.1 then some r.2 else none) := by
  induction n with
  | zero => intro first inp h; omega
  | succ n ih =>
    intro first inp hlen
    rw [scanMembers_eq, skipEntries, toOption_bind, toOption_bind]
    cases hnext : nextItem .eof closeBrace first inp with
    | error e => rfl
    | ok r =>
      obtain ⟨more, mid⟩ := r
      have hmid := (nextItem_leaves .eof hnext).1.length_le
      cases more with
      | false => rfl
      | true =>
        simp only [toOption_ok, Option.bind_some, if_true, toOption_bind, parseKey_eof]
        cases hk : scanKey .eof mid with
        | error e => rfl
        | ok k =>
          obtain ⟨key, r1⟩ := k
          have hr1 := (scanKey_eats .eof hk).length_lt
          simp only [toOption_ok, Option.bind_some]
          cases hv : scanValue .eof r1 with
          | error e => cases decodeString key <;> simp [hv]
          | ok v =>
            obtain ⟨v, rest⟩ := v
            have hrest := (scanValue_eats .eof hv).length_lt
            cases hd : decodeString key with
            | none =>
              simp only [Option.map_none, Option.bind_none, toOption_ok, Option.bind_some]
              cases scanMembers .eof false rest <;> simp [keysDecode, hd]
            | some s =>
              simp only [Option.map_some, Option.bind_some, hv, toOption_ok, ih false rest (by omega)]
              cases scanMembers .eof false rest with
              | error e => rfl
              | ok r =>
                have hkeys : keysDecode ((key, v) :: r.1) = keysDecode r.1 := by
                  simp [keysDecode, hd]
                simp only [toOption_ok, Option.bind_some]
                rw [hkeys]

/-- The scan of a value is the scan of its head and, for a container, of what follows. -/
lemma scanValue_toOption (inp : Bytes) : (scanValue .eof inp).toOption =
    (scanHead .eof inp).toOption.bind (fun r =>
      match r.1 with
      | .scalar v => some (v, r.2)
      | .items => (scanItems .eof true r.2).toOption.map (fun s => (.arr s.1, s.2))
      | .members => (scanMembers .eof true r.2).toOption.map (fun s => (.obj s.1, s.2))) := by
  rw [scanValue_eq, toOption_bind]
  congr 1
  funext r
  obtain ⟨hd, rest⟩ := r
  cases hd with
  | scalar v => rfl
  | items =>
    simp only [toOption_bind]
    cases scanItems .eof true rest <;> rfl
  | members =>
    simp only [toOption_bind]
    cases scanMembers .eof true rest <;> rfl

lemma recordsSeed_eof (inp : Bytes) : (recordsSeed .eof float inp).outcome =
    (scanValue .eof inp).toOption.bind (fun r =>
      (seedOf float r.1).map (fun s => (s.1, s.2, r.2))) := by
  rw [recordsSeed, Sending.outcome_quiet_andThen, parseToken_eof, scanValue_toOption]
  cases hh : scanHead .eof inp with
  | error e => rfl
  | ok r =>
    obtain ⟨hd, rest⟩ := r
    cases hd with
    | scalar v =>
      obtain ⟨harr, hobj⟩ := scanHead_scalar .eof hh
      cases v with
      | arr items => exact (harr items rfl).elim
      | obj members => exact (hobj members rfl).elim
      | _ =>
        simp only [toOption_ok, Option.bind_some, Head.token, seedOf, Option.map_map, Option.bind_map,
          Function.comp_def]
        cases Lex.decode float 1 _ <;> rfl
    | items =>
      simp only [toOption_ok, Option.bind_some, Head.token, Option.map_some]
      rw [Sending.outcome_andThen, sendItems_eof _ true rest (Nat.lt_succ_self _)]
      cases scanItems .eof true rest with
      | error e => rfl
      | ok s =>
        simp only [toOption_ok, Option.bind_some, Option.map_some, seedOf]
        cases rawValues s.1 <;> simp
    | members =>
      simp only [toOption_ok, Option.bind_some, Head.token, Option.map_some]
      rw [Sending.outcome_quiet, toOption_bind, skipEntries_eof _ true rest (Nat.lt_succ_self _)]
      cases scanMembers .eof true rest with
      | error e => rfl
      | ok s =>
        simp only [toOption_ok, Option.bind_some, Option.map_some, seedOf]
        cases keysDecode s.1 <;> rfl

lemma visitEnvelope_eof (n : ℕ) : ∀ first found recordsKeys inp, inp.length < n →
    (visitEnvelope .eof float n first found recordsKeys inp).outcome =
      (scanMembers .eof first inp).toOption.bind (fun r =>
        (membersOf float found recordsKeys r.1).map (fun s => (s.1, s.2, r.2))) := by
  induction n with
  | zero => intro first found recordsKeys inp h; omega
  | succ n ih =>
    intro first found recordsKeys inp hlen
    rw [scanMembers_eq, visitEnvelope, Sending.outcome_quiet_andThen, toOption_bind]
    cases hnext : nextItem .eof closeBrace first inp with
    | error e => rfl
    | ok r =>
      obtain ⟨more, mid⟩ := r
      have hmid := (nextItem_leaves .eof hnext).1.length_le
      cases more with
      | false => rfl
      | true =>
        simp only [toOption_ok, Option.bind_some, if_true, Sending.outcome_quiet_andThen,
          toOption_bind, parseKey_eof]
        cases hk : scanKey .eof mid with
        | error e => rfl
        | ok k =>
          obtain ⟨key, r1⟩ := k
          have hr1 := (scanKey_eats .eof hk).length_lt
          simp only [toOption_ok, Option.bind_some]
          cases hd : decodeString key with
          | none =>
            cases scanValue .eof r1 with
            | error e => rfl
            | ok v =>
              simp only [toOption_ok, Option.bind_some, Option.map_none, Option.bind_none]
              cases scanMembers .eof false v.2 <;> simp [membersOf, hd]
          | some name =>
            simp only [Option.map_some, Option.bind_some]
            -- a value that is skipped, whatever the counters become
            have hskip : ∀ found' keys',
                ((Sending.quiet (scanValue .eof r1)).andThen
                  (fun v => visitEnvelope .eof float n false found' keys' v.2)).outcome =
                (scanValue .eof r1).toOption.bind (fun v =>
                  (scanMembers .eof false v.2).toOption.bind (fun r =>
                    (membersOf float found' keys' r.1).map (fun s => (s.1, s.2, r.2)))) := by
              intro found' keys'
              rw [Sending.outcome_quiet_andThen]
              cases hv : scanValue .eof r1 with
              | error e => rfl
              | ok v =>
                have hrest := (scanValue_eats .eof (v := v.1) (r := v.2) hv).length_lt
                simp only [toOption_ok, Option.bind_some]
                exact ih false found' keys' v.2 (by omega)
            by_cases hrec : name = "Records"
            · rw [if_pos hrec]
              by_cases hzero : recordsKeys = 0
              · rw [if_pos hzero, Sending.outcome_andThen, recordsSeed_eof]
                cases hv : scanValue .eof r1 with
                | error e => rfl
                | ok v =>
                  have hrest := (scanValue_eats .eof (v := v.1) (r := v.2) hv).length_lt
                  simp only [toOption_ok, Option.bind_some, Option.bind_map, Function.comp_def]
                  cases hs : seedOf float v.1 with
                  | none => cases scanMembers .eof false v.2 <;> simp [membersOf, hd, hrec, hzero, hs]
                  | some sd =>
                    simp only [Option.bind_some, ih false sd.2 1 v.2 (by omega)]
                    cases scanMembers .eof false v.2 with
                    | error e => rfl
                    | ok r =>
                      simp only [toOption_ok, Option.bind_some, membersOf, hd, hrec, hzero, if_true,
                        Option.bind_eq_bind, hs]
                      cases membersOf float sd.2 1 r.1 <;> rfl
              · rw [if_neg hzero, hskip]
                cases scanValue .eof r1 with
                | error e => rfl
                | ok v =>
                  simp only [toOption_ok, Option.bind_some]
                  cases scanMembers .eof false v.2 <;> simp [membersOf, hd, hrec, hzero]
            · rw [if_neg hrec, hskip]
              cases scanValue .eof r1 with
              | error e => rfl
              | ok v =>
                simp only [toOption_ok, Option.bind_some]
                cases scanMembers .eof false v.2 <;> simp [membersOf, hd, hrec]

lemma visitTop_eof (inp : Bytes) : (visitTop .eof float inp).outcome =
    (scanValue .eof inp).toOption.bind (fun r =>
      (topOf float r.1).map (fun s => (s.1, s.2, r.2))) := by
  rw [visitTop, Sending.outcome_quiet_andThen, parseToken_eof, scanValue_toOption]
  cases hh : scanHead .eof inp with
  | error e => rfl
  | ok r =>
    obtain ⟨hd, rest⟩ := r
    cases hd with
    | scalar v =>
      obtain ⟨harr, hobj⟩ := scanHead_scalar .eof hh
      cases v with
      | arr items => exact (harr items rfl).elim
      | obj members => exact (hobj members rfl).elim
      | _ =>
        simp only [toOption_ok, Option.bind_some, Head.token, topOf, Option.map_map, Option.bind_map,
          Function.comp_def]
        cases Lex.decode float 1 _ <;> rfl
    | items =>
      simp only [toOption_ok, Option.bind_some, Head.token, Option.map_some]
      rw [Sending.outcome_quiet, toOption_bind]
      cases scanItems .eof true rest <;> rfl
    | members =>
      simp only [toOption_ok, Option.bind_some, Head.token, Option.map_some]
      rw [visitEnvelope_eof float _ true false 0 rest (Nat.lt_succ_self _)]
      cases scanMembers .eof true rest <;> rfl

/-- On a complete text the streaming visitors accept exactly the trees `topOf` accepts, with
its records and its verdict. -/
theorem extract_eof (text : Bytes) :
    (extract .eof float text).outcome = (scanDocument text).toOption.bind (topOf float) := by
  rw [extract, Sending.outcome_andThen, visitTop_eof, scanDocument, toOption_bind]
  cases scanValue .eof text with
  | error e => rfl
  | ok v =>
    simp only [toOption_ok, Option.bind_some, toOption_bind, Sending.outcome_quiet]
    cases htop : topOf float v.1 with
    | none => cases scanEnd .eof v.2 <;> simp [htop]
    | some s => cases hend : scanEnd .eof v.2 <;> simp [htop, hend]

end Complete

section Compare
variable (float : FloatParser)

/-- After the first `Records` no more records are sent. -/
lemma membersOf_records {found : Bool} {recordsKeys : ℕ} (hkeys : recordsKeys ≠ 0)
    {members : List (Bytes × Lex)} {records : List Bytes} {b : Bool}
    (h : membersOf float found recordsKeys members = some (records, b)) : records = [] := by
  induction members generalizing recordsKeys with
  | nil =>
    simp only [membersOf, Option.some.injEq, Prod.mk.injEq] at h
    exact h.1.symm
  | cons m rest ih =>
    obtain ⟨key, v⟩ := m
    obtain ⟨name, -, h⟩ := Option.bind_eq_some_iff.mp h
    simp only [hkeys, if_false] at h
    split_ifs at h
    · exact ih (Nat.succ_ne_zero _) h
    · exact ih hkeys h

/-- Once a value of `Records` was not an array, or a second `Records` has been seen, the text
is no envelope any more. -/
lemma membersOf_not_found {found : Bool} {recordsKeys : ℕ}
    (hlost : (found = false ∧ recordsKeys ≠ 0) ∨ 2 ≤ recordsKeys) {members : List (Bytes × Lex)}
    {records : List Bytes} {b : Bool} (h : membersOf float found recordsKeys members = some (records, b)) :
    b = false := by
  induction members generalizing recordsKeys with
  | nil =>
    simp only [membersOf, Option.some.injEq, Prod.mk.injEq] at h
    rcases hlost with ⟨rfl, -⟩ | hkeys
    · simpa using h.2.symm
    · have hne : (recordsKeys == 1) = false := by simp; omega
      simpa [hne] using h.2.symm
  | cons m rest ih =>
    obtain ⟨key, v⟩ := m
    have hkeys : recordsKeys ≠ 0 := by
      rcases hlost with ⟨-, h⟩ | h <;> omega
    obtain ⟨name, -, h⟩ := Option.bind_eq_some_iff.mp h
    simp only [hkeys, if_false] at h
    split_ifs at h
    · refine ih (.inr (by omega)) h
    · exact ih hlost h

/-- After an array of `Records` both readings ask only that no second one follows. -/
lemma membersOf_found_iff (members : List (Bytes × Lex)) (records : List Bytes) :
    membersOf float true 1 members = some ([], true) ↔
      envelopeFields (some records) members = some records := by
  induction members with
  | nil => simp [membersOf, envelopeFields]
  | cons m rest ih =>
    obtain ⟨key, v⟩ := m
    cases hd : decodeString key with
    | none => simp [membersOf, envelopeFields, hd]
    | some name =>
      by_cases hrec : name = "Records"
      · have hlost : membersOf float true 2 rest ≠ some ([], true) := by
          intro h
          simpa using membersOf_not_found float (.inr le_rfl) h
        simp [membersOf, envelopeFields, hd, hrec, hlost]
      · simpa [membersOf, envelopeFields, hd, hrec] using ih

lemma envelopeFields_some {records records' : List Bytes} {members : List (Bytes × Lex)}
    (h : envelopeFields (some records) members = some records') : records' = records := by
  induction members with
  | nil => simpa [envelopeFields] using h.symm
  | cons m rest ih =>
    obtain ⟨key, v⟩ := m
    obtain ⟨name, -, h⟩ := Option.bind_eq_some_iff.mp h
    split_ifs at h
    exact ih h

/-- The map form of `Envelope` and the streaming visitor accept the same objects as envelopes,
with the same records. -/
theorem membersOf_iff (members : List (Bytes × Lex)) (records : List Bytes) :
    membersOf float false 0 members = some (records, true) ↔
      envelopeFields none members = some records := by
  induction members with
  | nil => simp [membersOf, envelopeFields]
  | cons m rest ih =>
    obtain ⟨key, v⟩ := m
    cases hd : decodeString key with
    | none => simp [membersOf, envelopeFields, hd]
    | some name =>
      by_cases hrec : name = "Records"
      · cases v with
        | arr items =>
          cases hraw : rawValues items with
          | none => simp [membersOf, envelopeFields, hd, hrec, seedOf, hraw]
          | some rs =>
            simp only [membersOf, envelopeFields, hd, hrec, seedOf, hraw, Option.bind_eq_bind,
              Option.bind_some, if_true, Option.map_some]
            constructor
            · intro h
              obtain ⟨⟨records', b⟩, hm, h⟩ := Option.bind_eq_some_iff.mp h
              have hnil := membersOf_records float one_ne_zero hm
              simp only [Option.some.injEq, Prod.mk.injEq] at h
              obtain ⟨rfl, rfl⟩ := h
              subst hnil
              simpa using (membersOf_found_iff float rest rs).mp hm
            · intro h
              have hrs := envelopeFields_some h
              subst hrs
              simp [(membersOf_found_iff float rest records).mpr h]
        | _ =>
          simp only [membersOf, envelopeFields, hd, hrec, Option.bind_eq_bind, Option.bind_some, if_true]
          constructor
          · intro h
            obtain ⟨⟨rs, found⟩, hs, h⟩ := Option.bind_eq_some_iff.mp h
            obtain ⟨⟨rs', b⟩, hm, h⟩ := Option.bind_eq_some_iff.mp h
            have hfound : found = false := by
              simp only [seedOf] at hs
              first
                | (obtain ⟨_, -, hs⟩ := Option.map_eq_some_iff.mp hs
                   exact (Prod.mk.inj hs).2.symm)
                | (split_ifs at hs
                   exact (Prod.mk.inj (Option.some.inj hs)).2.symm)
            have hb := membersOf_not_found float (.inl ⟨hfound, one_ne_zero⟩) hm
            simp [hb] at h
          · intro h
            simp at h
      · simpa [membersOf, envelopeFields, hd, hrec] using ih

/-- The value of the first member whose key reads `Records`. -/
def firstRecords (members : List (Bytes × Lex)) : Option Lex :=
  (members.find? (fun m => decodeString m.1 = some "Records")).map Prod.snd

/-- What `RecordsVisitor` decodes of its value. -/
def seedDecodes : Lex → Bool
  | .arr items => items.all (fun item => isUtf8 item.1)
  | .obj members => keysDecode members
  | v => (v.decode float 1).isSome

/-- What the streaming visitors decode of a document: a scalar at the top, the keys of an
object and the surface of its first `Records`. Everything else is skipped by the grammar. -/
def surfaceDecodes : Lex → Bool
  | .obj members => keysDecode members && (firstRecords members).all (seedDecodes float)
  | .arr _ => true
  | v => (v.decode float 1).isSome

lemma rawValues_isSome (items : List (Bytes × Lex)) :
    (rawValues items).isSome = items.all (fun item => isUtf8 item.1) := by
  induction items with
  | nil => rfl
  | cons item rest ih =>
    obtain ⟨span, v⟩ := item
    by_cases h : isUtf8 span = true
    · simp [rawValues, h, ← ih]
    · simp [rawValues, h]

lemma seedOf_isSome (v : Lex) : (seedOf float v).isSome = seedDecodes float v := by
  cases v with
  | arr items => simp [seedOf, seedDecodes, rawValues_isSome]
  | obj members => cases h : keysDecode members <;> simp [seedOf, seedDecodes, h]
  | _ => simp [seedOf, seedDecodes]

lemma membersOf_isSome_later (found : Bool) {recordsKeys : ℕ} (hkeys : recordsKeys ≠ 0)
    (members : List (Bytes × Lex)) :
    (membersOf float found recordsKeys members).isSome = keysDecode members := by
  induction members generalizing recordsKeys with
  | nil => rfl
  | cons m rest ih =>
    obtain ⟨key, v⟩ := m
    cases hd : decodeString key with
    | none => simp [membersOf, keysDecode, hd]
    | some name =>
      have h1 := ih hkeys
      have h2 := ih (Nat.succ_ne_zero recordsKeys)
      by_cases hrec : name = "Records"
      · simpa [membersOf, keysDecode, hd, hrec, hkeys] using h2
      · simpa [membersOf, keysDecode, hd, hrec] using h1

/-- The streaming visitors fail exactly where the surface of the document does not decode. -/
theorem topOf_isSome (v : Lex) : (topOf float v).isSome = surfaceDecodes float v := by
  cases v with
  | arr items => rfl
  | obj members =>
    simp only [topOf, surfaceDecodes]
    induction members with
    | nil => rfl
    | cons m rest ih =>
      obtain ⟨key, v⟩ := m
      cases hd : decodeString key with
      | none => simp [membersOf, keysDecode, hd]
      | some name =>
        by_cases hrec : name = "Records"
        · have hfirst : firstRecords ((key, v) :: rest) = some v := by
            simp [firstRecords, hd, hrec]
          rw [hfirst, Option.all_some, ← seedOf_isSome]
          cases hs : seedOf float v with
          | none => simp [membersOf, hd, hrec, hs]
          | some sd =>
            have hlater := membersOf_isSome_later float sd.2 one_ne_zero rest
            simp only [membersOf, hd, hrec, hs, Option.bind_eq_bind, Option.bind_some, if_true,
              Option.isSome_some, Bool.and_true]
            have hkeys : keysDecode ((key, v) :: rest) = keysDecode rest := by
              simp [keysDecode, hd]
            rw [hkeys, ← hlater]
            cases membersOf float sd.2 1 rest <;> rfl
        · have hfirst : firstRecords ((key, v) :: rest) = firstRecords rest := by
            simp [firstRecords, hd, hrec]
          have hkeys : keysDecode ((key, v) :: rest) = keysDecode rest := by
            simp [keysDecode, hd]
          rw [hfirst, hkeys, ← ih]
          simp [membersOf, hd, hrec]
  | _ => simp [topOf, surfaceDecodes]

end Compare

end CloudTrailFilter.Process
