import Mathlib.Data.List.TakeWhile
import CloudTrailFilter.Lib.Fallible
import CloudTrailFilter.Lib.Split
import CloudTrailFilter.Filter.Path

/-!
# The grammar of field paths

The field paths of a rule as a grammar with the segments each form stands for, and `parsePath` as
its recognizer: it accepts what the grammar derives, with the derived segments, and it undoes the
canonical rendering of a path.
-/

namespace CloudTrailFilter.Filter
open Fallible

section Grammar

/-- Decimal digits with a value in range. -/
structure Decimal (digits : List Char) (n : ℕ) : Prop where
  nonempty : digits ≠ []
  digit : ∀ c ∈ digits, c.isDigit = true
  value : digitsValue digits = n
  range : n ≤ usizeMax

/-- The text between two brackets and the segment it stands for. -/
inductive SubscriptText : List Char → Segment → Prop
  | wildcard : SubscriptText ['*'] .wildcard
  | index (digits : List Char) (n : ℕ) : Decimal digits n → SubscriptText digits (.index n)
  | signed (digits : List Char) (n : ℕ) : Decimal digits n → SubscriptText ('+' :: digits) (.index n)

inductive Subscripts : List Char → List Segment → Prop
  | nil : Subscripts [] []
  | cons (inner tail : List Char) (segment : Segment) (segments : List Segment) :
      SubscriptText inner segment → Subscripts tail segments →
      Subscripts ('[' :: (inner ++ ']' :: tail)) (segment :: segments)

/-- What a key may be so that its text is read back as that key. -/
structure PlainName (name : List Char) : Prop where
  nonempty : name ≠ []
  noDot : '.' ∉ name
  noBracket : '[' ∉ name

inductive Part : List Char → List Segment → Prop
  | mk (name tail : List Char) (segments : List Segment) : PlainName name → Subscripts tail segments →
      Part (name ++ tail) (.key (String.ofList name) :: segments)

inductive FieldPath : List Char → List Segment → Prop
  | one (text : List Char) (segments : List Segment) : Part text segments → FieldPath text segments
  | dot (text rest : List Char) (segments more : List Segment) : Part text segments →
      FieldPath rest more → FieldPath (text ++ '.' :: rest) (segments ++ more)

end Grammar

section Subscript

lemma Decimal.noBracket {digits : List Char} {n : ℕ} (h : Decimal digits n) {c : Char} (hc : c.isDigit = false) :
    c ∉ digits := by
  intro hmem
  rw [h.digit c hmem] at hc
  cases hc

/-- A digit or a sign is no delimiter of the grammar. -/
lemma SubscriptText.notMem {inner : List Char} {segment : Segment} (h : SubscriptText inner segment)
    {c : Char} (hdigit : c.isDigit = false) (hstar : c ≠ '*') (hplus : c ≠ '+') : c ∉ inner := by
  cases h with
  | wildcard => simpa using hstar
  | index _ n h => exact h.noBracket hdigit
  | signed digits n h => simpa [hplus] using h.noBracket hdigit

lemma parseUsize_iff (text : List Char) (n : ℕ) :
    parseUsize text = some n ↔ Decimal text n ∨ ∃ digits, text = '+' :: digits ∧ Decimal digits n := by
  have hdecimal (digits : List Char) :
      (if digits ≠ [] ∧ digits.all Char.isDigit ∧ digitsValue digits ≤ usizeMax then
        some (digitsValue digits) else none) = some n ↔ Decimal digits n := by
    constructor
    · intro h
      split_ifs at h with hok
      obtain ⟨hne, hall, hrange⟩ := hok
      have hvalue : digitsValue digits = n := Option.some.inj h
      exact ⟨hne, List.all_eq_true.mp hall, hvalue, by omega⟩
    · intro h
      have hrange : digitsValue digits ≤ usizeMax := by
        rw [h.value]
        exact h.range
      rw [if_pos ⟨h.nonempty, List.all_eq_true.mpr h.digit, hrange⟩, h.value]
  by_cases hsign : ∃ digits, text = '+' :: digits
  · obtain ⟨digits, rfl⟩ := hsign
    have hplus : ¬ Decimal ('+' :: digits) n := fun h => h.noBracket (c := '+') (by decide) (by simp)
    simpa [parseUsize, hplus] using hdecimal digits
  · have hparse : parseUsize text = some n ↔ Decimal text n := by
      rw [← hdecimal]
      unfold parseUsize
      dsimp only
      split
      · rename_i rest
        exact (hsign ⟨rest, rfl⟩).elim
      · rfl
    rw [hparse]
    constructor
    · exact .inl
    · rintro (h | ⟨digits, rfl, -⟩)
      · exact h
      · exact (hsign ⟨digits, rfl⟩).elim

/-- The branch of the loop on one subscript. -/
def readSubscript (s : String) (inner : List Char) : Except PathParseError Segment :=
  if inner = ['*'] then .ok .wildcard
  else
    match parseUsize inner with
    | some i => .ok (.index i)
    | none => .error (.invalidSubscript (String.ofList inner) s)

lemma readSubscript_iff (s : String) (inner : List Char) (segment : Segment) :
    readSubscript s inner = .ok segment ↔ SubscriptText inner segment := by
  unfold readSubscript
  constructor
  · intro h
    split_ifs at h with hstar
    · cases h
      rw [hstar]
      exact .wildcard
    · cases hparse : parseUsize inner with
      | none => simp [hparse] at h
      | some n =>
        rw [hparse] at h
        cases h
        rcases (parseUsize_iff inner n).mp hparse with hd | ⟨digits, rfl, hd⟩
        · exact .index inner n hd
        · exact .signed digits n hd
  · intro h
    cases h with
    | wildcard => rfl
    | index _ n hd =>
      have hstar : inner ≠ ['*'] := by
        rintro rfl
        exact hd.noBracket (c := '*') (by decide) (by simp)
      rw [if_neg hstar, (parseUsize_iff inner n).mpr (.inl hd)]
    | signed digits n hd =>
      rw [if_neg (by simp), (parseUsize_iff _ n).mpr (.inr ⟨digits, rfl, hd⟩)]

end Subscript

section Parse

lemma Subscripts.notMem {text : List Char} {segments : List Segment} (h : Subscripts text segments) :
    '.' ∉ text := by
  induction h with
  | nil => simp
  | cons inner tail segment segments hinner _ ih =>
    have hdot : '.' ∉ inner := hinner.notMem (by decide) (by decide) (by decide)
    simp [hdot, ih]

lemma Part.notMem {text : List Char} {segments : List Segment} (h : Part text segments) : '.' ∉ text := by
  cases h with
  | mk name tail segments hname htail => simp [hname.noDot, htail.notMem]

/-- A name ends at the first bracket. -/
lemma span_append {c : Char} {name tail : List Char} (hname : c ∉ name) (htail : ∀ d, tail.head? = some d → d = c) :
    (name ++ tail).span (· ≠ c) = (name, tail) := by
  rw [List.span_eq_takeWhile_dropWhile]
  have hall : ∀ d ∈ name, decide (d ≠ c) = true := fun d hd => by
    simpa using fun heq : d = c => hname (heq ▸ hd)
  cases tail with
  | nil => rw [List.append_nil, List.takeWhile_eq_self_iff.mpr hall, List.dropWhile_eq_nil_iff.mpr hall]
  | cons d tail =>
    have hd : d = c := htail d rfl
    rw [List.takeWhile_append_of_pos hall, List.dropWhile_append_of_pos hall]
    simp [hd]

/-- One round of the loop. -/
lemma parseSubscripts_cons (s : String) (fuel : ℕ) {inner : List Char} (hinner : ']' ∉ inner) (tail : List Char) :
    parseSubscripts s (fuel + 1) ('[' :: (inner ++ ']' :: tail)) =
      readSubscript s inner >>= fun segment =>
        parseSubscripts s fuel tail >>= fun segments => .ok (segment :: segments) := by
  have hspan : (inner ++ ']' :: tail).span (· ≠ ']') = (inner, ']' :: tail) := span_append hinner (by simp)
  unfold readSubscript
  simp only [parseSubscripts, hspan]
  by_cases hstar : inner = ['*']
  · simp [hstar]
  · cases parseUsize inner <;> simp [hstar]

lemma parseSubscripts_unclosed (s : String) (fuel : ℕ) {rest : List Char} (h : ']' ∉ rest) :
    parseSubscripts s (fuel + 1) ('[' :: rest) = .error (.unclosed s) := by
  have hspan : (rest ++ []).span (· ≠ ']') = (rest, []) := span_append h (by simp)
  rw [List.append_nil] at hspan
  simp only [parseSubscripts, hspan]
  rfl

lemma parseSubscripts_complete (s : String) {text : List Char} {segments : List Segment}
    (h : Subscripts text segments) {fuel : ℕ} (hfuel : text.length ≤ fuel) :
    parseSubscripts s fuel text = .ok segments := by
  induction h generalizing fuel with
  | nil => simp [parseSubscripts]
  | cons inner tail segment segments hinner _ ih =>
    simp only [List.length_cons, List.length_append] at hfuel
    obtain ⟨fuel, rfl⟩ : ∃ k, fuel = k + 1 := ⟨fuel - 1, by omega⟩
    have hclose : ']' ∉ inner := hinner.notMem (by decide) (by decide) (by decide)
    have hsegment := (readSubscript_iff s inner segment).mpr hinner
    have htail : parseSubscripts s fuel tail = .ok segments := ih (by omega)
    rw [parseSubscripts_cons s fuel hclose, hsegment, ok_bind, htail, ok_bind]

lemma parseSubscripts_sound (s : String) {fuel : ℕ} {text : List Char} {segments : List Segment}
    (h : parseSubscripts s fuel text = .ok segments) : Subscripts text segments := by
  induction fuel generalizing text segments with
  | zero =>
    cases text with
    | nil =>
      simp only [parseSubscripts, Except.ok.injEq] at h
      rw [← h]
      exact .nil
    | cons c rest => simp [parseSubscripts] at h
  | succ fuel ih =>
    cases text with
    | nil =>
      simp only [parseSubscripts, Except.ok.injEq] at h
      rw [← h]
      exact .nil
    | cons c rest =>
      by_cases hc : c = '['
      · subst hc
        by_cases hclose : ']' ∈ rest
        · obtain ⟨inner, tail, rfl, hinner⟩ := List.eq_append_cons_of_mem hclose
          rw [parseSubscripts_cons s fuel hinner] at h
          obtain ⟨segment, hsegment, h⟩ := bind_ok_iff.mp h
          obtain ⟨more, hmore, h⟩ := bind_ok_iff.mp h
          cases h
          exact .cons inner tail segment more ((readSubscript_iff s inner segment).mp hsegment) (ih hmore)
        · rw [parseSubscripts_unclosed s fuel hclose] at h
          cases h
      · simp [parseSubscripts, hc] at h

/-- A part is a name and what follows it from the first bracket on. -/
lemma parsePart_iff (s : String) {text : List Char} (hdot : '.' ∉ text) (segments : List Segment) :
    parsePart s text = .ok segments ↔ Part text segments := by
  constructor
  · intro h
    unfold parsePart at h
    cases hspan : text.span (· ≠ '[') with
    | mk name tail =>
      have hpair := hspan
      rw [List.span_eq_takeWhile_dropWhile, Prod.mk.injEq] at hpair
      have hsplit : text = name ++ tail := by
        rw [← hpair.1, ← hpair.2, List.takeWhile_append_dropWhile]
      have hbracket : '[' ∉ name := by
        intro hmem
        rw [← hpair.1] at hmem
        simpa using List.mem_takeWhile_imp hmem
      rw [hspan] at h
      dsimp only at h
      split_ifs at h with hname
      obtain ⟨more, hmore, h⟩ := bind_ok_iff.mp h
      cases h
      rw [hsplit] at hdot ⊢
      have hnoDot : '.' ∉ name := fun hmem => hdot (List.mem_append_left tail hmem)
      exact .mk name tail more ⟨hname, hnoDot, hbracket⟩ (parseSubscripts_sound s hmore)
  · intro h
    cases h with
    | mk name tail more hname htail =>
      have hhead : ∀ d, tail.head? = some d → d = '[' := by
        intro d hd
        cases htail with
        | nil => simp at hd
        | cons inner tail segment segments _ _ => simpa using hd.symm
      have hspan : (name ++ tail).span (· ≠ '[') = (name, tail) := span_append hname.noBracket hhead
      simp only [parsePart, hspan, if_neg hname.nonempty]
      rw [parseSubscripts_complete s htail le_rfl, ok_bind]

/-- What the split yields, read part by part. -/
lemma fieldPath_of_parts (s : String) {parts : List (List Char)} {read : List (List Segment)} (hne : parts ≠ [])
    (hdots : ∀ part ∈ parts, '.' ∉ part) (h : parts.mapM (parsePart s) = .ok read) :
    FieldPath (['.'].intercalate parts) read.flatten := by
  have hall := mapM_ok_iff.mp h
  induction hall with
  | nil => exact (hne rfl).elim
  | @cons part segments parts read hpart hrest ih =>
    have hfirst := (parsePart_iff s (hdots part List.mem_cons_self) segments).mp hpart
    cases hrest with
    | nil => simpa [List.intercalate] using FieldPath.one part segments hfirst
    | cons hnext hmore =>
      have hrec := ih (by simp) (fun p hp => hdots p (List.mem_cons_of_mem _ hp)) (mapM_ok_iff.mpr (.cons hnext hmore))
      simpa [List.intercalate] using FieldPath.dot part _ segments _ hfirst hrec

lemma parts_of_fieldPath (s : String) {text : List Char} {segments : List Segment} (h : FieldPath text segments) :
    ∃ read, (text.splitOn '.').mapM (parsePart s) = .ok read ∧ read.flatten = segments := by
  induction h with
  | one text segments hpart =>
    have hread := (parsePart_iff s hpart.notMem segments).mpr hpart
    refine ⟨[segments], ?_, by simp⟩
    rw [List.splitOn_eq_singleton hpart.notMem, List.mapM_cons, hread]
    rfl
  | dot text rest segments more hpart _ ih =>
    have hread := (parsePart_iff s hpart.notMem segments).mpr hpart
    obtain ⟨read, hmore, rfl⟩ := ih
    refine ⟨segments :: read, ?_, by simp⟩
    rw [List.splitOn_append_cons_self_of_not_mem hpart.notMem, List.mapM_cons, hread, ok_bind, hmore]
    rfl

lemma FieldPath.text_ne {text : List Char} {segments : List Segment} (h : FieldPath text segments) : text ≠ [] := by
  cases h with
  | one _ _ hpart =>
    cases hpart with
    | mk name tail more hname _ => simp [hname.nonempty]
  | dot text rest segments more _ _ => simp

/-- The parser is a recognizer of the grammar. -/
lemma parsePath_iff (s : String) (path : Path) : parsePath s = .ok path ↔ FieldPath s.toList path.segments := by
  unfold parsePath
  constructor
  · intro h
    split_ifs at h with hempty
    obtain ⟨read, hread, h⟩ := bind_ok_iff.mp h
    cases h
    have hpath := fieldPath_of_parts s (List.splitOn_ne_nil '.' s.toList) (fun _ => Split.notMem_of_mem_splitOn) hread
    rwa [List.intercalate_splitOn] at hpath
  · intro h
    obtain ⟨read, hread, hsegments⟩ := parts_of_fieldPath s h
    rw [if_neg h.text_ne, hread, ok_bind, hsegments]

end Parse

section Render

/-- The text of a segment behind a name. An index is written in decimal. -/
def renderSegment : Segment → List Char
  | .key name => '.' :: name.toList
  | .index i => '[' :: (Nat.toDigits 10 i ++ [']'])
  | .wildcard => ['[', '*', ']']

/-- The canonical text of a path that starts with a key. -/
def Path.render (path : Path) : String :=
  match path.segments with
  | .key name :: rest => String.ofList (name.toList ++ (rest.map renderSegment).flatten)
  | segments => String.ofList (segments.map renderSegment).flatten

/-- A path that has a text: it starts with a key, its keys are plain names and its indices fit
the machine. -/
structure Path.Renderable (path : Path) : Prop where
  head : ∃ name rest, path.segments = .key name :: rest
  key_plain : ∀ name, .key name ∈ path.segments → PlainName name.toList
  index_range : ∀ i, .index i ∈ path.segments → i ≤ usizeMax

lemma decimal_toDigits {n : ℕ} (h : n ≤ usizeMax) : Decimal (Nat.toDigits 10 n) n where
  nonempty := Nat.toDigits_ne_nil
  digit c hc := Nat.isDigit_of_mem_toDigits (by decide) (by decide) hc
  value := Nat.ofDigitChars_ten_toDigits
  range := h

lemma Subscripts.append {text text' : List Char} {segments segments' : List Segment}
    (h : Subscripts text segments) (h' : Subscripts text' segments') :
    Subscripts (text ++ text') (segments ++ segments') := by
  induction h with
  | nil => exact h'
  | cons inner tail segment segments hinner _ ih =>
    simpa using Subscripts.cons inner (tail ++ text') segment (segments ++ segments') hinner ih

/-- A part may go on with one more subscript. -/
lemma Part.snoc {text inner : List Char} {segments : List Segment} {segment : Segment} (h : Part text segments)
    (hinner : SubscriptText inner segment) : Part (text ++ '[' :: (inner ++ [']'])) (segments ++ [segment]) := by
  cases h with
  | mk name tail more hname htail =>
    have hmore := htail.append (.cons inner [] segment [] hinner .nil)
    simpa using Part.mk name _ _ hname hmore

lemma part_of_plain {name : String} (h : PlainName name.toList) : Part name.toList [.key name] := by
  simpa using Part.mk name.toList [] [] h .nil

/-- The rendering of the segments that follow a part. -/
lemma fieldPath_render {rest : List Segment} (hkeys : ∀ name, .key name ∈ rest → PlainName name.toList)
    (hrange : ∀ i, .index i ∈ rest → i ≤ usizeMax) {text : List Char} {segments : List Segment}
    (hpart : Part text segments) : FieldPath (text ++ (rest.map renderSegment).flatten) (segments ++ rest) := by
  induction rest generalizing text segments with
  | nil => simpa using FieldPath.one text segments hpart
  | cons segment rest ih =>
    have hrec {t : List Char} {p : List Segment} :=
      @ih (fun name h => hkeys name (List.mem_cons_of_mem _ h)) (fun i h => hrange i (List.mem_cons_of_mem _ h)) t p
    cases segment with
    | key name =>
      have hnext := hrec (part_of_plain (hkeys name List.mem_cons_self))
      simpa [renderSegment] using FieldPath.dot text _ segments _ hpart hnext
    | index i =>
      have hindex := decimal_toDigits (hrange i List.mem_cons_self)
      simpa [renderSegment] using hrec (hpart.snoc (.index _ i hindex))
    | wildcard => simpa [renderSegment] using hrec (hpart.snoc .wildcard)

lemma parsePath_render {path : Path} (h : path.Renderable) : parsePath path.render = .ok path := by
  rw [parsePath_iff]
  obtain ⟨segments⟩ := path
  obtain ⟨name, rest, rfl⟩ : ∃ name rest, segments = .key name :: rest := h.head
  have hname := part_of_plain (h.key_plain name List.mem_cons_self)
  have hrest := fieldPath_render (fun n hn => h.key_plain n (List.mem_cons_of_mem _ hn))
    (fun i hi => h.index_range i (List.mem_cons_of_mem _ hi)) hname
  simpa [Path.render] using hrest

lemma SubscriptText.index_range {inner : List Char} {i : ℕ} (h : SubscriptText inner (.index i)) : i ≤ usizeMax := by
  cases h with
  | index _ _ h => exact h.range
  | signed _ _ h => exact h.range

lemma Subscripts.segments_ok {text : List Char} {segments : List Segment} (h : Subscripts text segments) :
    (∀ name, .key name ∉ segments) ∧ ∀ i, .index i ∈ segments → i ≤ usizeMax := by
  induction h with
  | nil => simp
  | cons inner tail segment segments hinner _ ih =>
    refine ⟨fun name hmem => ?_, fun i hmem => ?_⟩
    · rcases List.mem_cons.mp hmem with rfl | hmem
      · cases hinner
      · exact ih.1 name hmem
    · rcases List.mem_cons.mp hmem with rfl | hmem
      · exact hinner.index_range
      · exact ih.2 i hmem

lemma Part.renderable {text : List Char} {segments : List Segment} (h : Part text segments) :
    Path.Renderable ⟨segments⟩ := by
  cases h with
  | mk name tail more hname htail =>
    obtain ⟨hkeys, hrange⟩ := htail.segments_ok
    refine ⟨⟨_, more, rfl⟩, fun key hmem => ?_, fun i hmem => ?_⟩
    · rcases List.mem_cons.mp hmem with heq | hmem
      · cases heq
        rwa [String.toList_ofList]
      · exact (hkeys key hmem).elim
    · rcases List.mem_cons.mp hmem with heq | hmem
      · cases heq
      · exact hrange i hmem

/-- What the grammar derives has a text. -/
lemma FieldPath.renderable {text : List Char} {segments : List Segment} (h : FieldPath text segments) :
    Path.Renderable ⟨segments⟩ := by
  induction h with
  | one text segments hpart => exact hpart.renderable
  | dot text rest segments more hpart _ ih =>
    obtain ⟨⟨name, tail, hhead⟩, hkeys, hrange⟩ := hpart.renderable
    dsimp only at hhead hkeys hrange
    refine ⟨⟨name, tail ++ more, by simp [hhead]⟩, fun key hmem => ?_, fun i hmem => ?_⟩
    · exact (List.mem_append.mp hmem).elim (hkeys key) (ih.key_plain key)
    · exact (List.mem_append.mp hmem).elim (hrange i) (ih.index_range i)

end Render

/-- `parsePath` accepts its grammar and nothing else, with the segments the grammar derives. It
undoes the canonical rendering, and what it accepts can be rendered and parsed again. -/
theorem parsePath_grammar :
    (∀ s path, parsePath s = .ok path ↔ FieldPath s.toList path.segments) ∧
    (∀ path : Path, path.Renderable → parsePath path.render = .ok path) ∧
    ∀ s path, parsePath s = .ok path → parsePath path.render = .ok path := by
  refine ⟨parsePath_iff, fun path h => parsePath_render h, fun s path h => ?_⟩
  have hpath := (parsePath_iff s path).mp h
  exact parsePath_render hpath.renderable

example : parsePath "resources[+07][*].ARN]" = .ok ⟨[.key "resources", .index 7, .wildcard, .key "ARN]"]⟩ := by
  decide

end CloudTrailFilter.Filter
