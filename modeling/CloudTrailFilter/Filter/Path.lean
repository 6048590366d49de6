import CloudTrailFilter.Json.Value

/-!
# Field paths

Dot paths into a record: `resolve` reads one directly, `parsePath` and `literalPath` lower
the field of a rule into segments, and `visitValues` walks those segments. A wildcard-free
path reaches at most one scalar, so on such a path `visitValues` is determined by
`firstValue`.
-/

namespace CloudTrailFilter.Filter
open Json

/-- `str::split('.')`. -/
def splitDots (s : String) : List String :=
  (s.toList.splitOn '.').map String.ofList

/-- The scalar at a dot path of plain object keys. -/
def resolveKeys : Value → List String → Option String
  | v, [] => v.scalarText
  | .object entries, segment :: rest => (Value.get entries segment).bind (resolveKeys · rest)
  | _, _ :: _ => none

def resolve (v : Value) (path : String) : Option String :=
  resolveKeys v (splitDots path)

/-- One step of a parsed field path. -/
inductive Segment where
  | key (name : String)
  | index (i : ℕ)
  | wildcard
deriving DecidableEq, Repr

structure Path where
  segments : List Segment
deriving DecidableEq, Repr

/-- Why a field path was refused, with the texts its message quotes. -/
inductive PathParseError where
  | empty
  | emptySegment (path : String)
  | unexpectedText (rest path : String)
  | unclosed (path : String)
  | invalidSubscript (inner path : String)
deriving DecidableEq, Repr

/-- `usize` values on the 64-bit targets. -/
def usizeMax : ℕ := 2 ^ 64 - 1

def digitsValue (digits : List Char) : ℕ :=
  digits.foldl (fun n c => 10 * n + (c.toNat - '0'.toNat)) 0

/-- `str::parse::<usize>`: an optional `+`, then at least one decimal digit, in range. -/
def parseUsize (s : List Char) : Option ℕ :=
  let digits := match s with
    | '+' :: rest => rest
    | _ => s
  if digits ≠ [] ∧ digits.all Char.isDigit ∧ digitsValue digits ≤ usizeMax then
    some (digitsValue digits)
  else none

/-- The subscripts after a name. The fuel is the length of the text: every round of the
loop consumes at least its opening bracket. -/
def parseSubscripts (s : String) : ℕ → List Char → Except PathParseError (List Segment)
  | _, [] => .ok []
  | 0, rest => .error (.unexpectedText (String.ofList rest) s)
  | fuel + 1, c :: rest =>
    if c ≠ '[' then .error (.unexpectedText (String.ofList (c :: rest)) s)
    else
      match rest.span (· ≠ ']') with
      | (_, []) => .error (.unclosed s)
      | (inner, _ :: tail) => do
        let segment ←
          if inner = ['*'] then .ok Segment.wildcard
          else
            match parseUsize inner with
            | some i => .ok (Segment.index i)
            | none => .error (.invalidSubscript (String.ofList inner) s)
        let segments ← parseSubscripts s fuel tail
        .ok (segment :: segments)

/-- One dot-separated part: a name followed by subscripts. -/
def parsePart (s : String) (part : List Char) : Except PathParseError (List Segment) :=
  let (name, rest) := part.span (· ≠ '[')
  if name = [] then .error (.emptySegment s)
  else do
    let subscripts ← parseSubscripts s rest.length rest
    .ok (.key (String.ofList name) :: subscripts)

def parsePath (s : String) : Except PathParseError Path :=
  if s.toList = [] then .error .empty
  else do
    let parts ← (s.toList.splitOn '.').mapM (parsePart s)
    .ok ⟨parts.flatten⟩

/-- The lowering of a v1 field name: every part is a literal object key. -/
def literalPath (s : String) : Path :=
  ⟨(splitDots s).map .key⟩

section Walk
variable {σ : Type}

/-- Visits the scalars below `v` with a callback that carries a state and stops the walk by
returning `true`. -/
def walk (f : String → σ → Bool × σ) : List Segment → Value → σ → Bool × σ
  | [], v, st =>
    match v.scalarText with
    | some text => f text st
    | none => (false, st)
  | segment :: rest, v, st =>
    match segment, v with
    | .key k, .object entries =>
      match Value.get entries k with
      | some next => walk f rest next st
      | none => (false, st)
    | .index i, .array items =>
      match items[i]? with
      | some next => walk f rest next st
      | none => (false, st)
    | .wildcard, .array items =>
      items.foldl (fun r next => if r.1 then r else walk f rest next r.2) (false, st)
    | _, _ => (false, st)

def visitValues (v : Value) (path : Path) (f : String → σ → Bool × σ) (st : σ) : Bool × σ :=
  walk f path.segments v st

/-- `visitValues` with a callback that keeps no state. -/
def anyValue (v : Value) (path : Path) (p : String → Bool) : Bool :=
  (visitValues v path (fun text _ => (p text, ())) ()).1

/-- The first scalar a path yields: the callback stores what it is given and stops. -/
def firstValue (v : Value) (path : Path) : Option String :=
  (visitValues v path (fun text _ => (true, some text)) none).2

/-- The scalars a path reaches, in visiting order. -/
def reached : List Segment → Value → List String
  | [], v => v.scalarText.toList
  | .key k :: rest, .object entries => ((Value.get entries k).map (reached rest)).getD []
  | .index i :: rest, .array items => ((items[i]?).map (reached rest)).getD []
  | .wildcard :: rest, .array items => items.flatMap (reached rest)
  | _ :: _, _ => []

/-- A callback run over a list of scalars up to its first success. -/
def visitList (f : String → σ → Bool × σ) (texts : List String) (st : σ) : Bool × σ :=
  texts.foldl (fun r text => if r.1 then r else f text r.2) (false, st)

lemma foldl_of_stopped {α : Type} (g : α → σ → Bool × σ) (xs : List α) (st : σ) :
    xs.foldl (fun r x => if r.1 then r else g x r.2) (true, st) = (true, st) := by
  induction xs with
  | nil => rfl
  | cons x xs ih => simpa using ih

lemma visitList_append (f : String → σ → Bool × σ) (a b : List String) (st : σ) :
    visitList f (a ++ b) st =
      if (visitList f a st).1 then visitList f a st else visitList f b (visitList f a st).2 := by
  unfold visitList
  rw [List.foldl_append]
  generalize hr : a.foldl (fun r text => if r.1 then r else f text r.2) (false, st) = r
  obtain ⟨stop, st'⟩ := r
  cases stop with
  | true => simp [foldl_of_stopped f]
  | false => simp

/-- The walk is the callback run over the reached scalars. -/
theorem walk_eq_visitList (f : String → σ → Bool × σ) (segments : List Segment) (v : Value)
    (st : σ) : walk f segments v st = visitList f (reached segments v) st := by
  induction segments generalizing v st with
  | nil => cases h : v.scalarText <;> simp [walk, reached, visitList, h]
  | cons segment rest ih =>
    cases segment with
    | key k =>
      cases v with
      | object entries =>
        cases h : Value.get entries k <;> simp [walk, reached, h, ih, visitList]
      | _ => rfl
    | index i =>
      cases v with
      | array items =>
        cases h : items[i]? <;> simp [walk, reached, h, ih, visitList]
      | _ => rfl
    | wildcard =>
      cases v with
      | array items =>
        simp only [walk, reached]
        induction items generalizing st with
        | nil => rfl
        | cons next items ihi =>
          rw [List.flatMap_cons, visitList_append, List.foldl_cons]
          simp only [Bool.false_eq_true, if_false, ih]
          generalize visitList f (reached rest next) st = r
          obtain ⟨stop, st'⟩ := r
          cases stop with
          | false => simpa [ih] using ihi st'
          | true => simpa using foldl_of_stopped (fun next st => visitList f (reached rest next) st) items st'
      | _ => rfl

end Walk

lemma visitList_any (p : String → Bool) (texts : List String) :
    (visitList (fun text (_ : Unit) => (p text, ())) texts ()).1 = texts.any p := by
  induction texts with
  | nil => rfl
  | cons text texts ih =>
    simp only [visitList, List.foldl_cons, List.any_cons, Bool.false_eq_true, if_false] at ih ⊢
    cases h : p text with
    | true => simp [foldl_of_stopped (fun text (_ : Unit) => (p text, ()))]
    | false => simpa using ih

lemma visitList_first (texts : List String) :
    (visitList (fun text (_ : Option String) => (true, some text)) texts none).2 = texts.head? := by
  cases texts with
  | nil => rfl
  | cons text texts =>
    simp [visitList, foldl_of_stopped (fun text (_ : Option String) => (true, some text))]

theorem anyValue_eq (v : Value) (path : Path) (p : String → Bool) :
    anyValue v path p = (reached path.segments v).any p := by
  rw [anyValue, visitValues, walk_eq_visitList, visitList_any]

theorem firstValue_eq (v : Value) (path : Path) :
    firstValue v path = (reached path.segments v).head? := by
  rw [firstValue, visitValues, walk_eq_visitList, visitList_first]

/-- Whether a path has no `[*]`. -/
def Path.wildcardFree (path : Path) : Prop := .wildcard ∉ path.segments

lemma reached_length_le_one (segments : List Segment) (h : .wildcard ∉ segments) (v : Value) :
    (reached segments v).length ≤ 1 := by
  induction segments generalizing v with
  | nil => cases h : v.scalarText <;> simp [reached, h]
  | cons segment rest ih =>
    have hrest : .wildcard ∉ rest := fun hm => h (List.mem_cons_of_mem _ hm)
    cases segment with
    | key k =>
      cases v with
      | object entries => cases hk : Value.get entries k <;> simp [reached, hk, ih hrest]
      | _ => simp [reached]
    | index i =>
      cases v with
      | array items => cases hi : items[i]? <;> simp [reached, hi, ih hrest]
      | _ => simp [reached]
    | wildcard => simp at h

/-- On a wildcard-free path a predicate is asked about the first value only. -/
theorem anyValue_wildcardFree {path : Path} (h : path.wildcardFree) (v : Value)
    (p : String → Bool) : anyValue v path p = (firstValue v path).any p := by
  rw [anyValue_eq, firstValue_eq]
  have hlen := reached_length_le_one path.segments h v
  match hr : reached path.segments v with
  | [] => rfl
  | [_] => simp
  | _ :: _ :: _ => simp [hr] at hlen

lemma reached_keys (v : Value) (names : List String) :
    reached (names.map .key) v = (resolveKeys v names).toList := by
  induction names generalizing v with
  | nil => cases v <;> rfl
  | cons name names ih =>
    cases v with
    | object entries => cases h : Value.get entries name <;> simp [reached, resolveKeys, h, ih]
    | _ => rfl

/-- Walking a literal path yields what `resolve` returns. -/
theorem firstValue_literalPath (v : Value) (s : String) :
    firstValue v (literalPath s) = resolve v s := by
  rw [firstValue_eq, literalPath, reached_keys, resolve]
  cases resolveKeys v (splitDots s) <;> rfl

end CloudTrailFilter.Filter
