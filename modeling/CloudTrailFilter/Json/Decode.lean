import CloudTrailFilter.Json.Value
import CloudTrailFilter.Json.Scan

/-!
# Decoding JSON text

What `deserialize_any` checks beyond the grammar: string escapes and UTF-8, number range, the
recursion limit. `Lex.decode` performs these checks on a lexical tree and delivers the tree of
tokens a visitor sees, with object members in order and repeated keys kept.
`Value.fromSlice` is the visitor of `serde_json::Value` over those tokens.
-/

namespace CloudTrailFilter.Json

section Utf8

def isContinuation (b : UInt8) : Bool := 0x80 ≤ b ∧ b ≤ 0xBF

/-- `str::from_utf8`: overlong forms, surrogates and values past `0x10FFFF` are refused. -/
def utf8Decode : Bytes → Option (List Char)
  | [] => some []
  | b0 :: rest =>
    if b0 < 0x80 then (utf8Decode rest).map (Char.ofNat b0.toNat :: ·)
    else if b0 < 0xC2 then none
    else if b0 < 0xE0 then
      match rest with
      | b1 :: rest =>
        if isContinuation b1 then
          (utf8Decode rest).map (Char.ofNat ((b0.toNat - 0xC0) * 64 + (b1.toNat - 0x80)) :: ·)
        else none
      | _ => none
    else if b0 < 0xF0 then
      match rest with
      | b1 :: b2 :: rest =>
        let n := (b0.toNat - 0xE0) * 4096 + (b1.toNat - 0x80) * 64 + (b2.toNat - 0x80)
        if isContinuation b1 ∧ isContinuation b2 ∧ 0x800 ≤ n ∧ ¬(0xD800 ≤ n ∧ n ≤ 0xDFFF) then
          (utf8Decode rest).map (Char.ofNat n :: ·)
        else none
      | _ => none
    else if b0 < 0xF5 then
      match rest with
      | b1 :: b2 :: b3 :: rest =>
        let n := (b0.toNat - 0xF0) * 262144 + (b1.toNat - 0x80) * 4096 + (b2.toNat - 0x80) * 64 +
          (b3.toNat - 0x80)
        if isContinuation b1 ∧ isContinuation b2 ∧ isContinuation b3 ∧ 0x10000 ≤ n ∧ n ≤ 0x10FFFF then
          (utf8Decode rest).map (Char.ofNat n :: ·)
        else none
      | _ => none
    else none

def isUtf8 (bytes : Bytes) : Bool := (utf8Decode bytes).isSome

end Utf8

section Strings

def hexValue (b : UInt8) : ℕ :=
  if b ≤ 0x39 then b.toNat - 0x30
  else if b ≤ 0x46 then b.toNat - 0x37
  else b.toNat - 0x57

def hex4 (h1 h2 h3 h4 : UInt8) : ℕ :=
  ((hexValue h1 * 16 + hexValue h2) * 16 + hexValue h3) * 16 + hexValue h4

/-- The byte a simple escape stands for. -/
def simpleEscape (e : UInt8) : UInt8 :=
  if e = 0x62 then 0x08
  else if e = 0x66 then 0x0C
  else if e = 0x6E then 0x0A
  else if e = 0x72 then 0x0D
  else if e = 0x74 then 0x09
  else e

def isHighSurrogate (n : ℕ) : Bool := 0xD800 ≤ n ∧ n ≤ 0xDBFF

def isLowSurrogate (n : ℕ) : Bool := 0xDC00 ≤ n ∧ n ≤ 0xDFFF

/-- The UTF-8 bytes of a code point below `0x10000`. -/
def encodeUnit (n : ℕ) : Bytes := String.utf8EncodeChar (Char.ofNat n)

/-- The UTF-8 bytes of a surrogate pair. -/
def encodePair (n m : ℕ) : Bytes :=
  String.utf8EncodeChar (Char.ofNat (0x10000 + (n - 0xD800) * 1024 + (m - 0xDC00)))

/-- Replaces the escapes of a scanned string. A surrogate that is not half of a pair is
refused. -/
def unescape : Bytes → Option Bytes
  | [] => some []
  | b :: rest =>
    if b ≠ backslash then (unescape rest).map (b :: ·)
    else
      match rest with
      | [] => none
      | e :: rest =>
        if e ≠ 0x75 then (unescape rest).map (simpleEscape e :: ·)
        else
          match rest with
          | h1 :: h2 :: h3 :: h4 :: rest =>
            if isLowSurrogate (hex4 h1 h2 h3 h4) then none
            else if isHighSurrogate (hex4 h1 h2 h3 h4) then
              match rest with
              | s :: u :: g1 :: g2 :: g3 :: g4 :: rest =>
                if s = backslash ∧ u = 0x75 ∧ isLowSurrogate (hex4 g1 g2 g3 g4) then
                  (unescape rest).map (encodePair (hex4 h1 h2 h3 h4) (hex4 g1 g2 g3 g4) ++ ·)
                else none
              | _ => none
            else (unescape rest).map (encodeUnit (hex4 h1 h2 h3 h4) ++ ·)
          | _ => none

/-- `parse_str`: the decoded contents of a string. -/
def decodeString (raw : Bytes) : Option String :=
  ((unescape raw).bind utf8Decode).map String.ofList

end Strings

section Numbers

/-- How a lexeme that is not a `u64` or `i64` reads as a double: the text `Number` prints for
it, or `none` when it is out of range. -/
abbrev FloatParser := Bytes → Option String

def bytesValue (digits : Bytes) : ℕ :=
  digits.foldl (fun n d => 10 * n + (d.toNat - 0x30)) 0

/-- `parse_any_number`. A negative zero and an integer past 64 bits become doubles. -/
def parseNumber (float : FloatParser) (lexeme : Bytes) : Option Number :=
  match lexeme with
  | [] => none
  | b :: digits =>
    if b = 0x2D then
      if digits.all isDigit ∧ bytesValue digits ≠ 0 ∧ bytesValue digits ≤ 2 ^ 63 then
        some (.i64 (-(bytesValue digits : ℤ)))
      else (float lexeme).map .f64
    else if lexeme.all isDigit ∧ bytesValue lexeme < 2 ^ 64 then some (.u64 (bytesValue lexeme))
    else (float lexeme).map .f64

end Numbers

/-- The tokens of a value as a visitor receives them. -/
inductive Tree where
  | null
  | bool (b : Bool)
  | number (n : Number)
  | string (s : String)
  | array (items : List Tree)
  | object (members : List (String × Tree))
deriving Repr

variable (float : FloatParser)

mutual

/-- `deserialize_any` on a scanned value, with `depth` levels of recursion left. -/
def Lex.decode (depth : ℕ) : Lex → Option Tree
  | .null => some .null
  | .bool b => some (.bool b)
  | .num lexeme => (parseNumber float lexeme).map .number
  | .str raw => (decodeString raw).map .string
  | .arr items => if depth ≤ 1 then none else (decodeItems (depth - 1) items).map .array
  | .obj members => if depth ≤ 1 then none else (decodeMembers (depth - 1) members).map .object

def decodeItems (depth : ℕ) : List (Bytes × Lex) → Option (List Tree)
  | [] => some []
  | (_, v) :: rest => do
    let v ← v.decode depth
    let vs ← decodeItems depth rest
    some (v :: vs)

def decodeMembers (depth : ℕ) : List (Bytes × Lex) → Option (List (String × Tree))
  | [] => some []
  | (key, v) :: rest => do
    let key ← decodeString key
    let v ← v.decode depth
    let ms ← decodeMembers depth rest
    some ((key, v) :: ms)

end

/-- `Deserializer::remaining_depth` at the start of a text. -/
def recursionLimit : ℕ := 128

/-- The key by which `RawValue` travels through a visitor. -/
def rawValueToken : String := "$serde_json::private::RawValue"

section Value

mutual

/-- The visitor of `Value`: an object whose first key is the private token is a raw value,
whose text is parsed again by `reparse`. -/
def Tree.toValue (reparse : String → Option Value) : Tree → Option Value
  | .null => some .null
  | .bool b => some (.bool b)
  | .number n => some (.number n)
  | .string s => some (.string s)
  | .array items => (itemsToValue reparse items).map .array
  | .object [] => some (.object [])
  | .object ((key, v) :: rest) =>
    if key = rawValueToken then
      match v, rest with
      | .string s, [] => reparse s
      | _, _ => none
    else do
      let v ← v.toValue reparse
      let entries ← membersToValue reparse [(key, v)] rest
      some (.object entries)

def itemsToValue (reparse : String → Option Value) : List Tree → Option (List Value)
  | [] => some []
  | v :: rest => do
    let v ← v.toValue reparse
    let vs ← itemsToValue reparse rest
    some (v :: vs)

def membersToValue (reparse : String → Option Value) (entries : List (String × Value)) :
    List (String × Tree) → Option (List (String × Value))
  | [] => some entries
  | (key, v) :: rest => do
    let v ← v.toValue reparse
    membersToValue reparse (Value.insert entries key v) rest

end

/-- The tokens of a complete text. -/
def Tree.fromSlice (text : Bytes) : Option Tree :=
  match scanDocument text with
  | .ok v => v.decode float recursionLimit
  | .error _ => none

/-- A text with at most `n` raw values inside one another. -/
def Value.fromSliceAux : ℕ → Bytes → Option Value
  | 0, _ => none
  | n + 1, text => (Tree.fromSlice float text).bind (Tree.toValue (fun s => fromSliceAux n s.toUTF8.toList))

/-- `serde_json::from_slice::<Value>`. A raw value's text is shorter than the text it stands
in, so the length of the text bounds the nesting. -/
def Value.fromSlice (text : Bytes) : Option Value := Value.fromSliceAux float (text.length + 1) text

mutual

/-- No object has the private token among its keys. -/
def Tree.tokenFree : Tree → Bool
  | .array items => itemsTokenFree items
  | .object members => membersTokenFree members
  | _ => true

def itemsTokenFree : List Tree → Bool
  | [] => true
  | v :: rest => v.tokenFree && itemsTokenFree rest

def membersTokenFree : List (String × Tree) → Bool
  | [] => true
  | (key, v) :: rest => key ≠ rawValueToken && v.tokenFree && membersTokenFree rest

end

mutual

/-- The ordinary reading of a tree, where a repeated key keeps its last value. -/
def Tree.plain : Tree → Value
  | .null => .null
  | .bool b => .bool b
  | .number n => .number n
  | .string s => .string s
  | .array items => .array (itemsPlain items)
  | .object members => .object (membersPlain [] members)

def itemsPlain : List Tree → List Value
  | [] => []
  | v :: rest => v.plain :: itemsPlain rest

def membersPlain (entries : List (String × Value)) : List (String × Tree) → List (String × Value)
  | [] => entries
  | (key, v) :: rest => membersPlain (Value.insert entries key v.plain) rest

end

mutual

/-- Without the private token the visitor of `Value` never fails and reads the tree plainly. -/
theorem Tree.toValue_eq_plain (reparse : String → Option Value) :
    ∀ t : Tree, t.tokenFree = true → t.toValue reparse = some t.plain
  | .null, _ => rfl
  | .bool _, _ => rfl
  | .number _, _ => rfl
  | .string _, _ => rfl
  | .array items, h => by
    rw [Tree.tokenFree] at h
    rw [Tree.toValue, itemsToValue_eq_plain reparse items h, Tree.plain]
    rfl
  | .object [], _ => rfl
  | .object ((key, v) :: rest), h => by
    simp only [Tree.tokenFree, membersTokenFree, Bool.and_eq_true, decide_eq_true_eq] at h
    obtain ⟨⟨hkey, hv⟩, hrest⟩ := h
    have hmembers := membersToValue_eq_plain reparse [(key, v.plain)] rest hrest
    rw [Tree.toValue.eq_def]
    simp only [if_neg hkey, Tree.toValue_eq_plain reparse v hv, Option.bind_eq_bind,
      Option.bind_some, hmembers]
    rfl

theorem itemsToValue_eq_plain (reparse : String → Option Value) :
    ∀ items : List Tree, itemsTokenFree items = true →
      itemsToValue reparse items = some (itemsPlain items)
  | [], _ => rfl
  | v :: rest, h => by
    simp only [itemsTokenFree, Bool.and_eq_true] at h
    rw [itemsToValue, Tree.toValue_eq_plain reparse v h.1, itemsToValue_eq_plain reparse rest h.2]
    rfl

theorem membersToValue_eq_plain (reparse : String → Option Value) (entries : List (String × Value)) :
    ∀ members : List (String × Tree), membersTokenFree members = true →
      membersToValue reparse entries members = some (membersPlain entries members)
  | [], _ => rfl
  | (key, v) :: rest, h => by
    simp only [membersTokenFree, Bool.and_eq_true, decide_eq_true_eq] at h
    rw [membersToValue, Tree.toValue_eq_plain reparse v h.1.2]
    exact membersToValue_eq_plain reparse _ rest h.2

end

mutual

/-- Every raw value, an object whose first key is the private token, has a string as its only
member, and `parses` accepts it. -/
def Tree.rawValuesParse (parses : String → Bool) : Tree → Bool
  | .array items => itemsRawValuesParse parses items
  | .object [] => true
  | .object ((key, v) :: rest) =>
    if key = rawValueToken then
      match v, rest with
      | .string s, [] => parses s
      | _, _ => false
    else v.rawValuesParse parses && membersRawValuesParse parses rest
  | .null | .bool _ | .number _ | .string _ => true

def itemsRawValuesParse (parses : String → Bool) : List Tree → Bool
  | [] => true
  | v :: rest => v.rawValuesParse parses && itemsRawValuesParse parses rest

def membersRawValuesParse (parses : String → Bool) : List (String × Tree) → Bool
  | [] => true
  | (_, v) :: rest => v.rawValuesParse parses && membersRawValuesParse parses rest

end

mutual

/-- The visitor of `Value` fails on raw values only. -/
theorem Tree.toValue_isSome (reparse : String → Option Value) :
    ∀ t : Tree, (t.toValue reparse).isSome = t.rawValuesParse (fun s => (reparse s).isSome)
  | .null => rfl
  | .bool _ => rfl
  | .number _ => rfl
  | .string _ => rfl
  | .array items => by
    rw [Tree.toValue, Tree.rawValuesParse, Option.isSome_map, itemsToValue_isSome reparse items]
  | .object [] => by
    rw [Tree.toValue, Tree.rawValuesParse]
    rfl
  | .object ((key, v) :: rest) => by
    rw [Tree.toValue.eq_def, Tree.rawValuesParse.eq_def]
    by_cases hkey : key = rawValueToken
    · simp only [if_pos hkey]
      split <;> rfl
    · have hv := Tree.toValue_isSome reparse v
      simp only [if_neg hkey, ← hv]
      cases v.toValue reparse with
      | none => rfl
      | some w =>
        have hmembers := membersToValue_isSome reparse [(key, w)] rest
        simp only [← hmembers, Option.bind_eq_bind, Option.bind_some]
        cases membersToValue reparse [(key, w)] rest <;> rfl

theorem itemsToValue_isSome (reparse : String → Option Value) :
    ∀ items : List Tree, (itemsToValue reparse items).isSome =
      itemsRawValuesParse (fun s => (reparse s).isSome) items
  | [] => rfl
  | v :: rest => by
    have hv := Tree.toValue_isSome reparse v
    have hrest := itemsToValue_isSome reparse rest
    rw [itemsToValue, itemsRawValuesParse, ← hv, ← hrest]
    cases v.toValue reparse <;> cases itemsToValue reparse rest <;> rfl

theorem membersToValue_isSome (reparse : String → Option Value) (entries : List (String × Value)) :
    ∀ members : List (String × Tree), (membersToValue reparse entries members).isSome =
      membersRawValuesParse (fun s => (reparse s).isSome) members
  | [] => rfl
  | (key, v) :: rest => by
    have hv := Tree.toValue_isSome reparse v
    rw [membersToValue, membersRawValuesParse, ← hv]
    cases v.toValue reparse with
    | none => rfl
    | some w => exact membersToValue_isSome reparse _ rest

end

/-- The text of a raw value parses in its turn. -/
def Value.nestedParses (text : Bytes) (s : String) : Bool :=
  (Value.fromSliceAux float text.length s.toUTF8.toList).isSome

/-- A text parses as a `Value` exactly if its tokens decode and its raw values parse. -/
theorem Value.fromSlice_eq_none_iff (text : Bytes) :
    Value.fromSlice float text = none ↔ ∀ tree, Tree.fromSlice float text = some tree →
      tree.rawValuesParse (Value.nestedParses float text) = false := by
  rw [Value.fromSlice, Value.fromSliceAux]
  cases Tree.fromSlice float text with
  | none => simp
  | some tree =>
    have htree := Tree.toValue_isSome (fun s => Value.fromSliceAux float text.length s.toUTF8.toList) tree
    simp only [Option.bind_some, Option.some.injEq, forall_eq']
    rw [← Option.isSome_eq_false_iff.trans Option.isNone_iff_eq_none, htree]
    rfl

/-- A text without the private token parses as the plain reading of its tokens. -/
theorem Value.fromSlice_eq_plain {text : Bytes} {tree : Tree} (ht : Tree.fromSlice float text = some tree)
    (hfree : tree.tokenFree = true) : Value.fromSlice float text = some tree.plain := by
  rw [Value.fromSlice, Value.fromSliceAux, ht]
  exact Tree.toValue_eq_plain _ tree hfree

/-- Whatever parses as a `Value` is a sequence of tokens that decode. -/
theorem Tree.of_fromSlice {text : Bytes} {v : Value} (h : Value.fromSlice float text = some v) :
    ∃ tree, Tree.fromSlice float text = some tree := by
  rw [Value.fromSlice, Value.fromSliceAux] at h
  obtain ⟨tree, ht, -⟩ := Option.bind_eq_some_iff.mp h
  exact ⟨tree, ht⟩

end Value

end CloudTrailFilter.Json
