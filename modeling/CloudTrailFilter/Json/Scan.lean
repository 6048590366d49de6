import Mathlib.Tactic

/-!
# Scanning JSON text

A model of the `serde_json` reader at the byte level. The scanner recognises the grammar
that all entry points of the deserializer share and returns the lexical tree of a value: string
contents with their escapes, number lexemes, the source text of each array element. What
the entry points check beyond the grammar is stated on that tree elsewhere.

The input is a list of bytes with a `Tail`: at `eof` the text ends there, at `cut` the
reader has nothing more to give, because its source failed or because the next
chunk has not arrived. A scanner that needs a byte past a cut is `starved`.
-/

namespace CloudTrailFilter.Json

abbrev Bytes := List UInt8

inductive Tail where
  | eof
  | cut
deriving DecidableEq, Repr

inductive Fault where
  | malformed
  | starved
deriving DecidableEq, Repr

/-- The fault of a reader that needs a byte where the input has ended. -/
def Tail.missing : Tail → Fault
  | .eof => .malformed
  | .cut => .starved

/-- The lexical tree of a JSON value. An array keeps the source text of each element, an
object the text between the quotes of each key. -/
inductive Lex where
  | null
  | bool (b : Bool)
  | num (lexeme : Bytes)
  | str (raw : Bytes)
  | arr (items : List (Bytes × Lex))
  | obj (members : List (Bytes × Lex))
deriving Repr

section Bytes

def quote : UInt8 := 0x22
def backslash : UInt8 := 0x5C
def comma : UInt8 := 0x2C
def colon : UInt8 := 0x3A
def openBracket : UInt8 := 0x5B
def closeBracket : UInt8 := 0x5D
def openBrace : UInt8 := 0x7B
def closeBrace : UInt8 := 0x7D

def isWhitespace (b : UInt8) : Bool := b = 0x20 ∨ b = 0x0A ∨ b = 0x09 ∨ b = 0x0D

def isDigit (b : UInt8) : Bool := 0x30 ≤ b ∧ b ≤ 0x39

def isHex (b : UInt8) : Bool :=
  isDigit b ∨ (0x41 ≤ b ∧ b ≤ 0x46) ∨ (0x61 ≤ b ∧ b ≤ 0x66)

/-- The characters that stand for themselves or a control character after a backslash. -/
def simpleEscapes : Bytes := [0x22, 0x5C, 0x2F, 0x62, 0x66, 0x6E, 0x72, 0x74]

end Bytes

variable (t : Tail)

def skipWs : Bytes → Except Fault Bytes
  | [] => match t with
    | .eof => .ok []
    | .cut => .error .starved
  | b :: rest => if isWhitespace b then skipWs rest else .ok (b :: rest)

/-- The remaining letters of `null`, `true` or `false`. -/
def scanIdent : Bytes → Bytes → Except Fault Bytes
  | [], inp => .ok inp
  | _ :: _, [] => .error t.missing
  | e :: expected, b :: rest => if b = e then scanIdent expected rest else .error .malformed

/-- As many digits as there are. The scan looks one byte past the last of them. -/
def scanDigits : Bytes → Except Fault (Bytes × Bytes)
  | [] => match t with
    | .eof => .ok ([], [])
    | .cut => .error .starved
  | b :: rest =>
    if isDigit b then do
      let (ds, rest) ← scanDigits rest
      .ok (b :: ds, rest)
    else .ok ([], b :: rest)

/-- At least one digit. -/
def scanDigits1 : Bytes → Except Fault (Bytes × Bytes)
  | [] => .error t.missing
  | b :: rest =>
    if isDigit b then do
      let (ds, rest) ← scanDigits t rest
      .ok (b :: ds, rest)
    else .error .malformed

/-- The integer part: a lone zero or digits without a leading zero. -/
def scanInteger : Bytes → Except Fault (Bytes × Bytes)
  | [] => .error t.missing
  | b :: rest =>
    if b = 0x30 then
      match rest with
      | [] => match t with
        | .eof => .ok ([b], [])
        | .cut => .error .starved
      | d :: rest => if isDigit d then .error .malformed else .ok ([b], d :: rest)
    else scanDigits1 t (b :: rest)

def scanFraction : Bytes → Except Fault (Bytes × Bytes)
  | [] => match t with
    | .eof => .ok ([], [])
    | .cut => .error .starved
  | b :: rest =>
    if b = 0x2E then do
      let (ds, rest) ← scanDigits1 t rest
      .ok (b :: ds, rest)
    else .ok ([], b :: rest)

/-- The optional sign of an exponent. -/
def scanSign : Bytes → Except Fault (Bytes × Bytes)
  | [] => .error t.missing
  | b :: rest => if b = 0x2B ∨ b = 0x2D then .ok ([b], rest) else .ok ([], b :: rest)

def scanExponent : Bytes → Except Fault (Bytes × Bytes)
  | [] => match t with
    | .eof => .ok ([], [])
    | .cut => .error .starved
  | b :: rest =>
    if b = 0x65 ∨ b = 0x45 then do
      let (sign, rest) ← scanSign t rest
      let (ds, rest) ← scanDigits1 t rest
      .ok (b :: sign ++ ds, rest)
    else .ok ([], b :: rest)

/-- A number after its optional minus sign. -/
def scanUnsigned (inp : Bytes) : Except Fault (Bytes × Bytes) := do
  let (int, rest) ← scanInteger t inp
  let (frac, rest) ← scanFraction t rest
  let (exp, rest) ← scanExponent t rest
  .ok (int ++ frac ++ exp, rest)

/-- The contents of a string after its opening quote, escapes not decoded. -/
def scanString : Bytes → Except Fault (Bytes × Bytes)
  | [] => .error t.missing
  | b :: rest =>
    if b = quote then .ok ([], rest)
    else if b = backslash then
      match rest with
      | [] => .error t.missing
      | e :: rest =>
        if e ∈ simpleEscapes then do
          let (raw, rest) ← scanString rest
          .ok (b :: e :: raw, rest)
        else if e = 0x75 then
          match rest with
          | h1 :: h2 :: h3 :: h4 :: rest =>
            if isHex h1 ∧ isHex h2 ∧ isHex h3 ∧ isHex h4 then do
              let (raw, rest) ← scanString rest
              .ok (b :: e :: h1 :: h2 :: h3 :: h4 :: raw, rest)
            else .error .malformed
          | _ => .error t.missing
        else .error .malformed
    else if b < 0x20 then .error .malformed
    else do
      let (raw, rest) ← scanString rest
      .ok (b :: raw, rest)

/-- The next element of a list closed by `close`: `true` with the input at its first byte,
or `false` with the input past the closing bracket. -/
def nextItem (close : UInt8) (first : Bool) (inp : Bytes) : Except Fault (Bool × Bytes) := do
  match ← skipWs t inp with
  | [] => .error t.missing
  | b :: rest =>
    if b = close then .ok (false, rest)
    else if first then .ok (true, b :: rest)
    else if b = comma then do
      match ← skipWs t rest with
      | [] => .error t.missing
      | b :: rest => if b = close then .error .malformed else .ok (true, b :: rest)
    else .error .malformed

/-- A quoted key and the colon after it. -/
def scanKey : Bytes → Except Fault (Bytes × Bytes)
  | [] => .error t.missing
  | b :: rest =>
    if b = quote then do
      let (raw, rest) ← scanString t rest
      match ← skipWs t rest with
      | [] => .error t.missing
      | b :: rest => if b = colon then .ok (raw, rest) else .error .malformed
    else .error .malformed

/-- What a value's first byte announces. -/
inductive Head where
  | scalar (v : Lex)
  | items
  | members

/-- A scalar in full, or the opening bracket of an array or object. -/
def scanHead (inp : Bytes) : Except Fault (Head × Bytes) := do
  match ← skipWs t inp with
  | [] => .error t.missing
  | b :: rest =>
    if b = 0x6E then do
      let rest ← scanIdent t [0x75, 0x6C, 0x6C] rest
      .ok (.scalar .null, rest)
    else if b = 0x74 then do
      let rest ← scanIdent t [0x72, 0x75, 0x65] rest
      .ok (.scalar (.bool true), rest)
    else if b = 0x66 then do
      let rest ← scanIdent t [0x61, 0x6C, 0x73, 0x65] rest
      .ok (.scalar (.bool false), rest)
    else if b = 0x2D then do
      let (lexeme, rest) ← scanUnsigned t rest
      .ok (.scalar (.num (b :: lexeme)), rest)
    else if isDigit b then do
      let (lexeme, rest) ← scanUnsigned t (b :: rest)
      .ok (.scalar (.num lexeme), rest)
    else if b = quote then do
      let (raw, rest) ← scanString t rest
      .ok (.scalar (.str raw), rest)
    else if b = openBracket then .ok (.items, rest)
    else if b = openBrace then .ok (.members, rest)
    else .error .malformed

/-- The part of `inp` before its suffix `rest`. -/
def consumed (inp rest : Bytes) : Bytes := inp.take (inp.length - rest.length)

mutual

def scanValueAux : ℕ → Bytes → Except Fault (Lex × Bytes)
  | 0, _ => .error .malformed
  | n + 1, inp => do
    match ← scanHead t inp with
    | (.scalar v, rest) => .ok (v, rest)
    | (.items, rest) => do
      let (vs, rest) ← scanItemsAux n true rest
      .ok (.arr vs, rest)
    | (.members, rest) => do
      let (ms, rest) ← scanMembersAux n true rest
      .ok (.obj ms, rest)

def scanItemsAux : ℕ → Bool → Bytes → Except Fault (List (Bytes × Lex) × Bytes)
  | 0, _, _ => .error .malformed
  | n + 1, first, inp => do
    match ← nextItem t closeBracket first inp with
    | (false, rest) => .ok ([], rest)
    | (true, inp) => do
      let (v, rest) ← scanValueAux n inp
      let (vs, rest') ← scanItemsAux n false rest
      .ok ((consumed inp rest, v) :: vs, rest')

def scanMembersAux : ℕ → Bool → Bytes → Except Fault (List (Bytes × Lex) × Bytes)
  | 0, _, _ => .error .malformed
  | n + 1, first, inp => do
    match ← nextItem t closeBrace first inp with
    | (false, rest) => .ok ([], rest)
    | (true, inp) => do
      let (key, rest) ← scanKey t inp
      let (v, rest) ← scanValueAux n rest
      let (ms, rest) ← scanMembersAux n false rest
      .ok ((key, v) :: ms, rest)

end

/-- Fuel for an input: two calls may look at the same byte before one is consumed. -/
def fuelFor (inp : Bytes) : ℕ := 2 * inp.length + 2

/-- `ignore_value`: skips one value by the grammar alone. -/
def scanValue (inp : Bytes) : Except Fault (Lex × Bytes) := scanValueAux t (fuelFor inp) inp

def scanItems (first : Bool) (inp : Bytes) : Except Fault (List (Bytes × Lex) × Bytes) :=
  scanItemsAux t (fuelFor inp) first inp

def scanMembers (first : Bool) (inp : Bytes) : Except Fault (List (Bytes × Lex) × Bytes) :=
  scanMembersAux t (fuelFor inp) first inp

/-- `Deserializer::end`: nothing but whitespace is left. -/
def scanEnd (inp : Bytes) : Except Fault Unit := do
  match ← skipWs t inp with
  | [] => .ok ()
  | _ :: _ => .error .malformed

/-- A complete text: one value and its end. -/
def scanDocument (text : Bytes) : Except Fault Lex := do
  let (v, rest) ← scanValue .eof text
  scanEnd .eof rest
  .ok v

end CloudTrailFilter.Json
