import CloudTrailFilter.Json.Decode

/-!
# Derived structs

What a derived `Deserialize` reads: a struct is a map with the names of its fields, or the
sequence of its fields. Read from text, a field that comes twice is an error and the values of
unknown fields are skipped by the grammar alone; read from a `Value`, no key comes twice.
-/

namespace CloudTrailFilter.Json

section Text

/-- The members of an object with their keys decoded. -/
def namedFields : List (Bytes × Lex) → Option (List (String × Lex))
  | [] => some []
  | (key, v) :: rest => do
    let key ← decodeString key
    let fields ← namedFields rest
    some ((key, v) :: fields)

/-- The value of one field, if it is there. -/
def fieldOf (fields : List (String × Lex)) (name : String) : Option (Option Lex) :=
  match fields.filter (fun f => f.1 = name) with
  | [] => some none
  | [f] => some (some f.2)
  | _ => none

/-- The fields of a struct. In a sequence none of them may be missing. -/
def Lex.fields (names : List String) : Lex → Option (List (Option Lex))
  | .obj members => do
    let fields ← namedFields members
    names.mapM (fieldOf fields)
  | .arr items => if items.length = names.length then some (items.map (fun i => some i.2)) else none
  | _ => none

/-- `String::deserialize`. -/
def Lex.text : Lex → Option String
  | .str raw => decodeString raw
  | _ => none

/-- An `Option<String>` field. -/
def Lex.optText : Option Lex → Option (Option String)
  | none | some .null => some none
  | some v => v.text.map some

/-- An `Option<u64>` field. No other lexeme is read as a `u64`. -/
def Lex.optU64 : Option Lex → Option (Option ℕ)
  | none | some .null => some none
  | some (.num lexeme) => if lexeme.all isDigit ∧ bytesValue lexeme < 2 ^ 64 then some (some (bytesValue lexeme)) else none
  | _ => none

end Text

namespace Value

def fields (names : List String) : Value → Option (List (Option Value))
  | .object entries => some (names.map (get entries))
  | .array items => if items.length = names.length then some (items.map some) else none
  | _ => none

def text : Value → Option String
  | .string s => some s
  | _ => none

def optText : Option Value → Option (Option String)
  | none | some .null => some none
  | some v => v.text.map some

/-- An `Option<u64>` field. A number kept as `i64` is negative. -/
def optU64 : Option Value → Option (Option ℕ)
  | none | some .null => some none
  | some (.number (.u64 n)) => some (some n)
  | _ => none

/-- A `Vec` field, each element read by `read`. -/
def vec {α : Type} (read : Value → Option α) : Value → Option (List α)
  | .array items => items.mapM read
  | _ => none

end Value

end CloudTrailFilter.Json
