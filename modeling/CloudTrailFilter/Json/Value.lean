import Mathlib.Tactic

/-!
# JSON values

`Value` is the fully parsed tree of `serde_json::Value`. An object is an association list
without repeated keys: `Value.insert` replaces the entry of a key that is already there,
which is how a repeated key of the text ends up as its last occurrence.
-/

namespace CloudTrailFilter.Json

/-- A number as the deserializer hands it over. A float carries the text `Number` prints
for it, since no comparison in this development looks inside a double. -/
inductive Number where
  | u64 (n : ℕ)
  | i64 (n : ℤ)
  | f64 (text : String)
deriving DecidableEq, Repr

/-- The `Display` text of a number. -/
def Number.toText : Number → String
  | .u64 n => toString n
  | .i64 n => toString n
  | .f64 text => text

inductive Value where
  | null
  | bool (b : Bool)
  | number (n : Number)
  | string (s : String)
  | array (items : List Value)
  | object (entries : List (String × Value))
deriving Repr

namespace Value

/-- `Map::insert`: replace the entry of a present key, append a new one otherwise. -/
def insert (entries : List (String × Value)) (key : String) (v : Value) : List (String × Value) :=
  match entries with
  | [] => [(key, v)]
  | (k, w) :: rest => if k = key then (k, v) :: rest else (k, w) :: insert rest key v

/-- `Map::get`. -/
def get (entries : List (String × Value)) (key : String) : Option Value :=
  (entries.find? (fun e => e.1 = key)).map Prod.snd

@[simp] lemma get_nil (key : String) : get [] key = none := rfl

lemma get_cons (k : String) (v : Value) (rest : List (String × Value)) (key : String) :
    get ((k, v) :: rest) key = if k = key then some v else get rest key := by
  by_cases h : k = key <;> simp [get, h]

lemma get_insert (entries : List (String × Value)) (key other : String) (v : Value) :
    get (insert entries key v) other = if key = other then some v else get entries other := by
  induction entries with
  | nil => simp [insert, get_cons]
  | cons e rest ih =>
    obtain ⟨k, w⟩ := e
    by_cases hk : k = key
    · subst hk
      simp only [insert, if_true, get_cons]
      split <;> rfl
    · simp only [insert, hk, if_false, get_cons, ih]
      by_cases ho : key = other
      · simp [← ho, hk]
      · simp [ho]

/-- The text of a scalar leaf: a string as it is, a boolean or a number printed. Null, an
object and an array have none. -/
def scalarText : Value → Option String
  | .string s => some s
  | .bool b => some (if b then "true" else "false")
  | .number n => some n.toText
  | .null | .object _ | .array _ => none

end Value

end CloudTrailFilter.Json
