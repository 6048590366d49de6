import CloudTrailFilter.Filter.Rules

/-!
# The rule index

`RuleIndex` narrows the rules to try on a record by the record's `eventSource` and
`eventName`. Both dimensions work the same way and share `Dimension`. Its specification
`Dimension.contains_bits` says which rules a value selects: exactly those that place no
literal constraint on the dimension and those whose literals contain the value.
-/

namespace CloudTrailFilter.Filter

/-- The literal values each indexable field restricts a rule to. -/
structure RuleKeys where
  eventSource : Option (List String)
  eventName : Option (List String)

/-- A membership set over `0..len`, one bit a rule in 64-bit words. -/
structure Bits (len : ℕ) where
  words : List (BitVec 64)
  size : words.length = (len + 63) / 64

namespace Bits
variable {len : ℕ}

def new (len : ℕ) : Bits len :=
  ⟨List.replicate ((len + 63) / 64) 0#64, by simp⟩

def set (b : Bits len) (idx : ℕ) : Bits len :=
  ⟨b.words.modify (idx / 64) (· ||| 1#64 <<< (idx % 64)), by simp [b.size]⟩

def allSet (len : ℕ) : Bits len :=
  (List.range len).foldl set (new len)

def contains (b : Bits len) (idx : ℕ) : Bool :=
  (b.words[idx / 64]?).any (fun w => w &&& 1#64 <<< (idx % 64) != 0#64)

def unionFrom (a b : Bits len) : Bits len :=
  ⟨List.zipWith (· ||| ·) a.words b.words, by simp [a.size, b.size]⟩

lemma and_bit_ne_zero (w : BitVec 64) {k : ℕ} (hk : k < 64) :
    (w &&& 1#64 <<< k != 0#64) = w.getLsbD k := by
  cases hb : w.getLsbD k with
  | true =>
    rw [BitVec.getLsbD_eq_getElem hk] at hb
    rw [bne_iff_ne]
    intro hz
    have := congrArg (fun x => BitVec.getLsbD x k) hz
    simp [hb, hk] at this
  | false =>
    rw [bne_eq_false_iff_eq]
    apply BitVec.eq_of_getLsbD_eq
    intro i hi
    by_cases hik : i = k
    · subst hik; simp [hb]
    · by_cases hlt : i < k
      · simp [hlt]
      · have : i - k ≠ 0 := by omega
        simp [hlt, this]

lemma contains_eq (b : Bits len) (idx : ℕ) :
    b.contains idx = (b.words[idx / 64]?).any (·.getLsbD (idx % 64)) := by
  have hk : idx % 64 < 64 := Nat.mod_lt _ (by norm_num)
  unfold contains
  cases b.words[idx / 64]? with
  | none => rfl
  | some w => simpa using and_bit_ne_zero w hk

@[simp] lemma contains_new (idx : ℕ) : (new len).contains idx = false := by
  rw [contains_eq, new]
  by_cases h : idx / 64 < (len + 63) / 64 <;> simp [h]

lemma contains_set (b : Bits len) {idx : ℕ} (hidx : idx < len) (i : ℕ) :
    (b.set idx).contains i = (decide (i = idx) || b.contains i) := by
  have hk : idx % 64 < 64 := Nat.mod_lt _ (by norm_num)
  have hi : i % 64 < 64 := Nat.mod_lt _ (by norm_num)
  have hword : idx / 64 < b.words.length := by rw [b.size]; omega
  rw [contains_eq, contains_eq, set, List.getElem?_modify]
  by_cases hw : idx / 64 = i / 64
  · rw [← hw, List.getElem?_eq_getElem hword]
    simp only [if_true, Option.any_some]
    rw [Bool.or_comm]
    by_cases hii : i = idx
    · subst hii; simp [hk]
    · have hne : i % 64 ≠ idx % 64 := by omega
      by_cases hlt : i % 64 < idx % 64
      · simp [hii, hlt]
      · have : i % 64 - idx % 64 ≠ 0 := by omega
        simp [hii, hlt, this]
  · have hii : i ≠ idx := by rintro rfl; exact hw rfl
    simp [hw, hii]

lemma contains_allSet {idx : ℕ} (h : idx < len) : (allSet len).contains idx = true := by
  have hfold : ∀ n ≤ len, ∀ i < n, ((List.range n).foldl set (new len)).contains i = true := by
    intro n hn
    induction n with
    | zero => simp
    | succ n ih =>
      intro i hi
      rw [List.range_succ, List.foldl_append, List.foldl_cons, List.foldl_nil,
        contains_set _ (by omega)]
      by_cases hin : i = n
      · simp [hin]
      · simp [ih (by omega) i (by omega)]
  exact hfold len le_rfl idx h

@[simp] lemma contains_unionFrom (a b : Bits len) (i : ℕ) :
    (a.unionFrom b).contains i = (a.contains i || b.contains i) := by
  rw [contains_eq, contains_eq, contains_eq, unionFrom, List.getElem?_zipWith]
  have hlen : a.words.length = b.words.length := by rw [a.size, b.size]
  by_cases h : i / 64 < a.words.length
  · simp [List.getElem?_eq_getElem h, List.getElem?_eq_getElem (hlen ▸ h)]
  · have ha : a.words[i / 64]? = none := List.getElem?_eq_none (by omega)
    have hb : b.words[i / 64]? = none := List.getElem?_eq_none (by omega)
    simp [ha, hb]

end Bits

/-- One dimension of the index: the buckets by literal, and the rules that place no
reducible constraint on the field. -/
structure Dimension (len : ℕ) where
  buckets : String → Option (Bits len)
  any : Bits len

namespace Dimension
variable {len : ℕ}

def empty (len : ℕ) : Dimension len := ⟨fun _ => none, Bits.new len⟩

/-- `entry(lit).or_insert_with(|| Bits::new(rule_count)).set(rule_idx)`. -/
def addLiteral (ruleIdx : ℕ) (d : Dimension len) (lit : String) : Dimension len :=
  ⟨Function.update d.buckets lit (some (((d.buckets lit).getD (Bits.new len)).set ruleIdx)), d.any⟩

def addRule (d : Dimension len) (ruleIdx : ℕ) : Option (List String) → Dimension len
  | some literals => literals.foldl (addLiteral ruleIdx) d
  | none => { d with any := d.any.set ruleIdx }

/-- The first pass: every rule in order. -/
def addRules (d : Dimension len) : ℕ → List (Option (List String)) → Dimension len
  | _, [] => d
  | ruleIdx, k :: keys => addRules (d.addRule ruleIdx k) (ruleIdx + 1) keys

/-- The second pass: `any` is complete only once every rule has been walked. -/
def finish (d : Dimension len) : Dimension len :=
  { d with buckets := fun lit => (d.buckets lit).map (·.unionFrom d.any) }

def build (len : ℕ) (keys : List (Option (List String))) : Dimension len :=
  ((empty len).addRules 0 keys).finish

/-- The candidate set of a record. A record without the field selects every rule; a value
no rule names selects the unconstrained rules. -/
def bits (d : Dimension len) (all : Bits len) : Option String → Bits len
  | none => all
  | some v => (d.buckets v).getD d.any

lemma addLiteral_any (d : Dimension len) (ruleIdx : ℕ) (literals : List String) :
    (literals.foldl (addLiteral ruleIdx) d).any = d.any := by
  induction literals generalizing d with
  | nil => rfl
  | cons lit literals ih => rw [List.foldl_cons, ih]; rfl

lemma contains_addLiterals (d : Dimension len) {ruleIdx : ℕ} (hr : ruleIdx < len)
    (literals : List String) (v : String) (i : ℕ) :
    (((literals.foldl (addLiteral ruleIdx) d).buckets v).any (·.contains i)) =
      ((decide (i = ruleIdx) && decide (v ∈ literals)) || (d.buckets v).any (·.contains i)) := by
  induction literals generalizing d with
  | nil => simp
  | cons lit literals ih =>
    rw [List.foldl_cons, ih]
    by_cases hv : v = lit
    · subst hv
      cases hb : d.buckets v <;>
        simp [addLiteral, hb, Bits.contains_set _ hr] <;>
        by_cases hi : i = ruleIdx <;> simp [hi]
    · simp [addLiteral, hv]

/-- What the first pass has recorded after the rules `keys`, starting at `start`. -/
lemma contains_addRules (d : Dimension len) (start : ℕ) (keys : List (Option (List String)))
    (hlen : start + keys.length ≤ len) (v : String) (i : ℕ) :
    (((d.addRules start keys).any.contains i = true ↔
        d.any.contains i = true ∨ ∃ j, i = start + j ∧ keys[j]? = some none)) ∧
    ((((d.addRules start keys).buckets v).any (·.contains i) = true ↔
        (d.buckets v).any (·.contains i) = true ∨
          ∃ j L, i = start + j ∧ keys[j]? = some (some L) ∧ v ∈ L)) := by
  induction keys generalizing d start with
  | nil => simp [addRules]
  | cons k keys ih =>
    have hs : start < len := by simp at hlen; omega
    have hlen' : start + 1 + keys.length ≤ len := by simp at hlen; omega
    obtain ⟨ihAny, ihBucket⟩ := ih (d.addRule start k) (start + 1) hlen'
    rw [addRules, ihAny, ihBucket]
    -- an index into the longer list is the new head or an index into the tail
    have hsplit : ∀ P : Option (Option (List String)) → Prop,
        (∃ j, i = start + j ∧ P ((k :: keys)[j]?)) ↔
          (i = start ∧ P (some k)) ∨ ∃ j, i = start + 1 + j ∧ P (keys[j]?) := by
      intro P
      constructor
      · rintro ⟨j, hj, hP⟩
        cases j with
        | zero => exact .inl ⟨by omega, by simpa using hP⟩
        | succ j => exact .inr ⟨j, by omega, by simpa using hP⟩
      · rintro (⟨hi, hP⟩ | ⟨j, hj, hP⟩)
        · exact ⟨0, by omega, by simpa using hP⟩
        · exact ⟨j + 1, by omega, by simpa using hP⟩
    have hex : (∃ j L, i = start + j ∧ (k :: keys)[j]? = some (some L) ∧ v ∈ L) ↔
        (i = start ∧ ∃ L, k = some L ∧ v ∈ L) ∨
          ∃ j L, i = start + 1 + j ∧ keys[j]? = some (some L) ∧ v ∈ L := by
      have h := hsplit (fun o => ∃ L, o = some (some L) ∧ v ∈ L)
      simpa [exists_and_left, and_assoc] using h
    rw [hsplit (fun o => o = some none), hex]
    cases k with
    | none =>
      simp [addRule, Bits.contains_set _ hs, or_assoc, or_comm, or_left_comm]
    | some L =>
      simp only [addRule, addLiteral_any, contains_addLiterals d hs, Bool.or_eq_true,
        Bool.and_eq_true, decide_eq_true_eq]
      constructor
      · simp
      · simp [or_assoc, or_comm, or_left_comm]

/-- The rules a value selects: those without a constraint on the dimension and those whose
literals contain the value. -/
theorem contains_bits (keys : List (Option (List String))) (all : Bits keys.length)
    (v : String) {i : ℕ} (hi : i < keys.length) :
    ((build keys.length keys).bits all (some v)).contains i = true ↔
      ∀ L, keys[i]? = some (some L) → v ∈ L := by
  obtain ⟨hany, hbucket⟩ := contains_addRules (empty keys.length) 0 keys (by simp) v i
  simp only [empty, Bits.contains_new, Bool.false_eq_true, false_or, Option.any_none,
    Nat.zero_add] at hany hbucket
  have hmem : (∃ j, i = j ∧ keys[j]? = some none) ∨
      (∃ j L, i = j ∧ keys[j]? = some (some L) ∧ v ∈ L) ↔
        ∀ L, keys[i]? = some (some L) → v ∈ L := by
    rw [List.getElem?_eq_getElem hi]
    cases hk : keys[i] with
    | none => simp [List.getElem?_eq_getElem hi, hk]
    | some L =>
      constructor
      · rintro (⟨j, rfl, hj⟩ | ⟨j, L', rfl, hj, hv⟩)
        · simp [List.getElem?_eq_getElem hi, hk] at hj
        · simp only [List.getElem?_eq_getElem hi, hk, Option.some.injEq] at hj
          subst hj
          intro L'' h
          simp only [Option.some.injEq] at h
          exact h ▸ hv
      · intro h
        exact .inr ⟨i, L, rfl, by simp [List.getElem?_eq_getElem hi, hk], h L rfl⟩
  rw [← hmem, ← hany, ← hbucket]
  simp only [build, finish, bits]
  cases hb : ((⟨fun _ => none, Bits.new keys.length⟩ : Dimension keys.length).addRules 0 keys).buckets v with
  | none => simp [empty, hb]
  | some b => simp [empty, hb, or_comm]

end Dimension

/-- The two candidate sets of one record. -/
structure Candidates (len : ℕ) where
  source : Bits len
  name : Bits len

def Candidates.permits {len : ℕ} (c : Candidates len) (idx : ℕ) : Bool :=
  c.source.contains idx && c.name.contains idx

structure RuleIndex where
  ruleCount : ℕ
  eventSource : Dimension ruleCount
  eventName : Dimension ruleCount
  all : Bits ruleCount
  always : List ℕ

namespace RuleIndex

def build (keys : List RuleKeys) : RuleIndex where
  ruleCount := keys.length
  eventSource := .build keys.length (keys.map (·.eventSource))
  eventName := .build keys.length (keys.map (·.eventName))
  all := .allSet keys.length
  always := (keys.zipIdx.filter (fun k => k.1.eventSource.isNone && k.1.eventName.isNone)).map (·.2)

def candidatesFor (index : RuleIndex) (eventSource eventName : Option String) :
    Candidates index.ruleCount :=
  ⟨index.eventSource.bits index.all eventSource, index.eventName.bits index.all eventName⟩

end RuleIndex

/-- A value does not contradict a rule's literals: it is missing, the rule has none, or it is
one of them. -/
def Admits (literals : Option (List String)) (value : Option String) : Prop :=
  ∀ L v, literals = some L → value = some v → v ∈ L

lemma Dimension.contains_of_admits {len : ℕ} (keys : List (Option (List String)))
    (hlen : keys.length = len) (value : Option String) {i : ℕ} (hi : i < keys.length)
    (h : Admits keys[i] value) :
    ((Dimension.build len keys).bits (.allSet len) value).contains i = true := by
  subst hlen
  cases value with
  | none => exact Bits.contains_allSet hi
  | some v =>
    rw [Dimension.contains_bits keys _ v hi]
    intro L hL
    rw [List.getElem?_eq_getElem hi, Option.some.injEq] at hL
    exact h L v hL rfl

/-- No over-exclusion: a rule both of whose literal sets admit the record's values is a
candidate. -/
theorem RuleIndex.permits_of_admits (keys : List RuleKeys) (eventSource eventName : Option String)
    {i : ℕ} (hi : i < keys.length) (hs : Admits keys[i].eventSource eventSource)
    (hn : Admits keys[i].eventName eventName) :
    ((RuleIndex.build keys).candidatesFor eventSource eventName).permits i = true := by
  simp only [Candidates.permits, candidatesFor, build, Bool.and_eq_true]
  exact ⟨Dimension.contains_of_admits _ (by simp) _ (by simpa using hi) (by simpa using hs),
    Dimension.contains_of_admits _ (by simp) _ (by simpa using hi) (by simpa using hn)⟩

section ExtractLiterals

/-- Positions and kinds of the parentheses that no backslash escapes. -/
def findUnescapedParens : Bool → ℕ → List Char → List (ℕ × Char)
  | _, _, [] => []
  | true, i, _ :: rest => findUnescapedParens false (i + 1) rest
  | false, i, c :: rest =>
    if c = '\\' then findUnescapedParens true (i + 1) rest
    else if c = '(' ∨ c = ')' then (i, c) :: findUnescapedParens false (i + 1) rest
    else findUnescapedParens false (i + 1) rest

def metacharacters : List Char :=
  ['.', '*', '+', '?', '\x7b', '\x7d', '^', '$', '(', ')', '[', ']', '|']

/-- Unescapes a fragment claimed to hold no metacharacter, or refuses it. -/
def unescapeLiteral : List Char → Option (List Char)
  | [] => some []
  | ['\\'] => none
  | '\\' :: escaped :: rest =>
    if escaped.isAlphanum then none else (unescapeLiteral rest).map (escaped :: ·)
  | c :: rest => if c ∈ metacharacters then none else (unescapeLiteral rest).map (c :: ·)

def stripAnchors (pattern : List Char) : Option (List Char) :=
  match pattern with
  | '^' :: rest => if rest.getLast? = some '$' then some rest.dropLast else none
  | _ => none

/-- The finite set of strings a fully anchored pattern can match, when the pattern is a
plain literal or a literal with one flat alternation group. -/
def extractLiterals (pattern : String) : Option (List String) :=
  if ['(', '?'] <:+: pattern.toList then none
  else do
    let inner ← stripAnchors pattern.toList
    match findUnescapedParens false 0 inner with
    | [] => do
      let lit ← unescapeLiteral inner
      some [String.ofList lit]
    | [(op, '('), (cl, ')')] => do
      let pre ← unescapeLiteral (inner.take op)
      let body := (inner.take cl).drop (op + 1)
      let suf ← unescapeLiteral (inner.drop (cl + 1))
      if ['\\', '|'] <:+: body then none
      else do
        let alts ← (body.splitOn '|').mapM unescapeLiteral
        some (alts.map (fun alt => String.ofList (pre ++ alt ++ suf)))
    | _ => none

end ExtractLiterals

end CloudTrailFilter.Filter
