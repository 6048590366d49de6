import Mathlib.Tactic

/-!
# Regular expressions without repetition

The documented syntax and meaning of the part of a regular expression language that has literals,
escapes, anchors, word boundaries, groups and alternatives. Such an expression is the union of its
branches, each a sequence of atoms. What the part leaves out, the parser reports as not covered.
-/

namespace CloudTrailFilter.RegexSyntax

/-- What matches one character, or looks around without matching any. -/
inductive Atom where
  | char (c : Char)
  | startText
  | endText
  | wordStart
  | wordEnd
deriving DecidableEq, Repr

/-- A group matches what its contents match. -/
inductive Ast where
  | empty
  | atom (a : Atom)
  | cat (x y : Ast)
  | alt (x y : Ast)
deriving DecidableEq, Repr

section Meaning
variable (isWord : Char → Bool) (hay : List Char)

def wordAt (i : ℕ) : Bool := (hay[i]?).any isWord

def wordBefore : ℕ → Bool
  | 0 => false
  | i + 1 => wordAt isWord hay i

/-- Where a match of an atom that starts at `i` may end. -/
def Atom.ends (i : ℕ) : Atom → List ℕ
  | .char c => if hay[i]? = some c then [i + 1] else []
  | .startText => if i = 0 then [i] else []
  | .endText => if i = hay.length then [i] else []
  | .wordStart => if !wordBefore isWord hay i && wordAt isWord hay i then [i] else []
  | .wordEnd => if wordBefore isWord hay i && !wordAt isWord hay i then [i] else []

def Ast.ends : Ast → ℕ → List ℕ
  | .empty, i => [i]
  | .atom a, i => a.ends isWord hay i
  | .cat x y, i => (x.ends i).flatMap y.ends
  | .alt x y, i => x.ends i ++ y.ends i

/-- Whether an expression matches somewhere in the text. -/
def Ast.isMatch (ast : Ast) : Bool :=
  (List.range (hay.length + 1)).any (fun i => !(ast.ends isWord hay i).isEmpty)

end Meaning

section Syntax

/-- Why a pattern is not read: no engine takes it, or it uses what is left out here. -/
inductive Unread where
  | rejected
  | notCovered
deriving DecidableEq, Repr

inductive Token where
  | atom (a : Atom)
  | «open»
  | close
  | bar
deriving DecidableEq, Repr

/-- A backslash makes any ASCII character but a letter, a digit, `<` and `>` stand for itself. -/
def escapedToken (c : Char) : Except Unread Token :=
  if c = '<' then .ok (.atom .wordStart)
  else if c = '>' then .ok (.atom .wordEnd)
  else if c.isAlphanum then .error .notCovered
  else if c.toNat < 128 then .ok (.atom (.char c))
  else .error .rejected

/-- The characters that repeat, match any character or open a class, and their closing ones. -/
def notCovered : List Char := ['.', '*', '+', '?', '\x7b', '\x7d', '[', ']']

def plainToken (c : Char) : Except Unread Token :=
  if c = '^' then .ok (.atom .startText)
  else if c = '$' then .ok (.atom .endText)
  else if c = '(' then .ok .open
  else if c = ')' then .ok .close
  else if c = '|' then .ok .bar
  else if c ∈ notCovered then .error .notCovered
  else .ok (.atom (.char c))

def lex : List Char → Except Unread (List Token)
  | [] => .ok []
  | ['\\'] => .error .rejected
  | '\\' :: c :: rest => do
    let token ← escapedToken c
    let tokens ← lex rest
    .ok (token :: tokens)
  | '(' :: '?' :: _ => .error .notCovered
  | c :: rest => do
    let token ← plainToken c
    let tokens ← lex rest
    .ok (token :: tokens)

/-- An open group: its finished alternatives and the one being read. -/
structure Frame where
  alts : Option Ast
  seq : Ast

def Frame.new : Frame := ⟨none, .empty⟩

def Frame.push (f : Frame) (x : Ast) : Frame := { f with seq := .cat f.seq x }

def Frame.finish (f : Frame) : Ast :=
  match f.alts with
  | none => f.seq
  | some x => .alt x f.seq

def assemble : List Frame → Frame → List Token → Except Unread Ast
  | [], f, [] => .ok f.finish
  | _ :: _, _, [] => .error .rejected
  | stack, f, .atom a :: rest => assemble stack (f.push (.atom a)) rest
  | stack, f, .bar :: rest => assemble stack ⟨some f.finish, .empty⟩ rest
  | stack, f, .open :: rest => assemble (f :: stack) .new rest
  | [], _, .close :: _ => .error .rejected
  | g :: stack, f, .close :: rest => assemble stack (g.push f.finish) rest

def parse (pattern : List Char) : Except Unread Ast := do
  let tokens ← lex pattern
  assemble [] .new tokens

/-- A compiler of patterns that follows the documented syntax and meaning. -/
structure Follows {ε : Type} (isWord : Char → Bool) (compile : String → Except ε (String → Bool)) : Prop where
  matching : ∀ pattern ast isMatch text, parse pattern.toList = .ok ast → compile pattern = .ok isMatch →
    isMatch text = ast.isMatch isWord text.toList
  rejecting : ∀ pattern isMatch, parse pattern.toList = .error .rejected → compile pattern ≠ .ok isMatch

end Syntax

section Branches

/-- The sequences of atoms an expression is the union of. -/
def Ast.branches : Ast → List (List Atom)
  | .empty => [[]]
  | .atom a => [[a]]
  | .cat x y => x.branches.flatMap (fun b => y.branches.map (b ++ ·))
  | .alt x y => x.branches ++ y.branches

def Frame.branches (f : Frame) : List (List Atom) := f.finish.branches

/-- The branches of a frame's finished alternatives. -/
def Frame.done (f : Frame) : List (List Atom) := (f.alts.map Ast.branches).getD []

lemma Frame.branches_eq (f : Frame) : f.branches = f.done ++ f.seq.branches := by
  unfold Frame.branches Frame.finish Frame.done
  cases f.alts <;> rfl

/-- The tokens of a sequence of atoms. -/
def atomTokens (atoms : List Atom) : List Token := atoms.map .atom

/-- The tokens of alternatives, separated by bars. -/
def barTokens : List (List Atom) → List Token
  | [] => []
  | [atoms] => atomTokens atoms
  | atoms :: rest => atomTokens atoms ++ .bar :: barTokens rest

/-- Atoms extend the alternative being read. -/
lemma assemble_atoms (stack : List Frame) (f : Frame) (atoms : List Atom) (rest : List Token) :
    ∃ f', assemble stack f (atomTokens atoms ++ rest) = assemble stack f' rest ∧ f'.alts = f.alts ∧
      f'.seq.branches = f.seq.branches.map (· ++ atoms) := by
  induction atoms generalizing f with
  | nil => exact ⟨f, rfl, rfl, by simp⟩
  | cons a atoms ih =>
    obtain ⟨f', hassemble, halts, hseq⟩ := ih (f.push (.atom a))
    refine ⟨f', ?_, halts, ?_⟩
    · rw [← hassemble]
      cases stack <;> rfl
    · have hpush : (f.push (.atom a)).seq.branches = f.seq.branches.map (· ++ [a]) := by
        rw [List.map_eq_flatMap]
        rfl
      rw [hseq, hpush, List.map_map]
      simp [Function.comp_def]

/-- Alternatives are added to the frame that reads them. -/
lemma assemble_bars (stack : List Frame) (f : Frame) (hseq : f.seq.branches = [[]]) {alts : List (List Atom)}
    (hne : alts ≠ []) (rest : List Token) :
    ∃ f', assemble stack f (barTokens alts ++ rest) = assemble stack f' rest ∧
      f'.branches = f.done ++ alts := by
  induction alts generalizing f with
  | nil => exact (hne rfl).elim
  | cons atoms alts ih =>
    cases alts with
    | nil =>
      obtain ⟨f', hassemble, halts, hseq'⟩ := assemble_atoms stack f atoms rest
      refine ⟨f', hassemble, ?_⟩
      rw [Frame.branches_eq, Frame.done, halts, hseq', hseq]
      rfl
    | cons next alts =>
      obtain ⟨f', hassemble, halts, hseq'⟩ := assemble_atoms stack f atoms (.bar :: (barTokens (next :: alts) ++ rest))
      obtain ⟨f'', hassemble', hbranches⟩ := ih ⟨some f'.finish, .empty⟩ rfl (by simp)
      refine ⟨f'', ?_, ?_⟩
      · rw [← hassemble', barTokens, List.append_assoc, List.cons_append, hassemble]
        · cases stack <;> rfl
        · simp
      · have hdone : f'.branches = f.done ++ [atoms] := by
          rw [Frame.branches_eq, Frame.done, halts, hseq', hseq]
          rfl
        rw [hbranches, Frame.done, Option.map_some, Option.getD_some, ← Frame.branches, hdone, List.append_assoc]
        rfl

/-- The branches of a pattern with one group between atoms. -/
lemma assemble_group (pre post : List Atom) {alts : List (List Atom)} (hne : alts ≠ []) :
    ∃ ast, assemble [] .new (atomTokens pre ++ .open :: (barTokens alts ++ .close :: atomTokens post)) = .ok ast ∧
      ast.branches = alts.map (fun b => pre ++ b ++ post) := by
  obtain ⟨f, hf, halts, hseq⟩ := assemble_atoms [] .new pre (.open :: (barTokens alts ++ .close :: atomTokens post))
  obtain ⟨g, hg, hbranches⟩ := assemble_bars [f] .new rfl hne (.close :: atomTokens post)
  obtain ⟨k, hk, halts', hseq'⟩ := assemble_atoms [] (f.push g.finish) post []
  refine ⟨k.finish, ?_, ?_⟩
  · rw [hf]
    change assemble [f] .new (barTokens alts ++ .close :: atomTokens post) = _
    rw [hg]
    change assemble [] (f.push g.finish) (atomTokens post) = _
    rw [List.append_nil] at hk
    rw [hk]
    rfl
  · have hgroup : (f.push g.finish).seq.branches = alts.map (pre ++ ·) := by
      change (Ast.cat f.seq g.finish).branches = _
      rw [Ast.branches, hseq, ← Frame.branches, hbranches]
      simp [Frame.new, Frame.done, Ast.branches]
    rw [← Frame.branches, Frame.branches_eq, Frame.done, halts', hseq', hgroup, List.map_map]
    simp [Frame.push, halts, Frame.new, Function.comp_def]

/-- The branch of a pattern of atoms. -/
lemma assemble_plain (atoms : List Atom) :
    ∃ ast, assemble [] .new (atomTokens atoms) = .ok ast ∧ ast.branches = [atoms] := by
  obtain ⟨f, hf, halts, hseq⟩ := assemble_atoms [] .new atoms []
  rw [List.append_nil] at hf
  refine ⟨f.finish, hf, ?_⟩
  rw [← Frame.branches, Frame.branches_eq, Frame.done, halts, hseq]
  rfl

end Branches

section Language
variable (isWord : Char → Bool)

/-- Where a match of a sequence of atoms that starts at `i` may end. -/
def seqEnds (hay : List Char) : List Atom → ℕ → List ℕ
  | [], i => [i]
  | a :: rest, i => (a.ends isWord hay i).flatMap (seqEnds hay rest)

/-- The characters a sequence of atoms matches, whatever its assertions say. -/
def text (b : List Atom) : List Char :=
  b.filterMap (fun a =>
    match a with
    | .char c => some c
    | _ => none)

/-- Whether the assertions of a sequence of atoms hold in its own text. -/
def holds (b : List Atom) : Bool := !(seqEnds isWord (text b) b 0).isEmpty

variable {isWord} {hay : List Char}

lemma mem_seqEnds_append (a b : List Atom) (i j : ℕ) :
    j ∈ seqEnds isWord hay (a ++ b) i ↔ ∃ k ∈ seqEnds isWord hay a i, j ∈ seqEnds isWord hay b k := by
  induction a generalizing i with
  | nil => simp [seqEnds]
  | cons x a ih =>
    simp only [List.cons_append, seqEnds, List.mem_flatMap, ih]
    constructor
    · rintro ⟨k, hk, l, hl, hj⟩
      exact ⟨l, ⟨k, hk, hl⟩, hj⟩
    · rintro ⟨l, ⟨k, hk, hl⟩, hj⟩
      exact ⟨k, hk, l, hl, hj⟩

/-- An expression matches what its branches match. -/
theorem Ast.mem_ends (ast : Ast) (i j : ℕ) :
    j ∈ ast.ends isWord hay i ↔ ∃ b ∈ ast.branches, j ∈ seqEnds isWord hay b i := by
  induction ast generalizing i j with
  | empty => simp [ends, branches, seqEnds]
  | atom a => simp [ends, branches, seqEnds]
  | cat x y ihx ihy =>
    simp only [ends, branches, List.mem_flatMap, ihx, ihy, List.mem_map]
    constructor
    · rintro ⟨k, ⟨b, hb, hk⟩, b', hb', hj⟩
      exact ⟨b ++ b', ⟨b, hb, b', hb', rfl⟩, (mem_seqEnds_append b b' i j).mpr ⟨k, hk, hj⟩⟩
    · rintro ⟨_, ⟨b, hb, b', hb', rfl⟩, hj⟩
      obtain ⟨k, hk, hj⟩ := (mem_seqEnds_append b b' i j).mp hj
      exact ⟨k, ⟨b, hb, hk⟩, b', hb', hj⟩
  | alt x y ihx ihy =>
    simp only [ends, branches, List.mem_append, ihx, ihy]
    constructor
    · rintro (⟨b, hb, hj⟩ | ⟨b, hb, hj⟩)
      · exact ⟨b, .inl hb, hj⟩
      · exact ⟨b, .inr hb, hj⟩
    · rintro ⟨b, hb | hb, hj⟩
      · exact .inl ⟨b, hb, hj⟩
      · exact .inr ⟨b, hb, hj⟩

lemma Ast.isMatch_iff (ast : Ast) : ast.isMatch isWord hay = true ↔
    ∃ b ∈ ast.branches, ∃ i j, i ≤ hay.length ∧ j ∈ seqEnds isWord hay b i := by
  simp only [isMatch, List.any_eq_true, List.mem_range, Bool.not_eq_true', List.isEmpty_eq_false_iff_exists_mem,
    mem_ends]
  constructor
  · rintro ⟨i, hi, j, b, hb, hj⟩
    exact ⟨b, hb, i, j, by omega, hj⟩
  · rintro ⟨b, hb, i, j, hi, hj⟩
    exact ⟨i, by omega, j, b, hb, hj⟩

/-- A match of a sequence of atoms is an occurrence of its text. -/
lemma of_mem_seqEnds {b : List Atom} {i j : ℕ} (h : j ∈ seqEnds isWord hay b i) :
    j = i + (text b).length ∧ hay.drop i = text b ++ hay.drop j := by
  induction b generalizing i with
  | nil =>
    obtain rfl : j = i := by simpa [seqEnds] using h
    exact ⟨rfl, rfl⟩
  | cons a b ih =>
    obtain ⟨k, hk, hj⟩ := List.mem_flatMap.mp h
    obtain ⟨hlength, hrest⟩ := ih hj
    cases a with
    | char c =>
      simp only [Atom.ends] at hk
      split_ifs at hk with hc
      · obtain rfl : k = i + 1 := by simpa using hk
        obtain ⟨hlt, hget⟩ := List.getElem?_eq_some_iff.mp hc
        have htext : text (.char c :: b) = c :: text b := rfl
        refine ⟨by rw [htext, List.length_cons]; omega, ?_⟩
        rw [List.drop_eq_getElem_cons hlt, hget, hrest]
        rfl
      · simp at hk
    | startText | endText | wordStart | wordEnd =>
      simp only [Atom.ends] at hk
      split_ifs at hk
      · obtain rfl : k = i := by simpa using hk
        exact ⟨hlength, hrest⟩
      · simp at hk

lemma mem_seqEnds_char {c : Char} {rest : List Char} {i : ℕ} (h : hay.drop i = c :: rest) (b : List Atom) (j : ℕ) :
    j ∈ seqEnds isWord hay (.char c :: b) i ↔ j ∈ seqEnds isWord hay b (i + 1) := by
  have hc : hay[i]? = some c := by
    have hget := congrArg (fun l => l[0]?) h
    simpa using hget
  simp [seqEnds, Atom.ends, hc]

variable (isWord) in
/-- A sequence of characters matches where its text occurs. -/
lemma mem_seqEnds_of_chars {b : List Atom} (hb : ∀ a ∈ b, ∃ c, a = .char c) {i : ℕ} {rest : List Char}
    (h : hay.drop i = text b ++ rest) : ∃ j, j ∈ seqEnds isWord hay b i := by
  induction b generalizing i with
  | nil => exact ⟨i, by simp [seqEnds]⟩
  | cons a b ih =>
    obtain ⟨c, rfl⟩ := hb a (by simp)
    have hcons : hay.drop i = c :: (text b ++ rest) := h
    have hrest : hay.drop (i + 1) = text b ++ rest := by
      rw [← List.tail_drop, hcons, List.tail_cons]
    obtain ⟨j, hj⟩ := ih (fun a ha => hb a (List.mem_cons_of_mem _ ha)) hrest
    exact ⟨j, (mem_seqEnds_char hcons b j).mpr hj⟩

lemma holds_of_chars {b : List Atom} (hb : ∀ a ∈ b, ∃ c, a = .char c) : holds isWord b = true := by
  have hwhole : (text b).drop 0 = text b ++ [] := (List.append_nil _).symm
  obtain ⟨j, hj⟩ := mem_seqEnds_of_chars isWord hb hwhole
  simp only [holds, Bool.not_eq_true', List.isEmpty_eq_false_iff_exists_mem]
  exact ⟨j, hj⟩

lemma mem_seqEnds_startText (b : List Atom) (i j : ℕ) :
    j ∈ seqEnds isWord hay (.startText :: b) i ↔ i = 0 ∧ j ∈ seqEnds isWord hay b i := by
  by_cases hi : i = 0 <;> simp [seqEnds, Atom.ends, hi]

lemma mem_seqEnds_endText (i j : ℕ) : j ∈ seqEnds isWord hay [.endText] i ↔ i = hay.length ∧ j = i := by
  by_cases hi : i = hay.length <;> simp [seqEnds, Atom.ends, hi]

/-- A branch between anchors matches its own text and no other. -/
lemma anchored_match (b : List Atom) :
    (∃ i j, i ≤ hay.length ∧ j ∈ seqEnds isWord hay (.startText :: (b ++ [.endText])) i) ↔
      text b = hay ∧ holds isWord b = true := by
  simp only [mem_seqEnds_startText, mem_seqEnds_append, mem_seqEnds_endText, holds, Bool.not_eq_true',
    List.isEmpty_eq_false_iff_exists_mem]
  constructor
  · rintro ⟨_, _, -, rfl, k, hk, hend, -⟩
    have htext : text b = hay := by
      obtain ⟨-, hdrop⟩ := of_mem_seqEnds hk
      rw [hend, List.drop_length, List.append_nil, List.drop_zero] at hdrop
      exact hdrop.symm
    exact ⟨htext, k, by rw [htext]; exact hk⟩
  · rintro ⟨rfl, k, hk⟩
    obtain ⟨hlength, -⟩ := of_mem_seqEnds hk
    rw [zero_add] at hlength
    exact ⟨0, k, Nat.zero_le _, rfl, k, hk, hlength, rfl⟩

end Language

end CloudTrailFilter.RegexSyntax
