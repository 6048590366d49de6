import CloudTrailFilter.Filter.Engine
import CloudTrailFilter.Lib.RegexSyntax

/-!
# Patterns that are sets of literals

`extract_literals` against the documented syntax of patterns. What it reads is a pattern of atoms
between anchors, with at most one group of alternatives; it takes an escaped `<` or `>` for a
literal, where the syntax has an assertion about a word.
-/

namespace CloudTrailFilter.Filter
open RegexSyntax

section Reading

/-- What `unescape_literal` takes an atom for. -/
def literalReading (b : List Atom) : List Char :=
  b.filterMap (fun a =>
    match a with
    | .char c => some c
    | .wordStart => some '<'
    | .wordEnd => some '>'
    | .startText | .endText => none)

/-- An atom that `unescape_literal` lets through. -/
def Atom.Unanchored (a : Atom) : Prop := a ≠ .startText ∧ a ≠ .endText

/-- A piece of a pattern that reads as these tokens wherever it stands, or spoils the pattern. -/
def Lexes (piece : List Char) (tokens : List Token) : Prop :=
  (∀ rest, lex (piece ++ rest) = .error .rejected) ∨
    ∀ rest, lex (piece ++ rest) = (lex rest).map (tokens ++ ·)

lemma Lexes.append {a b : List Char} {s t : List Token} (ha : Lexes a s) (hb : Lexes b t) :
    Lexes (a ++ b) (s ++ t) := by
  rcases ha with ha | ha
  · left
    intro rest
    rw [List.append_assoc]
    exact ha (b ++ rest)
  · rcases hb with hb | hb
    · left
      intro rest
      rw [List.append_assoc, ha, hb]
      rfl
    · right
      intro rest
      rw [List.append_assoc, ha, hb]
      cases lex rest with
      | error e => rfl
      | ok ts => simp [Except.map]

lemma Lexes.of_cons {c : Char} {token : Token} (h : ∀ rest, lex (c :: rest) = (lex rest).map (token :: ·)) :
    Lexes [c] [token] := .inr h

lemma lexes_nil : Lexes [] [] := by
  right
  intro rest
  rw [List.nil_append]
  cases lex rest <;> rfl

lemma lex_plain {c : Char} {rest : List Char} (hslash : c ≠ '\\') (hflag : c = '(' → rest.head? ≠ some '?') :
    lex (c :: rest) = (do
      let token ← plainToken c
      let tokens ← lex rest
      .ok (token :: tokens)) := by
  rw [lex.eq_def]
  split
  · rename_i h
    simp at h
  · rename_i h
    simp only [List.cons.injEq] at h
    exact (hslash h.1).elim
  · rename_i h
    simp only [List.cons.injEq] at h
    exact (hslash h.1).elim
  · rename_i h
    simp only [List.cons.injEq] at h
    exact (hflag h.1 (by simp [h.2])).elim
  · rename_i h
    simp only [List.cons.injEq] at h
    rw [h.1, h.2]

lemma literalReading_append (a b : List Atom) : literalReading (a ++ b) = literalReading a ++ literalReading b :=
  List.filterMap_append

/-- An escape that `unescape_literal` takes for a literal is one, an assertion about a word, or an
error. -/
lemma lexes_escaped {c : Char} (h : c.isAlphanum = false) :
    ∃ a, Atom.Unanchored a ∧ literalReading [a] = [c] ∧ Lexes ['\\', c] [.atom a] := by
  have hlex : ∀ a, escapedToken c = .ok (.atom a) → Lexes ['\\', c] [.atom a] := by
    intro a ha
    right
    intro rest
    simp only [List.cons_append, List.nil_append, lex, ha]
    cases lex rest <;> rfl
  by_cases hlt : c = '<'
  · subst hlt
    exact ⟨.wordStart, by simp [Atom.Unanchored], rfl, hlex _ rfl⟩
  · by_cases hgt : c = '>'
    · subst hgt
      exact ⟨.wordEnd, by simp [Atom.Unanchored], rfl, hlex _ rfl⟩
    · refine ⟨.char c, by simp [Atom.Unanchored], rfl, ?_⟩
      by_cases hascii : c.toNat < 128
      · apply hlex
        simp [escapedToken, hlt, hgt, h, hascii]
      · left
        intro rest
        simp [lex, escapedToken, hlt, hgt, h, hascii, bind, Except.bind]

lemma lexes_literal {c : Char} (hslash : c ≠ '\\') (h : c ∉ metacharacters) :
    Lexes [c] [.atom (.char c)] := by
  simp only [metacharacters, List.mem_cons, List.not_mem_nil, or_false, not_or] at h
  have hplain : plainToken c = .ok (.atom (.char c)) := by
    simp [plainToken, notCovered, h]
  apply Lexes.of_cons
  intro rest
  rw [lex_plain hslash (fun hopen => (h.2.2.2.2.2.2.2.2.1 hopen).elim), hplain]
  cases lex rest <;> rfl

/-- What `unescape_literal` accepts is a sequence of atoms. -/
theorem unescapeLiteral_atoms {cs lit : List Char} (h : unescapeLiteral cs = some lit) :
    ∃ b, (∀ a ∈ b, Atom.Unanchored a) ∧ literalReading b = lit ∧ Lexes cs (atomTokens b) := by
  fun_induction unescapeLiteral cs generalizing lit with
  | case1 =>
    obtain rfl : [] = lit := by simpa using h
    exact ⟨[], by simp, rfl, lexes_nil⟩
  | case2 => simp at h
  | case3 escaped rest halnum => simp at h
  | case4 escaped rest halnum ih =>
    obtain ⟨lit', hlit, rfl⟩ := Option.map_eq_some_iff.mp h
    obtain ⟨b, hb, rfl, hrest⟩ := ih hlit
    obtain ⟨a, ha, hread, hfirst⟩ := lexes_escaped (by simpa using halnum)
    refine ⟨a :: b, by simpa using ⟨ha, hb⟩, ?_, hfirst.append hrest⟩
    have happend := literalReading_append [a] b
    rw [hread] at happend
    exact happend
  | case5 c rest hslash hother hmeta => simp at h
  | case6 c rest hslash hother hmeta ih =>
    obtain ⟨lit', hlit, rfl⟩ := Option.map_eq_some_iff.mp h
    obtain ⟨b, hb, rfl, hrest⟩ := ih hlit
    have hc : c ≠ '\\' := by
      rintro rfl
      cases rest with
      | nil => exact hslash rfl rfl
      | cons escaped rest => exact hother escaped rest rfl rfl
    refine ⟨.char c :: b, by simpa [Atom.Unanchored] using hb, rfl, ?_⟩
    exact (lexes_literal hc hmeta).append hrest

lemma lexes_bar : Lexes ['|'] [.bar] := by
  apply Lexes.of_cons
  intro rest
  rw [lex_plain (by decide) (fun hopen => by simp at hopen)]
  cases lex rest <;> rfl

/-- The alternatives of a group, each read by `unescape_literal`. -/
lemma alternatives_atoms {pieces : List (List Char)} {alts : List (List Char)}
    (h : pieces.mapM unescapeLiteral = some alts) :
    ∃ branches : List (List Atom), (∀ b ∈ branches, ∀ a ∈ b, Atom.Unanchored a) ∧
      branches.length = pieces.length ∧ branches.map literalReading = alts ∧
      Lexes (['|'].intercalate pieces) (barTokens branches) := by
  induction pieces generalizing alts with
  | nil =>
    obtain rfl : [] = alts := by simpa using h
    exact ⟨[], by simp, rfl, rfl, lexes_nil⟩
  | cons piece pieces ih =>
    simp only [List.mapM_cons, Option.bind_eq_bind, Option.bind_eq_some_iff, Option.pure_def,
      Option.some.injEq] at h
    obtain ⟨lit, hlit, alts', halts, rfl⟩ := h
    obtain ⟨b, hb, rfl, hpiece⟩ := unescapeLiteral_atoms hlit
    obtain ⟨branches, hbranches, hlength, rfl, hrest⟩ := ih halts
    refine ⟨b :: branches, by simpa using ⟨hb, hbranches⟩, by simp [hlength], rfl, ?_⟩
    cases pieces with
    | nil =>
      obtain rfl : branches = [] := List.length_eq_zero_iff.mp hlength
      rw [List.intercalate_singleton]
      exact hpiece
    | cons next pieces =>
      cases branches with
      | nil => simp at hlength
      | cons b' branches =>
        rw [List.intercalate_cons_cons]
        have htokens : barTokens (b :: b' :: branches) = atomTokens b ++ ([.bar] ++ barTokens (b' :: branches)) := rfl
        rw [htokens, List.append_assoc]
        exact hpiece.append (lexes_bar.append hrest)

/-- A group reads as its contents between brackets, unless it begins with a flag. -/
lemma lexes_group {body : List Char} {tokens : List Token} (hbody : Lexes body tokens)
    (hflag : body.head? ≠ some '?') : Lexes ('(' :: (body ++ [')'])) (.open :: (tokens ++ [.close])) := by
  have hopen : ∀ rest, lex ('(' :: (body ++ ')' :: rest)) = (lex (body ++ ')' :: rest)).map (.open :: ·) := by
    intro rest
    have hhead : (body ++ ')' :: rest).head? ≠ some '?' := by
      cases body with
      | nil => simp
      | cons c body => simpa using hflag
    rw [lex_plain (by decide) (fun _ => hhead)]
    cases lex (body ++ ')' :: rest) <;> rfl
  have hclose : Lexes [')'] [.close] := by
    apply Lexes.of_cons
    intro rest
    rw [lex_plain (by decide) (fun h => by simp at h)]
    cases lex rest <;> rfl
  rcases hbody.append hclose with hrejected | htokens
  · left
    intro rest
    have hrest := hrejected rest
    rw [List.append_assoc, List.singleton_append] at hrest
    rw [List.cons_append, List.append_assoc, List.singleton_append, hopen, hrest]
    rfl
  · right
    intro rest
    have hrest := htokens rest
    rw [List.append_assoc, List.singleton_append] at hrest
    rw [List.cons_append, List.append_assoc, List.singleton_append, hopen, hrest]
    cases lex rest <;> rfl

section Parens

lemma mem_findUnescapedParens {escaped : Bool} {i p : ℕ} {c : Char} {cs : List Char}
    (h : (p, c) ∈ findUnescapedParens escaped i cs) : i ≤ p ∧ cs[p - i]? = some c := by
  fun_induction findUnescapedParens escaped i cs with
  | case1 => simp at h
  | case2 i c' rest ih =>
    obtain ⟨hle, hget⟩ := ih h
    have hsub : p - i = p - (i + 1) + 1 := by omega
    exact ⟨by omega, by rw [hsub, List.getElem?_cons_succ, hget]⟩
  | case3 i rest ih =>
    obtain ⟨hle, hget⟩ := ih h
    have hsub : p - i = p - (i + 1) + 1 := by omega
    exact ⟨by omega, by rw [hsub, List.getElem?_cons_succ, hget]⟩
  | case4 i c' rest hslash hparen ih =>
    rcases List.mem_cons.mp h with heq | h
    · obtain ⟨rfl, rfl⟩ := Prod.mk.inj heq
      simp
    · obtain ⟨hle, hget⟩ := ih h
      have hsub : p - i = p - (i + 1) + 1 := by omega
      exact ⟨by omega, by rw [hsub, List.getElem?_cons_succ, hget]⟩
  | case5 i c' rest hslash hparen ih =>
    obtain ⟨hle, hget⟩ := ih h
    have hsub : p - i = p - (i + 1) + 1 := by omega
    exact ⟨by omega, by rw [hsub, List.getElem?_cons_succ, hget]⟩

lemma findUnescapedParens_sorted (escaped : Bool) (i : ℕ) (cs : List Char) :
    (findUnescapedParens escaped i cs).Pairwise (·.1 < ·.1) := by
  fun_induction findUnescapedParens escaped i cs with
  | case1 => exact List.Pairwise.nil
  | case2 i c rest ih => exact ih
  | case3 i rest ih => exact ih
  | case4 i c rest hslash hparen ih =>
    apply List.Pairwise.cons _ ih
    rintro ⟨p, c'⟩ hmem
    have hle := (mem_findUnescapedParens hmem).1
    change i < p
    omega
  | case5 i c rest hslash hparen ih => exact ih

/-- The one group cuts the pattern into what precedes it, its contents and what follows. -/
lemma cut_at_group {inner : List Char} {op cl : ℕ}
    (h : findUnescapedParens false 0 inner = [(op, '('), (cl, ')')]) :
    inner = inner.take op ++ ('(' :: ((inner.take cl).drop (op + 1) ++ [')'])) ++ inner.drop (cl + 1) := by
  have hsorted := findUnescapedParens_sorted false 0 inner
  rw [h] at hsorted
  have hlt : op < cl := by simpa using hsorted
  have hopen : inner[op]? = some '(' := by
    have hmem : (op, '(') ∈ findUnescapedParens false 0 inner := by simp [h]
    simpa using (mem_findUnescapedParens hmem).2
  have hclose : inner[cl]? = some ')' := by
    have hmem : (cl, ')') ∈ findUnescapedParens false 0 inner := by simp [h]
    simpa using (mem_findUnescapedParens hmem).2
  obtain ⟨hop, hopget⟩ := List.getElem?_eq_some_iff.mp hopen
  obtain ⟨hcl, hclget⟩ := List.getElem?_eq_some_iff.mp hclose
  calc inner = inner.take op ++ inner.drop op := (List.take_append_drop _ _).symm
    _ = inner.take op ++ '(' :: inner.drop (op + 1) := by rw [List.drop_eq_getElem_cons hop, hopget]
    _ = inner.take op ++ '(' :: ((inner.take cl).drop (op + 1) ++ inner.drop cl) := by
      rw [← List.drop_append_of_le_length (by simp; omega), List.take_append_drop]
    _ = inner.take op ++ '(' :: ((inner.take cl).drop (op + 1) ++ ')' :: inner.drop (cl + 1)) := by
      rw [List.drop_eq_getElem_cons hcl, hclget]
    _ = _ := by simp

end Parens

end Reading

section Shape

lemma stripAnchors_eq {cs inner : List Char} (h : stripAnchors cs = some inner) : cs = '^' :: (inner ++ ['$']) := by
  unfold stripAnchors at h
  split at h
  · rename_i rest
    split at h
    · rename_i hlast
      obtain rfl : rest.dropLast = inner := by simpa using h
      rw [List.dropLast_append_getLast? '$' hlast]
    · simp at h
  · simp at h

lemma parse_anchored {inner : List Char} {tokens : List Token} (h : Lexes inner tokens) :
    parse ('^' :: (inner ++ ['$'])) = .error .rejected ∨
      parse ('^' :: (inner ++ ['$'])) = assemble [] .new (.atom .startText :: (tokens ++ [.atom .endText])) := by
  have hstart : Lexes ['^'] [.atom .startText] := by
    apply Lexes.of_cons
    intro rest
    rw [lex_plain (by decide) (fun hopen => by simp at hopen)]
    cases lex rest <;> rfl
  have hend : Lexes ['$'] [.atom .endText] := by
    apply Lexes.of_cons
    intro rest
    rw [lex_plain (by decide) (fun hopen => by simp at hopen)]
    cases lex rest <;> rfl
  rcases hstart.append (h.append hend) with hrejected | htokens
  · left
    have hlex := hrejected []
    simp only [List.append_nil, List.singleton_append] at hlex
    rw [parse, hlex]
    rfl
  · right
    have hlex := htokens []
    simp only [List.append_nil, List.singleton_append] at hlex
    rw [parse, hlex]
    simp [lex, Except.map, bind, Except.bind]

/-- The anchored text is refused, or parses to these branches between the anchors. -/
def ParsesTo (inner : List Char) (branches : List (List Atom)) : Prop :=
  parse ('^' :: (inner ++ ['$'])) = .error .rejected ∨
    ∃ ast, parse ('^' :: (inner ++ ['$'])) = .ok ast ∧
      ast.branches = branches.map (fun b => .startText :: (b ++ [.endText]))

lemma parsesTo_plain {inner : List Char} {b : List Atom} (hlexes : Lexes inner (atomTokens b)) :
    ParsesTo inner [b] := by
  rcases parse_anchored hlexes with hrejected | hparse
  · exact .inl hrejected
  · right
    obtain ⟨ast, hast, hbranches⟩ := assemble_plain (.startText :: (b ++ [.endText]))
    refine ⟨ast, ?_, hbranches⟩
    rw [hparse, ← hast]
    simp [atomTokens]

lemma parsesTo_group {pre body suf : List Char} {before after : List Atom} {branches : List (List Atom)}
    (hpre : Lexes pre (atomTokens before)) (hbody : Lexes body (barTokens branches))
    (hsuf : Lexes suf (atomTokens after)) (hne : branches ≠ []) (hhead : body.head? ≠ some '?') :
    ParsesTo (pre ++ ('(' :: (body ++ [')'])) ++ suf) (branches.map (fun b => before ++ b ++ after)) := by
  have hlexes := (hpre.append (lexes_group hbody hhead)).append hsuf
  rcases parse_anchored hlexes with hrejected | hparse
  · exact .inl hrejected
  · right
    obtain ⟨ast, hast, hshape⟩ := assemble_group (.startText :: before) (after ++ [.endText]) hne
    refine ⟨ast, ?_, ?_⟩
    · rw [hparse, ← hast]
      simp [atomTokens]
    · rw [hshape, List.map_map]
      apply List.map_congr_left
      intro alt _
      simp

/-- The parenthesis of a pattern without flags opens a plain group. -/
lemma head_of_no_flag {pre body suf : List Char}
    (hflag : ¬ ['(', '?'] <:+: '^' :: ((pre ++ ('(' :: (body ++ [')'])) ++ suf) ++ ['$'])) :
    body.head? ≠ some '?' := by
  intro hq
  apply hflag
  obtain ⟨rest, rfl⟩ : ∃ rest, body = '?' :: rest := by
    cases body with
    | nil => simp at hq
    | cons c rest => exact ⟨rest, by simpa using hq⟩
  exact ⟨'^' :: pre, rest ++ [')'] ++ suf ++ ['$'], by simp⟩

/-- A pattern that `extract_literals` reduces is one engines reject, or a union of alternatives
between anchors, each with its literal. -/
theorem extractLiterals_branches {pattern : String} {literals : List String}
    (h : extractLiterals pattern = some literals) :
    ∃ branches : List (List Atom), (∀ b ∈ branches, ∀ a ∈ b, Atom.Unanchored a) ∧
      literals = branches.map (fun b => String.ofList (literalReading b)) ∧
      (parse pattern.toList = .error .rejected ∨
        ∃ ast, parse pattern.toList = .ok ast ∧
          ast.branches = branches.map (fun b => .startText :: (b ++ [.endText]))) := by
  unfold extractLiterals at h
  split_ifs at h with hflag
  simp only [Option.bind_eq_bind, Option.bind_eq_some_iff] at h
  obtain ⟨inner, hinner, h⟩ := h
  have hpattern := stripAnchors_eq hinner
  rw [hpattern] at hflag ⊢
  split at h
  · -- a plain literal
    obtain ⟨lit, hlit, h⟩ := Option.bind_eq_some_iff.mp h
    obtain ⟨b, hb, rfl, hlexes⟩ := unescapeLiteral_atoms hlit
    exact ⟨[b], by simpa using hb, by simpa using h.symm, parsesTo_plain hlexes⟩
  · -- one group of alternatives
    rename_i op cl hparens
    obtain ⟨pre, hpre, h⟩ := Option.bind_eq_some_iff.mp h
    obtain ⟨suf, hsuf, h⟩ := Option.bind_eq_some_iff.mp h
    split_ifs at h with hpipe
    obtain ⟨alts, halts, h⟩ := Option.bind_eq_some_iff.mp h
    obtain ⟨before, hbefore, rfl, hlexesBefore⟩ := unescapeLiteral_atoms hpre
    obtain ⟨after, hafter, rfl, hlexesAfter⟩ := unescapeLiteral_atoms hsuf
    obtain ⟨branches, hbranches, hlength, rfl, hlexesBody⟩ := alternatives_atoms halts
    have hcut := cut_at_group hparens
    generalize (inner.take cl).drop (op + 1) = body at hcut hlexesBody hlength h
    have hne : branches ≠ [] := by
      rintro rfl
      exact List.splitOn_ne_nil '|' body (List.length_eq_zero_iff.mp hlength.symm)
    rw [List.intercalate_splitOn] at hlexesBody
    rw [hcut] at hflag
    have hparses := parsesTo_group hlexesBefore hlexesBody hlexesAfter hne (head_of_no_flag hflag)
    rw [← hcut] at hparses
    refine ⟨branches.map (fun b => before ++ b ++ after), ?_, ?_, hparses⟩
    · intro b hb a ha
      obtain ⟨alt, halt, rfl⟩ := List.mem_map.mp hb
      rcases List.mem_append.mp ha with ha | ha
      · rcases List.mem_append.mp ha with ha | ha
        · exact hbefore a ha
        · exact hbranches alt halt a ha
      · exact hafter a ha
    · rw [← Option.some.inj h, List.map_map, List.map_map]
      apply List.map_congr_left
      intro alt _
      simp [literalReading_append]
  · simp at h

end Shape

section Exactness
variable {isWord : Char → Bool}

@[simp] lemma text_anchored (b : List Atom) : text (.startText :: (b ++ [.endText])) = text b := by
  simp [text]

@[simp] lemma literalReading_anchored (b : List Atom) :
    literalReading (.startText :: (b ++ [.endText])) = literalReading b := by
  simp [literalReading]

lemma holds_anchored (b : List Atom) : holds isWord (.startText :: (b ++ [.endText])) = holds isWord b := by
  rw [Bool.eq_iff_iff]
  have hmatch := @anchored_match isWord (text b) b
  simp only [true_and] at hmatch
  rw [← hmatch, holds, text_anchored, Bool.not_eq_true', List.isEmpty_eq_false_iff_exists_mem]
  constructor
  · rintro ⟨j, hj⟩
    exact ⟨0, j, Nat.zero_le _, hj⟩
  · rintro ⟨i, j, -, hj⟩
    obtain ⟨rfl, hrest⟩ := (mem_seqEnds_startText _ i j).mp hj
    exact ⟨j, hj⟩

/-- Without an assertion about a word, an alternative is the literal it is taken for. -/
lemma literal_alternative {b : List Atom} (hb : ∀ a ∈ b, Atom.Unanchored a)
    (hword : ¬ (Atom.wordStart ∈ b ∨ Atom.wordEnd ∈ b)) : text b = literalReading b ∧ holds isWord b = true := by
  have hchars : ∀ a ∈ b, ∃ c, a = .char c := by
    intro a ha
    cases a with
    | char c => exact ⟨c, rfl⟩
    | startText => exact ((hb _ ha).1 rfl).elim
    | endText => exact ((hb _ ha).2 rfl).elim
    | wordStart => exact (hword (.inl ha)).elim
    | wordEnd => exact (hword (.inr ha)).elim
  refine ⟨?_, holds_of_chars hchars⟩
  apply List.filterMap_congr
  intro a ha
  obtain ⟨c, rfl⟩ := hchars a ha
  rfl

/-- Each alternative with an assertion about a word is made up for by others: one matches the
literal it is taken for, and one is taken for what it matches, if anything. -/
def WordEscapesShadowed (isWord : Char → Bool) (alternatives : List (List Atom)) : Prop :=
  ∀ b ∈ alternatives, Atom.wordStart ∈ b ∨ Atom.wordEnd ∈ b →
    (∃ b' ∈ alternatives, holds isWord b' = true ∧ text b' = literalReading b) ∧
      (holds isWord b = true → ∃ b' ∈ alternatives, literalReading b' = text b)

lemma wordEscapesShadowed_anchored (branches : List (List Atom)) :
    WordEscapesShadowed isWord (branches.map (fun b => .startText :: (b ++ [.endText]))) ↔
      WordEscapesShadowed isWord branches := by
  simp [WordEscapesShadowed, holds_anchored]

/-- The alternatives match exactly their literals when assertions about words are made up for. -/
lemma literals_exact_iff {branches : List (List Atom)} (hb : ∀ b ∈ branches, ∀ a ∈ b, Atom.Unanchored a) :
    (∀ cs : List Char, (∃ b ∈ branches, text b = cs ∧ holds isWord b = true) ↔
      ∃ b ∈ branches, literalReading b = cs) ↔ WordEscapesShadowed isWord branches := by
  constructor
  · intro hexact b hmem _
    constructor
    · obtain ⟨b', hb', htext, hholds⟩ := (hexact (literalReading b)).mpr ⟨b, hmem, rfl⟩
      exact ⟨b', hb', hholds, htext⟩
    · intro hholds
      exact (hexact (text b)).mp ⟨b, hmem, rfl, hholds⟩
  · intro hshadowed cs
    constructor
    · rintro ⟨b, hmem, rfl, hholds⟩
      by_cases hword : Atom.wordStart ∈ b ∨ Atom.wordEnd ∈ b
      · exact (hshadowed b hmem hword).2 hholds
      · exact ⟨b, hmem, (@literal_alternative isWord b (hb b hmem) hword).1.symm⟩
    · rintro ⟨b, hmem, rfl⟩
      by_cases hword : Atom.wordStart ∈ b ∨ Atom.wordEnd ∈ b
      · obtain ⟨b', hb', hholds, htext⟩ := (hshadowed b hmem hword).1
        exact ⟨b', hb', htext, hholds⟩
      · exact ⟨b, hmem, literal_alternative (hb b hmem) hword⟩

/-- When the literals a pattern is reduced to are exactly the strings it matches. -/
theorem extractLiterals_exact_iff (B : RulesBackend) (hfollows : Follows isWord B.regexBuild) {pattern : String}
    {isMatch : String → Bool} {literals : List String} (hbuild : B.regexBuild pattern = .ok isMatch)
    (hliterals : extractLiterals pattern = some literals) :
    (∀ s, isMatch s = true ↔ s ∈ literals) ↔
      ∀ ast, parse pattern.toList = .ok ast → WordEscapesShadowed isWord ast.branches := by
  obtain ⟨branches, hb, rfl, hparse⟩ := extractLiterals_branches hliterals
  rcases hparse with hrejected | ⟨ast, hast, hbranches⟩
  · exact (hfollows.rejecting pattern isMatch hrejected hbuild).elim
  · have hmatch : ∀ s, isMatch s = true ↔ ∃ b ∈ branches, text b = s.toList ∧ holds isWord b = true := by
      intro s
      rw [hfollows.matching pattern ast isMatch s hast hbuild, Ast.isMatch_iff, hbranches]
      simp only [List.mem_map, exists_exists_and_eq_and, anchored_match]
    have hmem : ∀ s : String, s ∈ branches.map (fun b => String.ofList (literalReading b)) ↔
        ∃ b ∈ branches, literalReading b = s.toList := by
      intro s
      simp only [List.mem_map, ← String.toList_inj, String.toList_ofList]
    have hshadowed : (∀ ast', parse pattern.toList = .ok ast' → WordEscapesShadowed isWord ast'.branches) ↔
        WordEscapesShadowed isWord branches := by
      rw [← wordEscapesShadowed_anchored, ← hbranches, hast]
      simp
    rw [hshadowed, ← literals_exact_iff hb]
    constructor
    · intro hexact cs
      have hs := hexact (String.ofList cs)
      rwa [hmatch, hmem, String.toList_ofList] at hs
    · intro hexact s
      rw [hmatch, hmem]
      exact hexact s.toList

/-- The word characters of ASCII. -/
def asciiWord (c : Char) : Bool := c.isAlphanum || c = '_'

def documentedRegex (pattern : String) : Except String (String → Bool) :=
  match parse pattern.toList with
  | .ok ast => .ok (fun s => ast.isMatch asciiWord s.toList)
  | .error _ => .error "regex parse error"

def documentedBackend : RulesBackend := { sampleBackend with regexBuild := documentedRegex }

lemma documentedRegex_follows : Follows asciiWord documentedRegex := by
  constructor
  · intro pattern ast isMatch text hparse hcompile
    rw [documentedRegex, hparse] at hcompile
    obtain rfl := Except.ok.inj hcompile
    rfl
  · intro pattern isMatch hparse hcompile
    rw [documentedRegex, hparse] at hcompile
    simp at hcompile

theorem extractLiterals_exact_iff_sample :
    ∃ isMatch, documentedBackend.regexBuild "^(kms|s3)\\.amazonaws\\.com$" = .ok isMatch ∧
      ((∀ s, isMatch s = true ↔ s ∈ ["kms.amazonaws.com", "s3.amazonaws.com"]) ↔
        ∀ ast, parse "^(kms|s3)\\.amazonaws\\.com$".toList = .ok ast →
          WordEscapesShadowed asciiWord ast.branches) := by
  have hbuild : documentedBackend.regexBuild "^(kms|s3)\\.amazonaws\\.com$" =
      .ok (fun s => (match parse "^(kms|s3)\\.amazonaws\\.com$".toList with
        | .ok ast => ast.isMatch asciiWord s.toList
        | .error _ => false)) := by
    rfl
  exact ⟨_, hbuild, extractLiterals_exact_iff documentedBackend documentedRegex_follows hbuild (by decide +kernel)⟩

/-- An escaped `<` begins a word. The pattern matches a string that its literals leave out. -/
theorem extractLiterals_word_escape :
    Follows asciiWord documentedBackend.regexBuild ∧
      ∃ isMatch, documentedBackend.regexBuild "^\\<kms$" = .ok isMatch ∧
        extractLiterals "^\\<kms$" = some ["<kms"] ∧ isMatch "kms" = true ∧ isMatch "<kms" = false := by
  refine ⟨documentedRegex_follows, _, rfl, by decide +kernel, by decide +kernel, by decide +kernel⟩

end Exactness

end CloudTrailFilter.Filter
