import CloudTrailFilter.Cli.Filterer
import CloudTrailFilter.Lib.Split

/-!
# Paths that are put together

How the components of a path follow from those of its parts: pushing a name appends it, and joining
a relative path appends its components. Without symbolic links a path names the file that its
components lead to.
-/

namespace CloudTrailFilter.Cli
open Split

section Components

/-- What a part between slashes stands for. -/
def partComponent (part : List Char) : Option Component :=
  if part = [] ∨ part = ['.'] then none
  else if part = ['.', '.'] then some .parentDir else some (.normal (String.ofList part))

def partComponents (cs : List Char) : Path := (cs.splitOn '/').filterMap partComponent

/-- The component that comes before all parts. -/
def frontComponent (cs : List Char) : Path :=
  if cs.head? = some '/' then [.rootDir] else if (cs.splitOn '/').head? = some ['.'] then [.curDir] else []

lemma Path.new_eq (s : String) : Path.new s = frontComponent s.toList ++ partComponents s.toList := by
  have hslash : s.startsWith "/" = true ↔ s.toList.head? = some '/' := by
    rw [startsWith_slash, List.head?_eq_some_iff]
  have heq : ∀ part literal : List Char, String.ofList part = String.ofList literal ↔ part = literal := by
    intro part literal
    exact String.ofList_inj
  have hpart : (fun part : String => if part = "" ∨ part = "." then none
      else if part = ".." then some Component.parentDir else some (.normal part)) ∘ String.ofList =
      partComponent := by
    funext part
    simp only [Function.comp, partComponent, show "" = String.ofList [] from rfl,
      show "." = String.ofList ['.'] from rfl, show ".." = String.ofList ['.', '.'] from rfl, heq]
  have hhead : (s.splitOn "/").head? = some "." ↔ (s.toList.splitOn '/').head? = some ['.'] := by
    rw [splitOn_slash, List.head?_map, Option.map_eq_some_iff]
    constructor
    · rintro ⟨part, hpart, hdot⟩
      rw [hpart, (heq part ['.']).mp hdot]
    · intro h
      exact ⟨['.'], h, rfl⟩
  unfold Path.new frontComponent partComponents
  simp only [hslash, hhead]
  rw [splitOn_slash s, List.filterMap_map, hpart]

lemma partComponents_append (xs ys : List Char) :
    partComponents (xs ++ '/' :: ys) = partComponents xs ++ partComponents ys := by
  rw [partComponents, List.splitOn_append_cons_self, List.filterMap_append]
  rfl

/-- The text before a slash decides on the front. -/
lemma frontComponent_append {xs : List Char} (hne : xs ≠ []) (ys : List Char) :
    frontComponent (xs ++ '/' :: ys) = frontComponent xs := by
  obtain ⟨x, xs, rfl⟩ := List.exists_cons_of_ne_nil hne
  unfold frontComponent
  rw [List.splitOn_append_cons_self, List.head?_append_of_ne_nil _ (List.splitOn_ne_nil _ _)]
  rfl

/-- A name that stands for itself. -/
structure ProperName (name : String) : Prop where
  nonempty : name.toList ≠ []
  noSlash : '/' ∉ name.toList
  notDot : name.toList ≠ ['.']
  notDotDot : name.toList ≠ ['.', '.']

lemma ProperName.new {name : String} (h : ProperName name) : Path.new name = [.normal name] := by
  have hparts : name.toList.splitOn '/' = [name.toList] := List.splitOn_eq_singleton h.noSlash
  have hfront : name.toList.head? ≠ some '/' := by
    intro hhead
    exact h.noSlash (List.mem_of_mem_head? hhead)
  rw [Path.new_eq, frontComponent, partComponents, hparts, if_neg hfront]
  simp [partComponent, h.nonempty, h.notDot, h.notDotDot]

/-- The components of a path that are names are proper. -/
lemma properName_of_mem {s name : String} (h : Component.normal name ∈ Path.new s) : ProperName name := by
  have hfront : Component.normal name ∉ frontComponent s.toList := by
    unfold frontComponent
    split_ifs <;> simp
  rw [Path.new_eq] at h
  obtain ⟨part, hpart, hname⟩ := List.mem_filterMap.mp ((List.mem_append.mp h).resolve_left hfront)
  unfold partComponent at hname
  split_ifs at hname with hskip hup
  · simp at hname
  · simp only [Option.some.injEq, Component.normal.injEq] at hname
    have htoList : name.toList = part := by rw [← hname, String.toList_ofList]
    push Not at hskip
    refine ⟨?_, ?_, ?_, ?_⟩ <;> rw [htoList]
    · exact hskip.1
    · exact notMem_of_mem_splitOn hpart
    · exact hskip.2
    · exact hup

/-- A path of names has no front. -/
lemma front_of_names {s : String} {names : List String} (h : Path.new s = names.map .normal) :
    frontComponent s.toList = [] := by
  rw [Path.new_eq] at h
  unfold frontComponent at h ⊢
  split_ifs at h ⊢
  · cases names <;> simp at h
  · cases names <;> simp at h
  · rfl

end Components

section Push

/-- `PathBuf::push`, and `Path::join` on a copy: an absolute path replaces what is there. -/
def PathBuf.push (buf path : String) : String :=
  if path.toList.head? = some '/' then path
  else if buf.toList.getLast?.any (· ≠ '/') then buf ++ "/" ++ path
  else buf ++ path

/-- A path that starts with a name goes on from where it is joined. -/
lemma new_push {path : String} (hfront : frontComponent path.toList = []) (buf : String) :
    Path.new (PathBuf.push buf path) = Path.new buf ++ Path.new path := by
  have hhead : path.toList.head? ≠ some '/' := by
    intro h
    simp [frontComponent, h] at hfront
  have hempty : partComponents [] = [] := rfl
  rw [PathBuf.push, if_neg hhead, Path.new_eq path, hfront, List.nil_append]
  rcases List.eq_nil_or_concat buf.toList with hnil | ⟨init, last, hlast⟩
  · have hbuf : buf = "" := String.ext hnil
    have hnew : Path.new "" = [] := by
      rw [Path.new_eq]
      rfl
    rw [hbuf, if_neg (by simp), String.empty_append, Path.new_eq, hfront, hnew]
  rw [List.concat_eq_append] at hlast
  by_cases hslash : last = '/'
  · subst hslash
    have htext : (buf ++ path).toList = init ++ '/' :: path.toList := by simp [hlast]
    rw [if_neg (by simp [hlast]), Path.new_eq, Path.new_eq, htext, hlast, partComponents_append,
      partComponents_append, hempty, List.append_nil, List.append_assoc]
    congr 1
    rcases init with _ | ⟨c, init⟩
    · rfl
    · rw [frontComponent_append (List.cons_ne_nil _ _), frontComponent_append (List.cons_ne_nil _ _)]
  · have htext : (buf ++ "/" ++ path).toList = buf.toList ++ '/' :: path.toList := by simp
    have hne : buf.toList ≠ [] := by simp [hlast]
    rw [if_pos (by simp [hlast, hslash]), Path.new_eq, Path.new_eq, htext, partComponents_append,
      frontComponent_append hne, List.append_assoc]

lemma ProperName.front {name : String} (h : ProperName name) : frontComponent name.toList = [] := by
  have hparts : name.toList.splitOn '/' = [name.toList] := List.splitOn_eq_singleton h.noSlash
  have hhead : name.toList.head? ≠ some '/' := fun hhead => h.noSlash (List.mem_of_mem_head? hhead)
  rw [frontComponent, if_neg hhead, hparts]
  simp [h.notDot]

/-- Names that are pushed one after the other are the components that are added. -/
lemma new_foldl_push {names : List String} (h : ∀ name ∈ names, ProperName name) (buf : String) :
    Path.new (names.foldl PathBuf.push buf) = Path.new buf ++ names.map .normal := by
  induction names generalizing buf with
  | nil => simp
  | cons name names ih =>
    have hname := h name List.mem_cons_self
    rw [List.foldl_cons, ih (fun n hn => h n (List.mem_cons_of_mem _ hn)), new_push hname.front, hname.new]
    simp

end Push

section Files

def follow (dir : List String) : Component → List String
  | .rootDir => []
  | .curDir => dir
  | .parentDir => dir.dropLast
  | .normal name => dir ++ [name]

/-- The file that a path names, from a working directory and without symbolic links. -/
def Path.resolve (cwd : List String) (path : Path) : List String := path.foldl follow cwd

lemma resolve_append (cwd : List String) (p q : Path) : Path.resolve cwd (p ++ q) = Path.resolve (p.resolve cwd) q :=
  List.foldl_append

lemma resolve_names (cwd names : List String) : Path.resolve cwd (names.map .normal) = cwd ++ names := by
  induction names generalizing cwd with
  | nil => simp [Path.resolve]
  | cons name names ih =>
    have hstep : Path.resolve cwd ((name :: names).map .normal) = Path.resolve (cwd ++ [name]) (names.map .normal) := rfl
    rw [hstep, ih, List.append_assoc, List.singleton_append]

def absolute (names : List String) : Path := .rootDir :: names.map .normal

/-- A file system without symbolic links: the canonical form of a path that exists is that of the
file it names. -/
def LinkFree (cwd : List String) (canonicalize : Path → Option Path) : Prop :=
  ∀ p q, canonicalize p = some q → q = absolute (p.resolve cwd)

/-- What the guard compares is the file as well, when it finds anything to compare. -/
lemma canonical_eq {cwd : List String} {canonicalize : Path → Option Path} (hfs : LinkFree cwd canonicalize) {p q : Path}
    (h : canonical canonicalize p = some q) : q = absolute (p.resolve cwd) := by
  unfold canonical at h
  cases hp : canonicalize p with
  | some q' =>
    simp only [hp, Option.some.injEq] at h
    rw [← h]
    exact hfs p q' hp
  | none =>
    simp only [hp, Option.bind_eq_bind, Option.bind_eq_some_iff] at h
    obtain ⟨parent, hparent, dir, hdir, name, hname, hq⟩ := h
    have hlast : p.getLast? = some (.normal name) := by
      unfold Path.fileName at hname
      split at hname
      · cases hname
        assumption
      · simp at hname
    have hsplit : p = parent ++ [.normal name] := by
      unfold Path.parent at hparent
      rw [hlast] at hparent
      simp only [Option.some.injEq] at hparent
      rw [← hparent]
      exact (List.dropLast_append_getLast? _ hlast).symm
    simp only [Option.pure_def, Option.some.injEq] at hq
    rw [← hq, hfs parent dir hdir, hsplit, resolve_append]
    simp [absolute, Path.resolve, follow]

lemma absolute_inj {a b : List String} : absolute a = absolute b ↔ a = b := by
  simp [absolute, List.map_inj_right, Component.normal.injEq]

end Files

end CloudTrailFilter.Cli
