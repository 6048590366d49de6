import CloudTrailFilter.Cli.Paths

/-!
# Batches

A filter run over a directory or a prefix enumerates its objects, mirrors the relative key of each
one into the destination, and filters one object after the other. On a local destination a relative
key must stay under the root, and two keys of the same names go to the same file.
-/

namespace CloudTrailFilter.Cli
open CloudTrailFilter.Json CloudTrailFilter.Filter CloudTrailFilter.Process Fallible
open CloudTrailFilter.Pipeline (Attempt)

section Keys

/-- The directory of an S3 prefix: everything up to its last slash. -/
def dirPrefix (keyPrefix : String) : String :=
  String.ofList (keyPrefix.toList.reverse.dropWhile (· ≠ '/')).reverse

/-- A prefix and a relative key as an S3 key. -/
def joinKey (keyPrefix rel : String) : String :=
  if keyPrefix = "" then rel
  else String.ofList (keyPrefix.toList.reverse.dropWhile (· = '/')).reverse ++ "/" ++ rel

/-- The loop over the components. `rel` is in the error as `Debug` prints it. -/
def containParts (debug : String → String) (rel safe : String) : Path → Except String String
  | [] => .ok safe
  | .normal part :: rest => containParts debug rel (PathBuf.push safe part) rest
  | _ :: _ => .error ("unsafe relative key " ++ debug rel ++ ": escapes the destination root")

def containRel (debug : String → String) (rel : String) : Except String String :=
  containParts debug rel "" (Path.new rel)

/-- The key of an object at the destination. -/
def batchDestKey (debug : String → String) (dst : Location) (rel : String) : Except String String :=
  match dst with
  | .local root => do
    let safeRel ← containRel debug rel
    pure (PathBuf.push root safeRel)
  | .s3 _ keyPrefix => pure (joinKey keyPrefix rel)

end Keys

section Containment
variable {debug : String → String} {rel : String}

def Component.isNormal : Component → Bool
  | .normal _ => true
  | _ => false

lemma containParts_ok_iff {safe result : String} {path : Path} : containParts debug rel safe path = .ok result ↔
    ∃ names : List String, path = names.map .normal ∧ result = names.foldl PathBuf.push safe := by
  induction path generalizing safe with
  | nil =>
    simp only [containParts, Except.ok.injEq]
    constructor
    · rintro rfl
      exact ⟨[], rfl, rfl⟩
    · rintro ⟨names, hnil, rfl⟩
      rw [List.map_eq_nil_iff.mp hnil.symm]
      rfl
  | cons c rest ih =>
    have hhead : ∀ names : List String, c :: rest = names.map .normal →
        ∃ part parts, names = part :: parts ∧ c = .normal part ∧ rest = parts.map .normal := by
      rintro (_ | ⟨part, parts⟩) h
      · simp at h
      · exact ⟨part, parts, rfl, (List.cons.inj h).1, (List.cons.inj h).2⟩
    cases c with
    | normal part =>
      rw [containParts, ih]
      constructor
      · rintro ⟨names, rfl, rfl⟩
        exact ⟨part :: names, rfl, rfl⟩
      · rintro ⟨names, hnames, rfl⟩
        obtain ⟨part', parts, rfl, hpart, hrest⟩ := hhead names hnames
        obtain rfl := Component.normal.inj hpart
        exact ⟨parts, hrest, rfl⟩
    | rootDir | curDir | parentDir =>
      simp only [containParts, reduceCtorEq, false_iff]
      rintro ⟨names, hnames, -⟩
      obtain ⟨_, _, -, hc, -⟩ := hhead names hnames
      simp at hc

/-- A relative key is safe if all of its components are names. -/
lemma containRel_ok_iff {result : String} : containRel debug rel = .ok result ↔
    ∃ names : List String, Path.new rel = names.map .normal ∧ result = names.foldl PathBuf.push "" := containParts_ok_iff

/-- A key is refused for a root, for a `.` that comes first, and for a `..` anywhere. -/
lemma all_normal_iff (s : String) : (∃ names : List String, Path.new s = names.map .normal) ↔
    s.startsWith "/" = false ∧ .parentDir ∉ Path.new s ∧ (Path.new s).head? ≠ some .curDir := by
  have hslash : s.startsWith "/" = true ↔ s.toList.head? = some '/' := by
    rw [Split.startsWith_slash, List.head?_eq_some_iff]
  have hparts : ∀ c ∈ partComponents s.toList, c = .parentDir ∨ ∃ name, c = .normal name := by
    intro c hc
    obtain ⟨part, -, hpart⟩ := List.mem_filterMap.mp hc
    unfold partComponent at hpart
    split_ifs at hpart
    · exact .inl (Option.some.inj hpart).symm
    · exact .inr ⟨_, (Option.some.inj hpart).symm⟩
  rw [← Bool.not_eq_true, hslash, Path.new_eq]
  constructor
  · rintro ⟨names, hnames⟩
    refine ⟨fun habs => ?_, fun hup => ?_, fun hdot => ?_⟩
    · rw [frontComponent, if_pos habs] at hnames
      cases names <;> simp at hnames
    · rw [hnames] at hup
      simp at hup
    · rw [hnames] at hdot
      cases names <;> simp at hdot
  · rintro ⟨habs, hup, hdot⟩
    have hfront : frontComponent s.toList = [] := by
      rw [frontComponent, if_neg habs] at hdot ⊢
      split_ifs at hdot ⊢ with hcur
      · simp at hdot
      · rfl
    rw [hfront, List.nil_append] at hup ⊢
    have hrange : partComponents s.toList ∈ Set.range (List.map Component.normal) := by
      rw [Set.range_list_map]
      intro c hc
      rcases hparts c hc with rfl | ⟨name, rfl⟩
      · exact (hup hc).elim
      · exact ⟨name, rfl⟩
    obtain ⟨names, hnames⟩ := hrange
    exact ⟨names, hnames.symm⟩

/-- A safe key keeps its components, and joined to a root it adds them to those of the root. -/
lemma contained_push {result : String} (h : containRel debug rel = .ok result) (root : String) :
    ∃ names : List String, Path.new rel = names.map .normal ∧ Path.new result = names.map .normal ∧
      Path.new (PathBuf.push root result) = Path.new root ++ names.map .normal := by
  obtain ⟨names, hnames, rfl⟩ := containRel_ok_iff.mp h
  have hproper : ∀ name ∈ names, ProperName name := by
    intro name hname
    apply @properName_of_mem rel
    rw [hnames]
    exact List.mem_map_of_mem hname
  have hempty : Path.new "" = [] := by
    rw [Path.new_eq]
    rfl
  have hresult : Path.new (names.foldl PathBuf.push "") = names.map .normal := by
    rw [new_foldl_push hproper, hempty, List.nil_append]
  refine ⟨names, hnames, hresult, ?_⟩
  rw [new_push (front_of_names hresult) root, hresult]

/-- A local destination stays under its root. A relative key is safe exactly if it is not absolute, has
no `..` and does not start with `.`, and then its names follow the components of the root. -/
theorem batch_dest_contained (debug : String → String) (rel root : String) :
    ((∃ safe, containRel debug rel = .ok safe) ↔
      rel.startsWith "/" = false ∧ Component.parentDir ∉ Path.new rel ∧ (Path.new rel).head? ≠ some .curDir) ∧
    (∀ safe, containRel debug rel = .ok safe →
      Path.new safe = (Path.new rel).filter Component.isNormal ∧
      (∀ c ∈ Path.new safe, c.isNormal = true) ∧
      Path.new (PathBuf.push root safe) = Path.new root ++ Path.new safe) ∧
    ∀ dest, batchDestKey debug (.local root) rel = .ok dest →
      ∃ names : List String, Path.new dest = Path.new root ++ names.map .normal ∧
        ∀ cwd, (Path.new dest).resolve cwd = (Path.new root).resolve cwd ++ names := by
  refine ⟨?_, ?_, ?_⟩
  · rw [← all_normal_iff]
    constructor
    · rintro ⟨safe, h⟩
      obtain ⟨names, hnames, -⟩ := containRel_ok_iff.mp h
      exact ⟨names, hnames⟩
    · rintro ⟨names, hnames⟩
      exact ⟨_, containRel_ok_iff.mpr ⟨names, hnames, rfl⟩⟩
  · intro safe h
    obtain ⟨names, hrel, hsafe, hjoined⟩ := contained_push h root
    have hnormal : ∀ c ∈ names.map Component.normal, c.isNormal = true := by
      intro c hc
      obtain ⟨name, -, rfl⟩ := List.mem_map.mp hc
      rfl
    rw [hjoined, hsafe, hrel]
    exact ⟨(List.filter_eq_self.mpr hnormal).symm, hnormal, rfl⟩
  · intro dest h
    obtain ⟨safe, hsafe, hdest⟩ := bind_ok_iff.mp h
    cases hdest
    obtain ⟨names, -, -, hjoined⟩ := contained_push hsafe root
    refine ⟨names, hjoined, fun cwd => ?_⟩
    rw [hjoined, resolve_append, resolve_names]

end Containment

section Text

/-- Whether a byte may come second in a character that starts with `b0`. -/
def maySecond (b0 b1 : UInt8) : Bool :=
  if b0 = 0xE0 then 0xA0 ≤ b1 ∧ b1 ≤ 0xBF
  else if b0 = 0xED then 0x80 ≤ b1 ∧ b1 ≤ 0x9F
  else if b0 = 0xF0 then 0x90 ≤ b1 ∧ b1 ≤ 0xBF
  else if b0 = 0xF4 then 0x80 ≤ b1 ∧ b1 ≤ 0x8F
  else isContinuation b1

/-- How many bytes a text begins with that could be a character, and whether they are one. -/
def charStart (b0 : UInt8) (rest : Bytes) : ℕ × Bool :=
  if b0 < 0x80 then (1, true)
  else if b0 < 0xC2 ∨ 0xF5 ≤ b0 then (1, false)
  else
    match rest with
    | [] => (1, false)
    | b1 :: rest =>
      if !maySecond b0 b1 then (1, false)
      else if b0 < 0xE0 then (2, true)
      else
        match rest with
        | [] => (2, false)
        | b2 :: rest =>
          if !isContinuation b2 then (2, false)
          else if b0 < 0xF0 then (3, true)
          else
            match rest with
            | [] => (3, false)
            | b3 :: _ => if isContinuation b3 then (4, true) else (3, false)

/-- The rounds of `to_string_lossy`. Each takes a byte or more. -/
def lossyChars : ℕ → Bytes → List Char
  | 0, _ => []
  | _, [] => []
  | n + 1, b0 :: rest =>
    let (length, whole) := charStart b0 rest
    let char := if whole then (utf8Decode ((b0 :: rest).take length)).getD [] else ['\uFFFD']
    char ++ lossyChars n ((b0 :: rest).drop length)

/-- `to_string_lossy`: what is no UTF-8 becomes a replacement character. -/
def toStringLossy (name : Bytes) : String := String.ofList (lossyChars name.length name)

end Text

section Enumeration

/-- An object queued for filtering: `fetch` reads it and `rel` is mirrored into the destination. -/
structure SrcObject where
  fetch : String
  rel : String
  size : Option ℕ
deriving DecidableEq, Repr

/-- An entry of a directory. One that cannot be read fails the run. -/
inductive Entry where
  | file (size : Option ℕ)
  | dir (entries : List (Bytes × Entry))
  | failed (message : String)

/-- What is found under the source: the entries of its directory, or the keys under its prefix. -/
structure Listed where
  entries : Except String (List (Bytes × Entry))
  keys : Except StoreError (List String)

/-- The path of a file under the root, with `/` for every separator. -/
def localRel (names : List Bytes) : String :=
  String.ofList (("/".intercalate (names.map toStringLossy)).toList.map (fun c => if c = '\\' then '/' else c))

/-- A file as it is queued. -/
def localObject (root : String) (names : List Bytes) (size : Option ℕ) : SrcObject :=
  ⟨(names.map toStringLossy).foldl PathBuf.push root, localRel names, size⟩

/-- The key of an object under the directory of the prefix. -/
def s3Rel (keyPrefix key : String) : String :=
  match (dirPrefix keyPrefix).toList.isPrefixOf? key.toList with
  | some rel => String.ofList rel
  | none => key

def s3Object (keyPrefix key : String) : SrcObject := ⟨key, s3Rel keyPrefix key, none⟩

mutual

/-- `collect_local`, at the entry with these names under the root. -/
def collectEntry (keys : KeyFilter) (root : String) (names : List Bytes) : Entry → Except CliError (List SrcObject)
  | .file size => if keys.allows (localRel names) then .ok [localObject root names size] else .ok []
  | .dir entries => collectLocal keys root names entries
  | .failed message => .error (.message message)

def collectLocal (keys : KeyFilter) (root : String) (names : List Bytes) :
    List (Bytes × Entry) → Except CliError (List SrcObject)
  | [] => .ok []
  | (name, entry) :: rest => do
    let objs ← collectEntry keys root (names ++ [name]) entry
    let more ← collectLocal keys root names rest
    pure (objs ++ more)

end

/-- The objects in scope on either side, before they are sorted. -/
def collect (keys : KeyFilter) (src : Location) (listed : Listed) : Except CliError (List SrcObject) :=
  match src with
  | .local root =>
    match listed.entries with
    | .error message => .error (.message message)
    | .ok entries => collectLocal keys root [] entries
  | .s3 _ keyPrefix =>
    match listed.keys with
    | .error e => .error (.store e)
    | .ok listedKeys => .ok ((listedKeys.filter keys.allows).map (s3Object keyPrefix))

/-- The objects in scope, sorted by their relative keys. -/
def enumerate (keys : KeyFilter) (src : Location) (listed : Listed) : Except CliError (List SrcObject) := do
  let objs ← collect keys src listed
  pure (objs.insertionSort (fun a b => a.rel ≤ b.rel))

end Enumeration

section Origins

/-- A source object itself, of which a `SrcObject` is the queued form. -/
inductive Origin where
  | file (root : String) (names : List Bytes) (size : Option ℕ)
  | object (bucket keyPrefix key : String)
deriving DecidableEq, Repr

def Origin.queued : Origin → SrcObject
  | .file root names size => localObject root names size
  | .object _ keyPrefix key => s3Object keyPrefix key

/-- What the key filter is asked about. -/
def Origin.filterKey : Origin → String
  | .file _ names _ => localRel names
  | .object _ _ key => key

mutual

/-- The files at and under an entry. -/
def entryFiles (root : String) (names : List Bytes) : Entry → List Origin
  | .file size => [.file root names size]
  | .dir entries => localFiles root names entries
  | .failed _ => []

def localFiles (root : String) (names : List Bytes) : List (Bytes × Entry) → List Origin
  | [] => []
  | (name, entry) :: rest => entryFiles root (names ++ [name]) entry ++ localFiles root names rest

end

/-- The source objects of a listing. -/
def origins (src : Location) (listed : Listed) : List Origin :=
  match src with
  | .local root => (listed.entries.toOption.map (localFiles root [])).getD []
  | .s3 bucket keyPrefix => (listed.keys.toOption.map (List.map (Origin.object bucket keyPrefix))).getD []

/-- The source objects that the key filter lets through. -/
def inScope (keys : KeyFilter) (src : Location) (listed : Listed) : List Origin :=
  (origins src listed).filter (fun origin => keys.allows origin.filterKey)

mutual

lemma collectEntry_ok {keys : KeyFilter} {root : String} : ∀ (entry : Entry) (names : List Bytes) (objs : List SrcObject),
    collectEntry keys root names entry = .ok objs →
    objs = ((entryFiles root names entry).filter (fun origin => keys.allows origin.filterKey)).map Origin.queued
  | .file size, names, objs, h => by
    unfold collectEntry at h
    rw [entryFiles]
    split_ifs at h with hkey
    · cases h
      simp [Origin.filterKey, Origin.queued, hkey]
    · cases h
      simp [Origin.filterKey, hkey]
  | .dir entries, names, objs, h => by
    unfold collectEntry at h
    exact collectLocal_ok entries names objs h
  | .failed message, _, _, h => by
    simp [collectEntry] at h

/-- The walk queues the files that the key filter lets through. -/
lemma collectLocal_ok {keys : KeyFilter} {root : String} : ∀ (entries : List (Bytes × Entry)) (names : List Bytes)
    (objs : List SrcObject), collectLocal keys root names entries = .ok objs →
    objs = ((localFiles root names entries).filter (fun origin => keys.allows origin.filterKey)).map Origin.queued
  | [], names, objs, h => by
    unfold collectLocal at h
    cases h
    rfl
  | (name, entry) :: rest, names, objs, h => by
    unfold collectLocal at h
    obtain ⟨first, hfirst, h⟩ := bind_ok_iff.mp h
    obtain ⟨more, hmore, h⟩ := bind_ok_iff.mp h
    cases h
    rw [collectEntry_ok entry _ first hfirst, collectLocal_ok rest _ more hmore]
    rw [localFiles, List.filter_append, List.map_append]

end

/-- A run queues the objects in scope, in some order. -/
theorem enumerate_perm {keys : KeyFilter} {src : Location} {listed : Listed} {objects : List SrcObject}
    (h : enumerate keys src listed = .ok objects) : objects.Perm ((inScope keys src listed).map Origin.queued) := by
  obtain ⟨objs, hobjs, h⟩ := bind_ok_iff.mp h
  cases h
  refine (List.perm_insertionSort _ objs).trans (List.Perm.of_eq ?_)
  unfold collect at hobjs
  unfold inScope origins
  cases src with
  | «local» root =>
    cases hentries : listed.entries with
    | error message => simp [hentries] at hobjs
    | ok entries =>
      simp only [hentries] at hobjs
      exact collectLocal_ok entries [] objs hobjs
  | s3 bucket keyPrefix =>
    cases hkeys : listed.keys with
    | error e => simp [hkeys] at hobjs
    | ok listedKeys =>
      simp only [hkeys, Except.ok.injEq] at hobjs
      rw [← hobjs]
      simp [List.filter_map, Function.comp_def, Origin.filterKey, Origin.queued]

end Origins

section Run
variable (gz : Gzip) (float : FloatParser) (debug : String → String) (f : Filterer)

/-- One round of the loop: an unsafe relative key fails its object like any other error. -/
def filterObject (canonicalize : Path → Option Path) (attempt : Attempt) (obj : SrcObject) : CliM ObjectOutcome :=
  match batchDestKey debug f.dst obj.rel with
  | .ok dstKey => f.process gz float canonicalize attempt obj.fetch dstKey obj.size
  | .error text => Effect.fail (.message text)

/-- The loop over the objects, which an object that fails does not stop. The file system and the
stores answer each round anew. -/
def filterObjects (canonicalize : ℕ → Path → Option Path) (attempt : ℕ → Attempt) :
    ℕ → List SrcObject → CliM (List (Except CliError ObjectOutcome))
  | _, [] => pure []
  | i, obj :: rest => do
    let outcome ← (filterObject gz float debug f (canonicalize i) (attempt i) obj).attempt
    let outcomes ← filterObjects canonicalize attempt (i + 1) rest
    pure (outcome :: outcomes)

/-- `cmd_filter` for a batch. Failures are reported together at the end. -/
def cmdFilter (canonicalize : ℕ → Path → Option Path) (attempt : ℕ → Attempt) (listed : Listed) :
    CliM (List (Except CliError ObjectOutcome)) :=
  match enumerate f.cfg.keys f.src listed with
  | .error e => Effect.fail e
  | .ok objects => do
    let outcomes ← filterObjects gz float debug f canonicalize attempt 0 objects
    let failures := outcomes.countP (fun outcome => !outcome.isOk)
    if failures = 0 then pure outcomes
    else Effect.fail (.message (toString failures ++ " of " ++ toString objects.length ++ " object(s) failed"))

end Run

end CloudTrailFilter.Cli
