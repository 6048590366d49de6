import CloudTrailFilter.Cli.Batch

/-!
# Destinations of a batch

When two source objects are mirrored to the same place, the output of one replaces that of the
other. Between buckets this never happens. On a local destination it happens to keys that differ
only in repeated slashes and dots.
-/

namespace CloudTrailFilter.Cli
open CloudTrailFilter.Json Fallible

section Place

/-- Where a key of a side is: an S3 object, or the file that a path names. -/
inductive Place where
  | object (bucket key : String)
  | file (path : List String)
deriving DecidableEq, Repr

def place (cwd : List String) (side : Location) (key : String) : Place :=
  match side with
  | .local _ => .file ((Path.new key).resolve cwd)
  | .s3 bucket _ => .object bucket key

/-- Objects that both have a destination have different ones. -/
def Apart (debug : String → String) (cwd : List String) (dst : Location) (a b : SrcObject) : Prop :=
  ∀ d d', batchDestKey debug dst a.rel = .ok d → batchDestKey debug dst b.rel = .ok d' → place cwd dst d ≠ place cwd dst d'

/-- A relative key that a local destination takes. -/
def Accepted (rel : String) : Prop :=
  rel.startsWith "/" = false ∧ Component.parentDir ∉ Path.new rel ∧ (Path.new rel).head? ≠ some .curDir

/-- Relative keys that a destination tells apart: a bucket by their text, a directory by their components. -/
def Distinguished (dst : Location) (rel rel' : String) : Prop :=
  match dst with
  | .local _ => Accepted rel → Accepted rel' → Path.new rel ≠ Path.new rel'
  | .s3 _ _ => rel ≠ rel'

def Origin.rel : Origin → String
  | .file _ names _ => localRel names
  | .object _ keyPrefix key => s3Rel keyPrefix key

variable {debug : String → String} {cwd : List String} {dst : Location}

lemma joinKey_inj (keyPrefix : String) {rel rel' : String} : joinKey keyPrefix rel = joinKey keyPrefix rel' ↔ rel = rel' := by
  unfold joinKey
  split_ifs
  · rfl
  · rw [String.append_right_inj]

/-- A key that a directory takes goes to the file that its components lead to from the root. -/
lemma local_destination {rel dest root : String} (h : batchDestKey debug (.local root) rel = .ok dest) :
    ∃ names : List String, Path.new rel = names.map .normal ∧
      place cwd (.local root) dest = .file ((Path.new root).resolve cwd ++ names) := by
  obtain ⟨safe, hsafe, hdest⟩ := bind_ok_iff.mp h
  cases hdest
  obtain ⟨names, hrel, -, hjoined⟩ := contained_push hsafe root
  refine ⟨names, hrel, ?_⟩
  rw [place, hjoined, resolve_append, resolve_names]

lemma local_accepted (debug : String → String) (root rel : String) :
    (∃ dest, batchDestKey debug (.local root) rel = .ok dest) ↔ Accepted rel := by
  rw [Accepted, ← all_normal_iff]
  constructor
  · rintro ⟨dest, h⟩
    obtain ⟨names, hrel, -⟩ := @local_destination debug [] rel dest root h
    exact ⟨names, hrel⟩
  · rintro ⟨names, hrel⟩
    refine ⟨PathBuf.push root (names.foldl PathBuf.push ""), ?_⟩
    rw [batchDestKey, containRel_ok_iff.mpr ⟨names, hrel, rfl⟩]
    rfl

/-- The destinations of two objects differ exactly if the destination tells their keys apart. -/
lemma apart_iff (a b : SrcObject) : Apart debug cwd dst a b ↔ Distinguished dst a.rel b.rel := by
  cases dst with
  | s3 bucket keyPrefix =>
    unfold Apart Distinguished
    constructor
    · intro h heq
      exact h _ _ rfl rfl (by rw [heq])
    · rintro h d d' hd hd' hplaces
      cases hd
      cases hd'
      exact h ((joinKey_inj keyPrefix).mp (Place.object.inj hplaces).2)
  | «local» root =>
    unfold Apart Distinguished
    constructor
    · intro h ha hb heq
      obtain ⟨d, hd⟩ := (local_accepted debug root a.rel).mpr ha
      obtain ⟨d', hd'⟩ := (local_accepted debug root b.rel).mpr hb
      obtain ⟨names, hrel, hplace⟩ := @local_destination debug cwd _ _ _ hd
      obtain ⟨names', hrel', hplace'⟩ := @local_destination debug cwd _ _ _ hd'
      rw [hrel, hrel'] at heq
      have hnames : names = names' := List.map_injective_iff.mpr (fun _ _ => Component.normal.inj) heq
      apply h d d' hd hd'
      rw [hplace, hplace', hnames]
    · intro h d d' hd hd' hplaces
      obtain ⟨names, hrel, hplace⟩ := @local_destination debug cwd _ _ _ hd
      obtain ⟨names', hrel', hplace'⟩ := @local_destination debug cwd _ _ _ hd'
      rw [hplace, hplace', Place.file.injEq, List.append_right_inj] at hplaces
      apply h ((local_accepted debug root a.rel).mp ⟨d, hd⟩) ((local_accepted debug root b.rel).mp ⟨d', hd'⟩)
      rw [hrel, hrel', hplaces]

/-- Keys under a prefix differ in what follows its directory. -/
lemma s3Rel_inj {keyPrefix key key' : String} (h : keyPrefix.toList <+: key.toList) (h' : keyPrefix.toList <+: key'.toList)
    (heq : s3Rel keyPrefix key = s3Rel keyPrefix key') : key = key' := by
  have hdir : (dirPrefix keyPrefix).toList <+: keyPrefix.toList := by
    have hsuffix := (List.dropWhile_suffix (fun c => decide (c ≠ '/')) (l := keyPrefix.toList.reverse))
    rw [dirPrefix, String.toList_ofList]
    simpa using List.reverse_prefix.mpr hsuffix
  have hrel : ∀ k : String, keyPrefix.toList <+: k.toList → k = dirPrefix keyPrefix ++ s3Rel keyPrefix k := by
    intro k hk
    obtain ⟨rest, hrest⟩ := hdir.trans hk
    have hsplit : s3Rel keyPrefix k = String.ofList rest := by
      rw [s3Rel, ← hrest, Split.isPrefixOf?_append]
    rw [hsplit]
    apply String.ext
    simp [← hrest]
  rw [hrel key h, hrel key' h', heq]

end Place

section Collisions
variable {debug : String → String} {cwd : List String} {dst : Location}

lemma queued_rel (origin : Origin) : origin.queued.rel = origin.rel := by
  cases origin <;> rfl

lemma distinguished_symm {rel rel' : String} (h : Distinguished dst rel rel') : Distinguished dst rel' rel := by
  cases dst with
  | «local» root => exact fun ha hb => (h hb ha).symm
  | s3 bucket keyPrefix => exact Ne.symm h

/-- Destinations collide exactly when the destination does not tell two objects in scope apart. Between
buckets it always does. -/
theorem batch_destinations_apart_iff (debug : String → String) (cwd : List String) (keys : KeyFilter) (src dst : Location)
    (listed : Listed) (objects : List SrcObject) (h : enumerate keys src listed = .ok objects) :
    (objects.Pairwise (Apart debug cwd dst) ↔
      (inScope keys src listed).Pairwise (fun a b => Distinguished dst a.rel b.rel)) ∧
    ∀ bucket keyPrefix bucket' keyPrefix' listedKeys, src = .s3 bucket keyPrefix → dst = .s3 bucket' keyPrefix' →
      listed.keys = .ok listedKeys → listedKeys.Nodup → (∀ key ∈ listedKeys, keyPrefix.toList <+: key.toList) →
      objects.Pairwise (Apart debug cwd dst) := by
  have hiff : objects.Pairwise (Apart debug cwd dst) ↔
      (inScope keys src listed).Pairwise (fun a b => Distinguished dst a.rel b.rel) := by
    have hsymm : ∀ {a b : SrcObject}, Apart debug cwd dst a b → Apart debug cwd dst b a := by
      intro a b hab
      rw [apart_iff] at hab ⊢
      exact distinguished_symm hab
    rw [(enumerate_perm h).pairwise_iff hsymm, List.pairwise_map]
    simp only [apart_iff, queued_rel]
  refine ⟨hiff, ?_⟩
  rintro bucket keyPrefix bucket' keyPrefix' listedKeys rfl rfl hkeys hnodup hfront
  rw [hiff]
  apply List.Pairwise.filter
  rw [origins, hkeys]
  simp only [toOption_ok, Option.map_some, Option.getD_some, List.pairwise_map]
  refine List.Pairwise.imp_of_mem ?_ hnodup
  intro key key' hkey hkey' hne heq
  exact hne (s3Rel_inj (hfront key hkey) (hfront key' hkey') heq)

/-- A key filter that lets every key through. -/
def anyKey : KeyFilter := ⟨fun _ => true, fun _ => false⟩

/-- Two keys that differ in a repeated slash have the same destination in a directory. -/
theorem batch_destinations_collide :
    ∃ objects, enumerate anyKey (.s3 "trail" "logs/") ⟨.ok [], .ok ["logs/a//b.gz", "logs/a/b.gz"]⟩ = .ok objects ∧
      objects.map (batchDestKey id (.local "out") ·.rel) = [.ok "out/a/b.gz", .ok "out/a/b.gz"] ∧
      ¬ objects.Pairwise (Apart id [] (.local "out")) := by
  have hdest : ∀ rel ∈ ["a//b.gz", "a/b.gz"], batchDestKey id (.local "out") rel = .ok "out/a/b.gz" := by
    intro rel hrel
    have hparts : Path.new rel = ["a", "b.gz"].map .normal := by
      rw [Path.new_eq]
      revert rel
      decide +kernel
    rw [batchDestKey, containRel_ok_iff.mpr ⟨["a", "b.gz"], hparts, rfl⟩]
    rfl
  have hfirst := hdest "a//b.gz" (by simp)
  have hsecond := hdest "a/b.gz" (by simp)
  refine ⟨[⟨"logs/a//b.gz", "a//b.gz", none⟩, ⟨"logs/a/b.gz", "a/b.gz", none⟩], by decide +kernel, ?_, ?_⟩
  · simp only [List.map_cons, List.map_nil, hfirst, hsecond]
  · intro hpairwise
    have happart := List.rel_of_pairwise_cons hpairwise List.mem_cons_self
    exact happart _ _ hfirst hsecond rfl

theorem batch_destinations_apart_sample :
    ∃ objects, enumerate anyKey (.s3 "trail" "logs/") ⟨.ok [], .ok ["logs/b.gz", "logs/a.gz"]⟩ = .ok objects ∧
      (objects.Pairwise (Apart id [] (.s3 "filtered" "out")) ↔
        (inScope anyKey (.s3 "trail" "logs/") ⟨.ok [], .ok ["logs/b.gz", "logs/a.gz"]⟩).Pairwise
          (fun a b => Distinguished (.s3 "filtered" "out") a.rel b.rel)) ∧
      objects.Pairwise (Apart id [] (.s3 "filtered" "out")) := by
  have henumerate : enumerate anyKey (.s3 "trail" "logs/") ⟨.ok [], .ok ["logs/b.gz", "logs/a.gz"]⟩ =
      .ok [⟨"logs/a.gz", "a.gz", none⟩, ⟨"logs/b.gz", "b.gz", none⟩] := by decide +kernel
  obtain ⟨hiff, hbuckets⟩ := batch_destinations_apart_iff id [] anyKey _ (.s3 "filtered" "out") _ _ henumerate
  exact ⟨_, henumerate, hiff, hbuckets _ _ _ _ _ rfl rfl rfl (by decide) (by decide)⟩

end Collisions

end CloudTrailFilter.Cli
