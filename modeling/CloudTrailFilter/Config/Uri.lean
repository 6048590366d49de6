import CloudTrailFilter.Config.Store
import CloudTrailFilter.Filter.Engine
import CloudTrailFilter.Filter.Grammar
import CloudTrailFilter.Lib.Split

/-!
# Which document a URI names

`ConfigUri::parse` reads the three schemes of a rules URI, and each composition root builds the
source of its scheme. What parses is exactly what `ConfigUri.text` writes, so a URI names one
document. The command line reads its rules through the same URIs, and from the same sources.
-/

namespace CloudTrailFilter.Config
open CloudTrailFilter.Json CloudTrailFilter.Filter

section Text

/-- `str::strip_prefix`. -/
def stripPrefix (start s : String) : Option String :=
  (start.toList.isPrefixOf? s.toList).map String.ofList

/-- `str::split_once` at a character. -/
def splitOnce (c : Char) (s : String) : Option (String × String) :=
  match s.toList.span (· ≠ c) with
  | (_, []) => none
  | (before, _ :: after) => some (String.ofList before, String.ofList after)

lemma stripPrefix_eq_some_iff {start s rest : String} : stripPrefix start s = some rest ↔ s = start ++ rest := by
  constructor
  · intro h
    obtain ⟨cs, hcs, rfl⟩ := Option.map_eq_some_iff.mp h
    by_cases hstart : start.toList <+: s.toList
    · obtain ⟨tail, htail⟩ := hstart
      rw [← htail, Split.isPrefixOf?_append, Option.some.injEq] at hcs
      subst hcs
      apply String.toList_injective
      rw [String.toList_append, String.toList_ofList, htail]
    · rw [Split.isPrefixOf?_eq_none hstart] at hcs
      cases hcs
  · rintro rfl
    rw [stripPrefix, String.toList_append, Split.isPrefixOf?_append, Option.map_some, String.ofList_toList]

lemma stripPrefix_eq_none_iff {start s : String} : stripPrefix start s = none ↔ ∀ rest, s ≠ start ++ rest := by
  constructor
  · intro h rest hs
    rw [stripPrefix_eq_some_iff.mpr hs] at h
    cases h
  · intro h
    cases hstrip : stripPrefix start s with
    | none => rfl
    | some rest => exact (h rest (stripPrefix_eq_some_iff.mp hstrip)).elim

lemma splitOnce_eq_some_iff {c : Char} {s before after : String} :
    splitOnce c s = some (before, after) ↔ s = before ++ String.singleton c ++ after ∧ c ∉ before.toList := by
  constructor
  · intro h
    unfold splitOnce at h
    rcases hspan : s.toList.span (· ≠ c) with ⟨name, tail⟩
    have hparts := hspan
    rw [List.span_eq_takeWhile_dropWhile, Prod.mk.injEq] at hparts
    obtain ⟨hname, htail⟩ := hparts
    have hjoin := List.takeWhile_append_dropWhile (p := fun d => decide (d ≠ c)) (l := s.toList)
    rw [hname, htail] at hjoin
    rw [hspan] at h
    cases tail with
    | nil => cases h
    | cons d rest =>
      cases h
      have hd : d = c := by
        have hhead := List.head?_dropWhile_not (fun d => decide (d ≠ c)) s.toList
        rw [htail] at hhead
        simpa using hhead
      subst hd
      constructor
      · apply String.toList_injective
        rw [← hjoin]
        simp
      · rw [String.toList_ofList, ← hname]
        intro hmem
        simpa using List.mem_takeWhile_imp hmem
  · rintro ⟨rfl, hc⟩
    have hspan : (before.toList ++ c :: after.toList).span (· ≠ c) = (before.toList, c :: after.toList) := by
      exact span_append hc (by simp)
    have htext : (before ++ String.singleton c ++ after).toList = before.toList ++ c :: after.toList := by simp
    unfold splitOnce
    rw [htext, hspan]
    simp

end Text

section Uri

/-- A parsed config document location. -/
inductive ConfigUri where
  | ssm (path : String)
  | s3 (bucket key : String)
  | file (path : String)
deriving DecidableEq, Repr

def ConfigUri.parse (debug : String → String) (uri : String) : Except ConfigError ConfigUri :=
  match stripPrefix "ssm://" uri with
  | some path => .ok (.ssm path)
  | none =>
    match stripPrefix "s3://" uri with
    | some rest =>
      match splitOnce '/' rest with
      | some (bucket, key) => .ok (.s3 bucket key)
      | none => .error (.source ("invalid s3:// uri " ++ debug uri ++ ": expected s3://bucket/key"))
    | none =>
      match stripPrefix "file://" uri with
      | some path => .ok (.file path)
      | none => .error (.source ("unsupported config uri scheme in " ++ debug uri ++
          ": expected ssm://, s3://, or file://"))

def ConfigUri.text : ConfigUri → String
  | .ssm path => "ssm://" ++ path
  | .s3 bucket key => "s3://" ++ bucket ++ "/" ++ key
  | .file path => "file://" ++ path

/-- A bucket has no slash; everything else may have any text, the empty one included. -/
def ConfigUri.Proper : ConfigUri → Prop
  | .s3 bucket _ => '/' ∉ bucket.toList
  | _ => True

/-- The schemes exclude one another by their first characters. -/
lemma scheme_ne {a b r r' : String} {x y : Char} {as bs : List Char} (ha : a.toList = x :: as)
    (hb : b.toList = y :: bs) (hxy : x ≠ y) : a ++ r ≠ b ++ r' := by
  intro h
  have hlist := congrArg String.toList h
  rw [String.toList_append, String.toList_append, ha, hb] at hlist
  simp only [List.cons_append, List.cons.injEq] at hlist
  exact hxy hlist.1

lemma ssm_ne_s3 (r r' : String) : "ssm://" ++ r ≠ "s3://" ++ r' := by
  intro h
  have hlist := congrArg String.toList h
  simp at hlist

/-- What parses is exactly the text of a location, so a URI is the text of at most one location. -/
theorem configUri_parse_iff (debug : String → String) (uri : String) (location : ConfigUri) :
    ConfigUri.parse debug uri = .ok location ↔ location.Proper ∧ location.text = uri := by
  have hfile_ssm : ∀ r r', "file://" ++ r ≠ "ssm://" ++ r' := fun r r' => scheme_ne rfl rfl (by decide)
  have hfile_s3 : ∀ r r', "file://" ++ r ≠ "s3://" ++ r' := fun r r' => scheme_ne rfl rfl (by decide)
  unfold ConfigUri.parse
  cases hssm : stripPrefix "ssm://" uri with
  | some path =>
    rw [stripPrefix_eq_some_iff] at hssm
    subst hssm
    cases location with
    | ssm path' => simp [ConfigUri.Proper, ConfigUri.text, eq_comm]
    | s3 bucket key => simpa [ConfigUri.text, String.append_assoc] using fun _ h => ssm_ne_s3 _ _ h.symm
    | file path' => simpa [ConfigUri.Proper, ConfigUri.text] using hfile_ssm path' path
  | none =>
    rw [stripPrefix_eq_none_iff] at hssm
    cases hs3 : stripPrefix "s3://" uri with
    | some rest =>
      rw [stripPrefix_eq_some_iff] at hs3
      subst hs3
      cases hsplit : splitOnce '/' rest with
      | some p =>
        obtain ⟨bucket, key⟩ := p
        obtain ⟨rfl, hbucket⟩ := splitOnce_eq_some_iff.mp hsplit
        simp only [hsplit, Except.ok.injEq]
        constructor
        · rintro rfl
          exact ⟨hbucket, by simp [ConfigUri.text, String.append_assoc]⟩
        · rintro ⟨hproper, htext⟩
          cases location with
          | ssm path => exact (hssm path htext.symm).elim
          | file path => exact (hfile_s3 _ _ htext).elim
          | s3 bucket' key' =>
            have hrest : splitOnce '/' (bucket ++ String.singleton '/' ++ key) = some (bucket', key') := by
              refine splitOnce_eq_some_iff.mpr ⟨?_, hproper⟩
              have hlist := congrArg String.toList htext
              apply String.toList_injective
              simpa [ConfigUri.text] using hlist.symm
            rw [hsplit, Option.some.injEq, Prod.mk.injEq] at hrest
            rw [hrest.1, hrest.2]
      | none =>
        simp only [hsplit]
        constructor
        · intro h
          cases h
        · rintro ⟨hproper, htext⟩
          cases location with
          | ssm path => exact (hssm path htext.symm).elim
          | file path => exact (hfile_s3 _ _ htext).elim
          | s3 bucket key =>
            have hrest : splitOnce '/' rest = some (bucket, key) := by
              refine splitOnce_eq_some_iff.mpr ⟨?_, hproper⟩
              have hlist := congrArg String.toList htext
              apply String.toList_injective
              simpa [ConfigUri.text] using hlist.symm
            rw [hsplit] at hrest
            cases hrest
    | none =>
      rw [stripPrefix_eq_none_iff] at hs3
      cases hfile : stripPrefix "file://" uri with
      | some path =>
        rw [stripPrefix_eq_some_iff] at hfile
        subst hfile
        cases location with
        | ssm path' => simpa [ConfigUri.Proper, ConfigUri.text] using (hssm path').symm
        | s3 bucket key =>
          simpa [ConfigUri.text, String.append_assoc] using fun _ h => hs3 (bucket ++ ("/" ++ key)) h.symm
        | file path' => simp [ConfigUri.Proper, ConfigUri.text, eq_comm]
      | none =>
        rw [stripPrefix_eq_none_iff] at hfile
        simp only [reduceCtorEq, false_iff, not_and]
        intro _ htext
        cases location with
        | ssm path => exact hssm path htext.symm
        | s3 bucket key => exact hs3 (bucket ++ ("/" ++ key)) (by rw [← htext]; simp [ConfigUri.text, String.append_assoc])
        | file path => exact hfile path htext.symm

end Uri

end CloudTrailFilter.Config
