import CloudTrailFilter.Filter.Rules
import CloudTrailFilter.Json.Scan

/-!
# Where the rules document comes from

The three sources of a rules document: a file, an S3 object and an SSM parameter. Each gives its
tag alone (`version`) or its content with a tag (`fetch`). The document may be rewritten at any
time, so each answer is one about some revision of it; `Fetched` says that a fetch took its tag
no later than its content, which is what all three have in common.
-/

namespace CloudTrailFilter.Config
open CloudTrailFilter.Json CloudTrailFilter.Filter

inductive VersionTag where
  | etag (tag : String)
  | version (n : ℤ)
  | mtime (nanos : ℕ)
  | none
deriving DecidableEq, Repr

abbrev Versioned := Except ConfigError VersionTag

abbrev Fetch := Except ConfigError (Bytes × VersionTag)

section File

/-- What `std::fs::metadata` and `modified` say about a file. -/
inductive Stat where
  | failed (message : String)
  | noMtime (message : String)
  | beforeEpoch (message : String)
  | modified (secs nanos : ℕ)

variable (path : String)

/-- Nanoseconds since the epoch, saturating at 64 bits. `path` is the path as `Debug` prints it. -/
def FileConfigSource.mtime (stat : Stat) : Versioned :=
  match stat with
  | .failed message => .error (.source ("failed to stat " ++ path ++ ": " ++ message))
  | .noMtime message => .error (.source ("no mtime for " ++ path ++ ": " ++ message))
  | .beforeEpoch message => .error (.source ("mtime before epoch for " ++ path ++ ": " ++ message))
  | .modified secs nanos => .ok (.mtime (min (min (secs * 1000000000) (2 ^ 64 - 1) + nanos) (2 ^ 64 - 1)))

def FileConfigSource.version (stat : Stat) : Versioned := FileConfigSource.mtime path stat

/-- The file is stat'ed before it is read. -/
def FileConfigSource.fetch (stat : Stat) (read : Except String Bytes) : Fetch := do
  let version ← FileConfigSource.mtime path stat
  match read with
  | .ok bytes => pure (bytes, version)
  | .error message => .error (.source ("failed to read " ++ path ++ ": " ++ message))

end File

section S3

/-- The parts of a `GetObject` answer that are read. -/
structure GetObjectOutput where
  eTag : Option String
  body : Except String Bytes

def S3ConfigSource.version (head : Except String (Option String)) : Versioned :=
  match head with
  | .error message => .error (.source message)
  | .ok none => .error (.source "HeadObject response missing ETag")
  | .ok (some etag) => .ok (.etag etag)

def S3ConfigSource.fetch (output : Except String GetObjectOutput) : Fetch :=
  match output with
  | .error message => .error (.source message)
  | .ok ⟨none, _⟩ => .error (.source "GetObject response missing ETag")
  | .ok ⟨some _, .error message⟩ => .error (.source ("reading config object body: " ++ message))
  | .ok ⟨some etag, .ok bytes⟩ => .ok (bytes, .etag etag)

end S3

section Ssm

structure Parameter where
  version : ℤ
  value : Option String

def SsmConfigSource.getParameter (output : Except String (Option Parameter)) : Except ConfigError Parameter :=
  match output with
  | .error message => .error (.source message)
  | .ok none => .error (.source "GetParameter response missing parameter")
  | .ok (some param) => .ok param

def SsmConfigSource.version (output : Except String (Option Parameter)) : Versioned := do
  let param ← SsmConfigSource.getParameter output
  pure (.version param.version)

def SsmConfigSource.fetch (output : Except String (Option Parameter)) : Fetch := do
  let param ← SsmConfigSource.getParameter output
  match param.value with
  | none => .error (.source "GetParameter response missing value")
  | some value => pure (value.toUTF8.toList, .version param.version)

end Ssm

section Revisions

/-- The revisions of a document, each with a tag of its own. -/
structure Document where
  content : ℕ → Bytes
  tag : ℕ → VersionTag
  fresh : Function.Injective tag

namespace Document
variable (doc : Document)

/-- An answer about the tag, given at revision `r`. -/
def Tagged (r : ℕ) (answer : Versioned) : Prop := ∀ version, answer = .ok version → version = doc.tag r

/-- An answer of a fetch that took its tag at one revision and its content at another. -/
def Fetched (tagged read : ℕ) (answer : Fetch) : Prop :=
  ∀ bytes version, answer = .ok (bytes, version) → version = doc.tag tagged ∧ bytes = doc.content read

variable {doc}

/-- A file that is rewritten between the two steps of its fetch keeps the older tag. -/
lemma fetched_file {path : String} {stat : Stat} {read : Except String Bytes} {r r' : ℕ}
    (hstat : doc.Tagged r (FileConfigSource.version path stat))
    (hread : ∀ bytes, read = .ok bytes → bytes = doc.content r') :
    doc.Fetched r r' (FileConfigSource.fetch path stat read) := by
  intro bytes version h
  unfold FileConfigSource.fetch at h
  cases hmtime : FileConfigSource.mtime path stat with
  | error e => simp [hmtime, bind, Except.bind] at h
  | ok tag =>
    cases read with
    | error message => simp [hmtime, bind, Except.bind] at h
    | ok content =>
      simp only [hmtime, bind, Except.bind, pure, Except.pure, Except.ok.injEq, Prod.mk.injEq] at h
      obtain ⟨rfl, rfl⟩ := h
      exact ⟨hstat _ hmtime, hread _ rfl⟩

/-- One answer of S3 is about one revision. -/
lemma fetched_s3 {output : Except String GetObjectOutput} {r : ℕ}
    (h : ∀ out etag bytes, output = .ok out → out.eTag = some etag → out.body = .ok bytes →
      .etag etag = doc.tag r ∧ bytes = doc.content r) :
    doc.Fetched r r (S3ConfigSource.fetch output) := by
  intro bytes version hfetch
  unfold S3ConfigSource.fetch at hfetch
  split at hfetch
  · cases hfetch
  · cases hfetch
  · cases hfetch
  · cases hfetch
    exact h _ _ _ rfl rfl rfl

/-- One answer of SSM is about one revision. -/
lemma fetched_ssm {output : Except String (Option Parameter)} {r : ℕ}
    (h : ∀ param value, output = .ok (some param) → param.value = some value →
      .version param.version = doc.tag r ∧ value.toUTF8.toList = doc.content r) :
    doc.Fetched r r (SsmConfigSource.fetch output) := by
  intro bytes version hfetch
  unfold SsmConfigSource.fetch SsmConfigSource.getParameter at hfetch
  rcases output with message | _ | param
  · simp [bind, Except.bind] at hfetch
  · simp [bind, Except.bind] at hfetch
  · cases hvalue : param.value with
    | none => simp [bind, Except.bind, hvalue] at hfetch
    | some value =>
      simp only [bind, Except.bind, hvalue, pure, Except.pure, Except.ok.injEq, Prod.mk.injEq] at hfetch
      obtain ⟨rfl, rfl⟩ := hfetch
      exact h param value rfl hvalue

end Document

end Revisions

end CloudTrailFilter.Config
