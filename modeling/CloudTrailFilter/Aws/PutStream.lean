import Mathlib.Algebra.Ring.BooleanRing
import CloudTrailFilter.Lib.Effect
import CloudTrailFilter.Process.Stream

/-!
# The multipart upload

`S3ObjectStore::put_stream` over the answers of S3 and a reader that may deliver its body in any
pieces and fail anywhere. An upload is completed with exactly the body or is aborted.
-/

namespace CloudTrailFilter.Aws
open Json Process

structure PutMeta where
  contentType : String
  contentEncoding : String
deriving DecidableEq, Repr

structure CompletedPart where
  partNumber : Int32
  eTag : String
deriving DecidableEq, Repr

/-- The requests `put_stream` sends. All of them name its bucket and key, which are left out here.
Of a request that changes what is stored it has whether S3 accepted it. -/
inductive S3Call where
  | createMultipartUpload (putMeta : PutMeta)
  | uploadPart (uploadId : String) (partNumber : Int32) (body : Bytes) (accepted : Bool)
  | completeMultipartUpload (uploadId : String) (parts : List CompletedPart) (accepted : Bool)
  | abortMultipartUpload (uploadId : String)
  | putObject (putMeta : PutMeta) (body : Bytes) (accepted : Bool)
deriving DecidableEq, Repr

def S3Call.isAbort : S3Call → Bool
  | .abortMultipartUpload _ => true
  | _ => false

inductive CreateAnswer where
  | failed (message : String)
  | missingUploadId
  | created (uploadId : String)

inductive PartAnswer where
  | failed (message : String)
  | missingETag
  | uploaded (eTag : String)
deriving DecidableEq, Repr

/-- What S3 answers during one call. The answer to an abort is not looked at. -/
structure S3Answers where
  create : CreateAnswer
  part : Int32 → PartAnswer
  /-- The error of `CompleteMultipartUpload`, if it fails. -/
  complete : Option String
  /-- The error of `PutObject`, if it fails. -/
  put : Option String

abbrev S3M := Effect S3Call Unit StoreError

section Upload
variable (answers : S3Answers) (partSize : ℕ) (ending : BodyEnd) (uploadId : String)

/-- The inner loop of `upload_parts`: reads until the buffer is full or the body ends. A read
delivers no more than the buffer has room for. -/
def fillPart (filled : Bytes) : List Bytes → Except StoreError (Bytes × List Bytes)
  | [] =>
    if filled.length < partSize then
      match ending with
      | .eof => .ok (filled, [])
      | .failed message => .error (.backend ("reading upload body: " ++ message))
    else .ok (filled, [])
  | chunk :: rest =>
    if filled.length < partSize then
      let room := partSize - filled.length
      if room < chunk.length then .ok (filled ++ chunk.take room, chunk.drop room :: rest)
      else fillPart (filled ++ chunk) rest
    else .ok (filled, chunk :: rest)

/-- `UploadPart` and the tag it answers with. -/
def uploadPart (partNumber : Int32) (buf : Bytes) : S3M String :=
  match answers.part partNumber with
  | .failed message => do
    Effect.call (.uploadPart uploadId partNumber buf false)
    Effect.fail (.backend message)
  | .missingETag => do
    Effect.call (.uploadPart uploadId partNumber buf true)
    Effect.fail (.backend "UploadPart response missing e_tag")
  | .uploaded eTag => do
    Effect.call (.uploadPart uploadId partNumber buf true)
    pure eTag

/-- The rounds of `upload_parts` from this part number on. A round that does not end the upload
takes a byte, so more rounds than bytes are never needed. -/
def uploadParts : ℕ → Int32 → List Bytes → S3M (List CompletedPart)
  | 0, _, _ => pure []
  | n + 1, partNumber, chunks =>
    match fillPart partSize ending [] chunks with
    | .error e => Effect.fail e
    | .ok (buf, rest) =>
      if buf = [] then pure []
      else do
        let eTag ← uploadPart answers uploadId partNumber buf
        if buf.length < partSize then pure [⟨partNumber, eTag⟩]
        else do
          let parts ← uploadParts n (partNumber + 1) rest
          pure (⟨partNumber, eTag⟩ :: parts)

def putObject (putMeta : PutMeta) (body : Bytes) : S3M Unit :=
  match answers.put with
  | none => Effect.call (.putObject putMeta body true)
  | some message => do
    Effect.call (.putObject putMeta body false)
    Effect.fail (.backend message)

/-- `put_stream` from the upload id on. -/
def putParts (putMeta : PutMeta) (body : Body) : S3M Unit := do
  let parts ← (uploadParts answers partSize body.ending uploadId (body.bytes.length + 1) 1 body.chunks).attempt
  match parts with
  | .error e => do
    Effect.call (.abortMultipartUpload uploadId)
    Effect.fail e
  | .ok [] => do
    Effect.call (.abortMultipartUpload uploadId)
    putObject answers putMeta []
  | .ok parts =>
    match answers.complete with
    | none => Effect.call (.completeMultipartUpload uploadId parts true)
    | some message => do
      Effect.call (.completeMultipartUpload uploadId parts false)
      Effect.call (.abortMultipartUpload uploadId)
      Effect.fail (.backend message)

end Upload

def putStream (answers : S3Answers) (partSize : ℕ) (putMeta : PutMeta) (body : Body) : S3M Unit := do
  Effect.call (.createMultipartUpload putMeta)
  match answers.create with
  | .failed message => Effect.fail (.backend message)
  | .missingUploadId => Effect.fail (.backend "CreateMultipartUpload response missing upload_id")
  | .created uploadId => putParts answers partSize uploadId putMeta body

section Destination

/-- What S3 holds of the destination: the parts of the upload in progress, and the object. -/
structure Stored where
  parts : Int32 → Option Bytes
  object : Option Bytes

/-- A completed upload is the concatenation of its parts. -/
def Stored.step (s : Stored) : S3Call → Stored
  | .createMultipartUpload _ => { s with parts := fun _ => none }
  | .uploadPart _ partNumber body accepted =>
    if accepted then { s with parts := Function.update s.parts partNumber (some body) } else s
  | .completeMultipartUpload _ parts accepted =>
    if accepted then { s with object := some (parts.flatMap (fun part => (s.parts part.partNumber).getD [])) } else s
  | .abortMultipartUpload _ => { s with parts := fun _ => none }
  | .putObject _ body accepted => if accepted then { s with object := some body } else s

def Stored.after (s : Stored) (calls : List S3Call) : Stored := calls.foldl Stored.step s

lemma Stored.after_append (s : Stored) (a b : List S3Call) : s.after (a ++ b) = (s.after a).after b :=
  List.foldl_append

end Destination

section Parts
variable {answers : S3Answers} {partSize : ℕ} {ending : BodyEnd} {uploadId : String}

/-- What a full buffer or the end of the body leaves of the chunks. -/
lemma fillPart_ok {filled buf : Bytes} {chunks rest : List Bytes}
    (h : fillPart partSize ending filled chunks = .ok (buf, rest)) (hfilled : filled.length ≤ partSize)
    (hne : ∀ chunk ∈ chunks, chunk ≠ []) :
    filled ++ chunks.flatten = buf ++ rest.flatten ∧ buf.length ≤ partSize ∧
      (buf.length < partSize → rest = [] ∧ ending = .eof) ∧ ∀ chunk ∈ rest, chunk ≠ [] := by
  induction chunks generalizing filled with
  | nil =>
    unfold fillPart at h
    split_ifs at h with hroom
    · cases ending with
      | eof =>
        cases h
        exact ⟨rfl, hfilled, fun _ => ⟨rfl, rfl⟩, by simp⟩
      | failed message => simp at h
    · cases h
      exact ⟨rfl, hfilled, fun hlt => (hroom hlt).elim, by simp⟩
  | cons chunk chunks ih =>
    unfold fillPart at h
    simp only at h
    split_ifs at h with hroom hlong
    · cases h
      have hlength : (filled ++ chunk.take (partSize - filled.length)).length = partSize := by
        rw [List.length_append, List.length_take]
        omega
      refine ⟨?_, hlength.le, by omega, ?_⟩
      · simp only [List.flatten_cons, List.append_assoc]
        rw [← List.append_assoc (chunk.take _), List.take_append_drop]
      intro c hc
      rcases List.mem_cons.mp hc with rfl | hc
      · apply List.ne_nil_of_length_pos
        rw [List.length_drop]
        omega
      · exact hne c (List.mem_cons_of_mem _ hc)
    · obtain ⟨hflatten, hrest⟩ := ih h (by rw [List.length_append]; omega) (fun c hc => hne c (List.mem_cons_of_mem _ hc))
      exact ⟨by rw [List.flatten_cons, ← List.append_assoc, hflatten], hrest⟩
    · cases h
      exact ⟨rfl, hfilled, fun hlt => (hroom hlt).elim, hne⟩

/-- The accepted uploads of these contents, numbered from `k` on. -/
def uploads (uploadId : String) : ℕ → List Bytes → List S3Call
  | _, [] => []
  | k, content :: rest => .uploadPart uploadId (Int32.ofNat k) content true :: uploads uploadId (k + 1) rest

/-- The parts an upload is made of: all but the last are full, and the last is not empty. -/
structure Sized (partSize : ℕ) (contents : List Bytes) : Prop where
  full : ∀ content ∈ contents.dropLast, content.length = partSize
  last : ∀ content, contents.getLast? = some content → 1 ≤ content.length ∧ content.length ≤ partSize

lemma sized_singleton {content : Bytes} (hne : content ≠ []) (hle : content.length ≤ partSize) :
    Sized partSize [content] := by
  refine ⟨by simp, ?_⟩
  rintro _ ⟨⟩
  exact ⟨List.length_pos_of_ne_nil hne, hle⟩

lemma Sized.cons {content : Bytes} {contents : List Bytes} (h : Sized partSize contents) (hpos : 1 ≤ partSize)
    (hfull : content.length = partSize) : Sized partSize (content :: contents) := by
  cases contents with
  | nil =>
    apply sized_singleton _ hfull.le
    apply List.ne_nil_of_length_pos
    omega
  | cons next contents =>
    constructor
    · intro c hc
      rw [List.dropLast_cons_cons] at hc
      rcases List.mem_cons.mp hc with rfl | hc
      · exact hfull
      · exact h.full c hc
    · intro c hc
      rw [List.getLast?_cons_cons] at hc
      exact h.last c hc

/-- What the rounds of an upload have done when they end well: the rest of the body is in the parts. -/
structure Delivered (answers : S3Answers) (partSize : ℕ) (uploadId : String) (k : ℕ) (bytes : Bytes)
    (parts : List CompletedPart) (calls : List S3Call) (contents : List Bytes) : Prop where
  calls : calls = uploads uploadId k contents
  numbers : parts.map (·.partNumber) = (List.range' k contents.length).map Int32.ofNat
  tags : ∀ part ∈ parts, answers.part part.partNumber = .uploaded part.eTag
  bytes : contents.flatten = bytes
  sized : Sized partSize contents

lemma delivered_nil (k : ℕ) : Delivered answers partSize uploadId k [] [] [] [] :=
  ⟨rfl, rfl, by simp, rfl, ⟨by simp, by simp⟩⟩

/-- An upload that goes on has got a tag for its part. -/
lemma uploadPart_bind_ok {partNumber : Int32} {buf : Bytes} {f : String → S3M (List CompletedPart)}
    {parts : List CompletedPart} (h : (uploadPart answers uploadId partNumber buf >>= f).result = .ok parts) :
    ∃ eTag, answers.part partNumber = .uploaded eTag ∧ (f eTag).result = .ok parts ∧
      (uploadPart answers uploadId partNumber buf >>= f).calls =
        .uploadPart uploadId partNumber buf true :: (f eTag).calls := by
  unfold uploadPart at h ⊢
  cases htag : answers.part partNumber with
  | failed message => simp [htag] at h
  | missingETag => simp [htag] at h
  | uploaded eTag =>
    simp only [htag, Effect.call_bind, Effect.pure_result, Effect.pure_calls, Effect.ok_bind] at h ⊢
    exact ⟨eTag, rfl, h, rfl⟩

lemma uploadPart_calls (partNumber : Int32) (buf : Bytes) :
    ∀ c ∈ (uploadPart answers uploadId partNumber buf).calls,
      ∃ number body accepted, c = .uploadPart uploadId number body accepted := by
  unfold uploadPart
  cases answers.part partNumber <;> simp [Effect.call]

/-- An upload whose rounds end well has read the body to its end and sent all of it. -/
lemma uploadParts_ok (hpos : 1 ≤ partSize) (n : ℕ) : ∀ (k : ℕ) (chunks : List Bytes) (parts : List CompletedPart),
    (∀ chunk ∈ chunks, chunk ≠ []) → chunks.flatten.length < n →
    (uploadParts answers partSize ending uploadId n (Int32.ofNat k) chunks).result = .ok parts →
    ending = .eof ∧ ∃ contents, Delivered answers partSize uploadId k chunks.flatten parts
      (uploadParts answers partSize ending uploadId n (Int32.ofNat k) chunks).calls contents := by
  induction n with
  | zero => intro _ _ _ _ h; omega
  | succ n ih =>
    intro k chunks parts hne hfuel h
    unfold uploadParts at h ⊢
    cases hfill : fillPart partSize ending [] chunks with
    | error e => simp [hfill] at h
    | ok r =>
      obtain ⟨buf, rest⟩ := r
      obtain ⟨hflatten, hle, hend, hrest⟩ := fillPart_ok hfill (Nat.zero_le _) hne
      rw [List.nil_append] at hflatten
      simp only [hfill] at h ⊢
      split_ifs at h ⊢ with hnil hshort
      · obtain ⟨rfl, rfl⟩ := hend (by rw [hnil]; exact hpos)
        simp only [Effect.pure_result, Except.ok.injEq] at h
        subst h
        rw [hflatten, hnil]
        exact ⟨rfl, [], delivered_nil k⟩
      · -- a part that is not full ends the body
        obtain ⟨rfl, rfl⟩ := hend hshort
        obtain ⟨eTag, htag, hparts, hcalls⟩ := uploadPart_bind_ok h
        simp only [Effect.pure_result, Except.ok.injEq] at hparts
        subst hparts
        rw [hcalls, hflatten]
        exact ⟨rfl, [buf], rfl, rfl, by simpa using htag, by simp, sized_singleton hnil hle⟩
      · obtain ⟨eTag, htag, hparts, hcalls⟩ := uploadPart_bind_ok h
        have hnext : Int32.ofNat k + 1 = Int32.ofNat (k + 1) := (Int32.ofNat_add k 1).symm
        rw [hnext] at hparts hcalls
        have hlength : rest.flatten.length < n := by
          have htotal := congrArg List.length hflatten
          rw [List.length_append] at htotal
          have hbuf := List.length_pos_of_ne_nil hnil
          omega
        cases hrec : (uploadParts answers partSize ending uploadId n (Int32.ofNat (k + 1)) rest).result with
        | error e =>
          rw [Effect.bind_of_error hrec] at hparts
          simp at hparts
        | ok more =>
          rw [Effect.bind_of_ok hrec] at hparts hcalls
          simp only [Effect.pure_result, Except.ok.injEq] at hparts
          subst hparts
          obtain ⟨heof, contents, hcontents⟩ := ih (k + 1) rest more hrest hlength hrec
          refine ⟨heof, buf :: contents, ?_⟩
          constructor
          · rw [hnext, hcalls, Effect.pure_calls, List.append_nil, hcontents.calls]
            rfl
          · simp [List.range'_succ, hcontents.numbers]
          · intro part hpart
            rcases List.mem_cons.mp hpart with rfl | hpart
            · exact htag
            · exact hcontents.tags part hpart
          · rw [hflatten, List.flatten_cons, hcontents.bytes]
          · exact hcontents.sized.cons hpos (by omega)

/-- The rounds of an upload send parts of it and nothing else. -/
lemma uploadParts_calls (n : ℕ) : ∀ (partNumber : Int32) (chunks : List Bytes),
    ∀ c ∈ (uploadParts answers partSize ending uploadId n partNumber chunks).calls,
      ∃ number body accepted, c = .uploadPart uploadId number body accepted := by
  induction n with
  | zero => simp [uploadParts]
  | succ n ih =>
    intro partNumber chunks
    unfold uploadParts
    cases fillPart partSize ending [] chunks with
    | error e => simp
    | ok r =>
      simp only
      split_ifs
      · simp
      · apply Effect.bind_calls (uploadPart_calls partNumber r.1)
        simp
      · apply Effect.bind_calls (uploadPart_calls partNumber r.1)
        intro eTag
        apply Effect.bind_calls (ih _ _)
        simp

/-- As many parts as this size needs for the body, and no more. -/
lemma Sized.length_le {contents : List Bytes} (h : Sized partSize contents) (hpos : 1 ≤ partSize) :
    contents.length ≤ (contents.flatten.length + partSize - 1) / partSize := by
  rcases List.eq_nil_or_concat contents with rfl | ⟨full, content, rfl⟩
  · simp
  rw [List.concat_eq_append] at h ⊢
  have hlast := (h.last content (by simp)).1
  have hfull : full.flatten.length = full.length * partSize := by
    have hsizes : ∀ c ∈ full, c.length = partSize := fun c hc => h.full c (by simpa using hc)
    rw [List.length_flatten, List.map_congr_left hsizes, List.map_const', List.sum_replicate, smul_eq_mul]
  rw [Nat.le_div_iff_mul_le hpos, List.length_append, List.flatten_append, List.length_append, hfull]
  simp only [List.length_singleton, List.flatten_cons, List.flatten_nil, List.append_nil, Nat.add_mul, one_mul]
  omega

end Parts

section Contents
variable {uploadId : String}

lemma int32_ofNat_ne {i j : ℕ} (hi : i < 2 ^ 31) (hj : j < 2 ^ 31) (hne : i ≠ j) : Int32.ofNat i ≠ Int32.ofNat j := by
  intro heq
  have htoInt := congrArg Int32.toInt heq
  rw [Int32.toInt_ofNat_of_lt hi, Int32.toInt_ofNat_of_lt hj] at htoInt
  omega

/-- The parts numbered from `k` on leave those before them. -/
lemma uploads_keeps (contents : List Bytes) : ∀ (k : ℕ) (s : Stored) (i : ℕ), i < k → k + contents.length ≤ 2 ^ 31 →
    (s.after (uploads uploadId k contents)).parts (Int32.ofNat i) = s.parts (Int32.ofNat i) := by
  induction contents with
  | nil => intro k s i _ _; rfl
  | cons content contents ih =>
    intro k s i hi hk
    rw [List.length_cons] at hk
    have hstep := ih (k + 1) (s.step (.uploadPart uploadId (Int32.ofNat k) content true)) i (by omega) (by omega)
    refine hstep.trans ?_
    exact Function.update_of_ne (int32_ofNat_ne (by omega) (by omega) (by omega)) _ _

/-- What S3 joins up after the uploads of these contents. -/
lemma uploads_joined (contents : List Bytes) : ∀ (k : ℕ) (s : Stored), k + contents.length ≤ 2 ^ 31 →
    ((List.range' k contents.length).map Int32.ofNat).flatMap
      (fun number => ((s.after (uploads uploadId k contents)).parts number).getD []) = contents.flatten := by
  induction contents with
  | nil => intro k s _; rfl
  | cons content contents ih =>
    intro k s hk
    rw [List.length_cons] at hk
    have hrest := ih (k + 1) (s.step (.uploadPart uploadId (Int32.ofNat k) content true)) (by omega)
    have hfirst := @uploads_keeps uploadId contents (k + 1)
      (s.step (.uploadPart uploadId (Int32.ofNat k) content true)) k (by omega) (by omega)
    rw [List.length_cons, List.range'_succ, List.map_cons, List.flatMap_cons, List.flatten_cons]
    refine congrArg₂ (· ++ ·) ?_ hrest
    change ((Stored.after _ (uploads uploadId (k + 1) contents)).parts (Int32.ofNat k)).getD [] = content
    rw [hfirst]
    simp [Stored.step]

end Contents

section Exact
variable {answers : S3Answers} {partSize : ℕ} {putMeta : PutMeta} {body : Body} {uploadId : String}

/-- The rounds of `upload_parts` within `put_stream`. -/
def rounds (answers : S3Answers) (partSize : ℕ) (uploadId : String) (body : Body) : S3M (List CompletedPart) :=
  uploadParts answers partSize body.ending uploadId (body.bytes.length + 1) 1 body.chunks

lemma putStream_of_created (h : answers.create = .created uploadId) :
    (putStream answers partSize putMeta body).result = (putParts answers partSize uploadId putMeta body).result ∧
      (putStream answers partSize putMeta body).calls =
        .createMultipartUpload putMeta :: (putParts answers partSize uploadId putMeta body).calls := by
  unfold putStream
  rw [Effect.call_bind, h]
  exact ⟨rfl, rfl⟩

lemma putStream_of_not_created (h : ∀ uploadId, answers.create ≠ .created uploadId) :
    (∃ e, (putStream answers partSize putMeta body).result = .error e) ∧
      (putStream answers partSize putMeta body).calls = [.createMultipartUpload putMeta] := by
  unfold putStream
  rw [Effect.call_bind]
  cases hcreate : answers.create with
  | failed message => exact ⟨⟨_, rfl⟩, rfl⟩
  | missingUploadId => exact ⟨⟨_, rfl⟩, rfl⟩
  | created uploadId => exact (h uploadId hcreate).elim

/-- A reader that failed, or a part that did, ends in an abort. -/
lemma putParts_of_error {e : StoreError} (h : (rounds answers partSize uploadId body).result = .error e) :
    (putParts answers partSize uploadId putMeta body).result = .error e ∧
      (putParts answers partSize uploadId putMeta body).calls =
        (rounds answers partSize uploadId body).calls ++ [.abortMultipartUpload uploadId] := by
  unfold rounds at h ⊢
  simp [putParts, Effect.attempt, h]

/-- Without parts the upload is aborted and the object put whole. -/
lemma putParts_of_nil (h : (rounds answers partSize uploadId body).result = .ok []) :
    (putParts answers partSize uploadId putMeta body).result = (putObject answers putMeta []).result ∧
      (putParts answers partSize uploadId putMeta body).calls = (rounds answers partSize uploadId body).calls ++
        .abortMultipartUpload uploadId :: (putObject answers putMeta []).calls := by
  unfold rounds at h ⊢
  simp [putParts, Effect.attempt, h]

/-- Parts are completed, and an upload that is not is aborted. -/
lemma putParts_of_parts {parts : List CompletedPart} (hne : parts ≠ [])
    (h : (rounds answers partSize uploadId body).result = .ok parts) :
    ∃ accepted, (putParts answers partSize uploadId putMeta body).calls =
        (rounds answers partSize uploadId body).calls ++ .completeMultipartUpload uploadId parts accepted ::
          (if accepted then [] else [.abortMultipartUpload uploadId]) ∧
      ((putParts answers partSize uploadId putMeta body).result = .ok () ↔ accepted = true) := by
  unfold rounds at h ⊢
  obtain ⟨part, parts, rfl⟩ := List.exists_cons_of_ne_nil hne
  cases hcomplete : answers.complete with
  | none =>
    refine ⟨true, ?_⟩
    simp [putParts, Effect.attempt, h, hcomplete, Effect.call]
  | some message =>
    refine ⟨false, ?_⟩
    simp [putParts, Effect.attempt, h, hcomplete]

/-- Rounds that end well have read the whole body, and uploaded it in parts numbered from 1. -/
lemma rounds_ok (hpos : 1 ≤ partSize) (hparts : (body.bytes.length + partSize - 1) / partSize < 2 ^ 31 - 1)
    {parts : List CompletedPart} (h : (rounds answers partSize uploadId body).result = .ok parts) :
    body.ending = .eof ∧ ∃ contents : List Bytes, contents.length < 2 ^ 31 - 1 ∧
      Delivered answers partSize uploadId 1 body.bytes parts (rounds answers partSize uploadId body).calls contents := by
  obtain ⟨hending, contents, hdelivered⟩ := uploadParts_ok hpos _ 1 body.chunks parts body.nonempty (Nat.lt_succ_self _) h
  refine ⟨hending, contents, ?_, hdelivered⟩
  have hle := hdelivered.sized.length_le hpos
  rw [hdelivered.bytes] at hle
  exact hle.trans_lt hparts

lemma rounds_calls : ∀ c ∈ (rounds answers partSize uploadId body).calls,
    ∃ number content accepted, c = .uploadPart uploadId number content accepted :=
  uploadParts_calls _ _ _

/-- No round aborts. -/
lemma rounds_aborts : (rounds answers partSize uploadId body).calls.filter S3Call.isAbort = [] := by
  rw [List.filter_eq_nil_iff]
  intro c hc
  obtain ⟨number, content, accepted, rfl⟩ := rounds_calls c hc
  simp [S3Call.isAbort]

namespace Delivered
variable {bytes : Bytes} {parts : List CompletedPart} {calls : List S3Call} {contents : List Bytes} {k : ℕ}

lemma length_eq (h : Delivered answers partSize uploadId k bytes parts calls contents) :
    parts.length = contents.length := by
  have hlength := congrArg List.length h.numbers
  simpa using hlength

/-- An upload without parts is that of an empty body. -/
lemma parts_eq_nil (h : Delivered answers partSize uploadId k bytes parts calls contents) :
    parts = [] ↔ bytes = [] := by
  rw [← List.length_eq_zero_iff, h.length_eq, List.length_eq_zero_iff]
  constructor
  · rintro rfl
    exact h.bytes.symm
  · rintro rfl
    rcases List.eq_nil_or_concat contents with rfl | ⟨full, content, rfl⟩
    · rfl
    rw [List.concat_eq_append] at h
    have hlast := (h.sized.last content (by simp)).1
    have hnil := h.bytes
    rw [List.flatten_append, List.append_eq_nil_iff] at hnil
    simp [(by simpa using hnil.2 : content = [])] at hlast

lemma numbers_toInt (h : Delivered answers partSize uploadId k bytes parts calls contents)
    (hk : k + contents.length ≤ 2 ^ 31) :
    parts.map (·.partNumber.toInt) = (List.range' k contents.length).map Int.ofNat := by
  have hnumbers := congrArg (List.map Int32.toInt) h.numbers
  rw [List.map_map, List.map_map] at hnumbers
  refine hnumbers.trans (List.map_congr_left ?_)
  intro i hi
  rw [List.mem_range'_1] at hi
  exact Int32.toInt_ofNat_of_lt (by omega)

/-- Completing the upload stores its bytes. -/
lemma joined (h : Delivered answers partSize uploadId k bytes parts calls contents)
    (hk : k + contents.length ≤ 2 ^ 31) (s : Stored) :
    ((s.after calls).step (.completeMultipartUpload uploadId parts true)).object = some bytes := by
  have hjoined := @uploads_joined uploadId contents k s hk
  rw [← h.numbers, ← h.calls, List.flatMap_map, h.bytes] at hjoined
  simp [Stored.step, hjoined]

end Delivered

/-- What `put_stream` promises of a run over the destination as it was `before`. -/
structure ExactOrAborted (answers : S3Answers) (partSize : ℕ) (putMeta : PutMeta) (body : Body) (before : Stored)
    (run : S3M Unit) : Prop where
  /-- Only the whole body is completed, from parts that are all uploaded and numbered from 1. -/
  completed : ∀ uploadId parts accepted, S3Call.completeMultipartUpload uploadId parts accepted ∈ run.calls →
    body.ending = .eof ∧ body.bytes ≠ [] ∧ (∀ part ∈ parts, answers.part part.partNumber = .uploaded part.eTag) ∧
      ∃ contents : List Bytes, contents.flatten = body.bytes ∧ Sized partSize contents ∧
        parts.map (·.partNumber.toInt) = (List.range' 1 contents.length).map Int.ofNat ∧
        run.calls = .createMultipartUpload putMeta :: uploads uploadId 1 contents ++
          .completeMultipartUpload uploadId parts accepted ::
            (if accepted then [] else [.abortMultipartUpload uploadId])
  stored : run.result = .ok () → (before.after run.calls).object = some body.bytes
  /-- The empty body goes through an abort and a put. -/
  empty : run.result = .ok () → body.bytes = [] → ∃ uploadId, run.calls =
    [.createMultipartUpload putMeta, .abortMultipartUpload uploadId, .putObject putMeta [] true]
  aborted : ∀ e uploadId, run.result = .error e → answers.create = .created uploadId →
    run.calls.filter S3Call.isAbort = [.abortMultipartUpload uploadId]

variable {before : Stored}

/-- Without an upload id nothing is uploaded. -/
lemma exactOrAborted_of_not_created (hcreate : ∀ uploadId, answers.create ≠ .created uploadId) :
    ExactOrAborted answers partSize putMeta body before (putStream answers partSize putMeta body) := by
  obtain ⟨⟨e, hresult⟩, hcalls⟩ := @putStream_of_not_created answers partSize putMeta body hcreate
  constructor
  · simp [hcalls]
  · simp [hresult]
  · simp [hresult]
  · intro _ uploadId _ h
    exact (hcreate uploadId h).elim

lemma exactOrAborted_of_error {e : StoreError} (hcreate : answers.create = .created uploadId)
    (hrounds : (rounds answers partSize uploadId body).result = .error e) :
    ExactOrAborted answers partSize putMeta body before (putStream answers partSize putMeta body) := by
  obtain ⟨hresult, hcalls⟩ := @putStream_of_created answers partSize putMeta body uploadId hcreate
  obtain ⟨hresult', hcalls'⟩ := @putParts_of_error answers partSize putMeta body uploadId e hrounds
  rw [hresult'] at hresult
  rw [hcalls'] at hcalls
  constructor
  · intro uploadId' parts accepted hmem
    rw [hcalls] at hmem
    have hround : S3Call.completeMultipartUpload uploadId' parts accepted ∈ (rounds answers partSize uploadId body).calls := by
      simpa using hmem
    obtain ⟨number, content, accepted', hcall⟩ := rounds_calls _ hround
    simp at hcall
  · simp [hresult]
  · simp [hresult]
  · intro _ uploadId' _ h
    rw [hcreate, CreateAnswer.created.injEq] at h
    rw [hcalls, List.filter_cons_of_neg (by simp [S3Call.isAbort]), List.filter_append, rounds_aborts, ← h]
    rfl

lemma exactOrAborted_of_nil (hcreate : answers.create = .created uploadId)
    (hrounds : (rounds answers partSize uploadId body).result = .ok [])
    (hbytes : body.bytes = []) (hcalls : (rounds answers partSize uploadId body).calls = []) :
    ExactOrAborted answers partSize putMeta body before (putStream answers partSize putMeta body) := by
  obtain ⟨hresult, hrun⟩ := @putStream_of_created answers partSize putMeta body uploadId hcreate
  obtain ⟨hresult', hrun'⟩ := @putParts_of_nil answers partSize putMeta body uploadId hrounds
  rw [hresult'] at hresult
  rw [hrun', hcalls, List.nil_append] at hrun
  have hput : ∃ accepted, (putObject answers putMeta []).calls = [.putObject putMeta [] accepted] ∧
      ((putObject answers putMeta []).result = .ok () → accepted = true) := by
    unfold putObject
    cases answers.put with
    | none => exact ⟨true, rfl, fun _ => rfl⟩
    | some message => exact ⟨false, rfl, by simp⟩
  obtain ⟨accepted, hput, haccepted⟩ := hput
  rw [hput] at hrun
  constructor
  · simp [hrun]
  · intro hok
    rw [hrun, haccepted (hresult ▸ hok), hbytes]
    rfl
  · intro hok _
    rw [haccepted (hresult ▸ hok)] at hrun
    exact ⟨uploadId, hrun⟩
  · intro _ uploadId' _ h
    rw [hcreate, CreateAnswer.created.injEq] at h
    rw [hrun, ← h]
    rfl

lemma exactOrAborted_of_parts {parts : List CompletedPart} {contents : List Bytes}
    (hcreate : answers.create = .created uploadId) (hrounds : (rounds answers partSize uploadId body).result = .ok parts)
    (hne : parts ≠ []) (hending : body.ending = .eof) (hlength : contents.length < 2 ^ 31 - 1)
    (hdelivered : Delivered answers partSize uploadId 1 body.bytes parts (rounds answers partSize uploadId body).calls contents) :
    ExactOrAborted answers partSize putMeta body before (putStream answers partSize putMeta body) := by
  obtain ⟨hresult, hcalls⟩ := @putStream_of_created answers partSize putMeta body uploadId hcreate
  have hbytes : body.bytes ≠ [] := fun h => hne (hdelivered.parts_eq_nil.mpr h)
  have hnumbers := hdelivered.numbers_toInt (by omega)
  obtain ⟨accepted, hcalls', hresult'⟩ := @putParts_of_parts answers partSize putMeta body uploadId parts hne hrounds
  rw [hcalls'] at hcalls
  rw [← hresult] at hresult'
  constructor
  · intro uploadId' parts' accepted' hmem
    rw [hcalls, List.mem_cons, List.mem_append, List.mem_cons] at hmem
    have hcomplete : S3Call.completeMultipartUpload uploadId' parts' accepted' =
        .completeMultipartUpload uploadId parts accepted := by
      rcases hmem with hmem | hmem | hmem | hmem
      · simp at hmem
      · obtain ⟨number, content, accepted'', hcall⟩ := rounds_calls _ hmem
        simp at hcall
      · exact hmem
      · split_ifs at hmem <;> simp at hmem
    injection hcomplete with hid hparts haccepted
    subst hid hparts haccepted
    rw [hdelivered.calls] at hcalls
    exact ⟨hending, hbytes, hdelivered.tags, contents, hdelivered.bytes, hdelivered.sized, hnumbers, hcalls⟩
  · intro hok
    have hstored := hdelivered.joined (by omega) (before.step (.createMultipartUpload putMeta))
    rw [hcalls, hresult'.mp hok, if_pos rfl, ← List.cons_append, Stored.after_append]
    exact hstored
  · intro _ h
    exact (hbytes h).elim
  · intro e uploadId' herror h
    rw [hcreate, CreateAnswer.created.injEq] at h
    have hrejected : accepted = false := by
      rw [Bool.eq_false_iff, ne_eq, ← hresult', herror]
      simp
    rw [hcalls, hrejected, ← h, List.filter_cons_of_neg (by simp [S3Call.isAbort]), List.filter_append, rounds_aborts]
    rfl

/-- An upload leaves exactly the body at the destination, or it fails and has been aborted once. -/
theorem putStream_exact_or_aborted (answers : S3Answers) (partSize : ℕ) (putMeta : PutMeta) (body : Body)
    (before : Stored) (hpos : 1 ≤ partSize) (hparts : (body.bytes.length + partSize - 1) / partSize < 2 ^ 31 - 1) :
    ExactOrAborted answers partSize putMeta body before (putStream answers partSize putMeta body) := by
  by_cases hcreate : ∃ uploadId, answers.create = .created uploadId
  swap
  · exact exactOrAborted_of_not_created (fun uploadId h => hcreate ⟨uploadId, h⟩)
  obtain ⟨uploadId, hcreate⟩ := hcreate
  cases hrounds : (rounds answers partSize uploadId body).result with
  | error e => exact exactOrAborted_of_error hcreate hrounds
  | ok parts =>
    obtain ⟨hending, contents, hlength, hdelivered⟩ := rounds_ok hpos hparts hrounds
    by_cases hnil : parts = []
    · subst hnil
      have hcontents : contents = [] := List.length_eq_zero_iff.mp hdelivered.length_eq.symm
      rw [hcontents] at hdelivered
      exact exactOrAborted_of_nil hcreate hrounds (hdelivered.parts_eq_nil.mp rfl) hdelivered.calls
    · exact exactOrAborted_of_parts hcreate hrounds hnil hending hlength hdelivered

/-- Ten bytes read in two pieces go up in three parts of at most four. -/
theorem putStream_exact_or_aborted_sample :
    let answers : S3Answers := ⟨.created "upload", fun _ => .uploaded "tag", none, none⟩
    let body : Body := ⟨[[1, 2, 3, 4, 5], [6, 7, 8, 9, 10]], by decide, .eof⟩
    let run := putStream answers 4 ⟨"application/json", "gzip"⟩ body
    ExactOrAborted answers 4 ⟨"application/json", "gzip"⟩ body ⟨fun _ => none, none⟩ run ∧
      run.calls = [.createMultipartUpload ⟨"application/json", "gzip"⟩, .uploadPart "upload" 1 [1, 2, 3, 4] true,
        .uploadPart "upload" 2 [5, 6, 7, 8] true, .uploadPart "upload" 3 [9, 10] true,
        .completeMultipartUpload "upload" [⟨1, "tag"⟩, ⟨2, "tag"⟩, ⟨3, "tag"⟩] true] :=
  ⟨putStream_exact_or_aborted _ 4 _ _ _ (by decide) (by decide), by decide⟩

end Exact

end CloudTrailFilter.Aws
