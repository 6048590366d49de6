import CloudTrailFilter.Lib.Workers
import CloudTrailFilter.Process.Buffer

/-!
# Chunked compression

`gzip_compress_chunked` with its scoped threads: the parts above the first are compressed by
workers that finish in any order, and a worker may fail. Whatever comes out is the sequence of
members of `gzipCompressChunked`, as many as asked for or as the body allows, and balanced.
-/

namespace CloudTrailFilter.Process
open CloudTrailFilter.Json Fallible

section Scoped
variable (gz : Gzip) (fails : ℕ → Bool) (level : ℕ)

/-- The compression of one part, by the caller or by a worker. The encoder may fail, and a worker
may panic. -/
def compressPart (i : ℕ) (part : Bytes) : Except CoreError Bytes :=
  if fails i then .error (.internal .compression) else .ok (gz.gzipCompress part level)

/-- The members one after the other, or the first error among them. -/
def concatMembers (members : List (Except CoreError Bytes)) : Except CoreError Bytes := do
  let members ← members.mapM id
  .ok members.flatten

/-- The runs of `gzip_compress_chunked` and their results. The first part is compressed by the
caller, so worker `i` has part `i + 1`. -/
inductive ChunkedRun (body : Bytes) (chunks : ℕ) : Except CoreError Bytes → Prop
  | single : max (min chunks (body.length / minChunkBytes)) 1 = 1 →
      ChunkedRun body chunks (compressPart gz fails level 0 body)
  | threaded (first : Bytes) (rest : List Bytes) (s : Workers.Scope (Except CoreError Bytes))
      (results : List (Except CoreError Bytes)) :
      max (min chunks (body.length / minChunkBytes)) 1 ≠ 1 →
      body.toChunks (chunkSize body (max (min chunks (body.length / minChunkBytes)) 1)) = first :: rest →
      Concurrency.Reachable (Workers.Scope.step (fun i => compressPart gz fails level (i + 1)) rest)
        (Workers.Scope.spawned rest) s →
      s.joined = some results →
      ChunkedRun body chunks (concatMembers (compressPart gz fails level 0 first :: results))

variable {gz fails level} {body : Bytes} {chunks : ℕ}

lemma compressPart_ok {i : ℕ} {part out : Bytes} (h : compressPart gz fails level i part = .ok out) :
    out = gz.gzipCompress part level := by
  unfold compressPart at h
  split_ifs at h
  exact (Except.ok.inj h).symm

/-- What is concatenated are the members of the parts, in their order. -/
lemma concatMembers_ok {parts : List Bytes} {out : Bytes}
    (h : concatMembers (parts.mapIdx (compressPart gz fails level)) = .ok out) :
    out = (parts.map (gz.gzipCompress · level)).flatten := by
  obtain ⟨members, hmembers, h⟩ := bind_ok_iff.mp h
  have hall := mapM_ok_iff.mp hmembers
  have hlen : parts.length = members.length := by simpa using hall.length_eq
  have hmap : members = parts.map (gz.gzipCompress · level) := by
    apply List.ext_getElem
    · simpa using hlen.symm
    · intro i hi hi'
      have hpart : i < (parts.mapIdx (compressPart gz fails level)).length := by simpa using hi'
      have hget := hall.get hpart hi
      simp only [List.get_eq_getElem, List.getElem_mapIdx, id] at hget
      rw [compressPart_ok hget, List.getElem_map]
  rw [← hmap]
  exact (Except.ok.inj h).symm

lemma concatMembers_intact (hintact : ∀ i, fails i = false) (parts : List Bytes) :
    concatMembers (parts.mapIdx (compressPart gz fails level)) =
      .ok (parts.map (gz.gzipCompress · level)).flatten := by
  have hpart (i : ℕ) (part : Bytes) : compressPart gz fails level i part = .ok (gz.gzipCompress part level) := by
    simp [compressPart, hintact]
  have hparts : (parts.mapIdx (compressPart gz fails level)).mapM id =
      .ok (parts.map (gz.gzipCompress · level)) := by
    apply mapM_ok_iff.mpr
    apply List.forall₂_iff_get.mpr
    refine ⟨by simp, fun i hi hi' => ?_⟩
    simp [hpart]
  unfold concatMembers
  rw [hparts, ok_bind]

/-- A run over several parts concatenates what the parts compress to, the caller's part first. -/
lemma ChunkedRun.cases {result : Except CoreError Bytes} (h : ChunkedRun gz fails level body chunks result) :
    (max (min chunks (body.length / minChunkBytes)) 1 = 1 ∧ result = compressPart gz fails level 0 body) ∨
    (max (min chunks (body.length / minChunkBytes)) 1 ≠ 1 ∧
      result = concatMembers ((body.toChunks (chunkSize body (max (min chunks (body.length / minChunkBytes)) 1))).mapIdx
        (compressPart gz fails level))) := by
  cases h with
  | single hone => exact .inl ⟨hone, rfl⟩
  | threaded first rest s results hmany hparts hreach hjoined =>
    refine .inr ⟨hmany, ?_⟩
    rw [hparts, List.mapIdx_cons, Workers.Scope.joined_eq hreach hjoined]

/-- What a run returns is what the members of the parts make in order. -/
theorem ChunkedRun.refines {out : Bytes} (h : ChunkedRun gz fails level body chunks (.ok out)) :
    out = gzipCompressChunked gz body level chunks := by
  unfold gzipCompressChunked
  rcases h.cases with ⟨hone, hresult⟩ | ⟨hmany, hresult⟩
  · simp only [hone, if_true]
    exact compressPart_ok hresult.symm
  · simp only [if_neg hmany]
    exact concatMembers_ok hresult.symm

lemma ChunkedRun.intact (hintact : ∀ i, fails i = false) {result : Except CoreError Bytes}
    (h : ChunkedRun gz fails level body chunks result) : ∃ out, result = .ok out := by
  rcases h.cases with ⟨-, rfl⟩ | ⟨-, rfl⟩
  · exact ⟨gz.gzipCompress body level, by simp [compressPart, hintact]⟩
  · exact ⟨_, concatMembers_intact hintact _⟩

/-- The workers always come to an end. -/
lemma exists_chunkedRun (gz : Gzip) (fails : ℕ → Bool) (level : ℕ) (body : Bytes) (chunks : ℕ) :
    ∃ result, ChunkedRun gz fails level body chunks result := by
  by_cases hone : max (min chunks (body.length / minChunkBytes)) 1 = 1
  · exact ⟨_, .single hone⟩
  · cases hparts : body.toChunks (chunkSize body (max (min chunks (body.length / minChunkBytes)) 1)) with
    | nil =>
      have hflat := flatten_toChunks (chunkSize body (max (min chunks (body.length / minChunkBytes)) 1)) body
      rw [hparts, List.flatten_nil] at hflat
      simp [← hflat] at hone
    | cons first rest =>
      obtain ⟨s, hreach, hjoined⟩ := @Workers.Scope.exists_joined _ _
        (fun i => compressPart gz fails level (i + 1)) rest
      exact ⟨_, .threaded first rest s _ hone hparts hreach hjoined⟩

end Scoped

section Balance

/-- A division of a body into as many parts as asked for, or as have the least size: all but the
last are of one size, and the last is shorter by less than the number of parts asked for. -/
structure Balanced (body : Bytes) (chunks : ℕ) (parts : List Bytes) : Prop where
  count : parts.length = max 1 (min chunks (body.length / 65536))
  payload : parts.flatten = body
  nonempty : 1 < parts.length → ∀ part ∈ parts, part ≠ []
  sizes : 1 < parts.length → ∃ size front last, parts = front ++ [last] ∧ (∀ part ∈ front, part.length = size) ∧
    65536 ≤ size ∧ last.length ≤ size ∧ size - last.length ≤ chunks - 1

lemma balanced_single {body : Bytes} {chunks : ℕ} (hone : max (min chunks (body.length / minChunkBytes)) 1 = 1) :
    Balanced body chunks [body] := by
  constructor
  · rw [List.length_singleton, Nat.max_comm]
    exact hone.symm
  · simp
  · simp
  · simp

/-- The rounded up quotient of a body that has the least size for each part. -/
lemma balanced_toChunks {body : Bytes} {chunks : ℕ} (hchunks : chunks ≤ 16)
    (hmany : max (min chunks (body.length / minChunkBytes)) 1 ≠ 1) :
    Balanced body chunks
      (body.toChunks (chunkSize body (max (min chunks (body.length / minChunkBytes)) 1))) := by
  generalize hcount : max (min chunks (body.length / minChunkBytes)) 1 = count at *
  have hpos : 0 < count := by omega
  have hask : count ≤ chunks := by omega
  have hfill : 65536 * count ≤ body.length := by
    have hquot : count ≤ body.length / 65536 := by
      unfold minChunkBytes at hcount
      omega
    have hmul := Nat.mul_le_mul_left 65536 hquot
    have hdiv := Nat.mul_div_le body.length 65536
    omega
  have hsize : 65536 ≤ chunkSize body count := by
    unfold chunkSize
    rw [Nat.le_div_iff_mul_le hpos]
    omega
  obtain ⟨hlow, hhigh, hround⟩ := Workers.ceilDiv_bounds hpos (show count ≤ chunkSize body count by omega)
  rw [show (body.length + count - 1) / count = chunkSize body count from rfl] at hlow hhigh hround
  obtain ⟨front, last, hparts, hfront, hsizes, hlast⟩ := Workers.toChunks_parts hlow
    (by rwa [Nat.sub_add_cancel hpos])
  have hpred : (count - 1) * chunkSize body count + chunkSize body count = count * chunkSize body count := by
    rw [← Nat.succ_mul, Nat.succ_eq_add_one, Nat.sub_add_cancel hpos]
  have hflat := flatten_toChunks (chunkSize body count) body
  rw [hparts] at hflat ⊢
  constructor
  · rw [List.length_append, hfront, List.length_singleton, Nat.sub_add_cancel hpos, Nat.max_comm]
    exact hcount.symm
  · exact hflat
  · intro _ part hpart hnil
    subst hnil
    rcases List.mem_append.mp hpart with hpart | hpart
    · have hzero := hsizes [] hpart
      rw [List.length_nil] at hzero
      omega
    · rw [← List.mem_singleton.mp hpart, List.length_nil] at hlast
      omega
  · intro _
    refine ⟨chunkSize body count, front, last, rfl, hsizes, hsize, ?_, ?_⟩
    · omega
    · omega

/-- Chunked compression is faithful and balanced, in every order in which the workers finish: what
a run returns is the concatenation of one member for each part of a balanced division of the body,
and a run in which no encoder fails and no worker panics returns. -/
theorem chunked_compression_balanced (gz : Gzip) (fails : ℕ → Bool) (level : ℕ) (body : Bytes) (chunks : ℕ)
    (hchunks : 1 ≤ chunks ∧ chunks ≤ 16)
    (hmember : ∀ part, gz.readToEnd (gz.gzipCompress part level) = (part, true)) :
    (∃ result, ChunkedRun gz fails level body chunks result) ∧
    ∀ result, ChunkedRun gz fails level body chunks result →
      ((∀ i, fails i = false) → ∃ out, result = .ok out) ∧
      ∀ out, result = .ok out → ∃ parts, Balanced body chunks parts ∧
        out = (parts.map (gz.gzipCompress · level)).flatten ∧
        ∀ part ∈ parts, gz.readToEnd (gz.gzipCompress part level) = (part, true) := by
  refine ⟨exists_chunkedRun gz fails level body chunks, fun result hrun => ⟨fun hintact => hrun.intact hintact, ?_⟩⟩
  rintro out rfl
  rcases hrun.cases with ⟨hone, hresult⟩ | ⟨hmany, hresult⟩
  · refine ⟨[body], balanced_single hone, ?_, fun part _ => hmember part⟩
    simpa using compressPart_ok hresult.symm
  · exact ⟨_, balanced_toChunks hchunks.2 hmany, concatMembers_ok hresult.symm, fun part _ => hmember part⟩

theorem chunked_compression_balanced_sample :
    ∃ out parts, ChunkedRun storedGzip (fun _ => false) 6 (List.replicate 200000 120) 4 (.ok out) ∧
      Balanced (List.replicate 200000 120) 4 parts ∧ parts.length = 3 ∧
      out = (parts.map (storedGzip.gzipCompress · 6)).flatten := by
  obtain ⟨⟨result, hrun⟩, hruns⟩ := chunked_compression_balanced storedGzip (fun _ => false) 6
    (List.replicate 200000 120) 4 (by decide) (storedGzip_lawful.readToEnd_compress 6)
  obtain ⟨hok, hparts⟩ := hruns result hrun
  obtain ⟨out, rfl⟩ := hok (fun _ => rfl)
  obtain ⟨parts, hbalanced, hout, -⟩ := hparts out rfl
  refine ⟨out, parts, hrun, hbalanced, ?_, hout⟩
  have hcount := hbalanced.count
  rw [List.length_replicate] at hcount
  exact hcount

end Balance

end CloudTrailFilter.Process
