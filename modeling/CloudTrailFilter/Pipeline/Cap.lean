import CloudTrailFilter.Lib.Limited
import CloudTrailFilter.Pipeline.Counters

/-!
# The size cap

`decompress_capped` and `fetch_with_missing_policy` read by read: the capacity hint from the gzip
trailer, the limit one past the cap and the check of what came out. Both refine the functions of
`Process.Buffer` and `Pipeline.Object`, which look at the whole sequence, and their cap is exact.
-/

namespace CloudTrailFilter.Process
open CloudTrailFilter.Json CloudTrailFilter.Filter

section Hint

/-- `slice::get(start..)`. -/
def getFrom (input : Bytes) (start : ℕ) : Option Bytes :=
  if start ≤ input.length then some (input.drop start) else none

lemma getFrom_eq_some {input trailer : Bytes} {start : ℕ} (h : getFrom input start = some trailer) :
    start ≤ input.length ∧ trailer.length = input.length - start := by
  unfold getFrom at h
  split_ifs at h with hstart
  have htrailer : input.drop start = trailer := Option.some.inj h
  exact ⟨hstart, by rw [← htrailer, List.length_drop]⟩

/-- `u32::from_le_bytes` of the first four bytes. `None` is a panic: an index past the end. -/
def u32FromLeBytes : Bytes → Option ℕ
  | b₀ :: b₁ :: b₂ :: b₃ :: _ =>
    some (b₀.toNat + 256 * b₁.toNat + 65536 * b₂.toNat + 16777216 * b₃.toNat)
  | _ => none

lemma u32FromLeBytes_isSome {trailer : Bytes} (h : 4 ≤ trailer.length) : ∃ n, u32FromLeBytes trailer = some n := by
  match trailer, h with
  | b₀ :: b₁ :: b₂ :: b₃ :: rest, _ => exact ⟨_, rfl⟩

def maxDeflateRatio : ℕ := 1032

/-- For an input of less than four bytes the start of the trailer wraps around to the far end of
the range. -/
def decompressedSizeHint (input : Bytes) (maxObjectBytes : ℕ) : Option ℕ :=
  match getFrom input (wrappingSub 64 input.length 4) with
  | none => some 0
  | some trailer =>
    let cap := min (saturatingAdd 64 maxObjectBytes 1) usizeMax
    (u32FromLeBytes trailer).map (fun isizeField =>
      min (min isizeField cap) (saturatingMul 64 input.length maxDeflateRatio))

/-- The hint is there for every input, and no larger than what the input can expand to. -/
lemma decompressedSizeHint_le (input : Bytes) (maxObjectBytes : ℕ) :
    ∃ hint, decompressedSizeHint input maxObjectBytes = some hint ∧ hint ≤ maxDeflateRatio * input.length := by
  have hbound (n : ℕ) : min n (saturatingMul 64 input.length maxDeflateRatio) ≤ maxDeflateRatio * input.length := by
    rw [Nat.mul_comm]
    exact (Nat.min_le_right _ _).trans (saturatingMul_le _ _)
  unfold decompressedSizeHint
  cases hget : getFrom input (wrappingSub 64 input.length 4) with
  | none => exact ⟨0, rfl, Nat.zero_le _⟩
  | some trailer =>
    obtain ⟨hstart, htrailer⟩ := getFrom_eq_some hget
    have hlen := wrappingSub_add_le (by norm_num) hstart
    have hfour : 4 ≤ trailer.length := by omega
    obtain ⟨isizeField, hfield⟩ := u32FromLeBytes_isSome hfour
    exact ⟨_, congrArg (Option.map _) hfield, hbound _⟩

end Hint

section Decompress
variable (gz : Gzip) (pieces : ℕ → ℕ → ℕ)

/-- The error a decoder ends with. -/
def decoderError (intact : Bool) : Option CoreError := if intact then none else some .gzip

/-- Decompression into a buffer of a given capacity, which the sizes of the reads may depend on. -/
def decompressInto (capacity : ℕ) (input : Bytes) (maxObjectBytes : ℕ) : Except CoreError Bytes :=
  let (out, intact) := gz.readToEnd input
  readCapped 64 (.objectTooLarge maxObjectBytes) (decoderError intact) (pieces capacity) maxObjectBytes out

/-- `decompress_capped` read by read. `None` is a panic. -/
def decompressCappedReads (input : Bytes) (maxObjectBytes : ℕ) : Option (Except CoreError Bytes) := do
  let capacity ← decompressedSizeHint input maxObjectBytes
  some (decompressInto gz pieces capacity input maxObjectBytes)

variable {gz pieces}

lemma decoderError_ne (intact : Bool) (limit : ℕ) : decoderError intact ≠ some (.objectTooLarge limit) := by
  cases intact <;> simp [decoderError]

/-- Neither the capacity nor the sizes of the reads have a part in the result. -/
lemma decompressInto_eq (pieces' : ℕ → ℕ → ℕ) (capacity capacity' : ℕ) (input : Bytes) (maxObjectBytes : ℕ) :
    decompressInto gz pieces capacity input maxObjectBytes =
      decompressInto gz pieces' capacity' input maxObjectBytes := by
  unfold decompressInto readCapped
  simp only [takeToEnd_eq]

/-- Read by read, decompression does what it does on the whole sequence. -/
theorem decompressInto_refines (cfg : Processing) (hcap : cfg.maxObjectBytes ≤ maxUnsigned 64) {input : Bytes}
    (hcount : Countable 64 cfg.maxObjectBytes (gz.readToEnd input).1.length) (capacity : ℕ) :
    decompressInto gz pieces capacity input cfg.maxObjectBytes = decompressCapped gz cfg input := by
  unfold decompressInto decompressCapped
  generalize gz.readToEnd input = read at *
  obtain ⟨out, intact⟩ := read
  dsimp only at hcount ⊢
  rw [readCapped_eq hcap hcount]
  cases intact <;> rfl

end Decompress

end CloudTrailFilter.Process

namespace CloudTrailFilter.Pipeline
open CloudTrailFilter.Json CloudTrailFilter.Filter CloudTrailFilter.Process

section Fetch
variable (settings : Settings) (attempt : Attempt) (pieces : ℕ → ℕ)

/-- The error a read of a body ends with. -/
def bodyError (source : Location) (body : Body) : Option CoreError :=
  match body.ending with
  | .eof => none
  | .failed message => some (.store (.backend ("reading " ++ source.1 ++ "/" ++ source.2 ++ ": " ++ message)))

/-- `fetch_with_missing_policy` read by read. -/
def fetchReads (source : Location) : ObjectM (Option Bytes) := do
  let reader ← openWithMissingPolicy settings attempt.fetch source
  match reader with
  | none => pure none
  | some body =>
    let limit := settings.processing.maxObjectBytes
    match readCapped 64 (.objectTooLarge limit) (bodyError source body) pieces limit body.bytes with
    | .error e => Effect.fail e
    | .ok buf => pure (some buf)

variable {settings attempt pieces}

lemma bodyError_ne (source : Location) (body : Body) (limit : ℕ) :
    bodyError source body ≠ some (.objectTooLarge limit) := by
  unfold bodyError
  cases body.ending <;> simp

/-- A fetch whose source opens reads its body under the cap. -/
lemma fetchReads_result (source : Location) {body : Body} (hfetch : attempt.fetch = .body body) :
    (fetchReads settings attempt pieces source).result =
      (readCapped 64 (.objectTooLarge settings.processing.maxObjectBytes) (bodyError source body) pieces
        settings.processing.maxObjectBytes body.bytes).map some := by
  cases hread : readCapped 64 (.objectTooLarge settings.processing.maxObjectBytes) (bodyError source body) pieces
      settings.processing.maxObjectBytes body.bytes with
  | ok buf => simp [fetchReads, openWithMissingPolicy, hfetch, hread, Except.map]
  | error e => simp [fetchReads, openWithMissingPolicy, hfetch, hread, Except.map]

/-- Read by read, a fetch does what it does on the whole body. -/
theorem fetchReads_refines (hcap : settings.processing.maxObjectBytes ≤ maxUnsigned 64)
    (hcount : ∀ body, attempt.fetch = .body body →
      Countable 64 settings.processing.maxObjectBytes body.bytes.length) (source : Location) :
    fetchReads settings attempt pieces source = fetchWithMissingPolicy settings attempt source := by
  unfold fetchReads fetchWithMissingPolicy
  cases hfetch : attempt.fetch with
  | body body =>
    have hread : readCapped 64 (.objectTooLarge settings.processing.maxObjectBytes) (bodyError source body)
        pieces settings.processing.maxObjectBytes body.bytes = _ := readCapped_eq hcap (hcount body hfetch)
    unfold underCap at hread
    by_cases hlarge : settings.processing.maxObjectBytes < body.bytes.length
    · rw [if_pos hlarge] at hread
      simp [openWithMissingPolicy, hread, hlarge]
    · rw [if_neg hlarge] at hread
      cases hend : body.ending with
      | eof =>
        simp only [bodyError, hend] at hread
        simp [openWithMissingPolicy, hread, bodyError, hlarge, hend]
      | failed message =>
        simp only [bodyError, hend] at hread
        simp [openWithMissingPolicy, hread, bodyError, hlarge, hend]
  | notFound => cases hmissing : settings.behavior.onMissingObject <;> simp [openWithMissingPolicy, hmissing]
  | failed message => simp [openWithMissingPolicy]

end Fetch

section Exact

/-- The cap is exact at every limit, for the decompressed sequence and for the compressed body. The
capacity hint is there for every input, stays below what the input can expand to, and has no part
in the result. No memory holds `u64::MAX` bytes, which is all that `Countable` leaves out. -/
theorem size_cap_exact (gz : Gzip) (settings : Settings) (attempt : Attempt) (pieces : ℕ → ℕ → ℕ)
    (input : Bytes) (source : Location) (hcap : settings.processing.maxObjectBytes ≤ maxUnsigned 64) :
    let cap := settings.processing.maxObjectBytes
    let read := gz.readToEnd input
    (∃ hint, decompressedSizeHint input cap = some hint ∧ hint ≤ 1032 * input.length) ∧
    (∃ result, decompressCappedReads gz pieces input cap = some result ∧
      (∀ pieces' capacity, decompressInto gz pieces' capacity input cap = result) ∧
      (Countable 64 cap read.1.length →
        ExactCap cap read.1.length (.objectTooLarge cap) (decoderError read.2) read.1 result) ∧
      (cap = maxUnsigned 64 → result ≠ .error (.objectTooLarge cap))) ∧
    ∀ body, attempt.fetch = .body body →
      let fetched := (fetchReads settings attempt (pieces 0) source).result
      (Countable 64 cap body.bytes.length →
        ExactCap cap body.bytes.length (.objectTooLarge cap) (bodyError source body) (some body.bytes) fetched) ∧
      (cap = maxUnsigned 64 → fetched ≠ .error (.objectTooLarge cap)) := by
  intro cap read
  obtain ⟨hint, hhint, hle⟩ := decompressedSizeHint_le input cap
  refine ⟨⟨hint, hhint, hle⟩, ⟨decompressInto gz pieces hint input cap, ?_, ?_, ?_, ?_⟩, ?_⟩
  · simp only [decompressCappedReads, hhint]
    rfl
  · intro pieces' capacity
    exact decompressInto_eq _ _ _ _ _
  · intro hcount
    have hread : decompressInto gz pieces hint input cap = _ := readCapped_eq hcap hcount
    rw [hread]
    exact underCap_exact (decoderError_ne _ cap) _ _
  · intro hmax
    unfold decompressInto
    rw [hmax]
    exact readCapped_max (decoderError_ne _ _)
  · intro body hfetch fetched
    have hread : fetched = _ := fetchReads_result source hfetch
    refine ⟨fun hcount => ?_, fun hmax => ?_⟩
    · rw [hread, readCapped_eq hcap hcount, map_underCap]
      exact underCap_exact (bodyError_ne source body cap) _ _
    · have hne : readCapped 64 (.objectTooLarge cap) (bodyError source body) (pieces 0) cap body.bytes ≠
          .error (.objectTooLarge cap) := by
        rw [hmax]
        exact readCapped_max (bodyError_ne source body _)
      rw [hread]
      intro h
      apply hne
      cases hr : readCapped 64 (.objectTooLarge cap) (bodyError source body) (pieces 0) cap body.bytes with
      | ok buf => simp [cap, hr, Except.map] at h
      | error e => simpa [cap, hr, Except.map] using h

/-- The sample settings under another cap. -/
def cappedSettings (cap : ℕ) : Settings :=
  { sampleSettings with processing := { sampleProcessing with maxObjectBytes := cap } }

theorem size_cap_exact_sample :
    let input := storedMember [1, 2, 3, 4]
    let attempt := sampleAttempt "ab"
    decompressCappedReads storedGzip (fun _ _ => 0) input 4 = some (.ok [1, 2, 3, 4]) ∧
      decompressCappedReads storedGzip (fun _ _ => 0) input 3 = some (.error (.objectTooLarge 3)) ∧
      (fetchReads (cappedSettings 24) attempt (fun _ => 0) ("trail", "a")).result = .error (.objectTooLarge 24) := by
  intro input attempt
  have hread : storedGzip.readToEnd input = ([1, 2, 3, 4], true) := by decide +kernel
  obtain ⟨-, ⟨r, hr, -, hfits, -⟩, -⟩ := size_cap_exact storedGzip (cappedSettings 4) attempt (fun _ _ => 0)
    input ("trail", "a") (by decide)
  obtain ⟨-, ⟨s, hs, -, hlarge, -⟩, -⟩ := size_cap_exact storedGzip (cappedSettings 3) attempt (fun _ _ => 0)
    input ("trail", "a") (by decide)
  obtain ⟨-, -, hfetch⟩ := size_cap_exact storedGzip (cappedSettings 24) attempt (fun _ _ => 0)
    input ("trail", "a") (by decide)
  have hbody : (sampleBody "ab").bytes.length = 25 := by decide +kernel
  rw [hread] at hfits hlarge
  refine ⟨?_, ?_, ?_⟩
  · rw [show (4 : ℕ) = (cappedSettings 4).processing.maxObjectBytes from rfl, hr]
    exact congrArg some (((hfits (countable_of_lt (by decide) _)).ok_iff _).mpr ⟨rfl, le_rfl, rfl⟩)
  · rw [show (3 : ℕ) = (cappedSettings 3).processing.maxObjectBytes from rfl, hs]
    exact congrArg some ((hlarge (countable_of_lt (by decide) _)).tooLarge_iff.mpr le_rfl)
  · obtain ⟨hexact, -⟩ := hfetch (sampleBody "ab") rfl
    refine (hexact (countable_of_lt (by decide) _)).tooLarge_iff.mpr ?_
    rw [hbody]
    exact le_rfl

end Exact

end CloudTrailFilter.Pipeline
