import CloudTrailFilter.Json.Scan

/-!
# Gzip

The compression library as a parameter. `Gzip` has the operations the two processing modes
use of it and `Gzip.Lawful` says what they rely on: the encoder's output depends only on the
concatenation of what was written, the decoder yields the concatenation of the members, and an
incremental decoder never takes back what it has delivered. The file ends with a codec of
stored blocks that has these properties.
-/

namespace CloudTrailFilter.Process
open Json

/-- How the output of an incremental decoder ends: after the last trailer, at damage, or
for want of input. -/
inductive GzEnd where
  | clean
  | corrupt
  | waiting
deriving DecidableEq, Repr

structure Gzip where
  /-- `MultiGzDecoder::read_to_end`: what is delivered and whether the input was intact. -/
  readToEnd : Bytes → Bytes × Bool
  /-- What a `MultiGzDecoder` read byte by byte delivers once these chunks have arrived, after
  which the input has ended or nothing is known of it. -/
  inflate : List Bytes → Tail → Bytes × GzEnd
  Encoder : Type
  new : ℕ → Encoder
  /-- The encoder after a write and what the write added to its sink. -/
  write : Encoder → Bytes → Encoder × Bytes
  /-- What finishing adds to the sink. -/
  finish : Encoder → Bytes

namespace Gzip
variable (gz : Gzip)

/-- A sequence of writes and everything it added to the sink. -/
def writeAll (encoder : gz.Encoder) : List Bytes → gz.Encoder × Bytes
  | [] => (encoder, [])
  | piece :: pieces =>
    let (encoder, out) := gz.write encoder piece
    let (encoder, rest) := writeAll encoder pieces
    (encoder, out ++ rest)

/-- The whole output of an encoder that is given `pieces` and finished. -/
def encode (level : ℕ) (pieces : List Bytes) : Bytes :=
  let (encoder, out) := gz.writeAll (gz.new level) pieces
  out ++ gz.finish encoder

/-- `gzip_compress`: one member. -/
def gzipCompress (body : Bytes) (level : ℕ) : Bytes := gz.encode level [body]

structure Lawful : Prop where
  encode_flatten : ∀ level pieces, gz.encode level pieces = gz.encode level [pieces.flatten]
  readToEnd_members : ∀ level parts, parts ≠ [] →
    gz.readToEnd ((parts.map (fun part => gz.gzipCompress part level)).flatten) = (parts.flatten, true)
  inflate_clean : ∀ chunks text, gz.inflate chunks .eof = (text, .clean) ↔
    gz.readToEnd chunks.flatten = (text, true)
  inflate_eof : ∀ chunks, (gz.inflate chunks .eof).2 ≠ .waiting
  inflate_cut : ∀ chunks, (gz.inflate chunks .cut).2 ≠ .clean
  inflate_extends : ∀ chunks more t, (gz.inflate chunks .cut).1 <+: (gz.inflate (chunks ++ more) t).1
  inflate_corrupt : ∀ chunks more t, (gz.inflate chunks .cut).2 = .corrupt →
    gz.inflate (chunks ++ more) t = gz.inflate chunks .cut

variable {gz}

lemma writeAll_append (encoder : gz.Encoder) (a b : List Bytes) :
    gz.writeAll encoder (a ++ b) =
      let r := gz.writeAll encoder a
      let s := gz.writeAll r.1 b
      (s.1, r.2 ++ s.2) := by
  induction a generalizing encoder with
  | nil => simp [writeAll]
  | cons piece a ih => simp [writeAll, ih, List.append_assoc]

lemma Lawful.readToEnd_compress (h : gz.Lawful) (level : ℕ) (body : Bytes) :
    gz.readToEnd (gz.gzipCompress body level) = (body, true) := by
  simpa using h.readToEnd_members level [body] (by simp)

end Gzip

section Stored

/-- Removes a given beginning. -/
def strip : Bytes → Bytes → Option Bytes
  | [], inp => some inp
  | _ :: _, [] => none
  | b :: expected, c :: inp => if b = c then strip expected inp else none

lemma strip_append (expected rest : Bytes) : strip expected (expected ++ rest) = some rest := by
  induction expected with
  | nil => rfl
  | cons b expected ih => simpa [strip] using ih

lemma strip_eq_some {expected inp rest : Bytes} (h : strip expected inp = some rest) :
    inp = expected ++ rest := by
  induction expected generalizing inp with
  | nil => simpa [strip] using h
  | cons b expected ih =>
    cases inp with
    | nil => simp [strip] at h
    | cons c inp =>
      by_cases hbc : b = c
      · simp only [strip, hbc, if_true] at h
        rw [ih h, hbc]
        rfl
      · simp [strip, hbc] at h

def bitStep (crc : UInt32) : UInt32 :=
  if crc &&& 1 = 1 then (crc >>> 1) ^^^ 0xEDB88320 else crc >>> 1

def crc32 (body : Bytes) : UInt32 :=
  body.foldl (fun crc b => bitStep^[8] (crc ^^^ b.toUInt32)) 0xFFFFFFFF ^^^ 0xFFFFFFFF

def le32 (n : ℕ) : Bytes :=
  [UInt8.ofNat n, UInt8.ofNat (n / 256), UInt8.ofNat (n / 65536), UInt8.ofNat (n / 16777216)]

/-- The header `GzBuilder` writes at the lowest level. -/
def memberHeader : Bytes := [0x1F, 0x8B, 0x08, 0, 0, 0, 0, 0, 4, 0xFF]

def memberTrailer (body : Bytes) : Bytes := le32 (crc32 body).toNat ++ le32 body.length

/-- The largest stored block. -/
def storedMax : ℕ := 65535

def storedBlock (last : Bool) (data : Bytes) : Bytes :=
  let lo := UInt8.ofNat data.length
  let hi := UInt8.ofNat (data.length / 256)
  (if last then 1 else 0) :: lo :: hi :: ~~~lo :: ~~~hi :: data

def storedBlocks : ℕ → Bytes → Bytes
  | 0, body => storedBlock true body
  | n + 1, body =>
    if body.length ≤ storedMax then storedBlock true body
    else storedBlock false (body.take storedMax) ++ storedBlocks n (body.drop storedMax)

/-- One gzip member that stores its body. -/
def storedMember (body : Bytes) : Bytes :=
  memberHeader ++ storedBlocks body.length body ++ memberTrailer body

def readBlocks : ℕ → Bytes → Option (Bytes × Bytes)
  | 0, _ => none
  | n + 1, inp =>
    match inp with
    | f :: lo :: hi :: nlo :: nhi :: rest =>
      let len := lo.toNat + 256 * hi.toNat
      if nlo = ~~~lo ∧ nhi = ~~~hi ∧ len ≤ rest.length then
        if f = 1 then some (rest.take len, rest.drop len)
        else if f = 0 then (readBlocks n (rest.drop len)).map (fun r => (rest.take len ++ r.1, r.2))
        else none
      else none
    | _ => none

/-- The body of the member at the front of the input, and what follows the member. -/
def readMember (inp : Bytes) : Option (Bytes × Bytes) := do
  let rest ← strip memberHeader inp
  let (body, rest) ← readBlocks rest.length rest
  let rest ← strip (memberTrailer body) rest
  some (body, rest)

/-- All members of an input: the bodies before the first damage. -/
def readMembers : ℕ → Bytes → Bytes × Bool
  | 0, _ => ([], false)
  | n + 1, inp =>
    match readMember inp with
    | none => ([], false)
    | some (body, []) => (body, true)
    | some (body, rest) =>
      let (bodies, intact) := readMembers n rest
      (body ++ bodies, intact)

section Append
variable {inp body rest : Bytes}

lemma readBlocks_append {n m : ℕ} (h : readBlocks n inp = some (body, rest)) (hnm : n ≤ m) (q : Bytes) :
    readBlocks m (inp ++ q) = some (body, rest ++ q) := by
  induction n generalizing m inp body rest with
  | zero => simp [readBlocks] at h
  | succ n ih =>
    obtain ⟨m, rfl⟩ : ∃ m', m = m' + 1 := ⟨m - 1, by omega⟩
    match inp, h with
    | [], h | [_], h | [_, _], h | [_, _, _], h | [_, _, _, _], h => simp [readBlocks] at h
    | f :: lo :: hi :: nlo :: nhi :: data, h =>
      simp only [readBlocks, List.cons_append] at h ⊢
      by_cases hok : nlo = ~~~lo ∧ nhi = ~~~hi ∧ lo.toNat + 256 * hi.toNat ≤ data.length
      · have hok' : nlo = ~~~lo ∧ nhi = ~~~hi ∧ lo.toNat + 256 * hi.toNat ≤ (data ++ q).length :=
          ⟨hok.1, hok.2.1, by rw [List.length_append]; omega⟩
        rw [if_pos hok] at h
        rw [if_pos hok', List.take_append_of_le_length hok.2.2, List.drop_append_of_le_length hok.2.2]
        by_cases hlast : f = 1
        · rw [if_pos hlast] at h ⊢
          simp only [Option.some.injEq, Prod.mk.injEq] at h
          rw [h.1, h.2]
        · rw [if_neg hlast] at h ⊢
          by_cases hmore : f = 0
          · rw [if_pos hmore] at h ⊢
            obtain ⟨⟨body', rest'⟩, hr, h⟩ := Option.map_eq_some_iff.mp h
            simp only [Prod.mk.injEq] at h
            rw [ih hr (by omega), ← h.1, ← h.2]
            rfl
          · simp [hmore] at h
      · simp [hok] at h

lemma readBlocks_length {n : ℕ} (h : readBlocks n inp = some (body, rest)) :
    rest.length ≤ inp.length := by
  induction n generalizing inp body rest with
  | zero => simp [readBlocks] at h
  | succ n ih =>
    match inp, h with
    | [], h | [_], h | [_, _], h | [_, _, _], h | [_, _, _, _], h => simp [readBlocks] at h
    | f :: lo :: hi :: nlo :: nhi :: data, h =>
      simp only [readBlocks] at h
      split_ifs at h
      · simp only [Option.some.injEq, Prod.mk.injEq] at h
        simp only [← h.2, List.length_drop, List.length_cons]
        omega
      · obtain ⟨⟨body', rest'⟩, hr, h⟩ := Option.map_eq_some_iff.mp h
        simp only [Prod.mk.injEq] at h
        have hle := ih hr
        rw [h.2, List.length_drop] at hle
        simp only [List.length_cons]
        omega

lemma readMember_eq_some (h : readMember inp = some (body, rest)) : ∃ blocks,
    inp = memberHeader ++ blocks ∧
      readBlocks blocks.length blocks = some (body, memberTrailer body ++ rest) := by
  obtain ⟨blocks, hhead, h⟩ := Option.bind_eq_some_iff.mp h
  obtain ⟨⟨body', rest'⟩, hblocks, h⟩ := Option.bind_eq_some_iff.mp h
  obtain ⟨rest'', htrailer, h⟩ := Option.bind_eq_some_iff.mp h
  simp only [Option.some.injEq, Prod.mk.injEq] at h
  obtain ⟨rfl, rfl⟩ := h
  refine ⟨blocks, strip_eq_some hhead, ?_⟩
  rw [hblocks, strip_eq_some htrailer]

lemma readMember_of_blocks {blocks : Bytes} {n : ℕ} (hn : n ≤ blocks.length)
    (h : readBlocks n blocks = some (body, memberTrailer body ++ rest)) :
    readMember (memberHeader ++ blocks) = some (body, rest) := by
  have hblocks := readBlocks_append h hn []
  simp only [List.append_nil] at hblocks
  simp [readMember, strip_append, hblocks]

/-- A complete member stays one whatever follows it. -/
lemma readMember_append (h : readMember inp = some (body, rest)) (q : Bytes) :
    readMember (inp ++ q) = some (body, rest ++ q) := by
  obtain ⟨blocks, rfl, hblocks⟩ := readMember_eq_some h
  rw [List.append_assoc]
  refine readMember_of_blocks (n := (blocks ++ q).length) le_rfl ?_
  rw [readBlocks_append hblocks (by simp) q, List.append_assoc]

lemma readMember_length (h : readMember inp = some (body, rest)) : rest.length < inp.length := by
  obtain ⟨blocks, rfl, hblocks⟩ := readMember_eq_some h
  have hle := readBlocks_length hblocks
  simp only [List.length_append, memberHeader, List.length_cons] at hle ⊢
  omega

lemma readMembers_extends (n : ℕ) : ∀ p q m, p.length ≤ n → (p ++ q).length ≤ m →
    (readMembers n p).1 <+: (readMembers m (p ++ q)).1 := by
  induction n with
  | zero => intro p q m _ _; exact List.nil_prefix
  | succ n ih =>
    intro p q m hn hm
    cases hp : readMember p with
    | none => simp [readMembers, hp]
    | some r =>
      obtain ⟨body, rest⟩ := r
      have hlen := readMember_length hp
      obtain ⟨m, rfl⟩ : ∃ m', m = m' + 1 := ⟨m - 1, by simp only [List.length_append] at hm; omega⟩
      simp only [List.length_append] at hm
      have happend := readMember_append hp q
      cases rest with
      | nil =>
        simp only [readMembers, hp, happend, List.nil_append]
        cases q with
        | nil => exact List.prefix_rfl
        | cons b q => exact List.prefix_append _ _
      | cons b rest =>
        simp only [readMembers, hp, happend, List.cons_append]
        rw [List.prefix_append_right_inj]
        exact ih (b :: rest) q m (by omega) (by simp only [List.length_append]; omega)

end Append

section RoundTrip

lemma readBlocks_storedBlock (last : Bool) (data rest : Bytes) (h : data.length ≤ storedMax) (n : ℕ) :
    readBlocks (n + 1) (storedBlock last data ++ rest) =
      if last then some (data, rest)
      else (readBlocks n rest).map (fun r => (data ++ r.1, r.2)) := by
  have hlen : (UInt8.ofNat data.length).toNat + 256 * (UInt8.ofNat (data.length / 256)).toNat =
      data.length := by
    simp only [storedMax] at h
    simp only [UInt8.toNat_ofNat']
    omega
  simp only [storedBlock, List.cons_append, readBlocks, hlen]
  rw [if_pos ⟨trivial, trivial, by simp⟩]
  cases last <;> simp

lemma storedBlock_length (last : Bool) (data : Bytes) :
    (storedBlock last data).length = data.length + 5 := by
  simp [storedBlock]

lemma readBlocks_storedBlocks (n : ℕ) : ∀ body rest, body.length ≤ n →
    readBlocks (storedBlocks n body ++ rest).length (storedBlocks n body ++ rest) = some (body, rest) := by
  induction n with
  | zero =>
    intro body rest h
    have := readBlocks_storedBlock true body rest (by omega) ((storedBlock true body ++ rest).length - 1)
    rw [Nat.sub_add_cancel (by simp [storedBlock_length]; omega)] at this
    simpa [storedBlocks] using this
  | succ n ih =>
    intro body rest h
    by_cases hle : body.length ≤ storedMax
    · have := readBlocks_storedBlock true body rest hle ((storedBlock true body ++ rest).length - 1)
      rw [Nat.sub_add_cancel (by simp [storedBlock_length]; omega)] at this
      simpa [storedBlocks, hle] using this
    · simp only [storedBlocks, hle, if_false, List.append_assoc]
      have htail := ih (body.drop storedMax) rest (by
        simp only [storedMax, List.length_drop] at hle ⊢
        omega)
      obtain ⟨k, hk⟩ : ∃ k, (storedBlock false (body.take storedMax) ++
          (storedBlocks n (body.drop storedMax) ++ rest)).length = k + 1 := ⟨_, rfl⟩
      have hfuel : (storedBlocks n (body.drop storedMax) ++ rest).length ≤ k := by
        simp only [List.length_append, storedBlock_length] at hk ⊢
        omega
      have hmore := readBlocks_append htail hfuel []
      simp only [List.append_nil] at hmore
      rw [hk, readBlocks_storedBlock false _ _ (by simp), hmore]
      simp

/-- Reading back what was stored. -/
lemma readMember_storedMember (body rest : Bytes) :
    readMember (storedMember body ++ rest) = some (body, rest) := by
  simp only [storedMember, List.append_assoc]
  exact readMember_of_blocks le_rfl (readBlocks_storedBlocks body.length body _ le_rfl)

/-- Reading back one member after the other, in whatever blocks each stores its body. -/
lemma readMembers_members {member : Bytes → Bytes}
    (hmember : ∀ body rest, readMember (member body ++ rest) = some (body, rest)) (parts : List Bytes)
    (hne : parts ≠ []) : ∀ n, (parts.map member).flatten.length ≤ n →
    readMembers n (parts.map member).flatten = (parts.flatten, true) := by
  induction parts with
  | nil => exact (hne rfl).elim
  | cons part parts ih =>
    intro n hn
    have hread := hmember part (parts.map member).flatten
    have hlen := readMember_length hread
    simp only [List.map_cons, List.flatten_cons] at hn ⊢
    obtain ⟨n, rfl⟩ : ∃ n', n = n' + 1 := ⟨n - 1, by omega⟩
    simp only [readMembers, hread]
    cases parts with
    | nil => simp
    | cons next parts =>
      have hrest := ih (by simp) n (by omega)
      have hnext := readMember_length (hmember next (parts.map member).flatten)
      obtain ⟨b, tail, htail⟩ : ∃ b tail, ((next :: parts).map member).flatten = b :: tail := by
        refine List.exists_cons_of_ne_nil (fun hnil => ?_)
        rw [List.map_cons, List.flatten_cons] at hnil
        simp [hnil] at hnext
      rw [htail] at hrest ⊢
      simp [hrest]

end RoundTrip

/-- A codec of stored blocks. -/
def storedGzip : Gzip where
  readToEnd inp := readMembers inp.length inp
  inflate chunks t :=
    let (text, intact) := readMembers chunks.flatten.length chunks.flatten
    (text, match t with
      | .eof => if intact then .clean else .corrupt
      | .cut => .waiting)
  Encoder := Bytes
  new _ := []
  write encoder piece := (encoder ++ piece, [])
  finish encoder := storedMember encoder

lemma storedGzip_encode (level : ℕ) (pieces : List Bytes) :
    storedGzip.encode level pieces = storedMember pieces.flatten := by
  have hall : ∀ (encoder : Bytes) (pieces : List Bytes),
      storedGzip.writeAll encoder pieces = (encoder ++ pieces.flatten, []) := by
    intro encoder pieces
    induction pieces generalizing encoder with
    | nil =>
      rw [List.flatten_nil, List.append_nil]
      rfl
    | cons piece pieces ih =>
      change (let r := storedGzip.writeAll (encoder ++ piece) pieces; (r.1, [] ++ r.2)) = _
      rw [ih, List.flatten_cons, List.append_assoc]
      rfl
  change (let r := storedGzip.writeAll ([] : Bytes) pieces; r.2 ++ storedMember r.1) = _
  rw [hall]
  rfl

theorem storedGzip_lawful : storedGzip.Lawful where
  encode_flatten level pieces := by simp [storedGzip_encode]
  readToEnd_members level parts hne := by
    simp only [Gzip.gzipCompress, storedGzip_encode, List.flatten_singleton]
    exact readMembers_members readMember_storedMember parts hne _ le_rfl
  inflate_clean chunks text := by
    simp only [storedGzip]
    generalize readMembers chunks.flatten.length chunks.flatten = r
    obtain ⟨out, intact⟩ := r
    cases intact <;> simp
  inflate_eof chunks := by
    simp only [storedGzip]
    split <;> simp
  inflate_cut chunks := by simp [storedGzip]
  inflate_extends chunks more t := by
    simp only [storedGzip, List.flatten_append]
    exact readMembers_extends _ _ _ _ le_rfl le_rfl
  inflate_corrupt chunks more t h := by simp [storedGzip] at h

end Stored

end CloudTrailFilter.Process
