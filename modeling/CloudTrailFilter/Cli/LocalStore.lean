import CloudTrailFilter.Cli.Overwrite
import CloudTrailFilter.Lib.Concurrency
import CloudTrailFilter.Lib.Contents

/-!
# The local object store

`LocalObjectStore::put_stream` writes a temporary sibling and renames it when the reader has ended.
Any number of such calls, of one process or of several, take their system calls in any order; each call
may fail, and a process may be killed before any of them. Seen from outside, a `put_stream` is one
write of the whole body, or none.
-/

namespace CloudTrailFilter.Cli
open CloudTrailFilter.Json CloudTrailFilter.Process

section Calls

/-- An error of the operating system: whether its kind is `NotFound`, and its text. -/
structure IoError where
  isNotFound : Bool
  message : String
deriving DecidableEq, Repr

/-- `LocalObjectStore::io_error`. -/
def ioError (debug : String → String) (key what : String) (e : IoError) : StoreError :=
  if e.isNotFound then .notFound "" key
  else .backend ("failed to " ++ what ++ " " ++ debug key ++ ": " ++ e.message)

/-- A call of `put_stream`: the key, the process that makes the call, and the reader of the body. -/
structure StreamWrite where
  key : String
  pid : ℕ
  body : Body

def StreamWrite.partialKey (w : StreamWrite) : String := Cli.partialKey w.pid w.key

/-- Where a call of `put_stream` is. -/
inductive Phase where
  | creatingParent
  | creating
  | copying (written : ℕ)
  | moving
  | removing (e : IoError)
  | returned (result : Except StoreError Unit)
  | killed

/-- What the operating system answers to the next system call. One write takes some of the bytes; the end
of the reader is an answer too. -/
inductive Answer where
  | done
  | wrote (n : ℕ)
  | failed (e : IoError)
  | killed
deriving DecidableEq, Repr

/-- What a system call does to the files. -/
inductive FileOp where
  | keep
  | create
  | append (bytes : Bytes)
  | rename
  | remove
deriving DecidableEq, Repr

/-- One system call of `put_stream`. `parent` is the parent directory as `Debug` prints it, if there is one
that is not empty. -/
def Phase.next (debug : String → String) (parent : String → Option String) (w : StreamWrite) :
    Phase → Answer → Option (Phase × FileOp)
  | .returned _, _ | .killed, _ => none
  | _, .killed => some (.killed, .keep)
  | .creatingParent, .done => some (.creating, .keep)
  | .creatingParent, .failed e =>
    (parent w.key).map (fun dir =>
      (.returned (.error (.backend ("failed to create directory " ++ dir ++ ": " ++ e.message))), .keep))
  | .creating, .done => some (.copying 0, .create)
  | .creating, .failed e => some (.returned (.error (ioError debug w.partialKey "create" e)), .keep)
  | .copying written, .wrote n =>
    if 0 < n ∧ written + n ≤ w.body.bytes.length then
      some (.copying (written + n), .append ((w.body.bytes.drop written).take n))
    else none
  | .copying written, .done =>
    if written = w.body.bytes.length ∧ w.body.ending = .eof then some (.moving, .keep) else none
  | .copying _, .failed e => some (.removing e, .keep)
  | .moving, .done => some (.returned (.ok ()), .rename)
  | .moving, .failed e => some (.returned (.error (ioError debug w.key "rename into" e)), .keep)
  -- Whether the temporary file could be removed is not looked at.
  | .removing e, .done =>
    some (.returned (.error (.backend ("streaming write to " ++ debug w.key ++ " aborted: " ++ e.message))), .remove)
  | .removing e, .failed _ =>
    some (.returned (.error (.backend ("streaming write to " ++ debug w.key ++ " aborted: " ++ e.message))), .keep)
  | .creatingParent, .wrote _ | .creating, .wrote _ | .moving, .wrote _ | .removing _, .wrote _ => none

end Calls

section Disk
variable {P ι : Type*} [DecidableEq P] [DecidableEq ι]

def FileOp.run (temporary key : P) (files : Contents P Bytes) : FileOp → Contents P Bytes
  | .keep => files
  | .create => Function.update files temporary (some [])
  | .append bytes => Function.update files temporary ((files temporary).map (· ++ bytes))
  | .rename => Function.update (Function.update files key (files temporary)) temporary none
  | .remove => Function.update files temporary none

/-- The files by the places that paths lead to, the calls of `put_stream` under way, and the writes that are
seen from outside: those of the calls, when they are made, and those of anything else. -/
structure Disk (P ι : Type*) where
  files : Contents P Bytes
  phase : ι → Phase
  log : List (Option ι × P × Bytes)

/-- A system call of one `put_stream`, or a write of anything else. -/
inductive DiskAction (P ι : Type*) where
  | call (i : ι) (answer : Answer)
  | other (p : P) (content : Bytes)

variable (debug : String → String) (parent : String → Option String) (locate : String → P) (streams : ι → StreamWrite)

def temporary (i : ι) : P := locate (streams i).partialKey

def target (i : ι) : P := locate (streams i).key

def Disk.start (files : Contents P Bytes) : Disk P ι := ⟨files, fun _ => .creatingParent, []⟩

/-- Nothing else writes the temporary file of a call. -/
def Disk.step [Fintype ι] (d : Disk P ι) : DiskAction P ι → Option (Disk P ι)
  | .call i answer =>
    ((d.phase i).next debug parent (streams i) answer).map (fun turn =>
      { files := turn.2.run (temporary locate streams i) (target locate streams i) d.files
        phase := Function.update d.phase i turn.1
        log := if turn.2 = .rename then d.log ++ [(some i, target locate streams i, (streams i).body.bytes)] else d.log })
  | .other p content =>
    if ∃ i, p = temporary locate streams i then none
    else some { d with files := Function.update d.files p (some content), log := d.log ++ [(none, p, content)] }

end Disk

section Phases
variable {debug : String → String} {parent : String → Option String} {w : StreamWrite}

/-- What is at the temporary path of a call: what was there before, then as much of the body as has been
written, and nothing once the call has succeeded. A call that did not may leave any of this. -/
def Phase.Holds (w : StreamWrite) (before now : Option Bytes) : Phase → Prop
  | .creatingParent | .creating => now = before
  | .copying written => written ≤ w.body.bytes.length ∧ now = some (w.body.bytes.take written)
  | .moving => now = some w.body.bytes ∧ w.body.ending = .eof
  | .removing _ => ∃ written, now = some (w.body.bytes.take written)
  | .returned (.ok ()) => now = none ∧ w.body.ending = .eof
  | .returned (.error _) | .killed => now = before ∨ now = none ∨ ∃ written, now = some (w.body.bytes.take written)

lemma Phase.Holds.leftover {before now : Option Bytes} {phase : Phase} (h : phase.Holds w before now) :
    now = before ∨ now = none ∨ ∃ written, now = some (w.body.bytes.take written) := by
  match phase, h with
  | .creatingParent, h => exact .inl h
  | .creating, h => exact .inl h
  | .copying written, h => exact .inr (.inr ⟨written, h.2⟩)
  | .moving, h => exact .inr (.inr ⟨w.body.bytes.length, by rw [List.take_length]; exact h.1⟩)
  | .removing _, h => exact .inr (.inr h)
  | .returned (.ok ()), h => exact .inr (.inl h.1)
  | .returned (.error _), h => exact h
  | .killed, h => exact h

/-- What one system call can come to. -/
inductive Phase.Turn (w : StreamWrite) : Phase → Phase → FileOp → Prop where
  | kill {phase : Phase} (h : ∀ result, phase ≠ .returned result) : Turn w phase .killed .keep
  | createParent : Turn w .creatingParent .creating .keep
  | create : Turn w .creating (.copying 0) .create
  | write {written n : ℕ} (hle : written + n ≤ w.body.bytes.length) :
      Turn w (.copying written) (.copying (written + n)) (.append ((w.body.bytes.drop written).take n))
  | finish (hending : w.body.ending = .eof) : Turn w (.copying w.body.bytes.length) .moving .keep
  | abort {written : ℕ} {e : IoError} : Turn w (.copying written) (.removing e) .keep
  | rename : Turn w .moving (.returned (.ok ())) .rename
  | refuse {phase : Phase} {e : StoreError} (h : ∀ result, phase ≠ .returned result) :
      Turn w phase (.returned (.error e)) .keep
  | remove {e : IoError} {e' : StoreError} : Turn w (.removing e) (.returned (.error e')) .remove

lemma Phase.turn_of_next {phase phase' : Phase} {answer : Answer} {op : FileOp}
    (h : phase.next debug parent w answer = some (phase', op)) : Phase.Turn w phase phase' op := by
  cases phase with
  | returned result => simp [Phase.next] at h
  | killed => simp [Phase.next] at h
  | creatingParent =>
    cases answer with
    | done =>
      cases h
      exact .createParent
    | wrote n => simp [Phase.next] at h
    | failed e =>
      obtain ⟨dir, -, hdir⟩ := Option.map_eq_some_iff.mp h
      cases hdir
      exact .refuse (by simp)
    | killed =>
      cases h
      exact .kill (by simp)
  | creating =>
    cases answer with
    | done =>
      cases h
      exact .create
    | wrote n => simp [Phase.next] at h
    | failed e =>
      cases h
      exact .refuse (by simp)
    | killed =>
      cases h
      exact .kill (by simp)
  | copying written =>
    cases answer with
    | done =>
      simp only [Phase.next] at h
      split_ifs at h with hend
      obtain ⟨rfl, hending⟩ := hend
      cases h
      exact .finish hending
    | wrote n =>
      simp only [Phase.next] at h
      split_ifs at h with hroom
      cases h
      exact .write hroom.2
    | failed e =>
      cases h
      exact .abort
    | killed =>
      cases h
      exact .kill (by simp)
  | moving =>
    cases answer with
    | done =>
      cases h
      exact .rename
    | wrote n => simp [Phase.next] at h
    | failed e =>
      cases h
      exact .refuse (by simp)
    | killed =>
      cases h
      exact .kill (by simp)
  | removing e =>
    cases answer with
    | done =>
      cases h
      exact .remove
    | wrote n => simp [Phase.next] at h
    | failed e' =>
      cases h
      exact .refuse (by simp)
    | killed =>
      cases h
      exact .kill (by simp)

/-- A rename is the last call of a `put_stream` that succeeds, and of no other. -/
lemma Phase.Turn.rename_iff {phase phase' : Phase} {op : FileOp} (h : Phase.Turn w phase phase' op) :
    (op = .rename ↔ phase' = .returned (.ok ())) ∧ (op = .rename → phase = .moving) ∧
      ∀ result, phase ≠ .returned result := by
  cases h with
  | kill h => simpa using h
  | refuse h => simpa using h
  | _ => simp

end Phases

section Steps
variable {P : Type*} [DecidableEq P] {w : StreamWrite} {temporary key : P}

/-- Outside its temporary file a call changes its key, by a rename. -/
lemma FileOp.run_apply (op : FileOp) (files : Contents P Bytes) {p : P} (hp : p ≠ temporary) :
    op.run temporary key files p = if op = .rename ∧ p = key then files temporary else files p := by
  cases op with
  | rename =>
    by_cases hkey : p = key
    · subst hkey
      simp [FileOp.run, Function.update_of_ne hp]
    · simp [FileOp.run, Function.update_of_ne hp, hkey]
  | _ => simp [FileOp.run, Function.update_of_ne hp]

/-- A system call and the temporary file. -/
lemma Phase.Holds.next {files : Contents P Bytes} {before : Option Bytes} {phase phase' : Phase}
    {op : FileOp} (h : phase.Holds w before (files temporary)) (hturn : Phase.Turn w phase phase' op) :
    phase'.Holds w before (op.run temporary key files temporary) := by
  cases hturn with
  | kill => exact h.leftover
  | createParent => exact h
  | create => simp [Phase.Holds, FileOp.run]
  | @write written n hle =>
    refine ⟨hle, ?_⟩
    rw [FileOp.run, Function.update_self, h.2, Option.map_some, List.take_add]
  | finish hending =>
    refine ⟨?_, hending⟩
    rw [FileOp.run, h.2, List.take_length]
  | @abort written e => exact ⟨written, h.2⟩
  | rename => exact ⟨by simp [FileOp.run], h.2⟩
  | refuse => exact h.leftover
  | remove => exact .inr (.inl (by simp [FileOp.run]))

end Steps

section Runs
variable {P ι : Type*} [DecidableEq P] {locate : String → P} {streams : ι → StreamWrite} {files : Contents P Bytes}
  {d : Disk P ι}

/-- No two calls share a temporary file, and none has another's key for its own. -/
structure TemporariesApart (locate : String → P) (streams : ι → StreamWrite) : Prop where
  temporaries : ∀ i j, temporary locate streams i = temporary locate streams j → i = j
  targets : ∀ i j, temporary locate streams i ≠ target locate streams j

/-- The files are those of a store whose writes are the ones in the log. -/
structure Disk.Sound (locate : String → P) (streams : ι → StreamWrite) (files : Contents P Bytes) (d : Disk P ι) :
    Prop where
  temporary : ∀ i, (d.phase i).Holds (streams i) (files (temporary locate streams i)) (d.files (temporary locate streams i))
  seen : ∀ p, (∀ i, p ≠ Cli.temporary locate streams i) → d.files p = files.after (d.log.map Prod.snd) p
  landed : ∀ i, (some i ∈ d.log.map Prod.fst ↔ d.phase i = .returned (.ok ()))
  whole : ∀ i write, (some i, write) ∈ d.log → write = (target locate streams i, (streams i).body.bytes)
  once : (d.log.filterMap Prod.fst).Nodup

lemma Disk.sound_start : (Disk.start files : Disk P ι).Sound locate streams files where
  temporary i := rfl
  seen p _ := rfl
  landed i := by simp [Disk.start]
  whole i write h := by simp [Disk.start] at h
  once := by simp [Disk.start]

lemma Disk.Sound.call [DecidableEq ι] (hapart : TemporariesApart locate streams) (h : d.Sound locate streams files) {i : ι}
    {phase : Phase} {op : FileOp} (hturn : Phase.Turn (streams i) (d.phase i) phase op) :
    Disk.Sound locate streams files
      { files := op.run (Cli.temporary locate streams i) (target locate streams i) d.files
        phase := Function.update d.phase i phase
        log := if op = .rename then d.log ++ [(some i, target locate streams i, (streams i).body.bytes)] else d.log } := by
  obtain ⟨hop, hmoving, hopen⟩ := hturn.rename_iff
  have hnew : some i ∉ d.log.map Prod.fst := fun hmem => hopen _ ((h.landed i).mp hmem)
  refine ⟨fun j => ?_, fun p hp => ?_, fun j => ?_, fun j write hmem => ?_, ?_⟩
  · by_cases hij : j = i
    · subst hij
      simpa using (h.temporary j).next hturn
    · have hne : Cli.temporary locate streams j ≠ Cli.temporary locate streams i :=
        fun heq => hij (hapart.temporaries j i heq)
      simp only [Function.update_of_ne hij]
      rw [FileOp.run_apply op d.files hne, if_neg (fun hkey => hapart.targets j i hkey.2)]
      exact h.temporary j
  · simp only
    rw [FileOp.run_apply op d.files (hp i)]
    by_cases hrename : op = .rename
    · have htemporary := h.temporary i
      rw [hmoving hrename] at htemporary
      rw [if_pos hrename, List.map_append, Contents.after_append, htemporary.1]
      by_cases hkey : p = target locate streams i
      · subst hkey
        simp [hrename, Contents.after]
      · rw [if_neg (fun hboth => hkey hboth.2), h.seen p hp]
        simp [Contents.after, Function.update_of_ne hkey]
    · rw [if_neg hrename, if_neg (fun hboth => hrename hboth.1)]
      exact h.seen p hp
  · simp only
    by_cases hrename : op = .rename
    · rw [if_pos hrename, List.map_append, List.mem_append, h.landed j]
      by_cases hij : j = i
      · subst hij
        simp [hop.mp hrename]
      · simp [hij]
    · rw [if_neg hrename, h.landed j]
      by_cases hij : j = i
      · subst hij
        have hphase : phase ≠ .returned (.ok ()) := fun heq => hrename (hop.mpr heq)
        simp [hphase, hopen]
      · simp [hij]
  · split_ifs at hmem with hrename
    · rcases List.mem_append.mp hmem with hmem | hmem
      · exact h.whole j write hmem
      · obtain ⟨rfl, rfl⟩ : j = i ∧ write = _ := by simpa using hmem
        rfl
    · exact h.whole j write hmem
  · simp only
    split_ifs with hrename
    · rw [List.filterMap_append, List.nodup_append]
      refine ⟨h.once, by simp, ?_⟩
      intro a ha b hb heq
      obtain rfl : b = i := by simpa using hb
      subst heq
      obtain ⟨entry, hentry, ha⟩ := List.mem_filterMap.mp ha
      exact hnew (List.mem_map.mpr ⟨entry, hentry, ha⟩)
    · exact h.once

lemma Disk.Sound.other (h : d.Sound locate streams files) {p : P} (hp : ∀ i, p ≠ Cli.temporary locate streams i)
    (content : Bytes) : Disk.Sound locate streams files
      { d with files := Function.update d.files p (some content), log := d.log ++ [(none, p, content)] } := by
  refine ⟨fun i => ?_, fun q hq => ?_, fun i => ?_, fun i write hmem => ?_, ?_⟩
  · simp only [Function.update_of_ne (fun heq => hp i heq.symm)]
    exact h.temporary i
  · simp only [List.map_append, Contents.after_append]
    by_cases hqp : q = p
    · subst hqp
      simp [Contents.after]
    · simp [Contents.after, Function.update_of_ne hqp, h.seen q hq]
  · simpa using h.landed i
  · have hmem' : (some i, write) ∈ d.log := by simpa using hmem
    exact h.whole i write hmem'
  · simpa using h.once

variable [DecidableEq ι] [Fintype ι] {debug : String → String} {parent : String → Option String}

/-- The files of every reachable state. -/
lemma Disk.sound (hapart : TemporariesApart locate streams)
    (h : Concurrency.Reachable (Disk.step debug parent locate streams) (Disk.start files) d) :
    d.Sound locate streams files := by
  induction h with
  | start => exact Disk.sound_start
  | step action _ hstep ih =>
    cases action with
    | call i answer =>
      obtain ⟨turn, hturn, rfl⟩ := Option.map_eq_some_iff.mp hstep
      obtain ⟨phase, op⟩ := turn
      exact ih.call hapart (Phase.turn_of_next hturn)
    | other p content =>
      simp only [Disk.step] at hstep
      split_ifs at hstep with hp
      cases hstep
      exact ih.other (fun i heq => hp ⟨i, heq⟩) content

/-- A call that may still succeed. -/
def Phase.underWay : Phase → Bool
  | .creatingParent | .creating | .copying _ | .moving => true
  | .removing _ | .returned _ | .killed => false

/-- Some actions lead from this state to one in which the call has succeeded. -/
def Disk.CanLand (debug : String → String) (parent : String → Option String) (locate : String → P)
    (streams : ι → StreamWrite) (i : ι) (d : Disk P ι) : Prop :=
  ∃ actions d', Concurrency.runActions (Disk.step debug parent locate streams) d actions = some d' ∧
    d'.phase i = .returned (.ok ())

lemma Disk.CanLand.call {i : ι} (answer : Answer) (phase : Phase) (op : FileOp)
    (hnext : (d.phase i).next debug parent (streams i) answer = some (phase, op))
    (h : ∀ d' : Disk P ι, d'.phase i = phase → d'.CanLand debug parent locate streams i) :
    d.CanLand debug parent locate streams i := by
  obtain ⟨d', hstep, hphase⟩ : ∃ d', d.step debug parent locate streams (.call i answer) = some d' ∧ d'.phase i = phase := by
    simp [Disk.step, hnext]
  obtain ⟨actions, d'', hrun, hlanded⟩ := h d' hphase
  exact ⟨.call i answer :: actions, d'', by rw [Concurrency.runActions, hstep, Option.bind_some, hrun], hlanded⟩

/-- If its reader ends, the operating system need only do its part. -/
lemma Disk.canLand {i : ι} (hending : (streams i).body.ending = .eof) (hphase : (d.phase i).underWay = true)
    (hwritten : ∀ written, d.phase i = .copying written → written ≤ (streams i).body.bytes.length) :
    d.CanLand debug parent locate streams i := by
  have hmoving : ∀ d : Disk P ι, d.phase i = .moving → d.CanLand debug parent locate streams i := by
    intro d hd
    refine Disk.CanLand.call .done (.returned (.ok ())) .rename (by rw [hd]; rfl) ?_
    exact fun d' hd' => ⟨[], d', rfl, hd'⟩
  have hwhole : ∀ d : Disk P ι, d.phase i = .copying (streams i).body.bytes.length →
      d.CanLand debug parent locate streams i := by
    intro d hd
    exact Disk.CanLand.call .done .moving .keep (by rw [hd, Phase.next, if_pos ⟨rfl, hending⟩]) hmoving
  have hcopying : ∀ (d : Disk P ι) (written : ℕ), d.phase i = .copying written →
      written ≤ (streams i).body.bytes.length → d.CanLand debug parent locate streams i := by
    intro d written hd hle
    rcases Nat.eq_or_lt_of_le hle with rfl | hlt
    · exact hwhole d hd
    · have hrest : written + ((streams i).body.bytes.length - written) = (streams i).body.bytes.length := by omega
      refine Disk.CanLand.call (.wrote ((streams i).body.bytes.length - written)) _ _
        (by rw [hd, Phase.next, if_pos ⟨by omega, by omega⟩]) ?_
      rw [hrest]
      exact hwhole
  have hcreating : ∀ d : Disk P ι, d.phase i = .creating → d.CanLand debug parent locate streams i := by
    intro d hd
    refine Disk.CanLand.call .done (.copying 0) .create (by rw [hd]; rfl) ?_
    exact fun d' hd' => hcopying d' 0 hd' (Nat.zero_le _)
  match hd : d.phase i with
  | .creatingParent =>
    exact Disk.CanLand.call .done .creating .keep (by rw [hd]; rfl) hcreating
  | .creating => exact hcreating d hd
  | .copying written => exact hcopying d written hd (hwritten written hd)
  | .moving => exact hmoving d hd
  | .removing _ => simp [hd, Phase.underWay] at hphase
  | .returned _ => simp [hd, Phase.underWay] at hphase
  | .killed => simp [hd, Phase.underWay] at hphase

/-- Where the temporaries of the calls are apart from one another and from every other write, the files are,
however the calls interleave, fail or are killed, those of a store whose only writes are the whole bodies of
the calls that have succeeded, one for each, and what anything else writes. A call succeeds only if its
reader ended; one that has not, has left at its temporary path what was there, nothing or a part of its
body; and one that nothing has stopped can still succeed if its reader ends. -/
theorem put_stream_atomic (debug : String → String) (parent : String → Option String) {locate : String → P}
    {streams : ι → StreamWrite} (hapart : TemporariesApart locate streams) {files : Contents P Bytes} {d : Disk P ι}
    (h : Concurrency.Reachable (Disk.step debug parent locate streams) (Disk.start files) d) :
    (∀ p, (∀ i, p ≠ temporary locate streams i) → d.files p = files.after (d.log.map Prod.snd) p) ∧
    (d.log.filterMap Prod.fst).Nodup ∧
    ∀ i, ((some i, target locate streams i, (streams i).body.bytes) ∈ d.log ↔ d.phase i = .returned (.ok ())) ∧
      (∀ write, (some i, write) ∈ d.log → write = (target locate streams i, (streams i).body.bytes)) ∧
      (d.phase i = .returned (.ok ()) →
        (streams i).body.ending = .eof ∧ d.files (temporary locate streams i) = none) ∧
      (d.files (temporary locate streams i) = files (temporary locate streams i) ∨
        d.files (temporary locate streams i) = none ∨
        ∃ written, d.files (temporary locate streams i) = some ((streams i).body.bytes.take written)) ∧
      ((streams i).body.ending = .eof → (d.phase i).underWay = true →
        d.CanLand debug parent locate streams i) := by
  have hsound := Disk.sound hapart h
  refine ⟨hsound.seen, hsound.once, fun i => ⟨?_, hsound.whole i, fun hphase => ?_, (hsound.temporary i).leftover, ?_⟩⟩
  · rw [← hsound.landed i]
    constructor
    · exact fun hmem => List.mem_map.mpr ⟨_, hmem, rfl⟩
    · intro hmem
      obtain ⟨⟨j, write⟩, hentry, rfl⟩ := List.mem_map.mp hmem
      rwa [← hsound.whole i write hentry]
  · have htemporary := hsound.temporary i
    rw [hphase] at htemporary
    exact ⟨htemporary.2, htemporary.1⟩
  · intro hending hphase
    refine Disk.canLand hending hphase fun written hcopying => ?_
    have htemporary := hsound.temporary i
    rw [hcopying] at htemporary
    exact htemporary.1

/-- Two processes that filter the same object, the first of which is killed in the middle of its write. -/
def sampleStreams (i : Fin 2) : StreamWrite where
  key := "out/a.json.gz"
  pid := 41 + i.val
  body := ⟨[[1, 2, UInt8.ofNat i.val]], by simp, .eof⟩

theorem put_stream_atomic_sample :
    ∃ d : Disk String (Fin 2), d.phase 0 = .killed ∧ d.phase 1 = .returned (.ok ()) ∧
      d.files "out/a.json.gz" = Contents.after (fun _ => none) (d.log.map Prod.snd) "out/a.json.gz" ∧
      (some 1, "out/a.json.gz", [1, 2, 1]) ∈ d.log := by
  let calls : List (DiskAction String (Fin 2)) := [.call 0 .done, .call 1 .done, .call 1 .done, .call 0 .done,
    .call 0 (.wrote 2), .call 1 (.wrote 3), .call 0 .killed, .call 1 .done, .call 1 .done]
  obtain ⟨d, hrun⟩ : ∃ d, Concurrency.runActions (Disk.step id (fun _ => some "out") id sampleStreams)
      (Disk.start (fun _ => none)) calls = some d := ⟨_, rfl⟩
  have hkilled : d.phase 0 = .killed := by
    cases hrun
    rfl
  have hreturned : d.phase 1 = .returned (.ok ()) := by
    cases hrun
    rfl
  have hapart : TemporariesApart id sampleStreams := ⟨by decide +kernel, by decide +kernel⟩
  obtain ⟨hseen, -, hcalls⟩ := put_stream_atomic id (fun _ => some "out") hapart (.run .start calls hrun)
  have hlanded := (hcalls 1).1.mpr hreturned
  exact ⟨d, hkilled, hreturned, hseen _ (by decide +kernel), hlanded⟩

end Runs

end CloudTrailFilter.Cli
