import CloudTrailFilter.Config.Store
import CloudTrailFilter.Lib.Concurrency

/-!
# The config cache under concurrent calls

`ConfigStore` may be shared: its calls take the lock only to look at the cache or to write it, and
wait for the source without it. Here any number of calls are under way at once, between any rewrites of
the document.
-/

namespace CloudTrailFilter.Config
open CloudTrailFilter.Json CloudTrailFilter.Filter

section Flights
variable {T : Type}

/-- Where a call is, at each point where it takes the lock or has waited for the source. -/
inductive Phase (T : Type) where
  | checking
  | comparing
  | versioning (cachedVersion : VersionTag)
  | touching
  | fetching
  | reading (version : VersionTag)
  | storing (value : T) (version : VersionTag)
  | returning
  | returned (value : Option T)

/-- A call of `prime` or `get` under way, with the clock reading of its start. `refreshed` and `failed` say
whether it came to a refresh and whether that failed. -/
structure Flight (T : Type) where
  kind : CallKind
  now : ℕ
  phase : Phase T
  refreshed : Bool
  failed : Bool

/-- `prime` returns nothing, `get` looks at the cache again. -/
def Flight.finish (f : Flight T) : Flight T :=
  { f with phase := match f.kind with
      | .prime => .returned none
      | .get => .returning }

def Flight.start (kind : CallKind) (now : ℕ) : Flight T :=
  match kind with
  | .prime => ⟨kind, now, .fetching, true, false⟩
  | .get => ⟨kind, now, .checking, false, false⟩

variable (compile : Bytes → Except ConfigError T) (ttl : ℕ) (doc : Document)

/-- The next thing a call does, with what it leaves in the cache and adds to `ConfigLoadErrors`. `answered` says
whether the source answers, if it has been asked; the tag and the content are those of the moment. -/
def Flight.next (revision : ℕ) (cached : Option (Cached T)) (answered : Bool) (f : Flight T) :
    Option (Flight T × Option (Cached T) × ℕ) :=
  let failure := ({ f.finish with failed := true }, cached, 1)
  match f.phase with
  | .checking =>
    match cached with
    | none => some ({ f with phase := .comparing, refreshed := true }, cached, 0)
    | some c =>
      if ttl ≤ f.now - c.fetchedAt then some ({ f with phase := .comparing, refreshed := true }, cached, 0)
      else some ({ f with phase := .returning }, cached, 0)
  | .comparing =>
    match cached with
    | none => some ({ f with phase := .fetching }, cached, 0)
    | some c => some ({ f with phase := .versioning c.version }, cached, 0)
  | .versioning cachedVersion =>
    if answered then
      if doc.tag revision = cachedVersion then some ({ f with phase := .touching }, cached, 0)
      else some ({ f with phase := .fetching }, cached, 0)
    else some failure
  | .touching => some ({ f with phase := .returning }, cached.map (fun c => { c with fetchedAt := f.now }), 0)
  | .fetching => if answered then some ({ f with phase := .reading (doc.tag revision) }, cached, 0) else some failure
  | .reading version =>
    if answered then
      match compile (doc.content revision) with
      | .ok value => some ({ f with phase := .storing value version }, cached, 0)
      | .error _ => some failure
    else some failure
  | .storing value version => some (f.finish, some ⟨value, version, f.now⟩, 0)
  | .returning => some ({ f with phase := .returned (cached.map Cached.value) }, cached, 0)
  | .returned _ => none

/-- A shared store, with the document it is about and the clock. -/
structure SharedStore (T : Type) where
  revision : ℕ
  clock : ℕ
  cached : Option (Cached T)
  flights : List (Flight T)
  configLoadErrors : ℕ

inductive StoreAction where
  | rewrite
  | tick
  | start (kind : CallKind)
  | step (i : ℕ) (answered : Bool)
deriving DecidableEq, Repr

namespace SharedStore

/-- `ConfigStore::new`. -/
def init : SharedStore T := ⟨0, 0, none, [], 0⟩

def step (s : SharedStore T) : StoreAction → Option (SharedStore T)
  | .rewrite => some { s with revision := s.revision + 1 }
  | .tick => some { s with clock := s.clock + 1 }
  | .start kind => some { s with flights := s.flights ++ [.start kind s.clock] }
  | .step i answered => do
    let f ← s.flights[i]?
    let turn ← f.next compile ttl doc s.revision s.cached answered
    pure { s with
      cached := turn.2.1
      flights := s.flights.set i turn.1
      configLoadErrors := s.configLoadErrors + turn.2.2 }

end SharedStore

/-- What one step of a call comes to. -/
inductive Flight.Turn (revision : ℕ) (cached : Option (Cached T)) (f : Flight T) :
    Flight T → Option (Cached T) → ℕ → Prop where
  | fresh {c : Cached T} (hphase : f.phase = .checking) (hcached : cached = some c) :
      Turn revision cached f { f with phase := .returning } cached 0
  | stale (hphase : f.phase = .checking) :
      Turn revision cached f { f with phase := .comparing, refreshed := true } cached 0
  | empty (hphase : f.phase = .comparing) :
      Turn revision cached f { f with phase := .fetching } cached 0
  | compare {c : Cached T} (hphase : f.phase = .comparing) (hcached : cached = some c) :
      Turn revision cached f { f with phase := .versioning c.version } cached 0
  | same (hphase : f.phase = .versioning (doc.tag revision)) :
      Turn revision cached f { f with phase := .touching } cached 0
  | changed {version : VersionTag} (hphase : f.phase = .versioning version) :
      Turn revision cached f { f with phase := .fetching } cached 0
  | touch (hphase : f.phase = .touching) :
      Turn revision cached f { f with phase := .returning } (cached.map (fun c => { c with fetchedAt := f.now })) 0
  | tag (hphase : f.phase = .fetching) :
      Turn revision cached f { f with phase := .reading (doc.tag revision) } cached 0
  | compile {version : VersionTag} {value : T} (hphase : f.phase = .reading version)
      (hvalue : compile (doc.content revision) = .ok value) :
      Turn revision cached f { f with phase := .storing value version } cached 0
  | store {value : T} {version : VersionTag} (hphase : f.phase = .storing value version) :
      Turn revision cached f f.finish (some ⟨value, version, f.now⟩) 0
  | fail (hphase : f.phase ≠ .returning) (hopen : ∀ value, f.phase ≠ .returned value) (hchecked : f.phase ≠ .checking) :
      Turn revision cached f { f.finish with failed := true } cached 1
  | give (hphase : f.phase = .returning) :
      Turn revision cached f { f with phase := .returned (cached.map Cached.value) } cached 0

variable {compile ttl doc}

lemma Flight.turn_of_next {revision : ℕ} {cached cached' : Option (Cached T)} {answered : Bool} {f f' : Flight T}
    {errors : ℕ} (h : f.next compile ttl doc revision cached answered = some (f', cached', errors)) :
    Flight.Turn compile doc revision cached f f' cached' errors := by
  unfold Flight.next at h
  cases hphase : f.phase with
  | checking =>
    cases hcached : cached with
    | none =>
      simp only [hphase, hcached] at h
      cases h
      exact .stale hphase
    | some c =>
      simp only [hphase, hcached] at h
      split_ifs at h
      · cases h
        exact .stale hphase
      · cases h
        exact .fresh hphase rfl
  | comparing =>
    cases hcached : cached with
    | none =>
      simp only [hphase, hcached] at h
      cases h
      exact .empty hphase
    | some c =>
      simp only [hphase, hcached] at h
      cases h
      exact .compare hphase rfl
  | versioning version =>
    simp only [hphase] at h
    split_ifs at h with hanswered hsame
    · cases h
      exact .same (hsame ▸ hphase)
    · cases h
      exact .changed hphase
    · cases h
      exact .fail (by simp [hphase]) (by simp [hphase]) (by simp [hphase])
  | touching =>
    simp only [hphase] at h
    cases h
    exact .touch hphase
  | fetching =>
    simp only [hphase] at h
    split_ifs at h
    · cases h
      exact .tag hphase
    · cases h
      exact .fail (by simp [hphase]) (by simp [hphase]) (by simp [hphase])
  | reading version =>
    simp only [hphase] at h
    split_ifs at h
    · cases hvalue : compile (doc.content revision) with
      | ok value =>
        simp only [hvalue] at h
        cases h
        exact .compile hphase hvalue
      | error e =>
        simp only [hvalue] at h
        cases h
        exact .fail (by simp [hphase]) (by simp [hphase]) (by simp [hphase])
    · cases h
      exact .fail (by simp [hphase]) (by simp [hphase]) (by simp [hphase])
  | storing value version =>
    simp only [hphase] at h
    cases h
    exact .store hphase
  | returning =>
    simp only [hphase] at h
    cases h
    exact .give hphase
  | returned value =>
    simp only [hphase] at h
    cases h

end Flights

section Sound
variable {T : Type} (compile : Bytes → Except ConfigError T) (doc : Document)

/-- A value with a tag that is no newer than its content. -/
def Loaded (revision : ℕ) (value : T) (version : VersionTag) : Prop :=
  ∃ tagged read, tagged ≤ read ∧ read ≤ revision ∧ version = doc.tag tagged ∧ compile (doc.content read) = .ok value

/-- What holds of a call in each phase. Only a call that has finished can have failed, and one that goes to
revalidate the cache, or returns from it, finds it loaded. -/
def Flight.Sound (revision : ℕ) (cached : Option (Cached T)) (f : Flight T) : Prop :=
  match f.phase with
  | .checking | .comparing | .fetching => f.failed = false
  | .versioning _ | .touching => f.failed = false ∧ cached.isSome = true
  | .reading version => f.failed = false ∧ ∃ tagged ≤ revision, version = doc.tag tagged
  | .storing value version => f.failed = false ∧ Loaded compile doc revision value version
  | .returning => f.failed = false → cached.isSome = true
  | .returned result => (f.kind = .get → f.failed = false → result.isSome = true) ∧
      ∀ value, result = some value → ∃ read ≤ revision, compile (doc.content read) = .ok value

structure SharedStore.Sound (s : SharedStore T) : Prop where
  cached : ∀ c, s.cached = some c → Loaded compile doc s.revision c.value c.version
  flights : ∀ f ∈ s.flights, f.Sound compile doc s.revision s.cached
  errors : s.configLoadErrors = s.flights.countP Flight.failed

variable {compile doc} {revision revision' : ℕ} {cached cached' : Option (Cached T)} {f f' : Flight T} {errors : ℕ}

lemma Loaded.mono {value : T} {version : VersionTag} (h : Loaded compile doc revision value version)
    (hle : revision ≤ revision') : Loaded compile doc revision' value version := by
  obtain ⟨tagged, read, htagged, hread, hrest⟩ := h
  exact ⟨tagged, read, htagged, hread.trans hle, hrest⟩

/-- What other calls and rewrites leave true. -/
lemma Flight.Sound.mono (h : f.Sound compile doc revision cached) (hle : revision ≤ revision')
    (hloaded : cached.isSome = true → cached'.isSome = true) : f.Sound compile doc revision' cached' := by
  unfold Flight.Sound at h ⊢
  cases hphase : f.phase with
  | reading version =>
    simp only [hphase] at h ⊢
    obtain ⟨hfailed, tagged, htagged, hversion⟩ := h
    exact ⟨hfailed, tagged, htagged.trans hle, hversion⟩
  | storing value version =>
    simp only [hphase] at h ⊢
    exact ⟨h.1, h.2.mono hle⟩
  | returned result =>
    simp only [hphase] at h ⊢
    refine ⟨h.1, fun value hvalue => ?_⟩
    obtain ⟨read, hread, hcompile⟩ := h.2 value hvalue
    exact ⟨read, hread.trans hle, hcompile⟩
  | checking | comparing | fetching =>
    simp only [hphase] at h ⊢
    exact h
  | versioning version =>
    simp only [hphase] at h ⊢
    exact ⟨h.1, hloaded h.2⟩
  | touching =>
    simp only [hphase] at h ⊢
    exact ⟨h.1, hloaded h.2⟩
  | returning =>
    simp only [hphase] at h ⊢
    exact fun hfailed => hloaded (h hfailed)

lemma Flight.Turn.cached_sound (hturn : Flight.Turn compile doc revision cached f f' cached' errors)
    (hcached : ∀ c, cached = some c → Loaded compile doc revision c.value c.version)
    (h : f.Sound compile doc revision cached) :
    (∀ c, cached' = some c → Loaded compile doc revision c.value c.version) ∧
      (cached.isSome = true → cached'.isSome = true) := by
  cases hturn with
  | touch hphase =>
    refine ⟨fun c hc => ?_, fun hsome => by simpa using hsome⟩
    obtain ⟨c', hc', rfl⟩ := Option.map_eq_some_iff.mp hc
    exact hcached c' hc'
  | @store value version hphase =>
    refine ⟨fun c hc => ?_, fun _ => rfl⟩
    obtain rfl := Option.some.inj hc
    simp only [Flight.Sound, hphase] at h
    exact h.2
  | _ => exact ⟨hcached, id⟩

lemma Flight.finish_sound (failed : Bool) (h : failed = false → cached.isSome = true) :
    Flight.Sound compile doc revision cached { f.finish with failed := failed } := by
  unfold Flight.Sound Flight.finish
  cases hkind : f.kind with
  | prime => simp
  | get => simpa using h

lemma Flight.Turn.sound (hturn : Flight.Turn compile doc revision cached f f' cached' errors)
    (hcached : ∀ c, cached = some c → Loaded compile doc revision c.value c.version)
    (h : f.Sound compile doc revision cached) :
    f'.Sound compile doc revision cached' ∧
      (if f'.failed then 1 else 0) = (if f.failed then 1 else 0) + errors := by
  cases hturn with
  | @fresh c hphase hc =>
    simp only [Flight.Sound, hphase] at h
    simp [Flight.Sound, h, hc]
  | stale hphase =>
    simp only [Flight.Sound, hphase] at h
    simp [Flight.Sound, h]
  | empty hphase =>
    simp only [Flight.Sound, hphase] at h
    simp [Flight.Sound, h]
  | @compare c hphase hc =>
    simp only [Flight.Sound, hphase] at h
    simp [Flight.Sound, h, hc]
  | same hphase =>
    simp only [Flight.Sound, hphase] at h
    simp [Flight.Sound, h]
  | changed hphase =>
    simp only [Flight.Sound, hphase] at h
    simp [Flight.Sound, h]
  | touch hphase =>
    simp only [Flight.Sound, hphase] at h
    simp [Flight.Sound, h]
  | tag hphase =>
    simp only [Flight.Sound, hphase] at h
    simp only [Flight.Sound, h, true_and]
    exact ⟨⟨revision, le_rfl, rfl⟩, by simp⟩
  | @compile version value hphase hvalue =>
    simp only [Flight.Sound, hphase] at h
    obtain ⟨hfailed, tagged, htagged, hversion⟩ := h
    simp only [Flight.Sound, hfailed, true_and]
    exact ⟨⟨tagged, revision, htagged, le_rfl, hversion, hvalue⟩, by simp⟩
  | @store value version hphase =>
    simp only [Flight.Sound, hphase] at h
    exact ⟨Flight.finish_sound f.failed (fun _ => rfl), rfl⟩
  | fail hphase hopen hchecked =>
    have hfailed : f.failed = false := by
      unfold Flight.Sound at h
      cases hp : f.phase with
      | returning => exact absurd hp hphase
      | returned value => exact absurd hp (hopen value)
      | checking | comparing | fetching => simpa [hp] using h
      | versioning | touching | reading | storing =>
        simp only [hp] at h
        exact h.1
    refine ⟨Flight.finish_sound true (by simp), ?_⟩
    simp [hfailed]
  | give hphase =>
    simp only [Flight.Sound, hphase] at h
    refine ⟨?_, by simp⟩
    simp only [Flight.Sound, Option.isSome_map]
    refine ⟨fun _ => h, fun value hvalue => ?_⟩
    obtain ⟨c, hc, rfl⟩ := Option.map_eq_some_iff.mp hvalue
    obtain ⟨tagged, read, -, hread, -, hcompile⟩ := hcached c hc
    exact ⟨read, hread, hcompile⟩

variable {ttl : ℕ} {s s' : SharedStore T}

/-- What an action does, if it is enabled: the document or the clock moves on, a call starts, or one takes a
step. -/
lemma SharedStore.step_cases {action : StoreAction} (h : s.step compile ttl doc action = some s') :
    (action = .rewrite ∧ s' = { s with revision := s.revision + 1 }) ∨ (action = .tick ∧ s' = { s with clock := s.clock + 1 }) ∨
      (∃ kind, s' = { s with flights := s.flights ++ [.start kind s.clock] }) ∨
      ∃ i f f' cached' errors, s.flights[i]? = some f ∧
        Flight.Turn compile doc s.revision s.cached f f' cached' errors ∧
        s' = { s with
          cached := cached'
          flights := s.flights.set i f'
          configLoadErrors := s.configLoadErrors + errors } := by
  cases action with
  | rewrite =>
    cases h
    exact .inl ⟨rfl, rfl⟩
  | tick =>
    cases h
    exact .inr (.inl ⟨rfl, rfl⟩)
  | start kind =>
    cases h
    exact .inr (.inr (.inl ⟨kind, rfl⟩))
  | step i answered =>
    obtain ⟨f, hf, h⟩ := Option.bind_eq_some_iff.mp h
    obtain ⟨⟨f', cached', errors⟩, hturn, h⟩ := Option.bind_eq_some_iff.mp h
    cases h
    exact .inr (.inr (.inr ⟨i, f, f', cached', errors, hf, Flight.turn_of_next hturn, rfl⟩))

lemma Flight.start_sound (kind : CallKind) (now : ℕ) :
    (Flight.start kind now : Flight T).Sound compile doc revision cached ∧ (Flight.start kind now : Flight T).failed = false := by
  cases kind with
  | prime => simp [Flight.start, Flight.Sound]
  | get => simp [Flight.start, Flight.Sound]

lemma SharedStore.Sound.step (h : s.Sound compile doc) {action : StoreAction}
    (hstep : s.step compile ttl doc action = some s') : s'.Sound compile doc := by
  rcases SharedStore.step_cases hstep with ⟨-, rfl⟩ | ⟨-, rfl⟩ | ⟨kind, rfl⟩ | ⟨i, f, f', cached', errors, hf, hturn, rfl⟩
  · exact ⟨fun c hc => (h.cached c hc).mono (Nat.le_succ _), fun f hf => (h.flights f hf).mono (Nat.le_succ _) id, h.errors⟩
  · exact ⟨h.cached, h.flights, h.errors⟩
  · obtain ⟨hstart, hfailed⟩ : (Flight.start kind s.clock).Sound compile doc s.revision s.cached ∧ _ :=
      Flight.start_sound kind s.clock
    refine ⟨h.cached, fun f hf => ?_, ?_⟩
    · rcases List.mem_append.mp hf with hf | hf
      · exact h.flights f hf
      · rw [List.mem_singleton.mp hf]
        exact hstart
    · simp [h.errors, hfailed]
  · have hmem := List.mem_of_getElem? hf
    obtain ⟨hcached, hloaded⟩ := hturn.cached_sound h.cached (h.flights f hmem)
    obtain ⟨hsound, hcount⟩ := hturn.sound h.cached (h.flights f hmem)
    obtain ⟨hi, rfl⟩ := List.getElem?_eq_some_iff.mp hf
    refine ⟨hcached, fun g hg => ?_, ?_⟩
    · rcases List.mem_or_eq_of_mem_set hg with hg | rfl
      · exact (h.flights g hg).mono le_rfl hloaded
      · exact hsound
    · have hpos : (if s.flights[i].failed then 1 else 0) ≤ s.flights.countP Flight.failed := by
        split_ifs with hfailed
        · exact List.countP_pos_iff.mpr ⟨_, hmem, hfailed⟩
        · exact Nat.zero_le _
      simp only [h.errors]
      rw [List.countP_set hi]
      omega

lemma SharedStore.sound_init : (init : SharedStore T).Sound compile doc :=
  ⟨by simp [init], by simp [init], rfl⟩

end Sound

section Settled
variable {T : Type} (compile : Bytes → Except ConfigError T) (doc : Document) (revision : ℕ)

/-- The cache has the tag of this revision. -/
def IsCurrent (cached : Option (Cached T)) : Prop := ∃ c, cached = some c ∧ c.version = doc.tag revision

/-- What holds of a call that has only seen this revision. A refresh that succeeds leaves the cache with its
tag. -/
def Flight.Current (cached : Option (Cached T)) (f : Flight T) : Prop :=
  match f.phase with
  | .checking => f.refreshed = false
  | .comparing | .fetching => True
  | .versioning version => version = doc.tag revision → IsCurrent doc revision cached
  | .touching => IsCurrent doc revision cached
  | .reading version => version = doc.tag revision
  | .storing value version => version = doc.tag revision ∧ compile (doc.content revision) = .ok value
  | .returning => f.refreshed = true → f.failed = false → IsCurrent doc revision cached
  | .returned result => f.kind = .get → f.refreshed = true → f.failed = false →
      ∃ value, result = some value ∧ compile (doc.content revision) = .ok value

/-- A store whose document has stayed at this revision since there were only the first `n` calls, all of them
over. -/
structure SharedStore.Settled (n : ℕ) (s : SharedStore T) : Prop where
  sound : s.Sound compile doc
  still : s.revision = revision
  count : n ≤ s.flights.length
  older : ∀ i < n, ∀ f, s.flights[i]? = some f → ∃ result, f.phase = .returned result
  younger : ∀ i, n ≤ i → ∀ f, s.flights[i]? = some f → f.Current compile doc revision s.cached

variable {compile doc revision} {cached cached' : Option (Cached T)} {f f' : Flight T} {errors : ℕ}

lemma Flight.Current.mono (h : f.Current compile doc revision cached)
    (hcurrent : IsCurrent doc revision cached → IsCurrent doc revision cached') :
    f.Current compile doc revision cached' := by
  unfold Flight.Current at h ⊢
  cases hphase : f.phase with
  | versioning version =>
    simp only [hphase] at h ⊢
    exact fun hversion => hcurrent (h hversion)
  | touching =>
    simp only [hphase] at h ⊢
    exact hcurrent h
  | returning =>
    simp only [hphase] at h ⊢
    exact fun hrefreshed hfailed => hcurrent (h hrefreshed hfailed)
  | comparing | fetching => trivial
  | checking | reading | storing | returned =>
    simp only [hphase] at h ⊢
    exact h

/-- Content that was loaded with the tag of the present revision is the present content. -/
lemma Loaded.current {value : T} (h : Loaded compile doc revision value (doc.tag revision)) :
    compile (doc.content revision) = .ok value := by
  obtain ⟨tagged, read, htagged, hread, hversion, hcompile⟩ := h
  obtain rfl := doc.fresh hversion
  rwa [Nat.le_antisymm htagged hread]

lemma Flight.finish_current {failed : Bool} (h : f.refreshed = true → failed = false → IsCurrent doc revision cached) :
    Flight.Current compile doc revision cached { f.finish with failed := failed } := by
  unfold Flight.Current Flight.finish
  cases hkind : f.kind with
  | prime => simp
  | get => simpa using h

lemma Flight.Turn.not_returned (hturn : Flight.Turn compile doc revision cached f f' cached' errors) (result : Option T) :
    f.phase ≠ .returned result := by
  cases hturn with
  | fail hphase hopen hchecked => exact hopen result
  | _ => simp [*]

lemma Flight.Turn.current (hturn : Flight.Turn compile doc revision cached f f' cached' errors)
    (hcached : ∀ c, cached = some c → Loaded compile doc revision c.value c.version)
    (h : f.Current compile doc revision cached) :
    f'.Current compile doc revision cached' ∧ (IsCurrent doc revision cached → IsCurrent doc revision cached') := by
  cases hturn with
  | @fresh c hphase hc =>
    simp only [Flight.Current, hphase] at h
    simp [Flight.Current, h]
  | stale hphase => simp [Flight.Current]
  | empty hphase => simp [Flight.Current]
  | @compare c hphase hc =>
    refine ⟨?_, id⟩
    simp only [Flight.Current]
    exact fun hversion => ⟨c, hc, hversion⟩
  | same hphase =>
    simp only [Flight.Current, hphase] at h
    exact ⟨h trivial, id⟩
  | changed hphase => simp [Flight.Current]
  | touch hphase =>
    simp only [Flight.Current, hphase] at h
    have hkeep : IsCurrent doc revision cached →
        IsCurrent doc revision (cached.map (fun c => { c with fetchedAt := f.now })) := by
      rintro ⟨c, rfl, hversion⟩
      exact ⟨_, rfl, hversion⟩
    refine ⟨?_, hkeep⟩
    simp only [Flight.Current]
    exact fun _ _ => hkeep h
  | tag hphase => simp [Flight.Current]
  | @compile version value hphase hvalue =>
    simp only [Flight.Current, hphase] at h
    refine ⟨?_, id⟩
    simp only [Flight.Current]
    exact ⟨h, hvalue⟩
  | @store value version hphase =>
    simp only [Flight.Current, hphase] at h
    have hcurrent : IsCurrent doc revision (some ⟨value, version, f.now⟩) := ⟨_, rfl, h.1⟩
    exact ⟨Flight.finish_current (fun _ _ => hcurrent), fun _ => hcurrent⟩
  | fail hphase hopen hchecked => exact ⟨Flight.finish_current (by simp), id⟩
  | give hphase =>
    simp only [Flight.Current, hphase] at h
    refine ⟨?_, id⟩
    simp only [Flight.Current]
    intro _ hrefreshed hfailed
    obtain ⟨c, hc, hversion⟩ := h hrefreshed hfailed
    have hloaded := hcached c hc
    rw [hversion] at hloaded
    exact ⟨c.value, by rw [hc, Option.map_some], hloaded.current⟩

variable {ttl n : ℕ} {s s' : SharedStore T}

lemma SharedStore.Settled.step (h : s.Settled compile doc revision n) {action : StoreAction}
    (hstep : s.step compile ttl doc action = some s') (hstill : action ≠ .rewrite) :
    s'.Settled compile doc revision n := by
  have hsound := h.sound.step hstep
  obtain ⟨hbefore, rfl, hn, holder, hyounger⟩ := h
  rcases SharedStore.step_cases hstep with ⟨hrewrite, -⟩ | ⟨-, rfl⟩ | ⟨kind, rfl⟩ | ⟨i, f, f', cached', errors, hf, hturn, rfl⟩
  · exact absurd hrewrite hstill
  · exact ⟨hsound, rfl, hn, holder, hyounger⟩
  · refine ⟨hsound, rfl, by simp; omega, fun j hj f hf => ?_, fun j hj f hf => ?_⟩
    · rw [List.getElem?_append_left (by omega)] at hf
      exact holder j hj f hf
    · rw [List.getElem?_append] at hf
      split_ifs at hf
      · exact hyounger j hj f hf
      · obtain rfl : f = .start kind s.clock := by
          have hmem := List.mem_of_getElem? hf
          simpa using hmem
        cases kind with
        | prime => simp [Flight.start, Flight.Current]
        | get => simp [Flight.start, Flight.Current]
  · have hi : n ≤ i := by
      by_contra hlt
      obtain ⟨result, hresult⟩ := holder i (by omega) f hf
      exact hturn.not_returned result hresult
    obtain ⟨hcurrent, hkeep⟩ := hturn.current hbefore.cached (hyounger i hi f hf)
    refine ⟨hsound, rfl, by simpa using hn, fun j hj g hg => ?_, fun j hj g hg => ?_⟩
    · rw [List.getElem?_set_ne (by omega)] at hg
      exact holder j hj g hg
    · by_cases hij : i = j
      · subst hij
        obtain ⟨hlt, -⟩ := List.getElem?_eq_some_iff.mp hf
        rw [List.getElem?_set_self hlt, Option.some.injEq] at hg
        rwa [← hg]
      · rw [List.getElem?_set_ne hij] at hg
        exact (hyounger j hj g hg).mono hkeep

lemma SharedStore.Settled.run {actions : List StoreAction} (h : s.Settled compile doc revision n)
    (hstill : .rewrite ∉ actions)
    (hrun : Concurrency.runActions (SharedStore.step compile ttl doc) s actions = some s') :
    s'.Settled compile doc revision n := by
  induction actions generalizing s with
  | nil =>
    cases hrun
    exact h
  | cons action rest ih =>
    obtain ⟨mid, hmid, hrest⟩ := Option.bind_eq_some_iff.mp hrun
    obtain ⟨hne, hrest'⟩ := List.ne_and_not_mem_of_not_mem_cons hstill
    exact ih (h.step hmid hne.symm) hrest' hrest

end Settled

section Alone
variable {T : Type} (compile : Bytes → Except ConfigError T) (ttl : ℕ) (doc : Document)

/-- The steps of one call while nothing else happens. -/
def Flight.run (revision : ℕ) : List Bool → Flight T × Option (Cached T) × ℕ → Option (Flight T × Option (Cached T) × ℕ)
  | [], state => some state
  | answered :: rest, (f, cached, errors) =>
    (f.next compile ttl doc revision cached answered).bind (fun turn =>
      Flight.run revision rest (turn.1, turn.2.1, errors + turn.2.2))

variable {compile ttl doc}

lemma SharedStore.run_alone {s : SharedStore T} {i : ℕ} {f f' : Flight T} {cached : Option (Cached T)} {errors : ℕ}
    (hf : s.flights[i]? = some f) {answers : List Bool}
    (hrun : Flight.run compile ttl doc s.revision answers (f, s.cached, s.configLoadErrors) = some (f', cached, errors)) :
    Concurrency.runActions (SharedStore.step compile ttl doc) s (answers.map (.step i)) =
      some { s with cached := cached, flights := s.flights.set i f', configLoadErrors := errors } := by
  induction answers generalizing s f with
  | nil =>
    cases hrun
    obtain ⟨hi, rfl⟩ := List.getElem?_eq_some_iff.mp hf
    simp [Concurrency.runActions]
  | cons answered rest ih =>
    obtain ⟨⟨g, cached', errors'⟩, hturn, hrest⟩ := Option.bind_eq_some_iff.mp hrun
    obtain ⟨hi, -⟩ := List.getElem?_eq_some_iff.mp hf
    have hstep : s.step compile ttl doc (.step i answered) = some { s with
        cached := cached'
        flights := s.flights.set i g
        configLoadErrors := s.configLoadErrors + errors' } := by
      simp [SharedStore.step, hf, hturn]
    rw [List.map_cons, Concurrency.runActions, hstep, Option.bind_some]
    have hnext := ih (s := { s with
        cached := cached'
        flights := s.flights.set i g
        configLoadErrors := s.configLoadErrors + errors' }) (by simp [hi]) hrest
    simpa using hnext

/-- What the source answers to a call at this revision. -/
def visitAt (doc : Document) (revision now : ℕ) (e : ConfigError) (versionOk fetchOk : Bool) : Visit where
  now := now
  version := if versionOk then .ok (doc.tag revision) else .error e
  fetch := if fetchOk then .ok (doc.content revision, doc.tag revision) else .error e

/-- What a call returns that leaves this in the cache. -/
def CallKind.result (kind : CallKind) (cached : Option (Cached T)) : Option T :=
  match kind with
  | .prime => none
  | .get => cached.map Cached.value

/-- From this state a call comes to its end with these results. -/
def Flight.EndsWith (compile : Bytes → Except ConfigError T) (ttl : ℕ) (doc : Document) (revision : ℕ)
    (state : Flight T × Option (Cached T) × ℕ) (kind : CallKind) (cached : Option (Cached T)) (errors : ℕ) : Prop :=
  ∃ (answers : List Bool) (f : Flight T), Flight.run compile ttl doc revision answers state = some (f, cached, errors) ∧
    f.phase = .returned (kind.result cached)

variable {revision now : ℕ} {f f' : Flight T} {cached cached' result : Option (Cached T)} {errors e' : ℕ} {kind : CallKind}

lemma Flight.EndsWith.step (answered : Bool) (f' : Flight T) (cached' : Option (Cached T)) (added : ℕ)
    (hnext : f.next compile ttl doc revision cached answered = some (f', cached', added))
    (h : Flight.EndsWith compile ttl doc revision (f', cached', errors + added) kind result e') :
    Flight.EndsWith compile ttl doc revision (f, cached, errors) kind result e' := by
  obtain ⟨answers, g, hrun, hphase⟩ := h
  exact ⟨answered :: answers, g, by rw [Flight.run, hnext, Option.bind_some, hrun], hphase⟩

/-- A call that has nothing left but to return. -/
lemma Flight.endsWith_finish (f : Flight T) (failed : Bool) (hkind : f.kind = kind) :
    Flight.EndsWith compile ttl doc revision ({ f.finish with failed := failed }, cached, errors) kind cached errors := by
  cases kind with
  | prime => exact ⟨[], _, rfl, by simp [Flight.finish, hkind, CallKind.result]⟩
  | get =>
    refine .step true { f with phase := .returned (cached.map Cached.value), failed := failed } cached 0 ?_ ⟨[], _, rfl, rfl⟩
    simp [Flight.next, Flight.finish, hkind]

lemma Flight.endsWith_load (hphase : f.phase = .fetching) (hkind : f.kind = kind) (e : ConfigError) (versionOk fetchOk : Bool) :
    Flight.EndsWith compile ttl doc revision (f, cached, errors) kind
      (load compile (visitAt doc revision f.now e versionOk fetchOk) cached).cached
      (errors + (load compile (visitAt doc revision f.now e versionOk fetchOk) cached).configLoadErrors) := by
  cases fetchOk with
  | false =>
    have hload : load compile (visitAt doc revision f.now e versionOk false) cached = ⟨cached, [.fetch], 1⟩ := rfl
    rw [hload]
    exact .step false { f.finish with failed := true } cached 1 (by simp [Flight.next, hphase])
      (Flight.endsWith_finish f true hkind)
  | true =>
    refine .step true { f with phase := .reading (doc.tag revision) } cached 0 (by simp [Flight.next, hphase]) ?_
    cases hvalue : compile (doc.content revision) with
    | error e' =>
      have hload : load compile (visitAt doc revision f.now e versionOk true) cached = ⟨cached, [.fetch], 1⟩ := by
        simp [load, fetchAndCompile, visitAt, hvalue, bind, Except.bind]
      rw [hload]
      exact .step true { Flight.finish { f with phase := .reading (doc.tag revision) } with failed := true } cached 1
        (by simp [Flight.next, hvalue]) (Flight.endsWith_finish _ true hkind)
    | ok value =>
      have hload : load compile (visitAt doc revision f.now e versionOk true) cached =
          ⟨some ⟨value, doc.tag revision, f.now⟩, [.fetch], 0⟩ := by
        simp [load, fetchAndCompile, visitAt, hvalue, bind, Except.bind, pure, Except.pure]
      rw [hload]
      refine .step true { f with phase := .storing value (doc.tag revision) } cached 0 (by simp [Flight.next, hvalue]) ?_
      exact .step true (Flight.finish { f with phase := .storing value (doc.tag revision) })
        (some ⟨value, doc.tag revision, f.now⟩) 0 (by simp [Flight.next]) (Flight.endsWith_finish _ f.failed hkind)

/-- A call that nothing else comes between does what `prime` and `get` do to the cache. -/
lemma SharedStore.call_alone {s : SharedStore T} {i : ℕ} (hf : s.flights[i]? = some (.start kind now)) (e : ConfigError)
    (versionOk fetchOk : Bool) {turn : Turn T}
    (hturn : turn = Call.turn compile ttl
      ⟨kind, visitAt doc s.revision now e versionOk fetchOk, s.cached, s.revision, s.revision⟩) :
    ∃ (answers : List Bool) (s' : SharedStore T),
      Concurrency.runActions (SharedStore.step compile ttl doc) s (answers.map (.step i)) = some s' ∧
      s'.cached = turn.cached ∧ s'.configLoadErrors = s.configLoadErrors + turn.configLoadErrors ∧
      ∃ f, s'.flights[i]? = some f ∧ f.phase = .returned (kind.result turn.cached) := by
  suffices h : Flight.EndsWith compile ttl doc s.revision (.start kind now, s.cached, s.configLoadErrors) kind turn.cached
      (s.configLoadErrors + turn.configLoadErrors) by
    obtain ⟨answers, f, hrun, hphase⟩ := h
    obtain ⟨hi, -⟩ := List.getElem?_eq_some_iff.mp hf
    exact ⟨answers, _, SharedStore.run_alone hf hrun, rfl, rfl, f, by simp [hi], hphase⟩
  subst hturn
  cases kind with
  | prime => exact Flight.endsWith_load rfl rfl e versionOk fetchOk
  | get =>
    cases hcached : s.cached with
    | none =>
      refine .step true ⟨.get, now, .comparing, true, false⟩ none 0 (by simp [Flight.next, Flight.start]) ?_
      refine .step true ⟨.get, now, .fetching, true, false⟩ none 0 (by simp [Flight.next]) ?_
      exact Flight.endsWith_load rfl rfl e versionOk fetchOk
    | some c =>
      by_cases hstale : ttl ≤ now - c.fetchedAt
      · refine .step true ⟨.get, now, .comparing, true, false⟩ (some c) 0 (by simp [Flight.next, Flight.start, hstale]) ?_
        refine .step true ⟨.get, now, .versioning c.version, true, false⟩ (some c) 0 (by simp [Flight.next]) ?_
        cases versionOk with
        | false =>
          have hget : Config.get compile ttl (visitAt doc s.revision now e false fetchOk) (some c) = ⟨some c, [.version], 1⟩ := by
            simp [Config.get, stale, refresh, visitAt, hstale]
          simp only [Call.turn, hget]
          exact .step false _ (some c) 1 (by simp only [Flight.next]; rfl)
            (Flight.endsWith_finish ⟨.get, now, .versioning c.version, true, false⟩ true rfl)
        | true =>
          by_cases hsame : doc.tag s.revision = c.version
          · have hget : Config.get compile ttl (visitAt doc s.revision now e true fetchOk) (some c) =
                ⟨some { c with fetchedAt := now }, [.version], 0⟩ := by
              simp [Config.get, stale, refresh, visitAt, hstale, hsame]
            simp only [Call.turn, hget]
            refine .step true ⟨.get, now, .touching, true, false⟩ (some c) 0 (by simp [Flight.next, hsame]) ?_
            refine .step true ⟨.get, now, .returning, true, false⟩ (some { c with fetchedAt := now }) 0 (by simp [Flight.next]) ?_
            exact .step true _ _ 0 (by simp only [Flight.next]; rfl) ⟨[], _, rfl, rfl⟩
          · have hget : Config.get compile ttl (visitAt doc s.revision now e true fetchOk) (some c) =
                { load compile (visitAt doc s.revision now e true fetchOk) (some c) with
                  calls := .version :: (load compile (visitAt doc s.revision now e true fetchOk) (some c)).calls } := by
              simp [Config.get, stale, refresh, visitAt, hstale, hsame]
            simp only [Call.turn, hget]
            refine .step true ⟨.get, now, .fetching, true, false⟩ (some c) 0 (by simp [Flight.next, hsame]) ?_
            exact Flight.endsWith_load rfl rfl e true fetchOk
      · have hget : Config.get compile ttl (visitAt doc s.revision now e versionOk fetchOk) (some c) = ⟨some c, [], 0⟩ := by
          simp [Config.get, stale, visitAt, hstale]
        simp only [Call.turn, hget]
        refine .step true ⟨.get, now, .returning, false, false⟩ (some c) 0 (by simp [Flight.next, Flight.start, hstale]) ?_
        exact .step true _ _ 0 (by simp only [Flight.next]; rfl) ⟨[], _, rfl, rfl⟩

end Alone

section Shared
variable {T : Type}

/-- A cache that is shared by concurrent calls. However they interleave with one another and with the
rewrites of the document, its content is never older than its tag, every failure counts once, and a
`get` that did not fail returns a value that some revision compiled to. A call that nothing comes
between does what it does alone. Once no call is under way and the document stays as it is, every `get`
started since that comes to a refresh and does not fail returns the present document. -/
theorem shared_cache_sound (compile : Bytes → Except ConfigError T) (ttl : ℕ) (doc : Document) {s : SharedStore T}
    (h : Concurrency.Reachable (SharedStore.step compile ttl doc) SharedStore.init s) :
    (∀ c, s.cached = some c → Loaded compile doc s.revision c.value c.version) ∧
    s.configLoadErrors = s.flights.countP Flight.failed ∧
    (∀ f ∈ s.flights, ∀ result, f.phase = .returned result →
      (f.kind = .get → f.failed = false → result.isSome = true) ∧
      ∀ value, result = some value → ∃ read ≤ s.revision, compile (doc.content read) = .ok value) ∧
    (∀ i kind now, s.flights[i]? = some (.start kind now) → ∀ e versionOk fetchOk turn,
      turn = Call.turn compile ttl
        ⟨kind, visitAt doc s.revision now e versionOk fetchOk, s.cached, s.revision, s.revision⟩ →
      ∃ (answers : List Bool) (s' : SharedStore T),
        Concurrency.runActions (SharedStore.step compile ttl doc) s (answers.map (.step i)) = some s' ∧
        s'.cached = turn.cached ∧ s'.configLoadErrors = s.configLoadErrors + turn.configLoadErrors ∧
        ∃ f, s'.flights[i]? = some f ∧ f.phase = .returned (kind.result turn.cached)) ∧
    ((∀ f ∈ s.flights, ∃ result, f.phase = .returned result) → ∀ actions s', .rewrite ∉ actions →
      Concurrency.runActions (SharedStore.step compile ttl doc) s actions = some s' →
      ∀ i f result, s.flights.length ≤ i → s'.flights[i]? = some f → f.kind = .get → f.refreshed = true →
        f.failed = false → f.phase = .returned result →
        ∃ value, result = some value ∧ compile (doc.content s'.revision) = .ok value) := by
  have hsound : s.Sound compile doc := h.invariant SharedStore.sound_init (fun _ _ _ hs hstep => hs.step hstep)
  refine ⟨hsound.cached, hsound.errors, fun f hf result hphase => ?_, ?_, ?_⟩
  · have hflight := hsound.flights f hf
    simpa only [Flight.Sound, hphase] using hflight
  · intro i kind now hf e versionOk fetchOk turn hturn
    exact SharedStore.call_alone hf e versionOk fetchOk hturn
  · intro hover actions s' hstill hrun i f result hi hf hkind hrefreshed hfailed hphase
    have hsettled : s.Settled compile doc s.revision s.flights.length := by
      refine ⟨hsound, rfl, le_rfl, fun j _ g hg => hover g (List.mem_of_getElem? hg), fun j hj g hg => ?_⟩
      obtain ⟨hlt, -⟩ := List.getElem?_eq_some_iff.mp hg
      omega
    have hsettled' := hsettled.run hstill hrun
    have hcurrent := hsettled'.younger i hi f hf
    rw [hsettled'.still]
    simp only [Flight.Current, hphase] at hcurrent
    exact hcurrent hkind hrefreshed hfailed

/-- The document is rewritten after the warm-up, and then two calls revalidate it at once, past the TTL. -/
theorem shared_cache_sound_sample : ∃ (s' : SharedStore Bytes) (f : Flight Bytes) (value : Bytes),
    s'.flights[2]? = some f ∧ f.phase = .returned (some value) ∧
      Except.ok (sampleDocument.content s'.revision) = (.ok value : Except ConfigError Bytes) ∧ s'.revision = 1 := by
  let compile : Bytes → Except ConfigError Bytes := .ok
  let warm : List StoreAction := [.start .prime, .step 0 true, .step 0 true, .step 0 true, .rewrite]
  let calls : List StoreAction := [.tick, .start .get, .start .get, .step 1 true, .step 2 true, .step 1 true, .step 2 true,
    .step 2 true, .step 1 true, .step 2 true, .step 1 true, .step 2 true, .step 1 true, .step 1 true, .step 2 true,
    .step 1 true, .step 2 true]
  obtain ⟨s, hwarm⟩ : ∃ s, Concurrency.runActions (SharedStore.step compile 1 sampleDocument) SharedStore.init warm =
    some s := ⟨_, rfl⟩
  obtain ⟨s', hcalls⟩ : ∃ s', Concurrency.runActions (SharedStore.step compile 1 sampleDocument) s calls = some s' := by
    cases hwarm
    exact ⟨_, rfl⟩
  obtain ⟨-, -, -, -, hfresh⟩ := shared_cache_sound compile 1 sampleDocument (.run .start warm hwarm)
  cases hwarm
  have hover : ∀ f ∈ [(⟨.prime, 0, .returned none, true, false⟩ : Flight Bytes)], ∃ result, f.phase = .returned result := by
    intro f hf
    rw [List.mem_singleton.mp hf]
    exact ⟨none, rfl⟩
  have hquiet := hfresh hover calls s' (by decide) hcalls 2
  cases hcalls
  obtain ⟨value, hvalue, hcompile⟩ := hquiet ⟨.get, 1, .returned (some [1]), true, false⟩ (some [1]) (by decide) rfl rfl rfl rfl rfl
  exact ⟨_, ⟨.get, 1, .returned (some [1]), true, false⟩, value, rfl, by rw [hvalue], hcompile, rfl⟩

end Shared

end CloudTrailFilter.Config
