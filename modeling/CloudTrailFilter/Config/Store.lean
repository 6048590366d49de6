import CloudTrailFilter.Config.Source

/-!
# The config cache

`ConfigStore` caches one compiled document behind a TTL. A `Visit` has what the clock and the
source answer during one call of `prime` or `get`; a `Run` is any sequence of calls, one after the
other, while the document is rewritten between and during them. The invariant that carries
freshness ties the cached tag to the cached content: the tag's revision is no later than the
content's, so a tag that is current says that the content is.
-/

namespace CloudTrailFilter.Config
open CloudTrailFilter.Json CloudTrailFilter.Filter

section Store
variable {T : Type}

structure Cached (T : Type) where
  value : T
  version : VersionTag
  fetchedAt : ℕ

inductive SourceCall where
  | version
  | fetch
deriving DecidableEq, Repr

/-- The clock reading of a call, and what the source answers if it is asked. -/
structure Visit where
  now : ℕ
  version : Versioned
  fetch : Fetch

/-- What a call leaves: the cache, the calls of the source it made and the `ConfigLoadErrors` it
added. -/
structure Turn (T : Type) where
  cached : Option (Cached T)
  calls : List SourceCall
  configLoadErrors : ℕ

variable (compile : Bytes → Except ConfigError T) (ttl : ℕ) (visit : Visit) (cached : Option (Cached T))

def fetchAndCompile : Except ConfigError (T × VersionTag) := do
  let (bytes, version) ← visit.fetch
  let value ← compile bytes
  pure (value, version)

/-- A fetch whose result replaces the cache, or whose failure is counted. -/
def load : Turn T :=
  match fetchAndCompile compile visit with
  | .ok (value, version) => ⟨some ⟨value, version, visit.now⟩, [.fetch], 0⟩
  | .error _ => ⟨cached, [.fetch], 1⟩

/-- The warm-up, an unconditional load. -/
def prime : Turn T := load compile visit cached

def refresh : Turn T :=
  match cached with
  | none => load compile visit none
  | some c =>
    match visit.version with
    | .error _ => ⟨cached, [.version], 1⟩
    | .ok newVersion =>
      if newVersion = c.version then ⟨some { c with fetchedAt := visit.now }, [.version], 0⟩
      else
        let turn := load compile visit cached
        { turn with calls := .version :: turn.calls }

def stale : Bool :=
  match cached with
  | none => true
  | some c => ttl ≤ visit.now - c.fetchedAt

def get : Turn T := if stale ttl visit cached then refresh compile visit cached else ⟨cached, [], 0⟩

end Store

section Runs
variable {T : Type} (compile : Bytes → Except ConfigError T) (ttl : ℕ)

inductive CallKind where
  | prime
  | get
deriving DecidableEq, Repr

/-- One call: the cache it found, what it was answered, and the revisions of the document when it
started and when it returned. -/
structure Call (T : Type) where
  kind : CallKind
  visit : Visit
  before : Option (Cached T)
  start : ℕ
  stop : ℕ

namespace Call

def turn (call : Call T) : Turn T :=
  match call.kind with
  | .prime => Config.prime compile call.visit call.before
  | .get => Config.get compile ttl call.visit call.before

/-- What `get` returns. -/
def returned (call : Call T) : Option T := (call.turn compile ttl).cached.map Cached.value

/-- A call of the source fails, or the compilation of what it fetched. -/
def fails (call : Call T) : Bool :=
  ((call.turn compile ttl).calls.contains .version && !call.visit.version.isOk) ||
    ((call.turn compile ttl).calls.contains .fetch && !(fetchAndCompile compile call.visit).isOk)

/-- The call loads or revalidates the document. -/
def succeeds (call : Call T) : Bool := !(call.turn compile ttl).calls.isEmpty && !call.fails compile ttl

/-- The call fetched `bytes` with `version`, and they compiled to `value`. -/
def Loads (call : Call T) (bytes : Bytes) (version : VersionTag) (value : T) : Prop :=
  .fetch ∈ (call.turn compile ttl).calls ∧ call.visit.fetch = .ok (bytes, version) ∧ compile bytes = .ok value

/-- Each answer is about a revision of the document during the call, the calls of the source being
made in their order. -/
def Observes (doc : Document) (call : Call T) : Prop :=
  ∃ r tagged read, call.start ≤ r ∧ r ≤ tagged ∧ tagged ≤ read ∧ read ≤ call.stop ∧
    doc.Tagged r call.visit.version ∧ doc.Fetched tagged read call.visit.fetch

end Call

/-- The runs of a store that starts empty: the log of its calls, its cache, the revision of the
document and the clock. -/
inductive Run (doc : Document) : List (Call T) → Option (Cached T) → ℕ → ℕ → Prop where
  | start (revision clock : ℕ) : Run doc [] none revision clock
  | call {log : List (Call T)} {cached : Option (Cached T)} {revision clock : ℕ} (call : Call T) :
      Run doc log cached revision clock → call.before = cached → revision ≤ call.start →
      call.Observes doc → clock ≤ call.visit.now →
      Run doc (log ++ [call]) (call.turn compile ttl).cached call.stop call.visit.now

end Runs

section Calls
variable {T : Type} (compile : Bytes → Except ConfigError T) (ttl : ℕ) (call : Call T)

lemma load_cases (visit : Visit) (cached : Option (Cached T)) :
    (∃ bytes version value, visit.fetch = .ok (bytes, version) ∧ compile bytes = .ok value ∧
      fetchAndCompile compile visit = .ok (value, version) ∧
      load compile visit cached = ⟨some ⟨value, version, visit.now⟩, [.fetch], 0⟩) ∨
    ∃ e, fetchAndCompile compile visit = .error e ∧ load compile visit cached = ⟨cached, [.fetch], 1⟩ := by
  rcases hfetch : visit.fetch with e | ⟨bytes, version⟩
  · have hfails : fetchAndCompile compile visit = .error e := by
      simp [fetchAndCompile, hfetch, bind, Except.bind]
    exact .inr ⟨e, hfails, by simp [load, hfails]⟩
  · cases hcompile : compile bytes with
    | error e =>
      have hfails : fetchAndCompile compile visit = .error e := by
        simp [fetchAndCompile, hfetch, hcompile, bind, Except.bind]
      exact .inr ⟨e, hfails, by simp [load, hfails]⟩
    | ok value =>
      have hloads : fetchAndCompile compile visit = .ok (value, version) := by
        simp [fetchAndCompile, hfetch, hcompile, bind, Except.bind, pure, Except.pure]
      exact .inl ⟨bytes, version, value, rfl, hcompile, hloads, by simp [load, hloads]⟩

variable {compile ttl} in
/-- A call that comes to a load, after the version was given if it was asked for. -/
lemma Call.turn_of_load {calls : List SourceCall}
    (hturn : call.turn compile ttl = { load compile call.visit call.before with calls := calls })
    (hfetch : .fetch ∈ calls) (hversion : .version ∈ calls → call.visit.version.isOk = true) :
    (∃ bytes version value, call.Loads compile ttl bytes version value ∧
      call.fails compile ttl = false ∧ (call.turn compile ttl).configLoadErrors = 0 ∧
      (call.turn compile ttl).cached = some ⟨value, version, call.visit.now⟩) ∨
    call.fails compile ttl = true ∧ (call.turn compile ttl).cached = call.before ∧
      (call.turn compile ttl).configLoadErrors = 1 ∧
      ∀ bytes version value, ¬call.Loads compile ttl bytes version value := by
  have hcalls : (call.turn compile ttl).calls = calls := by rw [hturn]
  rcases load_cases compile call.visit call.before with
    ⟨bytes, version, value, hbytes, hvalue, hloads, hload⟩ | ⟨e, herror, hload⟩
  · refine .inl ⟨bytes, version, value, ⟨by rw [hcalls]; exact hfetch, hbytes, hvalue⟩, ?_, ?_, ?_⟩
    · have hok : (fetchAndCompile compile call.visit).isOk = true := by
        rw [hloads]
        rfl
      unfold Call.fails
      rw [hcalls, hok]
      by_cases hasked : SourceCall.version ∈ calls
      · simp [hversion hasked]
      · simp [hasked]
    · rw [hturn, hload]
    · rw [hturn, hload]
  · refine .inr ⟨?_, ?_, ?_, ?_⟩
    · unfold Call.fails
      rw [hcalls, herror]
      simp [hfetch, Except.isOk, Except.toBool]
    · rw [hturn, hload]
    · rw [hturn, hload]
    · rintro bytes version value ⟨-, hbytes, hvalue⟩
      simp [fetchAndCompile, hbytes, hvalue, bind, Except.bind, pure, Except.pure] at herror

/-- Every way a call can go: within the TTL, a load, a revalidation, or a failure. -/
lemma Call.turn_cases :
    (∃ c, call.before = some c ∧ call.kind = .get ∧ call.visit.now - c.fetchedAt < ttl ∧
      call.turn compile ttl = ⟨call.before, [], 0⟩) ∨
    (∃ bytes version value, call.Loads compile ttl bytes version value ∧
      call.fails compile ttl = false ∧ (call.turn compile ttl).configLoadErrors = 0 ∧
      (call.turn compile ttl).cached = some ⟨value, version, call.visit.now⟩) ∨
    (∃ c, call.before = some c ∧ call.visit.version = .ok c.version ∧
      call.turn compile ttl = ⟨some { c with fetchedAt := call.visit.now }, [.version], 0⟩) ∨
    call.fails compile ttl = true ∧ (call.turn compile ttl).cached = call.before ∧
      (call.turn compile ttl).configLoadErrors = 1 ∧
      ∀ bytes version value, ¬call.Loads compile ttl bytes version value := by
  have hfetched : ∀ cached, (load compile call.visit cached).calls = [.fetch] := by
    intro cached
    rcases load_cases compile call.visit cached with ⟨_, _, _, -, -, -, h⟩ | ⟨_, -, h⟩ <;> rw [h]
  have honly : ∀ cached, load compile call.visit cached = { load compile call.visit cached with calls := [.fetch] } := by
    intro cached
    rw [← hfetched cached]
  cases hkind : call.kind with
  | prime =>
    have hturn : call.turn compile ttl = { load compile call.visit call.before with calls := [.fetch] } := by
      rw [← honly]
      simp only [Call.turn, hkind, prime]
    exact .inr ((call.turn_of_load hturn (by simp) (by simp)).imp_right .inr)
  | get =>
    cases hbefore : call.before with
    | none =>
      have hturn : call.turn compile ttl = { load compile call.visit call.before with calls := [.fetch] } := by
        rw [← honly]
        simp [Call.turn, hkind, get, stale, hbefore, refresh]
      rw [← hbefore]
      exact .inr ((call.turn_of_load hturn (by simp) (by simp)).imp_right .inr)
    | some c =>
      by_cases hstale : ttl ≤ call.visit.now - c.fetchedAt
      · cases hversion : call.visit.version with
        | error e =>
          have hturn : call.turn compile ttl = ⟨some c, [.version], 1⟩ := by
            simp [Call.turn, hkind, get, stale, hbefore, hstale, refresh, hversion]
          refine .inr (.inr (.inr ⟨?_, by rw [hturn], by rw [hturn], ?_⟩))
          · simp [Call.fails, hturn, hversion, Except.isOk, Except.toBool]
          · intro bytes version value hloads
            simp [Call.Loads, hturn] at hloads
        | ok version =>
          by_cases hsame : version = c.version
          · refine .inr (.inr (.inl ⟨c, rfl, by rw [hsame], ?_⟩))
            simp [Call.turn, hkind, get, stale, hbefore, hstale, refresh, hversion, hsame]
          · have hturn : call.turn compile ttl =
                { load compile call.visit call.before with calls := [.version, .fetch] } := by
              simp [Call.turn, hkind, get, stale, hbefore, hstale, refresh, hversion, hsame, hfetched]
            have hok : call.visit.version.isOk = true := by
              rw [hversion]
              rfl
            rw [← hbefore, ← hversion]
            exact .inr ((call.turn_of_load hturn (by simp) (fun _ => hok)).imp_right .inr)
      · refine .inl ⟨c, rfl, rfl, by omega, ?_⟩
        simp [Call.turn, hkind, get, stale, hbefore, hstale]

end Calls

section Freshness
variable {T : Type} (compile : Bytes → Except ConfigError T) (ttl : ℕ) (doc : Document)

/-- The clock reading of the last call that loaded or revalidated the document. -/
def lastSuccess (log : List (Call T)) : Option ℕ :=
  (log.reverse.find? (Call.succeeds compile ttl)).map (fun call => call.visit.now)

/-- The invariant of the cache. Its content is of a revision between that of its tag and the
present one. -/
structure Fresh (log : List (Call T)) (cached : Option (Cached T)) (revision clock : ℕ) : Prop where
  /-- The cache has the result of one fetch of the log. -/
  origin : ∀ c, cached = some c → ∃ call ∈ log, ∃ bytes, call.Loads compile ttl bytes c.version c.value
  loaded : ∀ call ∈ log, ∀ bytes version value, call.Loads compile ttl bytes version value → cached.isSome = true
  revisions : ∀ c, cached = some c → ∃ tagged read, c.version = doc.tag tagged ∧
    compile (doc.content read) = .ok c.value ∧ tagged ≤ read ∧ read ≤ revision
  success : cached.map Cached.fetchedAt = lastSuccess compile ttl log
  clock : ∀ c, cached = some c → c.fetchedAt ≤ clock

variable {compile ttl doc}

lemma lastSuccess_concat (log : List (Call T)) (call : Call T) :
    lastSuccess compile ttl (log ++ [call]) =
      if call.succeeds compile ttl then some call.visit.now else lastSuccess compile ttl log := by
  unfold lastSuccess
  rw [List.reverse_append, List.reverse_singleton, List.singleton_append, List.find?_cons]
  cases call.succeeds compile ttl <;> rfl

lemma fresh_start (revision clock : ℕ) : Fresh compile ttl doc [] none revision clock where
  origin := by simp
  loaded := by simp
  revisions := by simp
  success := rfl
  clock := by simp

variable {log : List (Call T)} {cached : Option (Cached T)} {revision clock : ℕ}

/-- A call that leaves the cache as it was and is no success. -/
lemma Fresh.unchanged (h : Fresh compile ttl doc log cached revision clock) {call : Call T}
    (hbefore : call.before = cached) (hkept : (call.turn compile ttl).cached = call.before)
    (hsuccess : call.succeeds compile ttl = false) (hloads : ∀ bytes version value,
      call.Loads compile ttl bytes version value → cached.isSome = true)
    (hstop : revision ≤ call.stop) (hclock : clock ≤ call.visit.now) :
    Fresh compile ttl doc (log ++ [call]) (call.turn compile ttl).cached call.stop call.visit.now := by
  rw [hkept, hbefore]
  constructor
  · intro c hc
    obtain ⟨p, hp, bytes, hloads⟩ := h.origin c hc
    exact ⟨p, List.mem_append_left _ hp, bytes, hloads⟩
  · intro p hp bytes version value hp'
    rcases List.mem_append.mp hp with hp | hp
    · exact h.loaded p hp bytes version value hp'
    · rw [List.mem_singleton] at hp
      subst hp
      exact hloads bytes version value hp'
  · intro c hc
    obtain ⟨tagged, read, htag, hread, hle, hrev⟩ := h.revisions c hc
    exact ⟨tagged, read, htag, hread, hle, hrev.trans hstop⟩
  · rw [lastSuccess_concat, hsuccess, h.success]
    rfl
  · intro c hc
    exact (h.clock c hc).trans hclock

/-- One call keeps the invariant. -/
lemma Fresh.call (h : Fresh compile ttl doc log cached revision clock) {call : Call T}
    (hbefore : call.before = cached) (hstart : revision ≤ call.start) (hobserves : call.Observes doc)
    (hclock : clock ≤ call.visit.now) :
    Fresh compile ttl doc (log ++ [call]) (call.turn compile ttl).cached call.stop call.visit.now := by
  obtain ⟨r, tagged, read, hr, hrt, htr, hstop, hversion, hfetch⟩ := hobserves
  have hle : revision ≤ call.stop := by omega
  rcases call.turn_cases compile ttl with ⟨c, hc, hkind, hwithin, hturn⟩ |
    ⟨bytes, version, value, hloads, hfails, herrors, hcached⟩ | ⟨c, hc, hsame, hturn⟩ | ⟨hfails, hkept, herrors, hnone⟩
  · refine h.unchanged hbefore (by rw [hturn]) ?_ ?_ hle hclock
    · simp [Call.succeeds, hturn]
    · intro _ _ _ hloads
      simp [Call.Loads, hturn] at hloads
  · obtain ⟨hasked, hbytes, hvalue⟩ := hloads
    obtain ⟨htag, hcontent⟩ := hfetch bytes version hbytes
    have hne : (call.turn compile ttl).calls.isEmpty = false := by
      cases hcalls : (call.turn compile ttl).calls with
      | nil => simp [hcalls] at hasked
      | cons _ _ => rfl
    rw [hcached]
    constructor
    · intro c hc
      cases hc
      exact ⟨call, by simp, bytes, hasked, hbytes, hvalue⟩
    · intros
      rfl
    · intro c hc
      cases hc
      exact ⟨tagged, read, htag, by rw [← hcontent]; exact hvalue, htr, hstop⟩
    · rw [lastSuccess_concat]
      simp [Call.succeeds, hne, hfails]
    · intro c hc
      cases hc
      exact le_rfl
  · have hfound : cached = some c := by rw [← hbefore, hc]
    have hsucceeds : call.succeeds compile ttl = true := by
      simp [Call.succeeds, Call.fails, hturn, hsame, Except.isOk, Except.toBool]
    rw [hturn]
    constructor
    · intro c' hc'
      cases hc'
      obtain ⟨p, hp, bytes, hloads⟩ := h.origin c hfound
      exact ⟨p, List.mem_append_left _ hp, bytes, hloads⟩
    · intros
      rfl
    · intro c' hc'
      cases hc'
      obtain ⟨tagged, read, htag, hread, htagged, hrev⟩ := h.revisions c hfound
      exact ⟨tagged, read, htag, hread, htagged, hrev.trans hle⟩
    · rw [lastSuccess_concat, hsucceeds]
      rfl
    · intro c' hc'
      cases hc'
      exact le_rfl
  · refine h.unchanged hbefore hkept ?_ ?_ hle hclock
    · simp [Call.succeeds, hfails]
    · intro bytes version value hloads
      exact (hnone bytes version value hloads).elim

/-- The invariant holds after every run. -/
theorem Run.fresh (h : Run compile ttl doc log cached revision clock) :
    Fresh compile ttl doc log cached revision clock := by
  induction h with
  | start revision clock => exact fresh_start revision clock
  | call call _ hbefore hstart hobserves hclock ih => exact ih.call hbefore hstart hobserves hclock

/-- A call within the TTL of the last success asks for nothing. -/
lemma Fresh.within (h : Fresh compile ttl doc log cached revision clock) {call : Call T}
    (hbefore : call.before = cached) (hclock : clock ≤ call.visit.now) (hkind : call.kind = .get) {t : ℕ}
    (hlast : lastSuccess compile ttl log = some t) (hwithin : call.visit.now < t + ttl) :
    (call.turn compile ttl).calls = [] := by
  rw [← h.success] at hlast
  obtain ⟨c, hc, rfl⟩ := Option.map_eq_some_iff.mp hlast
  have hle := h.clock c hc
  have hfresh : ¬ttl ≤ call.visit.now - c.fetchedAt := by omega
  simp [Call.turn, hkind, get, stale, hbefore, hc, hfresh]

/-- A call past the TTL that succeeds while the document stays as it is returns the document. -/
lemma Fresh.current (h : Fresh compile ttl doc log cached revision clock) {call : Call T}
    (hbefore : call.before = cached) (hstart : revision ≤ call.start) (hobserves : call.Observes doc)
    (hpast : ∀ t, lastSuccess compile ttl log = some t → t + ttl ≤ call.visit.now)
    (hfails : call.fails compile ttl = false) (hstill : call.start = call.stop) :
    ∃ value, compile (doc.content call.stop) = .ok value ∧ call.returned compile ttl = some value := by
  obtain ⟨r, tagged, read, hr, hrt, htr, hstop, hversion, hfetch⟩ := hobserves
  rcases call.turn_cases compile ttl with ⟨c, hc, hkind, hwithin, hturn⟩ |
    ⟨bytes, version, value, ⟨-, hbytes, hvalue⟩, -, -, hcached⟩ | ⟨c, hc, hsame, hturn⟩ | ⟨hfailed, -⟩
  · have hlast : lastSuccess compile ttl log = some c.fetchedAt := by
      rw [← h.success, ← hbefore, hc]
      rfl
    have hle := hpast _ hlast
    omega
  · have hread : read = call.stop := by omega
    refine ⟨value, ?_, by rw [Call.returned, hcached]; rfl⟩
    rw [← hread, ← (hfetch bytes version hbytes).2, hvalue]
  · -- the tag is current, and the content is no older than its tag
    have hfound : cached = some c := by rw [← hbefore, hc]
    obtain ⟨tagged', read', htag, hvalue, hle, hrev⟩ := h.revisions c hfound
    have htagged : tagged' = r := doc.fresh (htag.symm.trans (hversion _ hsame))
    have hread : read' = call.stop := by omega
    refine ⟨c.value, by rw [← hread]; exact hvalue, ?_⟩
    rw [Call.returned, hturn]
    rfl
  · simp [hfails] at hfailed

/-- The cache is never pinned stale. After every run, for every further call of `prime` or `get`:
once a load has succeeded `get` returns a value, which is compiled from what one fetch delivered;
a failure leaves the cache as it was and counts once; within the TTL of the last success `get` asks
the source nothing; and past it a `get` that succeeds while the document is not rewritten returns
the document as it is, whatever rewrites earlier fetches met. -/
theorem config_cache_never_pinned (h : Run compile ttl doc log cached revision clock) (call : Call T)
    (hbefore : call.before = cached) (hstart : revision ≤ call.start) (hobserves : call.Observes doc)
    (hclock : clock ≤ call.visit.now) :
    (call.kind = .get →
      ((∃ p ∈ log ++ [call], ∃ bytes version value, p.Loads compile ttl bytes version value) →
        (call.returned compile ttl).isSome = true) ∧
      ∀ value, call.returned compile ttl = some value →
        ∃ p ∈ log ++ [call], ∃ bytes version, p.Loads compile ttl bytes version value) ∧
    ((call.fails compile ttl = true →
        (call.turn compile ttl).cached = cached ∧ (call.turn compile ttl).configLoadErrors = 1) ∧
      (call.fails compile ttl = false → (call.turn compile ttl).configLoadErrors = 0)) ∧
    (call.kind = .get → ∀ t, lastSuccess compile ttl log = some t → call.visit.now < t + ttl →
      (call.turn compile ttl).calls = []) ∧
    (call.kind = .get → (∀ t, lastSuccess compile ttl log = some t → t + ttl ≤ call.visit.now) →
      call.fails compile ttl = false → call.start = call.stop →
      ∃ value, compile (doc.content call.stop) = .ok value ∧ call.returned compile ttl = some value) := by
  have hfresh := h.fresh
  have hnext := (Run.call call h hbefore hstart hobserves hclock).fresh
  refine ⟨fun _ => ⟨?_, ?_⟩, ⟨?_, ?_⟩, fun hkind t hlast => hfresh.within hbefore hclock hkind hlast,
    fun _ => hfresh.current hbefore hstart hobserves⟩
  · rintro ⟨p, hp, bytes, version, value, hloads⟩
    rw [Call.returned, Option.isSome_map]
    exact hnext.loaded p hp bytes version value hloads
  · intro value hvalue
    obtain ⟨c, hc, rfl⟩ := Option.map_eq_some_iff.mp hvalue
    obtain ⟨p, hp, bytes, hloads⟩ := hnext.origin c hc
    exact ⟨p, hp, bytes, c.version, hloads⟩
  · intro hfails
    rcases call.turn_cases compile ttl with ⟨_, -, -, -, hturn⟩ | ⟨_, _, _, -, hno, -⟩ | ⟨_, -, hsame, hturn⟩ |
      ⟨-, hkept, herrors, -⟩
    · simp [Call.fails, hturn] at hfails
    · simp [hfails] at hno
    · simp [Call.fails, hturn, hsame, Except.isOk, Except.toBool] at hfails
    · exact ⟨hkept.trans hbefore, herrors⟩
  · intro hfails
    rcases call.turn_cases compile ttl with ⟨_, -, -, -, hturn⟩ | ⟨_, _, _, -, -, herrors, -⟩ | ⟨_, -, -, hturn⟩ |
      ⟨hyes, -⟩
    · rw [hturn]
    · exact herrors
    · rw [hturn]
    · simp [hfails] at hyes

/-- A document that counts its revisions. -/
def sampleDocument : Document where
  content := fun r => [UInt8.ofNat r]
  tag := fun r => .version r
  fresh := by
    intro r r' h
    simpa using h

/-- A fetch between whose tag and content the document was rewritten. -/
def racedCall : Call Bytes :=
  ⟨.prime, ⟨0, .ok (.version 0), .ok ([1], .version 0)⟩, none, 0, 1⟩

/-- A `get` at the end of the TTL, with the cache the raced fetch left. -/
def revalidatingCall : Call Bytes :=
  ⟨.get, ⟨60, .ok (.version 1), .ok ([1], .version 1)⟩, some ⟨[1], .version 0, 0⟩, 1, 1⟩

theorem config_cache_never_pinned_sample :
    racedCall.Observes sampleDocument ∧ revalidatingCall.Observes sampleDocument ∧
      (revalidatingCall.turn .ok 60).calls = [.version, .fetch] ∧
      ∃ value, Except.ok (sampleDocument.content 1) = (.ok value : Except ConfigError Bytes) ∧
        revalidatingCall.returned .ok 60 = some value := by
  have hraced : racedCall.Observes sampleDocument := by
    refine ⟨0, 0, 1, by decide, by decide, by decide, by decide, ?_, ?_⟩
    · rintro version ⟨⟩
      rfl
    · rintro bytes version ⟨⟩
      exact ⟨rfl, rfl⟩
  have hobserves : revalidatingCall.Observes sampleDocument := by
    refine ⟨1, 1, 1, by decide, by decide, by decide, by decide, ?_, ?_⟩
    · rintro version ⟨⟩
      rfl
    · rintro bytes version ⟨⟩
      exact ⟨rfl, rfl⟩
  have hrun : Run .ok 60 sampleDocument [racedCall] (some ⟨[1], .version 0, 0⟩) 1 0 :=
    .call racedCall (.start 0 0) rfl le_rfl hraced le_rfl
  obtain ⟨-, -, -, hcurrent⟩ := config_cache_never_pinned hrun revalidatingCall rfl le_rfl hobserves (by decide)
  refine ⟨hraced, hobserves, by decide +kernel, hcurrent rfl ?_ (by decide +kernel) rfl⟩
  intro t ht
  have hlast : lastSuccess .ok 60 [racedCall] = some 0 := by decide +kernel
  rw [hlast] at ht
  cases ht
  decide

end Freshness

end CloudTrailFilter.Config
