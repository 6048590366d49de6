import CloudTrailFilter.Config.Store
import CloudTrailFilter.Metrics.Emf
import CloudTrailFilter.Metrics.Snapshots
import CloudTrailFilter.Pipeline.Outcome

/-!
# The life of a container

A container is started once, primes its config cache, and then serves one invocation after the other
with the same cache and the same counters. `handle` decodes its payload before it asks the cache for
the rules, and takes one snapshot of the counters at its end.
-/

namespace CloudTrailFilter

section Amounts

/-- What a delta adds to each cell, together with the load errors of the config cache. -/
def Metrics.amount (m : Metrics) (configLoadErrors : ℕ) : Cell → ℕ
  | .counter .objectsProcessed => m.objectsProcessed
  | .counter .objectsSkipped => m.objectsSkipped
  | .counter .objectsFailed => m.objectsFailed
  | .counter .objectsExcludedByKey => m.objectsExcludedByKey
  | .counter .unrecognizedObjects => m.unrecognizedObjects
  | .counter .objectsCopiedUnparsed => m.objectsCopiedUnparsed
  | .counter .recordsIn => m.recordsIn
  | .counter .recordsKept => m.recordsKept
  | .counter .recordsDropped => m.recordsDropped
  | .counter .bytesIn => m.bytesIn
  | .counter .bytesOut => m.bytesOut
  | .counter .configLoadErrors => configLoadErrors
  | .counter .parseErrors => m.parseErrors
  | .counter .decodeErrors => m.decodeErrors
  | .counter .itemsWithoutObjects => m.itemsWithoutObjects
  | .rule ruleName => m.ruleDrops.count ruleName

/-- Increments, in any order and grouping, that come to a delta. -/
def Records (log : List Increment) (m : Metrics) (configLoadErrors : ℕ) : Prop :=
  ∀ cell, totalAt log cell = m.amount configLoadErrors cell

lemma totalAt_append (log more : List Increment) (cell : Cell) :
    totalAt (log ++ more) cell = totalAt log cell + totalAt more cell := by
  rw [totalAt, List.map_append, amountOf_append]
  rfl

lemma totalAt_replicate (n : ℕ) (i : Increment) (cell : Cell) :
    totalAt (List.replicate n i) cell = if i.cell = cell then n * i.amount.val else 0 := by
  by_cases hcell : i.cell = cell <;> simp [totalAt, amountOf, hcell]

lemma totalAt_ruleDrops (names : List String) (cell : Cell) :
    totalAt (names.map (fun ruleName => .ruleDrops ruleName (word 1))) cell = (names.map Cell.rule).count cell := by
  induction names with
  | nil => rfl
  | cons ruleName names ih =>
    rw [List.map_cons, List.map_cons, List.count_cons, ← ih, Nat.add_comm]
    refine (amountOf_cons _ _ _).trans ?_
    simp [Increment.cell, Increment.amount, word, totalAt]

/-- Every delta comes to some increments, one at a time. -/
lemma exists_records (m : Metrics) (configLoadErrors : ℕ) : ∃ log, Records log m configLoadErrors := by
  obtain ⟨names, hnames⟩ := Quot.exists_rep m.ruleDrops
  let counted : Counter → List Increment := fun c =>
    List.replicate (m.amount configLoadErrors (.counter c)) (.add c (word 1))
  refine ⟨Counter.all.flatMap counted ++ names.map (fun ruleName => .ruleDrops ruleName (word 1)), ?_⟩
  intro cell
  rw [totalAt_append, totalAt_ruleDrops]
  cases cell with
  | counter c =>
    have hnone : (names.map Cell.rule).count (.counter c) = 0 := List.count_eq_zero.mpr (by simp)
    rw [hnone]
    cases c <;> simp [Counter.all, counted, totalAt_append, totalAt_replicate, Increment.cell, Increment.amount, word]
  | rule ruleName =>
    have hnone : totalAt (Counter.all.flatMap counted) (.rule ruleName) = 0 := by
      simp [Counter.all, counted, totalAt_append, totalAt_replicate, Increment.cell]
    have hcount : (names.map Cell.rule).count (.rule ruleName) = names.count ruleName :=
      List.count_map_of_injective _ _ (fun _ _ h => Cell.rule.inj h) _
    rw [hnone, hcount, zero_add, Metrics.amount, ← hnames]
    exact (Multiset.coe_count ruleName names).symm

def AtomicMetrics.incrementAll {N : Type} [AddCommMonoid N] (num : Word 64 → N) (m : AtomicMetrics N)
    (log : List Increment) : AtomicMetrics N :=
  log.foldl (AtomicMetrics.increment num) m

lemma held_incrementAll (m : AtomicMetrics (Word 64)) (log : List Increment) (cell : Cell) :
    (m.incrementAll id log).held cell = m.held cell + wrap (totalAt log cell) := by
  induction log generalizing m with
  | nil => exact (add_zero _).symm
  | cons i log ih =>
    have hwrap : wrap (totalAt (i :: log) cell) = (if cell = i.cell then i.amount else 0) + wrap (totalAt log cell) := by
      have hsplit : totalAt (i :: log) cell = (if i.cell = cell then i.amount.val else 0) + totalAt log cell :=
        amountOf_cons _ _ _
      rw [hsplit, map_add]
      congr 1
      by_cases hcell : i.cell = cell
      · rw [if_pos hcell, if_pos hcell.symm]
        exact Fin.ofNat_val_eq_self i.amount
      · rw [if_neg hcell, if_neg (fun h => hcell h.symm)]
        rfl
    have hfirst := Shared.held_increment (show (id : Word 64 → Word 64) 0 = 0 from rfl) m i cell
    rw [AtomicMetrics.incrementAll, List.foldl_cons]
    refine (ih (m.increment id i)).trans ?_
    rw [hfirst, hwrap, add_assoc]
    rfl

lemma coldStart_incrementAll (m : AtomicMetrics (Word 64)) (log : List Increment) :
    (m.incrementAll id log).coldStartEmitted = m.coldStartEmitted := by
  induction log generalizing m with
  | nil => rfl
  | cons i log ih =>
    refine (ih (m.increment id i)).trans ?_
    cases i with
    | add c n => rfl
    | ruleDrops ruleName n =>
      by_cases hn : n = 0 <;> simp [AtomicMetrics.increment, AtomicMetrics.recordRuleDrops, hn]

/-- A snapshot publishes what the registry held and leaves it empty. -/
lemma snapshotAndReset_spec (m : AtomicMetrics (Word 64)) :
    m.snapshotAndReset.1.coldStart = !m.coldStartEmitted ∧ m.snapshotAndReset.1.amount = m.held ∧
      m.snapshotAndReset.2.coldStartEmitted = true ∧ ∀ cell, m.snapshotAndReset.2.held cell = 0 := by
  refine ⟨rfl, ?_, rfl, ?_⟩
  · funext cell
    cases cell with
    | counter c => rfl
    | rule ruleName => exact amountOf_perm (sortDrops_perm m.ruleDrops)
  · intro cell
    cases cell <;> rfl

end Amounts

namespace Pipeline
open CloudTrailFilter.Json CloudTrailFilter.Filter CloudTrailFilter.Process

section Container
variable (B : RulesBackend) (gz : Gzip) (float : FloatParser) (settings : Settings) (ttl : ℕ)
  (doc : Config.Document)

/-- How the composition roots compile a rules document. -/
def compileRules (bytes : Bytes) : Except ConfigError Engine := do
  let ruleSet ← RuleSet.parse B bytes
  Engine.new B ruleSet

/-- A call of `handle`: its payload decoded, the call of the config cache it makes if the payload
decodes, what happens to its objects, and the increments of the counters it comes to. -/
structure Invocation where
  decoded : Except String (List SourceItem)
  get : Config.Call Engine
  attempts : ℕ → Attempt
  outcome : ObjectM BatchOutcome
  increments : List Increment

namespace Invocation
variable (inv : Invocation)

/-- The ruleset it runs under. -/
def engine : Option Engine := inv.get.returned (compileRules B) ttl

/-- What happens when the container is in this state: a payload that does not decode leaves the
cache alone. -/
structure Follows (cached : Option (Config.Cached Engine)) (revision clock : ℕ) : Prop where
  kind : inv.get.kind = .get
  before : inv.get.before = cached
  start : revision ≤ inv.get.start
  observes : inv.get.Observes doc
  clock : clock ≤ inv.get.visit.now
  handles : Handles gz float settings (inv.engine B ttl) inv.decoded inv.attempts inv.outcome
  records : Records inv.increments inv.outcome.metrics (inv.get.turn (compileRules B) ttl).configLoadErrors

/-- A payload that does not decode is refused before anything else. -/
structure Refused (message : String) : Prop where
  decoded : inv.decoded = .error message
  handles : Handles gz float settings none inv.decoded inv.attempts inv.outcome
  records : Records inv.increments inv.outcome.metrics 0

end Invocation

/-- An invocation and the snapshot it emits. -/
structure Served where
  outcome : ObjectM BatchOutcome
  configLoadErrors : ℕ
  snapshot : MetricSnapshot (Word 64)

/-- The runs of a container: the calls of its config cache, what it has served, its cache, its
counters, the revision of the rules document and the clock. -/
inductive Serves : List (Config.Call Engine) → List Served → Option (Config.Cached Engine) →
    AtomicMetrics (Word 64) → ℕ → ℕ → Prop where
  | init (prime : Config.Call Engine) (increments : List Increment) :
      prime.kind = .prime → prime.before = none → prime.Observes doc →
      Records increments 0 (prime.turn (compileRules B) ttl).configLoadErrors →
      Serves [prime] [] (prime.turn (compileRules B) ttl).cached
        (AtomicMetrics.default.incrementAll id increments) prime.stop prime.visit.now
  | refused {calls served cached metrics revision clock} (inv : Invocation) (message : String) :
      Serves calls served cached metrics revision clock → inv.Refused gz float settings message →
      Serves calls (served ++ [⟨inv.outcome, 0, (metrics.incrementAll id inv.increments).snapshotAndReset.1⟩]) cached
        (metrics.incrementAll id inv.increments).snapshotAndReset.2 revision clock
  | served {calls served cached metrics revision clock} (inv : Invocation) (items : List SourceItem) :
      Serves calls served cached metrics revision clock → inv.decoded = .ok items →
      inv.Follows B gz float settings ttl doc cached revision clock →
      Serves (calls ++ [inv.get])
        (served ++ [⟨inv.outcome, (inv.get.turn (compileRules B) ttl).configLoadErrors,
          (metrics.incrementAll id inv.increments).snapshotAndReset.1⟩])
        (inv.get.turn (compileRules B) ttl).cached (metrics.incrementAll id inv.increments).snapshotAndReset.2
        inv.get.stop inv.get.visit.now

end Container

section Reports
variable {B : RulesBackend} {gz : Gzip} {float : FloatParser} {settings : Settings} {ttl : ℕ} {doc : Config.Document}
  {calls : List (Config.Call Engine)} {served : List Served} {cached : Option (Config.Cached Engine)}
  {metrics : AtomicMetrics (Word 64)} {revision clock : ℕ}

/-- The config cache of a container lives through a run of its own. -/
lemma Serves.config (h : Serves B gz float settings ttl doc calls served cached metrics revision clock) :
    Config.Run (compileRules B) ttl doc calls cached revision clock := by
  induction h with
  | init prime _ hkind hbefore hobserves _ =>
    exact .call prime (.start prime.start prime.visit.now) hbefore le_rfl hobserves le_rfl
  | refused _ _ _ _ ih => exact ih
  | served inv _ _ _ hfollows ih => exact .call inv.get ih hfollows.before hfollows.start hfollows.observes hfollows.clock

/-- The load errors of the warm-up, which the first snapshot reports. -/
def primeErrors (B : RulesBackend) (ttl : ℕ) (calls : List (Config.Call Engine)) : ℕ :=
  (calls.head?.map (fun call => (call.turn (compileRules B) ttl).configLoadErrors)).getD 0

/-- The amounts the `k`-th snapshot of a container reports. -/
def Served.reported (s : Served) (k primeErrors : ℕ) : Cell → ℕ :=
  s.outcome.metrics.amount (s.configLoadErrors + if k = 0 then primeErrors else 0)

/-- What is in the counters between invocations: before the first the errors of the warm-up, and
nothing after it. -/
structure Serves.Inv (B : RulesBackend) (ttl : ℕ) (calls : List (Config.Call Engine)) (served : List Served)
    (metrics : AtomicMetrics (Word 64)) : Prop where
  held : ∀ cell, metrics.held cell =
    wrap (if served = [] then (0 : Metrics).amount (primeErrors B ttl calls) cell else 0)
  emitted : metrics.coldStartEmitted = !served.isEmpty
  primed : calls ≠ []
  reported : ∀ k s, served[k]? = some s → s.snapshot.coldStart = decide (k = 0) ∧
    ∀ cell, s.snapshot.amount cell = wrap (s.reported k (primeErrors B ttl calls) cell)

lemma amount_add_errors (m : Metrics) (n errors : ℕ) (cell : Cell) :
    (0 : Metrics).amount errors cell + m.amount n cell = m.amount (n + errors) cell := by
  cases cell with
  | counter c => cases c <;> simp only [Metrics.amount] <;> first | exact Nat.zero_add _ | exact Nat.add_comm _ _
  | rule ruleName =>
    change Multiset.count ruleName 0 + _ = _
    rw [Multiset.count_zero, Nat.zero_add]
    rfl

/-- An invocation takes one snapshot, of what it added to what was there. -/
lemma Serves.Inv.append (h : Serves.Inv B ttl calls served metrics) (more : List (Config.Call Engine))
    {outcome : ObjectM BatchOutcome} {errors : ℕ} {increments : List Increment}
    (hrecords : Records increments outcome.metrics errors) :
    Serves.Inv B ttl (calls ++ more)
      (served ++ [⟨outcome, errors, (metrics.incrementAll id increments).snapshotAndReset.1⟩])
      (metrics.incrementAll id increments).snapshotAndReset.2 := by
  have hprime : primeErrors B ttl (calls ++ more) = primeErrors B ttl calls := by
    unfold primeErrors
    rw [List.head?_append_of_ne_nil _ h.primed]
  obtain ⟨hcold, hamount, hemitted, hempty⟩ := snapshotAndReset_spec (metrics.incrementAll id increments)
  refine ⟨?_, ?_, ?_, ?_⟩
  · intro cell
    rw [hempty cell, if_neg (by simp)]
    rfl
  · rw [hemitted]
    simp
  · simp [h.primed]
  · intro k s hk
    rw [hprime]
    rcases lt_trichotomy k served.length with hlt | rfl | hlt
    · rw [List.getElem?_append_left hlt] at hk
      exact h.reported k s hk
    · rw [List.getElem?_concat_length, Option.some.injEq] at hk
      subst hk
      have hfirst : served = [] ↔ served.length = 0 := List.length_eq_zero_iff.symm
      constructor
      · rw [hcold, coldStart_incrementAll, h.emitted]
        cases served <;> rfl
      · intro cell
        have hheld : (metrics.incrementAll id increments).snapshotAndReset.1.amount cell =
            metrics.held cell + wrap (outcome.metrics.amount errors cell) := by
          rw [hamount, held_incrementAll, hrecords cell]
        refine hheld.trans ?_
        rw [h.held cell, ← map_add]
        congr 1
        by_cases hnil : served = []
        · rw [if_pos hnil, Served.reported, if_pos (hfirst.mp hnil)]
          exact amount_add_errors _ _ _ _
        · rw [if_neg hnil, Served.reported, if_neg (fun hlen => hnil (hfirst.mpr hlen))]
          exact Nat.zero_add _
    · rw [List.getElem?_eq_none (by simp; omega)] at hk
      cases hk

lemma Serves.inv (h : Serves B gz float settings ttl doc calls served cached metrics revision clock) :
    Serves.Inv B ttl calls served metrics := by
  induction h with
  | init prime increments _ _ _ hrecords =>
    refine ⟨?_, ?_, by simp, by simp⟩
    · intro cell
      have hzero : (AtomicMetrics.default : AtomicMetrics (Word 64)).held cell = 0 := by cases cell <;> rfl
      rw [held_incrementAll, hzero, zero_add, hrecords cell, if_pos rfl]
      rfl
    · rw [coldStart_incrementAll]
      rfl
  | refused inv _ _ hrefused ih =>
    have hnext := ih.append [] hrefused.records
    rwa [List.append_nil] at hnext
  | served inv _ _ _ hfollows ih => exact ih.append [inv.get] hfollows.records

/-- Every invocation reports what it did. In every run of a container, under any rewrites of the rules
document, the `k`-th snapshot is what the `k`-th invocation published and the load errors its call of
the config cache counted; the first also has the error of the warm-up and alone has the cold start.
Nothing is carried into the next. The lines the snapshot leaves in are read back as its values. -/
theorem container_reports (h : Serves B gz float settings ttl doc calls served cached metrics revision clock) :
    ∀ k s, served[k]? = some s →
      s.snapshot.coldStart = decide (k = 0) ∧
      (∀ cell, s.snapshot.amount cell = wrap (s.reported k (primeErrors B ttl calls) cell)) ∧
      (∀ cell, s.reported k (primeErrors B ttl calls) cell < 2 ^ 64 →
        (s.snapshot.amount cell).val = s.reported k (primeErrors B ttl calls) cell) ∧
      ∀ metricNamespace timestamp, ((buildLines metricNamespace timestamp s.snapshot).mapM dataPoints).map
        List.flatten = some (s.snapshot.points metricNamespace timestamp) := by
  intro k s hk
  obtain ⟨hcold, hamount⟩ := h.inv.reported k s hk
  refine ⟨hcold, hamount, ?_, fun _ _ => dataPoints_buildLines s.snapshot⟩
  intro cell hlt
  rw [hamount cell]
  exact Nat.mod_eq_of_lt hlt

/-- A call of the config cache when the source of the rules does not answer. -/
def unansweredCall (kind : Config.CallKind) (now : ℕ) : Config.Call Engine :=
  ⟨kind, ⟨now, .error (.source "timeout"), .error (.source "timeout")⟩, none, 0, 0⟩

lemma unansweredCall_observes (kind : Config.CallKind) (now : ℕ) :
    (unansweredCall kind now).Observes Config.sampleDocument := by
  refine ⟨0, 0, 0, le_rfl, le_rfl, le_rfl, le_rfl, ?_, ?_⟩
  · rintro version ⟨⟩
  · rintro bytes version ⟨⟩

def loadError : Increment := .add .configLoadErrors (word 1)

lemma loadError_records : Records [loadError] 0 1 := by
  intro cell
  cases cell with
  | counter c => cases c <;> decide
  | rule ruleName => exact (Multiset.count_zero ruleName).symm

/-- An invocation that finds no ruleset behind a closed gate. -/
def closedInvocation : Invocation where
  decoded := .ok sampleItems
  get := unansweredCall .get 1
  attempts := fun _ => sampleAttempt envelopeText
  outcome := ⟨.error (.config "no compiled ruleset is cached and on_config_error is 'closed'"), [], 0⟩
  increments := [loadError]

lemma closedInvocation_follows : closedInvocation.Follows sampleBackend storedGzip (fun _ => none) sampleSettings 60
    Config.sampleDocument none 0 0 where
  kind := rfl
  before := rfl
  start := le_rfl
  observes := unansweredCall_observes .get 1
  clock := Nat.zero_le _
  handles := by
    have hopen : openBatch sampleSettings none (.ok sampleItems) =
        ⟨.error (.config "no compiled ruleset is cached and on_config_error is 'closed'"), [], 0⟩ := rfl
    unfold Handles
    rw [show closedInvocation.engine sampleBackend 60 = none from rfl,
      show closedInvocation.decoded = .ok sampleItems from rfl, hopen]
    rfl
  records := loadError_records

/-- A container whose rules are not to be had, after one invocation. -/
lemma closedContainer : ∃ calls served metrics, Serves sampleBackend storedGzip (fun _ => none) sampleSettings 60
    Config.sampleDocument calls served none metrics 0 1 ∧ calls.head? = some (unansweredCall .prime 0) ∧
    ∃ snapshot, served = [⟨closedInvocation.outcome, 1, snapshot⟩] :=
  ⟨_, _, _, .served closedInvocation sampleItems
    (.init (unansweredCall .prime 0) [loadError] rfl rfl (unansweredCall_observes .prime 0) loadError_records)
    rfl closedInvocation_follows, rfl, _, rfl⟩

/-- A call of the config cache that finds none, when the source of the rules answers. -/
def answeredCall : Config.Call Engine :=
  ⟨.get, ⟨2, .ok (.version 0), .ok ([0], .version 0)⟩, none, 0, 0⟩

lemma answeredCall_observes : answeredCall.Observes Config.sampleDocument := by
  refine ⟨0, 0, 0, le_rfl, le_rfl, le_rfl, le_rfl, ?_, ?_⟩
  · rintro version ⟨⟩
    rfl
  · rintro bytes version ⟨⟩
    exact ⟨rfl, rfl⟩

/-- A record that no rule drops, and one that a rule drops. -/
def ruledText : String := "\x7b\"Records\":[\x7b\"userIdentity\":\x7b\"type\":\"R\"\x7d\x7d,\x7b\x7d]\x7d"

lemma answeredCall_turn {engine : Engine} (hengine : Engine.new sampleBackend sampleRules = .ok engine) :
    answeredCall.turn (compileRules sampleBackend) 60 = ⟨some ⟨engine, .version 0, 2⟩, [.fetch], 0⟩ := by
  have hcompile : compileRules sampleBackend [0] = .ok engine := hengine
  have hloads : Config.fetchAndCompile (compileRules sampleBackend) answeredCall.visit = .ok (engine, .version 0) := by
    simp [Config.fetchAndCompile, answeredCall, hcompile, bind, Except.bind, pure, Except.pure]
  change Config.load (compileRules sampleBackend) answeredCall.visit none = _
  rw [Config.load, hloads]
  rfl

/-- A batch of one object with either kind of record. -/
lemma exists_ruledOutcome {engine : Engine} (hengine : Engine.new sampleBackend sampleRules = .ok engine) :
    ∃ x, Handles storedGzip (fun _ => none) sampleSettings (some engine) (.ok sampleItems)
        (fun _ => sampleAttempt ruledText) x ∧
      x.metrics.recordsIn = 2 ∧ x.metrics.recordsKept = 1 ∧ (landed x).length = 1 := by
  obtain ⟨x, hx⟩ := exists_handles storedGzip (fun _ => none) sampleSettings (some engine)
    (fun _ => sampleAttempt ruledText) (.ok sampleItems) (by decide)
  obtain ⟨-, hmetrics, hcalls⟩ := handleSequential_eq (n := 1) storedGzip (fun _ => none) sampleSettings _ _ hx
  have hvalues : (Engine.new sampleBackend sampleRules).toOption.map (fun engine =>
      let y := handleSequential storedGzip (fun _ => none) sampleSettings (some engine) (.ok sampleItems)
        (fun _ => sampleAttempt ruledText)
      (y.metrics.recordsIn, y.metrics.recordsKept, (landed y).length)) = some (2, 1, 1) := by decide +kernel
  simp only [hengine, Fallible.toOption_ok, Option.map_some, Option.some.injEq, Prod.mk.injEq] at hvalues
  refine ⟨x, hx, by rw [hmetrics, hvalues.1], by rw [hmetrics, hvalues.2.1], ?_⟩
  rw [landed, (hcalls.filterMap _).length_eq]
  exact hvalues.2.2

/-- A second invocation, which finds the rules. -/
lemma exists_ruledInvocation {engine : Engine} (hengine : Engine.new sampleBackend sampleRules = .ok engine) :
    ∃ inv : Invocation, inv.decoded = .ok sampleItems ∧ inv.get = answeredCall ∧
      inv.attempts = (fun _ => sampleAttempt ruledText) ∧ inv.engine sampleBackend 60 = some engine ∧
      inv.Follows sampleBackend storedGzip (fun _ => none) sampleSettings 60 Config.sampleDocument none 0 1 ∧
      inv.outcome.metrics.recordsIn = 2 ∧ inv.outcome.metrics.recordsKept = 1 ∧ (landed inv.outcome).length = 1 := by
  obtain ⟨x, hx, hin, hkept, hlanded⟩ := exists_ruledOutcome hengine
  obtain ⟨log, hlog⟩ := exists_records x.metrics 0
  let inv : Invocation := ⟨.ok sampleItems, answeredCall, fun _ => sampleAttempt ruledText, x, log⟩
  have hreturned : inv.engine sampleBackend 60 = some engine := by
    rw [Invocation.engine, Config.Call.returned, answeredCall_turn hengine]
    rfl
  refine ⟨inv, rfl, rfl, rfl, hreturned, ?_, hin, hkept, hlanded⟩
  refine ⟨rfl, rfl, le_rfl, answeredCall_observes, Nat.le_succ 1, ?_, ?_⟩
  · rw [hreturned]
    exact hx
  · rw [answeredCall_turn hengine]
    exact hlog

theorem container_reports_sample : ∃ calls served cached metrics cold warm, Serves sampleBackend storedGzip
    (fun _ => none) sampleSettings 60 Config.sampleDocument calls served cached metrics 0 2 ∧
    served[0]? = some cold ∧ served[1]? = some warm ∧ cold.snapshot.coldStart = true ∧
    warm.snapshot.coldStart = false ∧ (cold.snapshot.amount (.counter .configLoadErrors)).val = 2 ∧
    (warm.snapshot.amount (.counter .configLoadErrors)).val = 0 ∧
    (warm.snapshot.amount (.counter .recordsIn)).val = 2 ∧ (warm.snapshot.amount (.counter .recordsKept)).val = 1 := by
  obtain ⟨engine, hengine⟩ : ∃ engine, Engine.new sampleBackend sampleRules = .ok engine := ⟨_, rfl⟩
  obtain ⟨calls, served, metrics, hclosed, hhead, snapshot, rfl⟩ := closedContainer
  obtain ⟨inv, hdecoded, hget, -, -, hfollows, hin, hkept, -⟩ := exists_ruledInvocation hengine
  have hserves := hclosed.served inv sampleItems hdecoded hfollows
  rw [hget, answeredCall_turn hengine] at hserves
  have hprime : primeErrors sampleBackend 60 (calls ++ [answeredCall]) = 1 := by
    unfold primeErrors
    rw [List.head?_append, hhead]
    rfl
  obtain ⟨hcold, -, hfirst, -⟩ := container_reports hserves 0 _ rfl
  obtain ⟨hwarm, -, hsecond, -⟩ := container_reports hserves 1 _ rfl
  rw [hprime] at hfirst hsecond
  refine ⟨_, _, _, _, _, _, hserves, rfl, rfl, hcold, hwarm, ?_, ?_, ?_, ?_⟩
  · exact hfirst (.counter .configLoadErrors) (by norm_num [Served.reported, Metrics.amount])
  · exact hsecond (.counter .configLoadErrors) (by norm_num [Served.reported, Metrics.amount])
  · exact (hsecond (.counter .recordsIn) (by norm_num [Served.reported, Metrics.amount, hin])).trans hin
  · exact (hsecond (.counter .recordsKept) (by norm_num [Served.reported, Metrics.amount, hkept])).trans hkept

end Reports

end Pipeline

end CloudTrailFilter
