import HuntProxy.Lib.Raising
import HuntProxy.Scheduler.Gate
import HuntProxy.Scheduler.Json

/-!
# The canary

Before the scheduler or a manual hunt starts network checks, it asks whether the internet is
there: `_check_canary` connects to each canary host and takes a strict majority for a yes.
The verdict is published in `_internet_alive`; a row with the details goes to the table
`canary_history`. The helper that writes the row is meant to survive a failure of the
database, but its failure branch returns a name that it never binds.

## Main definitions

- `CanaryState`, `Surroundings` — the attributes of the canary, and what a check meets
- `checkCanary`, `isInternetAlive` — the check, and the answer kept for some seconds
- `internetOk` — the answer as the gate, `trigger_now` and `manual_start_hunt` take it
- `MajorityReachable` — more than half of the hosts were reachable

## Main results

- `check_canary_alive` — the verdict of a check is the one of the majority
- `check_canary_iff` — the check gives that verdict just when the row could be stored
- `gate_pauses_iff` — what it means for the gate
-/

namespace HuntProxy

/-- What `_check_canary` may raise. -/
inductive CanaryError
  | nameError (name : String)
  deriving DecidableEq

/-- What `ip-api.com` knows about the direct connection. -/
structure DirectInfo where
  directIp : Json
  directCountry : Json
  directIsp : Json
  directCity : Json
  deriving DecidableEq

/-- Nothing is known about the direct connection. -/
def DirectInfo.unknown : DirectInfo := ⟨.str "", .str "", .str "", .str ""⟩

/-- The outcome of the request for the direct info: something in it raises, the response has
no blank line, or it has an object with these members. -/
inductive DirectReply
  | raised
  | noBody
  | object (query country isp city : Option Json)

/-- The outcome of storing the row: without an exception, or with one before or behind the
commit. -/
inductive StoreOutcome
  | done
  | failed (committed : Bool)
  deriving DecidableEq

/-- What the canary says in the log of events. -/
inductive CanaryEvent
  | internetDown
  | internetRestored
  | ispChanged (oldIp oldIsp newIp isp : Json)
  deriving DecidableEq

/-- A row of `canary_history`. -/
structure CanaryRow where
  ts : Time
  alive : ℕ
  aliveCount : ℕ
  totalCount : ℕ
  hostResults : Dict String Bool
  direct : DirectInfo

/-- The attributes of the canary and its table. -/
structure CanaryState where
  canaryHosts : List String
  channelIsSet : Bool
  internetAlive : Option Bool
  canaryLastCheck : Time
  canaryInterval : Time
  canaryLast : DirectInfo
  events : List CanaryEvent
  history : List CanaryRow

/-- What a check meets: the latency of a connection to a host, at a port and within a
timeout, if there is one, the reply to the request for the direct info, the two readings of
the clock, and the fate of the row. -/
structure Surroundings where
  outboundConnect : String → ℕ → ℕ → Option ℕ
  directReply : ℕ → DirectReply
  checkedAt : Time
  recordedAt : Time
  store : StoreOutcome

/-- What `_check_canary` returns. -/
structure CanaryReport where
  alive : Bool
  hosts : Dict String Bool
  latencies : Dict String ℤ
  aliveCount : ℕ
  total : ℕ
  direct : DirectInfo

/-- The methods of the canary. -/
abbrev Canary := EStateM CanaryError CanaryState

namespace CanaryState

/-- The hosts that are asked. -/
def hosts (st : CanaryState) : List String :=
  if st.canaryHosts = [] then ["ya.ru", "google.com", "2ip.ru"] else st.canaryHosts

/-- The timeout of a connection, which is longer through a channel. -/
def timeout (st : CanaryState) : ℕ := if st.channelIsSet then 25 else 8

/-- The verdict that is kept answers the question. -/
def Cached (st : CanaryState) (now : Time) : Prop :=
  st.internetAlive ≠ none ∧ now - st.canaryLastCheck < st.canaryInterval

instance (st : CanaryState) (now : Time) : Decidable (st.Cached now) :=
  inferInstanceAs (Decidable (_ ∧ _))

end CanaryState

namespace Surroundings

/-- A connection to the host comes about. -/
def reachable (w : Surroundings) (timeout : ℕ) (host : String) : Bool :=
  (w.outboundConnect host 443 timeout).isSome

/-- The latency that is noted for a host. -/
def latency (w : Surroundings) (timeout : ℕ) (host : String) : ℤ :=
  ((w.outboundConnect host 443 timeout).map Int.ofNat).getD (-1)

/-- `_canary_probe_hosts`. -/
def canaryProbeHosts (w : Surroundings) (timeout : ℕ) (hosts : List String) :
    Dict String Bool × Dict String ℤ :=
  hosts.foldl (fun d host =>
    (d.1.insert host (w.reachable timeout host), d.2.insert host (w.latency timeout host)))
    (.empty, .empty)

end Surroundings

/-- `_emit_canary_status`. -/
def emitCanaryStatus (wasAlive : Option Bool) (alive : Bool) : Canary PUnit :=
  if wasAlive = some true ∧ alive = false then
    modify fun st => { st with events := st.events ++ [.internetDown] }
  else if wasAlive = some false ∧ alive = true then
    modify fun st => { st with events := st.events ++ [.internetRestored] }
  else pure ⟨⟩

/-- The direct info is kept, and a change of a known address goes to the log. -/
def CanaryState.noteDirect (direct : DirectInfo) (st : CanaryState) : CanaryState :=
  let old := st.canaryLast
  { st with
    events :=
      if old.directIp.truthy ∧ direct.directIp.truthy ∧ old.directIp ≠ direct.directIp then
        st.events ++ [.ispChanged old.directIp old.directIsp direct.directIp direct.directIsp]
      else st.events
    canaryLast := direct }

/-- The members of the object, each with its default. -/
def DirectReply.info? : DirectReply → Option DirectInfo
  | .raised => none
  | .noBody => none
  | .object query country isp city =>
    some ⟨query.getD (.str ""), country.getD (.str ""), isp.getD (.str ""), city.getD (.str "")⟩

/-- `_canary_direct_info`. -/
def canaryDirectInfo (w : Surroundings) (alive : Bool) : Canary DirectInfo := do
  let st ← get
  let info := if alive then (w.directReply st.timeout).info? else none
  modify fun st => info.elim st st.noteDirect
  return info.getD .unknown

/-- `_canary_record`. Its failure branch stores and returns `result`, which is no name of the
function. -/
def canaryRecord (w : Surroundings) (row : CanaryRow) : Canary PUnit :=
  match w.store with
  | .done => modify fun st => { st with history := st.history ++ [row] }
  | .failed committed => do
    if committed then modify fun st => { st with history := st.history ++ [row] }
    throw (.nameError "result")

/-- `_check_canary`. -/
def checkCanary (w : Surroundings) : Canary CanaryReport := do
  let st ← get
  let probes := w.canaryProbeHosts st.timeout st.hosts
  let results := probes.1
  let aliveCount := results.values.count true
  let total := results.items.length
  let wasAlive := st.internetAlive
  let alive : Bool := decide (total / 2 < aliveCount)
  modify fun st => { st with internetAlive := some alive, canaryLastCheck := w.checkedAt }
  emitCanaryStatus wasAlive alive
  let direct ← canaryDirectInfo w alive
  canaryRecord w ⟨w.recordedAt, if alive then 1 else 0, aliveCount, total, results, direct⟩
  return ⟨alive, results, probes.2, aliveCount, total, direct⟩

/-- `is_internet_alive`. -/
def isInternetAlive (w : Surroundings) (now : Time) : Canary Bool := do
  let st ← get
  if st.Cached now then return st.internetAlive.getD false
  let result ← checkCanary w
  return result.alive

/-- The verdict of `_internet_gate`, `trigger_now` and `manual_start_hunt`: any exception is
taken for a no. -/
def internetOk (w : Surroundings) (now : Time) (st : CanaryState) : Bool :=
  match isInternetAlive w now st with
  | .ok alive _ => alive
  | .error _ _ => false

/-- A strict majority of the hosts was reachable. -/
def MajorityReachable (w : Surroundings) (st : CanaryState) : Prop :=
  st.canaryHosts.length < 2 * st.canaryHosts.countP (w.reachable st.timeout)

instance (w : Surroundings) (st : CanaryState) : Decidable (MajorityReachable w st) :=
  inferInstanceAs (Decidable (_ < _))

/-! ### The verdict -/

/-- Distinct hosts are noted in their order. -/
theorem canaryProbeHosts_items (w : Surroundings) (timeout : ℕ) {hosts : List String}
    (hnodup : hosts.Nodup) :
    (w.canaryProbeHosts timeout hosts).1.items =
      hosts.map (fun host => (host, w.reachable timeout host)) := by
  -- the hosts that are still to come are none of the keys
  have hloop : ∀ (hosts : List String) (d : Dict String Bool × Dict String ℤ), hosts.Nodup →
      (∀ host ∈ hosts, host ∉ d.1.items.map Prod.fst) →
      (hosts.foldl (fun d host => (d.1.insert host (w.reachable timeout host),
        d.2.insert host (w.latency timeout host))) d).1.items =
          d.1.items ++ hosts.map (fun host => (host, w.reachable timeout host)) := by
    intro hosts
    induction hosts with
    | nil => simp
    | cons host hosts ih =>
      intro d hnodup hnew
      obtain ⟨hhost, hrest⟩ := List.nodup_cons.mp hnodup
      have hinsert : (d.1.insert host (w.reachable timeout host)).items =
          d.1.items ++ [(host, w.reachable timeout host)] :=
        Dict.put_of_notMem (hnew host List.mem_cons_self)
      have hnew' : ∀ host' ∈ hosts,
          host' ∉ (d.1.insert host (w.reachable timeout host)).items.map Prod.fst := by
        intro host' hhost' hmem
        rw [hinsert, List.map_append, List.mem_append] at hmem
        rcases hmem with hmem | hmem
        · exact hnew host' (List.mem_cons_of_mem _ hhost') hmem
        · rw [List.map_singleton, List.mem_singleton] at hmem
          have heq : host' = host := hmem
          exact hhost (heq ▸ hhost')
      rw [List.foldl_cons, ih _ hrest hnew']
      show (d.1.insert host (w.reachable timeout host)).items ++ _ = _
      rw [hinsert, List.append_assoc, List.map_cons, List.singleton_append]
  have hrun := hloop hosts (.empty, .empty) hnodup (by simp [Dict.empty])
  simpa [Surroundings.canaryProbeHosts, Dict.empty] using hrun

/-- The verdict is the one of the majority. -/
theorem verdict_iff (w : Surroundings) {st : CanaryState} (hne : st.canaryHosts ≠ [])
    (hnodup : st.canaryHosts.Nodup) :
    let results := (w.canaryProbeHosts st.timeout st.hosts).1
    results.items.length / 2 < results.values.count true ↔ MajorityReachable w st := by
  have hhosts : st.hosts = st.canaryHosts := if_neg hne
  have hitems := canaryProbeHosts_items w st.timeout hnodup
  have hcount : ((w.canaryProbeHosts st.timeout st.canaryHosts).1.values).count true =
      st.canaryHosts.countP (w.reachable st.timeout) := by
    rw [Dict.values, hitems, List.map_map, List.count_eq_countP, List.countP_map]
    refine List.countP_congr fun host _ => ?_
    simp
  dsimp only
  rw [hhosts, hcount, hitems, List.length_map, MajorityReachable]
  omega

/-- A step of the check that raises nothing. -/
def Quiet {α : Type} (m : Canary α) : Prop := ∀ st, ∃ a st', m st = .ok a st'

theorem quiet_emit (wasAlive : Option Bool) (alive : Bool) : Quiet (emitCanaryStatus wasAlive alive) := by
  intro st
  unfold emitCanaryStatus
  split
  · exact ⟨⟨⟩, _, rfl⟩
  · split
    · exact ⟨⟨⟩, _, rfl⟩
    · exact ⟨⟨⟩, st, rfl⟩

/-- Whatever becomes of the request, nothing is raised. -/
theorem quiet_directInfo (w : Surroundings) (alive : Bool) : Quiet (canaryDirectInfo w alive) :=
  fun _ => ⟨_, _, rfl⟩

/-- The row is recorded without an exception just when the database takes it. -/
theorem quiet_record_iff (w : Surroundings) (row : CanaryRow) :
    Quiet (canaryRecord w row) ↔ w.store = .done := by
  constructor
  · intro h
    cases hstore : w.store with
    | done => rfl
    | failed committed =>
      obtain ⟨a, st', hok⟩ := h ⟨[], false, none, 0, 0, .unknown, [], []⟩
      rw [canaryRecord, hstore] at hok
      cases committed <;> cases hok
  · intro hstore st
    rw [canaryRecord, hstore]
    exact ⟨⟨⟩, _, rfl⟩

theorem record_of_failed {w : Surroundings} {committed : Bool} (h : w.store = .failed committed)
    (row : CanaryRow) (st : CanaryState) :
    ∃ st', canaryRecord w row st = .error (.nameError "result") st' := by
  rw [canaryRecord, h]
  cases committed with
  | false => exact ⟨_, rfl⟩
  | true => exact ⟨_, rfl⟩

/-- **What a check comes to.** It returns the verdict of the probes, or it raises where the
row is recorded; then the verdict has already been published. -/
theorem checkCanary_cases (w : Surroundings) (st : CanaryState) :
    let results := (w.canaryProbeHosts st.timeout st.hosts).1
    let alive : Bool := decide (results.items.length / 2 < results.values.count true)
    (w.store = .done → ∃ report st', checkCanary w st = .ok report st' ∧ report.alive = alive) ∧
    (w.store ≠ .done → ∃ st', checkCanary w st = .error (.nameError "result") st') := by
  intro results alive
  obtain ⟨_, st₁, hemit⟩ := quiet_emit st.internetAlive alive
    { st with internetAlive := some alive, canaryLastCheck := w.checkedAt }
  obtain ⟨direct, st₂, hdirect⟩ := quiet_directInfo w alive st₁
  let row : CanaryRow := ⟨w.recordedAt, if alive then 1 else 0, results.values.count true,
    results.items.length, results, direct⟩
  let report : CanaryReport := ⟨alive, results, (w.canaryProbeHosts st.timeout st.hosts).2,
    results.values.count true, results.items.length, direct⟩
  have hrun : checkCanary w st = (canaryRecord w row >>= fun _ => pure report) st₂ :=
    (bind_of_ok hemit).trans (bind_of_ok hdirect)
  constructor
  · intro hstore
    obtain ⟨_, st₃, hrecord⟩ := (quiet_record_iff w row).mpr hstore st₂
    exact ⟨report, st₃, hrun.trans (bind_of_ok hrecord), rfl⟩
  · intro hstore
    cases hfate : w.store with
    | done => exact absurd hfate hstore
    | failed committed =>
      obtain ⟨st₃, hrecord⟩ := record_of_failed hfate row st₂
      exact ⟨st₃, hrun.trans (bind_of_error hrecord)⟩

/-- An answer that is not kept is the one of a check, and no answer is a no. -/
theorem internetOk_iff (w : Surroundings) {st : CanaryState} {now : Time} (hfresh : ¬ st.Cached now) :
    internetOk w now st = true ↔ ∃ report st', checkCanary w st = .ok report st' ∧ report.alive = true := by
  have hasked : isInternetAlive w now st = (checkCanary w >>= fun result => pure result.alive) st := by
    show (if st.Cached now then _ else _ : Canary Bool) st = _
    rw [if_neg hfresh]
  unfold internetOk
  rw [hasked]
  cases hcheck : checkCanary w st with
  | ok report st' =>
    have hanswer : (checkCanary w >>= fun result => pure result.alive) st = .ok report.alive st' :=
      bind_of_ok hcheck
    simp [hanswer]
  | error err st' =>
    have hanswer : (checkCanary w >>= fun result => (pure result.alive : Canary Bool)) st = .error err st' :=
      bind_of_error hcheck
    simp [hanswer]

/-- With its row stored, a check returns the verdict of the majority. -/
theorem check_canary_alive (w : Surroundings) {st : CanaryState} (hne : st.canaryHosts ≠ [])
    (hnodup : st.canaryHosts.Nodup) (hstore : w.store = .done) :
    ∃ report st', checkCanary w st = .ok report st' ∧
      (report.alive = true ↔ MajorityReachable w st) := by
  obtain ⟨report, st', hok, halive⟩ := (checkCanary_cases w st).1 hstore
  refine ⟨report, st', hok, ?_⟩
  rw [halive, decide_eq_true_iff]
  exact verdict_iff w hne hnodup

/-- With its row stored, a fresh check tells every caller the verdict of the majority. -/
theorem internetOk_majority (w : Surroundings) {st : CanaryState} {now : Time}
    (hfresh : ¬ st.Cached now) (hne : st.canaryHosts ≠ []) (hnodup : st.canaryHosts.Nodup)
    (hstore : w.store = .done) : internetOk w now st = true ↔ MajorityReachable w st := by
  obtain ⟨report, st', hok, hmajority⟩ := check_canary_alive w hne hnodup hstore
  rw [internetOk_iff w hfresh, ← hmajority]
  constructor
  · rintro ⟨report', st'', hok', hyes⟩
    rw [hok] at hok'
    cases hok'
    exact hyes
  · intro hyes
    exact ⟨report, st', hok, hyes⟩

/-- **The check survives, with the verdict of the majority, just when the database takes the
row**; only then does every caller act on that verdict. -/
theorem check_canary_iff (w : Surroundings) (st : CanaryState) (hne : st.canaryHosts ≠ [])
    (hnodup : st.canaryHosts.Nodup) :
    ((∃ report st', checkCanary w st = .ok report st' ∧
        (report.alive = true ↔ MajorityReachable w st)) ∧
      ∀ now, ¬ st.Cached now → (internetOk w now st = true ↔ MajorityReachable w st)) ↔
    w.store = .done := by
  constructor
  · rintro ⟨⟨report, st', hok, -⟩, -⟩
    by_contra hstore
    obtain ⟨st'', herror⟩ := (checkCanary_cases w st).2 hstore
    rw [hok] at herror
    cases herror
  · intro hstore
    exact ⟨check_canary_alive w hne hnodup hstore,
      fun _ hfresh => internetOk_majority w hfresh hne hnodup hstore⟩

/-- One host, which can be reached, and a database that takes the row, or does not. -/
def oneHost (store : StoreOutcome) : Surroundings × CanaryState :=
  (⟨fun _ _ _ => some 20, fun _ => .raised, 100, 101, store⟩,
    ⟨["ya.ru"], false, none, 0, 30, .unknown, [], []⟩)

theorem check_canary_oneHost :
    ((∃ report st', checkCanary (oneHost .done).1 (oneHost .done).2 = .ok report st' ∧
        (report.alive = true ↔ MajorityReachable (oneHost .done).1 (oneHost .done).2)) ∧
      ∀ now, ¬ (oneHost .done).2.Cached now →
        (internetOk (oneHost .done).1 now (oneHost .done).2 = true ↔
          MajorityReachable (oneHost .done).1 (oneHost .done).2)) ↔
    (oneHost .done).1.store = .done :=
  check_canary_iff (oneHost .done).1 (oneHost .done).2 (by decide) (by decide)

/-- **A database failure is taken for the loss of the internet.** The only host can be
reached, the check raises, and whoever asks acts on a no. -/
theorem check_canary_raises :
    MajorityReachable (oneHost (.failed false)).1 (oneHost (.failed false)).2 ∧
      (∃ st', checkCanary (oneHost (.failed false)).1 (oneHost (.failed false)).2 =
        .error (.nameError "result") st') ∧
      internetOk (oneHost (.failed false)).1 100 (oneHost (.failed false)).2 = false := by
  have hraises : ∃ st', checkCanary (oneHost (.failed false)).1 (oneHost (.failed false)).2 =
      .error (.nameError "result") st' := (checkCanary_cases _ _).2 (by decide)
  refine ⟨by decide, hraises, ?_⟩
  obtain ⟨st', herror⟩ := hraises
  rw [Bool.eq_false_iff, ne_eq, internetOk_iff _ (fun h => h.1 rfl)]
  rintro ⟨report, st'', hok, -⟩
  rw [herror] at hok
  cases hok

/-! ### What the gate makes of it -/

/-- After its turn the gate pauses just when the verdict was a no. -/
theorem gateVerdict_mark (s : SchedulerEngine) (now : Time) (alive : Bool) :
    (s.gateVerdict now alive).1.pausedByInternet = !alive := by
  unfold SchedulerEngine.gateVerdict
  cases alive with
  | true =>
    rw [if_pos rfl]
    split
    · exact (SchedulerEngine.afterGate_kept _ now).pausedByInternet
    · next hmark =>
      rw [(SchedulerEngine.afterGate_kept s now).pausedByInternet]
      exact Bool.eq_false_iff.mpr hmark
  | false =>
    rw [if_neg Bool.false_ne_true]
    split
    · next hmark =>
      rw [(SchedulerEngine.afterGate_kept s now).pausedByInternet]
      exact hmark
    · dsimp only
      split
      · exact (SchedulerEngine.afterGate_kept _ now).pausedByInternet
      · rfl

/-- **With its row stored, a fresh check pauses the scheduler just when no majority of the
hosts was reachable.** -/
theorem gate_pauses_iff (s : SchedulerEngine) (w : Surroundings) {st : CanaryState} {now : Time}
    (hfresh : ¬ st.Cached now) (hne : st.canaryHosts ≠ []) (hnodup : st.canaryHosts.Nodup)
    (hstore : w.store = .done) :
    (s.gateVerdict now (internetOk w now st)).1.pausedByInternet = true ↔
      ¬ MajorityReachable w st := by
  rw [gateVerdict_mark, Bool.not_eq_true', ← internetOk_majority w hfresh hne hnodup hstore,
    Bool.not_eq_true]

end HuntProxy
