import HuntProxy.Scheduler.Flags

/-!
# List downloads and their busy flags

`_download_blocklists` sets `_fetching_blocklists` while it runs; `_download_ip_blacklists`
sets nothing, and of its two callers only the HTTP handler sets `_fetching_ip_blacklists`.
All callers refuse when the flag is set. The scheduler's guard takes both flags for stale
whenever it finds them set, since it knows tasks for the hunt flag only.

`DownloadEngine` runs the handlers and the executors beside the scheduler. In the runs in
which the guard does not test a flag that a live download has set, and no ip-blacklist
download begins beside a scheduled one that has left the flag clear, the flags exclude
concurrent downloads.

## Main definitions

- `Download`, `DownloadEngine` — the downloads in progress, next to the scheduler
- `fetch`, `ended` — a download begins or is refused, and ends
- `tests`, `asksIpBlacklists` — what a step is about to do, read off the state before it
- `Backed` — the condition of this module

## Main results

- `simulates`, `reaches_sched` — the scheduler under the downloads is the scheduler
- `Held.step` — what a step under the condition keeps
- `busy_flags_exclude` — no flag is cleared under a live setter, no list is downloaded twice
- `cleared_under_download` — the guard clears the flag of a handler's live download
-/

namespace HuntProxy

/-- The lists that are downloaded as a whole. -/
inductive ListKind
  | ipBlacklist
  | blocklist
  deriving DecidableEq, Repr

/-- The flag that says that a list is being fetched. -/
def ListKind.busyFlag : ListKind → BusyFlag
  | .ipBlacklist => .fetchingIpBlacklists
  | .blocklist => .fetchingBlocklists

/-- Who awaits a download: a call of an HTTP handler, or a scheduled run. -/
inductive Fetcher
  | handler (j : ℕ)
  | run (i : TaskId)
  deriving DecidableEq, Repr

/-- A `_download_blocklists` or `_download_ip_blacklists` in progress. -/
structure Download where
  fetcher : Fetcher
  list : ListKind
  deriving DecidableEq, Repr

/-- Whether the busy flag has been set for the download. `_download_blocklists` does so
itself, `_handle_ip_blacklists_fetch` for the download it awaits. -/
def Download.flagged : Download → Bool
  | ⟨.run _, .ipBlacklist⟩ => false
  | _ => true

/-- Set the flag of a list. -/
def HuntState.setFetching (hs : HuntState) : ListKind → HuntState
  | .ipBlacklist => { hs with fetchingIpBlacklists := true }
  | .blocklist => { hs with fetchingBlocklists := true }

theorem ListKind.busyFlag_injective : Function.Injective ListKind.busyFlag := by
  intro l l' h
  cases l <;> cases l' <;> first | rfl | cases h

theorem HuntState.flag_clearFlag (hs : HuntState) (f g : BusyFlag) :
    (hs.clearFlag f).flag g = (hs.flag g && !decide (g = f)) := by
  cases f <;> cases g <;> simp [clearFlag, flag]

theorem HuntState.flag_setFetching (hs : HuntState) (l : ListKind) (g : BusyFlag) :
    (hs.setFetching l).flag g = (hs.flag g || decide (g = l.busyFlag)) := by
  cases l <;> cases g <;> simp [setFetching, flag, ListKind.busyFlag]

/-- The scheduler with the downloads in progress. `nextFetch` numbers the calls of the
HTTP handlers. -/
structure DownloadEngine where
  sched : SchedulerEngine
  live : List Download
  nextFetch : ℕ

/-- One step: of the scheduler, of a fetch handler, or of another part of the host. -/
inductive DownloadEvent
  | scheduler (now : Time) (a : Action)
  | fetchIpBlacklists
  | fetchBlocklists
  | fetched (j : ℕ)
  | other (hs : HuntState)

namespace SchedulerEngine

/-- The type of the executor that a turn of task `i` begins. -/
def started (s : SchedulerEngine) (i : TaskId) : Option TaskType :=
  if (s.tasks i).cancelRequested then none
  else
    match s.code i with
    | .run sid _ _ .unstarted => (s.schedules.get? sid).map (fun r => (s.entries r).taskType)
    | _ => none

/-- Whether task `i` is inside its executor. -/
def executing (s : SchedulerEngine) (i : TaskId) : Bool :=
  match s.code i with
  | .run _ _ _ (.executing _ _) => true
  | _ => false

end SchedulerEngine

namespace DownloadEngine

/-- The flag of a list. -/
def fetching (e : DownloadEngine) (l : ListKind) : Bool := e.sched.state.flag l.busyFlag

/-- The host changes. -/
def withHost (e : DownloadEngine) (hs : HuntState) : DownloadEngine :=
  { e with sched := { e.sched with state := hs } }

/-- A download is refused when the flag of its list is set, otherwise it begins. -/
def fetch (e : DownloadEngine) (d : Download) : DownloadEngine :=
  if e.fetching d.list then e
  else
    { (if d.flagged then e.withHost (e.sched.state.setFetching d.list) else e) with
      live := d :: e.live }

/-- `_handle_ip_blacklists_fetch` up to the download. -/
def handleIpBlacklistsFetch (e : DownloadEngine) : DownloadEngine :=
  { e.fetch ⟨.handler e.nextFetch, .ipBlacklist⟩ with nextFetch := e.nextFetch + 1 }

/-- `_handle_blocklists_fetch` up to the download. -/
def handleBlocklistsFetch (e : DownloadEngine) : DownloadEngine :=
  { e.fetch ⟨.handler e.nextFetch, .blocklist⟩ with nextFetch := e.nextFetch + 1 }

/-- `_execute_ip_blacklist` up to the download. -/
def executeIpBlacklist (e : DownloadEngine) (i : TaskId) : DownloadEngine :=
  e.fetch ⟨.run i, .ipBlacklist⟩

/-- `_execute_blocklist` up to the download. -/
def executeBlocklist (e : DownloadEngine) (i : TaskId) : DownloadEngine :=
  e.fetch ⟨.run i, .blocklist⟩

/-- `_execute_task`, for the executors that download lists. -/
def executeTask (e : DownloadEngine) (i : TaskId) : TaskType → DownloadEngine
  | .ipBlacklist => e.executeIpBlacklist i
  | .blocklist => e.executeBlocklist i
  | _ => e

/-- The end of a fetcher's download; the `finally` of whoever has set the flag clears it. -/
def ended (e : DownloadEngine) (w : Fetcher) : DownloadEngine :=
  match e.live.find? (fun d => d.fetcher = w) with
  | none => e
  | some d =>
    { (if d.flagged then e.withHost (e.sched.state.clearFlag d.list.busyFlag) else e) with
      live := e.live.erase d }

/-- The part of task `i`'s turn that belongs to its executor: `s` is the scheduler before
the turn. -/
def executor (e : DownloadEngine) (s : SchedulerEngine) (i : TaskId) : DownloadEngine :=
  match s.started i with
  | some taskType => e.executeTask i taskType
  | none => if s.executing i then e.ended (.run i) else e

/-- The transition function. The rest of the host leaves the two flags alone. -/
def step (e : DownloadEngine) : DownloadEvent → Option DownloadEngine
  | .scheduler now (.resume i inp) =>
    (e.sched.step (now, .resume i inp)).map
      (fun s' => ({ e with sched := s' } : DownloadEngine).executor e.sched i)
  | .scheduler _ (.host _) => none
  | .scheduler now a => (e.sched.step (now, a)).map (fun s' => { e with sched := s' })
  | .fetchIpBlacklists => some e.handleIpBlacklistsFetch
  | .fetchBlocklists => some e.handleBlocklistsFetch
  | .fetched j =>
    if e.live.any (fun d => d.fetcher = .handler j) then some (e.ended (.handler j)) else none
  | .other hs =>
    if hs.fetchingIpBlacklists = e.fetching .ipBlacklist ∧
        hs.fetchingBlocklists = e.fetching .blocklist then some (e.withHost hs)
    else none

/-- The machine of the scheduler, the handlers and the executors. -/
def machine : Machine DownloadEngine DownloadEvent := ⟨step⟩

/-- The scheduler has just been prepared and nothing is being downloaded. -/
structure Initial (e : DownloadEngine) : Prop where
  sched : e.sched.Initial
  live : e.live = []

/-! ### The scheduler below

The downloads act on the scheduler through the flags of the host only, so that its own
results hold under them. -/

theorem fetch_sched (e : DownloadEngine) (d : Download) :
    ∃ hs, (e.fetch d).sched = { e.sched with state := hs } := by
  unfold fetch
  split
  · exact ⟨e.sched.state, rfl⟩
  · cases hflagged : d.flagged with
    | true => exact ⟨e.sched.state.setFetching d.list, rfl⟩
    | false => exact ⟨e.sched.state, rfl⟩

theorem ended_sched (e : DownloadEngine) (w : Fetcher) :
    ∃ hs, (e.ended w).sched = { e.sched with state := hs } := by
  unfold ended
  split
  · exact ⟨e.sched.state, rfl⟩
  · next d _ =>
    cases hflagged : d.flagged with
    | true => exact ⟨e.sched.state.clearFlag d.list.busyFlag, rfl⟩
    | false => exact ⟨e.sched.state, rfl⟩

theorem executor_sched (e : DownloadEngine) (s : SchedulerEngine) (i : TaskId) :
    ∃ hs, (e.executor s i).sched = { e.sched with state := hs } := by
  unfold executor
  split
  · next taskType _ =>
    cases taskType with
    | ipBlacklist => exact e.fetch_sched _
    | blocklist => exact e.fetch_sched _
    | _ => exact ⟨e.sched.state, rfl⟩
  · split
    · exact e.ended_sched (.run i)
    · exact ⟨e.sched.state, rfl⟩

/-- A step of the scheduler that is neither a turn nor a change of the host. -/
theorem step_scheduler {e e' : DownloadEngine} {now : Time} {a : Action}
    (hres : ∀ i inp, a ≠ .resume i inp) (hhost : ∀ hs, a ≠ .host hs)
    (h : e.step (.scheduler now a) = some e') :
    ∃ s', e.sched.step (now, a) = some s' ∧ { e with sched := s' } = e' := by
  cases a with
  | resume i inp => exact absurd rfl (hres i inp)
  | host hs => exact absurd rfl (hhost hs)
  | _ => exact Option.map_eq_some_iff.mp h

/-- A change of the host is a step of the scheduler's machine. -/
theorem reaches_host {s s' : SchedulerEngine} (h : ∃ hs, s' = { s with state := hs }) :
    SchedulerEngine.machine.Reaches Machine.anyStep s s' := by
  obtain ⟨hs, rfl⟩ := h
  exact .single (a := (0, .host hs)) rfl trivial

/-- **The downloads are an overlay**: each of their steps is a run of the scheduler, of at
most two steps, a turn and the change that its executor makes to the host. -/
theorem simulates : machine.Simulates Machine.anyStep SchedulerEngine.machine Machine.anyStep
    (fun e s => e.sched = s) := by
  rintro e a e' s rfl hs -
  change e.step a = some e' at hs
  have hstep : ∀ a s', e.sched.step a = some s' →
      SchedulerEngine.machine.Reaches Machine.anyStep e.sched s' :=
    fun a s' hs' => .single (a := a) hs' trivial
  cases a with
  | scheduler now a =>
    cases a with
    | resume i inp =>
      obtain ⟨s', hs', rfl⟩ := Option.map_eq_some_iff.mp hs
      have hexecutor := executor_sched { e with sched := s' } e.sched i
      exact ⟨_, (hstep _ s' hs').trans (reaches_host hexecutor), rfl⟩
    | host hs' => cases hs
    | _ =>
      obtain ⟨s', hs', rfl⟩ := step_scheduler (fun _ _ => by simp) (fun _ => by simp) hs
      exact ⟨s', hstep _ s' hs', rfl⟩
  | fetchIpBlacklists =>
    cases hs
    exact ⟨_, reaches_host (e.fetch_sched _), rfl⟩
  | fetchBlocklists =>
    cases hs
    exact ⟨_, reaches_host (e.fetch_sched _), rfl⟩
  | fetched j =>
    obtain ⟨-, heq⟩ := Option.ite_none_right_eq_some.mp hs
    cases heq
    exact ⟨_, reaches_host (e.ended_sched _), rfl⟩
  | other hs' =>
    obtain ⟨-, heq⟩ := Option.ite_none_right_eq_some.mp hs
    cases heq
    exact ⟨_, reaches_host ⟨hs', rfl⟩, rfl⟩

/-- What holds in every reachable state of the scheduler holds under the downloads. -/
theorem reaches_sched {e e' : DownloadEngine} (h : machine.Reaches Machine.anyStep e e') :
    SchedulerEngine.machine.Reaches Machine.anyStep e.sched e'.sched := by
  obtain ⟨s, hs, rfl⟩ := simulates.reaches rfl h
  exact hs

/-! ### The condition -/

/-- The flag that the guard tests in a step. -/
def tests (e : DownloadEngine) : DownloadEvent → Option BusyFlag
  | .scheduler _ (.resume i inp) => (e.sched.checked i inp).bind TaskDef.busyFlag
  | _ => none

/-- Whether a step asks for a download of the ip blacklists. -/
def asksIpBlacklists (e : DownloadEngine) : DownloadEvent → Bool
  | .fetchIpBlacklists => true
  | .scheduler _ (.resume i _) => e.sched.started i = some .ipBlacklist
  | _ => false

/-- The guard tests no flag that a live download has set, and the ip blacklists are not
asked for while a live download of them has left their flag clear. -/
def backed (e : DownloadEngine) (a : DownloadEvent) : Bool :=
  e.live.all (fun d => !d.flagged || decide (e.tests a ≠ some d.list.busyFlag)) &&
    (!e.asksIpBlacklists a || e.fetching .ipBlacklist || e.live.all Download.flagged)

/-- The condition of this module, as a guard on runs. -/
def Backed : Machine.Guard DownloadEngine DownloadEvent := fun e a _ => e.backed a = true

/-- At most one download of a list is in progress. -/
def Exclusive (e : DownloadEngine) (l : ListKind) : Prop :=
  (e.live.filter (fun d => d.list = l)).length ≤ 1

/-- In this step no flag has been cleared under a live download that has set it. -/
def ClearsDead (e e' : DownloadEngine) : Prop :=
  ∀ l, e.fetching l = true → e'.fetching l = false →
    ∀ d ∈ e'.live, d.list = l → d.flagged = false

/-- A live download that has set its flag still finds it set, and no two live downloads
are of the same list. -/
structure Held (e : DownloadEngine) : Prop where
  flag : ∀ d ∈ e.live, d.flagged = true → e.fetching d.list = true
  lists : e.live.Pairwise (fun d d' => d.list ≠ d'.list)

/-! ### Flags and lists after the elementary operations -/

@[simp] theorem fetching_withHost (e : DownloadEngine) (hs : HuntState) (l : ListKind) :
    (e.withHost hs).fetching l = hs.flag l.busyFlag := rfl

theorem fetching_set (e : DownloadEngine) (l l' : ListKind) :
    (e.withHost (e.sched.state.setFetching l)).fetching l' =
      (e.fetching l' || decide (l' = l)) := by
  rw [fetching_withHost, HuntState.flag_setFetching, fetching]
  simp only [ListKind.busyFlag_injective.eq_iff]

theorem fetching_cleared (e : DownloadEngine) (l l' : ListKind) :
    (e.withHost (e.sched.state.clearFlag l.busyFlag)).fetching l' =
      (e.fetching l' && !decide (l' = l)) := by
  rw [fetching_withHost, HuntState.flag_clearFlag, fetching]
  simp only [ListKind.busyFlag_injective.eq_iff]

/-- The test of a row touches the flag of that row only. -/
theorem flag_afterCheck (s : SchedulerEngine) {taskDef : Option TaskDef} {f : BusyFlag}
    (h : taskDef.bind TaskDef.busyFlag ≠ some f) :
    (s.afterCheck taskDef).flag f = s.state.flag f := by
  cases taskDef with
  | none => rfl
  | some taskDef =>
    rw [Option.bind_some] at h
    simp only [SchedulerEngine.afterCheck, SchedulerEngine.checkBusyFlag]
    cases hbusy : taskDef.busyFlag with
    | none => rfl
    | some g =>
      have hne : f ≠ g := by
        rintro rfl
        exact h hbusy
      dsimp only
      split
      · rfl
      · split
        · rw [Option.getD_some, HuntState.flag_clearFlag, decide_eq_false hne, Bool.not_false,
            Bool.and_true]
        · rfl

/-- A run that begins tests no flag in that turn. -/
theorem checked_of_started {s : SchedulerEngine} {i : TaskId} {inp : Input} {taskType : TaskType}
    (h : s.started i = some taskType) : s.checked i inp = none := by
  unfold SchedulerEngine.started at h
  split at h
  · cases h
  · split at h
    · next hc =>
      unfold SchedulerEngine.checked
      simp only [hc, Code.drain?]
      split <;> rfl
    · cases h

/-- Every download of the blocklists sets their flag. -/
theorem blocklist_flagged {d : Download} (h : d.list = .blocklist) : d.flagged = true := by
  obtain ⟨w, l⟩ := d
  cases h
  cases w <;> rfl

namespace Held

variable {e e' : DownloadEngine}

/-- Only the flags of live setters and the list of downloads matter. -/
theorem congr (h : e.Held) (hlive : e'.live = e.live)
    (hflag : ∀ d ∈ e.live, d.flagged = true → e'.fetching d.list = e.fetching d.list) :
    e'.Held := by
  constructor
  · intro d hd hset
    rw [hlive] at hd
    rw [hflag d hd hset]
    exact h.flag d hd hset
  · rw [hlive]
    exact h.lists

/-- A download begins only when no other one of its list is in progress: a setter would
have the flag set, and the condition speaks of the others. -/
theorem fetch (h : e.Held) {d : Download}
    (hclear : e.fetching d.list = false → ∀ d' ∈ e.live, d'.list = d.list → d'.flagged = true) :
    (e.fetch d).Held := by
  unfold DownloadEngine.fetch
  split
  · exact h
  · next hoff =>
    have hoff : e.fetching d.list = false := Bool.eq_false_iff.mpr hoff
    have hnew : ∀ d' ∈ e.live, d.list ≠ d'.list := by
      intro d' hd' heq
      have hflag := h.flag d' hd' (hclear hoff d' hd' heq.symm)
      rw [← heq, hoff] at hflag
      cases hflag
    have hlists : (d :: e.live).Pairwise (fun d d' => d.list ≠ d'.list) :=
      List.pairwise_cons.mpr ⟨hnew, h.lists⟩
    cases hset : d.flagged with
    | true =>
      refine ⟨fun d' hd' hset' => ?_, hlists⟩
      change (e.withHost (e.sched.state.setFetching d.list)).fetching d'.list = true
      rw [fetching_set, Bool.or_eq_true]
      rcases List.mem_cons.mp hd' with rfl | hd'
      · exact .inr (decide_eq_true rfl)
      · exact .inl (h.flag d' hd' hset')
    | false =>
      refine ⟨fun d' hd' hset' => ?_, hlists⟩
      rcases List.mem_cons.mp hd' with rfl | hd'
      · rw [hset] at hset'
        cases hset'
      · exact h.flag d' hd' hset'

/-- The flag that a download clears at its end belongs to no other live download. -/
theorem ended (h : e.Held) (w : Fetcher) : (e.ended w).Held := by
  unfold DownloadEngine.ended
  split
  · exact h
  · next d hfind =>
    have hd : d ∈ e.live := List.mem_of_find?_eq_some hfind
    have hlists : (e.live.erase d).Pairwise (fun d d' => d.list ≠ d'.list) :=
      h.lists.sublist List.erase_sublist
    have hother : ∀ d' ∈ e.live.erase d, d'.list ≠ d.list := by
      intro d' hd'
      have hcons : (d :: e.live.erase d).Pairwise (fun d d' => d.list ≠ d'.list) :=
        (List.perm_cons_erase hd).pairwise h.lists (fun hne => hne.symm)
      exact ((List.pairwise_cons.mp hcons).1 d' hd').symm
    refine ⟨fun d' hd' hset' => ?_, hlists⟩
    have hflag := h.flag d' (List.mem_of_mem_erase hd') hset'
    cases hset : d.flagged with
    | true =>
      change (e.withHost (e.sched.state.clearFlag d.list.busyFlag)).fetching d'.list = true
      rw [fetching_cleared, hflag, decide_eq_false (hother d' hd')]
      rfl
    | false => exact hflag

/-! ### Steps -/

theorem executor (h : e.Held) {s : SchedulerEngine} {i : TaskId}
    (hclear : s.started i = some .ipBlacklist → e.fetching .ipBlacklist = false →
      ∀ d ∈ e.live, d.list = .ipBlacklist → d.flagged = true) : (e.executor s i).Held := by
  unfold DownloadEngine.executor
  split
  · next taskType hstart =>
    cases taskType with
    | ipBlacklist => exact h.fetch (hclear hstart)
    | blocklist => exact h.fetch (fun _ _ _ => blocklist_flagged)
    | _ => exact h
  · split
    · exact h.ended (.run i)
    · exact h

/-- **Step lemma**: a step under the condition keeps the flags of the live setters set and
the downloads of each list apart. -/
theorem step (h : e.Held) {a : DownloadEvent} (hs : e.step a = some e')
    (hbacked : e.backed a = true) : e'.Held := by
  simp only [backed, Bool.and_eq_true, List.all_eq_true, Bool.or_eq_true, Bool.not_eq_true',
    decide_eq_true_eq] at hbacked
  obtain ⟨htests, hasks⟩ := hbacked
  have hclear : e.asksIpBlacklists a = true → e.fetching .ipBlacklist = false →
      ∀ d ∈ e.live, d.list = .ipBlacklist → d.flagged = true := by
    intro hask hoff d hd _
    rcases hasks with (hno | hon) | hall
    · rw [hask] at hno
      cases hno
    · rw [hoff] at hon
      cases hon
    · exact hall d hd
  cases a with
  | scheduler now a =>
    by_cases hres : ∃ i inp, a = .resume i inp
    · obtain ⟨i, inp, rfl⟩ := hres
      simp only [DownloadEngine.step, SchedulerEngine.step, SchedulerEngine.resume,
        Option.map_eq_some_iff] at hs
      obtain ⟨_, ⟨⟨s₁, c'⟩, hturn, rfl⟩, rfl⟩ := hs
      have hstate := SchedulerEngine.turn_state hturn
      have h₁ : ({ e with sched := s₁.setCode i c' } : DownloadEngine).Held := by
        refine h.congr rfl (fun d hd hset => ?_)
        change s₁.state.flag d.list.busyFlag = e.sched.state.flag d.list.busyFlag
        rw [hstate]
        refine flag_afterCheck e.sched ((htests d hd).resolve_left ?_)
        rw [hset]
        exact Bool.false_ne_true.symm
      refine h₁.executor (fun hstart hoff => hclear (decide_eq_true hstart) ?_)
      have hsame : s₁.state = e.sched.state := by
        rw [hstate, checked_of_started hstart]
        rfl
      change s₁.state.flag _ = false at hoff
      rwa [hsame] at hoff
    · by_cases hhost : ∃ hs', a = .host hs'
      · obtain ⟨hs', rfl⟩ := hhost
        cases hs
      · obtain ⟨s', hs', rfl⟩ := step_scheduler (fun i inp heq => hres ⟨i, inp, heq⟩)
          (fun hs heq => hhost ⟨hs, heq⟩) hs
        have hstate : s'.state = e.sched.state :=
          SchedulerEngine.api_state (fun i inp heq => hres ⟨i, inp, heq⟩)
            (fun hs heq => hhost ⟨hs, heq⟩) hs'
        refine h.congr rfl (fun d _ _ => ?_)
        change s'.state.flag _ = e.sched.state.flag _
        rw [hstate]
  | fetchIpBlacklists =>
    cases hs
    exact (h.fetch (d := ⟨.handler e.nextFetch, .ipBlacklist⟩) (hclear rfl)).congr rfl
      (fun _ _ _ => rfl)
  | fetchBlocklists =>
    cases hs
    exact (h.fetch (d := ⟨.handler e.nextFetch, .blocklist⟩) (fun _ _ _ => blocklist_flagged)).congr rfl
      (fun _ _ _ => rfl)
  | fetched j =>
    simp only [DownloadEngine.step, Option.ite_none_right_eq_some, Option.some.injEq] at hs
    obtain ⟨-, rfl⟩ := hs
    exact h.ended (.handler j)
  | other hs' =>
    simp only [DownloadEngine.step, Option.ite_none_right_eq_some, Option.some.injEq] at hs
    obtain ⟨⟨hip, hbl⟩, rfl⟩ := hs
    refine h.congr rfl (fun d _ _ => ?_)
    cases d.list with
    | ipBlacklist => exact hip
    | blocklist => exact hbl

/-- At most one download of each list. -/
theorem exclusive (h : e.Held) (l : ListKind) : e.Exclusive l := by
  have hpair : (e.live.filter (fun d => d.list = l)).Pairwise (fun d d' => d.list ≠ d'.list) :=
    h.lists.sublist List.filter_sublist
  have hsame : ∀ d ∈ e.live.filter (fun d => d.list = l), d.list = l := by
    intro d hd
    exact of_decide_eq_true (List.mem_filter.mp hd).2
  unfold Exclusive
  generalize e.live.filter (fun d => d.list = l) = found at hpair hsame
  match found with
  | [] => exact Nat.zero_le 1
  | [_] => exact Nat.le_refl 1
  | d :: d' :: rest =>
    have hne := (List.pairwise_cons.mp hpair).1 d' List.mem_cons_self
    rw [hsame d List.mem_cons_self,
      hsame d' (List.mem_cons_of_mem d List.mem_cons_self)] at hne
    exact absurd rfl hne

/-- A flag that is clear has no live setter. -/
theorem clearsDead (h : e'.Held) : e.ClearsDead e' := by
  intro l _ hoff d hd hl
  rw [Bool.eq_false_iff]
  intro hset
  have hflag := h.flag d hd hset
  rw [hl, hoff] at hflag
  cases hflag

end Held

theorem Initial.held {e : DownloadEngine} (h : e.Initial) : e.Held := by
  constructor
  · rw [h.live]
    exact fun d hd => absurd hd List.not_mem_nil
  · rw [h.live]
    exact .nil

/-- **The busy flags exclude concurrent downloads** in every run whose steps all meet the
condition: at most one download of each list is in progress, and no step under the
condition clears a flag while a download that has set it is still in progress. -/
theorem busy_flags_exclude {e e' : DownloadEngine} (h₀ : e.Initial)
    (h : machine.Reaches Backed e e') :
    (∀ l, e'.Exclusive l) ∧
      ∀ a e'', machine.step e' a = some e'' → Backed e' a e'' → e'.ClearsDead e'' := by
  have hheld : e'.Held :=
    h.invariant (I := Held) h₀.held (fun _ _ _ hi hs hg => hi.step hs hg)
  exact ⟨hheld.exclusive, fun a e'' hs hg => (hheld.step hs hg).clearsDead⟩

/-- The schedules of the two lists. -/
def listSchedules : List ScheduleEntry :=
  [{ id := "blocklists", name := "Country blocklists", taskType := .blocklist },
    { id := "ip", name := "IP blacklists", taskType := .ipBlacklist }]

/-- A scheduler with the schedules of the two lists and no download. -/
def preparedLists : DownloadEngine := ⟨.prepared listSchedules, [], 0⟩

theorem preparedLists_initial : preparedLists.Initial :=
  ⟨SchedulerEngine.prepared_initial _, rfl⟩

/-- A schedule is triggered, the internet check is positive and the run begins. -/
def triggeredRun (sid : Sid) (i : TaskId) : List DownloadEvent :=
  [.scheduler 10 (.triggerNow sid), .scheduler 10 (.resume i .wake),
    .scheduler 11 (.resume i (.alive true)), .scheduler 11 (.resume (i + 1) .wake)]

/-- The ip blacklists are fetched over HTTP while a triggered run downloads the
blocklists. -/
theorem busy_flags_exclude_triggered :
    ∃ e', machine.Reaches Backed preparedLists e' ∧
      e'.live = [⟨.handler 0, .ipBlacklist⟩, ⟨.run 1, .blocklist⟩] ∧ (∀ l, e'.Exclusive l) ∧
        ∀ a e'', machine.step e' a = some e'' → Backed e' a e'' → e'.ClearsDead e'' := by
  have hrun : ∃ e', machine.Reaches Backed preparedLists e' ∧
      decide (e'.live = [⟨.handler 0, .ipBlacklist⟩, ⟨.run 1, .blocklist⟩]) = true :=
    Machine.exists_reaches_of_exec (g := fun e a _ => e.backed a)
      (l := triggeredRun "blocklists" 0 ++ [.fetchIpBlacklists])
      (fun e a _ (h : e.backed a = true) => h) (by decide +kernel)
  obtain ⟨e', he', hlive⟩ := hrun
  exact ⟨e', he', of_decide_eq_true hlive, busy_flags_exclude preparedLists_initial he'⟩

/-- A handler downloads the blocklists when their schedule is triggered: the guard clears
the flag that the live download has set, and the run begins a second download. -/
theorem cleared_under_download :
    ¬ ∀ e e' : DownloadEngine, e.Initial → machine.Reaches Machine.anyStep e e' →
      (∀ l, e'.Exclusive l) ∧
        ∀ a e'', machine.step e' a = some e'' → e'.ClearsDead e'' := by
  intro hall
  have hrun : ∃ e', machine.Reaches Machine.anyStep preparedLists e' ∧
      decide ((e'.live.filter (fun d => d.list = .blocklist)).length = 2) = true :=
    Machine.exists_reaches_of_exec (g := fun _ _ _ => true)
      (l := .fetchBlocklists :: triggeredRun "blocklists" 0) (fun _ _ _ _ => trivial)
      (by decide +kernel)
  obtain ⟨e', he', hlength⟩ := hrun
  have hone := (hall _ e' preparedLists_initial he').1 .blocklist
  rw [Exclusive, of_decide_eq_true hlength] at hone
  exact absurd hone (by decide)

end DownloadEngine

end HuntProxy
