import HuntProxy.Hunt.Effect
import HuntProxy.Scheduler.Registry

/-!
# At most one hunt cycle

`self.task` is a single slot. `manual_start_hunt` looks at it once, before its awaits, and
`start_hunt` does not look at it at all: it goes by the phase, which a stopped hunt and
every call of `manual_start_hunt` reset to idle. So a hunt can be started while another
one is unfinished, and the slot then loses the older one.

In the runs whose steps are all `tidy` this does not happen: a step that overwrites the
slot finds no unfinished hunt in it.

## Main results

- `SingleHunt.step` — tidy events keep the hunt in the slot the only one
- `single_hunt` — at most one unfinished hunt, and the slot refers to it
- `two_hunts` — two manual calls start a hunt each
-/

namespace HuntProxy.Engine

/-- The events that do not overwrite an unfinished hunt in the slot. A call that has waited
for a hunt empties the slot; a call that has waited for `cancel_all`, and the direct
starts, fill it unless `start_hunt` refuses. -/
def tidy (e : Engine) : Event → Bool
  | .manual m _ _ =>
    match e.calls m with
    | .hunt _ => !e.host.taskAlive
    | .cancelling _ => !e.host.taskAlive || e.host.healthRunning
    | _ => true
  | .control .startHunt => !e.host.taskAlive || !(e.host.startHunt false).2
  | .control .startupHunt => !e.host.taskAlive || e.host.healthRunning
  | _ => true

/-- Every unfinished hunt is the one in the slot. -/
def SingleHunt (e : Engine) : Prop :=
  ∀ h, (e.host.hunts h).alive = true → e.host.task = some h

theorem Initial.singleHunt {e : Engine} (h : e.Initial) : e.SingleHunt := by
  intro hn halive
  rw [h.hunts] at halive
  cases halive

namespace SingleHunt

variable {e e' : Engine}

/-- With an empty or finished slot there is no unfinished hunt. -/
theorem none_alive (h : e.SingleHunt) (hslot : e.host.taskAlive = false) (hn : ℕ) :
    (e.host.hunts hn).alive = false := by
  by_contra halive
  rw [Bool.not_eq_false] at halive
  simp [HuntState.taskAlive, h hn halive, halive] at hslot

/-- Fewer unfinished hunts and the same slot. -/
theorem mono (h : e.SingleHunt)
    (halive : ∀ hn, (e'.host.hunts hn).alive = true → (e.host.hunts hn).alive = true)
    (htask : e'.host.task = e.host.task) : e'.SingleHunt :=
  fun hn ha => htask.trans (h hn (halive hn ha))

/-- A hunt is created in a slot that holds no unfinished one. -/
theorem create {base : ℕ → HuntTask} {t : HuntTask} (h : e.SingleHunt)
    (hslot : e.host.taskAlive = false)
    (hbase : ∀ hn, (base hn).alive = (e.host.hunts hn).alive)
    (hhunts : e'.host.hunts = Function.update base e.host.nextHunt t)
    (htask : e'.host.task = some e.host.nextHunt) : e'.SingleHunt := by
  intro hn halive
  rw [hhunts] at halive
  by_cases hnew : hn = e.host.nextHunt
  · rw [htask, hnew]
  · rw [Function.update_of_ne hnew, hbase, h.none_alive hslot] at halive
    cases halive

/-- The start of a manual hunt. -/
theorem begun {s : SchedulerEngine} {hs : HuntState} {q : SchedulerEngine × ManualPc} {m : ℕ}
    (h : e.SingleHunt) (hslot : e.host.taskAlive = false ∨
      hs.healthRunning = true ∧ hs.task = e.host.task)
    (hhunts : hs.hunts = e.host.hunts) (hnext : hs.nextHunt = e.host.nextHunt)
    (hhost : hs.Kept s.state) (hq : s.Begun q) : (e.moved m q.1 q.2).SingleHunt := by
  have hk := hhost.huntsKept
  cases hq with
  | @refused hs' running hunts nextHunt task flag =>
    have hhunts' : hs'.hunts = e.host.hunts := hunts.trans (hk.hunts.trans hhunts)
    rcases hslot with hslot | ⟨-, htask⟩
    · intro hn halive
      have halive : (hs'.hunts hn).alive = true := halive
      rw [hhunts', h.none_alive hslot] at halive
      cases halive
    · refine h.mono (fun hn halive => ?_) (task.trans (hk.task.trans htask))
      exact hhunts' ▸ halive
  | @created hs' idle hunts nextHunt task flag =>
    rcases hslot with hslot | ⟨hrunning, -⟩
    · have hnext' : s.state.nextHunt = e.host.nextHunt := hk.nextHunt.trans hnext
      rw [hnext', hk.hunts, hhunts] at hunts
      exact h.create (t := ⟨.unstarted, false, true⟩) hslot (fun _ => rfl) hunts (hnext' ▸ task)
    · rw [hhost.healthRunning, hrunning] at idle
      cases idle

/-- A call that is about to pause the scheduler finds no unfinished hunt in the slot. -/
theorem ready_slot {m : ℕ} {now : Time} {inp : Input} {hs : HuntState}
    (hready : Ready e.host hs (e.calls m)) (htidy : e.tidy (.manual m now inp) = true) :
    e.host.taskAlive = false := by
  rcases hready.waited with ⟨hn, hpc, -, -⟩ | ⟨-, hslot, -⟩
  · simpa [tidy, hpc] using htidy
  · exact hslot

/-- **Step lemma**: a tidy event keeps the hunt in the slot the only one. -/
theorem step {ev : Event} (h : e.SingleHunt) (hs : e.step ev = some e')
    (htidy : e.tidy ev = true) : e'.SingleHunt := by
  cases step_effect hs with
  | @sched now a s' at_ offered step =>
    have hk := (offered_host offered step).huntsKept
    exact h.mono (fun hn ha => hk.hunts ▸ ha) hk.task
  | userPause => exact h
  | userResume => exact h
  | host kept => exact h.mono (fun hn ha => kept.hunts ▸ ha) kept.task
  | called => exact h
  | call at_ before after kept => exact h.mono (fun hn ha => kept.hunts ▸ ha) kept.task
  | @interrupt m now inp hn hs' at_ before task alive interrupted =>
    exact h.mono (fun hn' ha => interrupted.alive hn' ▸ ha) interrupted.task
  | @pause m now inp hs' s' at_ ready pauses run waits =>
    subst at_
    have hslot := ready_slot ready htidy
    have hk := (SchedulerEngine.pauseAndCancel_host run).huntsKept
    intro hn halive
    have halive : (s'.state.hunts hn).alive = true := halive
    rw [hk.hunts, ready.hunts, h.none_alive hslot] at halive
    cases halive
  | pauseBegin at_ ready pauses run done begun =>
    subst at_
    exact h.begun (.inl (ready_slot ready htidy)) ready.hunts ready.nextHunt
      (SchedulerEngine.pauseAndCancel_host run) begun
  | waitBegin at_ before run begun =>
    subst at_
    have hslot : e.host.taskAlive = false ∨ e.host.healthRunning = true := by
      simpa [tidy, before] using htidy
    exact h.begun (hslot.imp_right (⟨·, rfl⟩)) rfl rfl (SchedulerEngine.resume_host run) begun
  | @stop hs' interrupted at_ =>
    exact h.mono (fun hn ha => interrupted.alive hn ▸ ha) interrupted.task
  | start at_ idle hunts nextHunt task flag accepted =>
    rcases at_ with ⟨rfl, rfl⟩ | ⟨rfl, rfl⟩
    · have hslot : e.host.taskAlive = false := by simpa [tidy, accepted rfl] using htidy
      exact h.create hslot (fun _ => rfl) hunts task
    · have hslot : e.host.taskAlive = false := by simpa [tidy, idle] using htidy
      exact h.create hslot e.host.cancelTask_alive hunts task
  | @advance hn inp hs' pc at_ alive clean hunts pc_ nextHunt task flag =>
    refine h.mono (fun hn' ha => Fresh.alive_update (p := pc) (.inl alive) ?_) task
    exact hunts ▸ ha
  | @vanish hn inp hs' at_ unstarted doomed hunts nextHunt task flag =>
    refine h.mono (fun hn' ha => Fresh.alive_update (h := hn) (.inr rfl) ?_) task
    exact hunts ▸ ha
  | @finish hn inp hs' at_ ending alive hunts nextHunt task flag =>
    have hk := endManualHunt_hunts (e.sched.setHost hs')
    refine h.mono (fun hn' ha => Fresh.alive_update (h := hn) (.inr rfl) ?_) (hk.2.2.trans task)
    exact hunts ▸ hk.1 ▸ ha

end SingleHunt

/-- The condition of this module, as a guard on runs. -/
def Tidy : Machine.Guard Engine Event := fun e ev _ => e.tidy ev = true

/-- **At most one hunt cycle**: in every run whose steps are all tidy, every unfinished hunt
is the one that `self.task` refers to. -/
theorem single_hunt {e e' : Engine} (h₀ : e.Initial) (h : machine.Reaches Tidy e e') :
    e'.SingleHunt :=
  h.invariant h₀.singleHunt (fun _ _ _ hi hs htidy => hi.step hs htidy)

/-- A database maintenance at an await of its executor. -/
def maintaining : List Event := SchedulerEngine.maintenanceRun.map (fun p => .scheduler p.1 p.2)

/-- A manual start interrupts the maintenance, waits for it and starts its hunt. -/
theorem single_hunt_manual :
    ∃ e', machine.Reaches Tidy (prepared [SchedulerEngine.maintenanceSchedule]) e' ∧
      (e'.host.hunts 0).alive = true ∧ e'.SingleHunt := by
  have hrun : ∃ e', machine.Reaches Tidy (prepared [SchedulerEngine.maintenanceSchedule]) e' ∧
      (e'.host.hunts 0).alive = true :=
    Machine.exists_reaches_of_exec (g := fun e ev _ => e.tidy ev)
      (l := maintaining ++ [.manualStart, .manual 0 11 (.alive true),
        .scheduler 12 (.resume 1 (.ended .cancelled)), .scheduler 12 (.resume 1 .wake),
        .manual 0 12 .wake])
      (fun e ev _ (h : e.tidy ev = true) => h) (by decide +kernel)
  obtain ⟨e', he', halive⟩ := hrun
  exact ⟨e', he', halive, single_hunt (prepared_initial _) he'⟩

/-- Two manual starts wait for the same cancelled maintenance; then each starts a hunt. -/
theorem two_hunts :
    ¬ ∀ e e' : Engine, e.Initial → machine.Reaches Machine.anyStep e e' → e'.SingleHunt := by
  intro hall
  have hrun : ∃ e', machine.Reaches Machine.anyStep (prepared [SchedulerEngine.maintenanceSchedule]) e' ∧
      decide ((e'.host.hunts 0).alive = true ∧ e'.host.task = some 1) = true :=
    Machine.exists_reaches_of_exec (g := fun _ _ _ => true)
      (l := maintaining ++ [.manualStart, .manualStart, .manual 0 11 (.alive true),
        .manual 1 11 (.alive true), .scheduler 12 (.resume 1 (.ended .cancelled)),
        .scheduler 12 (.resume 1 .wake), .manual 0 12 .wake, .manual 1 12 .wake])
      (fun _ _ _ _ => trivial) (by decide +kernel)
  obtain ⟨e', he', hend⟩ := hrun
  obtain ⟨halive, htask⟩ := of_decide_eq_true hend
  have hslot := hall _ e' (prepared_initial _) he' 0 halive
  rw [htask] at hslot
  cases hslot

end HuntProxy.Engine
