import HuntProxy.Hunt.Engine
import HuntProxy.Scheduler.Effect

/-!
# What an event does to the hunts

Most events leave the hunt tasks, the slot `self.task` and the flag of the exclusive pause
alone. `Effect` lists what the others do: they interrupt, create, advance or end a hunt,
or bring a call of `manual_start_hunt` to its next await. Invariants about hunts and
pauses are proved from this list, without looking into the coroutines again.

## Main definitions

- `HuntState.HuntsKept` — the frame condition
- `Engine.Effect`, `Engine.step_effect` — the effects of an event
-/

namespace HuntProxy

/-- The next turn of the hunt, with `inp`, runs its `finally`. -/
def HuntTask.ending (t : HuntTask) (inp : CycleInput) : Bool :=
  t.alive && t.pc != .unstarted && (t.cancelRequested || t.pc == .settling || inp == .raised)

/-- The hunts, their slot and the flag of the exclusive pause are the same. -/
structure HuntState.HuntsKept (hs hs' : HuntState) : Prop where
  hunts : hs'.hunts = hs.hunts
  nextHunt : hs'.nextHunt = hs.nextHunt
  task : hs'.task = hs.task
  flag : hs'.schedulerPausedByHunt = hs.schedulerPausedByHunt

namespace HuntState

theorem HuntsKept.refl (hs : HuntState) : hs.HuntsKept hs := ⟨rfl, rfl, rfl, rfl⟩

theorem HuntsKept.trans {hs hs' hs'' : HuntState} (h : hs.HuntsKept hs')
    (h' : hs'.HuntsKept hs'') : hs.HuntsKept hs'' :=
  ⟨h'.hunts.trans h.hunts, h'.nextHunt.trans h.nextHunt, h'.task.trans h.task,
    h'.flag.trans h.flag⟩

theorem Kept.huntsKept {hs hs' : HuntState} (h : hs.Kept hs') : hs.HuntsKept hs' := by
  obtain ⟨_, _, _, rfl⟩ := h
  exact ⟨rfl, rfl, rfl, rfl⟩

theorem Kept.healthRunning {hs hs' : HuntState} (h : hs.Kept hs') :
    hs'.healthRunning = hs.healthRunning := by
  obtain ⟨_, _, _, rfl⟩ := h
  rfl

theorem HuntsKept.taskAlive {hs hs' : HuntState} (h : hs.HuntsKept hs') :
    hs'.taskAlive = hs.taskAlive := by
  rw [HuntState.taskAlive, HuntState.taskAlive, h.task, h.hunts]

/-! ### Health checks and the control methods -/

theorem cancelHealth_kept (hs : HuntState) (k : ℕ) : hs.HuntsKept (hs.cancelHealth k) := by
  unfold cancelHealth
  split <;> exact ⟨rfl, rfl, rfl, rfl⟩

theorem pauseHunt_kept (hs : HuntState) (manual : Bool) :
    hs.HuntsKept (hs.pauseHunt manual).1 := by
  unfold pauseHunt
  split <;> exact ⟨rfl, rfl, rfl, rfl⟩

theorem resumeHunt_kept (hs : HuntState) (manual : Bool) :
    hs.HuntsKept (hs.resumeHunt manual).1 := by
  unfold resumeHunt
  split
  · exact .refl hs
  · split <;> exact ⟨rfl, rfl, rfl, rfl⟩

theorem skipPhase_kept (hs : HuntState) : hs.HuntsKept hs.skipPhase.1 := by
  unfold skipPhase
  split
  · exact .refl hs
  · split <;> exact ⟨rfl, rfl, rfl, rfl⟩

theorem stopHealth_kept (hs : HuntState) : hs.HuntsKept hs.stopHealth := by
  unfold stopHealth
  split
  · exact .refl hs
  · next k _ =>
    have hk := hs.cancelHealth_kept k
    exact ⟨hk.hunts, hk.nextHunt, hk.task, hk.flag⟩

theorem healthEnd_kept (hs : HuntState) (k : ℕ) (saved : HealthSaved) (huntActive : Bool) :
    hs.HuntsKept (hs.healthEnd k saved huntActive) := by
  have hcounters : hs.HuntsKept (hs.restoreCounters saved) := by
    unfold restoreCounters
    split <;> exact ⟨rfl, rfl, rfl, rfl⟩
  unfold healthEnd restoreHealth
  split
  · exact ⟨hcounters.hunts, hcounters.nextHunt, hcounters.task, hcounters.flag⟩
  · exact ⟨hcounters.hunts, hcounters.nextHunt, hcounters.task, hcounters.flag⟩

theorem healthBegin_kept (hs : HuntState) (k : ℕ) (saved : HealthSaved) (huntActive : Bool)
    (candidates : ℕ) : hs.HuntsKept (hs.healthBegin k saved huntActive candidates) := by
  unfold healthBegin
  split
  · have hk := healthEnd_kept { hs with healthRunning := true } k saved huntActive
    exact ⟨hk.hunts, hk.nextHunt, hk.task, hk.flag⟩
  · exact ⟨rfl, rfl, rfl, rfl⟩

theorem healthStep_kept {hs hs' : HuntState} {k candidates : ℕ}
    (h : hs.healthStep k candidates = some hs') : hs.HuntsKept hs' := by
  unfold healthStep at h
  dsimp only at h
  split at h
  · split at h
    · cases h
      exact ⟨rfl, rfl, rfl, rfl⟩
    · split at h <;> cases h
      · have hk := hs.pauseHunt_kept true
        exact ⟨hk.hunts, hk.nextHunt, hk.task, hk.flag⟩
      · exact hs.healthBegin_kept k _ _ candidates
  · split at h <;> cases h
    · exact ⟨rfl, rfl, rfl, rfl⟩
    · exact hs.healthBegin_kept k _ _ candidates
  · cases h
    exact hs.healthEnd_kept k _ _
  · cases h

/-- Stopping and cancelling change the mark of one hunt only. -/
structure Interrupted (hs hs' : HuntState) : Prop where
  hunts : hs'.hunts = hs.cancelTask.hunts
  nextHunt : hs'.nextHunt = hs.nextHunt
  task : hs'.task = hs.task
  flag : hs'.schedulerPausedByHunt = hs.schedulerPausedByHunt

theorem cancelTask_interrupted (hs : HuntState) : hs.Interrupted hs.cancelTask := by
  refine ⟨rfl, ?_, ?_, ?_⟩ <;>
  · unfold cancelTask cancelHunt
    split
    · rfl
    · split <;> rfl

theorem cancelHunt_interrupted {hs hs₁ : HuntState} {h : ℕ} (hk : hs.HuntsKept hs₁)
    (ht : hs.task = some h) : hs.Interrupted (hs₁.cancelHunt h) := by
  have hhunts : (hs₁.cancelHunt h).hunts = (hs.cancelHunt h).hunts := by
    unfold cancelHunt
    rw [hk.hunts]
    split
    · rfl
    · exact hk.hunts
  refine ⟨?_, ?_, ?_, ?_⟩
  · rw [hhunts, cancelTask, ht]
  · rw [← hk.nextHunt]
    unfold cancelHunt
    split <;> rfl
  · rw [← hk.task]
    unfold cancelHunt
    split <;> rfl
  · rw [← hk.flag]
    unfold cancelHunt
    split <;> rfl

/-- A hunt after an interruption: it may have got a cancellation. -/
theorem cancelTask_hunt (hs : HuntState) (h : ℕ) :
    hs.cancelTask.hunts h = hs.hunts h ∨
      hs.task = some h ∧ (hs.hunts h).alive = true ∧
        hs.cancelTask.hunts h = { hs.hunts h with cancelRequested := true } := by
  unfold cancelTask
  split
  · exact .inl rfl
  · next h' ht =>
    unfold cancelHunt
    split
    · next halive =>
      by_cases hh : h = h'
      · subst hh
        exact .inr ⟨ht, halive, by simp⟩
      · exact .inl (by simp [Function.update_of_ne hh])
    · exact .inl rfl

theorem cancelTask_alive (hs : HuntState) (h : ℕ) :
    (hs.cancelTask.hunts h).alive = (hs.hunts h).alive := by
  rcases hs.cancelTask_hunt h with heq | ⟨-, -, heq⟩ <;> rw [heq]
  rfl

theorem Interrupted.alive {hs hs' : HuntState} (h : hs.Interrupted hs') (hn : ℕ) :
    (hs'.hunts hn).alive = (hs.hunts hn).alive := by
  rw [h.hunts, cancelTask_alive]

/-- `start_hunt` is refused or creates a hunt in the slot. -/
inductive Started (hs : HuntState) (manual : Bool) : HuntState × Bool → Prop
  | refused (why : hs.phase ≠ .idle ∧ hs.phase ≠ .done ∨ hs.healthRunning = true) :
      Started hs manual (hs, false)
  | created {hs'} (idle : hs.healthRunning = false)
      (hunts : hs'.hunts = Function.update hs.hunts hs.nextHunt ⟨.unstarted, false, manual⟩)
      (nextHunt : hs'.nextHunt = hs.nextHunt + 1) (task : hs'.task = some hs.nextHunt)
      (flag : hs'.schedulerPausedByHunt = hs.schedulerPausedByHunt) :
      Started hs manual (hs', true)

theorem startHunt_spec (hs : HuntState) (manual : Bool) :
    hs.Started manual (hs.startHunt manual) := by
  unfold startHunt
  split
  · next hphase => exact .refused (.inl hphase)
  · split
    · next hrunning => exact .refused (.inr hrunning)
    · next hrunning => exact .created (Bool.eq_false_iff.mpr hrunning) rfl rfl rfl rfl

end HuntState

namespace SchedulerEngine

/-! ### The scheduler under a manual start -/

/-- A step of the scheduler by itself changes busy flags of the host only. -/
theorem step_host {s s' : SchedulerEngine} {now : Time} {a : Action} (ha : ∀ hs, a ≠ .host hs)
    (hs : s.step (now, a) = some s') : s.state.Kept s'.state := by
  cases a with
  | resume i inp =>
    rcases step_effect hs with ⟨i', inp', s₁, c', heq, hturn, rfl⟩ | ⟨hne, -⟩
    · exact (turn_effect hturn).frame.host
    · exact absurd rfl (hne i inp)
  | host hs' => exact absurd rfl (ha hs')
  | startLoop =>
    cases hs
    unfold startLoop
    split
    · split <;> exact .refl _
    · exact .refl _
  | cancelRunning sid =>
    cases hs
    unfold SchedulerEngine.cancelRunning
    split
    · exact .refl _
    · dsimp only
      split
      · exact .refl _
      · split
        · exact .refl _
        · split <;> exact .refl _
  | addSchedule sid name tt interval config enabled =>
    cases hs
    unfold addSchedule
    split <;> exact .refl _
  | updateSchedule sid f =>
    cases hs
    unfold updateSchedule
    split
    · exact .refl _
    · dsimp only
      split <;> exact .refl _
  | deleteSchedule sid =>
    cases hs
    unfold deleteSchedule
    split <;> exact .refl _
  | toggleSchedule sid =>
    cases hs
    unfold toggleSchedule
    split
    · exact .refl _
    · dsimp only
      split <;> exact .refl _
  | stop => cases hs; exact .refl _
  | trigger sid => cases hs; exact .refl _
  | triggerNow sid => cases hs; exact .refl _
  | cancelAll reason => cases hs; exact .refl _
  | pauseAll => cases hs; exact .refl _
  | resumeAll => cases hs; exact .refl _

theorem resume_host {s s' : SchedulerEngine} {now : Time} {i : TaskId} {inp : Input}
    (h : s.resume now i inp = some s') : s.state.Kept s'.state :=
  step_host (a := .resume i inp) (fun _ => nofun) h

/-- `manual_start_hunt` from the pause of the scheduler to the await in `cancel_all`, with
`hs` for the attributes of the host. -/
def pauseAndCancel (s : SchedulerEngine) (now : Time) (hs : HuntState) : Option SchedulerEngine :=
  (((s.setHost hs).pauseAll).spawn (.cancelAll "manual hunt" .start)).resume now s.nextTask .wake

theorem pauseAndCancel_host {s s' : SchedulerEngine} {now : Time} {hs : HuntState}
    (h : s.pauseAndCancel now hs = some s') : hs.Kept s'.state :=
  resume_host h

/-- The first turn of a `cancel_all`: it comes to its gather unless nothing is registered. -/
structure CancelAllBegun (s : SchedulerEngine) (c : TaskId) (reason : String)
    (s' : SchedulerEngine) : Prop where
  paused : s'.paused = s.paused
  mark : s'.pausedByInternet = s.pausedByInternet
  code : ∀ j, j ≠ c → s'.code j = s.code j
  nextTask : s'.nextTask = s.nextTask
  outcome : s.runningTasks.items = [] ∧ (s'.code c).isDone = true ∨
    s.runningTasks.items ≠ [] ∧ s'.code c = .cancelAll reason (.gather s.runningTasks.items)

theorem cancelAll_begun {s s' : SchedulerEngine} {now : Time} {c : TaskId} {reason : String}
    (hc : s.tasks c = ⟨.cancelAll reason .start, false⟩) (h : s.resume now c .wake = some s') :
    s.CancelAllBegun c reason s' := by
  simp only [resume, turn, hc, Bool.false_and, Bool.false_eq_true, if_false, codeStep, Code.drain?,
    if_true, cancelAllStep, Option.map_eq_some_iff] at h
  obtain ⟨⟨s₁, c'⟩, h, rfl⟩ := h
  have hcancel := code_cancelTasks { s with queue := .empty } (s.runningTasks.items.map Prod.snd)
  split at h
  · next hitems =>
    cases h
    have hk := markCancelled_kept ({ ({ s with queue := .empty } : SchedulerEngine).cancelTasks
      (s.runningTasks.items.map Prod.snd) with runningTasks := .empty } : SchedulerEngine) now reason
    refine ⟨hk.paused, hk.pausedByInternet, fun j hj => ?_, hk.nextTask, .inl ⟨hitems, ?_⟩⟩
    · rw [code_setCode, if_neg hj]
      exact (hk.code j).trans (hcancel j)
    · rw [code_setCode, if_pos rfl]
      rfl
  · next hitems =>
    cases h
    refine ⟨rfl, rfl, fun j hj => ?_, rfl, .inr ⟨hitems, ?_⟩⟩
    · rw [code_setCode, if_neg hj]
      exact hcancel j
    · rw [code_setCode, if_pos rfl]

/-- What `manual_start_hunt` has done to the scheduler when it comes to its await in
`cancel_all`, or past it. -/
structure Interrupting (s s' : SchedulerEngine) : Prop where
  paused : s'.paused = true
  mark : s'.pausedByInternet = s.pausedByInternet
  code : ∀ j, j ≠ s.nextTask → s'.code j = s.code j
  nextTask : s'.nextTask = s.nextTask + 1
  outcome : s.runningTasks.items = [] ∧ (s'.code s.nextTask).isDone = true ∨
    s.runningTasks.items ≠ [] ∧ s'.code s.nextTask =
      .cancelAll "manual hunt" (.gather s.runningTasks.items)

theorem pauseAndCancel_spec {s s' : SchedulerEngine} {now : Time} {hs : HuntState}
    (h : s.pauseAndCancel now hs = some s') : s.Interrupting s' := by
  have hnew : (((s.setHost hs).pauseAll).spawn (.cancelAll "manual hunt" .start)).tasks
      s.nextTask = ⟨.cancelAll "manual hunt" .start, false⟩ := Function.update_self ..
  have hb := cancelAll_begun hnew h
  refine ⟨hb.paused, hb.mark, fun j hj => ?_, hb.nextTask, hb.outcome⟩
  rw [hb.code j hj, code_spawn]
  exact if_neg hj

/-- The outcomes of `manual_start_hunt` after its `cancel_all`: a health check that has
begun meanwhile makes `start_hunt` refuse. -/
inductive Begun (s : SchedulerEngine) : SchedulerEngine × ManualPc → Prop
  | refused {hs} (running : s.state.healthRunning = true) (hunts : hs.hunts = s.state.hunts)
      (nextHunt : hs.nextHunt = s.state.nextHunt) (task : hs.task = s.state.task)
      (flag : hs.schedulerPausedByHunt = true) : Begun s (s.setHost hs, .returned none)
  | created {hs} (idle : s.state.healthRunning = false)
      (hunts : hs.hunts =
        Function.update s.state.hunts s.state.nextHunt ⟨.unstarted, false, true⟩)
      (nextHunt : hs.nextHunt = s.state.nextHunt + 1) (task : hs.task = some s.state.nextHunt)
      (flag : hs.schedulerPausedByHunt = true) :
      Begun s (s.setHost hs, .returned (some s.state.nextHunt))

theorem manualBegin_spec (s : SchedulerEngine) : Begun s s.manualBegin := by
  have hstart := s.state.resetForHunt.startHunt_spec true
  unfold manualBegin
  generalize s.state.resetForHunt.startHunt true = started at hstart
  cases hstart with
  | refused why =>
    rcases why with ⟨hidle, -⟩ | hrunning
    · exact absurd rfl hidle
    · exact .refused hrunning rfl rfl rfl rfl
  | created idle hunts nextHunt task flag => exact .created idle hunts nextHunt task flag

end SchedulerEngine

namespace Engine

/-- Call `m` has come to `pc`, with `s` for the scheduler. -/
def moved (e : Engine) (m : ℕ) (s : SchedulerEngine) (pc : ManualPc) : Engine :=
  { e with sched := s, calls := Function.update e.calls m pc }

@[simp] theorem host_setHost (e : Engine) (hs : HuntState) : (e.setHost hs).host = hs := rfl

@[simp] theorem calls_moved (e : Engine) (m m' : ℕ) (s : SchedulerEngine) (pc : ManualPc) :
    (e.moved m s pc).calls m' = if m' = m then pc else e.calls m' :=
  Function.update_apply ..

@[simp] theorem calls_addCall (e : Engine) (m' : ℕ) :
    e.addCall.calls m' = if m' = e.nextCall then .internet else e.calls m' :=
  Function.update_apply ..

@[simp] theorem host_moved (e : Engine) (m : ℕ) (s : SchedulerEngine) (pc : ManualPc) :
    (e.moved m s pc).host = s.state := rfl

/-- Releasing the exclusive pause touches the flag and the scheduler's pause only. -/
theorem endManualHunt_cases (s : SchedulerEngine) :
    s.state.schedulerPausedByHunt = false ∧ s.endManualHunt = s ∨
      s.state.schedulerPausedByHunt = true ∧ s.endManualHunt =
        (s.setHost { s.state with schedulerPausedByHunt := false }).resumeAll := by
  unfold SchedulerEngine.endManualHunt
  cases hflag : s.state.schedulerPausedByHunt with
  | true => exact .inr ⟨rfl, rfl⟩
  | false => exact .inl ⟨rfl, rfl⟩

theorem endManualHunt_hunts (s : SchedulerEngine) :
    s.endManualHunt.state.hunts = s.state.hunts ∧
      s.endManualHunt.state.nextHunt = s.state.nextHunt ∧
      s.endManualHunt.state.task = s.state.task := by
  rcases endManualHunt_cases s with ⟨-, heq⟩ | ⟨-, heq⟩ <;> rw [heq] <;> exact ⟨rfl, rfl, rfl⟩

/-- A step that the scheduler takes by itself changes busy flags of the host only. -/
theorem offered_host {e : Engine} {now : Time} {a : Action} {s' : SchedulerEngine}
    (hoffered : e.offered a = true) (hs : e.sched.step (now, a) = some s') :
    e.host.Kept s'.state := by
  refine SchedulerEngine.step_host (fun hs' ha => ?_) hs
  rw [ha] at hoffered
  cases hoffered

/-- The turn of call `m` comes to the pause of the scheduler. -/
def pausesNow (e : Engine) (m : ℕ) (inp : Input) : Bool :=
  match e.calls m, inp with
  | .internet, .alive true => !e.host.healthTaskAlive && !e.host.taskAlive
  | .health _, .wake => !e.host.taskAlive
  | .hunt _, .wake => true
  | _, _ => false

/-- A call at `pc` is about to pause the scheduler, with `hs₁` for the attributes: the slot
is empty. A call that waited for a hunt does not look at the slot again, nor at the
health check. -/
structure Ready (hs hs₁ : HuntState) (pc : ManualPc) : Prop where
  hunts : hs₁.hunts = hs.hunts
  nextHunt : hs₁.nextHunt = hs.nextHunt
  task : hs₁.task = none
  flag : hs₁.schedulerPausedByHunt = hs.schedulerPausedByHunt
  waited : (∃ h, pc = .hunt h ∧ (hs.hunts h).alive = false ∧
      hs₁.healthRunning = hs.healthRunning) ∨
    (pc = .internet ∨ ∃ k, pc = .health k) ∧ hs.taskAlive = false ∧ hs₁.healthRunning = false

/-- The effects of an event. -/
inductive Effect (e : Engine) (ev : Event) : Engine → Prop
  /-- The scheduler takes a step of its own. -/
  | sched {now a s'} (at_ : ev = .scheduler now a) (offered : e.offered a = true)
      (step : e.sched.step (now, a) = some s') : Effect e ev { e with sched := s' }
  | userPause (at_ : ev = .userPause) : Effect e ev { e with sched := e.sched.pauseAll }
  | userResume (at_ : ev = .userResume) : Effect e ev { e with sched := e.sched.resumeAll }
  /-- Other attributes change. -/
  | host {hs} (kept : e.host.HuntsKept hs) (other : ∀ m now inp, ev ≠ .manual m now inp) :
      Effect e ev (e.setHost hs)
  | called (at_ : ev = .manualStart) : Effect e ev e.addCall
  /-- A call is refused, or begins to wait for the health check. -/
  | call {m now inp pc hs} (at_ : ev = .manual m now inp) (before : e.calls m = .internet)
      (after : pc = .returned none ∨ ∃ k, pc = .health k) (kept : e.host.HuntsKept hs)
      (quiet : e.pausesNow m inp = false) : Effect e ev (e.moved m (e.sched.setHost hs) pc)
  /-- A call cancels the hunt in the slot. -/
  | interrupt {m now inp h hs} (at_ : ev = .manual m now inp)
      (before : e.calls m = .internet ∨ ∃ k, e.calls m = .health k)
      (task : e.host.task = some h) (alive : (e.host.hunts h).alive = true)
      (interrupted : e.host.Interrupted hs) (quiet : e.pausesNow m inp = false) :
      Effect e ev (e.moved m (e.sched.setHost hs) (.hunt h))
  /-- A call pauses the scheduler and waits for the runs it has cancelled. -/
  | pause {m now inp hs s'} (at_ : ev = .manual m now inp) (ready : Ready e.host hs (e.calls m))
      (pauses : e.pausesNow m inp = true) (run : e.sched.pauseAndCancel now hs = some s')
      (waits : (s'.code e.sched.nextTask).isDone = false) :
      Effect e ev (e.moved m s' (.cancelling e.sched.nextTask))
  /-- A call pauses the scheduler, has nothing to wait for and goes on. -/
  | pauseBegin {m now inp hs s' q} (at_ : ev = .manual m now inp)
      (ready : Ready e.host hs (e.calls m)) (pauses : e.pausesNow m inp = true)
      (run : e.sched.pauseAndCancel now hs = some s')
      (done : (s'.code e.sched.nextTask).isDone = true) (begun : s'.Begun q) :
      Effect e ev (e.moved m q.1 q.2)
  /-- The runs that a call has cancelled have ended, and the call goes on. -/
  | waitBegin {m now inp c s' q} (at_ : ev = .manual m now inp)
      (before : e.calls m = .cancelling c) (run : e.sched.resume now c .wake = some s')
      (begun : s'.Begun q) : Effect e ev (e.moved m q.1 q.2)
  /-- The hunt in the slot is stopped; a startup hunt is refused after that only when a
  health check is running. -/
  | stop {hs} (interrupted : e.host.Interrupted hs)
      (at_ : ev = .control .stopHunt ∨
        ev = .control .startupHunt ∧ e.host.healthRunning = true) :
      Effect e ev (e.setHost hs)
  /-- A hunt is started directly; a startup hunt stops the hunt in the slot first. -/
  | start {hs base} (at_ : ev = .control .startHunt ∧ base = e.host.hunts ∨
        ev = .control .startupHunt ∧ base = e.host.cancelTask.hunts)
      (idle : e.host.healthRunning = false)
      (hunts : hs.hunts = Function.update base e.host.nextHunt ⟨.unstarted, false, false⟩)
      (nextHunt : hs.nextHunt = e.host.nextHunt + 1) (task : hs.task = some e.host.nextHunt)
      (flag : hs.schedulerPausedByHunt = e.host.schedulerPausedByHunt)
      (accepted : (ev = .control .startHunt → (e.host.startHunt false).2 = true)) :
      Effect e ev (e.setHost hs)
  /-- A hunt comes to its next phase. -/
  | advance {h inp hs pc} (at_ : ev = .cycle h inp) (alive : (e.host.hunts h).alive = true)
      (clean : (e.host.hunts h).cancelRequested = false)
      (hunts : hs.hunts = Function.update e.host.hunts h { e.host.hunts h with pc := pc })
      (pc_ : pc ≠ .unstarted ∧ pc ≠ .finished) (nextHunt : hs.nextHunt = e.host.nextHunt)
      (task : hs.task = e.host.task)
      (flag : hs.schedulerPausedByHunt = e.host.schedulerPausedByHunt) :
      Effect e ev (e.setHost hs)
  /-- A hunt that was cancelled before its first step ends without its `finally`. -/
  | vanish {h inp hs} (at_ : ev = .cycle h inp) (unstarted : (e.host.hunts h).pc = .unstarted)
      (doomed : (e.host.hunts h).cancelRequested = true)
      (hunts : hs.hunts =
        Function.update e.host.hunts h { e.host.hunts h with pc := .finished })
      (nextHunt : hs.nextHunt = e.host.nextHunt) (task : hs.task = e.host.task)
      (flag : hs.schedulerPausedByHunt = e.host.schedulerPausedByHunt) :
      Effect e ev (e.setHost hs)
  /-- A hunt ends and releases the exclusive pause. -/
  | finish {h inp hs} (at_ : ev = .cycle h inp) (ending : (e.host.hunts h).ending inp = true)
      (alive : (e.host.hunts h).alive = true)
      (hunts : hs.hunts =
        Function.update e.host.hunts h { e.host.hunts h with pc := .finished })
      (nextHunt : hs.nextHunt = e.host.nextHunt) (task : hs.task = e.host.task)
      (flag : hs.schedulerPausedByHunt = e.host.schedulerPausedByHunt) :
      Effect e ev { e with sched := (e.sched.setHost hs).endManualHunt }

theorem manualPause_effect {e : Engine} {m : ℕ} {now : Time} {inp : Input} {hs : HuntState}
    {q : SchedulerEngine × ManualPc} (hready : Ready e.host { hs with task := none } (e.calls m))
    (hpauses : e.pausesNow m inp = true) (h : (e.sched.setHost hs).manualPause now = some q) :
    Effect e (.manual m now inp) (e.moved m q.1 q.2) := by
  simp only [SchedulerEngine.manualPause, Option.map_eq_some_iff] at h
  obtain ⟨s', hrun, h⟩ := h
  have hrun : e.sched.pauseAndCancel now { hs with task := none } = some s' := hrun
  split at h
  · next hdone =>
    subst h
    exact .pauseBegin rfl hready hpauses hrun hdone s'.manualBegin_spec
  · next hwaits =>
    subst h
    exact .pause rfl hready hpauses hrun (Bool.eq_false_iff.mpr hwaits)

theorem manualInterrupt_effect {e : Engine} {m : ℕ} {now : Time} {inp : Input}
    {q : SchedulerEngine × ManualPc} (hpc : e.calls m = .internet ∨ ∃ k, e.calls m = .health k)
    (hpauses : e.pausesNow m inp = !e.host.taskAlive)
    (h : e.sched.manualInterrupt now = some q) :
    Effect e (.manual m now inp) (e.moved m q.1 q.2) := by
  have hkept : e.host.HuntsKept { e.host with healthTask := none, healthRunning := false } :=
    ⟨rfl, rfl, rfl, rfl⟩
  have hready : e.host.taskAlive = false → Ready e.host
      { { e.host with healthTask := none, healthRunning := false } with task := none }
      (e.calls m) := fun hdead => ⟨rfl, rfl, rfl, rfl, .inr ⟨hpc, hdead, rfl⟩⟩
  simp only [SchedulerEngine.manualInterrupt] at h
  split at h
  · next hn htask =>
    have htask : e.host.task = some hn := htask
    split at h
    · next halive =>
      cases h
      have hslot : e.host.taskAlive = true := by
        rw [HuntState.taskAlive, htask]
        exact halive
      have hquiet : e.pausesNow m inp = false := by
        rw [hpauses, hslot]
        rfl
      exact .interrupt rfl hpc htask halive (HuntState.cancelHunt_interrupted hkept htask) hquiet
    · next hdead =>
      have hslot : e.host.taskAlive = false := by
        rw [HuntState.taskAlive, htask]
        exact Bool.eq_false_iff.mpr hdead
      exact manualPause_effect (hready hslot) (by rw [hpauses, hslot]; rfl) h
  · next htask =>
    have htask : e.host.task = none := htask
    have hslot : e.host.taskAlive = false := by rw [HuntState.taskAlive, htask]
    exact manualPause_effect (hready hslot) (by rw [hpauses, hslot]; rfl) h

theorem manualStep_effect {e : Engine} {m : ℕ} {now : Time} {inp : Input}
    {q : SchedulerEngine × ManualPc} (h : e.sched.manualStep now (e.calls m) inp = some q) :
    Effect e (.manual m now inp) (e.moved m q.1 q.2) := by
  cases hpc : e.calls m with
  | internet =>
    rw [hpc] at h
    cases inp with
    | alive verdict =>
      simp only [SchedulerEngine.manualStep] at h
      split at h
      · next hverdict =>
        subst hverdict
        -- the call pauses at once, unless a health check or a hunt has to end first
        have hpauses : e.pausesNow m (.alive true) =
            (!e.host.healthTaskAlive && !e.host.taskAlive) := by
          simp only [pausesNow, hpc]
        split at h
        · next k htask =>
          have htask : e.host.healthTask = some k := htask
          split at h
          · next halive =>
            cases h
            have hhealth : e.host.healthTaskAlive = true := by
              rw [HuntState.healthTaskAlive, htask]
              exact halive
            exact .call rfl hpc (.inr ⟨k, rfl⟩) (e.host.cancelHealth_kept k)
              (by rw [hpauses, hhealth]; rfl)
          · next hdead =>
            have hhealth : e.host.healthTaskAlive = false := by
              rw [HuntState.healthTaskAlive, htask]
              exact Bool.eq_false_iff.mpr hdead
            exact manualInterrupt_effect (.inl hpc) (by rw [hpauses, hhealth]; rfl) h
        · next htask =>
          have htask : e.host.healthTask = none := htask
          have hhealth : e.host.healthTaskAlive = false := by rw [HuntState.healthTaskAlive, htask]
          exact manualInterrupt_effect (.inl hpc) (by rw [hpauses, hhealth]; rfl) h
      · next hverdict =>
        cases h
        refine .call rfl hpc (.inl rfl) (.refl e.host) ?_
        cases verdict with
        | true => exact absurd rfl hverdict
        | false => simp only [pausesNow, hpc]
    | _ => cases h
  | health k =>
    rw [hpc] at h
    cases inp with
    | wake =>
      simp only [SchedulerEngine.manualStep] at h
      split at h
      · cases h
      · exact manualInterrupt_effect (.inr ⟨k, hpc⟩) (by simp only [pausesNow, hpc]) h
    | _ => cases h
  | hunt hn =>
    rw [hpc] at h
    cases inp with
    | wake =>
      simp only [SchedulerEngine.manualStep] at h
      split at h
      · cases h
      · next hdead =>
        have h : (e.sched.setHost e.host).manualPause now = some q := h
        refine manualPause_effect ?_ (by simp [pausesNow, hpc]) h
        exact ⟨rfl, rfl, rfl, rfl, .inl ⟨hn, hpc, Bool.eq_false_iff.mpr hdead, rfl⟩⟩
    | _ => cases h
  | cancelling c =>
    rw [hpc] at h
    cases inp with
    | wake =>
      simp only [SchedulerEngine.manualStep, Option.map_eq_some_iff] at h
      obtain ⟨s', hrun, rfl⟩ := h
      exact .waitBegin rfl hpc hrun s'.manualBegin_spec
    | _ => cases h
  | returned hunt =>
    rw [hpc] at h
    cases inp <;> cases h

/-- The turns of a hunt cycle. -/
theorem cycle_effect {e : Engine} {h : ℕ} {inp : CycleInput} {q : HuntState × Bool}
    (hstep : e.host.cycleStep h inp = some q) :
    Effect e (.cycle h inp)
      (if q.2 then { e with sched := (e.sched.setHost q.1).endManualHunt } else e.setHost q.1) := by
  have halive : (e.host.hunts h).pc ≠ .finished → (e.host.hunts h).alive = true := fun hne => by
    simpa [HuntTask.alive] using hne
  unfold HuntState.cycleStep at hstep
  dsimp only at hstep
  split at hstep
  · next hcancel =>
    split at hstep
    · cases hstep
    · next hpc =>
      cases hstep
      -- a task that is cancelled before its first step runs no line of the cycle
      exact .vanish rfl hpc hcancel rfl rfl rfl rfl
    · next hne hstarted =>
      cases hstep
      refine .finish rfl ?_ (halive hne) rfl rfl rfl rfl
      have hstarted : (e.host.hunts h).pc ≠ .unstarted := hstarted
      simp [HuntTask.ending, halive hne, hcancel, hstarted]
  · next hclean =>
    have hclean : (e.host.hunts h).cancelRequested = false := Bool.eq_false_iff.mpr hclean
    -- however the body of the cycle ends, its `finally` ends the manual hunt
    have hfinish : (e.host.hunts h).ending inp = true →
        Effect e (.cycle h inp)
          { e with sched := (e.sched.setHost
            ({ e.host with phase := .done }.cycleEnd h)).endManualHunt } := fun hending => by
      have hlive : (e.host.hunts h).alive = true := by
        simp only [HuntTask.ending, Bool.and_eq_true] at hending
        exact hending.1.1
      exact .finish rfl hending hlive rfl rfl rfl rfl
    cases hpc : (e.host.hunts h).pc with
    | unstarted =>
      rw [hpc] at hstep
      cases inp with
      | done count sources =>
        cases hstep
        exact .advance rfl (halive (by rw [hpc]; decide)) hclean rfl ⟨by decide, by decide⟩
          rfl rfl rfl
      | raised => cases hstep
    | downloading =>
      rw [hpc] at hstep
      cases inp with
      | done count sources =>
        cases hstep
        exact .advance rfl (halive (by rw [hpc]; decide)) hclean rfl ⟨by decide, by decide⟩
          rfl rfl rfl
      | raised =>
        cases hstep
        exact hfinish (by simp [HuntTask.ending, HuntTask.alive, hpc])
    | blacklists =>
      rw [hpc] at hstep
      cases inp with
      | done count sources =>
        cases hstep
        exact .advance rfl (halive (by rw [hpc]; decide)) hclean rfl ⟨by decide, by decide⟩
          rfl rfl rfl
      | raised =>
        cases hstep
        exact hfinish (by simp [HuntTask.ending, HuntTask.alive, hpc])
    | validating =>
      rw [hpc] at hstep
      cases inp with
      | done count sources =>
        cases hstep
        exact .advance rfl (halive (by rw [hpc]; decide)) hclean rfl ⟨by decide, by decide⟩
          rfl rfl rfl
      | raised =>
        cases hstep
        exact hfinish (by simp [HuntTask.ending, HuntTask.alive, hpc])
    | settling =>
      rw [hpc] at hstep
      cases inp with
      | done count sources =>
        dsimp only at hstep
        split at hstep <;> cases hstep
        exact hfinish (by simp [HuntTask.ending, HuntTask.alive, hpc])
      | raised => cases hstep
    | finished =>
      rw [hpc] at hstep
      cases inp <;> cases hstep

/-- A startup hunt stops the hunt in the slot and starts its own. -/
theorem startupHunt_effect (e : Engine) :
    Effect e (.control .startupHunt) (e.setHost e.host.startupHunt) := by
  -- stopping a hunt that has ended does nothing to the hunts
  have hstopped : (if e.host.taskAlive = true then e.host.stopHunt else e.host).hunts =
      e.host.cancelTask.hunts := by
    split
    · rfl
    · next hdead =>
      unfold HuntState.cancelTask HuntState.cancelHunt
      unfold HuntState.taskAlive at hdead
      split
      · rfl
      · next h htask =>
        rw [htask] at hdead
        rw [if_neg hdead]
  have hk := e.host.cancelTask_interrupted
  have hrest : e.host.Interrupted (if e.host.taskAlive = true then e.host.stopHunt else e.host) := by
    refine ⟨hstopped, ?_, ?_, ?_⟩ <;> split
    · exact hk.nextHunt
    · rfl
    · exact hk.task
    · rfl
    · exact hk.flag
    · rfl
  have hhealth : (if e.host.taskAlive = true then e.host.stopHunt else e.host).healthRunning =
      e.host.healthRunning := by
    split
    · unfold HuntState.stopHunt HuntState.cancelTask HuntState.cancelHunt
      dsimp only
      split
      · rfl
      · split <;> rfl
    · rfl
  unfold HuntState.startupHunt
  dsimp only
  generalize (if e.host.taskAlive = true then e.host.stopHunt else e.host) = stopped at *
  have hstart := ({ stopped with phase := .idle } : HuntState).startHunt_spec false
  generalize ({ stopped with phase := .idle } : HuntState).startHunt false = q at hstart
  cases hstart with
  | refused why =>
    rcases why with ⟨hidle, -⟩ | hrunning
    · exact absurd rfl hidle
    · refine .stop ⟨hstopped, hrest.nextHunt, hrest.task, hrest.flag⟩ (.inr ⟨rfl, ?_⟩)
      exact hhealth.symm.trans hrunning
  | created idle hunts nextHunt task flag =>
    refine .start (.inr ⟨rfl, rfl⟩) (hhealth.symm.trans idle) ?_ ?_ ?_ ?_ nofun
    · rw [← hstopped, ← hrest.nextHunt]
      exact hunts
    · rw [← hrest.nextHunt]
      exact nextHunt
    · rw [← hrest.nextHunt]
      exact task
    · exact flag.trans hrest.flag

theorem control_effect {e : Engine} {c : Control} {hs : HuntState}
    (h : e.host.control c = some hs) : Effect e (.control c) (e.setHost hs) := by
  cases c with
  | startHunt =>
    cases h
    have hstart := e.host.startHunt_spec false
    generalize hq : e.host.startHunt false = q at hstart
    cases hstart with
    | refused why => exact .host (.refl e.host) (fun _ _ _ => nofun)
    | created idle hunts nextHunt task flag =>
      exact .start (.inl ⟨rfl, rfl⟩) idle hunts nextHunt task flag (fun _ => by rw [hq])
  | stopHunt =>
    cases h
    have hk := e.host.cancelTask_interrupted
    exact .stop ⟨rfl, hk.nextHunt, hk.task, hk.flag⟩ (.inl rfl)
  | pauseHunt manual => cases h; exact .host (e.host.pauseHunt_kept manual) (fun _ _ _ => nofun)
  | resumeHunt manual => cases h; exact .host (e.host.resumeHunt_kept manual) (fun _ _ _ => nofun)
  | skipPhase => cases h; exact .host e.host.skipPhase_kept (fun _ _ _ => nofun)
  | healthStart =>
    simp only [HuntState.control] at h
    split at h <;> cases h
    · exact .host (.refl e.host) (fun _ _ _ => nofun)
    · exact .host ⟨rfl, rfl, rfl, rfl⟩ (fun _ _ _ => nofun)
  | healthStop =>
    simp only [HuntState.control] at h
    split at h <;> cases h
    · exact .host e.host.stopHealth_kept (fun _ _ _ => nofun)
    · exact .host (.refl e.host) (fun _ _ _ => nofun)
  | healthRun candidates =>
    have hspawn : e.host.HuntsKept e.host.spawnHealth := ⟨rfl, rfl, rfl, rfl⟩
    exact .host (hspawn.trans (HuntState.healthStep_kept h)) (fun _ _ _ => nofun)
  | cancelHealth k => cases h; exact .host (e.host.cancelHealth_kept k) (fun _ _ _ => nofun)
  | startupBegin =>
    simp only [HuntState.control] at h
    split at h <;> cases h
    exact .host ⟨rfl, rfl, rfl, rfl⟩ (fun _ _ _ => nofun)
  | startupHunt =>
    simp only [HuntState.control] at h
    split at h <;> cases h
    exact startupHunt_effect e
  | startupEnd =>
    simp only [HuntState.control] at h
    split at h <;> cases h
    exact .host ⟨rfl, rfl, rfl, rfl⟩ (fun _ _ _ => nofun)
  | progress new => cases h; exact .host ⟨rfl, rfl, rfl, rfl⟩ (fun _ _ _ => nofun)

/-- **The effects of an event.** -/
theorem step_effect {e e' : Engine} {ev : Event} (h : e.step ev = some e') : Effect e ev e' := by
  cases ev with
  | scheduler now a =>
    simp only [step] at h
    split at h
    · next hoffered =>
      simp only [Option.map_eq_some_iff] at h
      obtain ⟨s', hs, rfl⟩ := h
      exact .sched rfl hoffered hs
    · cases h
  | userPause => cases h; exact .userPause rfl
  | userResume => cases h; exact .userResume rfl
  | manualStart => cases h; exact .called rfl
  | manual m now inp =>
    simp only [step, Option.map_eq_some_iff] at h
    obtain ⟨q, hq, rfl⟩ := h
    exact manualStep_effect hq
  | cycle hn inp =>
    simp only [step, Option.map_eq_some_iff] at h
    obtain ⟨q, hq, rfl⟩ := h
    exact cycle_effect hq
  | health k candidates =>
    simp only [step, Option.map_eq_some_iff] at h
    obtain ⟨hs, hk, rfl⟩ := h
    exact .host (HuntState.healthStep_kept hk) (fun _ _ _ => nofun)
  | control c =>
    simp only [step, Option.map_eq_some_iff] at h
    obtain ⟨hs, hc, rfl⟩ := h
    exact control_effect hc

/-! ### What is yet to be created -/

/-- Calls, hunts and scheduler tasks that are yet to be created have nothing under way. -/
structure Fresh (e : Engine) : Prop where
  calls : ∀ m, e.nextCall ≤ m → (e.calls m).inProgress = false
  hunts : ∀ h, e.host.nextHunt ≤ h → (e.host.hunts h).alive = false
  sched : e.sched.Fresh

theorem Initial.fresh {e : Engine} (h : e.Initial) : e.Fresh :=
  ⟨fun m _ => h.calls m, fun hn _ => h.hunts hn, h.sched.fresh⟩

/-- Replacing the host, the pause or the flag creates no task. -/
theorem fresh_congr {s s' : SchedulerEngine} (h : s.Fresh) (htasks : s'.tasks = s.tasks)
    (hnext : s'.nextTask = s.nextTask) : s'.Fresh := by
  intro j hj
  rw [hnext] at hj
  rw [SchedulerEngine.code_congr htasks]
  exact h j hj

theorem endManualHunt_fresh {s : SchedulerEngine} (h : s.Fresh) : s.endManualHunt.Fresh := by
  rcases endManualHunt_cases s with ⟨-, heq⟩ | ⟨-, heq⟩ <;> rw [heq]
  · exact h
  · exact fresh_congr h rfl rfl

theorem interrupting_fresh {s s' : SchedulerEngine} (h : s.Fresh) (hi : s.Interrupting s') :
    s'.Fresh := by
  intro j hj
  rw [hi.nextTask] at hj
  have hlt : s.nextTask < j := hj
  rw [hi.code j hlt.ne']
  exact h j hlt.le

theorem begun_fresh {s : SchedulerEngine} {q : SchedulerEngine × ManualPc} (h : s.Fresh)
    (hq : s.Begun q) : q.1.Fresh := by
  cases hq <;> exact fresh_congr h rfl rfl

namespace Fresh

variable {e e' : Engine}

/-- A call in progress has been created. -/
theorem call_lt (h : e.Fresh) {m : ℕ} (hm : (e.calls m).inProgress = true) : m < e.nextCall := by
  by_contra hle
  rw [h.calls m (Nat.le_of_not_lt hle)] at hm
  cases hm

/-- An unfinished hunt has been created. -/
theorem hunt_lt (h : e.Fresh) {hn : ℕ} (halive : (e.host.hunts hn).alive = true) :
    hn < e.host.nextHunt := by
  by_contra hle
  rw [h.hunts hn (Nat.le_of_not_lt hle)] at halive
  cases halive

/-- Nobody is called before it is created. -/
theorem calls_moved (h : e.Fresh) {m : ℕ} {pc : ManualPc} (hm : (e.calls m).inProgress = true)
    (m' : ℕ) (hm' : e.nextCall ≤ m') :
    (Function.update e.calls m pc m').inProgress = false := by
  rw [Function.update_of_ne ((h.call_lt hm).trans_le hm').ne']
  exact h.calls m' hm'

/-- Hunts may be interrupted, advanced or ended without being created. -/
theorem hunts_mono (h : e.Fresh) {hs : HuntState} (hnext : hs.nextHunt = e.host.nextHunt)
    (halive : ∀ hn, (hs.hunts hn).alive = true → (e.host.hunts hn).alive = true) (hn : ℕ)
    (hle : hs.nextHunt ≤ hn) : (hs.hunts hn).alive = false := by
  by_contra ha
  have hold := h.hunts hn (hnext ▸ hle)
  rw [halive hn (by simpa using ha)] at hold
  cases hold

/-- The next hunt is created. -/
theorem hunts_create (h : e.Fresh) {hs : HuntState} {base : ℕ → HuntTask} {t : HuntTask}
    (hnext : hs.nextHunt = e.host.nextHunt + 1)
    (hhunts : hs.hunts = Function.update base e.host.nextHunt t)
    (hbase : ∀ hn, (base hn).alive = (e.host.hunts hn).alive) (hn : ℕ)
    (hle : hs.nextHunt ≤ hn) : (hs.hunts hn).alive = false := by
  rw [hnext] at hle
  have hlt : e.host.nextHunt < hn := hle
  rw [hhunts, Function.update_of_ne hlt.ne', hbase]
  exact h.hunts hn hlt.le

theorem begun (h : e.Fresh) {s : SchedulerEngine} {q : SchedulerEngine × ManualPc} {m : ℕ}
    (hm : (e.calls m).inProgress = true) (hhunts : s.state.hunts = e.host.hunts)
    (hnext : s.state.nextHunt = e.host.nextHunt) (hs : s.Fresh) (hq : s.Begun q) :
    (e.moved m q.1 q.2).Fresh := by
  refine ⟨h.calls_moved hm, ?_, begun_fresh hs hq⟩
  cases hq with
  | refused running hunts nextHunt task flag =>
    exact h.hunts_mono (nextHunt.trans hnext) (fun hn ha => hhunts ▸ hunts ▸ ha)
  | created idle hunts nextHunt task flag =>
    rw [hhunts, hnext] at hunts
    rw [hnext] at nextHunt
    exact h.hunts_create nextHunt hunts (fun _ => rfl)

/-- A hunt at another program point is unfinished only if it was. -/
theorem alive_update {hunts : ℕ → HuntTask} {h hn : ℕ} {p : HuntPc}
    (hpc : (hunts h).alive = true ∨ p = .finished)
    (halive : (Function.update hunts h { hunts h with pc := p } hn).alive = true) :
    (hunts hn).alive = true := by
  by_cases hh : hn = h
  · subst hh
    rcases hpc with hpc | rfl
    · exact hpc
    · rw [Function.update_self] at halive
      cases halive
  · rwa [Function.update_of_ne hh] at halive

theorem ready_inProgress {hs hs₁ : HuntState} {pc : ManualPc} (h : Ready hs hs₁ pc) :
    pc.inProgress = true := by
  rcases h.waited with ⟨_, rfl, -⟩ | ⟨rfl | ⟨_, rfl⟩, -⟩ <;> rfl

/-- **Step lemma**: nothing is under way before it is created. -/
theorem step {ev : Event} (h : e.Fresh) (hs : e.step ev = some e') : e'.Fresh := by
  cases step_effect hs with
  | @sched now a s' at_ offered step =>
    have hk := (offered_host offered step).huntsKept
    exact ⟨h.calls, h.hunts_mono hk.nextHunt (fun hn ha => hk.hunts ▸ ha), h.sched.step step⟩
  | userPause => exact ⟨h.calls, h.hunts, fresh_congr h.sched rfl rfl⟩
  | userResume => exact ⟨h.calls, h.hunts, fresh_congr h.sched rfl rfl⟩
  | host kept =>
    exact ⟨h.calls, h.hunts_mono kept.nextHunt (fun hn ha => kept.hunts ▸ ha),
      fresh_congr h.sched rfl rfl⟩
  | called at_ =>
    refine ⟨fun m hm => ?_, h.hunts, h.sched⟩
    have hlt : e.nextCall < m := hm
    rw [calls_addCall, if_neg hlt.ne']
    exact h.calls m hlt.le
  | call at_ before after kept =>
    exact ⟨h.calls_moved (by rw [before]; rfl),
      h.hunts_mono kept.nextHunt (fun hn ha => kept.hunts ▸ ha), fresh_congr h.sched rfl rfl⟩
  | interrupt at_ before task alive interrupted =>
    refine ⟨h.calls_moved ?_, h.hunts_mono interrupted.nextHunt
      (fun hn ha => interrupted.alive hn ▸ ha), fresh_congr h.sched rfl rfl⟩
    rcases before with before | ⟨k, before⟩ <;> rw [before] <;> rfl
  | pause at_ ready pauses run waits =>
    have hk := (SchedulerEngine.pauseAndCancel_host run).huntsKept
    exact ⟨h.calls_moved (ready_inProgress ready),
      h.hunts_mono (hk.nextHunt.trans ready.nextHunt)
        (fun hn ha => ready.hunts ▸ hk.hunts ▸ ha),
      interrupting_fresh h.sched (SchedulerEngine.pauseAndCancel_spec run)⟩
  | pauseBegin at_ ready pauses run done begun =>
    have hk := (SchedulerEngine.pauseAndCancel_host run).huntsKept
    exact h.begun (ready_inProgress ready) (hk.hunts.trans ready.hunts)
      (hk.nextHunt.trans ready.nextHunt)
      (interrupting_fresh h.sched (SchedulerEngine.pauseAndCancel_spec run)) begun
  | @waitBegin m now inp c s' q at_ before run begun =>
    have hk := (SchedulerEngine.resume_host run).huntsKept
    have hstep : e.sched.step (now, .resume c .wake) = some s' := run
    exact h.begun (by rw [before]; rfl) hk.hunts hk.nextHunt (h.sched.step hstep) begun
  | stop interrupted at_ =>
    exact ⟨h.calls, h.hunts_mono interrupted.nextHunt (fun hn ha => interrupted.alive hn ▸ ha),
      fresh_congr h.sched rfl rfl⟩
  | start at_ idle hunts nextHunt task flag accepted =>
    refine ⟨h.calls, h.hunts_create nextHunt hunts (fun hn => ?_), fresh_congr h.sched rfl rfl⟩
    rcases at_ with ⟨-, rfl⟩ | ⟨-, rfl⟩
    · rfl
    · exact e.host.cancelTask_alive hn
  | @advance hn inp hs' pc at_ alive clean hunts pc_ nextHunt task flag =>
    refine ⟨h.calls, h.hunts_mono nextHunt (fun hn' ha => ?_), fresh_congr h.sched rfl rfl⟩
    exact alive_update (p := pc) (.inl alive) (hunts ▸ ha)
  | @vanish hn inp hs' at_ unstarted doomed hunts nextHunt task flag =>
    refine ⟨h.calls, h.hunts_mono nextHunt (fun hn' ha => ?_), fresh_congr h.sched rfl rfl⟩
    exact alive_update (h := hn) (.inr rfl) (hunts ▸ ha)
  | @finish hn inp hs' at_ ending alive hunts nextHunt task flag =>
    have hk := endManualHunt_hunts (e.sched.setHost hs')
    refine ⟨h.calls, h.hunts_mono (hk.2.1.trans nextHunt) (fun hn' ha => ?_),
      endManualHunt_fresh (fresh_congr h.sched rfl rfl)⟩
    exact alive_update (h := hn) (.inr rfl) (hunts ▸ hk.1 ▸ ha)

end Fresh

end Engine

end HuntProxy
