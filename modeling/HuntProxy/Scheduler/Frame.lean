import HuntProxy.Scheduler.Step

/-!
# What the planning functions leave alone

Enqueueing, marking entries and clearing stale busy flags change the schedule entries,
the queue and the busy flags, but neither the registry, nor the task pool, nor the
launch lock, nor the pause. `Kept` collects what stays; the coroutines' case lemmas are
stated with it.

## Main definitions

- `code` — the coroutine of a task, with its lookup laws
- `HuntState.Kept`, `Kept` — the frame conditions
- `launchChecks_spec` — the three ways a launch decision ends
-/

namespace HuntProxy

/-- Only busy flags differ. -/
def HuntState.Kept (hs hs' : HuntState) : Prop :=
  ∃ a b c, hs' = { hs with
    huntRunning := a, fetchingIpBlacklists := b, fetchingBlocklists := c }

theorem HuntState.Kept.refl (hs : HuntState) : hs.Kept hs :=
  ⟨hs.huntRunning, hs.fetchingIpBlacklists, hs.fetchingBlocklists, rfl⟩

theorem HuntState.Kept.trans {hs hs' hs'' : HuntState} (h : hs.Kept hs') (h' : hs'.Kept hs'') :
    hs.Kept hs'' := by
  obtain ⟨_, _, _, rfl⟩ := h
  obtain ⟨a, b, c, rfl⟩ := h'
  exact ⟨a, b, c, rfl⟩

theorem HuntState.clearFlag_kept (hs : HuntState) (f : BusyFlag) : hs.Kept (hs.clearFlag f) := by
  cases f
  · exact ⟨false, hs.fetchingIpBlacklists, hs.fetchingBlocklists, rfl⟩
  · exact ⟨hs.huntRunning, false, hs.fetchingBlocklists, rfl⟩
  · exact ⟨hs.huntRunning, hs.fetchingIpBlacklists, false, rfl⟩

namespace SchedulerEngine

/-! ### The coroutines of the pool -/

/-- The coroutine of a task. -/
def code (s : SchedulerEngine) (i : TaskId) : Code := (s.tasks i).code

theorem live_eq (s : SchedulerEngine) (i : TaskId) : s.live i = (s.code i).liveKey := rfl

@[simp] theorem code_setCode (s : SchedulerEngine) (i j : TaskId) (c : Code) :
    (s.setCode i c).code j = if j = i then c else s.code j := by
  by_cases h : j = i
  · subst h
    simp [code, setCode]
  · simp [code, setCode, h]

@[simp] theorem code_spawn (s : SchedulerEngine) (j : TaskId) (c : Code) :
    (s.spawn c).code j = if j = s.nextTask then c else s.code j := by
  by_cases h : j = s.nextTask
  · subst h
    simp [code, spawn]
  · simp [code, spawn, h]

@[simp] theorem code_cancelTasks (s : SchedulerEngine) (is : List TaskId) (j : TaskId) :
    (s.cancelTasks is).code j = s.code j := by
  simp only [code, cancelTasks]
  split <;> rfl

/-- States with the same pool have the same coroutines. -/
theorem code_congr {s s' : SchedulerEngine} (h : s'.tasks = s.tasks) (j : TaskId) :
    s'.code j = s.code j := by
  rw [code, code, h]

/-! ### Frames -/

/-- The schedules are the same objects with the same names and task types, and of the host
only busy flags differ. -/
structure Frame (s s' : SchedulerEngine) : Prop where
  schedules : s'.schedules = s.schedules
  nextRef : s'.nextRef = s.nextRef
  entryId : ∀ r, (s'.entries r).id = (s.entries r).id
  taskType : ∀ r, (s'.entries r).taskType = (s.entries r).taskType
  host : s.state.Kept s'.state

/-- Besides the schedules, the registry, the pool, the pause and the launch lock are the
same: only status fields, rows, the queue and busy flags may differ. -/
structure Kept (s s' : SchedulerEngine) : Prop extends s.Frame s' where
  runningTasks : s'.runningTasks = s.runningTasks
  paused : s'.paused = s.paused
  pausedByInternet : s'.pausedByInternet = s.pausedByInternet
  stopped : s'.stopped = s.stopped
  launchLock : s'.launchLock = s.launchLock
  lockWaiters : s'.lockWaiters = s.lockWaiters
  tasks : s'.tasks = s.tasks
  nextTask : s'.nextTask = s.nextTask
  loop : s'.loop = s.loop

variable {s s' s'' : SchedulerEngine}

theorem Frame.of_eq (hschedules : s'.schedules = s.schedules) (hnextRef : s'.nextRef = s.nextRef)
    (hentries : s'.entries = s.entries) (hstate : s'.state = s.state) : s.Frame s' :=
  ⟨hschedules, hnextRef, fun r => by rw [hentries], fun r => by rw [hentries],
    hstate ▸ .refl _⟩

theorem Frame.refl (s : SchedulerEngine) : s.Frame s := .of_eq rfl rfl rfl rfl

theorem Frame.trans (h : s.Frame s') (h' : s'.Frame s'') : s.Frame s'' where
  schedules := h'.schedules.trans h.schedules
  nextRef := h'.nextRef.trans h.nextRef
  entryId r := (h'.entryId r).trans (h.entryId r)
  taskType r := (h'.taskType r).trans (h.taskType r)
  host := h.host.trans h'.host

/-- A change outside the frame may come first. -/
theorem Frame.after (h : s'.Frame s'') (hschedules : s'.schedules = s.schedules)
    (hnextRef : s'.nextRef = s.nextRef) (hentries : s'.entries = s.entries)
    (hstate : s'.state = s.state) : s.Frame s'' :=
  (Frame.of_eq hschedules hnextRef hentries hstate).trans h

theorem Kept.refl (s : SchedulerEngine) : s.Kept s :=
  ⟨.refl s, rfl, rfl, rfl, rfl, rfl, rfl, rfl, rfl, rfl⟩

theorem Kept.trans (h : s.Kept s') (h' : s'.Kept s'') : s.Kept s'' where
  toFrame := h.toFrame.trans h'.toFrame
  runningTasks := h'.runningTasks.trans h.runningTasks
  paused := h'.paused.trans h.paused
  pausedByInternet := h'.pausedByInternet.trans h.pausedByInternet
  stopped := h'.stopped.trans h.stopped
  launchLock := h'.launchLock.trans h.launchLock
  lockWaiters := h'.lockWaiters.trans h.lockWaiters
  tasks := h'.tasks.trans h.tasks
  nextTask := h'.nextTask.trans h.nextTask
  loop := h'.loop.trans h.loop

theorem Kept.code (h : s.Kept s') (j : TaskId) : s'.code j = s.code j :=
  code_congr h.tasks j

/-- Writing an entry under its own name and task type keeps the frame. -/
theorem writeEntry_frame (s : SchedulerEngine) (r : Ref) {e : ScheduleEntry}
    (hid : e.id = (s.entries r).id) (htype : e.taskType = (s.entries r).taskType) :
    s.Frame (s.writeEntry r e) := by
  refine ⟨rfl, rfl, fun r' => ?_, fun r' => ?_, .refl _⟩
  · by_cases hr : r' = r
    · subst hr
      simpa using hid
    · simp [Function.update_of_ne hr]
  · by_cases hr : r' = r
    · subst hr
      simpa using htype
    · simp [Function.update_of_ne hr]

theorem writeEntry_kept (s : SchedulerEngine) (r : Ref) {e : ScheduleEntry}
    (hid : e.id = (s.entries r).id) (htype : e.taskType = (s.entries r).taskType) :
    s.Kept (s.writeEntry r e) :=
  ⟨s.writeEntry_frame r hid htype, rfl, rfl, rfl, rfl, rfl, rfl, rfl, rfl, rfl⟩

theorem dequeue_kept (s : SchedulerEngine) (sid : Sid) : s.Kept (s.dequeue sid) :=
  ⟨.of_eq rfl rfl rfl rfl, rfl, rfl, rfl, rfl, rfl, rfl, rfl, rfl, rfl⟩

theorem enqueue_kept (s : SchedulerEngine) (now : Time) (sid : Sid) :
    s.Kept (s.enqueue now sid) := by
  unfold enqueue
  split
  · exact .refl s
  · next r _ =>
    split
    · exact .refl s
    · refine (s.writeEntry_kept r (e := { s.entries r with
        lastStatus := .queued, nextRun := now + (s.entries r).intervalSec }) rfl rfl).trans ?_
      exact ⟨.of_eq rfl rfl rfl rfl, rfl, rfl, rfl, rfl, rfl, rfl, rfl, rfl, rfl⟩

/-- A fold of steps that each keep the frame keeps it. -/
theorem kept_foldl {α : Type*} (f : SchedulerEngine → α → SchedulerEngine)
    (hf : ∀ (s : SchedulerEngine) (a : α), s.Kept (f s a)) (l : List α) (s : SchedulerEngine) : s.Kept (l.foldl f s) := by
  induction l generalizing s with
  | nil => exact .refl s
  | cons a rest ih => exact (hf s a).trans (ih (f s a))

theorem enqueueDue_kept (s : SchedulerEngine) (now : Time) : s.Kept (s.enqueueDue now) := by
  refine kept_foldl _ (fun s p => ?_) _ _
  dsimp only
  split
  · exact .refl s
  · exact s.enqueue_kept now p.1

theorem markCancelled_kept (s : SchedulerEngine) (now : Time) (reason : String) :
    s.Kept (s.markCancelled now reason) := by
  refine kept_foldl _ (fun s r => ?_) _ _
  dsimp only
  split
  · exact s.writeEntry_kept r rfl rfl
  · exact .refl s

theorem checkBusyFlag_kept {s s' : SchedulerEngine} {taskDef : TaskDef}
    (h : s.checkBusyFlag taskDef = some s') :
    ∃ hs, s.state.Kept hs ∧ s' = { s with state := hs } := by
  unfold checkBusyFlag at h
  split at h
  · cases h
    exact ⟨s.state, .refl _, rfl⟩
  · next f _ =>
    split at h
    · cases h
      exact ⟨s.state, .refl _, rfl⟩
    · split at h
      · cases h
        exact ⟨_, s.state.clearFlag_kept f, rfl⟩
      · cases h

/-! ### The launch decision -/

/-- The three ways a launch decision ends. `hs` is the host with stale flags cleared. -/
inductive LaunchDecision (s : SchedulerEngine) (now : Time) (me : TaskId) (sid : Sid) (r : Ref)
    (taskDef : TaskDef) : SchedulerEngine × LaunchResult → Prop
  | blocked (hs : HuntState) (host : s.state.Kept hs) :
      LaunchDecision s now me sid r taskDef ({ s with state := hs }, .blocked)
  | suspended (hs : HuntState) (host : s.state.Kept hs)
      (free : s.runningTasks.contains (s.entries r).taskType = false)
      (clear : s.conflicts taskDef = false) :
      LaunchDecision s now me sid r taskDef
        ({ s with state := hs, launchLock := some me },
          .suspended ⟨sid, r, taskDef, .internet (s.entries r).taskType⟩)
  | launched (hs : HuntState) (host : s.state.Kept hs)
      (free : s.runningTasks.contains (s.entries r).taskType = false)
      (clear : s.conflicts taskDef = false) (offline : taskDef.respectInternet = false) :
      LaunchDecision s now me sid r taskDef
        ({ s with state := hs }.launch now sid r false, .launched)

theorem launchChecks_spec (s : SchedulerEngine) (now : Time) (me : TaskId) (sid : Sid) (r : Ref)
    (taskDef : TaskDef) :
    LaunchDecision s now me sid r taskDef (s.launchChecks now me sid r taskDef) := by
  unfold launchChecks
  dsimp only
  split
  · exact .blocked s.state (.refl _)
  · next hfree =>
    have hfree := Bool.eq_false_iff.mpr hfree
    split
    · exact .blocked s.state (.refl _)
    · next s₁ hs₁ =>
      obtain ⟨hs, hhost, rfl⟩ := checkBusyFlag_kept hs₁
      split
      · exact .blocked hs hhost
      · next hclear =>
        have hclear : s.conflicts taskDef = false := Bool.eq_false_iff.mpr hclear
        split
        · exact .blocked hs hhost
        · split
          · exact .suspended hs hhost hfree hclear
          · next hoff => exact .launched hs hhost hfree hclear (Bool.eq_false_iff.mpr hoff)

theorem lockOpen_free {s : SchedulerEngine} (h : s.lockOpen = true) : s.launchLock = none := by
  simp only [lockOpen, Bool.and_eq_true, Option.isNone_iff_eq_none] at h
  exact h.1

theorem lockTurn_free {s : SchedulerEngine} {i : TaskId} (h : s.lockTurn i = true) :
    s.launchLock = none := by
  simp only [lockTurn, Bool.and_eq_true, Option.isNone_iff_eq_none] at h
  exact h.1

end SchedulerEngine

end HuntProxy
