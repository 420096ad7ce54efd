import HuntProxy.Scheduler.Frame

/-!
# What `cancel_running` touches

Schedules are addressed by their identifier, runs are registered under their task type.
`cancel_running` takes its schedule off the queue, or else cancels whatever run is
registered under the type of the schedule. It touches only its own schedule exactly when
that run, if there is one, was started for it.

## Main definitions

- `RunsFor` — a task is a run that was started for a schedule
- `CancelsOnly` — what a call may touch
- `OwnsRun` — the registered run of the schedule's type is its own

## Main results

- `cancelRunning_tasks`, `cancelRunning_queue` — the effect of a call
- `cancelsOnly_iff` — when a call touches its own schedule only
- `cancels_other` — a call that cancels the run of another schedule
-/

namespace HuntProxy.SchedulerEngine

variable {s : SchedulerEngine} {sid : Sid}

/-- Task `i` is a run that was started for the schedule. -/
def RunsFor (s : SchedulerEngine) (sid : Sid) (i : TaskId) : Prop :=
  ∃ key triggered pc, s.code i = .run sid key triggered pc

/-- The task on which `cancel_running` calls `cancel`. -/
def cancelTarget (s : SchedulerEngine) (sid : Sid) : Option TaskId :=
  match s.schedules.get? sid with
  | none => none
  | some r =>
    if s.queue.contains sid then none
    else (s.runningTasks.get? (s.entries r).taskType).filter (fun i => !(s.tasks i).code.isDone)

/-- What `cancel_running` may do: take its schedule off the queue or cancel a run of it,
and nothing to the others. -/
structure CancelsOnly (s : SchedulerEngine) (sid : Sid) : Prop where
  result : (s.cancelRunning sid).2 = true →
    s.queue.contains sid = true ∧ (s.cancelRunning sid).1.queue.contains sid = false ∨
      ∃ i, s.cancelTarget sid = some i ∧ s.RunsFor sid i
  queue : ∀ other, other ≠ sid →
    (s.cancelRunning sid).1.queue.get? other = s.queue.get? other
  runs : ∀ other i, other ≠ sid → s.RunsFor other i →
    (s.cancelRunning sid).1.tasks i = s.tasks i

/-- A schedule that is not queued owns the unfinished run that is registered under its
type, if there is one. -/
def OwnsRun (s : SchedulerEngine) (sid : Sid) : Prop :=
  ∀ r i, s.schedules.get? sid = some r → s.queue.contains sid = false →
    s.runningTasks.get? (s.entries r).taskType = some i → (s.code i).isDone = false →
      s.RunsFor sid i

theorem RunsFor.unique {other : Sid} {i : TaskId} (h : s.RunsFor sid i)
    (h' : s.RunsFor other i) : other = sid := by
  obtain ⟨key, triggered, pc, hcode⟩ := h
  obtain ⟨key', triggered', pc', hcode'⟩ := h'
  rw [hcode] at hcode'
  cases hcode'
  rfl

/-- The cancellations of a call. -/
theorem cancelRunning_tasks (s : SchedulerEngine) (sid : Sid) :
    (s.cancelRunning sid).1.tasks = (s.cancelTasks (s.cancelTarget sid).toList).tasks := by
  have hnone : s.tasks = (s.cancelTasks []).tasks := by
    funext i
    simp
  unfold cancelRunning cancelTarget
  cases s.schedules.get? sid with
  | none => exact hnone
  | some r =>
    dsimp only
    split
    · exact hnone
    · cases s.runningTasks.get? (s.entries r).taskType with
      | none => exact hnone
      | some i =>
        dsimp only
        rw [Option.filter_some]
        cases hdone : (s.tasks i).code.isDone with
        | false => rfl
        | true => exact hnone

/-- A call that dequeues takes its own schedule off the queue, any other one leaves the
queue as it is. -/
theorem cancelRunning_queue (s : SchedulerEngine) (sid : Sid) :
    (s.cancelRunning sid).1.queue = s.queue ∨
      s.queue.contains sid = true ∧ (s.cancelRunning sid).1.queue = s.queue.erase sid := by
  unfold cancelRunning
  split
  · exact .inl rfl
  · dsimp only
    split
    · next hqueued => exact .inr ⟨hqueued, rfl⟩
    · split
      · exact .inl rfl
      · split <;> exact .inl rfl

/-- A task to cancel makes the call return `True` without dequeuing. -/
theorem cancelTarget_of_live {r : Ref} {i : TaskId} (hr : s.schedules.get? sid = some r)
    (hqueued : s.queue.contains sid = false)
    (hi : s.runningTasks.get? (s.entries r).taskType = some i)
    (hdone : (s.code i).isDone = false) :
    (s.cancelRunning sid).2 = true ∧ s.cancelTarget sid = some i := by
  have hdone : (s.tasks i).code.isDone = false := hdone
  constructor
  · simp [cancelRunning, hr, hqueued, hi, hdone]
  · simp [cancelTarget, hr, hqueued, hi, hdone]

/-- A call that returns `True` has dequeued or has a task to cancel. -/
theorem cancelRunning_true (h : (s.cancelRunning sid).2 = true) :
    s.queue.contains sid = true ∧ (s.cancelRunning sid).1.queue.contains sid = false ∨
      ∃ r i, s.schedules.get? sid = some r ∧ s.queue.contains sid = false ∧
        s.runningTasks.get? (s.entries r).taskType = some i ∧ (s.code i).isDone = false ∧
          s.cancelTarget sid = some i := by
  unfold cancelRunning at *
  split at h
  · cases h
  · next r hr =>
    dsimp only at h ⊢
    split at h
    · next hqueued =>
      rw [if_pos hqueued]
      refine .inl ⟨hqueued, ?_⟩
      simp
    · next hqueued =>
      have hqueued := Bool.eq_false_iff.mpr hqueued
      split at h
      · cases h
      · next i hi =>
        split at h
        · cases h
        · next hdone =>
          have hdone : (s.tasks i).code.isDone = false := Bool.eq_false_iff.mpr hdone
          exact .inr ⟨r, i, hr, hqueued, hi, hdone,
            (cancelTarget_of_live hr hqueued hi hdone).2⟩

/-- **Cancelling a schedule touches only that schedule**, exactly when the run that is
registered under its type is its own. -/
theorem cancelsOnly_iff (s : SchedulerEngine) (sid : Sid) :
    s.CancelsOnly sid ↔ s.OwnsRun sid := by
  constructor
  · intro h r i hr hqueued hi hdone
    obtain ⟨htrue, htarget⟩ := cancelTarget_of_live hr hqueued hi hdone
    rcases h.result htrue with ⟨hcontains, -⟩ | ⟨j, hj, hown⟩
    · rw [hqueued] at hcontains
      cases hcontains
    · rw [htarget] at hj
      cases hj
      exact hown
  · intro h
    refine ⟨fun htrue => ?_, fun other hother => ?_, fun other i hother hrun => ?_⟩
    · rcases cancelRunning_true htrue with hqueue | ⟨r, i, hr, hqueued, hi, hdone, htarget⟩
      · exact .inl hqueue
      · exact .inr ⟨i, htarget, h r i hr hqueued hi hdone⟩
    · rcases s.cancelRunning_queue sid with heq | ⟨-, heq⟩
      · rw [heq]
      · rw [heq, Dict.get?_erase, if_neg hother]
    · rw [cancelRunning_tasks]
      simp only [cancelTasks_tasks, ite_eq_right_iff, and_imp, Option.mem_toList]
      intro htarget hdone
      -- the target is a run of the schedule itself
      have hown : s.RunsFor sid i := by
        unfold cancelTarget at htarget
        split at htarget
        · cases htarget
        · next r hr =>
          split at htarget
          · cases htarget
          · next hqueued =>
            have hi := Option.eq_some_of_filter_eq_some htarget
            exact h r i hr (Bool.eq_false_iff.mpr hqueued) hi hdone
      exact absurd (hown.unique hrun) hother

/-- Two schedules that record history. -/
def twoHistories : List ScheduleEntry :=
  [{ id := "first", name := "First", taskType := .history },
    { id := "second", name := "Second", taskType := .history }]

/-- The first schedule is triggered; cancelling the second one cancels its run. -/
theorem cancels_other :
    ¬ ∀ s s' : SchedulerEngine, s.Initial → machine.Reaches Machine.anyStep s s' →
      ∀ sid, s'.CancelsOnly sid := by
  intro hall
  have hrun : ∃ s', machine.Reaches Machine.anyStep (prepared twoHistories) s' ∧
      decide ((s'.cancelRunning "second").2 = true ∧ s'.queue.contains "second" = false ∧
        s'.cancelTarget "second" = some 1 ∧
        s'.code 1 = .run "first" .history true .unstarted) = true :=
    Machine.exists_reaches_of_exec (g := fun _ _ _ => true)
      (l := [(10, .triggerNow "first"), (10, .resume 0 .wake)])
      (fun _ _ _ _ => trivial) (by decide +kernel)
  obtain ⟨s', hs', hend⟩ := hrun
  obtain ⟨htrue, hqueued, htarget, hcode⟩ := of_decide_eq_true hend
  rcases (hall _ s' (prepared_initial _) hs' "second").result htrue with
    ⟨hcontains, -⟩ | ⟨i, hi, key, triggered, pc, hown⟩
  · rw [hqueued] at hcontains
    cases hcontains
  · rw [htarget] at hi
    cases hi
    rw [hcode] at hown
    exact absurd (Code.run.inj hown).1 (by decide)

end HuntProxy.SchedulerEngine
