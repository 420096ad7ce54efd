import HuntProxy.Scheduler.Effect

/-!
# The busy flags in a turn of the scheduler

The scheduler writes the host in one place only: `_check_busy_flag`, which clears a flag
that it takes for stale. A launch makes that test at most once per turn, and which row
it tests can be read off the state before the turn.

## Main definitions

- `launchChecked`, `checked` — the table row whose busy flag a turn tests
- `afterCheck` — the host after the test

## Main results

- `turn_state` — a turn of the scheduler leaves the host as the test leaves it
-/

namespace HuntProxy.SchedulerEngine

/-- The row that a suspended `_try_launch` tests when it is resumed. -/
def launchChecked (s : SchedulerEngine) (i : TaskId) (l : Launch) : Input → Option TaskDef
  | .wake =>
    if l.await = .lock ∧ s.lockTurn i = true ∧
        s.runningTasks.contains (s.entries l.entry).taskType = false then some l.taskDef
    else none
  | _ => none

/-- The row that a turn of a drain tests. -/
def drainChecked (s : SchedulerEngine) (i : TaskId) : DrainPc → Input → Option TaskDef
  | .next (sid :: _), .wake =>
    match s.schedules.get? sid with
    | none => none
    | some r =>
      if s.runningTasks.contains (s.entries r).taskType = false ∧ s.lockOpen = true then
        some (taskTypes (s.entries r).taskType)
      else none
  | .launching l _, inp => s.launchChecked i l inp
  | _, _ => none

/-- The row that a turn of `trigger_now` tests. -/
def triggerNowChecked (s : SchedulerEngine) (sid : Sid) : TriggerPc → Input → Option TaskDef
  | .start, .wake =>
    match s.schedules.get? sid with
    | none => none
    | some r =>
      if s.runningTasks.contains (s.entries r).taskType = false ∧
          (taskTypes (s.entries r).taskType).respectInternet = false then
        some (taskTypes (s.entries r).taskType)
      else none
  | .internet _ taskDef, .alive true => some taskDef
  | _, _ => none

/-- The row whose busy flag a turn of task `i` tests. -/
def checked (s : SchedulerEngine) (i : TaskId) (inp : Input) : Option TaskDef :=
  if (s.tasks i).cancelRequested && (s.code i).interruptible then none
  else
    match (s.code i).drain?, s.code i with
    | some p, _ => s.drainChecked i p inp
    | none, .triggerNow sid pc => s.triggerNowChecked sid pc inp
    | none, _ => none

/-- The host after the test of a row, if there is one. -/
def afterCheck (s : SchedulerEngine) : Option TaskDef → HuntState
  | none => s.state
  | some taskDef => ((s.checkBusyFlag taskDef).getD s).state

/-! ### What leaves the host alone -/

@[simp] theorem enqueue_state (s : SchedulerEngine) (now : Time) (sid : Sid) :
    (s.enqueue now sid).state = s.state := by
  unfold enqueue
  split
  · rfl
  · split <;> rfl

/-- A fold of steps that each leave the host alone leaves it alone. -/
theorem foldl_state {α : Type*} (f : SchedulerEngine → α → SchedulerEngine)
    (hf : ∀ (s : SchedulerEngine) (a : α), (f s a).state = s.state) (l : List α)
    (s : SchedulerEngine) : (l.foldl f s).state = s.state := by
  induction l generalizing s with
  | nil => rfl
  | cons a rest ih => exact (ih (f s a)).trans (hf s a)

@[simp] theorem enqueueDue_state (s : SchedulerEngine) (now : Time) :
    (s.enqueueDue now).state = s.state := by
  refine foldl_state _ (fun s p => ?_) _ _
  dsimp only
  split
  · rfl
  · exact s.enqueue_state now p.1

@[simp] theorem markCancelled_state (s : SchedulerEngine) (now : Time) (reason : String) :
    (s.markCancelled now reason).state = s.state := by
  refine foldl_state _ (fun s r => ?_) _ _
  dsimp only
  split <;> rfl

@[simp] theorem afterGate_state (s : SchedulerEngine) (now : Time) :
    (s.afterGate now).1.state = s.state := by
  unfold afterGate
  split
  · rfl
  · exact s.enqueueDue_state now

theorem drainAfter_state (sid : Sid) (rest : List Sid) (d : SchedulerEngine × LaunchResult) :
    (drainAfter sid rest d).1.state = d.1.state := by
  obtain ⟨s, result⟩ := d
  cases result <;> rfl

/-! ### The test -/

theorem launchChecks_state (s : SchedulerEngine) (now : Time) (me : TaskId) (sid : Sid) (r : Ref)
    (taskDef : TaskDef) : (s.launchChecks now me sid r taskDef).1.state =
      s.afterCheck (if s.runningTasks.contains (s.entries r).taskType = false then some taskDef
        else none) := by
  unfold launchChecks
  dsimp only
  by_cases hreg : s.runningTasks.contains (s.entries r).taskType
  · rw [if_pos hreg, if_neg (hreg ▸ Bool.false_ne_true.symm)]
    rfl
  · rw [if_neg hreg, if_pos (Bool.eq_false_iff.mpr hreg), afterCheck]
    cases hbusy : s.checkBusyFlag taskDef with
    | none => rfl
    | some s₁ =>
      dsimp only [Option.getD_some]
      split
      · rfl
      · split
        · rfl
        · split <;> rfl

/-- The test concerns flags and tasks of the host only. -/
theorem afterCheck_congr {s s' : SchedulerEngine} (h : s'.state = s.state)
    (taskDef : Option TaskDef) : s'.afterCheck taskDef = s.afterCheck taskDef := by
  cases taskDef with
  | none => exact h
  | some taskDef =>
    have hstale : ∀ f, s'.isBusyFlagStale f = s.isBusyFlagStale f := by
      intro f
      simp only [isBusyFlagStale, h]
    simp only [afterCheck, checkBusyFlag, hstale, h]
    cases taskDef.busyFlag with
    | none => exact h
    | some f =>
      dsimp only
      split
      · exact h
      · split
        · rfl
        · exact h

theorem drainStep_state {s s' : SchedulerEngine} {now : Time} {i : TaskId} {p : DrainPc}
    {inp : Input} {q : Option DrainPc} (h : s.drainStep now i p inp = some (s', q)) :
    s'.state = s.afterCheck (s.drainChecked i p inp) := by
  cases drain_move h with
  | idle => rfl
  | began started unpaused => rfl
  | exhausted => rfl
  | dropped unknown =>
    simp only [drainChecked, unknown]
    rfl
  | running known registered =>
    simp only [drainChecked, known, registered, Bool.true_eq_false, false_and, if_false]
    rfl
  | decided known unregistered lock decision =>
    subst decision
    rw [drainAfter_state, launchChecks_state, if_pos unregistered]
    simp only [drainChecked, known, unregistered, lock, and_self, if_true]
  | waits known unregistered lock =>
    simp only [drainChecked, known, unregistered, lock, Bool.false_eq_true, and_false, if_false]
    rfl
  | woken lock decision =>
    subst decision
    rw [drainAfter_state, launchChecks_state, afterCheck_congr (leaveWaiters_state s i)]
    simp only [drainChecked, launchChecked, lock, true_and]
    rfl
  | online => rfl
  | offline => rfl

theorem triggerNowLaunch_state (s : SchedulerEngine) (now : Time) (sid : Sid) (r : Ref) :
    (s.triggerNowLaunch now sid r).1.state = s.state := by
  unfold triggerNowLaunch
  split <;> rfl

theorem triggerNowClaim_state (s : SchedulerEngine) (now : Time) (i : TaskId) (sid : Sid)
    (r : Ref) (taskDef : TaskDef) :
    (s.triggerNowClaim now i sid r taskDef).1.state = s.afterCheck (some taskDef) := by
  unfold triggerNowClaim
  rw [afterCheck]
  cases s.checkBusyFlag taskDef with
  | none => exact s.enqueue_state now sid
  | some s₁ =>
    dsimp only [Option.getD_some]
    split
    · rw [enqueue_state, dequeue_state]
    · split
      · rw [triggerNowLaunch_state, dequeue_state]
      · rfl

theorem triggerNowStep_state {s s' : SchedulerEngine} {now : Time} {i : TaskId} {sid : Sid}
    {pc : TriggerPc} {inp : Input} {c' : Code}
    (h : s.triggerNowStep now i sid pc inp = some (s', c')) :
    s'.state = s.afterCheck (s.triggerNowChecked sid pc inp) := by
  cases trigger_turn h with
  | unknown unknown =>
    simp only [triggerNowChecked, unknown]
    rfl
  | running known registered =>
    simp only [triggerNowChecked, known, registered, Bool.true_eq_false, false_and, if_false]
    rfl
  | asked known unregistered internet =>
    simp only [triggerNowChecked, known, internet, Bool.true_eq_false, and_false, if_false]
    rfl
  | claimed known unregistered internet claim =>
    subst claim
    simp only [triggerNowChecked, known, unregistered, internet, and_self, if_true]
    exact s.triggerNowClaim_state now i sid _ _
  | online claim =>
    subst claim
    exact s.triggerNowClaim_state now i sid _ _
  | offline => rfl
  | locked lock launch =>
    subst launch
    exact triggerNowLaunch_state _ now sid _

/-! ### The other coroutines -/

theorem runStep_state {s s' : SchedulerEngine} {now : Time} {sid : Sid} {key : TaskType}
    {triggered : Bool} {pc : RunPc} {inp : Input} {c' : Code}
    (h : s.runStep now sid key triggered pc inp = some (s', c')) : s'.state = s.state := by
  cases run_turn h <;> rfl

theorem loopStep_state {s s' : SchedulerEngine} {now : Time} {pc : LoopPc} {inp : Input}
    {c' : Code} (h : s.loopStep now pc inp = some (s', c')) : s'.state = s.state := by
  cases loop_turn h with
  | skipped => exact s.afterGate_state now
  | asked => rfl
  | same known => exact s.afterGate_state now
  | up known => exact s.gateUp.afterGate_state now
  | down known => exact s.gateDown.afterGate_state now
  | cancelled known => rfl
  | gathered => exact afterGate_state _ now

theorem cancelAllStep_state {s : SchedulerEngine} {now : Time} {reason : String}
    {pc : CancelAllPc} {q : SchedulerEngine × Code} (h : s.cancelAllStep now reason pc = some q) :
    q.1.state = s.state := by
  cases pc with
  | start =>
    simp only [cancelAllStep] at h
    split at h <;> cases h
    · exact markCancelled_state _ now reason
    · rfl
  | gather running =>
    simp only [cancelAllStep, Option.ite_none_right_eq_some, Option.some.injEq] at h
    obtain ⟨-, rfl⟩ := h
    exact markCancelled_state _ now reason

theorem stopStep_state {s : SchedulerEngine} {pc : StopPc} {q : SchedulerEngine × Code}
    (h : s.stopStep pc = some q) : q.1.state = s.state := by
  cases pc <;> simp only [stopStep] at h <;> split at h <;> cases h <;> rfl

theorem codeStep_state {s : SchedulerEngine} {now : Time} {i : TaskId} {inp : Input}
    {q : SchedulerEngine × Code}
    (hfree : ((s.tasks i).cancelRequested && (s.code i).interruptible) = false)
    (h : s.codeStep now i (s.code i) inp = some q) :
    q.1.state = s.afterCheck (s.checked i inp) := by
  rw [checked, hfree, if_neg Bool.false_ne_true]
  unfold codeStep at h
  split at h
  · next p hp =>
    simp only [Option.map_eq_some_iff] at h
    obtain ⟨d, hd, rfl⟩ := h
    simp only [hp]
    exact drainStep_state hd
  · next hp =>
    simp only [hp]
    split at h
    · next hc =>
      simp only [hc]
      exact runStep_state h
    · next hc =>
      simp only [hc]
      exact loopStep_state h
    · next hc =>
      simp only [hc]
      simp only [Option.ite_none_right_eq_some, Option.some.injEq] at h
      obtain ⟨-, rfl⟩ := h
      unfold triggerStep
      split
      · rfl
      · exact s.enqueue_state now _
    · next hc =>
      simp only [hc]
      exact triggerNowStep_state h
    · next hc =>
      simp only [hc]
      simp only [Option.ite_none_right_eq_some] at h
      exact cancelAllStep_state h.2
    · next hc =>
      simp only [hc]
      simp only [Option.ite_none_right_eq_some] at h
      exact stopStep_state h.2
    · cases h

/-- **The host after a turn** is the host after the test that the turn makes. -/
theorem turn_state {s s' : SchedulerEngine} {now : Time} {i : TaskId} {inp : Input} {c' : Code}
    (h : s.turn now i inp = some (s', c')) : s'.state = s.afterCheck (s.checked i inp) := by
  unfold turn at h
  dsimp only at h
  split at h
  · next hcancel =>
    simp only [Option.ite_none_right_eq_some] at h
    have hnone : s.checked i inp = none := if_pos hcancel
    rw [hnone]
    obtain ⟨lock, waiters, rfl, -⟩ := cancelStep_eq h.2
    rfl
  · next hfree => exact codeStep_state (Bool.eq_false_iff.mpr hfree) h

/-- The operations of the API leave the host alone. -/
theorem api_state {s s' : SchedulerEngine} {now : Time} {a : Action}
    (ha : ∀ i inp, a ≠ .resume i inp) (hhost : ∀ hs, a ≠ .host hs)
    (h : s.step (now, a) = some s') : s'.state = s.state := by
  cases a with
  | resume i inp => exact absurd rfl (ha i inp)
  | host hs => exact absurd rfl (hhost hs)
  | startLoop =>
    cases h
    unfold startLoop
    split
    · split <;> rfl
    · rfl
  | cancelRunning sid =>
    cases h
    unfold cancelRunning
    split
    · rfl
    · dsimp only
      split
      · rfl
      · split
        · rfl
        · split <;> rfl
  | addSchedule sid name taskType interval config enabled =>
    cases h
    unfold addSchedule
    split <;> rfl
  | updateSchedule sid f =>
    cases h
    unfold updateSchedule
    split
    · rfl
    · dsimp only
      split <;> rfl
  | deleteSchedule sid =>
    cases h
    unfold deleteSchedule
    split <;> rfl
  | toggleSchedule sid =>
    cases h
    unfold toggleSchedule
    split
    · rfl
    · dsimp only
      split <;> rfl
  | _ =>
    cases h
    rfl

end HuntProxy.SchedulerEngine
