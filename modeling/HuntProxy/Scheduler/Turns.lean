import HuntProxy.Scheduler.Frame

/-!
# The turns of a drain, a run and a `trigger_now`

Each of these coroutines is read off its definition once. `DrainMove`, `RunTurn` and
`TriggerTurn` list the turns with their guards and the state each leaves behind; what a
turn keeps is then a case analysis of the list.

## Main definitions

- `DrainMove`, `drain_move` — the turns of `_drain_queue`
- `RunTurn`, `run_turn` — the turns of a run, its drain apart
- `TriggerTurn`, `trigger_turn` — the turns of `trigger_now`
- `turn_cases` — a turn is one of the coroutine, or ends the task with its cancellation
-/

namespace HuntProxy.SchedulerEngine

variable {s s' : SchedulerEngine} {now : Time} {i : TaskId} {sid : Sid} {inp : Input}

/-! ### Drains -/

/-- The turns of a drain. -/
inductive DrainMove (s : SchedulerEngine) (now : Time) (i : TaskId) :
    DrainPc → Input → SchedulerEngine → Option DrainPc → Prop
  /-- The queue is empty, or the scheduler is stopped or paused. -/
  | idle : DrainMove s now i .start .wake s none
  | began (started : s.stopped = false) (unpaused : s.paused = false) :
      DrainMove s now i .start .wake s (some (.next s.queue.keys))
  /-- The snapshot of the queue is worked off. -/
  | exhausted : DrainMove s now i (.next []) .wake s none
  | dropped {sid rest} (unknown : s.schedules.get? sid = none) :
      DrainMove s now i (.next (sid :: rest)) .wake (s.dequeue sid) (some (.next rest))
  /-- A run of the type is registered; the schedule waits for it in the queue. -/
  | running {sid rest r} (known : s.schedules.get? sid = some r)
      (registered : s.runningTasks.contains (s.entries r).taskType = true) :
      DrainMove s now i (.next (sid :: rest)) .wake s (some (.next rest))
  /-- The launch lock is free: the decision is made in this turn. -/
  | decided {sid rest r d} (known : s.schedules.get? sid = some r)
      (unregistered : s.runningTasks.contains (s.entries r).taskType = false)
      (lock : s.lockOpen = true)
      (decision : s.launchChecks now i sid r (taskTypes (s.entries r).taskType) = d) :
      DrainMove s now i (.next (sid :: rest)) .wake (drainAfter sid rest d).1
        (drainAfter sid rest d).2
  | waits {sid rest r} (known : s.schedules.get? sid = some r)
      (unregistered : s.runningTasks.contains (s.entries r).taskType = false)
      (lock : s.lockOpen = false) :
      DrainMove s now i (.next (sid :: rest)) .wake { s with lockWaiters := s.lockWaiters ++ [i] }
        (some (.launching ⟨sid, r, taskTypes (s.entries r).taskType, .lock⟩ rest))
  /-- The launch lock has come to the drain, which decides now. -/
  | woken {sid r taskDef rest d} (lock : s.lockTurn i = true)
      (decision : (s.leaveWaiters i).launchChecks now i sid r taskDef = d) :
      DrainMove s now i (.launching ⟨sid, r, taskDef, .lock⟩ rest) .wake
        (drainAfter sid rest d).1 (drainAfter sid rest d).2
  | online {sid r taskDef key rest} :
      DrainMove s now i (.launching ⟨sid, r, taskDef, .internet key⟩ rest) (.alive true)
        (({ s.launch now sid r false with launchLock := none } : SchedulerEngine).dequeue sid)
        (some (.next rest))
  | offline {sid r taskDef key rest} :
      DrainMove s now i (.launching ⟨sid, r, taskDef, .internet key⟩ rest) (.alive false)
        { s with launchLock := none } (some (.next rest))

/-- **The turns of a drain.** -/
theorem drain_move {p : DrainPc} {q : Option DrainPc}
    (h : s.drainStep now i p inp = some (s', q)) : DrainMove s now i p inp s' q := by
  cases p with
  | start =>
    cases inp with
    | wake =>
      simp only [drainStep] at h
      split at h
      · cases h
        exact .idle
      · next hgo =>
        cases h
        simp only [not_or, Bool.not_eq_true] at hgo
        exact .began hgo.2.1 hgo.2.2
    | _ => simp [drainStep] at h
  | next todo =>
    cases inp with
    | wake =>
      cases todo with
      | nil =>
        cases h
        exact .exhausted
      | cons sid rest =>
        simp only [drainStep] at h
        split at h
        · next hnone =>
          cases h
          exact .dropped hnone
        · next r hr =>
          split at h
          · next hreg =>
            cases h
            exact .running hr hreg
          · next hreg =>
            have hunreg := Bool.eq_false_iff.mpr hreg
            simp only [tryLaunch, hr, Option.some.injEq] at h
            split at h
            · next hopen =>
              have hmove : DrainMove s now i (.next (sid :: rest)) .wake _ _ :=
                .decided hr hunreg hopen rfl
              rwa [h] at hmove
            · next hclosed =>
              cases h
              exact .waits hr hunreg (Bool.eq_false_iff.mpr hclosed)
    | _ => cases todo <;> simp [drainStep] at h
  | launching l rest =>
    obtain ⟨sid, r, taskDef, await⟩ := l
    simp only [drainStep, Option.map_eq_some_iff] at h
    obtain ⟨d, hd, h⟩ := h
    cases inp with
    | wake =>
      cases await with
      | lock =>
        simp only [resumeLaunch] at hd
        split at hd
        · next hturn =>
          have hmove : DrainMove s now i (.launching ⟨sid, r, taskDef, .lock⟩ rest) .wake _ _ :=
            .woken hturn (Option.some.inj hd)
          rwa [h] at hmove
        · cases hd
      | internet key => simp [resumeLaunch] at hd
    | alive verdict =>
      cases await with
      | lock => simp [resumeLaunch] at hd
      | internet key =>
        cases verdict with
        | true =>
          cases hd
          cases h
          exact .online
        | false =>
          cases hd
          cases h
          exact .offline
    | ended outcome => simp [resumeLaunch] at hd

/-! ### Runs -/

/-- The turns of a run, its drain apart. -/
inductive RunTurn (s : SchedulerEngine) (now : Time) (sid : Sid) (key : TaskType)
    (triggered : Bool) : RunPc → Input → SchedulerEngine → Code → Prop
  /-- The schedule was deleted before the run began. -/
  | gone (unknown : s.schedules.get? sid = none) :
      RunTurn s now sid key triggered .unstarted .wake s (.done .nothing)
  | began {r} (known : s.schedules.get? sid = some r) :
      RunTurn s now sid key triggered .unstarted .wake s (.run sid key triggered (.executing r now))
  | ended {r started outcome} :
      RunTurn s now sid key triggered (.executing r started) (.ended outcome)
        (s.finishRun now r started outcome) (.run sid key triggered (.draining .start))

/-- **The turns of a run.** -/
theorem run_turn {key : TaskType} {triggered : Bool} {pc : RunPc} {c' : Code}
    (h : s.runStep now sid key triggered pc inp = some (s', c')) :
    RunTurn s now sid key triggered pc inp s' c' := by
  cases pc with
  | unstarted =>
    cases inp with
    | wake =>
      simp only [runStep] at h
      split at h
      · next hnone =>
        cases h
        exact .gone hnone
      · next r hr =>
        cases h
        exact .began hr
    | _ => simp [runStep] at h
  | executing r started =>
    cases inp with
    | ended outcome =>
      cases h
      exact .ended
    | _ => simp [runStep] at h
  | draining p => simp [runStep] at h

/-! ### `trigger_now` -/

/-- The turns of `trigger_now`. -/
inductive TriggerTurn (s : SchedulerEngine) (now : Time) (i : TaskId) (sid : Sid) :
    TriggerPc → Input → SchedulerEngine → Code → Prop
  | unknown (unknown : s.schedules.get? sid = none) :
      TriggerTurn s now i sid .start .wake s (.done (.verdict false))
  | running {r} (known : s.schedules.get? sid = some r)
      (registered : s.runningTasks.contains (s.entries r).taskType = true) :
      TriggerTurn s now i sid .start .wake s (.done (.verdict false))
  | asked {r} (known : s.schedules.get? sid = some r)
      (unregistered : s.runningTasks.contains (s.entries r).taskType = false)
      (internet : (taskTypes (s.entries r).taskType).respectInternet = true) :
      TriggerTurn s now i sid .start .wake s
        (.triggerNow sid (.internet r (taskTypes (s.entries r).taskType)))
  /-- The type does not need the internet: the claim is made in the first turn. -/
  | claimed {r d} (known : s.schedules.get? sid = some r)
      (unregistered : s.runningTasks.contains (s.entries r).taskType = false)
      (internet : (taskTypes (s.entries r).taskType).respectInternet = false)
      (claim : s.triggerNowClaim now i sid r (taskTypes (s.entries r).taskType) = d) :
      TriggerTurn s now i sid .start .wake d.1 d.2
  | online {r taskDef d} (claim : s.triggerNowClaim now i sid r taskDef = d) :
      TriggerTurn s now i sid (.internet r taskDef) (.alive true) d.1 d.2
  | offline {r taskDef} :
      TriggerTurn s now i sid (.internet r taskDef) (.alive false) s (.done (.verdict false))
  | locked {r taskDef taken d} (lock : s.lockTurn i = true)
      (launch : (s.leaveWaiters i).triggerNowLaunch now sid r = d) :
      TriggerTurn s now i sid (.lock r taskDef taken) .wake d.1 d.2

/-- **The turns of `trigger_now`.** -/
theorem trigger_turn {pc : TriggerPc} {c' : Code}
    (h : s.triggerNowStep now i sid pc inp = some (s', c')) :
    TriggerTurn s now i sid pc inp s' c' := by
  cases pc with
  | start =>
    cases inp with
    | wake =>
      simp only [triggerNowStep] at h
      split at h
      · next hnone =>
        cases h
        exact .unknown hnone
      · next r hr =>
        split at h
        · next hreg =>
          cases h
          exact .running hr hreg
        · next hreg =>
          have hunreg := Bool.eq_false_iff.mpr hreg
          split at h
          · next hon =>
            cases h
            exact .asked hr hunreg hon
          · next hoff => exact .claimed hr hunreg (Bool.eq_false_iff.mpr hoff) (Option.some.inj h)
    | _ => simp [triggerNowStep] at h
  | internet r taskDef =>
    cases inp with
    | alive verdict =>
      cases verdict with
      | true => exact .online (Option.some.inj h)
      | false =>
        cases h
        exact .offline
    | _ => simp [triggerNowStep] at h
  | lock r taskDef taken =>
    cases inp with
    | wake =>
      simp only [triggerNowStep, Option.ite_none_right_eq_some, Option.some.injEq] at h
      exact .locked h.1 h.2
    | _ => simp [triggerNowStep] at h

theorem triggerNowLaunch_code (s : SchedulerEngine) (now : Time) (sid : Sid) (r : Ref) :
    ∃ verdict, (s.triggerNowLaunch now sid r).2 = .done (.verdict verdict) := by
  unfold triggerNowLaunch
  split
  · exact ⟨false, rfl⟩
  · exact ⟨true, rfl⟩

/-- A claim ends the call or leaves it waiting for the launch lock. -/
theorem triggerNowClaim_code (s : SchedulerEngine) (now : Time) (i : TaskId) (sid : Sid) (r : Ref)
    (taskDef : TaskDef) :
    (∃ verdict, (s.triggerNowClaim now i sid r taskDef).2 = .done (.verdict verdict)) ∨
      ∃ pc, (s.triggerNowClaim now i sid r taskDef).2 = .triggerNow sid pc := by
  unfold triggerNowClaim
  split
  · exact .inl ⟨true, rfl⟩
  · dsimp only
    split
    · exact .inl ⟨true, rfl⟩
    · split
      · exact .inl (triggerNowLaunch_code _ now sid r)
      · exact .inr ⟨_, rfl⟩

/-- A `trigger_now` has ended after its turn, or it is a `trigger_now` still. -/
theorem triggerNowStep_code {pc : TriggerPc} {c' : Code}
    (h : s.triggerNowStep now i sid pc inp = some (s', c')) :
    (∃ verdict, c' = .done (.verdict verdict)) ∨ ∃ pc, c' = .triggerNow sid pc := by
  cases trigger_turn h with
  | unknown => exact .inl ⟨false, rfl⟩
  | running => exact .inl ⟨false, rfl⟩
  | asked => exact .inr ⟨_, rfl⟩
  | claimed known unregistered internet claim =>
    subst claim
    exact s.triggerNowClaim_code now i sid _ _
  | online claim =>
    subst claim
    exact s.triggerNowClaim_code now i sid _ _
  | offline => exact .inl ⟨false, rfl⟩
  | locked lock launch =>
    subst launch
    exact .inl (triggerNowLaunch_code _ now sid _)

/-! ### Cancelled turns -/

/-- A task that ends with its cancellation gives up the launch lock or its place in the queue
for it, and touches nothing else. -/
theorem cancelStep_eq {c c' : Code} (h : s.cancelStep i c = some (s', c')) :
    ∃ lock waiters, s' = { s with launchLock := lock, lockWaiters := waiters } ∧
      c' = .done .nothing := by
  unfold cancelStep at h
  split at h
  · cases h
    unfold abandonDrain
    split
    · split
      · exact ⟨_, _, rfl, rfl⟩
      · exact ⟨_, _, rfl, rfl⟩
    · exact ⟨_, _, rfl, rfl⟩
  · split at h
    · split at h <;> cases h
      exact ⟨_, _, rfl, rfl⟩
    · cases h
      exact ⟨_, _, rfl, rfl⟩

/-- **A turn** ends its task with the cancellation, or is a turn of the coroutine. -/
theorem turn_cases {c' : Code} (h : s.turn now i inp = some (s', c')) :
    (∃ lock waiters, s' = { s with launchLock := lock, lockWaiters := waiters } ∧
      c' = .done .nothing) ∨
    s.codeStep now i (s.code i) inp = some (s', c') := by
  unfold turn at h
  dsimp only at h
  split at h
  · simp only [Option.ite_none_right_eq_some] at h
    exact .inl (cancelStep_eq h.2)
  · exact .inr h

end HuntProxy.SchedulerEngine
