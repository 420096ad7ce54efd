import HuntProxy.Scheduler.Effect

/-!
# What a turn does to the queue

A drain walks a snapshot of the queue. `todo` is what it has yet to try, the schedule it
is just launching included. A turn of a drain takes the first schedule of its `todo`
through one decision; `DrainTurn` lists the outcomes. The other coroutines only add to
the queue, apart from `trigger_now`, which takes its own schedule off it, and the bulk
cancellations, which clear it.

## Main definitions

- `DrainPc.todo` — the schedules a drain has yet to try
- `DrainTurn`, `drain_turn` — the outcomes of a drain's turn
- `QueueKept` — no schedule leaves the queue
-/

namespace HuntProxy

/-- The schedules of its snapshot that a drain has yet to try, the one it is launching
included. -/
def DrainPc.todo : DrainPc → List Sid
  | .start => []
  | .next rest => rest
  | .launching l rest => l.sid :: rest

namespace SchedulerEngine

theorem drain?_of_done {c : Code} (h : c.isDone = true) : c.drain? = none := by
  cases c <;> first | rfl | cases h

/-- The outcomes of a turn of a drain at `p`. -/
inductive DrainTurn (s : SchedulerEngine) (p : DrainPc) :
    SchedulerEngine → Option DrainPc → Prop
  /-- The drain returns. -/
  | ended : DrainTurn s p s none
  /-- The drain takes its snapshot. -/
  | began (at_ : p = .start) (unpaused : s.paused = false) :
      DrainTurn s p s (some (.next s.queue.keys))
  /-- A schedule that is not known any more leaves the queue. -/
  | dropped {x rest} (at_ : p = .next (x :: rest)) (unknown : s.schedules.get? x = none) :
      DrainTurn s p (s.dequeue x) (some (.next rest))
  /-- A schedule stays on the queue. -/
  | blocked {s' x rest} (todo : p.todo = x :: rest) (queue : s'.queue = s.queue)
      (still : s.Still s') : DrainTurn s p s' (some (.next rest))
  /-- A launch comes to its next await. -/
  | waits {s' x rest l} (todo : p.todo = x :: rest) (sid : l.sid = x)
      (known : p.launch? = none → ∃ r, s.schedules.get? x = some r)
      (queue : s'.queue = s.queue) (still : s.Still s') :
      DrainTurn s p s' (some (.launching l rest))
  /-- A schedule is launched and leaves the queue. -/
  | launched {s' x rest key} (todo : p.todo = x :: rest)
      (known : p.launch? = none → ∃ r, s.schedules.get? x = some r)
      (run : s.Launched s' x key false) (queue : s'.queue = s.queue.erase x) :
      DrainTurn s p s' (some (.next rest))

/-- A launch decision, seen from the drain that made it. -/
theorem decision_drain {s s₁ : SchedulerEngine} {now : Time} {i : TaskId} {p : DrainPc}
    {sid : Sid} {r : Ref} {taskDef : TaskDef} {rest : List Sid}
    {d : SchedulerEngine × LaunchResult} {d' : SchedulerEngine × Option DrainPc}
    (htodo : p.todo = sid :: rest)
    (hknown : p.launch? = none → ∃ r, s.schedules.get? sid = some r) (hstill : s.Still s₁)
    (hqueue : s₁.queue = s.queue) (hd : LaunchDecision s₁ now i sid r taskDef d)
    (hd' : drainAfter sid rest d = d') : DrainTurn s p d'.1 d'.2 := by
  subst hd'
  cases hd with
  | blocked hs host => exact .blocked htodo hqueue (hstill.with_host host)
  | suspended hs host hunreg hclear =>
    have hlocked : Still ({ s₁ with state := hs } : SchedulerEngine)
        { s₁ with state := hs, launchLock := some i } :=
      .of_eq rfl rfl rfl (.of_eq rfl rfl rfl rfl)
    exact .waits htodo rfl hknown hqueue ((hstill.with_host host).trans hlocked)
  | launched hs host hunreg hclear hoff =>
    have hl := launch_launched { s₁ with state := hs } now sid r false
    have hl := (hl.of_still (hstill.with_host host)).then_still (dequeue_kept _ sid).still
    exact .launched htodo hknown hl (congrArg (Dict.erase · sid) hqueue)

/-- **The outcomes of a drain's turn.** -/
theorem drain_turn {s s' : SchedulerEngine} {now : Time} {i : TaskId} {p : DrainPc}
    {q : Option DrainPc} {inp : Input} (h : s.drainStep now i p inp = some (s', q)) :
    DrainTurn s p s' q := by
  cases drain_move h with
  | idle => exact .ended
  | began started unpaused => exact .began rfl unpaused
  | exhausted => exact .ended
  | dropped unknown => exact .dropped rfl unknown
  | running known registered => exact .blocked rfl rfl (.refl s)
  | @decided sid rest r d known unregistered lock decision =>
    subst decision
    exact decision_drain (r := r) rfl (fun _ => ⟨r, known⟩) (.refl s) rfl
      (launchChecks_spec s now i sid r _) rfl
  | waits known unregistered lock =>
    exact .waits rfl rfl (fun _ => ⟨_, known⟩) rfl (.of_eq rfl rfl rfl (.of_eq rfl rfl rfl rfl))
  | @woken sid r taskDef rest d lock decision =>
    subst decision
    exact decision_drain rfl (fun h => by cases h) (leaveWaiters_still s i) rfl
      (launchChecks_spec _ now i sid r taskDef) rfl
  | @online sid r taskDef key rest =>
    have hl := launch_launched s now sid r false
    exact .launched rfl (fun h => by cases h)
      (hl.then_still (.of_eq rfl rfl rfl (.of_eq rfl rfl rfl rfl))) rfl
  | offline => exact .blocked rfl rfl (.of_eq rfl rfl rfl (.of_eq rfl rfl rfl rfl))

/-! ### The other coroutines -/

/-- No schedule leaves the queue. -/
def QueueKept (s s' : SchedulerEngine) : Prop :=
  ∀ sid, s.queue.contains sid = true → s'.queue.contains sid = true

theorem QueueKept.refl (s : SchedulerEngine) : s.QueueKept s := fun _ h => h

theorem QueueKept.of_eq {s s' : SchedulerEngine} (h : s'.queue = s.queue) : s.QueueKept s' :=
  fun _ hsid => h ▸ hsid

theorem QueueKept.trans {s s' s'' : SchedulerEngine} (h : s.QueueKept s')
    (h' : s'.QueueKept s'') : s.QueueKept s'' :=
  fun sid hsid => h' sid (h sid hsid)

theorem enqueue_queueKept (s : SchedulerEngine) (now : Time) (sid : Sid) :
    s.QueueKept (s.enqueue now sid) := by
  intro sid' hsid'
  unfold enqueue
  split
  · exact hsid'
  · split
    · exact hsid'
    · rw [Dict.contains_eq_true] at hsid' ⊢
      obtain ⟨t, ht⟩ := hsid'
      rw [Dict.get?_insert]
      split
      · exact ⟨now, rfl⟩
      · exact ⟨t, ht⟩

/-- A known schedule is queued after `_enqueue`. -/
theorem enqueue_contains {s : SchedulerEngine} {sid : Sid} {r : Ref}
    (hr : s.schedules.get? sid = some r) (now : Time) :
    (s.enqueue now sid).queue.contains sid = true := by
  unfold enqueue
  split
  · next hnone =>
    rw [hnone] at hr
    cases hr
  · split
    · next hcontains => exact hcontains
    · rw [Dict.contains_eq_true]
      exact ⟨now, by rw [Dict.get?_insert, if_pos rfl]⟩

theorem queueKept_foldl {α : Type*} (f : SchedulerEngine → α → SchedulerEngine)
    (hf : ∀ (s : SchedulerEngine) (a : α), s.QueueKept (f s a)) (l : List α)
    (s : SchedulerEngine) : s.QueueKept (l.foldl f s) := by
  induction l generalizing s with
  | nil => exact .refl s
  | cons a rest ih => exact (hf s a).trans (ih (f s a))

theorem afterGate_queueKept (s : SchedulerEngine) (now : Time) :
    s.QueueKept (s.afterGate now).1 := by
  unfold afterGate
  split
  · exact .refl s
  · refine queueKept_foldl _ (fun s p => ?_) _ _
    dsimp only
    split
    · exact .refl s
    · exact s.enqueue_queueKept now p.1

theorem markCancelled_queueKept (s : SchedulerEngine) (now : Time) (reason : String) :
    s.QueueKept (s.markCancelled now reason) := by
  refine queueKept_foldl _ (fun s r => ?_) _ _
  dsimp only
  split
  · exact .of_eq rfl
  · exact .refl s

/-- The turns that clear the queue as a whole: `cancel_all` and `stop`. -/
def clearsQueue : Code → Bool
  | .cancelAll _ .start => true
  | .stop .start => true
  | .stop (.gather _) => true
  | _ => false

theorem loopStep_queueKept {s s' : SchedulerEngine} {now : Time} {pc : LoopPc} {c' : Code}
    {inp : Input} (h : s.loopStep now pc inp = some (s', c')) : s.QueueKept s' := by
  cases loop_turn h with
  | skipped => exact s.afterGate_queueKept now
  | asked => exact .refl s
  | same known => exact s.afterGate_queueKept now
  | up known => exact s.gateUp.afterGate_queueKept now
  | down known => exact s.gateDown.afterGate_queueKept now
  | cancelled known => exact .of_eq rfl
  | @gathered running =>
    exact afterGate_queueKept ({ s with
      runningTasks := s.runningTasks.eraseAll (running.map Prod.fst) } : SchedulerEngine) now

theorem runStep_queueKept {s s' : SchedulerEngine} {now : Time} {sid : Sid} {key : TaskType}
    {triggered : Bool} {pc : RunPc} {c' : Code} {inp : Input}
    (h : s.runStep now sid key triggered pc inp = some (s', c')) : s.QueueKept s' := by
  cases run_turn h with
  | gone unknown => exact .refl s
  | began known => exact .refl s
  | ended => exact .of_eq rfl

/-! ### Where a turn leaves a coroutine that was in no drain -/

/-- The coroutine is in no drain, or about to begin one. -/
def BeforeDrain (c : Code) : Prop := c.drain? = none ∨ c.drain? = some .start

theorem afterGate_before (s : SchedulerEngine) (now : Time) : BeforeDrain (s.afterGate now).2 := by
  rcases s.afterGate_code now with h | h <;> rw [h]
  · exact .inl rfl
  · exact .inr rfl

theorem loopStep_before {s s' : SchedulerEngine} {now : Time} {pc : LoopPc} {c' : Code}
    {inp : Input} (h : s.loopStep now pc inp = some (s', c')) : BeforeDrain c' := by
  cases loop_turn h with
  | asked => exact .inl rfl
  | cancelled known => exact .inl rfl
  | _ => exact afterGate_before _ now

/-- What a coroutine that was in no drain leaves behind. Only the main loop leaves a main
loop. -/
theorem codeStep_left {s s' : SchedulerEngine} {now : Time} {i : TaskId} {c c' : Code}
    {inp : Input} (hp : c.drain? = none) (h : s.codeStep now i c inp = some (s', c')) :
    (∃ pc, c = .loop pc ∧ s.loopStep now pc inp = some (s', c')) ∨
      BeforeDrain c' ∧ ∀ pc, c' ≠ .loop pc := by
  unfold codeStep at h
  rw [hp] at h
  cases c with
  | run sid key triggered pc =>
    cases run_turn h with
    | gone unknown => exact .inr ⟨.inl rfl, by simp⟩
    | began known => exact .inr ⟨.inl rfl, by simp⟩
    | ended => exact .inr ⟨.inr rfl, by simp⟩
  | loop pc => exact .inl ⟨pc, rfl, h⟩
  | trigger sid p =>
    simp only [Option.ite_none_right_eq_some, Option.some.injEq, triggerStep] at h
    obtain ⟨-, h⟩ := h
    split at h <;> cases h
    · exact .inr ⟨.inl rfl, by simp⟩
    · exact .inr ⟨.inr rfl, by simp⟩
  | triggerNow sid pc =>
    rcases triggerNowStep_code h with ⟨verdict, rfl⟩ | ⟨pc', rfl⟩
    · exact .inr ⟨.inl rfl, by simp⟩
    · exact .inr ⟨.inl rfl, by simp⟩
  | cancelAll reason pc =>
    simp only [Option.ite_none_right_eq_some] at h
    obtain ⟨-, h⟩ := h
    cases pc with
    | start =>
      simp only [cancelAllStep] at h
      split at h <;> cases h <;> exact .inr ⟨.inl rfl, by simp⟩
    | gather running =>
      simp only [cancelAllStep] at h
      split at h <;> cases h
      exact .inr ⟨.inl rfl, by simp⟩
  | stop pc =>
    simp only [Option.ite_none_right_eq_some] at h
    obtain ⟨-, h⟩ := h
    cases pc with
    | start =>
      simp only [stopStep] at h
      split at h <;> cases h <;> exact .inr ⟨.inl rfl, by simp⟩
    | awaitLoop l =>
      simp only [stopStep] at h
      split at h <;> cases h
      exact .inr ⟨.inl rfl, by simp⟩
    | gather running =>
      simp only [stopStep] at h
      split at h <;> cases h
      exact .inr ⟨.inl rfl, by simp⟩
  | done v => cases h

theorem codeStep_before {s s' : SchedulerEngine} {now : Time} {i : TaskId} {c c' : Code}
    {inp : Input} (hp : c.drain? = none) (h : s.codeStep now i c inp = some (s', c')) :
    BeforeDrain c' := by
  rcases codeStep_left hp h with ⟨pc, -, hloop⟩ | ⟨hbefore, -⟩
  · exact loopStep_before hloop
  · exact hbefore

/-- Two descriptions of one launch agree. -/
theorem Launched.unique {s s' : SchedulerEngine} {sid sid' : Sid} {key key' : TaskType}
    {triggered triggered' : Bool} (h : s.Launched s' sid key triggered)
    (h' : s.Launched s' sid' key' triggered') :
    sid = sid' ∧ key = key' ∧ triggered = triggered' := by
  have heq := (h.code s.nextTask).symm.trans (h'.code s.nextTask)
  rw [if_pos rfl, if_pos rfl] at heq
  cases heq
  exact ⟨rfl, rfl, rfl⟩

/-- Outside a drain only `trigger_now` launches. -/
theorem TurnEffect.not_launched {s s' : SchedulerEngine} {i : TaskId} {inp : Input} {c c' : Code}
    (h : TurnEffect s i inp c s' c') (hp : c.drain? = none) {sid : Sid} {key : TaskType} :
    ¬ s.Launched s' sid key false := by
  intro hl
  have hnext : s'.nextTask ≠ s.nextTask := by
    rw [hl.nextTask]
    exact Nat.succ_ne_self _
  cases h with
  | quiet still => exact hnext still.nextTask
  | hold still => exact hnext still.nextTask
  | drop still => exact hnext still.nextTask
  | launchFree launched _ _ _ _ _ _ _ _ _ _ origin =>
    have horigin := origin (launched.unique hl).2.2
    rw [hp] at horigin
    cases horigin
  | launchWaited at_ wake launched => exact absurd (launched.unique hl).2.2 (by decide)
  | launchHeld launched verdict lock live live' before =>
    rw [Code.tested_of_no_drain hp] at before
    cases before
  | finish at_ held code nextTask => exact hnext nextTask
  | vanish at_ why => exact hnext rfl
  | clear held code nextTask => exact hnext nextTask

/-- A turn, seen from the drains: a turn of a drain, or one that leaves no drain under
way and launches nothing unless it was triggered. -/
theorem turn_drains {s s₁ : SchedulerEngine} {now : Time} {i : TaskId} {inp : Input} {c' : Code}
    (h : s.turn now i inp = some (s₁, c')) :
    (∃ p q, (s.code i).drain? = some p ∧ s.DrainTurn p s₁ q ∧
      c' = (s.code i).afterDrainStep q) ∨
    BeforeDrain c' ∧ ∀ sid key, ¬ s.Launched s₁ sid key false := by
  rcases turn_cases h with ⟨lock, waiters, rfl, rfl⟩ | h
  · refine .inr ⟨.inl rfl, fun sid key hl => ?_⟩
    exact absurd hl.nextTask (Nat.succ_ne_self s.nextTask).symm
  · cases hp : (s.code i).drain? with
    | some p =>
      left
      simp only [codeStep, hp, Option.map_eq_some_iff] at h
      obtain ⟨⟨s₂, q⟩, hq, h⟩ := h
      cases h
      exact ⟨p, q, rfl, drain_turn hq, rfl⟩
    | none => exact .inr ⟨codeStep_before hp h, fun _ _ => (codeStep_effect h).not_launched hp⟩

end SchedulerEngine

end HuntProxy
