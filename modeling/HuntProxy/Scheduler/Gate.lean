import HuntProxy.Scheduler.Frame

/-!
# The turns of the main loop

A turn of `_run_loop` outside its drain either comes to an await of the internet gate, or
passes the gate and goes on with the tick. `LoopTurn` lists the turns with the state in
which the tick goes on; what a turn of the loop keeps is read off this list.

## Main definitions

- `LoopTurn`, `loop_turn` — the turns of the main loop
- `gateDown` — the gate's reaction to the loss of the internet
-/

namespace HuntProxy.SchedulerEngine

variable {s s' : SchedulerEngine} {now : Time}

theorem afterGate_kept (s : SchedulerEngine) (now : Time) : s.Kept (s.afterGate now).1 := by
  unfold afterGate
  split
  · exact .refl s
  · exact s.enqueueDue_kept now

theorem afterGate_code (s : SchedulerEngine) (now : Time) :
    (s.afterGate now).2 = .loop .sleeping ∨ (s.afterGate now).2 = .loop (.draining .start) := by
  unfold afterGate
  split
  · exact .inl rfl
  · exact .inr rfl

/-- The internet has gone: pause, and cancel the runs that need it. -/
def gateDown (s : SchedulerEngine) : SchedulerEngine :=
  (({ s with pausedByInternet := true } : SchedulerEngine).pauseAll).cancelTasks
    (s.checkTasks.map Prod.snd)

/-- The internet is back. -/
def gateUp (s : SchedulerEngine) : SchedulerEngine :=
  ({ s with pausedByInternet := false } : SchedulerEngine).resumeAll

/-- The turns of the main loop outside its drain. -/
inductive LoopTurn (s : SchedulerEngine) (now : Time) :
    LoopPc → Input → SchedulerEngine → Code → Prop
  /-- A tick of a stopped or paused scheduler does not ask for the internet. -/
  | skipped : LoopTurn s now .sleeping .wake (s.afterGate now).1 (s.afterGate now).2
  | asked : LoopTurn s now .sleeping .wake s (.loop .gateInternet)
  /-- The verdict is the one the gate already acts on. -/
  | same {alive : Bool} (known : s.pausedByInternet = !alive) :
      LoopTurn s now .gateInternet (.alive alive) (s.afterGate now).1 (s.afterGate now).2
  | up (known : s.pausedByInternet = true) :
      LoopTurn s now .gateInternet (.alive true) (s.gateUp.afterGate now).1
        (s.gateUp.afterGate now).2
  | down (known : s.pausedByInternet = false) :
      LoopTurn s now .gateInternet (.alive false) (s.gateDown.afterGate now).1
        (s.gateDown.afterGate now).2
  /-- The gate waits for the runs it has cancelled. -/
  | cancelled (known : s.pausedByInternet = false) :
      LoopTurn s now .gateInternet (.alive false) s.gateDown (.loop (.gateGather s.checkTasks))
  | gathered {running : List (TaskType × TaskId)} :
      LoopTurn s now (.gateGather running) .wake
        (({ s with runningTasks := s.runningTasks.eraseAll (running.map Prod.fst) } :
          SchedulerEngine).afterGate now).1
        (({ s with runningTasks := s.runningTasks.eraseAll (running.map Prod.fst) } :
          SchedulerEngine).afterGate now).2

/-- **The turns of the main loop.** -/
theorem loop_turn {pc : LoopPc} {inp : Input} {c' : Code}
    (h : s.loopStep now pc inp = some (s', c')) : LoopTurn s now pc inp s' c' := by
  cases pc with
  | sleeping =>
    cases inp with
    | wake =>
      simp only [loopStep] at h
      split at h
      · have heq := Option.some.inj h
        have ht : LoopTurn s now .sleeping .wake (s.afterGate now).1 (s.afterGate now).2 := .skipped
        rwa [heq] at ht
      · cases h
        exact .asked
    | _ => simp [loopStep] at h
  | gateInternet =>
    cases inp with
    | alive verdict =>
      simp only [loopStep, Option.some.injEq, gateVerdict] at h
      cases verdict with
      | true =>
        -- up: the gate lifts its own pause
        rw [if_pos rfl] at h
        split at h
        · next hknown =>
          have ht : LoopTurn s now .gateInternet (.alive true) _ _ := .up hknown
          rwa [gateUp, h] at ht
        · next hknown =>
          have ht : LoopTurn s now .gateInternet (.alive true) _ _ :=
            .same (Bool.eq_false_iff.mpr hknown)
          rwa [h] at ht
      | false =>
        -- down: it pauses, and waits for the runs that it cancels
        rw [if_neg Bool.false_ne_true] at h
        split at h
        · next hknown =>
          have ht : LoopTurn s now .gateInternet (.alive false) _ _ := .same hknown
          rwa [h] at ht
        · next hknown =>
          have hknown : s.pausedByInternet = false := Bool.eq_false_iff.mpr hknown
          split at h
          · have ht : LoopTurn s now .gateInternet (.alive false) _ _ := .down hknown
            rwa [gateDown, h] at ht
          · cases h
            exact .cancelled hknown
    | _ => simp [loopStep] at h
  | gateGather running =>
    cases inp with
    | wake =>
      simp only [loopStep] at h
      split at h
      · have heq := Option.some.inj h
        have ht : LoopTurn s now (.gateGather running) .wake _ _ := .gathered
        rwa [heq] at ht
      · cases h
    | _ => simp [loopStep] at h
  | draining p => cases inp <;> simp [loopStep] at h

end HuntProxy.SchedulerEngine
