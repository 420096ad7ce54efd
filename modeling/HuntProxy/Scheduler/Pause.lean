import HuntProxy.Scheduler.Cover
import HuntProxy.Scheduler.Drain

/-!
# The pause of the scheduler

`_paused` is tested once at the start of a drain, which then awaits the launch lock and
the internet check for every schedule of its snapshot. So a pause does not reach a drain
that is under way. It is effective in the runs whose steps are all `restful`: a pause is
set only when no drain has anything left to try. A drain that begins later ends at once.

## Main results

- `turn_pause` — only the gate changes the pause in a turn
- `PauseInv` — the drains under a pause, and the registered scheduled runs
- `PauseInv.no_start` — under a pause no scheduled run is started
-/

namespace HuntProxy.SchedulerEngine

/-! ### What a turn does to the pause -/

/-- The pause and its owner's mark are the same. -/
def PauseKept (s s' : SchedulerEngine) : Prop :=
  s'.paused = s.paused ∧ s'.pausedByInternet = s.pausedByInternet

/-- What a turn at `c` does to the pause: nothing, or what the gate makes of a verdict
that is news to it. -/
inductive PauseTurn (s : SchedulerEngine) (inp : Input) (c : Code) (s' : SchedulerEngine) : Prop
  | kept (same : s.PauseKept s')
  | up (at_ : c = .loop .gateInternet) (verdict : inp = .alive true)
      (known : s.pausedByInternet = true) (paused : s'.paused = false)
      (mark : s'.pausedByInternet = false)
  | down (at_ : c = .loop .gateInternet) (verdict : inp = .alive false)
      (known : s.pausedByInternet = false) (paused : s'.paused = true)
      (mark : s'.pausedByInternet = true)

theorem PauseKept.refl (s : SchedulerEngine) : s.PauseKept s := ⟨rfl, rfl⟩

theorem Kept.pauseKept {s s' : SchedulerEngine} (h : s.Kept s') : s.PauseKept s' :=
  ⟨h.paused, h.pausedByInternet⟩

theorem launchChecks_pause (s : SchedulerEngine) (now : Time) (me : TaskId) (sid : Sid) (r : Ref)
    (taskDef : TaskDef) : s.PauseKept (s.launchChecks now me sid r taskDef).1 := by
  have hd := s.launchChecks_spec now me sid r taskDef
  generalize s.launchChecks now me sid r taskDef = d at hd
  cases hd <;> exact ⟨rfl, rfl⟩

theorem drainAfter_pause {s : SchedulerEngine} {d : SchedulerEngine × LaunchResult}
    (h : s.PauseKept d.1) (sid : Sid) (rest : List Sid) :
    s.PauseKept (drainAfter sid rest d).1 := by
  obtain ⟨s₁, res⟩ := d
  cases res <;> exact h

theorem drainStep_pause {s s' : SchedulerEngine} {now : Time} {i : TaskId} {p : DrainPc}
    {q : Option DrainPc} {inp : Input} (h : s.drainStep now i p inp = some (s', q)) :
    s.PauseKept s' := by
  cases drain_move h with
  | decided known unregistered lock decision =>
    subst decision
    exact drainAfter_pause (s.launchChecks_pause now i _ _ _) _ _
  | woken lock decision =>
    subst decision
    exact drainAfter_pause ((s.leaveWaiters i).launchChecks_pause now i _ _ _) _ _
  | _ => exact ⟨rfl, rfl⟩

theorem triggerNowLaunch_pause (s : SchedulerEngine) (now : Time) (sid : Sid) (r : Ref) :
    s.PauseKept (s.triggerNowLaunch now sid r).1 := by
  unfold triggerNowLaunch
  split <;> exact ⟨rfl, rfl⟩

theorem triggerNowClaim_pause (s : SchedulerEngine) (now : Time) (i : TaskId) (sid : Sid) (r : Ref)
    (taskDef : TaskDef) : s.PauseKept (s.triggerNowClaim now i sid r taskDef).1 := by
  unfold triggerNowClaim
  split
  · exact (s.enqueue_kept now sid).pauseKept
  · next s₁ hs₁ =>
    obtain ⟨hs, -, rfl⟩ := checkBusyFlag_kept hs₁
    dsimp only
    split
    · have hk := (dequeue_kept { s with state := hs } sid).trans
        (enqueue_kept (({ s with state := hs } : SchedulerEngine).dequeue sid) now sid)
      exact hk.pauseKept
    · split
      · exact (({ s with state := hs } : SchedulerEngine).dequeue sid).triggerNowLaunch_pause now sid r
      · exact ⟨rfl, rfl⟩

theorem triggerNowStep_pause {s s' : SchedulerEngine} {now : Time} {i : TaskId} {sid : Sid}
    {pc : TriggerPc} {c' : Code} {inp : Input}
    (h : s.triggerNowStep now i sid pc inp = some (s', c')) : s.PauseKept s' := by
  cases trigger_turn h with
  | claimed known unregistered internet claim =>
    subst claim
    exact s.triggerNowClaim_pause now i sid _ _
  | online claim =>
    subst claim
    exact s.triggerNowClaim_pause now i sid _ _
  | locked lock launch =>
    subst launch
    exact (s.leaveWaiters i).triggerNowLaunch_pause now sid _
  | _ => exact .refl s

theorem cancelAllStep_pause {s s' : SchedulerEngine} {now : Time} {reason : String}
    {pc : CancelAllPc} {c' : Code} (h : s.cancelAllStep now reason pc = some (s', c')) :
    s.PauseKept s' := by
  cases pc with
  | start =>
    simp only [cancelAllStep] at h
    split at h
    · cases h
      exact ⟨(markCancelled_kept _ now reason).paused, (markCancelled_kept _ now reason).pausedByInternet⟩
    · cases h
      exact ⟨rfl, rfl⟩
  | gather running =>
    simp only [cancelAllStep] at h
    split at h <;> cases h
    exact ⟨(markCancelled_kept _ now reason).paused, (markCancelled_kept _ now reason).pausedByInternet⟩

theorem stopStep_pause {s s' : SchedulerEngine} {pc : StopPc} {c' : Code}
    (h : s.stopStep pc = some (s', c')) : s.PauseKept s' := by
  cases pc with
  | start =>
    simp only [stopStep] at h
    split at h <;> cases h <;> exact ⟨rfl, rfl⟩
  | awaitLoop l =>
    simp only [stopStep] at h
    split at h <;> cases h
    exact ⟨rfl, rfl⟩
  | gather running =>
    simp only [stopStep] at h
    split at h <;> cases h
    exact ⟨rfl, rfl⟩

/-- The gate decides on the pause before the tick goes on. -/
theorem loopStep_pause {s s' : SchedulerEngine} {now : Time} {pc : LoopPc} {inp : Input} {c' : Code}
    (h : s.loopStep now pc inp = some (s', c')) : s.PauseTurn inp (.loop pc) s' := by
  cases loop_turn h with
  | skipped => exact .kept (s.afterGate_kept now).pauseKept
  | asked => exact .kept (.refl s)
  | same known => exact .kept (s.afterGate_kept now).pauseKept
  | up known =>
    have hk := s.gateUp.afterGate_kept now
    exact .up rfl rfl known hk.paused hk.pausedByInternet
  | down known =>
    have hk := s.gateDown.afterGate_kept now
    exact .down rfl rfl known hk.paused hk.pausedByInternet
  | cancelled known => exact .down rfl rfl known rfl rfl
  | @gathered running =>
    have hk := afterGate_kept ({ s with
      runningTasks := s.runningTasks.eraseAll (running.map Prod.fst) } : SchedulerEngine) now
    exact .kept ⟨hk.paused, hk.pausedByInternet⟩

/-- **Only the gate changes the pause in a turn.** -/
theorem turn_pause {s s₁ : SchedulerEngine} {now : Time} {i : TaskId} {inp : Input} {c' : Code}
    (h : s.turn now i inp = some (s₁, c')) : s.PauseTurn inp (s.code i) s₁ := by
  rcases turn_cases h with ⟨lock, waiters, rfl, -⟩ | h
  · exact .kept ⟨rfl, rfl⟩
  · cases hp : (s.code i).drain? with
    | some p =>
      simp only [codeStep, hp, Option.map_eq_some_iff] at h
      obtain ⟨⟨s₂, q⟩, hq, h⟩ := h
      cases h
      exact .kept (drainStep_pause hq)
    | none =>
      simp only [codeStep, hp] at h
      cases hc : s.code i with
      | run sid key triggered pc =>
        rw [hc] at h
        refine .kept ?_
        cases run_turn h <;> exact ⟨rfl, rfl⟩
      | loop pc =>
        rw [hc] at h
        exact loopStep_pause h
      | trigger sid p =>
        rw [hc] at h
        simp only [Option.ite_none_right_eq_some, Option.some.injEq, triggerStep] at h
        obtain ⟨-, h⟩ := h
        split at h <;> cases h
        · exact .kept (.refl s)
        · exact .kept (s.enqueue_kept now sid).pauseKept
      | triggerNow sid pc =>
        rw [hc] at h
        exact .kept (triggerNowStep_pause h)
      | cancelAll reason pc =>
        rw [hc] at h
        simp only [Option.ite_none_right_eq_some] at h
        exact .kept (cancelAllStep_pause h.2)
      | stop pc =>
        rw [hc] at h
        simp only [Option.ite_none_right_eq_some] at h
        exact .kept (stopStep_pause h.2)
      | done v => rw [hc] at h; cases h

/-! ### The gate's wait -/

/-- The coroutine is that of the main loop. -/
def isLoop : Code → Bool
  | .loop _ => true
  | _ => false

/-- A coroutine without a drain that leaves the main loop behind is the main loop. -/
theorem codeStep_isLoop {s s' : SchedulerEngine} {now : Time} {i : TaskId} {c c' : Code}
    {inp : Input} (hp : c.drain? = none) (h : s.codeStep now i c inp = some (s', c'))
    (hc' : isLoop c' = true) : ∃ pc, c = .loop pc ∧ s.loopStep now pc inp = some (s', c') := by
  rcases codeStep_left hp h with hloop | ⟨-, hother⟩
  · exact hloop
  · cases c' with
    | loop pc => exact absurd rfl (hother pc)
    | _ => cases hc'

/-- The gate waits for the runs it has cancelled only after it has set its mark. -/
theorem turn_gather {s s₁ : SchedulerEngine} {now : Time} {i : TaskId} {inp : Input}
    {running : List (TaskType × TaskId)}
    (h : s.turn now i inp = some (s₁, .loop (.gateGather running))) :
    s₁.pausedByInternet = true := by
  rcases turn_cases h with ⟨-, -, -, hdone⟩ | h
  · cases hdone
  · cases hp : (s.code i).drain? with
    | some p =>
      simp only [codeStep, hp, Option.map_eq_some_iff] at h
      obtain ⟨⟨s₂, q⟩, -, h⟩ := h
      have hc := (Prod.mk.inj h).2
      cases q with
      | none => cases hcode : s.code i <;> rw [hcode] at hc <;> cases hc
      | some q => cases hcode : s.code i <;> rw [hcode] at hc hp <;> cases hc
    | none =>
      obtain ⟨pc, -, hloop⟩ := codeStep_isLoop hp h rfl
      generalize hc' : Code.loop (.gateGather running) = c' at hloop
      cases loop_turn hloop with
      | asked => cases hc'
      | cancelled known => rfl
      | _ =>
        rcases afterGate_code _ now with hcode | hcode <;> rw [hcode] at hc' <;> cases hc'

/-! ### Drains under a pause -/

/-- No drain has a schedule left to try. -/
def drainsIdle (s : SchedulerEngine) : Bool :=
  (List.range s.nextTask).all (fun i => (s.code i).drain?.all (fun p => p.todo.isEmpty))

/-- The step sets the pause: `pause_all`, or the gate when it learns that the internet has
gone. -/
def setsPause (s : SchedulerEngine) : Time × Action → Bool
  | (_, .pauseAll) => !s.paused
  | (_, .resume i (.alive false)) =>
    !s.paused && !s.pausedByInternet && s.code i == .loop .gateInternet
  | _ => false

/-- The steps that keep a pause effective. -/
def restful (s : SchedulerEngine) (a : Time × Action) : Bool :=
  s.covering scheduledRun a && (!s.setsPause a || s.drainsIdle)

/-- No drain has a schedule left to try. -/
def Idle (s : SchedulerEngine) : Prop :=
  ∀ i p, (s.code i).drain? = some p → p.todo = []

/-- The registry covers the scheduled runs, and under a pause no drain has anything left to
try. -/
structure PauseInv (s : SchedulerEngine) : Prop extends s.CoverInv scheduledRun where
  idle : s.paused = true → s.Idle

theorem Initial.pauseInv {s : SchedulerEngine} (h : s.Initial) : s.PauseInv := by
  refine ⟨h.coverInv scheduledRun, fun _ i p hp => ?_⟩
  rw [h.code] at hp
  cases hp

theorem Idle.of_drainsIdle {s : SchedulerEngine} (hf : s.Fresh) (h : s.drainsIdle = true) :
    s.Idle := by
  intro i p hp
  have hi : i < s.nextTask := by
    by_contra hle
    rw [drain?_of_done (hf i (Nat.le_of_not_lt hle))] at hp
    cases hp
  simp only [drainsIdle, List.all_eq_true, List.mem_range] at h
  have hi := h i hi
  rw [hp] at hi
  exact List.isEmpty_iff.mp hi

/-- A turn leaves the drains idle unless a drain takes its snapshot in it. -/
theorem Idle.turn {s s₁ : SchedulerEngine} {now : Time} {i : TaskId} {inp : Input} {c' : Code}
    (h : s.Idle) (hstart : (s.code i).drain? = some .start → s.paused = true)
    (hturn : s.turn now i inp = some (s₁, c')) : (s₁.setCode i c').Idle := by
  intro j p hp
  rw [code_setCode] at hp
  by_cases hj : j = i
  · rw [if_pos hj] at hp
    rcases turn_drains hturn with ⟨p₀, q, hp₀, hd, rfl⟩ | ⟨hbefore | hbefore, -⟩
    · rw [Code.drain?_afterDrainStep hp₀] at hp
      have htodo := h i p₀ hp₀
      cases hd with
      | ended => cases hp
      | began at_ unpaused =>
        rw [at_] at hp₀
        rw [hstart hp₀] at unpaused
        cases unpaused
      | dropped at_ unknown =>
        rw [at_] at htodo
        cases htodo
      | blocked todo =>
        rw [todo] at htodo
        cases htodo
      | waits todo =>
        rw [todo] at htodo
        cases htodo
      | launched todo =>
        rw [todo] at htodo
        cases htodo
    · rw [hbefore] at hp
      cases hp
    · rw [hbefore] at hp
      cases hp
      rfl
  · rw [if_neg hj] at hp
    rcases (turn_effect hturn).pool with ⟨hcode, -⟩ | ⟨_, _, _, hl⟩
    · rw [hcode] at hp
      exact h j p hp
    · rw [hl.code] at hp
      split at hp
      · cases hp
      · exact h j p hp

theorem Idle.api {s s' : SchedulerEngine} (h : s.Idle) (ha : s.ApiEffect s') : s'.Idle := by
  intro j p hp
  rcases ha.code j with hc | ⟨-, -, -, hdrain⟩
  · rw [hc] at hp
    exact h j p hp
  · rw [hdrain] at hp
    cases hp

/-- A step of the API changes the pause only by `pause_all` and `resume_all`. -/
theorem api_pause {s s' : SchedulerEngine} {now : Time} {a : Action}
    (ha : ∀ i inp, a ≠ .resume i inp) (hs : s.step (now, a) = some s') :
    s.PauseKept s' ∨ a = .pauseAll ∧ s' = s.pauseAll ∨ a = .resumeAll ∧ s' = s.resumeAll := by
  cases a with
  | resume i inp => exact absurd rfl (ha i inp)
  | pauseAll => cases hs; exact .inr (.inl ⟨rfl, rfl⟩)
  | resumeAll => cases hs; exact .inr (.inr ⟨rfl, rfl⟩)
  | startLoop =>
    cases hs
    unfold startLoop
    split
    · split <;> exact .inl ⟨rfl, rfl⟩
    · exact .inl ⟨rfl, rfl⟩
  | cancelRunning sid =>
    cases hs
    unfold SchedulerEngine.cancelRunning
    split
    · exact .inl ⟨rfl, rfl⟩
    · dsimp only
      split
      · exact .inl ⟨rfl, rfl⟩
      · split
        · exact .inl ⟨rfl, rfl⟩
        · split <;> exact .inl ⟨rfl, rfl⟩
  | addSchedule sid name tt interval config enabled =>
    cases hs
    unfold addSchedule
    split <;> exact .inl ⟨rfl, rfl⟩
  | updateSchedule sid f =>
    cases hs
    unfold updateSchedule
    split
    · exact .inl ⟨rfl, rfl⟩
    · dsimp only
      split <;> exact .inl ⟨rfl, rfl⟩
  | deleteSchedule sid =>
    cases hs
    unfold deleteSchedule
    split <;> exact .inl ⟨rfl, rfl⟩
  | toggleSchedule sid =>
    cases hs
    unfold toggleSchedule
    split
    · exact .inl ⟨rfl, rfl⟩
    · dsimp only
      split <;> exact .inl ⟨rfl, rfl⟩
  | stop => cases hs; exact .inl ⟨rfl, rfl⟩
  | trigger sid => cases hs; exact .inl ⟨rfl, rfl⟩
  | triggerNow sid => cases hs; exact .inl ⟨rfl, rfl⟩
  | cancelAll reason => cases hs; exact .inl ⟨rfl, rfl⟩
  | host hs' => cases hs; exact .inl ⟨rfl, rfl⟩

/-- **Step lemma**: a restful step keeps the invariant. -/
theorem PauseInv.step {s s' : SchedulerEngine} {a : Time × Action} (h : s.PauseInv)
    (hs : s.step a = some s') (hrest : s.restful a = true) : s'.PauseInv := by
  simp only [restful, Bool.and_eq_true, Bool.or_eq_true, Bool.not_eq_true'] at hrest
  obtain ⟨hcov, hrest⟩ := hrest
  refine ⟨h.toCoverInv.step hs hcov, fun hpaused => ?_⟩
  obtain ⟨now, a⟩ := a
  -- if the step sets the pause, the drains were idle before it
  have hidle : s.paused = true ∨ s.setsPause (now, a) = true → s.Idle := by
    rintro (hp | hset)
    · exact h.idle hp
    · rcases hrest with hno | hdrains
      · rw [hset] at hno
        cases hno
      · exact .of_drainsIdle h.fresh hdrains
  rcases step_effect hs with ⟨i, inp, s₁, c', rfl, hturn, rfl⟩ | ⟨ha, he⟩
  · cases turn_pause hturn with
    | kept same =>
      have hp : s.paused = true := same.1.symm.trans hpaused
      exact (hidle (.inl hp)).turn (fun _ => hp) hturn
    | up at_ verdict known paused =>
      rw [setCode_paused, paused] at hpaused
      cases hpaused
    | down at_ verdict known paused =>
      have hset : s.paused = true ∨ s.setsPause (now, .resume i inp) = true := by
        cases hp : s.paused with
        | true => exact .inl rfl
        | false =>
          right
          rw [verdict, setsPause, hp, known, at_]
          rfl
      refine (hidle hset).turn (fun hstart => ?_) hturn
      rw [at_] at hstart
      cases hstart
  · rcases api_pause ha hs with hk | ⟨rfl, rfl⟩ | ⟨rfl, rfl⟩
    · exact (hidle (.inl (hk.1.symm.trans hpaused))).api he
    · have hset : s.paused = true ∨ s.setsPause (now, .pauseAll) = true := by
        rw [setsPause]
        cases s.paused <;> simp
      exact (hidle hset).api he
    · cases hpaused

/-- A turn does not make a run of its own task. -/
theorem TurnEffect.unfinished {s s' : SchedulerEngine} {i : TaskId} {inp : Input} {c c' : Code}
    (h : TurnEffect s i inp c s' c') {x : TaskType × Bool} (hx : c'.unfinished = some x) :
    c.unfinished = some x := by
  have hnone : c'.liveKey = none → c.unfinished = some x := fun hl => by
    rw [Code.unfinished_eq_none hl] at hx
    cases hx
  cases h with
  | quiet still lock live => exact live.symm.trans hx
  | hold still free lock live live' => exact hnone live'
  | drop still lock live live' => exact hnone live'
  | launchFree launched free lock live live' => exact hnone live'
  | launchWaited at_ wake launched free lock live' => exact hnone live'
  | launchHeld launched verdict lock live live' => exact hnone live'
  | finish => exact hnone rfl
  | vanish => exact hnone rfl
  | clear held code nextTask lock frame live live' => exact hnone live'

/-- **A pause is effective**: while it is set, no scheduled run comes into being. -/
theorem PauseInv.no_start {s s' : SchedulerEngine} {a : Time × Action} (h : s.PauseInv)
    (hpaused : s.paused = true) (hs : s.step a = some s') {j : TaskId} {key : TaskType}
    (hj : s'.runs scheduledRun j = some key) : s.runs scheduledRun j = some key := by
  obtain ⟨now, a⟩ := a
  rcases step_effect hs with ⟨i, inp, s₁, c', rfl, hturn, rfl⟩ | ⟨-, he⟩
  · have he := turn_effect hturn
    rw [runs_setCode] at hj
    by_cases hji : j = i
    · rw [if_pos hji] at hj
      cases hx : c'.unfinished with
      | none =>
        rw [Code.keyAs, hx] at hj
        cases hj
      | some x =>
        rw [hji, runs, Code.keyAs, he.unfinished hx]
        rwa [Code.keyAs, hx] at hj
    · rw [if_neg hji] at hj
      rcases he.pool with ⟨hcode, -⟩ | ⟨sid, k, triggered, hl⟩
      · rwa [runs, hcode] at hj
      · rw [runs, hl.code] at hj
        split at hj
        · -- a launched run is not followed when `trigger_now` asked for it
          cases triggered with
          | true =>
            rw [Code.keyAs_unstarted] at hj
            cases hj
          | false =>
            rcases turn_drains hturn with ⟨p, q, hp, hd, -⟩ | ⟨-, hnone⟩
            · have htodo := h.idle hpaused i p hp
              have hnext : s₁.nextTask ≠ s.nextTask := by
                rw [hl.nextTask]
                exact Nat.succ_ne_self _
              cases hd with
              | ended => exact absurd rfl hnext
              | began => exact absurd rfl hnext
              | dropped => exact absurd rfl hnext
              | blocked todo queue still => exact absurd still.nextTask hnext
              | waits todo sid known queue still => exact absurd still.nextTask hnext
              | launched todo =>
                rw [todo] at htodo
                cases htodo
            · exact absurd hl (hnone sid k)
        · exact hj
  · rwa [runs_api h.fresh he scheduledRun j] at hj

end HuntProxy.SchedulerEngine
