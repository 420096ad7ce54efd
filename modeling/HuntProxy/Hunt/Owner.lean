import HuntProxy.Hunt.Single
import HuntProxy.Scheduler.Pause
import HuntProxy.Scheduler.Queue

/-!
# The owners of the pause

`_paused` is one boolean for three owners: the user, the internet gate and a manual hunt.
The gate keeps its own mark and the manual hunt its own flag, but each of them lifts the
pause without asking whether another one wants it. So a user's pause ends with the outage
or with the hunt it overlaps.

In the runs whose steps are all `separate` the pauses do not overlap: each owner takes the
pause only while no other holds it, the user does not lift the gate's pause, and no hunt
but the call's own is there to release it.

## Main results

- `OwnerInv.step`, `UserHeld.step`, `HuntHeld.step` — what separate events keep
- `pause_owned` — each pause stays in force until its own owner lifts it
- `pause_stolen` — the end of an outage lifts a user's pause
-/

namespace HuntProxy

/-- The call is waiting for `cancel_all`. -/
def ManualPc.isCancelling : ManualPc → Bool
  | .cancelling _ => true
  | _ => false

namespace Engine

/-- A call has paused the scheduler and is waiting for `cancel_all`. -/
def interrupting (e : Engine) : Bool :=
  (List.range e.nextCall).any (fun m => (e.calls m).isCancelling)

/-- A manual hunt, or a call that is about to start one, holds the pause. -/
def huntHolds (e : Engine) : Bool := e.host.schedulerPausedByHunt || e.interrupting

/-- A hunt is unfinished. -/
def hunting (e : Engine) : Bool :=
  (List.range e.host.nextHunt).any (fun h => (e.host.hunts h).alive)

/-- Some main loop waits in the gate for the runs it has cancelled. -/
def gathering (s : SchedulerEngine) : Bool :=
  (List.range s.nextTask).any
    (fun i => match s.code i with
      | .loop (.gateGather _) => true
      | _ => false)

/-- The events in which the owners of the pause keep apart. -/
def separate (e : Engine) : Event → Bool
  | .userPause => !e.sched.pausedByInternet && !e.huntHolds
  | .userResume => !e.sched.pausedByInternet
  | .scheduler _ (.resume i (.alive alive)) =>
    e.sched.code i != .loop .gateInternet || e.sched.pausedByInternet != alive ||
      if alive then !gathering e.sched else !e.sched.paused && !e.huntHolds
  | .manual m _ inp => !e.pausesNow m inp || !e.sched.paused && !e.huntHolds && !e.hunting
  | .control .startHunt => !e.huntHolds || !(e.host.startHunt false).2
  | .control .startupHunt => !e.huntHolds || e.host.healthRunning
  | _ => true

/-- The gate's pause: its mark means that the scheduler is paused and that no manual hunt
holds the pause; a gate that waits has set the mark. -/
structure OwnerInv (e : Engine) : Prop extends e.Fresh where
  gate : e.sched.pausedByInternet = true → e.sched.paused = true ∧
    e.host.schedulerPausedByHunt = false ∧ ∀ m, (e.calls m).isCancelling = false
  waits : ∀ i running, e.sched.code i = .loop (.gateGather running) →
    e.sched.pausedByInternet = true

/-- The pause is nobody's but the user's. -/
structure UserHeld (e : Engine) : Prop where
  paused : e.sched.paused = true
  mark : e.sched.pausedByInternet = false
  flag : e.host.schedulerPausedByHunt = false
  calls : ∀ m, (e.calls m).isCancelling = false

/-- The pause is that of call `m`, which is waiting for `cancel_all` or has returned with
its hunt. -/
structure HuntHeld (e : Engine) (m : ℕ) : Prop where
  created : m < e.nextCall
  paused : e.sched.paused = true
  mark : e.sched.pausedByInternet = false
  calls : ∀ m', m' ≠ m → (e.calls m').isCancelling = false
  holder : (e.host.schedulerPausedByHunt = false ∧ (e.calls m).isCancelling = true ∧
      ∀ h, (e.host.hunts h).alive = false) ∨
    e.host.schedulerPausedByHunt = true ∧ ∃ hunt, e.calls m = .returned hunt ∧
      ∀ h, (e.host.hunts h).alive = true → hunt = some h

theorem Initial.ownerInv {e : Engine} (h : e.Initial) : e.OwnerInv := by
  refine ⟨h.fresh, fun hmark => ?_, fun i running hi => ?_⟩
  · rw [h.sched.pausedByInternet] at hmark
    cases hmark
  · rw [h.sched.code] at hi
    cases hi

/-- No call is waiting for `cancel_all`. -/
theorem not_cancelling {e : Engine} (hf : e.Fresh) (h : e.interrupting = false) (m : ℕ) :
    (e.calls m).isCancelling = false := by
  by_cases hm : m < e.nextCall
  · simp only [interrupting, List.any_eq_false, List.mem_range] at h
    exact Bool.eq_false_iff.mpr (h m hm)
  · have hdone := hf.calls m (Nat.le_of_not_lt hm)
    cases hc : e.calls m with
    | cancelling c =>
      rw [hc] at hdone
      cases hdone
    | _ => rfl

theorem not_alive {e : Engine} (hf : e.Fresh) (h : e.hunting = false) (hn : ℕ) :
    (e.host.hunts hn).alive = false := by
  by_cases hlt : hn < e.host.nextHunt
  · simp only [hunting, List.any_eq_false, List.mem_range] at h
    exact Bool.eq_false_iff.mpr (h hn hlt)
  · exact hf.hunts hn (Nat.le_of_not_lt hlt)

theorem not_huntHolds {e : Engine} (hf : e.Fresh) (h : e.huntHolds = false) :
    e.host.schedulerPausedByHunt = false ∧ ∀ m, (e.calls m).isCancelling = false := by
  simp only [huntHolds, Bool.or_eq_false_iff] at h
  exact ⟨h.1, not_cancelling hf h.2⟩

/-- What the scheduler's own steps do to the pause: the gate may lift or set it. -/
inductive SchedPause (e : Engine) (a : Action) (s' : SchedulerEngine) : Prop
  | kept (same : e.sched.PauseKept s')
  | up {i} (at_ : a = .resume i (.alive true)) (code : e.sched.code i = .loop .gateInternet)
      (known : e.sched.pausedByInternet = true) (paused : s'.paused = false)
      (mark : s'.pausedByInternet = false)
  | down {i} (at_ : a = .resume i (.alive false)) (code : e.sched.code i = .loop .gateInternet)
      (known : e.sched.pausedByInternet = false) (paused : s'.paused = true)
      (mark : s'.pausedByInternet = true)

theorem sched_pause {e : Engine} {now : Time} {a : Action} {s' : SchedulerEngine}
    (hoffered : e.offered a = true) (hs : e.sched.step (now, a) = some s') :
    e.SchedPause a s' := by
  rcases SchedulerEngine.step_effect hs with ⟨i, inp, s₁, c', rfl, hturn, rfl⟩ | ⟨ha, -⟩
  · cases SchedulerEngine.turn_pause hturn with
    | kept same => exact .kept same
    | up at_ verdict known paused mark =>
      subst verdict
      exact .up rfl at_ known paused mark
    | down at_ verdict known paused mark =>
      subst verdict
      exact .down rfl at_ known paused mark
  · rcases SchedulerEngine.api_pause ha hs with hk | ⟨rfl, -⟩ | ⟨rfl, -⟩
    · exact .kept hk
    · cases hoffered
    · cases hoffered

/-- The gate lifts the pause only when no other loop waits in the gate. -/
theorem separate_up {e : Engine} {now : Time} {i : TaskId}
    (hsep : e.separate (.scheduler now (.resume i (.alive true))) = true)
    (hcode : e.sched.code i = .loop .gateInternet) (hknown : e.sched.pausedByInternet = true) :
    gathering e.sched = false := by
  simpa [separate, hcode, hknown] using hsep

/-- The gate takes the pause only when nobody holds it. -/
theorem separate_down {e : Engine} {now : Time} {i : TaskId}
    (hsep : e.separate (.scheduler now (.resume i (.alive false))) = true)
    (hcode : e.sched.code i = .loop .gateInternet) (hknown : e.sched.pausedByInternet = false) :
    e.sched.paused = false ∧ e.huntHolds = false := by
  simpa [separate, hcode, hknown] using hsep

/-- A call takes the pause only when nobody holds it and no hunt is unfinished. -/
theorem separate_pause {e : Engine} {m : ℕ} {now : Time} {inp : Input}
    (hsep : e.separate (.manual m now inp) = true) (hpause : e.pausesNow m inp = true) :
    e.sched.paused = false ∧ e.huntHolds = false ∧ e.hunting = false := by
  simpa [separate, hpause, and_assoc] using hsep

/-- A pause that is held by somebody is not the gate's to give or to take. -/
theorem sched_held {e : Engine} {now : Time} {a : Action} {s' : SchedulerEngine}
    (hoffered : e.offered a = true) (hs : e.sched.step (now, a) = some s')
    (hsep : e.separate (.scheduler now a) = true) (hpaused : e.sched.paused = true)
    (hmark : e.sched.pausedByInternet = false) : e.sched.PauseKept s' := by
  cases sched_pause hoffered hs with
  | kept same => exact same
  | up at_ code known =>
    rw [hmark] at known
    cases known
  | down at_ code known =>
    subst at_
    rw [(separate_down hsep code known).1] at hpaused
    cases hpaused

/-- A call takes no pause that is held by somebody. -/
theorem not_pausesNow {e : Engine} {m : ℕ} {now : Time} {inp : Input}
    (hsep : e.separate (.manual m now inp) = true) (hpaused : e.sched.paused = true) :
    ¬ e.pausesNow m inp = true := by
  intro hpause
  rw [(separate_pause hsep hpause).1] at hpaused
  cases hpaused

/-- A direct start creates no hunt beside a manual one. -/
theorem separate_start {e : Engine} {base : ℕ → HuntTask} {ev : Event}
    (hsep : e.separate ev = true) (hidle : e.host.healthRunning = false)
    (at_ : ev = .control .startHunt ∧ base = e.host.hunts ∨
      ev = .control .startupHunt ∧ base = e.host.cancelTask.hunts)
    (haccepted : ev = .control .startHunt → (e.host.startHunt false).2 = true) :
    e.huntHolds = false := by
  rcases at_ with ⟨rfl, -⟩ | ⟨rfl, -⟩
  · simpa [separate, haccepted rfl] using hsep
  · simpa [separate, hidle] using hsep

theorem endManualHunt_pause (s : SchedulerEngine) :
    s.endManualHunt.pausedByInternet = s.pausedByInternet ∧
      (s.state.schedulerPausedByHunt = false → s.endManualHunt.paused = s.paused) := by
  rcases endManualHunt_cases s with ⟨-, heq⟩ | ⟨hflag, heq⟩ <;> rw [heq]
  · exact ⟨rfl, fun _ => rfl⟩
  · refine ⟨rfl, fun hno => ?_⟩
    rw [hflag] at hno
    cases hno

theorem endManualHunt_flag (s : SchedulerEngine) :
    s.endManualHunt.state.schedulerPausedByHunt = false := by
  rcases endManualHunt_cases s with ⟨hno, heq⟩ | ⟨-, heq⟩ <;> rw [heq]
  · exact hno
  · rfl

theorem begun_pause {s : SchedulerEngine} {q : SchedulerEngine × ManualPc} (hq : s.Begun q) :
    q.1.paused = s.paused ∧ q.1.pausedByInternet = s.pausedByInternet := by
  cases hq <;> exact ⟨rfl, rfl⟩

/-- A cancelled gather changes no pause. -/
theorem resume_pause {s s' : SchedulerEngine} {now : Time} {c : TaskId}
    (h : s.resume now c .wake = some s') : s.PauseKept s' := by
  simp only [SchedulerEngine.resume, Option.map_eq_some_iff] at h
  obtain ⟨⟨s₁, c'⟩, hturn, rfl⟩ := h
  cases SchedulerEngine.turn_pause hturn with
  | kept same => exact same
  | up at_ verdict => cases verdict
  | down at_ verdict => cases verdict

/-- A gate that waits for the runs it has cancelled has just set its mark or waited
before. -/
theorem step_gather {s s' : SchedulerEngine} {now : Time} {a : Action} {i : TaskId}
    {running : List (TaskType × TaskId)} (hs : s.step (now, a) = some s')
    (hi : s'.code i = .loop (.gateGather running)) :
    s'.pausedByInternet = true ∨ s.code i = .loop (.gateGather running) := by
  rcases SchedulerEngine.step_effect hs with ⟨j, inp, s₁, c', rfl, hturn, rfl⟩ | ⟨ha, he⟩
  · rw [SchedulerEngine.code_setCode] at hi
    by_cases hij : i = j
    · rw [if_pos hij] at hi
      rw [hi] at hturn
      have hmark : s₁.pausedByInternet = true := SchedulerEngine.turn_gather hturn
      exact .inl hmark
    · rw [if_neg hij] at hi
      rcases (SchedulerEngine.turn_effect hturn).pool with ⟨hcode, -⟩ | ⟨_, _, _, hl⟩
      · exact .inr (hcode i ▸ hi)
      · rw [hl.code] at hi
        split at hi
        · cases hi
        · exact .inr hi
  · exact .inr (he.waits i running hi)

/-- A gate that finds the internet down has paused the scheduler, or had done so before. -/
theorem gate_down {s s' : SchedulerEngine} {now : Time} {i : TaskId}
    (hcode : s.code i = .loop .gateInternet)
    (hs : s.step (now, .resume i (.alive false)) = some s') :
    s'.paused = true ∨ s.pausedByInternet = true ∧ s.PauseKept s' := by
  simp only [SchedulerEngine.step, SchedulerEngine.resume, Option.map_eq_some_iff] at hs
  obtain ⟨⟨s₁, c'⟩, hturn, rfl⟩ := hs
  have hi : (s.tasks i).code = .loop .gateInternet := hcode
  simp only [SchedulerEngine.turn, hi] at hturn
  split at hturn
  · simp at hturn
  · have hloop : s.loopStep now .gateInternet (.alive false) = some (s₁, c') := hturn
    cases SchedulerEngine.loop_turn hloop with
    | same known => exact .inr ⟨known, (s.afterGate_kept now).pauseKept⟩
    | down => exact .inl (s.gateDown.afterGate_kept now).paused
    | cancelled => exact .inl rfl

namespace UserHeld

variable {e e' : Engine}

/-- A call that does not wait for `cancel_all` may move. -/
theorem moved {hs : HuntState} {m : ℕ} {pc : ManualPc} (h : e.UserHeld)
    (hpc : pc.isCancelling = false)
    (hflag : hs.schedulerPausedByHunt = e.host.schedulerPausedByHunt) :
    (e.moved m (e.sched.setHost hs) pc).UserHeld := by
  refine ⟨h.paused, h.mark, hflag.trans h.flag, fun m' => ?_⟩
  rw [calls_moved]
  split
  · exact hpc
  · exact h.calls m'

/-- **Step lemma**: a separate event other than the user's own resume keeps the user's
pause. -/
theorem step {ev : Event} (h : e.UserHeld) (hs : e.step ev = some e')
    (hsep : e.separate ev = true) (hne : ev ≠ .userResume) : e'.UserHeld := by
  cases step_effect hs with
  | @sched now a s' at_ offered step =>
    subst at_
    have hk := (offered_host offered step).huntsKept
    have same := sched_held offered step hsep h.paused h.mark
    exact ⟨same.1.trans h.paused, same.2.trans h.mark, hk.flag.trans h.flag, h.calls⟩
  | userPause => exact ⟨rfl, h.mark, h.flag, h.calls⟩
  | userResume at_ => exact absurd at_ hne
  | host kept => exact ⟨h.paused, h.mark, kept.flag.trans h.flag, h.calls⟩
  | called at_ =>
    refine ⟨h.paused, h.mark, h.flag, fun m' => ?_⟩
    rw [calls_addCall]
    split
    · rfl
    · exact h.calls m'
  | call at_ before after kept =>
    refine h.moved ?_ kept.flag
    rcases after with rfl | ⟨k, rfl⟩ <;> rfl
  | interrupt at_ before task alive interrupted => exact h.moved rfl interrupted.flag
  | pause at_ ready pauses run waits =>
    subst at_
    exact absurd pauses (not_pausesNow hsep h.paused)
  | pauseBegin at_ ready pauses run done begun =>
    subst at_
    exact absurd pauses (not_pausesNow hsep h.paused)
  | @waitBegin m now inp c s' q at_ before run begun =>
    have hno := h.calls m
    rw [before] at hno
    cases hno
  | stop interrupted at_ => exact ⟨h.paused, h.mark, interrupted.flag.trans h.flag, h.calls⟩
  | start at_ idle hunts nextHunt task flag accepted =>
    exact ⟨h.paused, h.mark, flag.trans h.flag, h.calls⟩
  | advance at_ alive clean hunts pc_ nextHunt task flag =>
    exact ⟨h.paused, h.mark, flag.trans h.flag, h.calls⟩
  | vanish at_ unstarted doomed hunts nextHunt task flag =>
    exact ⟨h.paused, h.mark, flag.trans h.flag, h.calls⟩
  | @finish hn inp hs' at_ ending alive hunts nextHunt task flag =>
    have hp := endManualHunt_pause (e.sched.setHost hs')
    exact ⟨(hp.2 (flag.trans h.flag)).trans h.paused, hp.1.trans h.mark, endManualHunt_flag _,
      h.calls⟩

end UserHeld

namespace OwnerInv

variable {e e' : Engine}

/-- A user's pause, taken while nobody else holds one. -/
theorem userHeld (h : e.OwnerInv) (hs : e.step .userPause = some e')
    (hsep : e.separate .userPause = true) : e'.UserHeld := by
  simp only [separate, Bool.and_eq_true, Bool.not_eq_true'] at hsep
  obtain ⟨hflag, hcalls⟩ := not_huntHolds h.toFresh hsep.2
  cases hs
  exact ⟨rfl, hsep.1, hflag, hcalls⟩

/-- A gate that waits before a step has its mark after it too. -/
theorem waits_sched (h : e.OwnerInv) {now : Time} {a : Action} {s' : SchedulerEngine}
    (hs : e.sched.step (now, a) = some s') (hsep : e.separate (.scheduler now a) = true)
    (hp : e.SchedPause a s') {i : TaskId} {running : List (TaskType × TaskId)}
    (hi : s'.code i = .loop (.gateGather running)) : s'.pausedByInternet = true := by
  rcases step_gather hs hi with hmark | hi
  · exact hmark
  · have hmark := h.waits i running hi
    cases hp with
    | kept same => exact same.2.trans hmark
    | down at_ code known paused mark => exact mark
    | up at_ code known =>
      -- another loop lifts the pause only while nobody waits in the gate
      subst at_
      have hgather := separate_up hsep code known
      have hlt : i < e.sched.nextTask := h.sched.lt (by rw [hi]; rfl)
      simp only [gathering, List.any_eq_false, List.mem_range] at hgather
      have hno := hgather i hlt
      rw [hi] at hno
      exact absurd rfl hno

/-- The mark of the gate and the codes of the pool are as they were. -/
theorem congr (h : e.OwnerInv) (hf : e'.Fresh) (hmark : e'.sched.pausedByInternet = true →
      e.sched.pausedByInternet = true ∧ e'.sched.paused = e.sched.paused ∧
        e'.host.schedulerPausedByHunt = e.host.schedulerPausedByHunt)
    (hcalls : ∀ m, (e.calls m).isCancelling = false → (e'.calls m).isCancelling = false)
    (hwaits : ∀ i running, e'.sched.code i = .loop (.gateGather running) →
      e'.sched.pausedByInternet = true) : e'.OwnerInv := by
  refine ⟨hf, fun hm => ?_, hwaits⟩
  obtain ⟨hm, hp, hflag⟩ := hmark hm
  obtain ⟨hp', hflag', hcalls'⟩ := h.gate hm
  exact ⟨hp.trans hp', hflag.trans hflag', fun m => hcalls m (hcalls' m)⟩

/-- Without the mark nobody waits in the gate. -/
theorem no_wait (h : e.OwnerInv) (hmark : e.sched.pausedByInternet = false) (i : TaskId)
    (running : List (TaskType × TaskId)) : e.sched.code i ≠ .loop (.gateGather running) := by
  intro hi
  rw [h.waits i running hi] at hmark
  cases hmark

/-- A pause that somebody holds, or that nobody holds, is not the gate's. -/
theorem mark_false (h : e.OwnerInv) (hno : e.sched.paused = false ∨ ∃ m,
      (e.calls m).isCancelling = true) : e.sched.pausedByInternet = false := by
  cases hmark : e.sched.pausedByInternet with
  | false => rfl
  | true =>
    obtain ⟨hpaused, -, hcalls⟩ := h.gate hmark
    rcases hno with hno | ⟨m, hm⟩
    · rw [hpaused] at hno
      cases hno
    · rw [hcalls m] at hm
      cases hm

/-- A scheduler without the mark, in which nobody waits in the gate. -/
theorem of_unmarked (hf : e.Fresh) (hmark : e.sched.pausedByInternet = false)
    (hwaits : ∀ i running, e.sched.code i ≠ .loop (.gateGather running)) : e.OwnerInv := by
  refine ⟨hf, fun hm => ?_, fun i running hi => absurd hi (hwaits i running)⟩
  rw [hmark] at hm
  cases hm

/-- The pool of tasks after a call has paused the scheduler. -/
theorem interrupting_waits (h : e.OwnerInv) (hmark : e.sched.pausedByInternet = false)
    {s : SchedulerEngine} (hi : e.sched.Interrupting s) (i : TaskId)
    (running : List (TaskType × TaskId)) : s.code i ≠ .loop (.gateGather running) := by
  intro hcode
  by_cases hc : i = e.sched.nextTask
  · subst hc
    rcases hi.outcome with ⟨-, hdone⟩ | ⟨-, hgather⟩
    · rw [hcode] at hdone
      cases hdone
    · rw [hcode] at hgather
      cases hgather
  · rw [hi.code i hc] at hcode
    exact h.no_wait hmark i running hcode

/-- The call goes on after `cancel_all`: the pool of tasks stays. -/
theorem begun {s : SchedulerEngine} {q : SchedulerEngine × ManualPc} {m : ℕ}
    (hf : (e.moved m q.1 q.2).Fresh) (hmark : s.pausedByInternet = false)
    (hwaits : ∀ i running, s.code i ≠ .loop (.gateGather running)) (hq : s.Begun q) :
    (e.moved m q.1 q.2).OwnerInv := by
  refine .of_unmarked hf ?_ ?_
  · exact (begun_pause hq).2.trans hmark
  · cases hq <;> exact hwaits

/-- A step of the scheduler: only the gate sets its mark, and it takes the pause while nobody
holds it. -/
theorem ofSched (h : e.OwnerInv) {now : Time} {a : Action} {s' : SchedulerEngine}
    (hoffered : e.offered a = true) (hstep : e.sched.step (now, a) = some s')
    (hf : Engine.Fresh { e with sched := s' }) (hsep : e.separate (.scheduler now a) = true) :
    OwnerInv { e with sched := s' } := by
  have hk := (offered_host hoffered hstep).huntsKept
  have hpause := sched_pause hoffered hstep
  refine ⟨hf, fun hmark => ?_, fun i running => h.waits_sched hstep hsep hpause⟩
  have hmark : s'.pausedByInternet = true := hmark
  cases hpause with
  | kept same =>
    obtain ⟨hpaused, hflag, hcalls⟩ := h.gate (same.2.symm.trans hmark)
    exact ⟨same.1.trans hpaused, hk.flag.trans hflag, hcalls⟩
  | up at_ code known paused mark =>
    rw [mark] at hmark
    cases hmark
  | down at_ code known paused mark =>
    subst at_
    obtain ⟨-, hholds⟩ := separate_down hsep code known
    obtain ⟨hflag, hcalls⟩ := not_huntHolds h.toFresh hholds
    exact ⟨paused, hk.flag.trans hflag, hcalls⟩

/-- A call pauses the scheduler, which nobody has paused: the gate has no mark before or after. -/
theorem ofPause (h : e.OwnerInv) {m : ℕ} {now : Time} {inp : Input} (hpauses : e.pausesNow m inp = true)
    (hsep : e.separate (.manual m now inp) = true) {s : SchedulerEngine}
    (hi : e.sched.Interrupting s) : s.pausedByInternet = false ∧
      ∀ i running, s.code i ≠ .loop (.gateGather running) := by
  have hmark := h.mark_false (.inl (separate_pause hsep hpauses).1)
  exact ⟨hi.mark.trans hmark, h.interrupting_waits hmark hi⟩

/-- A call whose `cancel_all` has ended goes on: the pause is its own. -/
theorem ofWaitBegin (h : e.OwnerInv) {m : ℕ} {now : Time} {c : TaskId} {s' : SchedulerEngine}
    {q : SchedulerEngine × ManualPc} (hm : e.calls m = .cancelling c)
    (hrun : e.sched.resume now c .wake = some s') (hbegun : s'.Begun q)
    (hf : (e.moved m q.1 q.2).Fresh) : (e.moved m q.1 q.2).OwnerInv := by
  have hmark := h.mark_false (.inr ⟨m, by rw [hm]; rfl⟩)
  have hmark' : s'.pausedByInternet = false := (resume_pause hrun).2.trans hmark
  have hstep : e.sched.step (now, .resume c .wake) = some s' := hrun
  refine .begun hf hmark' (fun i running hi => ?_) hbegun
  rcases step_gather hstep hi with hgate | hi
  · rw [hmark'] at hgate
    cases hgate
  · exact h.no_wait hmark i running hi

/-- The end of a hunt lifts the pause of a manual hunt, never the gate's. -/
theorem ofFinish (h : e.OwnerInv) {hs : HuntState}
    (hflag : hs.schedulerPausedByHunt = e.host.schedulerPausedByHunt)
    (hf : Engine.Fresh { e with sched := (e.sched.setHost hs).endManualHunt }) :
    OwnerInv { e with sched := (e.sched.setHost hs).endManualHunt } := by
  rcases endManualHunt_cases (e.sched.setHost hs) with ⟨hno, heq⟩ | ⟨hset, heq⟩
  · refine ⟨hf, fun hmark => ?_, ?_⟩ <;> rw [heq] at *
    · exact ⟨(h.gate hmark).1, hno, (h.gate hmark).2.2⟩
    · exact h.waits
  · -- the exclusive pause is a manual hunt's, so the gate has none
    have hmark : e.sched.pausedByInternet = false := by
      cases hm : e.sched.pausedByInternet with
      | false => rfl
      | true =>
        have hset : e.host.schedulerPausedByHunt = true := hflag.symm.trans hset
        rw [(h.gate hm).2.1] at hset
        cases hset
    refine .of_unmarked hf ?_ ?_ <;> rw [heq]
    · exact hmark
    · exact h.no_wait hmark

/-- **Step lemma**: separate events keep the gate's pause apart. -/
theorem step {ev : Event} (h : e.OwnerInv) (hs : e.step ev = some e')
    (hsep : e.separate ev = true) : e'.OwnerInv := by
  have hf := h.toFresh.step hs
  cases step_effect hs with
  | sched at_ offered step =>
    subst at_
    exact h.ofSched offered step hf hsep
  | userPause at_ =>
    exact h.congr hf (fun hmark => ⟨hmark, (h.gate hmark).1.symm, rfl⟩) (fun _ hm => hm) h.waits
  | userResume at_ =>
    subst at_
    have hmark : e.sched.pausedByInternet = false := by simpa [separate] using hsep
    exact .of_unmarked hf hmark (h.no_wait hmark)
  | host kept => exact h.congr hf (fun hmark => ⟨hmark, rfl, kept.flag⟩) (fun _ hm => hm) h.waits
  | called at_ =>
    refine h.congr hf (fun hmark => ⟨hmark, rfl, rfl⟩) (fun m hm => ?_) h.waits
    rw [calls_addCall]
    split
    · rfl
    · exact hm
  | call at_ before after kept =>
    refine h.congr hf (fun hmark => ⟨hmark, rfl, kept.flag⟩) (fun m hm => ?_) h.waits
    rw [calls_moved]
    split
    · rcases after with rfl | ⟨k, rfl⟩ <;> rfl
    · exact hm
  | interrupt at_ before task alive interrupted =>
    refine h.congr hf (fun hmark => ⟨hmark, rfl, interrupted.flag⟩) (fun m hm => ?_) h.waits
    rw [calls_moved]
    split
    · rfl
    · exact hm
  | pause at_ ready pauses run waits =>
    subst at_
    obtain ⟨hmark, hwaits⟩ := h.ofPause pauses hsep (SchedulerEngine.pauseAndCancel_spec run)
    exact .of_unmarked hf hmark hwaits
  | pauseBegin at_ ready pauses run done begun =>
    subst at_
    obtain ⟨hmark, hwaits⟩ := h.ofPause pauses hsep (SchedulerEngine.pauseAndCancel_spec run)
    exact .begun hf hmark hwaits begun
  | waitBegin at_ before run begun => exact h.ofWaitBegin before run begun hf
  | stop interrupted at_ =>
    exact h.congr hf (fun hmark => ⟨hmark, rfl, interrupted.flag⟩) (fun _ hm => hm) h.waits
  | start at_ idle hunts nextHunt task flag accepted =>
    exact h.congr hf (fun hmark => ⟨hmark, rfl, flag⟩) (fun _ hm => hm) h.waits
  | advance at_ alive clean hunts pc_ nextHunt task flag =>
    exact h.congr hf (fun hmark => ⟨hmark, rfl, flag⟩) (fun _ hm => hm) h.waits
  | vanish at_ unstarted doomed hunts nextHunt task flag =>
    exact h.congr hf (fun hmark => ⟨hmark, rfl, flag⟩) (fun _ hm => hm) h.waits
  | finish at_ ending alive hunts nextHunt task flag => exact h.ofFinish flag hf

end OwnerInv

/-- The event ends the hunt that call `m` has started. -/
def EndsHuntOf (m : ℕ) (e e' : Engine) : Prop :=
  ∃ h, e.calls m = .returned (some h) ∧ (e.host.hunts h).alive = true ∧
    (e'.host.hunts h).alive = false

namespace HuntHeld

variable {e e' : Engine} {m : ℕ}

/-- The holder of the pause is past its internet and health checks. -/
theorem past (h : e.HuntHeld m) : e.calls m ≠ .internet ∧ ∀ k, e.calls m ≠ .health k := by
  rcases h.holder with ⟨-, hc, -⟩ | ⟨-, hunt, hc, -⟩
  · refine ⟨fun heq => ?_, fun k heq => ?_⟩ <;> rw [heq] at hc <;> cases hc
  · refine ⟨fun heq => ?_, fun k heq => ?_⟩ <;> rw [heq] at hc <;> cases hc

/-- A manual hunt holds the pause. -/
theorem huntHolds (h : e.HuntHeld m) : e.huntHolds = true := by
  rw [Engine.huntHolds, Bool.or_eq_true]
  rcases h.holder with ⟨-, hc, -⟩ | ⟨hflag, -⟩
  · right
    rw [interrupting, List.any_eq_true]
    exact ⟨m, List.mem_range.mpr h.created, hc⟩
  · exact .inl hflag

/-- The holder stays where neither the flag nor its own call changes and no hunt comes into
being. -/
theorem congr (h : e.HuntHeld m) (hnext : e.nextCall ≤ e'.nextCall)
    (hpause : e.sched.PauseKept e'.sched)
    (hflag : e'.host.schedulerPausedByHunt = e.host.schedulerPausedByHunt)
    (hcall : e'.calls m = e.calls m)
    (hcalls : ∀ m', (e.calls m').isCancelling = false → (e'.calls m').isCancelling = false)
    (halive : ∀ hn, (e'.host.hunts hn).alive = true → (e.host.hunts hn).alive = true) :
    e'.HuntHeld m := by
  refine ⟨h.created.trans_le hnext, hpause.1.trans h.paused, hpause.2.trans h.mark,
    fun m' hm' => hcalls m' (h.calls m' hm'), ?_⟩
  rw [hflag, hcall]
  refine h.holder.imp ?_ ?_
  · rintro ⟨hno, hc, hdead⟩
    refine ⟨hno, hc, fun hn => ?_⟩
    by_contra ha
    have hold := halive hn (by simpa using ha)
    rw [hdead hn] at hold
    cases hold
  · rintro ⟨hset, hunt, hc, hown⟩
    exact ⟨hset, hunt, hc, fun hn ha => hown hn (halive hn ha)⟩

/-- Another call comes to an await that is not that for `cancel_all`. -/
theorem moved {hs : HuntState} {m' : ℕ} {pc : ManualPc} (h : e.HuntHeld m) (hm : m' ≠ m)
    (hpc : pc.isCancelling = false)
    (hflag : hs.schedulerPausedByHunt = e.host.schedulerPausedByHunt)
    (halive : ∀ hn, (hs.hunts hn).alive = true → (e.host.hunts hn).alive = true) :
    (e.moved m' (e.sched.setHost hs) pc).HuntHeld m := by
  refine h.congr le_rfl ⟨rfl, rfl⟩ hflag ?_ (fun m'' hc => ?_) halive
  · rw [calls_moved, if_neg hm.symm]
  · rw [calls_moved]
    split
    · exact hpc
    · exact hc

/-- The call starts its hunt when no other hunt is there, or it is refused. -/
theorem begun {s : SchedulerEngine} {q : SchedulerEngine × ManualPc} (hm : m < e.nextCall)
    (hpause : s.paused = true ∧ s.pausedByInternet = false)
    (hcalls : ∀ m', m' ≠ m → (e.calls m').isCancelling = false)
    (hdead : ∀ hn, (s.state.hunts hn).alive = false) (hq : s.Begun q) :
    (e.moved m q.1 q.2).HuntHeld m := by
  have hp := begun_pause hq
  refine ⟨hm, hp.1.trans hpause.1, hp.2.trans hpause.2, fun m' hm' => ?_, .inr ?_⟩
  · rw [calls_moved, if_neg hm']
    exact hcalls m' hm'
  · cases hq with
    | refused running hunts nextHunt task flag =>
      refine ⟨flag, none, Function.update_self .., fun hn ha => ?_⟩
      have ha : (s.state.hunts hn).alive = true := hunts ▸ ha
      rw [hdead hn] at ha
      cases ha
    | @created hs' idle hunts nextHunt task flag =>
      refine ⟨flag, some s.state.nextHunt, Function.update_self .., fun hn ha => ?_⟩
      by_cases hnew : hn = s.state.nextHunt
      · rw [hnew]
      · have ha : (hs'.hunts hn).alive = true := ha
        rw [hunts, Function.update_of_ne hnew, hdead hn] at ha
        cases ha

/-- **Step lemma**: a separate event other than the user's resume and the end of the hunt
keeps the hunt's pause. -/
theorem step {ev : Event} (h : e.HuntHeld m) (hs : e.step ev = some e')
    (hsep : e.separate ev = true) (hne : ev ≠ .userResume) (hends : ¬ EndsHuntOf m e e') :
    e'.HuntHeld m := by
  cases step_effect hs with
  | @sched now a s' at_ offered step =>
    subst at_
    have hk := (offered_host offered step).huntsKept
    have same := sched_held offered step hsep h.paused h.mark
    exact h.congr le_rfl same hk.flag rfl (fun _ hc => hc) (fun _ ha => hk.hunts ▸ ha)
  | userPause =>
    exact h.congr le_rfl ⟨h.paused.symm, rfl⟩ rfl rfl (fun _ hc => hc) (fun _ ha => ha)
  | userResume at_ => exact absurd at_ hne
  | host kept =>
    exact h.congr le_rfl ⟨rfl, rfl⟩ kept.flag rfl (fun _ hc => hc) (fun _ ha => kept.hunts ▸ ha)
  | called at_ =>
    refine h.congr (Nat.le_succ _) ⟨rfl, rfl⟩ rfl ?_ (fun m' hc => ?_) (fun _ ha => ha)
    · rw [calls_addCall, if_neg h.created.ne]
    · rw [calls_addCall]
      split
      · rfl
      · exact hc
  | @call m' now inp pc hs' at_ before after kept =>
    refine h.moved (fun heq => h.past.1 (heq ▸ before)) ?_ kept.flag (fun _ ha => kept.hunts ▸ ha)
    rcases after with rfl | ⟨k, rfl⟩ <;> rfl
  | @interrupt m' now inp hn hs' at_ before task alive interrupted =>
    refine h.moved (fun heq => ?_) rfl interrupted.flag (fun hn ha => interrupted.alive hn ▸ ha)
    rcases before with before | ⟨k, before⟩
    · exact h.past.1 (heq ▸ before)
    · exact h.past.2 k (heq ▸ before)
  | pause at_ ready pauses run waits =>
    subst at_
    exact absurd pauses (not_pausesNow hsep h.paused)
  | pauseBegin at_ ready pauses run done begun =>
    subst at_
    exact absurd pauses (not_pausesNow hsep h.paused)
  | @waitBegin m' now inp c s' q at_ before run begun =>
    have hm : m' = m := by
      by_contra hm
      have hno := h.calls m' hm
      rw [before] at hno
      cases hno
    subst hm
    rcases h.holder with ⟨-, -, hdead⟩ | ⟨-, hunt, hc, -⟩
    · have hk := (SchedulerEngine.resume_host run).huntsKept
      have hp := resume_pause run
      exact .begun h.created ⟨hp.1.trans h.paused, hp.2.trans h.mark⟩ h.calls
        (fun hn => hk.hunts ▸ hdead hn) begun
    · rw [before] at hc
      cases hc
  | stop interrupted at_ =>
    exact h.congr le_rfl ⟨rfl, rfl⟩ interrupted.flag rfl (fun _ hc => hc)
      (fun hn ha => interrupted.alive hn ▸ ha)
  | start at_ idle hunts nextHunt task flag accepted =>
    have hfree := separate_start hsep idle at_ accepted
    rw [h.huntHolds] at hfree
    cases hfree
  | @advance hn inp hs' pc at_ alive clean hunts pc_ nextHunt task flag =>
    exact h.congr le_rfl ⟨rfl, rfl⟩ flag rfl (fun _ hc => hc)
      (fun hn' ha => Fresh.alive_update (p := pc) (.inl alive) (hunts ▸ ha))
  | @vanish hn inp hs' at_ unstarted doomed hunts nextHunt task flag =>
    exact h.congr le_rfl ⟨rfl, rfl⟩ flag rfl (fun _ hc => hc)
      (fun hn' ha => Fresh.alive_update (h := hn) (.inr rfl) (hunts ▸ ha))
  | @finish hn inp hs' at_ ending alive hunts nextHunt task flag =>
    -- the hunt that ends is the call's own
    rcases h.holder with ⟨-, -, hdead⟩ | ⟨-, hunt, hc, hown⟩
    · rw [hdead hn] at alive
      cases alive
    · refine absurd ⟨hn, ?_, alive, ?_⟩ hends
      · rw [hc, hown hn alive]
      · have hk : (e.sched.setHost hs').endManualHunt.state.hunts = hs'.hunts :=
          (endManualHunt_hunts (e.sched.setHost hs')).1
        rw [Engine.host, hk, hunts, Function.update_self]
        rfl

end HuntHeld

namespace OwnerInv

variable {e e' : Engine}

/-- The pause of a manual hunt, taken while nobody else holds one. -/
theorem huntHeld {m : ℕ} {now : Time} {inp : Input} (h : e.OwnerInv)
    (hs : e.step (.manual m now inp) = some e') (hsep : e.separate (.manual m now inp) = true)
    (hpauses : e.pausesNow m inp = true) : e'.HuntHeld m := by
  obtain ⟨hfree, hholds, hhunting⟩ := separate_pause hsep hpauses
  obtain ⟨hflag, hcalls⟩ := not_huntHolds h.toFresh hholds
  have hmark := h.mark_false (.inl hfree)
  have hdead := not_alive h.toFresh hhunting
  cases step_effect hs with
  | @pause m' now' inp' hs' s' at_ ready pauses run waits =>
    cases at_
    have hi := SchedulerEngine.pauseAndCancel_spec run
    have hk := (SchedulerEngine.pauseAndCancel_host run).huntsKept
    have hm := h.call_lt (Fresh.ready_inProgress ready)
    refine ⟨hm, hi.paused, hi.mark.trans hmark, fun m'' hm'' => ?_, .inl ⟨?_, ?_, fun hn => ?_⟩⟩
    · rw [calls_moved, if_neg hm'']
      exact hcalls m''
    · exact hk.flag.trans (ready.flag.trans hflag)
    · rw [calls_moved, if_pos rfl]
      rfl
    · rw [host_moved, hk.hunts, ready.hunts]
      exact hdead hn
  | @pauseBegin m' now' inp' hs' s' q at_ ready pauses run done begun =>
    cases at_
    have hi := SchedulerEngine.pauseAndCancel_spec run
    have hk := (SchedulerEngine.pauseAndCancel_host run).huntsKept
    refine .begun (h.call_lt (Fresh.ready_inProgress ready)) ⟨hi.paused, hi.mark.trans hmark⟩
      (fun m'' _ => hcalls m'') (fun hn => ?_) begun
    rw [hk.hunts, ready.hunts]
    exact hdead hn
  | @call m' now' inp' pc hs' at_ before after kept quiet =>
    cases at_
    rw [hpauses] at quiet
    cases quiet
  | @interrupt m' now' inp' hn hs' at_ before task alive interrupted quiet =>
    cases at_
    rw [hpauses] at quiet
    cases quiet
  | @waitBegin m' now' inp' c s' q at_ before run begun =>
    cases at_
    have hno := hcalls m
    rw [before] at hno
    cases hno
  | sched at_ => cases at_
  | userPause at_ => cases at_
  | userResume at_ => cases at_
  | host kept other => exact absurd rfl (other m now inp)
  | called at_ => cases at_
  | stop interrupted at_ => rcases at_ with at_ | ⟨at_, -⟩ <;> cases at_
  | start at_ => rcases at_ with ⟨at_, -⟩ | ⟨at_, -⟩ <;> cases at_
  | advance at_ => cases at_
  | vanish at_ => cases at_
  | finish at_ => cases at_

end OwnerInv

/-- The event completes an evaluation of the gate that has found the internet down. -/
def findsDown (e : Engine) : Event → Bool
  | .scheduler _ (.resume i (.alive false)) => e.sched.code i == .loop .gateInternet
  | .scheduler _ (.resume i .wake) =>
    match e.sched.code i with
    | .loop (.gateGather _) => true
    | _ => false
  | _ => false

/-- Each pause stays in force until its owner lifts it, in the runs that meet the guard from
here on. -/
structure PauseOwned (G : Machine.Guard Engine Event) (e : Engine) : Prop where
  /-- The user's pause ends with the user's resume. -/
  user : ∀ e₁ e₂, e.step .userPause = some e₁ → G e .userPause e₁ →
    machine.Reaches (fun e ev e' => G e ev e' ∧ ev ≠ .userResume) e₁ e₂ → e₂.sched.paused = true
  /-- The pause of call `m` ends with the user's resume or with the call's hunt. -/
  hunt : ∀ m now inp e₁ e₂, e.step (.manual m now inp) = some e₁ →
    G e (.manual m now inp) e₁ → e.pausesNow m inp = true →
    machine.Reaches (fun e ev e' => (G e ev e' ∧ ev ≠ .userResume) ∧ ¬ EndsHuntOf m e e') e₁ e₂ →
      e₂.sched.paused = true
  /-- The gate leaves the scheduler paused when the internet is down. -/
  down : ∀ ev e₁, e.step ev = some e₁ → G e ev e₁ → e.findsDown ev = true →
    e₁.sched.paused = true

/-- The condition of this module, as a guard on runs. -/
def Separate : Machine.Guard Engine Event := fun e ev _ => e.separate ev = true

/-- A completed evaluation of the gate that has found the internet down. -/
theorem OwnerInv.paused_of_down {e e' : Engine} {ev : Event} (h : e.OwnerInv)
    (hs : e.step ev = some e') (hsep : e.separate ev = true) (hdown : e.findsDown ev = true) :
    e'.sched.paused = true := by
  have hinv := h.step hs hsep
  unfold findsDown at hdown
  split at hdown
  · next now i =>
    have hcode : e.sched.code i = .loop .gateInternet := by simpa using hdown
    simp only [Engine.step, Option.ite_none_right_eq_some, Option.map_eq_some_iff] at hs
    obtain ⟨-, s', hs, rfl⟩ := hs
    rcases gate_down hcode hs with hpaused | ⟨hmark, same⟩
    · exact hpaused
    · exact same.1.trans (h.gate hmark).1
  · next now i =>
    split at hdown
    · next running hcode =>
      simp only [Engine.step, Option.ite_none_right_eq_some, Option.map_eq_some_iff] at hs
      obtain ⟨-, s', hs, rfl⟩ := hs
      have hpause := resume_pause (c := i) hs
      exact hpause.1.trans (h.gate (h.waits i running hcode)).1
    · cases hdown
  · cases hdown

/-- **Pause ownership**: in every run whose steps are all separate, each pause stays in
force until its own owner lifts it. -/
theorem pause_owned {e e' : Engine} (h₀ : e.Initial) (h : machine.Reaches Separate e e') :
    e'.PauseOwned Separate := by
  have hinv : e'.OwnerInv :=
    h.invariant h₀.ownerInv (fun _ _ _ hi hs hsep => hi.step hs hsep)
  refine ⟨fun e₁ e₂ hs hsep hrun => ?_, fun m now inp e₁ e₂ hs hsep hpauses hrun => ?_,
    fun ev e₁ hs hsep hdown => hinv.paused_of_down hs hsep hdown⟩
  · have hheld : e₂.UserHeld :=
      hrun.invariant (hinv.userHeld hs hsep) (fun _ _ _ hi hs hg => hi.step hs hg.1 hg.2)
    exact hheld.paused
  · have hheld : e₂.HuntHeld m :=
      hrun.invariant (I := fun e => e.HuntHeld m) (hinv.huntHeld hs hsep hpauses)
        (fun _ _ _ hi hs hg => hi.step hs hg.1.1 hg.1.2 hg.2)
    exact hheld.paused

/-- A manual start pauses the scheduler, and the hunt that it starts keeps the pause. -/
theorem pause_owned_manual :
    ∃ e', machine.Reaches Separate (prepared [SchedulerEngine.maintenanceSchedule]) e' ∧
      e'.sched.paused = true ∧ e'.PauseOwned Separate := by
  have hrun : ∃ e', machine.Reaches Separate (prepared [SchedulerEngine.maintenanceSchedule]) e' ∧
      e'.sched.paused = true :=
    Machine.exists_reaches_of_exec (g := fun e ev _ => e.separate ev)
      (l := maintaining ++ [.manualStart, .manual 0 11 (.alive true),
        .scheduler 12 (.resume 1 (.ended .cancelled)), .scheduler 12 (.resume 1 .wake),
        .manual 0 12 .wake])
      (fun e ev _ (h : e.separate ev = true) => h) (by decide +kernel)
  obtain ⟨e', he', hpaused⟩ := hrun
  exact ⟨e', he', hpaused, pause_owned (prepared_initial _) he'⟩

/-- The main loop finds the internet down and goes back to sleep. -/
def outage : List Event :=
  [.scheduler 10 .startLoop, .scheduler 10 (.resume 0 .wake),
    .scheduler 11 (.resume 0 (.alive false))]

/-- The user pauses during an outage, and the next tick finds the internet up. -/
theorem pause_stolen :
    ¬ ∀ e e' : Engine, e.Initial → machine.Reaches Machine.anyStep e e' →
      e'.PauseOwned Machine.anyStep := by
  intro hall
  have hrun : ∃ e', machine.Reaches Machine.anyStep (prepared SchedulerEngine.dueSchedules) e' ∧
      (machine.exec (fun _ ev _ => match ev with | .userResume => false | _ => true)
        { e' with sched := e'.sched.pauseAll }
        [.scheduler 20 (.resume 0 .wake), .scheduler 21 (.resume 0 (.alive true))]).any
          (fun e => !e.sched.paused) = true :=
    Machine.exists_reaches_of_exec (g := fun _ _ _ => true) (l := outage)
      (fun _ _ _ _ => trivial) (by decide +kernel)
  obtain ⟨e', he', hrest⟩ := hrun
  obtain ⟨e₂, he₂, hlifted⟩ := Machine.exists_reaches_of_exec
    (G := fun _ ev _ => True ∧ ev ≠ .userResume)
    (fun _ ev _ hev => ⟨trivial, by rintro rfl; cases hev⟩) hrest
  have howned := (hall _ e' (prepared_initial _) he').user _ e₂ rfl trivial he₂
  rw [howned] at hlifted
  cases hlifted

end Engine

end HuntProxy
