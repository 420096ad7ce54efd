import HuntProxy.Scheduler.Drain

/-!
# The honesty of the queue

The queue is honest when a removed schedule is not launched any more, and when a queued
schedule is not lost. Two things can go wrong. A drain goes by its snapshot and does not
look at the queue again, so it launches a schedule that was removed while the drain was
under way. And `trigger_now` takes its schedule off the queue before it waits for the
launch lock, and returns without a launch and without putting it back when its type has
been launched by someone else.

In the runs whose steps are all `honest` neither happens: nothing is removed while a
drain has it in hand, nothing is added under a name that is still queued, and
`trigger_now` does not find its type taken after it took the schedule off the queue.

## Main results

- `Gone.step` — a removed schedule stays out of every drain's hands
- `pending_step` — a queued schedule is not lost
- `queue_honest` — both, for all honest runs
- `ghost_launch`, `silent_drop` — the two defects
-/

namespace HuntProxy.SchedulerEngine

/-- The step creates a run of `sid` that `trigger_now` did not ask for. -/
def Starts (s s' : SchedulerEngine) (sid : Sid) : Prop :=
  ∃ key, s'.code s.nextTask = .run sid key false .unstarted

/-- A drain has the schedule in hand: it is launching it, or it has yet to try it. -/
def inFlight (s : SchedulerEngine) (sid : Sid) : Bool :=
  (List.range s.nextTask).any (fun i => (s.code i).drain?.any (fun p => p.todo.contains sid))

/-- A drain is launching the schedule. -/
def launching (s : SchedulerEngine) (sid : Sid) : Bool :=
  (List.range s.nextTask).any (fun i => (s.code i).launch?.any (fun l => l.sid == sid))

/-- The queued schedule that an operation removes from the queue, disables or deletes. -/
def removed (s : SchedulerEngine) : Action → Option Sid
  | .cancelRunning sid =>
    if s.schedules.contains sid && s.queue.contains sid then some sid else none
  | .updateSchedule sid f =>
    if s.schedules.contains sid && s.queue.contains sid && f.enabled == some false then some sid
    else none
  | .toggleSchedule sid =>
    match s.schedules.get? sid with
    | none => none
    | some r =>
      if s.queue.contains sid && ((s.entries r).enabled || decide ((s.entries r).intervalSec ≤ 0))
      then some sid
      else none
  | .deleteSchedule sid =>
    if s.schedules.contains sid && s.queue.contains sid then some sid else none
  | _ => none

/-- `trigger_now` takes a schedule off the queue, or has taken it, and finds its type
registered when it holds the lock. -/
def drops (s : SchedulerEngine) (i : TaskId) (inp : Input) : Bool :=
  match s.code i, inp with
  | .triggerNow sid (.internet r taskDef), .alive true =>
    s.queue.contains sid && s.runningTasks.contains (s.entries r).taskType &&
      (s.checkBusyFlag taskDef).isSome && !s.conflicts taskDef && s.lockOpen
  | .triggerNow _ (.lock r _ taken), .wake =>
    taken && s.runningTasks.contains (s.entries r).taskType
  | _, _ => false

/-- The steps that keep the queue honest. -/
def honest (s : SchedulerEngine) : Time × Action → Bool
  | (_, .resume i inp) => !s.drops i inp
  | (_, .deleteSchedule sid) => (s.removed (.deleteSchedule sid)).isNone || !s.launching sid
  | (_, .addSchedule sid _ _ _ _ _) =>
    s.schedules.contains sid || !s.queue.contains sid && !s.inFlight sid
  | (_, a) => (s.removed a).all (fun sid => !s.inFlight sid)

/-! ### Names -/

/-- Every schedule is stored under its own identifier. -/
def Named (s : SchedulerEngine) : Prop :=
  ∀ sid r, s.schedules.get? sid = some r → (s.entries r).id = sid ∧ r < s.nextRef

theorem Frame.named {s s' : SchedulerEngine} (h : s.Frame s') (hn : s.Named) : s'.Named := by
  intro sid r hr
  rw [h.schedules] at hr
  rw [h.entryId, h.nextRef]
  exact hn sid r hr

/-- Writing an entry under its own identifier keeps the names. -/
theorem Named.writeEntry {s s' : SchedulerEngine} (hn : s.Named) {r : Ref} {e : ScheduleEntry}
    (hid : e.id = (s.entries r).id) (hs : s'.schedules = s.schedules)
    (hr : s'.nextRef = s.nextRef) (he : s'.entries = Function.update s.entries r e) : s'.Named := by
  intro sid r' hr'
  rw [hs] at hr'
  obtain ⟨hname, hlt⟩ := hn sid r' hr'
  rw [he, hr]
  refine ⟨?_, hlt⟩
  by_cases hrr : r' = r
  · rw [hrr, Function.update_self, hid, ← hrr, hname]
  · rw [Function.update_of_ne hrr, hname]

theorem update_id (e : ScheduleEntry) (now : Time) (f : ScheduleFields) :
    (e.update now f).id = e.id := by
  unfold ScheduleEntry.update
  cases f.intervalSec <;> cases f.enabled <;> rfl

theorem Named.update {s : SchedulerEngine} (hn : s.Named) (now : Time) (sid : Sid)
    (f : ScheduleFields) : (s.updateSchedule now sid f).1.Named := by
  unfold updateSchedule
  split
  · exact hn
  · next r _ =>
    have hid := update_id (s.entries r) now f
    dsimp only
    split <;> exact hn.writeEntry hid rfl rfl rfl

theorem Named.toggle {s : SchedulerEngine} (hn : s.Named) (now : Time) (sid : Sid) :
    (s.toggleSchedule now sid).1.Named := by
  unfold toggleSchedule
  split
  · exact hn
  · next r _ =>
    have hid : ((s.entries r).toggle now).id = (s.entries r).id := rfl
    dsimp only
    split <;> exact hn.writeEntry hid rfl rfl rfl

theorem Named.add {s : SchedulerEngine} (hn : s.Named) (now : Time) (sid : Sid) (name : String)
    (tt : TaskType) (interval : ℤ) (config : String) (enabled : Bool) :
    (s.addSchedule now sid name tt interval config enabled).1.Named := by
  unfold addSchedule
  split
  · exact hn
  · intro sid' r hr
    dsimp only at hr ⊢
    rw [Dict.get?_insert] at hr
    split at hr
    · next hsid =>
      cases hr
      refine ⟨?_, Nat.lt_succ_self _⟩
      rw [writeEntry_entries, Function.update_self]
      exact hsid.symm
    · obtain ⟨hname, hlt⟩ := hn sid' r hr
      refine ⟨?_, Nat.lt_succ_of_lt hlt⟩
      rw [writeEntry_entries, Function.update_of_ne hlt.ne]
      exact hname

theorem Named.delete {s : SchedulerEngine} (hn : s.Named) (sid : Sid) :
    (s.deleteSchedule sid).1.Named := by
  unfold deleteSchedule
  split
  · intro sid' r hr
    dsimp only at hr
    rw [Dict.get?_erase] at hr
    split at hr
    · cases hr
    · exact hn sid' r hr
  · exact hn

theorem Named.cancelRunning {s : SchedulerEngine} (hn : s.Named) (sid : Sid) :
    (s.cancelRunning sid).1.Named := by
  unfold SchedulerEngine.cancelRunning
  split
  · exact hn
  · dsimp only
    split
    · exact hn.writeEntry (by rfl) rfl rfl rfl
    · split
      · exact hn
      · split <;> exact hn

theorem Named.step {s s' : SchedulerEngine} {a : Time × Action} (hn : s.Named)
    (hs : s.step a = some s') : s'.Named := by
  obtain ⟨now, a⟩ := a
  cases a with
  | resume i inp =>
    rcases step_effect hs with ⟨i', inp', s₁, c', heq, hturn, rfl⟩ | ⟨hne, -⟩
    · have hn₁ := (turn_effect hturn).frame.named hn
      exact hn₁
    · exact absurd rfl (hne i inp)
  | startLoop =>
    cases hs
    unfold SchedulerEngine.startLoop
    split
    · split <;> exact hn
    · exact hn
  | cancelRunning sid => cases hs; exact hn.cancelRunning sid
  | addSchedule sid name tt interval config enabled =>
    cases hs; exact hn.add now sid name tt interval config enabled
  | updateSchedule sid f => cases hs; exact hn.update now sid f
  | deleteSchedule sid => cases hs; exact hn.delete sid
  | toggleSchedule sid => cases hs; exact hn.toggle now sid
  | stop => cases hs; exact hn
  | trigger sid => cases hs; exact hn
  | triggerNow sid => cases hs; exact hn
  | cancelAll reason => cases hs; exact hn
  | pauseAll => cases hs; exact hn
  | resumeAll => cases hs; exact hn
  | host hs' => cases hs; exact hn

/-! ### Removed schedules -/

/-- No drain launches the schedule, and none will without its being queued again: it is
not known, or it is neither queued nor in the hands of a drain. -/
structure Gone (s : SchedulerEngine) (sid : Sid) : Prop where
  idle : ∀ i l, (s.code i).launch? = some l → l.sid ≠ sid
  unlisted : s.schedules.get? sid = none ∨
    s.queue.get? sid = none ∧ ∀ i p, (s.code i).drain? = some p → sid ∉ p.todo

theorem launch?_of_done {c : Code} (h : c.isDone = true) : c.launch? = none := by
  rw [Code.launch?, drain?_of_done h, Option.bind_none]

theorem notMem_of_not_inFlight {s : SchedulerEngine} (hf : s.Fresh) {sid : Sid}
    (h : s.inFlight sid = false) {i : TaskId} {p : DrainPc} (hp : (s.code i).drain? = some p) :
    sid ∉ p.todo := by
  have hi : i < s.nextTask := by
    by_contra hle
    rw [drain?_of_done (hf i (Nat.le_of_not_lt hle))] at hp
    cases hp
  simp only [inFlight, List.any_eq_false, List.mem_range] at h
  have hi := h i hi
  rw [hp] at hi
  simpa using hi

theorem ne_of_not_launching {s : SchedulerEngine} (hf : s.Fresh) {sid : Sid}
    (h : s.launching sid = false) {i : TaskId} {l : Launch} (hl : (s.code i).launch? = some l) :
    l.sid ≠ sid := by
  have hi : i < s.nextTask := by
    by_contra hle
    rw [launch?_of_done (hf i (Nat.le_of_not_lt hle))] at hl
    cases hl
  simp only [launching, List.any_eq_false, List.mem_range] at h
  have hi := h i hi
  rw [hl] at hi
  simpa using hi

/-- What a drain launches is in its `todo`. -/
theorem launch_mem_todo {c : Code} {l : Launch} (h : c.launch? = some l) :
    ∃ p, c.drain? = some p ∧ l.sid ∈ p.todo := by
  simp only [Code.launch?, Option.bind_eq_some_iff] at h
  obtain ⟨p, hp, hl⟩ := h
  cases p with
  | launching l' rest =>
    cases hl
    exact ⟨_, hp, List.mem_cons_self⟩
  | _ => cases hl

/-- A schedule that is neither queued nor in flight is gone. -/
theorem Gone.of_idle {s : SchedulerEngine} {sid : Sid} (hq : s.queue.get? sid = none)
    (ht : ∀ i p, (s.code i).drain? = some p → sid ∉ p.todo) : s.Gone sid := by
  refine ⟨fun i l hl => ?_, .inr ⟨hq, ht⟩⟩
  rintro rfl
  obtain ⟨p, hp, hmem⟩ := launch_mem_todo hl
  exact ht i p hp hmem

/-- An honest removal leaves nothing in the hands of a drain. -/
theorem gone_of_removed {s s' : SchedulerEngine} {now : Time} {a : Action} {sid : Sid}
    (hf : s.Fresh) (hn : s.Named) (hs : s.step (now, a) = some s')
    (hr : s.removed a = some sid) (hh : s.honest (now, a) = true) : s'.Gone sid := by
  cases a with
  | cancelRunning sid' =>
    simp only [honest, hr, Option.all_some, Bool.not_eq_true'] at hh
    simp only [removed, Option.ite_none_right_eq_some, Bool.and_eq_true,
      Option.some.injEq] at hr
    obtain ⟨⟨hknown, hqueued⟩, rfl⟩ := hr
    obtain ⟨r, hr⟩ := Dict.contains_eq_true.mp hknown
    cases hs
    simp only [cancelRunning, hr, hqueued, if_true]
    refine .of_idle ?_ (fun i p hp => notMem_of_not_inFlight hf hh hp)
    rw [writeEntry_queue, dequeue_queue, Dict.get?_erase, if_pos rfl]
  | updateSchedule sid' f =>
    simp only [honest, hr, Option.all_some, Bool.not_eq_true'] at hh
    simp only [removed, Option.ite_none_right_eq_some, Bool.and_eq_true, beq_iff_eq,
      Option.some.injEq] at hr
    obtain ⟨⟨⟨hknown, hqueued⟩, hdisable⟩, rfl⟩ := hr
    obtain ⟨r, hr⟩ := Dict.contains_eq_true.mp hknown
    cases hs
    simp only [updateSchedule, hr, hdisable, if_true]
    refine .of_idle ?_ (fun i p hp => notMem_of_not_inFlight hf hh hp)
    rw [writeEntry_queue, dequeue_queue, update_id, (hn _ r hr).1, Dict.get?_erase, if_pos rfl]
  | toggleSchedule sid' =>
    simp only [honest, hr, Option.all_some, Bool.not_eq_true'] at hh
    simp only [removed] at hr
    split at hr
    · cases hr
    · next r hget =>
      simp only [Option.ite_none_right_eq_some, Bool.and_eq_true, Bool.or_eq_true,
        decide_eq_true_eq, Option.some.injEq] at hr
      obtain ⟨⟨hqueued, hoff⟩, rfl⟩ := hr
      -- the toggle leaves the schedule disabled, or without a positive interval
      have hnot : ¬ (((s.entries r).toggle now).enabled = true ∧
          0 < ((s.entries r).toggle now).intervalSec) := by
        rintro ⟨hon, hpos⟩
        simp only [ScheduleEntry.toggle, Bool.not_eq_true'] at hon hpos
        rcases hoff with hen | hle
        · rw [hon] at hen
          cases hen
        · omega
      cases hs
      simp only [toggleSchedule, hget, if_neg hnot]
      refine .of_idle ?_ (fun i p hp => notMem_of_not_inFlight hf hh hp)
      rw [writeEntry_queue, dequeue_queue, show ((s.entries r).toggle now).id = _ from
        (hn _ r hget).1, Dict.get?_erase, if_pos rfl]
  | deleteSchedule sid' =>
    simp only [honest, hr, Option.isNone_some, Bool.false_or, Bool.not_eq_true'] at hh
    simp only [removed, Option.ite_none_right_eq_some, Bool.and_eq_true,
      Option.some.injEq] at hr
    obtain ⟨⟨hknown, hqueued⟩, rfl⟩ := hr
    cases hs
    simp only [deleteSchedule, hknown, if_true]
    refine ⟨fun i l hl => ne_of_not_launching hf hh hl, .inl ?_⟩
    simp
  | _ => cases hr

/-- A gone schedule stays gone and is not launched in a turn of a drain. -/
theorem Gone.drain_turn {s s₁ : SchedulerEngine} {sid : Sid} (h : s.Gone sid) {p : DrainPc}
    {i : TaskId} (hp : (s.code i).drain? = some p) {q : Option DrainPc}
    (hd : s.DrainTurn p s₁ q) :
    (∀ l, q.bind DrainPc.launch? = some l → l.sid ≠ sid) ∧
      (s.queue.get? sid = none ∧ sid ∉ p.todo → ∀ p', q = some p' → sid ∉ p'.todo) ∧
      ∀ key, ¬ s.Launched s₁ sid key false := by
  have hsame : ∀ s' : SchedulerEngine, s'.nextTask = s.nextTask →
      ∀ key, ¬ s.Launched s' sid key false := fun s' hs' key hl => by
    rw [hl.nextTask] at hs'
    exact Nat.succ_ne_self _ hs'
  -- the schedule at the head of a launching drain is not the one that is gone
  have hhead : ∀ x rest, p.todo = x :: rest →
      (p.launch? = none → ∃ r, s.schedules.get? x = some r) → x ≠ sid := by
    rintro x rest htodo hknown rfl
    cases hl : p.launch? with
    | some l =>
      have hlaunch : (s.code i).launch? = some l := by rw [Code.launch?, hp, Option.bind_some, hl]
      refine h.idle i l hlaunch ?_
      cases p with
      | launching l' rest' =>
        cases hl
        exact (List.cons.inj htodo).1
      | _ => cases hl
    | none =>
      rcases h.unlisted with hnone | ⟨-, htodo'⟩
      · obtain ⟨r, hr⟩ := hknown hl
        rw [hnone] at hr
        cases hr
      · refine htodo' i p hp ?_
        rw [htodo]
        exact List.mem_cons_self
  have htail : ∀ x rest, p.todo = x :: rest → sid ∉ p.todo → sid ∉ rest := by
    intro x rest htodo hmem hrest
    rw [htodo] at hmem
    exact hmem (List.mem_cons_of_mem x hrest)
  -- a drain that is not launching has no launch in hand
  have hnext : ∀ todo l, (some (DrainPc.next todo)).bind DrainPc.launch? = some l →
      l.sid ≠ sid := by
    intro todo l hl
    cases hl
  cases hd with
  | ended =>
    refine ⟨fun l hl => ?_, fun _ p' hp' => ?_, hsame _ rfl⟩
    · cases hl
    · cases hp'
  | began at_ unpaused =>
    refine ⟨hnext _, ?_, hsame _ rfl⟩
    rintro ⟨hq, -⟩ p' hp' hmem
    cases hp'
    obtain ⟨v, hv⟩ := Dict.mem_keys.mp hmem
    rw [hq] at hv
    cases hv
  | @dropped x rest at_ unknown =>
    refine ⟨hnext _, ?_, hsame _ rfl⟩
    rintro ⟨-, hmem⟩ p' hp'
    cases hp'
    exact htail x rest (by rw [at_]; rfl) hmem
  | @blocked _ x rest todo queue still =>
    refine ⟨hnext _, ?_, hsame _ still.nextTask⟩
    rintro ⟨-, hmem⟩ p' hp'
    cases hp'
    exact htail x rest todo hmem
  | @waits _ x rest l todo hsid known queue still =>
    refine ⟨?_, ?_, hsame _ still.nextTask⟩
    · rintro l' hl'
      cases hl'
      rw [hsid]
      exact hhead x rest todo known
    · rintro ⟨-, hmem⟩ p' hp' hmem'
      cases hp'
      rw [DrainPc.todo, hsid, ← todo] at hmem'
      exact hmem hmem'
  | @launched _ x rest key todo known run queue =>
    refine ⟨hnext _, ?_, fun key' hl => ?_⟩
    · rintro ⟨-, hmem⟩ p' hp'
      cases hp'
      exact htail x rest todo hmem
    · exact hhead x rest todo known (run.unique hl).1

/-- The coroutines after a turn: the task's own, those that were there, or a new run. -/
theorem code_after_turn {s s₁ : SchedulerEngine} {i : TaskId} {inp : Input} {c' : Code}
    (he : TurnEffect s i inp (s.code i) s₁ c') (j : TaskId) :
    (s₁.setCode i c').code j = c' ∧ j = i ∨ (s₁.setCode i c').code j = s.code j ∨
      ∃ sid key triggered, (s₁.setCode i c').code j = .run sid key triggered .unstarted := by
  rw [code_setCode]
  by_cases hj : j = i
  · exact .inl ⟨if_pos hj, hj⟩
  · rw [if_neg hj]
    rcases he.pool with ⟨hcode, -⟩ | ⟨sid, key, triggered, hl⟩
    · exact .inr (.inl (hcode j))
    · rw [hl.code]
      by_cases hjn : j = s.nextTask
      · exact .inr (.inr ⟨sid, key, triggered, if_pos hjn⟩)
      · exact .inr (.inl (if_neg hjn))

/-- A run that a turn starts has been launched in it. -/
theorem Starts.launched {s s₁ : SchedulerEngine} {i : TaskId} {inp : Input} {c' : Code} {sid : Sid}
    (hf : s.Fresh) (hi : (s.code i).isDone = false) (he : TurnEffect s i inp (s.code i) s₁ c')
    (h : s.Starts (s₁.setCode i c') sid) : ∃ key, s.Launched s₁ sid key false := by
  obtain ⟨key, hkey⟩ := h
  rw [code_setCode, if_neg (hf.lt hi).ne'] at hkey
  rcases he.pool with ⟨hcode, -⟩ | ⟨sid', key', triggered, hl⟩
  · have hdone := hf s.nextTask le_rfl
    rw [← hcode, hkey] at hdone
    cases hdone
  · have hnew := hl.code s.nextTask
    rw [if_pos rfl, hkey] at hnew
    cases hnew
    exact ⟨key, hl⟩

/-- **Step lemma**: unless it is queued again, a gone schedule stays gone and no step
starts it. -/
theorem Gone.turn {s s₁ : SchedulerEngine} {now : Time} {i : TaskId} {inp : Input} {c' : Code}
    {sid : Sid} (h : s.Gone sid) (hf : s.Fresh) (hturn : s.turn now i inp = some (s₁, c'))
    (hq : s.queue.get? sid = none → s₁.queue.get? sid = none) :
    (s₁.setCode i c').Gone sid ∧ ¬ s.Starts (s₁.setCode i c') sid := by
  have hi := turn_not_done hturn
  have he := turn_effect hturn
  -- what the task's own coroutine has in hand afterwards
  obtain ⟨hown, htodo, hstart⟩ : (∀ l, c'.launch? = some l → l.sid ≠ sid) ∧
      (s.queue.get? sid = none ∧ (∀ p, (s.code i).drain? = some p → sid ∉ p.todo) →
        ∀ p', c'.drain? = some p' → sid ∉ p'.todo) ∧
      ∀ key, ¬ s.Launched s₁ sid key false := by
    rcases turn_drains hturn with ⟨p, q, hp, hd, rfl⟩ | ⟨hbefore, hlaunch⟩
    · obtain ⟨hl, ht, hs⟩ := h.drain_turn hp hd
      rw [Code.launch?, Code.drain?_afterDrainStep hp]
      exact ⟨hl, fun hlisted => ht ⟨hlisted.1, hlisted.2 p hp⟩, hs⟩
    · refine ⟨fun l hl => ?_, fun _ p' hp' hmem => ?_, hlaunch sid⟩
      · obtain ⟨p, hp, hmem⟩ := launch_mem_todo hl
        rcases hbefore with hb | hb <;> rw [hb] at hp <;> cases hp
        cases hmem
      · rcases hbefore with hb | hb <;> rw [hb] at hp' <;> cases hp'
        cases hmem
  refine ⟨⟨fun j l hl => ?_, ?_⟩, fun hs => ?_⟩
  · rcases code_after_turn he j with ⟨hj, -⟩ | hj | ⟨_, _, _, hj⟩
    · rw [hj] at hl
      exact hown l hl
    · rw [hj] at hl
      exact h.idle j l hl
    · rw [hj] at hl
      cases hl
  · rcases h.unlisted with hnone | ⟨hnone, hlisted⟩
    · left
      rw [setCode_schedules, he.frame.schedules]
      exact hnone
    · refine .inr ⟨hq hnone, fun j p hp => ?_⟩
      rcases code_after_turn he j with ⟨hj, -⟩ | hj | ⟨_, _, _, hj⟩
      · rw [hj] at hp
        exact htodo ⟨hnone, hlisted i⟩ p hp
      · rw [hj] at hp
        exact hlisted j p hp
      · rw [hj] at hp
        cases hp
  · obtain ⟨key, hl⟩ := hs.launched hf hi he
    exact hstart key hl

theorem updateSchedule_schedules (s : SchedulerEngine) (now : Time) (sid : Sid)
    (f : ScheduleFields) : (s.updateSchedule now sid f).1.schedules = s.schedules := by
  unfold updateSchedule
  split
  · rfl
  · dsimp only
    split <;> rfl

theorem toggleSchedule_schedules (s : SchedulerEngine) (now : Time) (sid : Sid) :
    (s.toggleSchedule now sid).1.schedules = s.schedules := by
  unfold toggleSchedule
  split
  · rfl
  · dsimp only
    split <;> rfl

theorem cancelRunning_schedules (s : SchedulerEngine) (sid : Sid) :
    (s.cancelRunning sid).1.schedules = s.schedules := by
  unfold cancelRunning
  split
  · rfl
  · dsimp only
    split
    · rfl
    · split
      · rfl
      · split <;> rfl

theorem startLoop_schedules (s : SchedulerEngine) : s.startLoop.schedules = s.schedules := by
  unfold startLoop
  split
  · split <;> rfl
  · rfl

/-- Only `add_schedule` makes a schedule known. -/
theorem api_unknown {s s' : SchedulerEngine} {now : Time} {a : Action} {sid : Sid}
    (ha : ∀ i inp, a ≠ .resume i inp) (hs : s.step (now, a) = some s')
    (hnone : s.schedules.get? sid = none) :
    s'.schedules.get? sid = none ∨
      ∃ name tt interval config enabled,
        a = .addSchedule sid name tt interval config enabled := by
  cases a with
  | resume i inp => exact absurd rfl (ha i inp)
  | addSchedule sid' name tt interval config enabled =>
    by_cases hsid : sid = sid'
    · subst hsid
      exact .inr ⟨name, tt, interval, config, enabled, rfl⟩
    · left
      cases hs
      unfold addSchedule
      split
      · exact hnone
      · dsimp only
        rw [Dict.get?_insert, if_neg hsid]
        exact hnone
  | deleteSchedule sid' =>
    left
    cases hs
    unfold deleteSchedule
    split
    · dsimp only
      rw [Dict.get?_erase, hnone, ite_self]
    · exact hnone
  | updateSchedule sid' f => left; cases hs; rw [updateSchedule_schedules]; exact hnone
  | toggleSchedule sid' => left; cases hs; rw [toggleSchedule_schedules]; exact hnone
  | cancelRunning sid' => left; cases hs; rw [cancelRunning_schedules]; exact hnone
  | startLoop => left; cases hs; rw [startLoop_schedules]; exact hnone
  | stop => left; cases hs; exact hnone
  | trigger sid' => left; cases hs; exact hnone
  | triggerNow sid' => left; cases hs; exact hnone
  | cancelAll reason => left; cases hs; exact hnone
  | pauseAll => left; cases hs; exact hnone
  | resumeAll => left; cases hs; exact hnone
  | host hs' => left; cases hs; exact hnone

theorem Gone.api {s s' : SchedulerEngine} {now : Time} {a : Action} {sid : Sid} (h : s.Gone sid)
    (hf : s.Fresh) (ha : ∀ i inp, a ≠ .resume i inp) (hs : s.step (now, a) = some s')
    (hh : s.honest (now, a) = true) (hq : s.queue.get? sid = none → s'.queue.get? sid = none) :
    s'.Gone sid ∧ ¬ s.Starts s' sid := by
  have he := api_effect ha hs
  have hdrain : ∀ j p, (s'.code j).drain? = some p → (s.code j).drain? = some p := by
    intro j p hp
    rcases he.code j with hj | ⟨-, -, -, hj⟩
    · rwa [hj] at hp
    · rw [hj] at hp
      cases hp
  refine ⟨⟨fun j l hl => ?_, ?_⟩, ?_⟩
  · rcases he.code j with hj | ⟨-, -, -, hj⟩
    · rw [hj] at hl
      exact h.idle j l hl
    · rw [Code.launch?, hj] at hl
      cases hl
  · rcases h.unlisted with hnone | ⟨hnone, hlisted⟩
    · rcases api_unknown ha hs hnone with hnone' | ⟨name, tt, interval, config, enabled, rfl⟩
      · exact .inl hnone'
      · -- an added schedule is neither queued nor in flight
        have hknown : s.schedules.contains sid = false := Dict.contains_eq_false.mpr hnone
        simp only [honest, hknown, Bool.false_or, Bool.and_eq_true, Bool.not_eq_true'] at hh
        refine .inr ⟨hq (Dict.contains_eq_false.mp hh.1), fun j p hp => ?_⟩
        exact notMem_of_not_inFlight hf hh.2 (hdrain j p hp)
    · exact .inr ⟨hq hnone, fun j p hp => hlisted j p (hdrain j p hp)⟩
  · rintro ⟨key, hkey⟩
    rcases he.code s.nextTask with hj | ⟨-, -, hj, -⟩
    · have hdone := hf s.nextTask le_rfl
      rw [← hj, hkey] at hdone
      cases hdone
    · rw [hkey] at hj
      cases hj

/-- The step does not put the schedule on the queue. -/
def NotQueued (sid : Sid) : Machine.Guard SchedulerEngine (Time × Action) :=
  fun s _ s' => s.queue.get? sid = none → s'.queue.get? sid = none

/-- The condition of this module, as a guard on runs. -/
def Honest : Machine.Guard SchedulerEngine (Time × Action) := fun s a _ => s.honest a = true

theorem Gone.step {s s' : SchedulerEngine} {a : Time × Action} {sid : Sid} (h : s.Gone sid)
    (hf : s.Fresh) (hs : s.step a = some s') (hh : s.honest a = true)
    (hq : s.queue.get? sid = none → s'.queue.get? sid = none) :
    s'.Gone sid ∧ ¬ s.Starts s' sid := by
  obtain ⟨now, a⟩ := a
  rcases step_effect hs with ⟨i, inp, s₁, c', rfl, hturn, rfl⟩ | ⟨ha, -⟩
  · exact h.turn hf hturn hq
  · exact h.api hf ha hs hh hq

/-- **Run lemma**: along a run that does not queue it, a gone schedule stays gone. -/
theorem Gone.run {s s' : SchedulerEngine} {sid : Sid} (h : s.Gone sid) (hf : s.Fresh)
    (hr : machine.Reaches (fun s a s' => Honest s a s' ∧ NotQueued sid s a s') s s') :
    s'.Gone sid ∧ s'.Fresh := by
  refine hr.invariant (I := fun s => s.Gone sid ∧ s.Fresh) ⟨h, hf⟩ ?_
  rintro s a s' ⟨hg, hf⟩ hs ⟨hh, hq⟩
  exact ⟨(hg.step hf hs hh hq).1, hf.step hs⟩

/-! ### Queued schedules -/

/-- A `trigger_now` that waits for the launch lock has taken the schedule off the queue. -/
def InHand (s : SchedulerEngine) (sid : Sid) : Prop :=
  ∃ i r taskDef, s.code i = .triggerNow sid (.lock r taskDef true)

/-- The schedule is queued, or a waiting `trigger_now` has it. -/
def Pending (s : SchedulerEngine) (sid : Sid) : Prop :=
  s.queue.contains sid = true ∨ s.InHand sid

/-- The step creates a run of `sid`. -/
def Launches (s s' : SchedulerEngine) (sid : Sid) : Prop :=
  ∃ key triggered, s'.code s.nextTask = .run sid key triggered .unstarted

theorem dequeue_contains {s : SchedulerEngine} {sid x : Sid} (hx : s.queue.contains x = true)
    (hne : x ≠ sid) : (s.dequeue sid).queue.contains x = true := by
  rw [Dict.contains_eq_true] at hx ⊢
  rwa [dequeue_queue, Dict.get?_erase, if_neg hne]

/-- What becomes of a queued schedule in a turn: it stays, a `trigger_now` takes it, or
it is launched. -/
def KeptOr (s s' : SchedulerEngine) (c' : Code) (x : Sid) : Prop :=
  s'.queue.contains x = true ∨ (∃ r taskDef, c' = .triggerNow x (.lock r taskDef true)) ∨
    ∃ key triggered, s.Launched s' x key triggered

theorem triggerNowClaim_keeps {s s' : SchedulerEngine} {now : Time} {i : TaskId} {sid x : Sid}
    {r r' : Ref} {taskDef : TaskDef} {c' : Code} (hx : s.queue.contains x = true)
    (hknown : s.schedules.get? x = some r')
    (hdrop : x = sid → s.runningTasks.contains (s.entries r).taskType = true →
      (s.checkBusyFlag taskDef).isSome = true → s.conflicts taskDef = false →
      s.lockOpen = false)
    (h : s.triggerNowClaim now i sid r taskDef = (s', c')) : s.KeptOr s' c' x := by
  unfold triggerNowClaim at h
  split at h
  · cases h
    exact .inl (s.enqueue_queueKept now sid x hx)
  · next s₁ hs₁ =>
    have hbusy : (s.checkBusyFlag taskDef).isSome = true := Option.isSome_of_eq_some hs₁
    obtain ⟨hs, host, rfl⟩ := checkBusyFlag_kept hs₁
    dsimp only at h
    -- only the schedule that is triggered can leave the queue
    by_cases hsid : x = sid
    · subst hsid
      split at h
      · cases h
        exact .inl (enqueue_contains
          (s := ({ s with state := hs } : SchedulerEngine).dequeue x) hknown now)
      · next hclear =>
        have hclear : s.conflicts taskDef = false := Bool.eq_false_iff.mpr hclear
        split at h
        · next hopen =>
          have hopen : s.lockOpen = true := hopen
          -- registered and with the lock free it would be dropped, which the condition leaves out
          have hunreg : s.runningTasks.contains (s.entries r).taskType = false := by
            by_contra hreg
            rw [Bool.not_eq_false] at hreg
            rw [hdrop rfl hreg hbusy hclear] at hopen
            cases hopen
          simp only [triggerNowLaunch, dequeue_runningTasks, dequeue_entries, hunreg,
            Bool.false_eq_true, if_false] at h
          cases h
          have hl := launch_launched (({ s with state := hs } : SchedulerEngine).dequeue x) now x r
            true
          exact .inr (.inr ⟨_, true,
            hl.of_still (((Still.refl s).with_host host).trans (dequeue_kept _ x).still)⟩)
        · cases h
          refine .inr (.inl ⟨r, taskDef, ?_⟩)
          rw [hx]
    · have hx' : (({ s with state := hs } : SchedulerEngine).dequeue sid).queue.contains x = true :=
        dequeue_contains (s := { s with state := hs }) hx hsid
      split at h
      · cases h
        exact .inl (enqueue_queueKept _ now sid x hx')
      · split at h
        · unfold triggerNowLaunch at h
          split at h <;> cases h <;> exact .inl hx'
        · cases h
          exact .inl hx'

theorem triggerNowStep_keeps {s s' : SchedulerEngine} {now : Time} {i : TaskId} {sid x : Sid}
    {r' : Ref} {pc : TriggerPc} {c' : Code} {inp : Input} (hi : s.code i = .triggerNow sid pc)
    (hx : s.queue.contains x = true) (hknown : s.schedules.get? x = some r')
    (hdrop : s.drops i inp = false)
    (h : s.triggerNowStep now i sid pc inp = some (s', c')) : s.KeptOr s' c' x := by
  cases trigger_turn h with
  | claimed known unregistered internet claim =>
    refine triggerNowClaim_keeps hx hknown (fun _ hreg => ?_) claim
    rw [unregistered] at hreg
    cases hreg
  | online claim =>
    refine triggerNowClaim_keeps hx hknown ?_ claim
    intro hsid hreg hbusy hclear
    rw [hsid] at hx
    simpa [drops, hi, hx, hreg, hbusy, hclear] using hdrop
  | locked lock launch =>
    subst launch
    unfold triggerNowLaunch
    split <;> exact .inl hx
  | _ => exact .inl hx

/-- **Step lemma for turns**: a queued schedule stays queued, is taken by a `trigger_now`
or is launched, unless the turn clears the queue. -/
theorem turn_keeps {s s₁ : SchedulerEngine} {now : Time} {i : TaskId} {inp : Input} {c' : Code}
    {x : Sid} {r' : Ref} (hx : s.queue.contains x = true)
    (hknown : s.schedules.get? x = some r') (hdrop : s.drops i inp = false)
    (hclear : clearsQueue (s.code i) = false) (h : s.turn now i inp = some (s₁, c')) :
    s.KeptOr s₁ c' x := by
  rcases turn_cases h with ⟨lock, waiters, rfl, -⟩ | h
  · exact .inl hx
  · unfold codeStep at h
    split at h
    · next p hp =>
      simp only [Option.map_eq_some_iff] at h
      obtain ⟨⟨s₂, q⟩, hq, h⟩ := h
      cases h
      cases drain_turn hq with
      | ended => exact .inl hx
      | began => exact .inl hx
      | @dropped y rest at_ unknown =>
        -- what a drain drops is unknown, and `x` is known
        refine .inl (dequeue_contains hx ?_)
        rintro rfl
        rw [hknown] at unknown
        cases unknown
      | blocked todo queue => exact .inl (queue ▸ hx)
      | waits todo sid known queue => exact .inl (queue ▸ hx)
      | @launched _ y rest key todo known run queue =>
        by_cases hxy : x = y
        · subst hxy
          exact .inr (.inr ⟨key, false, run⟩)
        · left
          rw [Dict.contains_eq_true] at hx ⊢
          rwa [queue, Dict.get?_erase, if_neg hxy]
    · cases hc : s.code i with
      | run sid key triggered pc => rw [hc] at h; exact .inl (runStep_queueKept h x hx)
      | loop pc => rw [hc] at h; exact .inl (loopStep_queueKept h x hx)
      | trigger sid p =>
        rw [hc] at h
        simp only [Option.ite_none_right_eq_some, Option.some.injEq, triggerStep] at h
        obtain ⟨-, h⟩ := h
        split at h <;> cases h
        · exact .inl hx
        · exact .inl (s.enqueue_queueKept now sid x hx)
      | triggerNow sid pc =>
        rw [hc] at h
        exact triggerNowStep_keeps hc hx hknown hdrop h
      | cancelAll reason pc =>
        rw [hc] at h hclear
        simp only [Option.ite_none_right_eq_some] at h
        obtain ⟨-, h⟩ := h
        cases pc with
        | start => cases hclear
        | gather running =>
          simp only [cancelAllStep] at h
          split at h <;> cases h
          exact .inl (markCancelled_queueKept _ now reason x hx)
      | stop pc =>
        rw [hc] at h hclear
        simp only [Option.ite_none_right_eq_some] at h
        obtain ⟨-, h⟩ := h
        cases pc with
        | start => cases hclear
        | awaitLoop l =>
          simp only [stopStep] at h
          split at h <;> cases h
          exact .inl hx
        | gather running => cases hclear
      | done v => rw [hc] at h; cases h

/-- A `trigger_now` with a schedule in hand launches it when it gets the lock. -/
theorem inHand_turn {s s₁ : SchedulerEngine} {now : Time} {i : TaskId} {inp : Input} {c' : Code}
    {sid : Sid} {r : Ref} {taskDef : TaskDef}
    (hi : s.code i = .triggerNow sid (.lock r taskDef true)) (hdrop : s.drops i inp = false)
    (h : s.turn now i inp = some (s₁, c')) : ∃ key, s.Launched s₁ sid key true := by
  have hi' : (s.tasks i).code = .triggerNow sid (.lock r taskDef true) := hi
  unfold turn at h
  simp only [hi', Code.interruptible, Bool.and_false, Bool.false_eq_true, if_false, codeStep,
    Code.drain?] at h
  cases trigger_turn h with
  | locked lock launch =>
    simp only [drops, hi, Bool.true_and] at hdrop
    simp only [triggerNowLaunch, leaveWaiters_runningTasks, leaveWaiters_entries, hdrop,
      Bool.false_eq_true, if_false] at launch
    subst launch
    exact ⟨_, (launch_launched (s.leaveWaiters i) now sid r true).of_still (leaveWaiters_still s i)⟩

theorem Launched.launches {s s₁ : SchedulerEngine} {i : TaskId} {c' : Code} {sid : Sid}
    {key : TaskType} {triggered : Bool} (hne : s.nextTask ≠ i)
    (hl : s.Launched s₁ sid key triggered) : s.Launches (s₁.setCode i c') sid := by
  refine ⟨key, triggered, ?_⟩
  rw [code_setCode, if_neg hne, hl.code, if_pos rfl]

theorem pending_turn {s s₁ : SchedulerEngine} {now : Time} {i : TaskId} {inp : Input} {c' : Code}
    {sid : Sid} (hf : s.Fresh) (hp : s.Pending sid) (hknown : s.schedules.contains sid = true)
    (hdrop : s.drops i inp = false) (hclear : clearsQueue (s.code i) = false)
    (h : s.turn now i inp = some (s₁, c')) :
    (s₁.setCode i c').Pending sid ∨ s.Launches (s₁.setCode i c') sid := by
  have hi := turn_not_done h
  have hne : s.nextTask ≠ i := (hf.lt hi).ne'
  obtain ⟨r', hr'⟩ := Dict.contains_eq_true.mp hknown
  rcases hp with hx | ⟨j, r, taskDef, hj⟩
  · rcases turn_keeps hx hr' hdrop hclear h with hx' | ⟨r, taskDef, rfl⟩ | ⟨key, triggered, hl⟩
    · exact .inl (.inl hx')
    · refine .inl (.inr ⟨i, r, taskDef, ?_⟩)
      rw [code_setCode, if_pos rfl]
    · exact .inr (hl.launches hne)
  · by_cases hji : j = i
    · rw [hji] at hj
      obtain ⟨key, hl⟩ := inHand_turn hj hdrop h
      exact .inr (hl.launches hne)
    · refine .inl (.inr ⟨j, r, taskDef, ?_⟩)
      have hjlt : j < s.nextTask := hf.lt (by rw [hj]; rfl)
      rw [code_setCode, if_neg hji]
      rcases (turn_effect h).pool with ⟨hcode, -⟩ | ⟨_, _, _, hl⟩
      · rw [hcode, hj]
      · rw [hl.code, if_neg hjlt.ne, hj]

/-- A step of the API takes a known schedule off the queue only if it removes it. -/
theorem api_keeps {s s' : SchedulerEngine} {now : Time} {a : Action} {x : Sid} (hn : s.Named)
    (ha : ∀ i inp, a ≠ .resume i inp) (hs : s.step (now, a) = some s')
    (hx : s.queue.contains x = true) (hr : s.removed a ≠ some x) :
    s'.queue.contains x = true := by
  cases a with
  | resume i inp => exact absurd rfl (ha i inp)
  | cancelRunning sid =>
    cases hs
    unfold cancelRunning
    split
    · exact hx
    · next r hget =>
      dsimp only
      split
      · next hqueued =>
        refine dequeue_contains hx ?_
        rintro rfl
        refine hr ?_
        rw [removed, Dict.contains_eq_true.mpr ⟨r, hget⟩, hx]
        rfl
      · split
        · exact hx
        · split <;> exact hx
  | updateSchedule sid f =>
    cases hs
    unfold updateSchedule
    split
    · exact hx
    · next r hget =>
      dsimp only
      split
      · next hoff =>
        refine dequeue_contains hx ?_
        rw [update_id, (hn sid r hget).1]
        rintro rfl
        refine hr ?_
        rw [removed, Dict.contains_eq_true.mpr ⟨r, hget⟩, hx, hoff]
        rfl
      · exact hx
  | toggleSchedule sid =>
    cases hs
    unfold toggleSchedule
    split
    · exact hx
    · next r hget =>
      dsimp only
      split
      · exact hx
      · next hoff =>
        refine dequeue_contains hx ?_
        rw [show ((s.entries r).toggle now).id = sid from (hn sid r hget).1]
        rintro rfl
        refine hr ?_
        simp only [ScheduleEntry.toggle, Bool.not_eq_true', not_and_or, Bool.not_eq_false,
          not_lt] at hoff
        simp only [removed, hget, hx, Bool.true_and, Bool.or_eq_true, decide_eq_true_eq]
        exact if_pos hoff
  | deleteSchedule sid =>
    cases hs
    unfold deleteSchedule
    split <;> exact hx
  | addSchedule sid name tt interval config enabled =>
    cases hs
    unfold addSchedule
    split <;> exact hx
  | startLoop =>
    cases hs
    unfold startLoop
    split
    · split <;> exact hx
    · exact hx
  | stop => cases hs; exact hx
  | trigger sid => cases hs; exact hx
  | triggerNow sid => cases hs; exact hx
  | cancelAll reason => cases hs; exact hx
  | pauseAll => cases hs; exact hx
  | resumeAll => cases hs; exact hx
  | host hs' => cases hs; exact hx

/-- **Step lemma**: a pending schedule stays pending or is launched, unless it is removed
by an operation, or the queue is cleared by `cancel_all` or `stop`. -/
theorem pending_step {s s' : SchedulerEngine} {now : Time} {a : Action} {sid : Sid} (hf : s.Fresh)
    (hn : s.Named) (hs : s.step (now, a) = some s') (hh : s.honest (now, a) = true)
    (hp : s.Pending sid) (hknown : s.schedules.contains sid = true) :
    s'.Pending sid ∨ s.Launches s' sid ∨ s.removed a = some sid ∨
      ∃ i inp, a = .resume i inp ∧ clearsQueue (s.code i) = true := by
  rcases step_effect hs with ⟨i, inp, s₁, c', rfl, hturn, rfl⟩ | ⟨ha, he⟩
  · by_cases hclear : clearsQueue (s.code i) = true
    · exact .inr (.inr (.inr ⟨i, inp, rfl, hclear⟩))
    · have hdrop : s.drops i inp = false := by simpa [honest] using hh
      rcases pending_turn hf hp hknown hdrop (Bool.eq_false_iff.mpr hclear) hturn with h | h
      · exact .inl h
      · exact .inr (.inl h)
  · by_cases hr : s.removed a = some sid
    · exact .inr (.inr (.inl hr))
    · left
      rcases hp with hx | ⟨j, r, taskDef, hj⟩
      · exact .inl (api_keeps hn ha hs hx hr)
      · refine .inr ⟨j, r, taskDef, ?_⟩
        have hjlt : j < s.nextTask := hf.lt (by rw [hj]; rfl)
        rcases he.code j with hc | ⟨rfl, -⟩
        · rw [hc, hj]
        · exact absurd hjlt (lt_irrefl _)

/-! ### The queue over whole runs -/

/-- What an honest queue promises in a state, for the steps and runs that meet `G`: a
schedule that a step removes is not launched by a drain as long as it is not queued
again, and a queued schedule is lost only by a launch, a removal or a clearing of the
whole queue. -/
structure QueueHonest (G : Machine.Guard SchedulerEngine (Time × Action)) (s : SchedulerEngine) :
    Prop where
  noGhost : ∀ now a s₁ sid, s.step (now, a) = some s₁ → G s (now, a) s₁ →
    s.removed a = some sid → ∀ s₂ b s₃,
      machine.Reaches (fun s a s' => G s a s' ∧ NotQueued sid s a s') s₁ s₂ →
      s₂.step b = some s₃ → G s₂ b s₃ → NotQueued sid s₂ b s₃ → ¬ s₂.Starts s₃ sid
  noLoss : ∀ now a s₁ sid, s.step (now, a) = some s₁ → G s (now, a) s₁ → s.Pending sid →
    s.schedules.contains sid = true →
      s₁.Pending sid ∨ s.Launches s₁ sid ∨ s.removed a = some sid ∨
        ∃ i inp, a = .resume i inp ∧ clearsQueue (s.code i) = true

/-- **The queue is honest** in every state of every run whose steps are all honest. -/
theorem queue_honest {s s' : SchedulerEngine} (h₀ : s.Initial)
    (h : machine.Reaches Honest s s') : s'.QueueHonest Honest := by
  obtain ⟨hf, hn⟩ : s'.Fresh ∧ s'.Named :=
    h.invariant (I := fun s => s.Fresh ∧ s.Named) ⟨h₀.fresh, h₀.named⟩
      (fun _ _ _ hi hs _ => ⟨hi.1.step hs, hi.2.step hs⟩)
  constructor
  · intro now a s₁ sid hs hh hr s₂ b s₃ hrun hb hhb hqb
    obtain ⟨hgone, hf₂⟩ := (gone_of_removed hf hn hs hr hh).run (hf.step hs) hrun
    exact (hgone.step hf₂ hb hhb hqb).2
  · intro now a s₁ sid hs hh hp hknown
    exact pending_step hf hn hs hh hp hknown

/-- A health check and a history recording, both due at once. -/
def dueSchedules : List ScheduleEntry :=
  [{ id := "health_check", name := "Health check", taskType := .healthCheck, intervalSec := 180 },
    { id := "history", name := "History recording", taskType := .history, intervalSec := 60 }]

/-- The first tick of the loop up to the internet check for the launch of the health check;
the history recording is queued and in the drain's snapshot. -/
def firstTick : List (Time × Action) :=
  [(10, .startLoop), (15, .resume 0 .wake), (15, .resume 0 (.alive true)),
    (15, .resume 0 .wake), (15, .resume 0 .wake)]

theorem queue_honest_tick :
    ∃ s', machine.Reaches Honest (prepared dueSchedules) s' ∧
      s'.queue.keys = ["health_check", "history"] ∧ s'.QueueHonest Honest := by
  have hrun : ∃ s', machine.Reaches Honest (prepared dueSchedules) s' ∧
      decide (s'.queue.keys = ["health_check", "history"]) = true :=
    Machine.exists_reaches_of_exec (g := fun s a _ => s.honest a) (l := firstTick)
      (fun s a _ (h : s.honest a = true) => h) (by decide +kernel)
  obtain ⟨s', hs', hqueue⟩ := hrun
  exact ⟨s', hs', of_decide_eq_true hqueue, queue_honest (prepared_initial _) hs'⟩

/-- The history recording is cancelled while the drain checks the internet for the health
check before it; the drain launches it all the same. -/
theorem ghost_launch :
    ¬ ∀ s s' : SchedulerEngine, s.Initial → machine.Reaches Machine.anyStep s s' →
      s'.QueueHonest Machine.anyStep := by
  intro hall
  have hrun : ∃ s', machine.Reaches Machine.anyStep (prepared dueSchedules) s' ∧
      (s'.step (16, .cancelRunning "history")).any (fun s₁ =>
        decide (s'.removed (.cancelRunning "history") = some "history") &&
        (s₁.step (17, .resume 0 (.alive true))).any (fun s₂ =>
          decide (s₂.queue.get? "history" = none) &&
          (s₂.step (17, .resume 0 .wake)).any (fun s₃ =>
            decide (s₃.queue.get? "history" = none ∧
              s₃.code s₂.nextTask = .run "history" .history false .unstarted)))) = true :=
    Machine.exists_reaches_of_exec (g := fun _ _ _ => true) (l := firstTick)
      (fun _ _ _ _ => trivial) (by decide +kernel)
  obtain ⟨s', hs', hend⟩ := hrun
  simp only [Option.any_eq_true, Bool.and_eq_true, decide_eq_true_eq] at hend
  obtain ⟨s₁, hs₁, hremoved, s₂, hs₂, hq₂, s₃, hs₃, hq₃, hstart⟩ := hend
  have hghost := (hall _ s' (prepared_initial _) hs').noGhost 16 _ s₁ "history" hs₁ trivial hremoved
  have hrun₂ : machine.Reaches (fun s a s' => Machine.anyStep s a s' ∧ NotQueued "history" s a s')
      s₁ s₂ := Machine.Reaches.single (a := (17, .resume 0 (.alive true))) hs₂
      ⟨trivial, fun _ => hq₂⟩
  exact hghost s₂ _ s₃ hrun₂ hs₃ trivial (fun _ => hq₃) ⟨_, hstart⟩

/-- Two calls of `trigger_now` check the internet for one schedule. The second launches it,
it is queued again behind its own run, and the first call then takes it off the queue and
returns without a launch. -/
theorem silent_drop :
    ¬ ∀ s s' : SchedulerEngine, s.Initial → machine.Reaches Machine.anyStep s s' →
      s'.QueueHonest Machine.anyStep := by
  intro hall
  have hrun : ∃ s', machine.Reaches Machine.anyStep (prepared dueSchedules) s' ∧
      (s'.step (12, .resume 0 (.alive true))).any (fun s₁ =>
        decide (s'.queue.contains "health_check" = true ∧
          s'.schedules.contains "health_check" = true ∧ clearsQueue (s'.code 0) = false ∧
          s'.nextTask = 4) &&
        decide (s₁.queue.contains "health_check" = false ∧ s₁.nextTask = 4 ∧
          ∀ i ∈ List.range 4, (s₁.code i).isDone = true ∨ (s₁.code i).liveKey.isSome = true)) = true :=
    Machine.exists_reaches_of_exec (g := fun _ _ _ => true)
      (l := [(10, .triggerNow "health_check"), (10, .resume 0 .wake),
        (10, .triggerNow "health_check"), (10, .resume 1 .wake), (11, .resume 1 (.alive true)),
        (11, .trigger "health_check"), (11, .resume 3 .wake), (11, .resume 3 .wake),
        (11, .resume 3 .wake), (11, .resume 3 .wake)])
      (fun _ _ _ _ => trivial) (by decide +kernel)
  obtain ⟨s', hs', hend⟩ := hrun
  simp only [Option.any_eq_true, Bool.and_eq_true, decide_eq_true_eq] at hend
  obtain ⟨s₁, hs₁, ⟨hqueued, hknown, hclear, hnext⟩, hlost, hnext₁, hcodes⟩ := hend
  have hfresh : s'.Fresh :=
    hs'.invariant (prepared_initial _).fresh (fun _ _ _ hf hs _ => hf.step hs)
  have hfresh₁ : s₁.Fresh := hfresh.step hs₁
  rcases (hall _ s' (prepared_initial _) hs').noLoss 12 _ s₁ "health_check" hs₁ trivial
    (.inl hqueued) hknown with (hkept | ⟨i, r, taskDef, hi⟩) | ⟨key, triggered, hrun⟩ | hr | hc
  · rw [hlost] at hkept
    cases hkept
  · -- no call has the schedule in hand
    have hlt : i < 4 := hnext₁ ▸ hfresh₁.lt (by rw [hi]; rfl)
    rcases hcodes i (List.mem_range.mpr hlt) with h | h <;> rw [hi] at h <;> cases h
  · have hdone := hfresh₁ s'.nextTask (hnext₁.trans hnext.symm).le
    rw [hrun] at hdone
    cases hdone
  · cases hr
  · obtain ⟨i, inp, ha, hci⟩ := hc
    cases ha
    rw [hclear] at hci
    cases hci

end HuntProxy.SchedulerEngine
