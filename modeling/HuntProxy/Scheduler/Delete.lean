import HuntProxy.Scheduler.Queue
import HuntProxy.Scheduler.Registry

/-!
# Deleted schedules

`delete_schedule` takes a schedule out of the table in memory and its row out of the
database. `_persist` is an upsert, and some coroutines persist an entry that they have
read before an await: a run when its executor has ended, `_try_launch` and `trigger_now`
after the launch lock or the internet check. None of them looks whether the schedule is
still there.

In the runs in which they find it there, no step but `add_schedule` writes the row of a
deleted schedule.

## Main definitions

- `persists` — the entry, read before an await, that a turn persists
- `tracked` — the steps that persist no entry of a deleted schedule
- `Deleted` — the schedule is neither in memory nor in the database

## Main results

- `Deleted.step` — what tracked steps keep
- `deleted_stays_deleted` — no row comes back
- `resurrected` — a run that ends after its schedule was deleted
-/

namespace HuntProxy

/-- The schedule that a step adds. -/
def Action.adds : Action → Option Sid
  | .addSchedule sid _ _ _ _ _ => some sid
  | _ => none

namespace SchedulerEngine

/-- `_load_schedules`: the table in memory after a restart. -/
def loadSchedules (rows : Dict Sid ScheduleEntry) : Dict Sid ScheduleEntry :=
  rows.items.foldl (fun d p => d.insert p.1 p.2) .empty

/-- The schedule of the entry is in the table. -/
def present (s : SchedulerEngine) (r : Ref) : Bool := s.schedules.contains (s.entries r).id

/-- The entry of a suspended `_try_launch` that a turn launches and thereby persists. -/
def launchPersists (s : SchedulerEngine) (now : Time) (i : TaskId) (l : Launch) :
    Input → Option Ref
  | .wake =>
    if l.await = .lock ∧
        ((s.leaveWaiters i).launchChecks now i l.sid l.entry l.taskDef).2 = .launched then
      some l.entry
    else none
  | .alive true => if l.await = .lock then none else some l.entry
  | _ => none

/-- The entry, read before its await, that a turn of task `i` persists. -/
def persists (s : SchedulerEngine) (now : Time) (i : TaskId) (inp : Input) : Option Ref :=
  if (s.tasks i).cancelRequested && (s.code i).interruptible then none
  else
    match s.code i, inp with
    | .run _ _ _ (.executing r _), .ended _ => some r
    | .triggerNow _ (.internet r taskDef), .alive true =>
      if (s.checkBusyFlag taskDef).isSome ∧ s.conflicts taskDef = false ∧ s.lockOpen = true ∧
          s.runningTasks.contains (s.entries r).taskType = false then some r
      else none
    | .triggerNow _ (.lock r _ _), .wake =>
      if s.runningTasks.contains (s.entries r).taskType then none else some r
    | c, inp => c.launch?.bind (fun l => s.launchPersists now i l inp)

/-- The steps after which no deleted schedule has been persisted. -/
def tracked (s : SchedulerEngine) : Time × Action → Bool
  | (now, .resume i inp) => (s.persists now i inp).all s.present
  | _ => true

/-- The condition of this module, for the runs that do not add the schedule again. -/
def Tracked (sid : Sid) : Machine.Guard SchedulerEngine (Time × Action) :=
  fun s a _ => s.tracked a = true ∧ a.2.adds ≠ some sid

/-- The schedule is neither in memory nor in the database. -/
structure Deleted (s : SchedulerEngine) (sid : Sid) : Prop where
  named : s.Named
  gone : s.schedules.get? sid = none
  row : s.rows.get? sid = none

namespace Deleted

variable {s s' : SchedulerEngine} {sid : Sid}

/-- The entry of a schedule in the table has another identifier. -/
theorem id_ne (h : s.Deleted sid) {other : Sid} {r : Ref} (hr : s.schedules.get? other = some r) :
    (s.entries r).id ≠ sid := by
  intro heq
  have hname := (h.named other r hr).1
  have hgone := h.gone
  rw [← heq, hname, hr] at hgone
  cases hgone

theorem id_ne_of_present (h : s.Deleted sid) {r : Ref} (hr : s.present r = true) :
    (s.entries r).id ≠ sid := by
  obtain ⟨r', hr'⟩ := Dict.contains_eq_true.mp hr
  rintro heq
  rw [heq, h.gone] at hr'
  cases hr'

/-- Only the row matters in a step that keeps the frame. -/
theorem of_frame (h : s.Deleted sid) (hf : s.Frame s') (hrow : s'.rows.get? sid = none) :
    s'.Deleted sid :=
  ⟨hf.named h.named, by rw [hf.schedules, h.gone], hrow⟩

/-- A change of other attributes. -/
theorem of_eq (h : s.Deleted sid) (hschedules : s'.schedules = s.schedules)
    (hnext : s'.nextRef = s.nextRef) (hentries : s'.entries = s.entries)
    (hrows : s'.rows = s.rows) : s'.Deleted sid := by
  refine ⟨?_, hschedules ▸ h.gone, hrows ▸ h.row⟩
  intro other r hr
  rw [hentries, hnext]
  exact h.named other r (hschedules ▸ hr)

/-! ### Writing entries -/

theorem row_writeEntry (h : s.Deleted sid) (r : Ref) {e : ScheduleEntry} (hid : e.id ≠ sid) :
    (s.writeEntry r e).rows.get? sid = none := by
  rw [writeEntry_rows, Dict.get?_insert, if_neg (Ne.symm hid)]
  exact h.row

theorem enqueue (h : s.Deleted sid) (now : Time) (other : Sid) :
    (s.enqueue now other).Deleted sid := by
  refine h.of_frame (s.enqueue_kept now other).toFrame ?_
  unfold SchedulerEngine.enqueue
  split
  · exact h.row
  · next r hr =>
    split
    · exact h.row
    · exact h.row_writeEntry r (h.id_ne hr)

theorem enqueueDue (h : s.Deleted sid) (now : Time) : (s.enqueueDue now).Deleted sid := by
  unfold SchedulerEngine.enqueueDue
  generalize s.schedules.items = l
  induction l generalizing s with
  | nil => exact h
  | cons p rest ih =>
    rw [List.foldl_cons]
    apply ih
    dsimp only
    split
    · exact h
    · exact h.enqueue now p.1

/-- Marking the entries behind a list of references, none of which is the deleted one. -/
theorem mark (h : s.Deleted sid) (now : Time) (reason : String) {l : List Ref}
    (hl : ∀ r ∈ l, (s.entries r).id ≠ sid) :
    (l.foldl
      (fun s r =>
        let e := s.entries r
        if e.lastStatus = .running ∨ e.lastStatus = .queued then
          s.writeEntry r { e with
            lastStatus := .cancelled, lastError := reason, nextRun := now + e.intervalSec }
        else s) s).Deleted sid := by
  induction l generalizing s with
  | nil => exact h
  | cons r rest ih =>
    rw [List.foldl_cons]
    dsimp only
    split
    · have hframe := s.writeEntry_frame r (e := { s.entries r with
        lastStatus := .cancelled, lastError := reason,
        nextRun := now + (s.entries r).intervalSec }) rfl rfl
      apply ih (h.of_frame hframe (h.row_writeEntry r (hl r List.mem_cons_self)))
      intro r' hr'
      rw [hframe.entryId]
      exact hl r' (List.mem_cons_of_mem r hr')
    · exact ih h (fun r' hr' => hl r' (List.mem_cons_of_mem r hr'))

theorem markCancelled (h : s.Deleted sid) (now : Time) (reason : String) :
    (s.markCancelled now reason).Deleted sid := by
  refine h.mark now reason (fun r hr => ?_)
  obtain ⟨p, hp, rfl⟩ := List.mem_map.mp hr
  exact h.id_ne (Dict.get?_eq_some_iff (k := p.1).mpr hp)

theorem row_launch (h : s.Deleted sid) (now : Time) (other : Sid) {r : Ref} (triggered : Bool)
    (hid : (s.entries r).id ≠ sid) : (s.launch now other r triggered).rows.get? sid = none :=
  h.row_writeEntry r hid

/-! ### Launches and drains -/

theorem row_launchChecks (h : s.Deleted sid) {now : Time} {me : TaskId} {other : Sid} {r : Ref}
    {taskDef : TaskDef}
    (hid : (s.launchChecks now me other r taskDef).2 = .launched → (s.entries r).id ≠ sid) :
    (s.launchChecks now me other r taskDef).1.rows.get? sid = none := by
  have hspec := s.launchChecks_spec now me other r taskDef
  generalize s.launchChecks now me other r taskDef = d at hspec hid
  cases hspec with
  | blocked => exact h.row
  | suspended => exact h.row
  | launched => exact h.row_writeEntry r (hid rfl)

theorem drainAfter_rows (other : Sid) (rest : List Sid) (d : SchedulerEngine × LaunchResult) :
    (drainAfter other rest d).1.rows = d.1.rows := by
  obtain ⟨s, result⟩ := d
  cases result <;> rfl

theorem leaveWaiters (h : s.Deleted sid) (i : TaskId) : (s.leaveWaiters i).Deleted sid :=
  h.of_eq rfl rfl rfl rfl

theorem row_drainStep (h : s.Deleted sid) {s' : SchedulerEngine} {now : Time} {i : TaskId}
    {p : DrainPc} {inp : Input} {q : Option DrainPc} (hq : s.drainStep now i p inp = some (s', q))
    (hheld : ∀ l r, p.launch? = some l → s.launchPersists now i l inp = some r →
      (s.entries r).id ≠ sid) : s'.rows.get? sid = none := by
  cases drain_move hq with
  | decided known unregistered lock decision =>
    subst decision
    rw [drainAfter_rows]
    exact h.row_launchChecks (fun _ => h.id_ne known)
  | woken lock decision =>
    subst decision
    rw [drainAfter_rows]
    refine (h.leaveWaiters i).row_launchChecks (fun hlaunched => hheld _ _ rfl ?_)
    rw [launchPersists, if_pos ⟨rfl, hlaunched⟩]
  | @online other r taskDef key rest => exact h.row_launch now other false (hheld _ r rfl rfl)
  | _ => exact h.row

/-! ### The other coroutines -/

theorem row_runStep (h : s.Deleted sid) {s' : SchedulerEngine} {now : Time} {other : Sid}
    {key : TaskType} {triggered : Bool} {pc : RunPc} {inp : Input} {c' : Code}
    (hq : s.runStep now other key triggered pc inp = some (s', c'))
    (hheld : ∀ r started, pc = .executing r started → (s.entries r).id ≠ sid) :
    s'.rows.get? sid = none := by
  cases run_turn hq with
  | gone unknown => exact h.row
  | began known => exact h.row
  | @ended r started outcome =>
    have hid : ((s.entries r).record now outcome).id ≠ sid := by
      have hsame : ((s.entries r).record now outcome).id = (s.entries r).id := by
        cases outcome <;> rfl
      rw [hsame]
      exact hheld r started rfl
    exact h.row_writeEntry r hid

theorem row_afterGate (h : s.Deleted sid) (now : Time) :
    (s.afterGate now).1.rows.get? sid = none := by
  unfold afterGate
  split
  · exact h.row
  · exact (h.enqueueDue now).row

theorem row_loopStep (h : s.Deleted sid) {s' : SchedulerEngine} {now : Time} {pc : LoopPc}
    {inp : Input} {c' : Code} (hq : s.loopStep now pc inp = some (s', c')) :
    s'.rows.get? sid = none := by
  have hup : s.gateUp.Deleted sid := h.of_eq rfl rfl rfl rfl
  have hdown : s.gateDown.Deleted sid := h.of_eq rfl rfl rfl rfl
  cases loop_turn hq with
  | skipped => exact h.row_afterGate now
  | asked => exact h.row
  | same known => exact h.row_afterGate now
  | up known => exact hup.row_afterGate now
  | down known => exact hdown.row_afterGate now
  | cancelled known => exact h.row
  | @gathered running =>
    have hrest : ({ s with runningTasks := s.runningTasks.eraseAll (running.map Prod.fst) } :
        SchedulerEngine).Deleted sid := h.of_eq rfl rfl rfl rfl
    exact hrest.row_afterGate now

theorem row_triggerNowLaunch (h : s.Deleted sid) (now : Time) (other : Sid) {r : Ref}
    (hid : s.runningTasks.contains (s.entries r).taskType = false → (s.entries r).id ≠ sid) :
    (s.triggerNowLaunch now other r).1.rows.get? sid = none := by
  unfold triggerNowLaunch
  split
  · exact h.row
  · next hfree => exact h.row_launch now other true (hid (Bool.eq_false_iff.mpr hfree))

theorem row_triggerNowClaim (h : s.Deleted sid) (now : Time) (me : TaskId) (other : Sid) {r : Ref}
    {taskDef : TaskDef}
    (hid : (s.checkBusyFlag taskDef).isSome = true → s.conflicts taskDef = false →
      s.lockOpen = true → s.runningTasks.contains (s.entries r).taskType = false →
        (s.entries r).id ≠ sid) :
    (s.triggerNowClaim now me other r taskDef).1.rows.get? sid = none := by
  unfold triggerNowClaim
  cases hbusy : s.checkBusyFlag taskDef with
  | none => exact (h.enqueue now other).row
  | some s₁ =>
    obtain ⟨hs, hhost, rfl⟩ := checkBusyFlag_kept hbusy
    have h₂ : (({ s with state := hs } : SchedulerEngine).dequeue other).Deleted sid :=
      h.of_eq rfl rfl rfl rfl
    dsimp only
    split
    · exact (h₂.enqueue now other).row
    · next hclear =>
      split
      · next hopen =>
        exact h₂.row_triggerNowLaunch now other
          (fun hfree => hid (hbusy ▸ rfl) (Bool.eq_false_iff.mpr hclear) hopen hfree)
      · exact h.row

theorem row_cancelAllFinish (h : s.Deleted sid) (now : Time) (reason : String)
    (running : List (TaskType × TaskId)) :
    (s.cancelAllFinish now reason running).1.rows.get? sid = none := by
  have h₁ : ({ s with runningTasks := .empty } : SchedulerEngine).Deleted sid :=
    h.of_eq rfl rfl rfl rfl
  exact (h₁.markCancelled now reason).row

theorem row_cancelAllStep (h : s.Deleted sid) {now : Time} {reason : String} {pc : CancelAllPc}
    {q : SchedulerEngine × Code} (hq : s.cancelAllStep now reason pc = some q) :
    q.1.rows.get? sid = none := by
  cases pc with
  | start =>
    simp only [cancelAllStep] at hq
    have h₁ : (({ s with queue := .empty } : SchedulerEngine).cancelTasks
        (s.runningTasks.items.map Prod.snd)).Deleted sid := h.of_eq rfl rfl rfl rfl
    split at hq <;> cases hq
    · exact h₁.row_cancelAllFinish now reason []
    · exact h.row
  | gather running =>
    simp only [cancelAllStep, Option.ite_none_right_eq_some, Option.some.injEq] at hq
    obtain ⟨-, rfl⟩ := hq
    exact h.row_cancelAllFinish now reason running

theorem row_stopStep (h : s.Deleted sid) {pc : StopPc} {q : SchedulerEngine × Code}
    (hq : s.stopStep pc = some q) : q.1.rows.get? sid = none := by
  cases pc with
  | start =>
    simp only [stopStep] at hq
    split at hq <;> cases hq <;> exact h.row
  | awaitLoop l =>
    simp only [stopStep] at hq
    split at hq <;> cases hq
    exact h.row
  | gather running =>
    simp only [stopStep] at hq
    split at hq <;> cases hq
    exact h.row

theorem row_codeStep (h : s.Deleted sid) {s' : SchedulerEngine} {now : Time} {i : TaskId}
    {inp : Input} {c' : Code} (hfree : ((s.tasks i).cancelRequested &&
      (s.code i).interruptible) = false) (hq : s.codeStep now i (s.code i) inp = some (s', c'))
    (htracked : s.tracked (now, .resume i inp) = true) : s'.rows.get? sid = none := by
  -- a tracked step persists entries of schedules that are in the table, so not this one
  have hheld : ∀ r, s.persists now i inp = some r → (s.entries r).id ≠ sid := by
    intro r hr
    apply h.id_ne_of_present
    rw [tracked, hr] at htracked
    exact htracked
  simp only [persists, hfree, Bool.false_eq_true, if_false] at hheld
  unfold codeStep at hq
  split at hq
  · next p hp =>
    simp only [Option.map_eq_some_iff] at hq
    obtain ⟨⟨s₁, q⟩, hd, heq⟩ := hq
    cases heq
    refine h.row_drainStep hd (fun l r hl hr => hheld r ?_)
    have hlaunch : (s.code i).launch? = some l := by rw [Code.launch?, hp, Option.bind_some, hl]
    cases hc : s.code i with
    | run other key triggered pc =>
      rw [hc] at hlaunch hp
      cases pc with
      | draining p => simp only [hlaunch, Option.bind_some, hr]
      | unstarted => cases hp
      | executing r started => cases hp
    | triggerNow other pc =>
      rw [hc] at hp
      cases hp
    | _ =>
      rw [hc] at hlaunch
      simp only [hlaunch, Option.bind_some, hr]
  · next hp =>
    split at hq
    · next other key triggered pc hc =>
      refine h.row_runStep hq ?_
      rintro r started rfl
      cases run_turn hq
      exact hheld r (by rw [hc])
    · exact h.row_loopStep hq
    · simp only [Option.ite_none_right_eq_some, Option.some.injEq] at hq
      obtain ⟨-, hq⟩ := hq
      unfold triggerStep at hq
      split at hq <;> cases hq
      · exact h.row
      · exact (h.enqueue now _).row
    · next other pc hc =>
      cases trigger_turn hq with
      | claimed known unregistered internet claim =>
        subst claim
        exact h.row_triggerNowClaim now i other (fun _ _ _ _ => h.id_ne known)
      | @online r taskDef d claim =>
        subst claim
        refine h.row_triggerNowClaim now i other (fun hbusy hclear hopen hunreg => hheld r ?_)
        rw [hc]
        exact if_pos ⟨hbusy, hclear, hopen, hunreg⟩
      | @locked r taskDef taken d lock launch =>
        subst launch
        refine (h.leaveWaiters i).row_triggerNowLaunch now other (fun hunreg => hheld r ?_)
        rw [hc]
        exact if_neg (Bool.eq_false_iff.mp hunreg)
      | _ => exact h.row
    · simp only [Option.ite_none_right_eq_some] at hq
      exact h.row_cancelAllStep hq.2
    · simp only [Option.ite_none_right_eq_some] at hq
      exact h.row_stopStep hq.2
    · cases hq

/-- A tracked turn writes no row of the deleted schedule. -/
theorem turn (h : s.Deleted sid) {now : Time} {i : TaskId} {inp : Input} {c' : Code}
    (hturn : s.turn now i inp = some (s', c'))
    (htracked : s.tracked (now, .resume i inp) = true) : (s'.setCode i c').Deleted sid := by
  have h' : s'.Deleted sid := by
    refine h.of_frame (turn_effect hturn).frame ?_
    unfold SchedulerEngine.turn at hturn
    dsimp only at hturn
    split at hturn
    · simp only [Option.ite_none_right_eq_some] at hturn
      obtain ⟨lock, waiters, rfl, -⟩ := cancelStep_eq hturn.2
      exact h.row
    · next hfree => exact h.row_codeStep (Bool.eq_false_iff.mpr hfree) hturn htracked
  exact h'.of_eq rfl rfl rfl rfl

/-- The table and the row after a step of the API that is not an addition of the schedule. -/
theorem api (h : s.Deleted sid) {now : Time} {a : Action} (ha : ∀ i inp, a ≠ .resume i inp)
    (hadd : a.adds ≠ some sid) (hs : s.step (now, a) = some s') :
    s'.schedules.get? sid = none ∧ s'.rows.get? sid = none := by
  cases a with
  | resume i inp => exact absurd rfl (ha i inp)
  | startLoop =>
    cases hs
    unfold startLoop
    split
    · split <;> exact ⟨h.gone, h.row⟩
    · exact ⟨h.gone, h.row⟩
  | stop => cases hs; exact ⟨h.gone, h.row⟩
  | trigger other => cases hs; exact ⟨h.gone, h.row⟩
  | triggerNow other => cases hs; exact ⟨h.gone, h.row⟩
  | cancelAll reason => cases hs; exact ⟨h.gone, h.row⟩
  | cancelRunning other =>
    cases hs
    unfold cancelRunning
    split
    · exact ⟨h.gone, h.row⟩
    · next r hr =>
      dsimp only
      split
      · have hdequeued : (s.dequeue other).Deleted sid := h.of_eq rfl rfl rfl rfl
        exact ⟨h.gone, hdequeued.row_writeEntry r (h.id_ne hr)⟩
      · split
        · exact ⟨h.gone, h.row⟩
        · split <;> exact ⟨h.gone, h.row⟩
  | addSchedule other name taskType interval config enabled =>
    cases hs
    have hne : other ≠ sid := by
      rintro rfl
      exact hadd rfl
    unfold addSchedule
    split
    · exact ⟨h.gone, h.row⟩
    · refine ⟨?_, h.row_writeEntry s.nextRef hne⟩
      simp only [Dict.get?_insert, if_neg (Ne.symm hne)]
      exact h.gone
  | updateSchedule other f =>
    cases hs
    unfold updateSchedule
    split
    · exact ⟨h.gone, h.row⟩
    · next r hr =>
      have hid : ((s.entries r).update now f).id ≠ sid := by
        rw [update_id]
        exact h.id_ne hr
      dsimp only
      split
      · have hdequeued : (s.dequeue ((s.entries r).update now f).id).Deleted sid :=
          h.of_eq rfl rfl rfl rfl
        exact ⟨h.gone, hdequeued.row_writeEntry r hid⟩
      · exact ⟨h.gone, h.row_writeEntry r hid⟩
  | deleteSchedule other =>
    cases hs
    unfold deleteSchedule
    split
    · constructor
      · simp only [Dict.get?_erase]
        split
        · rfl
        · exact h.gone
      · simp only [Dict.get?_erase]
        split
        · rfl
        · exact h.row
    · exact ⟨h.gone, h.row⟩
  | toggleSchedule other =>
    cases hs
    unfold toggleSchedule
    split
    · exact ⟨h.gone, h.row⟩
    · next r hr =>
      have hid : ((s.entries r).toggle now).id ≠ sid := h.id_ne hr
      dsimp only
      split
      · exact ⟨h.gone, h.row_writeEntry r hid⟩
      · have hdequeued : (s.dequeue ((s.entries r).toggle now).id).Deleted sid :=
          h.of_eq rfl rfl rfl rfl
        exact ⟨h.gone, hdequeued.row_writeEntry r hid⟩
  | pauseAll => cases hs; exact ⟨h.gone, h.row⟩
  | resumeAll => cases hs; exact ⟨h.gone, h.row⟩
  | host hs' => cases hs; exact ⟨h.gone, h.row⟩

/-- **Step lemma**: a tracked step that does not add the schedule leaves it deleted. -/
theorem step (h : s.Deleted sid) {a : Time × Action} (hs : s.step a = some s')
    (hguard : Tracked sid s a s') : s'.Deleted sid := by
  obtain ⟨now, a⟩ := a
  obtain ⟨htracked, hadd⟩ := hguard
  rcases step_effect hs with ⟨i, inp, s₁, c', rfl, hturn, rfl⟩ | ⟨hne, -⟩
  · exact h.turn hturn htracked
  · obtain ⟨hgone, hrow⟩ := h.api hne hadd hs
    exact ⟨h.named.step hs, hgone, hrow⟩

end Deleted

/-- What `delete_schedule` leaves behind when it returns `True`. -/
theorem deleteSchedule_deleted {s s' : SchedulerEngine} {sid : Sid} (hn : s.Named)
    (h : s.deleteSchedule sid = (s', true)) : s'.Deleted sid := by
  have hnamed := hn.delete sid
  rw [h] at hnamed
  unfold deleteSchedule at h
  split at h
  · cases h
    exact ⟨hnamed, by simp, by simp⟩
  · cases h

/-- A key without a row is not loaded. -/
theorem loadSchedules_of_row {rows : Dict Sid ScheduleEntry} {sid : Sid}
    (h : rows.get? sid = none) : (loadSchedules rows).get? sid = none := by
  have hkeys : ∀ p ∈ rows.items, p.1 ≠ sid := by
    rintro p hp rfl
    rw [Dict.get?_eq_some_iff.mpr hp] at h
    cases h
  unfold loadSchedules
  have hempty : (Dict.empty : Dict Sid ScheduleEntry).get? sid = none := Dict.get?_empty sid
  generalize (Dict.empty : Dict Sid ScheduleEntry) = d at hempty
  generalize rows.items = l at hkeys
  induction l generalizing d with
  | nil => exact hempty
  | cons p rest ih =>
    apply ih
    · rw [Dict.get?_insert, if_neg (hkeys p List.mem_cons_self).symm]
      exact hempty
    · exact fun q hq => hkeys q (List.mem_cons_of_mem p hq)

theorem Initial.named_run {s s' : SchedulerEngine} (h₀ : s.Initial)
    (h : machine.Reaches Machine.anyStep s s') : s'.Named :=
  h.invariant h₀.named (fun _ _ _ hi hs _ => hi.step hs)

/-- **A deleted schedule stays deleted**: after `delete_schedule` has returned `True` in a
reachable state, in every run of tracked steps without `add_schedule` the database has no
row of the schedule, and a restart does not bring it back. -/
theorem deleted_stays_deleted {s s₁ s₂ s' : SchedulerEngine} {sid : Sid} (h₀ : s.Initial)
    (h₁ : machine.Reaches Machine.anyStep s s₁) (hdel : s₁.deleteSchedule sid = (s₂, true))
    (h₂ : machine.Reaches (Tracked sid) s₂ s') :
    s'.rows.get? sid = none ∧ (loadSchedules s'.rows).get? sid = none := by
  have hdeleted : s'.Deleted sid :=
    h₂.invariant (I := fun s => s.Deleted sid)
      (deleteSchedule_deleted (h₀.named_run h₁) hdel)
      (fun _ _ _ hi hs hguard => hi.step hs hguard)
  exact ⟨hdeleted.row, loadSchedules_of_row hdeleted.row⟩

/-- A run that has ended leaves its drain after its schedule has been deleted, and the
schedule is triggered in vain. -/
theorem deleted_stays_deleted_maintenance :
    ∃ s₁ s₂ s' : SchedulerEngine,
      machine.Reaches Machine.anyStep (prepared [maintenanceSchedule]) s₁ ∧
      s₁.deleteSchedule "db_maintenance" = (s₂, true) ∧
      machine.Reaches (Tracked "db_maintenance") s₂ s' ∧ s'.code 2 = .done (.verdict false) ∧ s'.rows.get? "db_maintenance" = none ∧
      (loadSchedules s'.rows).get? "db_maintenance" = none := by
  have hrun : ∃ s₁, machine.Reaches Machine.anyStep (prepared [maintenanceSchedule]) s₁ ∧
      decide ((s₁.deleteSchedule "db_maintenance").2 = true ∧
        ((machine.exec (fun s a _ => s.tracked a && decide (a.2.adds ≠ some "db_maintenance"))
          (s₁.deleteSchedule "db_maintenance").1
          [(30, .resume 1 .wake), (40, .triggerNow "db_maintenance"), (40, .resume 2 .wake)]).any
            (fun s' => decide (s'.code 2 = .done (.verdict false)))) = true) = true :=
    Machine.exists_reaches_of_exec (g := fun _ _ _ => true)
      (l := maintenanceRun ++ [(30, .resume 1 (.ended .ok))])
      (fun _ _ _ _ => trivial) (by decide +kernel)
  obtain ⟨s₁, hs₁, hend⟩ := hrun
  obtain ⟨htrue, hexec⟩ := of_decide_eq_true hend
  have hdel : s₁.deleteSchedule "db_maintenance" = ((s₁.deleteSchedule "db_maintenance").1, true) :=
    Prod.ext rfl htrue
  obtain ⟨s', hs', hcode⟩ := Machine.exists_reaches_of_exec (G := Tracked "db_maintenance")
    (fun s a _ hg => (by
      rw [Bool.and_eq_true] at hg
      exact ⟨hg.1, of_decide_eq_true hg.2⟩)) hexec
  exact ⟨s₁, _, s', hs₁, hdel, hs', of_decide_eq_true hcode,
    deleted_stays_deleted (prepared_initial _) hs₁ hdel hs'⟩

/-- The schedule is deleted while its run is in the executor: the end of the run writes the
row again. -/
theorem resurrected :
    ¬ ∀ (s s₁ s₂ s' : SchedulerEngine) (sid : Sid), s.Initial →
      machine.Reaches Machine.anyStep s s₁ → s₁.deleteSchedule sid = (s₂, true) →
        machine.Reaches (fun _ a _ => a.2.adds ≠ some sid) s₂ s' → s'.rows.get? sid = none := by
  intro hall
  have hrun : ∃ s₁, machine.Reaches Machine.anyStep (prepared [maintenanceSchedule]) s₁ ∧
      decide ((s₁.deleteSchedule "db_maintenance").2 = true ∧
        ((machine.exec (fun _ a _ => decide (a.2.adds ≠ some "db_maintenance"))
          (s₁.deleteSchedule "db_maintenance").1 [(30, .resume 1 (.ended .ok))]).any
            (fun s' => s'.rows.contains "db_maintenance")) = true) = true :=
    Machine.exists_reaches_of_exec (g := fun _ _ _ => true) (l := maintenanceRun)
      (fun _ _ _ _ => trivial) (by decide +kernel)
  obtain ⟨s₁, hs₁, hend⟩ := hrun
  obtain ⟨htrue, hexec⟩ := of_decide_eq_true hend
  obtain ⟨s', hs', hrow⟩ := Machine.exists_reaches_of_exec
    (G := fun _ (a : Time × Action) _ => a.2.adds ≠ some "db_maintenance")
    (fun _ _ _ hg => of_decide_eq_true hg) hexec
  have hnone := hall _ s₁ _ s' "db_maintenance" (prepared_initial _) hs₁ (Prod.ext rfl htrue) hs'
  obtain ⟨e, he⟩ := Dict.contains_eq_true.mp hrow
  rw [hnone] at he
  cases he

end SchedulerEngine

end HuntProxy
