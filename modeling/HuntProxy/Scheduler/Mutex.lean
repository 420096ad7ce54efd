import HuntProxy.Scheduler.Cover

/-!
# Mutual exclusion of task types

A type excludes the types that its row lists in `mutex_with`. The launch paths test the
list of the type they launch, and only that one, and `trigger_now` tests it before it
waits for the launch lock. So two types that exclude each other can run together when
only the running one lists the other, or when a run was launched while `trigger_now`
waited.

In the runs whose steps are all `heedful` this does not happen: no type is launched over
a registered one that lists it one-sidedly, a waiting `trigger_now` gets the lock with
its list still clear, and no task type is edited between the test and the launch.

## Main results

- `MutexInv.step` — heedful steps keep running types compatible
- `mutual_exclusion` — no two running types exclude each other
- `exclusion_broken` — a scheduled health check starts during a triggered proxy check
-/

namespace HuntProxy.SchedulerEngine

/-- `a` lists `b` in `mutex_with`. -/
def Excludes (a b : TaskType) : Prop := b ∈ (taskTypes a).mutexWith

instance (a b : TaskType) : Decidable (Excludes a b) :=
  inferInstanceAs (Decidable (b ∈ (taskTypes a).mutexWith))

theorem not_excludes_self (a : TaskType) : ¬ Excludes a a := by
  cases a <;> decide

/-- A registered type lists `b` but is not listed by `b`. -/
def oneSided (s : SchedulerEngine) (b : TaskType) : Bool :=
  s.runningTasks.keys.any
    (fun c => decide (b ∈ (taskTypes c).mutexWith) && decide (c ∉ (taskTypes b).mutexWith))

/-- The row that a coroutine has read is still the row of its entry. -/
def rowFresh (s : SchedulerEngine) (c : Code) : Bool :=
  match c.row with
  | none => true
  | some (r, taskDef) => taskDef == taskTypes (s.entries r).taskType

/-- A type is launched only over registered types that do not list it one-sidedly, and
after a wait for the lock only over types that it does not list itself. -/
def launchClear (s : SchedulerEngine) (inp : Input) (c : Code) : Bool :=
  match s.candidate inp c with
  | none => true
  | some r =>
    let b := (s.entries r).taskType
    s.runningTasks.contains b ||
      !s.oneSided b &&
        match c with
        | .triggerNow _ (.lock _ _ _) => !s.conflicts (taskTypes b)
        | _ => true

/-- The steps that keep running types compatible. -/
def heedful (s : SchedulerEngine) : Time × Action → Bool
  | (now, .resume i inp) =>
    s.covering everyRun (now, .resume i inp) && s.rowFresh (s.code i) && s.launchClear inp (s.code i)
  | _ => true

/-- The invariant: the registry covers the unfinished runs, these are compatible, and a
launch in its internet check has read the row of the key it tested, none of whose
conflicts is registered. -/
structure MutexInv (s : SchedulerEngine) : Prop extends s.CoverInv everyRun where
  compatible : Slots.Compatible Excludes s.live
  clear : ∀ i r taskDef key, (s.code i).tested = some (r, taskDef, key) →
    taskDef = taskTypes key ∧ ∀ k, Excludes key k → s.runningTasks.get? k = none

theorem Initial.mutexInv {s : SchedulerEngine} (h : s.Initial) : s.MutexInv := by
  refine ⟨h.coverInv everyRun, ?_, ?_⟩
  · intro o o' k k' ho
    rw [h.live] at ho
    cases ho
  · intro i r taskDef key hi
    rw [h.code] at hi
    cases hi

theorem conflicts_false {s : SchedulerEngine} {taskDef : TaskDef}
    (h : s.conflicts taskDef = false) {k : TaskType} (hk : k ∈ taskDef.mutexWith) :
    s.runningTasks.get? k = none := by
  simp only [conflicts, List.any_eq_false] at h
  exact Dict.contains_eq_false.mp (Bool.eq_false_iff.mpr (h k hk))

theorem oneSided_false {s : SchedulerEngine} {b c : TaskType} (h : s.oneSided b = false)
    (hcb : Excludes c b) (hbc : ¬ Excludes b c) : s.runningTasks.get? c = none := by
  simp only [oneSided, List.any_eq_false, Bool.and_eq_true, decide_eq_true_eq, not_and] at h
  refine Dict.get?_of_notMem_keys (fun hmem => ?_)
  exact h c hmem hcb hbc

namespace MutexInv

variable {s s₁ : SchedulerEngine} {i : TaskId} {c' : Code}

/-- A turn that launches nothing and does not begin an internet check. -/
theorem shrink (h : s.MutexInv) (hinv : (s₁.setCode i c').CoverInv everyRun)
    (hcode : ∀ j, s₁.code j = s.code j) (hlive : ∀ k, c'.liveKey = some k → s.live i = some k)
    (hafter : c'.tested = none)
    (hheld : ∀ k, s.runningTasks.get? k = none → s₁.runningTasks.get? k = none) :
    (s₁.setCode i c').MutexInv := by
  refine ⟨hinv, h.compatible.mono (fun o k ho => ?_), fun j r taskDef key hj => ?_⟩
  · rw [live_eq, code_setCode] at ho
    by_cases hoi : o = i
    · rw [if_pos hoi] at ho
      rw [hoi]
      exact hlive k ho
    · rw [if_neg hoi, hcode] at ho
      exact ho
  · obtain ⟨-, hj⟩ := tested_setCode hafter hj
    rw [hcode] at hj
    obtain ⟨hrow, hclear⟩ := h.clear j r taskDef key hj
    exact ⟨hrow, fun k hk => hheld k (hclear k hk)⟩

/-- A launch of a type none of whose conflicts, in either direction, is registered. -/
theorem launched (h : s.MutexInv) (hinv : (s₁.setCode i c').CoverInv everyRun)
    (hi : (s.code i).isDone = false) {sid : Sid} {key : TaskType} {triggered : Bool}
    (hl : s.Launched s₁ sid key triggered) (hlive : (s.code i).liveKey = none)
    (hlive' : c'.liveKey = none) (hafter : c'.tested = none)
    (hnone : ∀ j, j ≠ i → (s.code j).tested = none)
    (hown : ∀ k, Excludes key k → s.runningTasks.get? k = none)
    (hone : s.oneSided key = false) : (s₁.setCode i c').MutexInv := by
  have hlv := live_launched (h.ne_nextTask hi) hl hlive hlive'
  refine ⟨hinv, h.compatible.acquire h.covers (not_excludes_self key) ?_ hlv, ?_⟩
  · rintro k (hk | hk)
    · exact hown k hk
    · by_cases hk' : Excludes key k
      · exact hown k hk'
      · exact oneSided_false hone hk hk'
  · intro j r taskDef k hj
    rw [tested_launched hl hafter hnone j] at hj
    cases hj

/-- The row that a turn goes by is the row of its entry's type. -/
theorem row_eq {r : Ref} {taskDef : TaskDef} {c : Code} (hfresh : s.rowFresh c = true)
    (hrow : s.RowRead c r taskDef) : taskDef = taskTypes (s.entries r).taskType := by
  rcases hrow with hrow | hrow
  · rw [rowFresh, hrow] at hfresh
    exact beq_iff_eq.mp hfresh
  · exact hrow

/-- A launch in its internet check has read a row, and a positive verdict launches it. -/
theorem tested_row {c : Code} {r : Ref} {taskDef : TaskDef} {key : TaskType}
    (h : c.tested = some (r, taskDef, key)) :
    c.row = some (r, taskDef) ∧ s.candidate (.alive true) c = some r := by
  simp only [Code.tested, Code.launch?, Option.bind_eq_some_iff] at h
  obtain ⟨l, ⟨p, hp, hl⟩, ht⟩ := h
  cases p with
  | launching l' rest =>
    cases hl
    obtain ⟨sid, r', taskDef', a⟩ := l
    cases a with
    | lock => cases ht
    | internet key' =>
      cases ht
      exact ⟨row_of_launching hp, candidate_of_drain hp⟩
  | _ => cases hl

/-- What a heedful launch finds in the registry. -/
theorem launch_clear {inp : Input} {c : Code} {r : Ref} (hcand : s.candidate inp c = some r)
    (hunreg : s.runningTasks.contains (s.entries r).taskType = false)
    (hclear : s.launchClear inp c = true) :
    s.oneSided (s.entries r).taskType = false ∧
      ∀ sid r' taskDef taken, c = .triggerNow sid (.lock r' taskDef taken) →
        s.conflicts (taskTypes (s.entries r).taskType) = false := by
  simp only [launchClear, hcand, hunreg, Bool.false_or, Bool.and_eq_true,
    Bool.not_eq_true'] at hclear
  refine ⟨hclear.1, ?_⟩
  rintro sid r' taskDef taken rfl
  simpa using hclear.2

/-- **Step lemma for turns**: a heedful turn keeps the invariant. -/
theorem turn (h : s.MutexInv) {now : Time} {inp : Input}
    (hheed : s.heedful (now, .resume i inp) = true) (hturn : s.turn now i inp = some (s₁, c')) :
    (s₁.setCode i c').MutexInv := by
  simp only [heedful, Bool.and_eq_true] at hheed
  obtain ⟨⟨hcov, hfresh⟩, hclearly⟩ := hheed
  have hinv := h.toCoverInv.turn hcov hturn
  have hi := turn_not_done hturn
  have he := turn_effect hturn
  cases he with
  | quiet hstill hlock hlive hbefore hafter =>
    refine h.shrink hinv hstill.code (fun k hk => ?_) hafter (fun k hk => (hstill.held k).trans hk)
    rw [live_eq, Code.liveKey_eq, ← hlive, ← Code.liveKey_eq]
    exact hk
  | @hold _ _ r taskDef hstill hfree hlock hlive hlive' hbefore hafter hunreg hclear hrow =>
    -- the task that now holds the lock has just found no conflict
    have hlv := live_still hstill.code (unfinished_none hlive' hlive)
    refine ⟨hinv, h.compatible.mono (fun o k ho => hlv o ▸ ho), fun j r' taskDef' key hj => ?_⟩
    rw [code_setCode] at hj
    by_cases hij : j = i
    · rw [if_pos hij, hafter, Option.some.injEq, Prod.mk.injEq, Prod.mk.injEq] at hj
      obtain ⟨rfl, rfl, rfl⟩ := hj
      have htd := row_eq hfresh hrow
      refine ⟨htd, fun k hk => (hstill.held k).trans (conflicts_false hclear ?_)⟩
      rw [htd]
      exact hk
    · rw [if_neg hij, hstill.code, h.tested_none hfree] at hj
      cases hj
  | drop hstill hlock hlive hlive' hbefore hafter =>
    refine h.shrink hinv hstill.code (fun k hk => ?_) hafter (fun k hk => (hstill.held k).trans hk)
    rw [hlive'] at hk
    cases hk
  | @launchFree _ _ sid r taskDef _ hl hfree hlock hlive hlive' hbefore hafter hunreg hclear hrow
      habout horigin =>
    obtain ⟨hone, -⟩ := launch_clear habout hunreg hclearly
    refine h.launched hinv hi hl hlive hlive' hafter (fun j _ => h.tested_none hfree j) ?_ hone
    intro k hk
    refine conflicts_false hclear ?_
    rw [row_eq hfresh hrow]
    exact hk
  | @launchWaited _ _ sid r taskDef taken at_ hwake hl hfree hlock hlive' hafter hunreg =>
    have hlive : (s.code i).liveKey = none := by rw [at_]; rfl
    have hcand : s.candidate inp (s.code i) = some r := by rw [at_, hwake]; rfl
    obtain ⟨hone, hown⟩ := launch_clear hcand hunreg hclearly
    refine h.launched hinv hi hl hlive hlive' hafter (fun j _ => h.tested_none hfree j) ?_ hone
    exact fun k hk => conflicts_false (hown sid r taskDef taken at_) hk
  | @launchHeld _ _ sid r taskDef key hl hverdict hlock hlive hlive' hbefore hafter =>
    -- the conflicts were looked at before the internet check, under the lock
    have hunreg := Dict.contains_eq_false.mpr (h.free_of_verdict hlive hbefore hverdict hcov)
    obtain ⟨hrow, hcand⟩ := tested_row (s := s) hbefore
    rw [← hverdict] at hcand
    obtain ⟨hone, -⟩ := launch_clear hcand hunreg hclearly
    obtain ⟨htd, hclear⟩ := h.clear i r taskDef key hbefore
    have htd' := row_eq hfresh (.inl hrow)
    refine h.launched hinv hi hl hlive hlive' hafter
      (fun j hij => h.tested_unique (Option.isSome_of_eq_some hbefore) hij) (fun k hk => ?_) hone
    refine hclear k ?_
    rw [Excludes, ← htd, htd']
    exact hk
  | @finish _ sid key triggered r started at_ hheld hcode hnext hlock hframe =>
    refine h.shrink hinv hcode (fun k hk => by cases hk) rfl (fun k hk => ?_)
    rw [hheld, hk, ite_self]
  | vanish at_ why =>
    exact h.shrink hinv (fun _ => rfl) (fun k hk => by cases hk) rfl (fun k hk => hk)
  | clear hheld hcode hnext hlock hframe hlive hlive' hbefore hafter =>
    refine h.shrink hinv hcode (fun k hk => ?_) hafter (fun k hk => ?_)
    · rw [hlive'] at hk
      cases hk
    · rw [hheld, hk, ite_self]

/-- **Step lemma**: a heedful step keeps the invariant. -/
theorem step {s' : SchedulerEngine} {a : Time × Action} (h : s.MutexInv)
    (hs : s.step a = some s') (hheed : s.heedful a = true) : s'.MutexInv := by
  obtain ⟨now, a⟩ := a
  rcases step_effect hs with ⟨i, inp, s₁, c', rfl, hturn, rfl⟩ | ⟨-, ha⟩
  · exact h.turn hheed hturn
  · refine ⟨h.toCoverInv.api ha, h.compatible.mono (fun o k ho => live_api h.fresh ha o ▸ ho), ?_⟩
    intro j r taskDef key hj
    rcases ha.code j with hc | ⟨-, -, -, hdrain⟩
    · rw [hc] at hj
      obtain ⟨hrow, hclear⟩ := h.clear j r taskDef key hj
      exact ⟨hrow, fun k hk => (ha.held k).trans (hclear k hk)⟩
    · rw [Code.tested_of_no_drain hdrain] at hj
      cases hj

end MutexInv

/-- The condition of this module, as a guard on runs. -/
def Heedful : Machine.Guard SchedulerEngine (Time × Action) := fun s a _ => s.heedful a = true

/-- **Mutual exclusion**: in every run whose steps are all heedful, no type is running
that a running type excludes. -/
theorem mutual_exclusion {s s' : SchedulerEngine} (h₀ : s.Initial)
    (h : machine.Reaches Heedful s s') {o o' : TaskId} {a b : TaskType}
    (ha : s'.live o = some a) (hb : s'.live o' = some b) : ¬ Excludes a b ∧ ¬ Excludes b a := by
  have hinv : s'.MutexInv :=
    h.invariant h₀.mutexInv (fun _ _ _ hi hs hheed => hi.step hs hheed)
  exact ⟨hinv.compatible o o' a b ha hb, hinv.compatible o' o b a hb ha⟩

/-- A health check that is due at once, and a proxy check that only runs when triggered. -/
def checkSchedules : List ScheduleEntry :=
  [{ id := "health_check", name := "Health check", taskType := .healthCheck, intervalSec := 180 },
    { id := "proxy_check", name := "Proxy pool check", taskType := .proxyCheck,
      enabled := false, intervalSec := 1800 },
    { id := "history", name := "History recording", taskType := .history, enabled := false }]

theorem mutual_exclusion_checks :
    ∃ s', machine.Reaches Heedful (prepared checkSchedules) s' ∧
      ¬ Excludes .proxyCheck .history ∧ ¬ Excludes .history .proxyCheck := by
  have hrun : ∃ s', machine.Reaches Heedful (prepared checkSchedules) s' ∧
      decide (s'.live 1 = some .proxyCheck ∧ s'.live 3 = some .history) = true :=
    Machine.exists_reaches_of_exec (g := fun s a _ => s.heedful a)
      (l := [(10, .triggerNow "proxy_check"), (10, .resume 0 .wake), (11, .resume 0 (.alive true)),
        (12, .triggerNow "history"), (12, .resume 2 .wake)])
      (fun s a _ (h : s.heedful a = true) => h) (by decide +kernel)
  obtain ⟨s', hs', hend⟩ := hrun
  obtain ⟨hproxy, hhistory⟩ := of_decide_eq_true hend
  exact ⟨s', hs', mutual_exclusion (prepared_initial _) hs' hproxy hhistory⟩

/-- A tick takes the launch lock for the health check and awaits the internet check; a
triggered proxy check finds no conflict and waits for the lock; the tick launches the
health check, and the proxy check then looks at its own type only. -/
theorem exclusion_broken :
    ¬ ∀ (s s' : SchedulerEngine) (o o' : TaskId) (a b : TaskType), s.Initial →
      machine.Reaches Machine.anyStep s s' → s'.live o = some a → s'.live o' = some b →
      ¬ Excludes a b ∧ ¬ Excludes b a := by
  intro hall
  have hrun : ∃ s', machine.Reaches Machine.anyStep (prepared checkSchedules) s' ∧
      decide (s'.live 2 = some .healthCheck ∧ s'.live 3 = some .proxyCheck) = true :=
    Machine.exists_reaches_of_exec (g := fun _ _ _ => true)
      (l := [(10, .startLoop), (15, .resume 0 .wake), (15, .resume 0 (.alive true)),
        (15, .resume 0 .wake), (15, .resume 0 .wake),
        (16, .triggerNow "proxy_check"), (16, .resume 1 .wake), (16, .resume 1 (.alive true)),
        (17, .resume 0 (.alive true)), (17, .resume 1 .wake)])
      (fun _ _ _ _ => trivial) (by decide +kernel)
  obtain ⟨s', hs', hend⟩ := hrun
  obtain ⟨hhealth, hproxy⟩ := of_decide_eq_true hend
  have hnot := hall _ s' 2 3 .healthCheck .proxyCheck (prepared_initial _) hs' hhealth hproxy
  exact hnot.1 (by decide)

end HuntProxy.SchedulerEngine
