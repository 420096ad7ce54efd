import Mathlib.Data.List.Basic

/-!
# Nurseries: a task and the tasks it has created

A parent creates its children and suspends itself until one of several things happens: then
it goes on, gathers its children, cancels and gathers them, or cancels them and goes on. A
cancellation of a child is delivered at the child's next turn. A cancellation of the parent
is passed on to the children while it gathers them; at its first await it ends the parent
alone.

A nursery is *contained* when a parent that has finished leaves no child behind that still
has work to do. The children of a contained nursery whose parent has finished change nothing
any more.

## Main definitions

- `TaskBody` — what the children do at a turn and when they are cancelled
- `Nursery`, `Nursery.childTurn`, `Nursery.parentTurn`, `Nursery.cancel` — the operations
- `Nursery.Contained` — no child outlives its parent

## Main results

- `Nursery.Contained.childTurn`, `parentTurn`, `cancel` — when the operations keep it
- `Nursery.Contained.quiet` — a child of a finished parent changes nothing
-/

namespace HuntProxy

/-- What the tasks of a nursery do: a turn up to the next await, and the turn in which a
cancellation is delivered, which ends the task. -/
structure TaskBody (σ κ ι : Type*) where
  turn : σ → κ → ι → Option (σ × κ)
  unwind : σ → κ → σ × κ
  ended : κ → Bool
  unwind_ended : ∀ s k, ended (unwind s k).2 = true

/-- A task that was created by a parent. -/
structure Child (κ : Type*) where
  state : κ
  cancelRequested : Bool := false

/-- Where the parent is suspended: before it has decided what to do with its children, at
the await of all of them, or past both. -/
inductive ParentPc
  | waiting
  | gathering
  | finished
  deriving DecidableEq, Repr

/-- What the parent does after its first await: leave, when all children have ended; gather
the children; cancel and gather them; or cancel them and leave. -/
inductive Decision
  | leave
  | gather
  | cut
  | abandon
  deriving DecidableEq, Repr

/-- A parent, its children, and the state that the children share. -/
structure Nursery (σ κ : Type*) where
  shared : σ
  children : List (Child κ)
  parent : ParentPc := .waiting
  cancelRequested : Bool := false

namespace Nursery

variable {σ κ ι ο : Type*} (B : TaskBody σ κ ι)

/-- All children have ended. -/
def allEnded (n : Nursery σ κ) : Bool := n.children.all (fun c => B.ended c.state)

/-- Every child has ended or is to be cancelled. -/
def allStopping (n : Nursery σ κ) : Bool :=
  n.children.all (fun c => B.ended c.state || c.cancelRequested)

/-- Cancel all children. -/
def cancelChildren (n : Nursery σ κ) : Nursery σ κ :=
  { n with children := n.children.map (fun c => { c with cancelRequested := true }) }

/-- Cancel the parent: a parent that gathers its children cancels them as well. -/
def cancel (n : Nursery σ κ) : Nursery σ κ :=
  match n.parent with
  | .waiting => { n with cancelRequested := true }
  | .gathering => { n.cancelChildren with cancelRequested := true }
  | .finished => n

/-- Write the result of a turn of child `i`. -/
def putChild (n : Nursery σ κ) (i : ℕ) (c : Child κ) (r : σ × κ) : Nursery σ κ :=
  { n with shared := r.1, children := n.children.set i { c with state := r.2 } }

/-- A turn of child `i`. -/
def childTurn (n : Nursery σ κ) (i : ℕ) (inp : ι) : Option (Nursery σ κ) :=
  (n.children[i]?).bind fun c =>
    if B.ended c.state then none
    else if c.cancelRequested then some (n.putChild i c (B.unwind n.shared c.state))
    else (B.turn n.shared c.state inp).map (n.putChild i c)

/-- A turn of the parent. -/
def parentTurn (n : Nursery σ κ) (d : Decision) : Option (Nursery σ κ) :=
  match n.parent with
  | .waiting =>
    if n.cancelRequested then some { n with parent := .finished }
    else
      match d with
      | .leave => if n.allEnded B then some { n with parent := .finished } else none
      | .gather => some { n with parent := .gathering }
      | .cut => some { n.cancelChildren with parent := .gathering }
      | .abandon => some { n.cancelChildren with parent := .finished }
  | .gathering => if n.allEnded B then some { n with parent := .finished } else none
  | .finished => none

/-- The turns of the parent. -/
inductive ParentTurn (n : Nursery σ κ) : Nursery σ κ → Prop
  /-- The parent's cancellation is raised at its await. -/
  | interrupted (waiting : n.parent = .waiting) (requested : n.cancelRequested = true) :
      n.ParentTurn { n with parent := .finished }
  /-- All children have ended, and the parent with them. -/
  | joined (ended : n.allEnded B = true) : n.ParentTurn { n with parent := .finished }
  | gathers (waiting : n.parent = .waiting) (clean : n.cancelRequested = false) :
      n.ParentTurn { n with parent := .gathering }
  | cuts (waiting : n.parent = .waiting) (clean : n.cancelRequested = false) :
      n.ParentTurn { n.cancelChildren with parent := .gathering }
  | abandons (waiting : n.parent = .waiting) (clean : n.cancelRequested = false) :
      n.ParentTurn { n.cancelChildren with parent := .finished }

/-- The parent is about to be ended by a cancellation while a child still has work to do. -/
def orphans (n : Nursery σ κ) : Bool :=
  decide (n.parent = .waiting) && n.cancelRequested && !n.allStopping B

/-- The states of the children. -/
def states (n : Nursery σ κ) : List κ := n.children.map Child.state

/-- No child outlives its parent. -/
def Contained (n : Nursery σ κ) : Prop := n.parent = .finished → n.allStopping B = true

variable {B} {n n' : Nursery σ κ} {c : Child κ} {i : ℕ} {inp : ι} {d : Decision}

theorem allStopping_iff :
    n.allStopping B = true ↔
      ∀ c ∈ n.children, B.ended c.state = true ∨ c.cancelRequested = true := by
  simp [allStopping, List.all_eq_true, Bool.or_eq_true]

theorem allStopping_of_allEnded (h : n.allEnded B = true) : n.allStopping B = true := by
  rw [allEnded, List.all_eq_true] at h
  exact allStopping_iff.mpr (fun c hc => .inl (h c hc))

theorem allStopping_cancelChildren (n : Nursery σ κ) : n.cancelChildren.allStopping B = true := by
  refine allStopping_iff.mpr (fun c hc => .inr ?_)
  obtain ⟨c₀, -, rfl⟩ := List.mem_map.mp hc
  rfl

/-- A child that was to be cancelled takes its last turn. -/
theorem allStopping_putChild (h : n.allStopping B = true) (r : σ × κ)
    (hr : B.ended r.2 = true ∨ c.cancelRequested = true) :
    (n.putChild i c r).allStopping B = true := by
  rw [allStopping_iff] at h ⊢
  intro c' hc'
  rcases List.mem_or_eq_of_mem_set hc' with hc' | rfl
  · exact h c' hc'
  · exact hr

/-- The turns of a child: the delivery of its cancellation, or a part of its work. -/
theorem childTurn_cases (h : n.childTurn B i inp = some n') :
    ∃ c, n.children[i]? = some c ∧ B.ended c.state = false ∧
      (c.cancelRequested = true ∧ n' = n.putChild i c (B.unwind n.shared c.state) ∨
        c.cancelRequested = false ∧
          ∃ r, B.turn n.shared c.state inp = some r ∧ n' = n.putChild i c r) := by
  obtain ⟨c, hc, h⟩ := Option.bind_eq_some_iff.mp h
  refine ⟨c, hc, ?_⟩
  split at h
  · cases h
  · next hlive =>
    refine ⟨Bool.eq_false_iff.mpr hlive, ?_⟩
    split at h
    · next hcancel => exact .inl ⟨hcancel, (Option.some.inj h).symm⟩
    · next hcancel =>
      obtain ⟨r, hr, rfl⟩ := Option.map_eq_some_iff.mp h
      exact .inr ⟨Bool.eq_false_iff.mpr hcancel, r, hr, rfl⟩

/-- In a nursery all of whose children are stopping, a turn only delivers a cancellation. -/
theorem childTurn_unwind (hstop : n.allStopping B = true) (h : n.childTurn B i inp = some n') :
    ∃ c, n.children[i]? = some c ∧ c.cancelRequested = true ∧
      n' = n.putChild i c (B.unwind n.shared c.state) := by
  obtain ⟨c, hc, hlive, hunwind | ⟨hgo, -⟩⟩ := childTurn_cases h
  · exact ⟨c, hc, hunwind⟩
  · rcases allStopping_iff.mp hstop c (List.mem_of_getElem? hc) with hended | hcancel
    · rw [hlive] at hended
      cases hended
    · rw [hgo] at hcancel
      cases hcancel

theorem childTurn_parent (h : n.childTurn B i inp = some n') :
    n'.parent = n.parent ∧ n'.cancelRequested = n.cancelRequested := by
  obtain ⟨c, -, -, ⟨-, rfl⟩ | ⟨-, r, -, rfl⟩⟩ := childTurn_cases h <;> exact ⟨rfl, rfl⟩

/-- **The turns of the parent.** -/
theorem parentTurn_cases (h : n.parentTurn B d = some n') : n.ParentTurn B n' := by
  unfold parentTurn at h
  split at h
  · next hwaiting =>
    split at h
    · next hrequested =>
      cases h
      exact .interrupted hwaiting hrequested
    · next hclean =>
      have hclean := Bool.eq_false_iff.mpr hclean
      cases d with
      | leave =>
        obtain ⟨hall, heq⟩ := Option.ite_none_right_eq_some.mp h
        cases heq
        exact .joined hall
      | gather =>
        cases h
        exact .gathers hwaiting hclean
      | cut =>
        cases h
        exact .cuts hwaiting hclean
      | abandon =>
        cases h
        exact .abandons hwaiting hclean
  · obtain ⟨hall, heq⟩ := Option.ite_none_right_eq_some.mp h
    cases heq
    exact .joined hall
  · cases h

theorem parentTurn_shared (h : n.parentTurn B d = some n') : n'.shared = n.shared := by
  cases parentTurn_cases h <;> rfl

/-! ### The states of the children -/

/-- One element of a list and what is around it. -/
theorem exists_around {l : List κ} {k : κ} (hi : l[i]? = some k) :
    ∃ l₁ l₂, l = l₁ ++ k :: l₂ ∧ ∀ k', l.set i k' = l₁ ++ k' :: l₂ := by
  obtain ⟨hlt, hget⟩ := List.getElem?_eq_some_iff.mp hi
  refine ⟨l.take i, l.drop (i + 1), ?_, fun k' => ?_⟩
  · rw [← hget, List.getElem_cons_drop, List.take_append_drop]
  · rw [List.set_eq_take_append_cons_drop, if_pos hlt]

theorem putChild_states (n : Nursery σ κ) (i : ℕ) (c : Child κ) (r : σ × κ) :
    (n.putChild i c r).states = n.states.set i r.2 := by
  simp [states, putChild, List.map_set]

@[simp] theorem cancelChildren_states (n : Nursery σ κ) : n.cancelChildren.states = n.states := by
  simp [states, cancelChildren, Function.comp_def]

@[simp] theorem cancel_states (n : Nursery σ κ) : n.cancel.states = n.states := by
  unfold cancel
  split
  · rfl
  · exact n.cancelChildren_states
  · rfl

@[simp] theorem cancel_shared (n : Nursery σ κ) : n.cancel.shared = n.shared := by
  unfold cancel
  split <;> rfl

theorem parentTurn_states (h : n.parentTurn B d = some n') : n'.states = n.states := by
  cases parentTurn_cases h with
  | cuts => exact n.cancelChildren_states
  | abandons => exact n.cancelChildren_states
  | _ => rfl

theorem states_getElem? {c : Child κ} (hc : n.children[i]? = some c) :
    n.states[i]? = some c.state := by
  rw [states, List.getElem?_map, hc, Option.map_some]

namespace Contained

theorem childTurn (h : n.Contained B) (ht : n.childTurn B i inp = some n') : n'.Contained B := by
  intro hfin
  rw [(childTurn_parent ht).1] at hfin
  obtain ⟨c, -, hcancel, rfl⟩ := childTurn_unwind (h hfin) ht
  exact allStopping_putChild (h hfin) _ (.inr hcancel)

/-- The parent finishes by itself only when its children have ended or have been
cancelled. -/
theorem parentTurn (horphan : n.orphans B = false) (ht : n.parentTurn B d = some n') :
    n'.Contained B := by
  intro hfin
  cases parentTurn_cases ht with
  | interrupted waiting requested =>
    simp only [orphans, waiting, requested, decide_true, Bool.true_and, Bool.not_eq_false'] at horphan
    exact horphan
  | joined ended => exact allStopping_of_allEnded ended
  | gathers => cases hfin
  | cuts => cases hfin
  | abandons => exact allStopping_cancelChildren n

theorem cancel (h : n.Contained B) : n.cancel.Contained B := by
  intro hfin
  unfold Nursery.cancel at hfin ⊢
  split at hfin
  · next hwait =>
    rw [hwait] at hfin
    cases hfin
  · next hgather =>
    change n.parent = .finished at hfin
    rw [hgather] at hfin
    cases hfin
  · exact h hfin

/-- **A child of a finished parent changes nothing** that unwinding a task leaves alone. -/
theorem quiet (h : n.Contained B) (hfin : n.parent = .finished) (observe : σ → ο)
    (hunwind : ∀ s k, observe (B.unwind s k).1 = observe s)
    (ht : n.childTurn B i inp = some n') : observe n'.shared = observe n.shared := by
  obtain ⟨c, -, -, rfl⟩ := childTurn_unwind (h hfin) ht
  exact hunwind n.shared c.state

end Contained

end Nursery

end HuntProxy
