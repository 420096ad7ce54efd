import HuntProxy.Lib.Machine
import Mathlib.Data.List.Infix
import Mathlib.Data.Nat.Notation

/-!
# Dialogs over byte streams

Two parties that write to each other, and read exact numbers of letters. A party is given by what
it does next: the letters that it has read decide how it goes on. When one run of two parties ends,
all runs end, and in the same way, however the letters are delayed and cut into segments: a read
waits for its letters, and does not see what else has arrived.

A party that has returned may go on to say something of its own; this is what the other one, when it
returns, has not read.

## Main definitions

- `Party` — a program that reads and writes
- `Settles` — two parties, with what each has not read, end in a given way
- `Dialog.machine` — the parties, and the letters on the way

## Main results

- `Settles.write_left`, `Settles.read_left` — the order of the steps does not matter
- `Dialog.agrees` — what holds in all runs, when one run ends
-/

namespace HuntProxy

variable {α ρ σ : Type*}

/-- A program that returns, reads a number of letters, or writes. -/
inductive Party (α ρ : Type*)
  | ret (r : ρ)
  | read (n : ℕ) (k : List α → Party α ρ)
  | write (l : List α) (next : Party α ρ)

/-- A party that has not returned can go on with the letters that are there. -/
def Party.Ready : Party α ρ → List α → Prop
  | .ret _, _ => False
  | .read n _, x => n ≤ x.length
  | .write _ _, _ => True

/-! ### How two parties end -/

/-- The parties `p` and `q`, which have not read `x` and `y` yet, return `a` and `b`, and then have
not read `x'` and `y'`. The number counts the steps and the letters that are written. -/
inductive Settles (a : ρ) (x' : List α) (b : σ) (y' : List α) :
    ℕ → Party α ρ → List α → Party α σ → List α → Prop
  | done : Settles a x' b y' 0 (.ret a) x' (.ret b) y'
  | writeLeft {n l p x q y} (h : Settles a x' b y' n p x q (y ++ l)) :
      Settles a x' b y' (n + l.length + 1) (.write l p) x q y
  | readLeft {n m k x q y} (hm : m ≤ x.length) (h : Settles a x' b y' n (k (x.take m)) (x.drop m) q y) :
      Settles a x' b y' (n + 1) (.read m k) x q y
  | writeRight {n l p x q y} (h : Settles a x' b y' n p (x ++ l) q y) :
      Settles a x' b y' (n + l.length + 1) p x (.write l q) y
  | readRight {n m k p x y} (hm : m ≤ y.length) (h : Settles a x' b y' n p x (k (y.take m)) (y.drop m)) :
      Settles a x' b y' (n + 1) p x (.read m k) y

namespace Settles

variable {a r : ρ} {b t : σ} {x' y' x y l : List α} {n m : ℕ} {p : Party α ρ} {q : Party α σ}

/-- Left and right are alike. -/
theorem symm (h : Settles a x' b y' n p x q y) : Settles b y' a x' n q y p x := by
  induction h with
  | done => exact .done
  | writeLeft _ ih => exact .writeRight ih
  | readLeft hm _ ih => exact .readRight hm ih
  | writeRight _ ih => exact .writeLeft ih
  | readRight hm _ ih => exact .readLeft hm ih

/-- A read of letters that are there. -/
theorem readLeft_append {k : List α → Party α ρ} (hl : l.length = m)
    (h : Settles a x' b y' n (k l) x q y) : Settles a x' b y' (n + 1) (.read m k) (l ++ x) q y := by
  subst hl
  refine .readLeft (by simp) ?_
  rwa [List.take_left, List.drop_left]

theorem readRight_append {k : List α → Party α σ} (hl : l.length = m)
    (h : Settles a x' b y' n p x (k l) y) : Settles a x' b y' (n + 1) p x (.read m k) (l ++ y) :=
  (readLeft_append hl h.symm).symm

/-- A read of all letters that are there. -/
theorem readLeft_all {k : List α → Party α ρ} (hx : x.length = m)
    (h : Settles a x' b y' n (k x) [] q y) : Settles a x' b y' (n + 1) (.read m k) x q y := by
  simpa only [List.append_nil] using readLeft_append hx h

theorem readRight_all {k : List α → Party α σ} (hy : y.length = m)
    (h : Settles a x' b y' n p x (k y) []) : Settles a x' b y' (n + 1) p x (.read m k) y :=
  (readLeft_all hy h.symm).symm

/-- **A write can be done first.** -/
theorem write_left (h : Settles a x' b y' n (.write l p) x q y) :
    ∃ n', n = n' + l.length + 1 ∧ Settles a x' b y' n' p x q (y ++ l) := by
  generalize hp : Party.write l p = p' at h
  induction h with
  | done => cases hp
  | writeLeft h _ =>
    cases hp
    exact ⟨_, rfl, h⟩
  | readLeft _ _ _ => cases hp
  | writeRight _ ih =>
    obtain ⟨n', rfl, h'⟩ := ih hp
    exact ⟨_, by omega, .writeRight h'⟩
  | @readRight _ m _ _ _ y hm _ ih =>
    obtain ⟨n', rfl, h'⟩ := ih hp
    -- what is written comes behind the letters that the right one reads
    refine ⟨n' + 1, by omega, .readRight (by rw [List.length_append]; omega) ?_⟩
    rwa [List.take_append_of_le_length hm, List.drop_append_of_le_length hm]

/-- **A read can be done as soon as its letters are there.** -/
theorem read_left {k : List α → Party α ρ} (h : Settles a x' b y' n (.read m k) x q y)
    (hm : m ≤ x.length) : ∃ n', n = n' + 1 ∧ Settles a x' b y' n' (k (x.take m)) (x.drop m) q y := by
  generalize hp : Party.read m k = p' at h
  induction h with
  | done => cases hp
  | writeLeft _ _ => cases hp
  | readLeft _ h _ =>
    cases hp
    exact ⟨_, rfl, h⟩
  | writeRight _ ih =>
    -- the letters of the read are there before the right one writes
    obtain ⟨n', rfl, h'⟩ := ih (by rw [List.length_append]; omega) hp
    rw [List.take_append_of_le_length hm, List.drop_append_of_le_length hm] at h'
    exact ⟨_, by omega, .writeRight h'⟩
  | readRight hm' _ ih =>
    obtain ⟨n', rfl, h'⟩ := ih hm hp
    exact ⟨n' + 1, rfl, .readRight hm' h'⟩

/-- A party that has returned says something: the other one does not read it. -/
theorem say_left (h : Settles a x' b y' n (.ret r) x q y) (l : List α) :
    Settles a x' b (y' ++ l) n (.ret r) x q (y ++ l) := by
  generalize hp : Party.ret r = p' at h
  induction h with
  | done => exact .done
  | writeLeft _ _ => cases hp
  | readLeft _ _ _ => cases hp
  | writeRight _ ih => exact .writeRight (ih hp)
  | @readRight _ m _ _ _ y hm _ ih =>
    refine .readRight (by rw [List.length_append]; omega) ?_
    rw [List.take_append_of_le_length hm, List.drop_append_of_le_length hm]
    exact ih hp

/-- A party that has returned has returned what it ends with. -/
theorem ret_left (h : Settles a x' b y' n (.ret r) x q y) : r = a := by
  generalize hp : Party.ret r = p' at h
  induction h with
  | done =>
    cases hp
    rfl
  | writeLeft _ _ => cases hp
  | readLeft _ _ _ => cases hp
  | writeRight _ ih => exact ih hp
  | readRight _ _ ih => exact ih hp

/-- When the left one has returned, what the right one will not have read is the end of what it has
not read. -/
theorem suffix_right (h : Settles a x' b y' n (.ret r) x q y) : y' <:+ y := by
  generalize hp : Party.ret r = p' at h
  induction h with
  | done => exact List.suffix_refl _
  | writeLeft _ _ => cases hp
  | readLeft _ _ _ => cases hp
  | writeRight _ ih => exact ih hp
  | readRight _ _ ih => exact (ih hp).trans (List.drop_suffix _ _)

/-- One of the parties can go on, or both have returned. -/
theorem ready (h : Settles a x' b y' n p x q y) : (p = .ret a ∧ q = .ret b) ∨ p.Ready x ∨ q.Ready y := by
  cases h with
  | done => exact .inl ⟨rfl, rfl⟩
  | writeLeft _ => exact .inr (.inl trivial)
  | readLeft hm _ => exact .inr (.inl hm)
  | writeRight _ => exact .inr (.inr trivial)
  | readRight hm _ => exact .inr (.inr hm)

/-- When both have returned, nothing more is read. -/
theorem unread (h : Settles a x' b y' n (.ret r) x (.ret t) y) : x = x' ∧ y = y' := by
  cases h
  exact ⟨rfl, rfl⟩

end Settles

/-! ### Segments -/

/-- A party in a dialog: what it does next, what has arrived, what is on the way to it, and what it
has said after it returned. -/
structure Side (α ρ : Type*) where
  party : Party α ρ
  buf : List α
  flight : List α
  said : List α

/-- What a party has not read. -/
def Side.unread (s : Side α ρ) : List α := s.buf ++ s.flight

/-- Only a party that has returned has said something. -/
def Side.Silent (s : Side α ρ) : Prop := s.said = [] ∨ ∃ r, s.party = .ret r

/-- Two parties. -/
structure Dialog (α ρ σ : Type*) where
  left : Side α ρ
  right : Side α σ

/-- Letters arrive, a party writes or reads, or says something after it has returned. -/
inductive Move (α : Type*)
  | arrive (n : ℕ)
  | step
  | say (l : List α)

/-- A move that goes on with the dialog. -/
def Move.Quiet : Move α → Prop
  | .say _ => False
  | _ => True

namespace Dialog

/-- The beginning. -/
def start (p : Party α ρ) (q : Party α σ) : Dialog α ρ σ := ⟨⟨p, [], [], []⟩, ⟨q, [], [], []⟩⟩

/-- The other way round. -/
def swap (s : Dialog α ρ σ) : Dialog α σ ρ := ⟨s.right, s.left⟩

/-- A move of the left party. -/
def stepLeft (s : Dialog α ρ σ) : Move α → Option (Dialog α ρ σ)
  | .arrive n =>
    if 0 < n ∧ n ≤ s.left.flight.length then
      some { s with left := { s.left with
        buf := s.left.buf ++ s.left.flight.take n
        flight := s.left.flight.drop n } }
    else none
  | .step =>
    match s.left.party with
    | .ret _ => none
    | .read n k =>
      if n ≤ s.left.buf.length then
        some { s with left := { s.left with
          party := k (s.left.buf.take n)
          buf := s.left.buf.drop n } }
      else none
    | .write l p =>
      some ⟨{ s.left with party := p }, { s.right with flight := s.right.flight ++ l }⟩
  | .say l =>
    match s.left.party with
    | .ret _ =>
      some ⟨{ s.left with said := s.left.said ++ l }, { s.right with flight := s.right.flight ++ l }⟩
    | _ => none

/-- The transition function: a move of the left party or of the right one. -/
def step (s : Dialog α ρ σ) : Move α ⊕ Move α → Option (Dialog α ρ σ)
  | .inl m => s.stepLeft m
  | .inr m => (s.swap.stepLeft m).map swap

/-- The machine. -/
def machine : Machine (Dialog α ρ σ) (Move α ⊕ Move α) := ⟨step⟩

/-- A step that goes on with the dialog. -/
def Quiet : Machine.Guard (Dialog α ρ σ) (Move α ⊕ Move α) :=
  fun _ e _ => e.elim Move.Quiet Move.Quiet

/-- Both parties have returned. -/
def Finished (a : ρ) (b : σ) (s : Dialog α ρ σ) : Prop :=
  s.left.party = .ret a ∧ s.right.party = .ret b

/-- The parties will end with `a` and `b`, and read nothing of what is said afterwards. -/
structure Inv (a : ρ) (b : σ) (n : ℕ) (s : Dialog α ρ σ) : Prop where
  settles : Settles a s.right.said b s.left.said n s.left.party s.left.unread s.right.party
    s.right.unread
  left : s.left.Silent
  right : s.right.Silent

/-- The steps that are left, and the letters that are on the way. -/
def todo (n : ℕ) (s : Dialog α ρ σ) : ℕ := n + s.left.flight.length + s.right.flight.length

section

variable {a : ρ} {b : σ} {n : ℕ} {s s' : Dialog α ρ σ}

theorem Inv.swap (h : s.Inv a b n) : s.swap.Inv b a n := ⟨h.settles.symm, h.right, h.left⟩

theorem todo_swap : s.swap.todo n = s.todo n := by
  unfold todo
  exact Nat.add_right_comm _ _ _

/-- A move of the left party. -/
theorem Inv.stepLeft (h : s.Inv a b n) {m : Move α} (hs : s.stepLeft m = some s') :
    ∃ n', s'.Inv a b n' ∧ (m.Quiet → s'.todo n' < s.todo n) := by
  obtain ⟨hsettles, hleft, hright⟩ := h
  cases m with
  | arrive k =>
    rw [Dialog.stepLeft, Option.ite_none_right_eq_some] at hs
    obtain ⟨hk, hs⟩ := hs
    cases hs
    refine ⟨n, ⟨?_, hleft, hright⟩, fun _ => ?_⟩
    · unfold Side.unread
      rwa [List.append_assoc, List.take_append_drop]
    · unfold todo
      dsimp only
      rw [List.length_drop]
      omega
  | step =>
    rw [Dialog.stepLeft] at hs
    split at hs
    · cases hs
    · next k next hparty =>
      rw [Option.ite_none_right_eq_some] at hs
      obtain ⟨hk, hs⟩ := hs
      cases hs
      -- a party that still reads has said nothing
      have hsaid : s.left.said = [] := hleft.resolve_right (fun ⟨r, hr⟩ => by
        rw [hparty] at hr
        cases hr)
      rw [hparty] at hsettles
      have hk' : k ≤ s.left.unread.length := by
        rw [Side.unread, List.length_append]
        omega
      obtain ⟨n', rfl, hsettles'⟩ := hsettles.read_left hk'
      rw [Side.unread, List.take_append_of_le_length hk, List.drop_append_of_le_length hk] at hsettles'
      refine ⟨n', ⟨hsettles', .inl hsaid, hright⟩, fun _ => ?_⟩
      unfold todo
      dsimp only
      omega
    · next l next hparty =>
      cases hs
      have hsaid : s.left.said = [] := hleft.resolve_right (fun ⟨r, hr⟩ => by
        rw [hparty] at hr
        cases hr)
      rw [hparty] at hsettles
      obtain ⟨n', rfl, hsettles'⟩ := hsettles.write_left
      refine ⟨n', ⟨?_, .inl hsaid, hright⟩, fun _ => ?_⟩
      · unfold Side.unread
        rwa [← List.append_assoc]
      · unfold todo
        dsimp only
        rw [List.length_append]
        omega
  | say l =>
    rw [Dialog.stepLeft] at hs
    split at hs
    · next r hparty =>
      cases hs
      refine ⟨n, ⟨?_, .inr ⟨r, hparty⟩, hright⟩, fun hq => hq.elim⟩
      unfold Side.unread
      dsimp only
      rw [hparty] at hsettles ⊢
      rw [← List.append_assoc]
      exact hsettles.say_left l
    · cases hs

/-- **Step lemma**: the parties still end in the same way, and have less to do. -/
theorem Inv.step (h : s.Inv a b n) {e : Move α ⊕ Move α} (hs : s.step e = some s') :
    ∃ n', s'.Inv a b n' ∧ (Quiet s e s' → s'.todo n' < s.todo n) := by
  cases e with
  | inl m => exact h.stepLeft hs
  | inr m =>
    obtain ⟨t, ht, rfl⟩ := Option.map_eq_some_iff.mp hs
    obtain ⟨n', h', htodo⟩ := h.swap.stepLeft ht
    exact ⟨n', h'.swap, fun hq => by simpa only [todo_swap] using htodo hq⟩

/-- Letters that are on the way can arrive, and a party that is ready can go on. -/
theorem exists_moveLeft (h : s.left.flight ≠ [] ∨ s.left.party.Ready s.left.buf) :
    ∃ m : Move α, m.Quiet ∧ (s.stepLeft m).isSome = true := by
  rcases h with hflight | hready
  · refine ⟨.arrive s.left.flight.length, trivial, ?_⟩
    rw [Dialog.stepLeft, if_pos ⟨List.length_pos_iff.mpr hflight, le_refl _⟩]
    rfl
  · refine ⟨.step, trivial, ?_⟩
    rw [Dialog.stepLeft]
    cases hp : s.left.party with
    | ret r =>
      rw [hp] at hready
      exact hready.elim
    | read n k =>
      have hlen : n ≤ s.left.buf.length := by rwa [hp] at hready
      dsimp only
      rw [if_pos hlen]
      rfl
    | write l p => rfl

/-- A dialog that is not finished goes on. -/
theorem Inv.exists_step (h : s.Inv a b n) :
    s.Finished a b ∨ ∃ e s', Quiet s e s' ∧ s.step e = some s' := by
  have hleft (hl : s.left.flight ≠ [] ∨ s.left.party.Ready s.left.buf) :
      ∃ e s', Quiet s e s' ∧ s.step e = some s' := by
    obtain ⟨m, hq, hm⟩ := exists_moveLeft hl
    obtain ⟨s', hs'⟩ := Option.isSome_iff_exists.mp hm
    exact ⟨.inl m, s', hq, hs'⟩
  have hright (hr : s.right.flight ≠ [] ∨ s.right.party.Ready s.right.buf) :
      ∃ e s', Quiet s e s' ∧ s.step e = some s' := by
    obtain ⟨m, hq, hm⟩ := exists_moveLeft (s := s.swap) hr
    obtain ⟨s', hs'⟩ := Option.isSome_iff_exists.mp hm
    refine ⟨.inr m, s'.swap, hq, ?_⟩
    rw [Dialog.step, hs', Option.map_some]
  -- something on the way can arrive; when nothing is, what has arrived is all there is to read
  by_cases hl : s.left.flight = []
  · by_cases hr : s.right.flight = []
    · have hready := h.settles.ready
      rw [Side.unread, Side.unread, hl, hr, List.append_nil, List.append_nil] at hready
      rcases hready with hfin | hready | hready
      · exact .inl hfin
      · exact .inr (hleft (.inr hready))
      · exact .inr (hright (.inr hready))
    · exact .inr (hright (.inl hr))
  · exact .inr (hleft (.inl hl))

/-- A dialog can be finished. -/
theorem Inv.finishes (h : s.Inv a b n) :
    ∃ s', machine.Reaches Quiet s s' ∧ s'.Finished a b := by
  -- by induction on what is left to do
  induction hk : s.todo n using Nat.strongRecOn generalizing s n with
  | ind k ih =>
    rcases h.exists_step with hfin | ⟨e, s', hq, hs⟩
    · exact ⟨s, .refl s, hfin⟩
    · obtain ⟨n', h', htodo⟩ := h.step hs
      obtain ⟨s'', hrun, hfin⟩ := ih _ (hk ▸ htodo hq) h' rfl
      exact ⟨s'', (Machine.Reaches.single hs hq).trans hrun, hfin⟩

/-- A dialog does not go on for ever. -/
theorem Inv.bounded (h : s.Inv a b n) {l : List (Move α ⊕ Move α)}
    (hq : ∀ e ∈ l, e.elim Move.Quiet Move.Quiet)
    (hrun : (machine.exec (fun _ _ _ => true) s l).isSome = true) : l.length ≤ s.todo n := by
  induction l generalizing s n with
  | nil => exact Nat.zero_le _
  | cons e l ih =>
    cases hs : s.step e with
    | none =>
      have hnone : machine.exec (fun _ _ _ => true) s (e :: l) = none := by
        simp [Machine.exec, machine, hs]
      rw [hnone] at hrun
      cases hrun
    | some s' =>
      obtain ⟨n', h', htodo⟩ := h.step hs
      have hrest : machine.exec (fun _ _ _ => true) s (e :: l) =
          machine.exec (fun _ _ _ => true) s' l := by
        simp [Machine.exec, machine, hs]
      rw [hrest] at hrun
      have hlen := ih h' (fun e' he' => hq e' (List.mem_cons_of_mem e he')) hrun
      have hlt := htodo (hq e List.mem_cons_self)
      rw [List.length_cons]
      omega

end

/-- What holds of two parties that are to return `a` and `b`: they return nothing else, do not read
what the other one says afterwards, and finish. -/
structure Agrees (a : ρ) (b : σ) (s : Dialog α ρ σ) : Prop where
  left : ∀ r, s.left.party = .ret r → r = a
  right : ∀ r, s.right.party = .ret r → r = b
  leftUnread : s.right.said <:+ s.left.unread
  rightUnread : s.left.said <:+ s.right.unread
  unread : s.Finished a b → s.left.unread = s.right.said ∧ s.right.unread = s.left.said
  finishes : ∃ s', machine.Reaches Quiet s s' ∧ s'.Finished a b
  bounded : ∃ k, ∀ l : List (Move α ⊕ Move α), (∀ e ∈ l, e.elim Move.Quiet Move.Quiet) →
    (machine.exec (fun _ _ _ => true) s l).isSome = true → l.length ≤ k

/-- **When one run ends, all runs end**, in the same way, and nothing is read of what is said
afterwards. -/
theorem agrees {a : ρ} {b : σ} {n : ℕ} {p : Party α ρ} {q : Party α σ} {s : Dialog α ρ σ}
    (h : Settles a [] b [] n p [] q []) (hrun : machine.Reaches Machine.anyStep (start p q) s) :
    s.Agrees a b := by
  obtain ⟨n', hinv⟩ := hrun.invariant (I := fun s => ∃ n, Inv a b n s) ⟨n, h, .inl rfl, .inl rfl⟩
    (fun _ _ _ hI hs _ => by
      obtain ⟨n, hI⟩ := hI
      obtain ⟨n', hI', -⟩ := hI.step hs
      exact ⟨n', hI'⟩)
  obtain ⟨hsettles, hleft, hright⟩ := id hinv
  refine ⟨fun r hr => (hr ▸ hsettles).ret_left, fun r hr => (hr ▸ hsettles).symm.ret_left, ?_, ?_, ?_,
    hinv.finishes, s.todo n', fun l hq hl => hinv.bounded hq hl⟩
  · rcases hright with hsaid | ⟨r, hr⟩
    · rw [hsaid]
      exact List.nil_suffix
    · exact (hr ▸ hsettles).symm.suffix_right
  · rcases hleft with hsaid | ⟨r, hr⟩
    · rw [hsaid]
      exact List.nil_suffix
    · exact (hr ▸ hsettles).suffix_right
  · rintro ⟨hl, hr⟩
    rw [hl, hr] at hsettles
    exact hsettles.unread

end Dialog

end HuntProxy
