import HuntProxy.Lib.Dialog

/-!
# Dialogs that end with a closed connection

The right party of a dialog closes the connection when it has returned. A read of the left one
for which the letters do not suffice then fails, and the party ends with what it makes of a
failure.

A party that has written something and then reads more letters than the other one ever says
fails in every run, however the letters are delayed and cut into segments.

## Main definitions

- `Says` — what a party says in all and how it ends, when it is given some letters
- `Dialog.closing` — a dialog with a right party that closes the connection

## Main results

- `Dialog.cutOff` — a read of more letters than are said
-/

namespace HuntProxy

variable {α ρ σ : Type*}

/-- The party `q`, given the letters `x`, says `l` and returns `b`. The number counts the steps
and the letters that are written. -/
inductive Says (b : σ) : ℕ → Party α σ → List α → List α → Prop
  | done {x} : Says b 0 (.ret b) x []
  | write {n l l' q x} (h : Says b n q x l') : Says b (n + l.length + 1) (.write l q) x (l ++ l')
  | read {n m k x l} (hm : m ≤ x.length) (h : Says b n (k (x.take m)) (x.drop m) l) :
      Says b (n + 1) (.read m k) x l

namespace Says

variable {b r : σ} {n m : ℕ} {q : Party α σ} {x l w : List α}

theorem ret (h : Says b n (.ret r) x l) : r = b ∧ n = 0 ∧ l = [] := by
  cases h
  exact ⟨rfl, rfl, rfl⟩

theorem of_write (h : Says b n (.write w q) x l) :
    ∃ n' l', n = n' + w.length + 1 ∧ l = w ++ l' ∧ Says b n' q x l' := by
  cases h with
  | write h => exact ⟨_, _, rfl, rfl, h⟩

theorem of_read {k : List α → Party α σ} (h : Says b n (.read m k) x l) :
    ∃ n', n = n' + 1 ∧ m ≤ x.length ∧ Says b n' (k (x.take m)) (x.drop m) l := by
  cases h with
  | read hm h => exact ⟨_, rfl, hm, h⟩

/-- A party that writes and returns. -/
theorem write_ret (h : Says b n (.write w (.ret r)) x l) : r = b ∧ l = w := by
  obtain ⟨n', l', -, hl, hret⟩ := h.of_write
  obtain ⟨hr, -, rfl⟩ := hret.ret
  exact ⟨hr, by rw [hl, List.append_nil]⟩

end Says

namespace Dialog

/-- A move of one of the parties, or the end of a read behind which the connection is closed. -/
inductive Event (α : Type*)
  | move (m : Move α ⊕ Move α)
  | hangUp

/-- The step of a dialog in which the right party closes the connection when it has returned;
`broken` is what the left one makes of a failed read. -/
def stepClosing (broken : ρ) (s : Dialog α ρ σ) : Event α → Option (Dialog α ρ σ)
  | .move m => s.step m
  | .hangUp =>
    match s.left.party, s.right.party with
    | .read n _, .ret _ =>
      if s.left.flight = [] ∧ s.left.buf.length < n then
        some { s with left := { s.left with party := .ret broken } }
      else none
    | _, _ => none

/-- The machine. -/
def closing (broken : ρ) : Machine (Dialog α ρ σ) (Event α) := ⟨stepClosing broken⟩

/-- A party that has closed the connection says nothing more. -/
def Event.Quiet : Event α → Prop
  | .move m => m.elim Move.Quiet Move.Quiet
  | .hangUp => True

/-- A step that goes on with the dialog. -/
def Closing : Machine.Guard (Dialog α ρ σ) (Event α) := fun _ e _ => e.Quiet

section

variable {broken : ρ} {b : σ} {n m : ℕ} {req out : List α} {k : List α → Party α ρ}
  {s s' : Dialog α ρ σ}

/-- The left party is about to write `req` and then to read, or it has written and reads. The
number counts the steps and the letters that are left; the last argument is what it has still
to write. -/
inductive Asking (req : List α) (m : ℕ) (k : List α → Party α ρ) : ℕ → Party α ρ → List α → Prop
  | before : Asking req m k (req.length + 2) (.write req (.read m k)) req
  | after : Asking req m k 1 (.read m k) []

theorem Asking.pos {c : ℕ} {p : Party α ρ} {pending : List α}
    (h : Asking req m k c p pending) : 0 < c := by
  cases h with
  | before => exact Nat.succ_pos _
  | after => exact Nat.one_pos

/-- The left party asks while the right one has still to say some of `out`, or it has failed. -/
inductive CutOff (broken : ρ) (b : σ) (req : List α) (m : ℕ) (k : List α → Party α ρ)
    (out : List α) (s : Dialog α ρ σ) : ℕ → Prop
  | asking {c n pending l} (hleft : Asking req m k c s.left.party pending)
      (hright : Says b n s.right.party (s.right.unread ++ pending) l)
      (hout : s.left.unread ++ l = out) :
      CutOff broken b req m k out s (s.todo (c + n))
  | failed (hleft : s.left.party = .ret broken) (hright : s.right.party = .ret b) :
      CutOff broken b req m k out s (s.todo 0)

theorem append_take_drop (x y : List α) (j : ℕ) : x ++ y.take j ++ y.drop j = x ++ y := by
  rw [List.append_assoc, List.take_append_drop]

/-- A move of the left party. -/
theorem CutOff.stepLeft (hlen : out.length < m) (h : CutOff broken b req m k out s n)
    {e : Move α} (hq : e.Quiet) (hs : s.stepLeft e = some s') :
    ∃ n' < n, CutOff broken b req m k out s' n' := by
  cases e with
  | say l => exact hq.elim
  | arrive j =>
    rw [Dialog.stepLeft, Option.ite_none_right_eq_some] at hs
    obtain ⟨hj, hs⟩ := hs
    cases hs
    have hflight : (s.left.flight.drop j).length < s.left.flight.length := by
      rw [List.length_drop]
      omega
    cases h with
    | asking hleft hright hout =>
      refine ⟨_, ?_, .asking hleft hright ?_⟩
      · unfold todo
        dsimp only
        omega
      · rw [← hout]
        exact congrArg (· ++ _) (append_take_drop s.left.buf s.left.flight j)
    | failed hleft hright =>
      refine ⟨_, ?_, .failed hleft hright⟩
      unfold todo
      dsimp only
      omega
  | step =>
    cases h with
    | failed hleft hright =>
      rw [Dialog.stepLeft, hleft] at hs
      cases hs
    | @asking c n pending l hleft hright hout =>
      generalize hp : s.left.party = p at hleft hs
      cases hleft with
      | before =>
        rw [Dialog.stepLeft, hp] at hs
        cases hs
        -- what was to be written is on the way
        have hright' : Says b n s.right.party (s.right.buf ++ (s.right.flight ++ req) ++ []) l := by
          rwa [List.append_nil, ← List.append_assoc]
        refine ⟨_, ?_, .asking .after hright' hout⟩
        unfold todo
        dsimp only
        rw [List.length_append]
        omega
      | after =>
        -- all that is ever said does not suffice
        rw [Dialog.stepLeft, hp] at hs
        dsimp only at hs
        rw [Option.ite_none_right_eq_some] at hs
        have hbuf := congrArg List.length hout
        rw [Side.unread, List.length_append, List.length_append] at hbuf
        omega

/-- A move of the right party. -/
theorem CutOff.stepRight (h : CutOff broken b req m k out s n) {e : Move α} (hq : e.Quiet)
    (hs : s.step (.inr e) = some s') : ∃ n' < n, CutOff broken b req m k out s' n' := by
  obtain ⟨t, ht, rfl⟩ := Option.map_eq_some_iff.mp hs
  cases e with
  | say l => exact hq.elim
  | arrive j =>
    rw [Dialog.stepLeft, Option.ite_none_right_eq_some] at ht
    obtain ⟨hj, ht⟩ := ht
    cases ht
    have hj : 0 < j ∧ j ≤ s.right.flight.length := hj
    have hflight : (s.right.flight.drop j).length < s.right.flight.length := by
      rw [List.length_drop]
      omega
    cases h with
    | asking hleft hright hout =>
      rw [Side.unread, ← append_take_drop s.right.buf s.right.flight j] at hright
      refine ⟨_, ?_, .asking hleft hright hout⟩
      unfold todo
      dsimp only [swap]
      omega
    | failed hleft hright =>
      refine ⟨_, ?_, .failed hleft hright⟩
      unfold todo
      dsimp only [swap]
      omega
  | step =>
    cases h with
    | failed hleft hright =>
      rw [Dialog.stepLeft, swap, hright] at ht
      cases ht
    | @asking c n pending l hleft hright hout =>
      rw [Dialog.stepLeft, swap] at ht
      dsimp only at ht
      split at ht
      · cases ht
      · next j next hp =>
        rw [Option.ite_none_right_eq_some] at ht
        obtain ⟨hj, ht⟩ := ht
        cases ht
        rw [hp] at hright
        obtain ⟨n', rfl, -, hright⟩ := hright.of_read
        rw [Side.unread, List.append_assoc, List.take_append_of_le_length hj,
          List.drop_append_of_le_length hj, ← List.append_assoc] at hright
        refine ⟨_, ?_, .asking hleft hright hout⟩
        unfold todo
        dsimp only [swap]
        omega
      · next w next hp =>
        cases ht
        rw [hp] at hright
        obtain ⟨n', l', rfl, rfl, hrest⟩ := hright.of_write
        -- what is written moves from the rest of the answer into the flight
        have hout' : s.left.buf ++ (s.left.flight ++ w) ++ l' = out := by
          rw [← hout, Side.unread]
          simp only [List.append_assoc]
        refine ⟨_, ?_, .asking hleft hrest hout'⟩
        unfold todo
        dsimp only [swap]
        rw [List.length_append]
        omega

/-- The connection is closed. -/
theorem CutOff.stepHangUp (h : CutOff broken b req m k out s n)
    (hs : stepClosing broken s .hangUp = some s') :
    ∃ n' < n, CutOff broken b req m k out s' n' := by
  unfold stepClosing at hs
  dsimp only at hs
  split at hs
  · next j next r hleft' hright' =>
    rw [Option.ite_none_right_eq_some] at hs
    obtain ⟨-, hs⟩ := hs
    cases hs
    cases h with
    | failed hleft hright =>
      rw [hleft] at hleft'
      cases hleft'
    | @asking c _ _ _ hleft hright hout =>
      rw [hright'] at hright
      obtain ⟨rfl, rfl, rfl⟩ := hright.ret
      refine ⟨_, ?_, .failed rfl hright'⟩
      have hcost := hleft.pos
      unfold todo
      dsimp only
      omega
  · cases hs

/-- **Step lemma**: every step brings the end nearer. -/
theorem CutOff.step (hlen : out.length < m) (h : CutOff broken b req m k out s n) {e : Event α}
    (hs : (closing broken).step s e = some s') (hq : Closing s e s') :
    ∃ n' < n, CutOff broken b req m k out s' n' := by
  cases e with
  | hangUp => exact h.stepHangUp hs
  | move e =>
    cases e with
    | inl e => exact h.stepLeft hlen hq hs
    | inr e => exact h.stepRight hq hs

/-- A dialog goes on until the left party has failed and the right one has returned. -/
theorem CutOff.exists_step (hlen : out.length < m) (h : CutOff broken b req m k out s n) :
    s.Finished broken b ∨ ∃ e s', (closing broken).step s e = some s' ∧ Closing s e s' := by
  cases h with
  | failed hleft hright => exact .inl ⟨hleft, hright⟩
  | @asking c n pending l hleft hright hout =>
    right
    have hmove (e : Move α ⊕ Move α) (hq : e.elim Move.Quiet Move.Quiet)
        (he : (s.step e).isSome = true) :
        ∃ e s', (closing broken).step s e = some s' ∧ Closing s e s' := by
      obtain ⟨s', hs'⟩ := Option.isSome_iff_exists.mp he
      exact ⟨.move e, s', hs', hq⟩
    have hleftMove (hl : s.left.flight ≠ [] ∨ s.left.party.Ready s.left.buf) :
        ∃ e s', (closing broken).step s e = some s' ∧ Closing s e s' := by
      obtain ⟨e, hq, he⟩ := exists_moveLeft hl
      exact hmove (.inl e) hq he
    have hrightMove (hr : s.right.flight ≠ [] ∨ s.right.party.Ready s.right.buf) :
        ∃ e s', (closing broken).step s e = some s' ∧ Closing s e s' := by
      obtain ⟨e, hq, he⟩ := exists_moveLeft (s := s.swap) hr
      refine hmove (.inr e) hq ?_
      rw [Dialog.step, Option.isSome_map]
      exact he
    -- the left party writes; then the right one goes on until it returns; then the read fails
    generalize hp : s.left.party = p at hleft
    cases hleft with
    | before => exact hleftMove (.inr (by rw [hp]; trivial))
    | after =>
      by_cases hl : s.left.flight = []
      · by_cases hr : s.right.flight = []
        · rw [Side.unread, hr, List.append_nil, List.append_nil] at hright
          cases hq : s.right.party with
          | write w q => exact hrightMove (.inr (by rw [hq]; trivial))
          | read j next =>
            rw [hq] at hright
            obtain ⟨-, -, hj, -⟩ := hright.of_read
            exact hrightMove (.inr (by rw [hq]; exact hj))
          | ret r =>
            have hbuf := congrArg List.length hout
            rw [Side.unread, List.length_append, List.length_append] at hbuf
            have hshort : s.left.flight = [] ∧ s.left.buf.length < m := ⟨hl, by omega⟩
            refine ⟨.hangUp, { s with left := { s.left with party := .ret broken } }, ?_, trivial⟩
            change stepClosing broken s .hangUp = _
            unfold stepClosing
            rw [hp, hq]
            exact if_pos hshort
        · exact hrightMove (.inl hr)
      · exact hleftMove (.inl hl)

end

/-- How a dialog ends in which the left party fails: it returns nothing else, and every run can
be finished and does not go on for ever. -/
structure Fails (broken : ρ) (b : σ) (s : Dialog α ρ σ) : Prop where
  left : ∀ r, s.left.party = .ret r → r = broken
  finishes : ∃ s', (closing broken).Reaches Closing s s' ∧ s'.Finished broken b
  bounded : ∃ n, ∀ l : List (Event α), (∀ e ∈ l, e.Quiet) →
    ((closing broken).exec (fun _ _ _ => true) s l).isSome = true → l.length ≤ n

section

variable {broken : ρ} {b : σ} {n m : ℕ} {req out : List α} {k : List α → Party α ρ}
  {s : Dialog α ρ σ}

theorem CutOff.finishes (hlen : out.length < m) (h : CutOff broken b req m k out s n) :
    ∃ s', (closing broken).Reaches Closing s s' ∧ s'.Finished broken b := by
  -- by induction on what is left to do
  induction n using Nat.strongRecOn generalizing s with
  | ind n ih =>
    rcases h.exists_step hlen with hfin | ⟨e, s', hs, hq⟩
    · exact ⟨s, .refl s, hfin⟩
    · obtain ⟨n', hn', h'⟩ := h.step hlen hs hq
      obtain ⟨s'', hrun, hfin⟩ := ih n' hn' h'
      exact ⟨s'', (Machine.Reaches.single hs hq).trans hrun, hfin⟩

theorem CutOff.bounded (hlen : out.length < m) (h : CutOff broken b req m k out s n)
    {l : List (Event α)} (hq : ∀ e ∈ l, e.Quiet)
    (hrun : ((closing broken).exec (fun _ _ _ => true) s l).isSome = true) : l.length ≤ n := by
  induction l generalizing s n with
  | nil => exact Nat.zero_le _
  | cons e l ih =>
    cases hs : (closing broken).step s e with
    | none =>
      rw [Machine.exec, hs] at hrun
      cases hrun
    | some s' =>
      obtain ⟨n', hn', h'⟩ := h.step hlen hs (hq e List.mem_cons_self)
      rw [Machine.exec, hs] at hrun
      have hrest := ih h' (fun e' he' => hq e' (List.mem_cons_of_mem e he')) hrun
      rw [List.length_cons]
      omega

/-- **A read of more letters than are said fails**, in every run. -/
theorem cutOff {q : Party α σ} (htold : Says b n q req out) (hlen : out.length < m)
    (hrun : (closing broken).Reaches Closing (start (.write req (.read m k)) q) s) :
    s.Fails broken b := by
  have hstart : ∃ n, CutOff broken b req m k out (start (.write req (.read m k)) q) n :=
    ⟨_, .asking .before htold rfl⟩
  obtain ⟨n', h⟩ := hrun.invariant (I := fun s => ∃ n, CutOff broken b req m k out s n) hstart
    (fun s e s' hI hs hq => by
      obtain ⟨n, hI⟩ := hI
      obtain ⟨n', -, hI'⟩ := hI.step hlen hs hq
      exact ⟨n', hI'⟩)
  refine ⟨fun r hr => ?_, h.finishes hlen, n', fun l hq hl => h.bounded hlen hq hl⟩
  cases h with
  | failed hleft _ =>
    rw [hleft] at hr
    cases hr
    rfl
  | asking hleft _ _ =>
    rw [hr] at hleft
    cases hleft

end

end Dialog

end HuntProxy
