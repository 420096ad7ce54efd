import HuntProxy.Rating.Pool

/-!
# The flags of the blacklist and of the favourites

An address is on the blacklist, or among the favourites, whether it has a rating or not; a
rating that is there carries a copy of this as a flag. The operations on the two sets change
the flag of a rating that is there, and so does a start. A rating that is made has no
flags, and the places that make one do not look at the sets, or only at one of them.

## Main definitions

- `PoolState.Agree` — the flags agree with the sets
- `PoolOp.Creates` — the operation makes a rating for an address

## Main results

- `agree_apply_iff` — when one operation keeps the agreement
- `flags_agree` — the runs in which the flags agree
- `selected_blacklisted` — a proxy on the blacklist that belongs to the pool
-/

namespace HuntProxy

open Ip (Str)

namespace PoolState

/-- **The flags agree with the sets.** -/
def Agree (s : PoolState) : Prop :=
  ∀ addr r, s.ratings.get? addr = some r →
    (r.inBlacklist = true ↔ s.blacklist.get? addr ≠ none) ∧
    (r.isFavorite = true ↔ addr ∈ s.favorites)

end PoolState

/-- The operation makes a rating for the address. -/
def PoolOp.Creates (s : PoolState) (addr : Str) : PoolOp → Prop
  | .select addr' => addr = addr' ∧ addr ≠ [] ∧ s.ratings.get? addr = none
  | .sourceRefresh raw _ => addr ∈ raw ∧ s.ratings.get? addr = none
  | .check addr' _ _ _ => addr = addr' ∧ s.ratings.get? addr = none
  | .importProxies lines _ =>
    addr ∈ lines.filterMap PoolState.importedAddr ∧ s.ratings.get? addr = none ∧
      s.blacklist.get? addr = none
  | .restart =>
    addr ∈ s.workingRows.map WorkingRow.address ∧ s.db.ratings.get? addr = none ∧
      s.db.blacklist.get? addr = none
  | _ => False

/-- What an operation must meet so that the flags agree after it: it makes no rating for an
address of the sets. -/
def PoolOp.Keeps (s : PoolState) (op : PoolOp) : Prop :=
  ∀ addr, op.Creates s addr → s.blacklist.get? addr = none ∧ addr ∉ s.favorites

namespace PoolState

/-! ### The flags of an address -/

/-- The two flags of an address that has a rating. -/
def flagsOf (ratings : Dict Str ProxyRating) (addr : Str) : Option (Bool × Bool) :=
  (ratings.get? addr).map fun r => (r.inBlacklist, r.isFavorite)

/-- The flags that the sets ask for. -/
def wanted (blacklist : Dict Str Str) (favorites : List Str) (addr : Str) : Bool × Bool :=
  ((blacklist.get? addr).isSome, addr ∈ favorites)

theorem agree_iff (s : PoolState) :
    s.Agree ↔ ∀ addr p, flagsOf s.ratings addr = some p → p = wanted s.blacklist s.favorites addr := by
  unfold Agree flagsOf wanted
  constructor
  · intro h addr p hp
    obtain ⟨r, hr, rfl⟩ := Option.map_eq_some_iff.mp hp
    obtain ⟨hblack, hfav⟩ := h addr r hr
    refine Prod.ext ?_ ?_
    · rw [Bool.eq_iff_iff, hblack, Option.isSome_iff_ne_none]
    · rw [Bool.eq_iff_iff, hfav, decide_eq_true_iff]
  · intro h addr r hr
    have hp := h addr _ (by rw [hr]; rfl)
    simp only [Prod.mk.injEq] at hp
    rw [hp.1, hp.2, Option.isSome_iff_ne_none, decide_eq_true_iff]
    exact ⟨Iff.rfl, Iff.rfl⟩

theorem flagsOf_eq_none {ratings : Dict Str ProxyRating} {addr : Str} :
    flagsOf ratings addr = none ↔ ratings.get? addr = none := Option.map_eq_none_iff

theorem flagsOf_insert (ratings : Dict Str ProxyRating) (addr addr' : Str) (r : ProxyRating) :
    flagsOf (ratings.insert addr r) addr' =
      if addr' = addr then some (r.inBlacklist, r.isFavorite) else flagsOf ratings addr' := by
  rw [flagsOf, flagsOf, Dict.get?_insert]
  split <;> rfl

theorem flagsOf_modify (ratings : Dict Str ProxyRating) (addr addr' : Str)
    {f : ProxyRating → ProxyRating} {g : Bool × Bool → Bool × Bool}
    (hf : ∀ r, ((f r).inBlacklist, (f r).isFavorite) = g (r.inBlacklist, r.isFavorite)) :
    flagsOf (ratings.modify addr f) addr' =
      if addr' = addr then (flagsOf ratings addr).map g else flagsOf ratings addr' := by
  rw [flagsOf, flagsOf, flagsOf, Dict.get?_modify]
  split
  · rw [Option.map_map, Option.map_map]
    exact congrArg (fun h => Option.map h (ratings.get? addr)) (funext hf)
  · rfl

/-- The flags of a list of addresses are changed one by one. -/
theorem flagsOf_foldl_modify {ι : Type*} (key : ι → Str) {f : ι → ProxyRating → ProxyRating}
    {g : Bool × Bool → Bool × Bool}
    (hf : ∀ i r, ((f i r).inBlacklist, (f i r).isFavorite) = g (r.inBlacklist, r.isFavorite))
    (hg : ∀ p, g (g p) = g p) (l : List ι) (ratings : Dict Str ProxyRating) (addr : Str) :
    flagsOf (l.foldl (fun rs i => rs.modify (key i) (f i)) ratings) addr =
      if addr ∈ l.map key then (flagsOf ratings addr).map g else flagsOf ratings addr := by
  induction l generalizing ratings with
  | nil => rfl
  | cons i l ih =>
    rw [List.foldl_cons, ih, flagsOf_modify ratings (key i) addr (hf i), List.map_cons]
    by_cases hi : addr = key i
    · subst hi
      rw [if_pos rfl, if_pos List.mem_cons_self]
      split
      · rw [Option.map_map]
        exact congrArg (fun h => Option.map h _) (funext hg)
      · rfl
    · rw [if_neg hi]
      simp only [List.mem_cons, hi, false_or]

/-- The ratings agree with the sets. -/
def AgreeOn (ratings : Dict Str ProxyRating) (blacklist : Dict Str Str) (favorites : List Str) :
    Prop :=
  ∀ addr p, flagsOf ratings addr = some p → p = wanted blacklist favorites addr

/-- **Ratings that are made without flags** agree just when their addresses are in no set. -/
theorem agreeOn_creates {ratings ratings' : Dict Str ProxyRating} {blacklist : Dict Str Str}
    {favorites : List Str} (h : AgreeOn ratings blacklist favorites) (C : Str → Prop)
    (hnew : ∀ addr, C addr → flagsOf ratings' addr = some (false, false))
    (hold : ∀ addr, ¬ C addr → flagsOf ratings' addr = flagsOf ratings addr) :
    AgreeOn ratings' blacklist favorites ↔
      ∀ addr, C addr → blacklist.get? addr = none ∧ addr ∉ favorites := by
  have hnone {addr : Str} : (false, false) = wanted blacklist favorites addr ↔
      blacklist.get? addr = none ∧ addr ∉ favorites := by
    rw [wanted, Prod.mk.injEq, eq_comm, Option.isSome_eq_false_iff, Option.isNone_iff_eq_none,
      @eq_comm Bool false, decide_eq_false_iff_not]
  constructor
  · intro h' addr hC
    exact hnone.mp (h' addr _ (hnew addr hC))
  · intro hkeep addr p hp
    by_cases hC : C addr
    · rw [hnew addr hC] at hp
      rw [← Option.some.inj hp]
      exact hnone.mpr (hkeep addr hC)
    · rw [hold addr hC] at hp
      exact h addr p hp

/-! ### The rows of the ratings -/

/-- The tables know the sets, and no row has a flag that they do not ask for. -/
structure Sound (s : PoolState) : Prop where
  agree : s.Agree
  blacklist : s.db.blacklist = s.blacklist
  favorites : s.db.favorites = s.favorites
  rows : ∀ addr d, s.db.ratings.get? addr = some d →
    (d.inBlacklist.getD false = true → (s.blacklist.get? addr).isSome = true) ∧
    (d.isFavorite.getD false = true → addr ∈ s.favorites)

/-- The row of a rating whose flags agree. -/
theorem row_toDict {s : PoolState} (h : s.Agree) {addr : Str} {r : ProxyRating}
    (hr : s.ratings.get? addr = some r) (now : ℚ) :
    ((r.toDict now).inBlacklist.getD false = true → (s.blacklist.get? addr).isSome = true) ∧
    ((r.toDict now).isFavorite.getD false = true → addr ∈ s.favorites) := by
  obtain ⟨hblack, hfav⟩ := h addr r hr
  exact ⟨fun hflag => Option.isSome_iff_ne_none.mpr (hblack.mp hflag), fun hflag => hfav.mp hflag⟩

/-- After a full save the tables are those of the state. -/
theorem sound_saveState {s : PoolState} (h : s.Agree) : s.saveState.Sound where
  agree := h
  blacklist := rfl
  favorites := rfl
  rows addr d hd := by
    obtain ⟨r, hr, rfl⟩ :=
      Option.map_eq_some_iff.mp ((Dict.get?_mapValues _ s.ratings addr).symm.trans hd)
    exact row_toDict h hr s.now

theorem Sound.saveWorkingFile {s : PoolState} (h : s.Sound) : s.saveWorkingFile.Sound :=
  ⟨h.agree, h.blacklist, h.favorites, h.rows⟩

/-- A row behind an incremental save is an old one, or that of a rating. -/
theorem get?_saveDirty (ratings : Dict Str ProxyRating) (now : ℚ) (dirty : List Str)
    (rows : Dict Str RatingDict) {addr : Str} {d : RatingDict}
    (hd : (dirty.foldl (fun rows addr =>
      match ratings.get? addr with
      | none => rows
      | some r => rows.insert addr (r.toDict now)) rows).get? addr = some d) :
    rows.get? addr = some d ∨ ∃ r, ratings.get? addr = some r ∧ d = r.toDict now := by
  induction dirty generalizing rows with
  | nil => exact .inl hd
  | cons x dirty ih =>
    rw [List.foldl_cons] at hd
    cases hx : ratings.get? x with
    | none =>
      rw [hx] at hd
      exact ih rows hd
    | some r =>
      rw [hx] at hd
      rcases ih _ hd with hrow | hrow
      · rw [Dict.get?_insert] at hrow
        split at hrow
        · next heq =>
          subst heq
          exact .inr ⟨r, hx, (Option.some.inj hrow).symm⟩
        · exact .inl hrow
      · exact .inr hrow

theorem Sound.saveDirtyRatings {s : PoolState} (h : s.Sound) : s.saveDirtyRatings.Sound where
  agree := h.agree
  blacklist := h.blacklist
  favorites := h.favorites
  rows addr d hd := by
    rcases get?_saveDirty s.ratings s.now s.dirty s.db.ratings hd with hrow | ⟨r, hr, rfl⟩
    · exact h.rows addr d hrow
    · exact row_toDict h.agree hr s.now

/-- A change of the ratings and of what waits to be saved. -/
theorem Sound.withRatings {s : PoolState} (h : s.Sound) {ratings : Dict Str ProxyRating}
    {dirty : List Str} (hagree : ({ s with ratings := ratings, dirty := dirty } : PoolState).Agree) :
    ({ s with ratings := ratings, dirty := dirty } : PoolState).Sound :=
  ⟨hagree, h.blacklist, h.favorites, h.rows⟩

/-! ### Changes of the sets -/

/-- A change of one address in a set and in its rating. -/
theorem agreeOn_modify {ratings : Dict Str ProxyRating} {blacklist blacklist' : Dict Str Str}
    {favorites favorites' : List Str} (h : AgreeOn ratings blacklist favorites) {addr : Str}
    {f : ProxyRating → ProxyRating} {g : Bool × Bool → Bool × Bool}
    (hf : ∀ r, ((f r).inBlacklist, (f r).isFavorite) = g (r.inBlacklist, r.isFavorite))
    (hself : g (wanted blacklist favorites addr) = wanted blacklist' favorites' addr)
    (hother : ∀ addr', addr' ≠ addr →
      wanted blacklist favorites addr' = wanted blacklist' favorites' addr') :
    AgreeOn (ratings.modify addr f) blacklist' favorites' := by
  intro addr' p hp
  rw [flagsOf_modify ratings addr addr' hf] at hp
  split at hp
  · next heq =>
    subst heq
    obtain ⟨p', hp', rfl⟩ := Option.map_eq_some_iff.mp hp
    rw [h addr' p' hp', hself]
  · next hne => rw [h addr' p hp, hother addr' hne]

theorem agree_blacklistAdd {s : PoolState} (h : s.Sound) (addr reason : Str) :
    (s.blacklistAdd addr reason).Sound := by
  unfold blacklistAdd
  split
  · exact h
  · refine (sound_saveState ?_).saveWorkingFile
    rw [agree_iff]
    refine agreeOn_modify ((agree_iff s).mp h.agree) (g := fun p => (true, p.2)) (fun _ => rfl) ?_ ?_
    · simp [wanted]
    · intro addr' hne
      simp [wanted, hne]

theorem flags_unmarkBlacklisted (ix : IpIndex) (r : ProxyRating) :
    ((r.unmarkBlacklisted ix).inBlacklist, (r.unmarkBlacklisted ix).isFavorite) =
      (false, r.isFavorite) := by
  obtain ⟨reason, hits, sources, heq⟩ := ProxyRating.applyIpBlacklist_eq
    { r with inBlacklist := false, blacklistReason := [] } ix r.egressIp
  unfold ProxyRating.unmarkBlacklisted
  rw [heq]

theorem agree_blacklistRemove {s : PoolState} (h : s.Sound) (addr : Str) (ix : IpIndex) :
    (s.blacklistRemove addr ix).Sound := by
  refine (sound_saveState ?_).saveWorkingFile
  rw [agree_iff]
  refine agreeOn_modify ((agree_iff s).mp h.agree) (g := fun p => (false, p.2))
    (flags_unmarkBlacklisted ix) ?_ ?_
  · simp [wanted]
  · intro addr' hne
    simp [wanted, hne]

theorem agree_favoriteAdd {s : PoolState} (h : s.Sound) (addr : Str) :
    (s.favoriteAdd addr).Sound := by
  unfold favoriteAdd
  split
  · exact h
  · refine sound_saveState ?_
    rw [agree_iff]
    refine agreeOn_modify ((agree_iff s).mp h.agree) (g := fun p => (p.1, true)) (fun _ => rfl) ?_ ?_
    · simp only [wanted]
      split <;> simp [*]
    · intro addr' hne
      simp only [wanted]
      split <;> simp [hne]

theorem agree_favoriteRemove {s : PoolState} (h : s.Sound) (addr : Str) :
    (s.favoriteRemove addr).Sound := by
  refine sound_saveState ?_
  rw [agree_iff]
  refine agreeOn_modify ((agree_iff s).mp h.agree) (g := fun p => (p.1, false)) (fun _ => rfl) ?_ ?_
  · simp [wanted]
  · intro addr' hne
    simp [wanted, hne]

theorem agree_clearDead {s : PoolState} (h : s.Sound) : s.clearDead.Sound := by
  refine (sound_saveState ?_).saveWorkingFile
  intro addr r hr
  rw [Dict.get?_eraseAll] at hr
  split at hr
  · cases hr
  · exact h.agree addr r hr

/-! ### New ratings -/

theorem agree_select_iff {s : PoolState} (h : s.Sound) (addr : Str) :
    (s.select addr).Agree ↔ PoolOp.Keeps s (.select addr) := by
  rw [agree_iff]
  unfold select
  by_cases hnew : addr ≠ [] ∧ s.ratings.get? addr = none
  · rw [if_pos hnew]
    refine agreeOn_creates ((agree_iff s).mp h.agree) (fun x => PoolOp.Creates s x (.select addr))
      (fun x hx => ?_) (fun x hx => ?_)
    · rw [flagsOf_insert, if_pos hx.1]
      rfl
    · rw [flagsOf_insert, if_neg]
      rintro rfl
      exact hx ⟨rfl, hnew⟩
  · rw [if_neg hnew]
    refine iff_of_true ((agree_iff s).mp h.agree) fun x hx => absurd ?_ hnew
    exact hx.1 ▸ hx.2

/-- The ratings of the fresh addresses. -/
theorem flagsOf_create (codeOf : Str → Str) (sourceIds : Str → List Str) (now : ℚ) (new : List Str)
    (ratings : Dict Str ProxyRating) (addr : Str) :
    flagsOf (new.foldl (fun rs x => rs.insert x (.create codeOf x [] [] (sourceIds x) now)) ratings)
        addr =
      if addr ∈ new then some (false, false) else flagsOf ratings addr := by
  induction new generalizing ratings with
  | nil => rfl
  | cons x new ih =>
    rw [List.foldl_cons, ih, flagsOf_insert]
    by_cases hx : addr = x
    · subst hx
      rw [if_pos rfl, if_pos (List.mem_cons_self (l := new))]
      split <;> rfl
    · simp only [List.mem_cons, hx, false_or, if_false]

theorem agree_sourceRefresh_iff (codeOf : Str → Str) {s : PoolState} (h : s.Sound) (raw : List Str)
    (sourceIds : Str → List Str) :
    (s.sourceRefresh codeOf raw sourceIds).Agree ↔ PoolOp.Keeps s (.sourceRefresh raw sourceIds) := by
  have hsaved : (s.sourceRefresh codeOf raw sourceIds).Agree ↔
      AgreeOn ((raw.filter fun addr => (s.ratings.get? addr).isNone).foldl (fun rs x =>
        rs.insert x (.create codeOf x [] [] (sourceIds x) s.now)) s.ratings) s.blacklist s.favorites := by
    rw [agree_iff]
    unfold sourceRefresh
    dsimp only
    split <;> exact Iff.rfl
  rw [hsaved]
  refine agreeOn_creates ((agree_iff s).mp h.agree)
    (fun x => PoolOp.Creates s x (.sourceRefresh raw sourceIds)) (fun x hx => ?_) (fun x hx => ?_)
  · rw [flagsOf_create, if_pos]
    rw [List.mem_filter, Option.isNone_iff_eq_none]
    exact hx
  · rw [flagsOf_create, if_neg]
    rw [List.mem_filter, Option.isNone_iff_eq_none]
    exact hx

/-- An update leaves the flags of a rating, and makes one without flags. -/
theorem flagsOf_updateRating (codeOf : Str → Str) (ix : IpIndex) (sourceIds : List Str)
    (ratings : Dict Str ProxyRating) (addr : Str) (c : CheckResult) (now : ℚ) (addr' : Str) :
    flagsOf (updateRating codeOf ix sourceIds ratings addr c now) addr' =
      if addr' = addr then some ((flagsOf ratings addr).getD (false, false))
      else flagsOf ratings addr' := by
  rw [updateRating, flagsOf_insert]
  have hkeep (r : ProxyRating) (ip : Str) :
      (((r.applyResult codeOf c now).applyIpBlacklist ix ip).inBlacklist,
        ((r.applyResult codeOf c now).applyIpBlacklist ix ip).isFavorite) =
      (r.inBlacklist, r.isFavorite) := by
    have hspeed : (r.measureSpeed c.speed).inBlacklist = r.inBlacklist ∧
        (r.measureSpeed c.speed).isFavorite = r.isFavorite := by
      unfold ProxyRating.measureSpeed ProxyRating.applySpeed
      split <;> exact ⟨rfl, rfl⟩
    have hmeasured := (r.applyResult codeOf c now).measured_applyIpBlacklist ix ip
    rw [ProxyRating.measured_applyResult] at hmeasured
    split at hmeasured
    · simp only [ProxyRating.measured, Prod.mk.injEq] at hmeasured
      rw [hmeasured.2.2.2.1, hmeasured.2.2.2.2, hspeed.1, hspeed.2]
    · simp only [ProxyRating.measured, Prod.mk.injEq] at hmeasured
      rw [hmeasured.2.2.2.1, hmeasured.2.2.2.2]
  rw [hkeep]
  split
  · rw [flagsOf]
    cases ratings.get? addr <;> rfl
  · rfl

theorem agree_check_iff (codeOf : Str → Str) {s : PoolState} (h : s.Sound) (addr : Str)
    (c : CheckResult) (ix : IpIndex) (sourceIds : List Str) :
    (s.check codeOf addr c ix sourceIds).Agree ↔ PoolOp.Keeps s (.check addr c ix sourceIds) := by
  rw [agree_iff]
  refine agreeOn_creates ((agree_iff s).mp h.agree)
    (fun x => PoolOp.Creates s x (.check addr c ix sourceIds)) (fun x hx => ?_) (fun x hx => ?_)
  · obtain ⟨rfl, hnone⟩ := hx
    rw [check, flagsOf_updateRating, if_pos rfl, flagsOf_eq_none.mpr hnone]
    rfl
  · rw [check, flagsOf_updateRating]
    split
    · next heq =>
      subst heq
      have hsome : s.ratings.get? x ≠ none := fun hnone => hx ⟨rfl, hnone⟩
      rw [Ne, ← flagsOf_eq_none] at hsome
      obtain ⟨p, hp⟩ := Option.ne_none_iff_exists'.mp hsome
      rw [hp]
      rfl
    · rfl

/-! ### An import -/

/-- What an import makes of the flags of an address that it names: a new rating has no flag of
the blacklist, and is marked as a favourite only if it is not one already. -/
def importFlags (mark : Bool) (blacklisted favorite : Bool) : Option (Bool × Bool) → Option (Bool × Bool)
  | some p => some (p.1, p.2 || (mark && !favorite))
  | none => if blacklisted then none else some (false, mark && !favorite)

/-- Naming an address again changes nothing. -/
theorem importFlags_again (mark blacklisted favorite : Bool) (p : Option (Bool × Bool)) :
    importFlags mark blacklisted (favorite || mark) (importFlags mark blacklisted favorite p) =
      importFlags mark blacklisted favorite p := by
  cases p with
  | none => cases blacklisted <;> cases mark <;> cases favorite <;> rfl
  | some p => obtain ⟨p₁, p₂⟩ := p; cases mark <;> cases favorite <;> cases p₂ <;> rfl

/-- One line of an import. -/
theorem importLine_spec (mark : Bool) (s : PoolState) {line addr : Str}
    (hline : importedAddr line = some addr) (x : Str) :
    (importLine mark s line).blacklist = s.blacklist ∧
      (x ∈ (importLine mark s line).favorites ↔ x ∈ s.favorites ∨ (mark = true ∧ x = addr)) ∧
      flagsOf (importLine mark s line).ratings x =
        if x = addr then
          importFlags mark (s.blacklist.get? addr).isSome (addr ∈ s.favorites) (flagsOf s.ratings addr)
        else flagsOf s.ratings x := by
  have haddr : addr ≠ [] := by
    rintro rfl
    simp only [importedAddr] at hline
    split at hline
    · cases hline
    · split at hline
      · cases hline
      · next hne => exact hne (.inl (Option.some.inj hline))
  unfold importLine
  rw [hline]
  dsimp only
  -- The rating is made first, and marked afterwards.
  set t : PoolState :=
    if s.ratings.get? addr = none ∧ s.blacklist.get? addr = none then
      { s with ratings := s.ratings.insert addr (.imported addr s.now) }
    else s with ht
  have hblack : t.blacklist = s.blacklist := by rw [ht]; split <;> rfl
  have hfav : t.favorites = s.favorites := by rw [ht]; split <;> rfl
  have hflags : flagsOf t.ratings x =
      if x = addr then
        importFlags false (s.blacklist.get? addr).isSome (addr ∈ s.favorites) (flagsOf s.ratings addr)
      else flagsOf s.ratings x := by
    rw [ht]
    cases hrated : s.ratings.get? addr with
    | some r =>
      rw [if_neg (fun h => by cases h.1)]
      split
      · next heq =>
        rw [heq, flagsOf, hrated]
        simp [importFlags]
      · rfl
    | none =>
      cases hlisted : s.blacklist.get? addr with
      | some reason =>
        rw [if_neg (fun h => by cases h.2)]
        split
        · next heq =>
          rw [heq, flagsOf, hrated]
          rfl
        · rfl
      | none =>
        rw [if_pos ⟨rfl, rfl⟩, flagsOf_insert]
        split
        · rw [flagsOf, hrated]
          rfl
        · rfl
  by_cases hmark : mark = true ∧ addr ∉ t.favorites
  · rw [if_pos hmark, favoriteAdd, if_neg haddr]
    refine ⟨hblack, ?_, ?_⟩
    · change x ∈ (if addr ∈ t.favorites then t.favorites else t.favorites ++ [addr]) ↔ _
      rw [if_neg hmark.2, hfav, List.mem_append, List.mem_singleton]
      simp [hmark.1]
    · change flagsOf (t.ratings.modify addr (·.markFavorite true)) x = _
      rw [flagsOf_modify t.ratings addr x (g := fun p => (p.1, true)) (fun _ => rfl)]
      rw [hfav] at hmark
      split
      · next heq =>
        subst heq
        rw [hflags, if_pos rfl]
        cases hp : flagsOf s.ratings x with
        | none => cases (s.blacklist.get? x).isSome <;> simp [importFlags, hmark]
        | some p => simp [importFlags, hmark]
      · next hne => rw [hflags, if_neg hne]
  · rw [if_neg hmark]
    rw [hfav] at hmark
    refine ⟨hblack, ?_, ?_⟩
    · rw [hfav]
      constructor
      · exact Or.inl
      · rintro (hx | ⟨hm, rfl⟩)
        · exact hx
        · by_contra hnot
          exact hmark ⟨hm, hnot⟩
    · rw [hflags]
      have hsame : (mark && !decide (addr ∈ s.favorites)) = false := by
        rw [Bool.eq_false_iff]
        intro h
        simp only [Bool.and_eq_true, Bool.not_eq_true', decide_eq_false_iff_not] at h
        exact hmark h
      split
      · cases flagsOf s.ratings addr with
        | none => simp [importFlags, hsame]
        | some p => simp [importFlags, hsame]
      · rfl

/-- **The lines of an import**, one after the other. -/
theorem importLines_spec (mark : Bool) (lines : List Str) (s : PoolState) (x : Str) :
    (lines.foldl (importLine mark) s).blacklist = s.blacklist ∧
      (x ∈ (lines.foldl (importLine mark) s).favorites ↔
        x ∈ s.favorites ∨ (mark = true ∧ x ∈ lines.filterMap importedAddr)) ∧
      flagsOf (lines.foldl (importLine mark) s).ratings x =
        if x ∈ lines.filterMap importedAddr then
          importFlags mark (s.blacklist.get? x).isSome (x ∈ s.favorites) (flagsOf s.ratings x)
        else flagsOf s.ratings x := by
  induction lines generalizing s with
  | nil => simp
  | cons line lines ih =>
    rw [List.foldl_cons, List.filterMap_cons]
    cases hline : importedAddr line with
    | none =>
      have hskip : importLine mark s line = s := by rw [importLine, hline]
      rw [hskip]
      exact ih s
    | some addr =>
      obtain ⟨hblack, hfav, hflags⟩ := importLine_spec mark s hline x
      obtain ⟨hblack', hfav', hflags'⟩ := ih (importLine mark s line)
      refine ⟨hblack'.trans hblack, ?_, ?_⟩
      · rw [hfav', hfav, List.mem_cons, or_assoc, ← and_or_left]
      · rw [hflags', hflags, hblack]
        by_cases hx : x = addr
        · subst hx
          rw [if_pos rfl, if_pos (List.mem_cons_self (a := x))]
          split
          · have hnow : decide (x ∈ (importLine mark s line).favorites) =
                (decide (x ∈ s.favorites) || mark) := by
              rw [Bool.eq_iff_iff, decide_eq_true_iff, hfav, Bool.or_eq_true, decide_eq_true_iff,
                and_iff_left rfl]
            rw [hnow, importFlags_again]
          · rfl
        · have hsame : decide (x ∈ (importLine mark s line).favorites) = decide (x ∈ s.favorites) := by
            rw [decide_eq_decide, hfav]
            exact or_iff_left fun h => hx h.2
          rw [if_neg hx, hsame]
          simp only [List.mem_cons, hx, false_or]

theorem agree_import_iff {s : PoolState} (h : s.Sound) (lines : List Str) (mark : Bool) :
    (s.importProxies lines mark).Agree ↔ PoolOp.Keeps s (.importProxies lines mark) := by
  have hagree := (agree_iff s).mp h.agree
  have hspec := importLines_spec mark lines s
  -- An address agrees behind the import unless it is new and a favourite already.
  have hwanted (x : Str) :
      wanted (lines.foldl (importLine mark) s).blacklist (lines.foldl (importLine mark) s).favorites x =
        ((s.blacklist.get? x).isSome,
          decide (x ∈ s.favorites) || (mark && decide (x ∈ lines.filterMap importedAddr))) := by
    obtain ⟨hblack, hfav, -⟩ := hspec x
    rw [wanted, hblack]
    refine congrArg _ ?_
    rw [Bool.eq_iff_iff, decide_eq_true_iff, hfav, Bool.or_eq_true, Bool.and_eq_true,
      decide_eq_true_iff, decide_eq_true_iff]
  rw [agree_iff]
  change (∀ x p, flagsOf (lines.foldl (importLine mark) s).ratings x = some p →
    p = wanted (lines.foldl (importLine mark) s).blacklist (lines.foldl (importLine mark) s).favorites x) ↔ _
  simp only [hwanted]
  constructor
  · intro h' x hx
    obtain ⟨hnamed, hnone, hlisted⟩ := hx
    refine ⟨hlisted, fun hfav => ?_⟩
    have hp := h' x (false, mark && !decide (x ∈ s.favorites)) (by
      rw [(hspec x).2.2, if_pos hnamed, flagsOf_eq_none.mpr hnone, importFlags, hlisted]
      rfl)
    simp [hfav] at hp
  · intro hkeep x p hp
    rw [(hspec x).2.2] at hp
    by_cases hnamed : x ∈ lines.filterMap importedAddr
    · rw [if_pos hnamed] at hp
      cases hold : flagsOf s.ratings x with
      | some q =>
        rw [hold] at hp
        rw [← Option.some.inj hp, hagree x q hold, wanted]
        cases mark <;> cases hfav : decide (x ∈ s.favorites) <;> simp [hnamed]
      | none =>
        rw [hold, importFlags] at hp
        cases hlisted : s.blacklist.get? x with
        | some reason =>
          rw [hlisted] at hp
          cases hp
        | none =>
          have hnot := (hkeep x ⟨hnamed, flagsOf_eq_none.mp hold, hlisted⟩).2
          rw [hlisted] at hp
          rw [← Option.some.inj hp]
          simp [hnot, hnamed]
    · rw [if_neg hnamed] at hp
      rw [hagree x p hp, wanted]
      simp [hnamed]

/-! ### A start -/

/-- The flags behind the load of the table. -/
theorem flagsOf_loadedRatings (codeOf : Str → Str) (db : PoolDb) (addr : Str) :
    flagsOf (loadedRatings codeOf db) addr =
      (db.ratings.get? addr).map fun d =>
        (d.inBlacklist.getD false || (db.blacklist.get? addr).isSome,
          d.isFavorite.getD false || decide (addr ∈ db.favorites)) := by
  have hkeys : addr ∈ db.blacklist.items.map Prod.fst ↔ (db.blacklist.get? addr).isSome = true := by
    rw [Option.isSome_iff_exists]
    exact Dict.mem_keys
  unfold loadedRatings
  dsimp only
  rw [flagsOf_foldl_modify (fun addr => addr) (g := fun p => (p.1, true)) (fun _ _ => rfl)
      (fun _ => rfl),
    flagsOf_foldl_modify Prod.fst (g := fun p => (true, p.2)) (fun _ _ => rfl) (fun _ => rfl)]
  rw [List.map_id', flagsOf, Dict.get?_mapValues, Option.map_map]
  cases db.ratings.get? addr with
  | none =>
    split <;> split <;> rfl
  | some d =>
    by_cases hfav : addr ∈ db.favorites <;> by_cases hlisted : addr ∈ db.blacklist.items.map Prod.fst
    all_goals
      have hsome := hkeys
      simp only [hlisted, true_iff, false_iff, Bool.not_eq_true] at hsome
      simp [hfav, hlisted, hsome, buildRating, ProxyRating.repairRatingCodes]

/-- The ratings of the working set. -/
theorem flagsOf_loadWorking (codeOf : Str → Str) (blacklist : Dict Str Str) (now : ℚ)
    (rows : List WorkingRow) (ratings : Dict Str ProxyRating) (addr : Str) :
    flagsOf (rows.foldl (loadWorkingRow codeOf blacklist now) ratings) addr =
      if addr ∈ rows.map WorkingRow.address ∧ ratings.get? addr = none ∧ blacklist.get? addr = none then
        some (false, false)
      else flagsOf ratings addr := by
  induction rows generalizing ratings with
  | nil => simp
  | cons row rows ih =>
    rw [List.foldl_cons, ih, List.map_cons]
    by_cases hnew : ratings.get? row.address = none ∧ blacklist.get? row.address = none
    · rw [loadWorkingRow, if_pos hnew, Dict.get?_insert, flagsOf_insert]
      by_cases haddr : addr = row.address
      · subst haddr
        rw [if_pos rfl, if_pos rfl, if_neg (fun h => by cases h.2.1),
          if_pos ⟨List.mem_cons_self, hnew⟩]
        rfl
      · rw [if_neg haddr, if_neg haddr]
        simp only [List.mem_cons, haddr, false_or]
    · rw [loadWorkingRow, if_neg hnew]
      by_cases haddr : addr = row.address
      · subst haddr
        rw [if_neg fun h => hnew h.2, if_neg fun h => hnew h.2]
      · simp only [List.mem_cons, haddr, false_or]

/-- A rating of the table has the flags that the sets ask for. -/
theorem agreeOn_loadedRatings (codeOf : Str → Str) {s : PoolState} (h : s.Sound) :
    AgreeOn (loadedRatings codeOf s.db) s.blacklist s.favorites := by
  intro addr p hp
  rw [flagsOf_loadedRatings, h.blacklist, h.favorites] at hp
  obtain ⟨d, hd, rfl⟩ := Option.map_eq_some_iff.mp hp
  obtain ⟨hblack, hfav⟩ := h.rows addr d hd
  rw [wanted]
  refine Prod.ext ?_ ?_
  · rw [Bool.eq_iff_iff, Bool.or_eq_true]
    exact ⟨fun hor => hor.elim hblack id, Or.inr⟩
  · rw [Bool.eq_iff_iff, Bool.or_eq_true, decide_eq_true_iff]
    exact ⟨fun hor => hor.elim hfav id, Or.inr⟩

theorem agree_restart_iff (codeOf : Str → Str) {s : PoolState} (h : s.Sound) :
    (s.restart codeOf).Agree ↔ PoolOp.Keeps s .restart := by
  have hnone (addr : Str) : (loadedRatings codeOf s.db).get? addr = none ↔ s.db.ratings.get? addr = none := by
    rw [← flagsOf_eq_none, flagsOf_loadedRatings, Option.map_eq_none_iff]
  rw [agree_iff, restart]
  dsimp only
  rw [h.blacklist, h.favorites]
  refine agreeOn_creates (agreeOn_loadedRatings codeOf h) (fun x => PoolOp.Creates s x .restart)
    (fun x hx => ?_) (fun x hx => ?_)
  · rw [flagsOf_loadWorking, if_pos]
    rw [hnone, ← h.blacklist]
    exact hx
  · rw [flagsOf_loadWorking, if_neg]
    rw [hnone, ← h.blacklist]
    exact hx

/-! ### One operation -/

variable (codeOf : Str → Str)

/-- **An operation keeps the agreement just when it makes no rating for an address of the sets.** -/
theorem agree_apply_iff {s : PoolState} (h : s.Sound) (op : PoolOp) :
    (s.apply codeOf op).Agree ↔ op.Keeps s := by
  cases op with
  | wait until_ => exact iff_of_true h.agree fun _ hx => hx.elim
  | blacklistAdd addr reason =>
    exact iff_of_true (agree_blacklistAdd h addr reason).agree fun _ hx => hx.elim
  | blacklistRemove addr ix =>
    exact iff_of_true (agree_blacklistRemove h addr ix).agree fun _ hx => hx.elim
  | favoriteAdd addr => exact iff_of_true (agree_favoriteAdd h addr).agree fun _ hx => hx.elim
  | favoriteRemove addr => exact iff_of_true (agree_favoriteRemove h addr).agree fun _ hx => hx.elim
  | select addr => exact agree_select_iff h addr
  | sourceRefresh raw sourceIds => exact agree_sourceRefresh_iff codeOf h raw sourceIds
  | check addr c ix sourceIds => exact agree_check_iff codeOf h addr c ix sourceIds
  | importProxies lines markFavorite => exact agree_import_iff h lines markFavorite
  | clearDead => exact iff_of_true (agree_clearDead h).agree fun _ hx => hx.elim
  | saveState => exact iff_of_true h.agree fun _ hx => hx.elim
  | saveDirtyRatings => exact iff_of_true h.agree fun _ hx => hx.elim
  | saveWorkingFile => exact iff_of_true h.agree fun _ hx => hx.elim
  | restart => exact agree_restart_iff codeOf h

/-- The tables stay sound as long as the flags agree. -/
theorem Sound.apply {s : PoolState} (h : s.Sound) {op : PoolOp}
    (hagree : (s.apply codeOf op).Agree) : (s.apply codeOf op).Sound := by
  cases op with
  | wait until_ => exact ⟨h.agree, h.blacklist, h.favorites, h.rows⟩
  | blacklistAdd addr reason => exact agree_blacklistAdd h addr reason
  | blacklistRemove addr ix => exact agree_blacklistRemove h addr ix
  | favoriteAdd addr => exact agree_favoriteAdd h addr
  | favoriteRemove addr => exact agree_favoriteRemove h addr
  | select addr =>
    simp only [PoolState.apply, PoolState.select] at hagree ⊢
    split
    · next hnew =>
      rw [if_pos hnew] at hagree
      exact h.withRatings hagree
    · exact h
  | sourceRefresh raw sourceIds =>
    simp only [PoolState.apply, PoolState.sourceRefresh] at hagree ⊢
    split
    · next hnew =>
      rw [if_pos hnew] at hagree
      exact h.withRatings hagree
    · next hnew =>
      rw [if_neg hnew] at hagree
      exact (h.withRatings hagree).saveDirtyRatings
  | check addr c ix sourceIds => exact h.withRatings hagree
  | importProxies lines markFavorite => exact (sound_saveState hagree).saveWorkingFile
  | clearDead => exact agree_clearDead h
  | saveState => exact sound_saveState h.agree
  | saveDirtyRatings => exact h.saveDirtyRatings
  | saveWorkingFile => exact h.saveWorkingFile
  | restart =>
    refine ⟨hagree, rfl, rfl, fun addr d hd => ?_⟩
    have hrow := h.rows addr d hd
    rwa [← h.blacklist, ← h.favorites] at hrow

theorem sound_start (workingFile : List WorkingRow) (now : ℚ) : (start workingFile now).Sound where
  agree addr r hr := by
    rw [start, Dict.get?_empty] at hr
    cases hr
  blacklist := rfl
  favorites := rfl
  rows addr d hd := by
    rw [start, Dict.get?_empty] at hd
    cases hd

end PoolState

open PoolState

/-- **The flags agree with the sets** in every run that makes no rating for an address of the
sets, and a run after each of whose operations they agree is one of these. -/
theorem flags_agree (codeOf : Str → Str) (workingFile : List WorkingRow) (now : ℚ) (s : PoolState) :
    ((PoolState.machine codeOf).Reaches (fun s op _ => op.Keeps s) (start workingFile now) s →
        s.Agree) ∧
      ((PoolState.machine codeOf).Reaches (fun _ _ s' => s'.Agree) (start workingFile now) s →
        (PoolState.machine codeOf).Reaches (fun s op _ => op.Keeps s) (start workingFile now) s) := by
  have hstart := sound_start workingFile now
  constructor
  · intro h
    refine (h.invariant hstart fun s op s' hs hstep hkeeps => ?_ : s.Sound).agree
    cases hstep
    exact hs.apply codeOf ((agree_apply_iff codeOf hs op).mpr hkeeps)
  · intro h
    refine (Machine.Reaches.of_exact (I := Sound) h hstart fun s op s' hs hstep hagree => ?_).1
    cases hstep
    exact ⟨(agree_apply_iff codeOf hs op).mp hagree, hs.apply codeOf hagree⟩

theorem flags_agree_select : ((start [] 1).select sampleAddr).Agree :=
  (flags_agree id [] 1 _).1 (Machine.Reaches.single (a := .select sampleAddr) rfl
    fun _ _ => ⟨rfl, List.not_mem_nil⟩)

/-- **A proxy on the blacklist belongs to the pool** after it has been selected. -/
theorem selected_blacklisted :
    ∃ s r, (PoolState.machine id).Reaches Machine.anyStep (start [] 1) s ∧
      s.ratings.get? sampleAddr = some r ∧ s.blacklist.get? sampleAddr ≠ none ∧
      r.inBlacklist = false ∧ r.poolEligible = true := by
  refine ⟨_, .selected sampleAddr 1,
    (Machine.Reaches.single (a := .blacklistAdd sampleAddr []) rfl trivial).trans
      (Machine.Reaches.single (a := .select sampleAddr) rfl trivial), ?_, ?_, rfl, ?_⟩
  · decide +kernel
  · decide +kernel
  · decide +kernel

end HuntProxy
