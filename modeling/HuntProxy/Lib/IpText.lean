import HuntProxy.Lib.Numeral
import Mathlib.Data.List.TakeWhile

/-!
# The texts of IP addresses

Internet addresses as numbers of 32 or 128 bits, their canonical texts, and the reader of
the `ipaddress` module: four decimal octets without leading zeros, or eight hexadecimal
groups, a run of which may be left out at `::` and the last two of which may be written as
four octets; an IPv6 address may carry a zone behind a `%`.

## Main definitions

- `Address`, `Address.text` — addresses and their canonical texts
- `ipAddress` — the reader

## Main results

- `ipAddress_text` — the reader reads the canonical text of an address
- `text_injective` — an address is known by its canonical text
-/

namespace HuntProxy.Ip

abbrev Str := List Char

/-! ### Numbers by their places -/

/-- The last `k` places of a number in base `b`, from the highest to the lowest. -/
def places (b : ℕ) : ℕ → ℕ → List ℕ
  | 0, _ => []
  | k + 1, n => places b k (n / b) ++ [n % b]

/-- The number with the given places. -/
def valueOf (b : ℕ) (l : List ℕ) : ℕ := l.foldl (fun acc d => acc * b + d) 0

@[simp] theorem length_places (b k n : ℕ) : (places b k n).length = k := by
  induction k generalizing n with
  | zero => rfl
  | succ k ih => rw [places, List.length_append, ih, List.length_singleton]

theorem valueOf_places (b k n : ℕ) : valueOf b (places b k n) = n % b ^ k := by
  induction k generalizing n with
  | zero => simp [places, valueOf, Nat.mod_one]
  | succ k ih =>
    have hprev : (places b k (n / b)).foldl (fun acc d => acc * b + d) 0 = n / b % b ^ k := ih (n / b)
    rw [places, valueOf, List.foldl_append, hprev, List.foldl_cons, List.foldl_nil,
      Nat.pow_succ', Nat.mod_mul, Nat.mul_comm, Nat.add_comm]

theorem lt_of_mem_places {b k n d : ℕ} (hb : 0 < b) (h : d ∈ places b k n) : d < b := by
  induction k generalizing n with
  | zero => cases h
  | succ k ih =>
    rcases List.mem_append.mp h with h | h
    · exact ih h
    · rw [List.mem_singleton.mp h]
      exact Nat.mod_lt n hb

/-! ### IPv4 -/

/-- An octet: at most three decimal digits and no superfluous zero in front. -/
def octet (s : Str) : Option ℕ :=
  if s.length ≤ 3 ∧ (s = ['0'] ∨ s.head? ≠ some '0') then
    (Numeral.read 10 s).filter (· ≤ 255)
  else none

/-- The number of a text of four octets. -/
def read4 (s : Str) : Option ℕ :=
  if (s.splitOn '.').length = 4 then ((s.splitOn '.').mapM octet).map (valueOf 256) else none

/-- The text of an IPv4 address. -/
def text4 (n : ℕ) : Str := ['.'].intercalate ((places 256 4 n).map (Nat.toDigits 10))

/-! ### IPv6 -/

/-- A group of at most four hexadecimal digits. -/
def hextet (s : Str) : Option ℕ := if s.length ≤ 4 then Numeral.read 16 s else none

/-- Groups, the last of which may be an IPv4 address in the place of two groups. -/
def readGroups : List Str → Option (List ℕ)
  | [] => some []
  | [p] => if '.' ∈ p then (read4 p).map (places 65536 2) else (hextet p).map ([·])
  | p :: q :: rest => (hextet p).bind (fun h => (readGroups (q :: rest)).map (h :: ·))

/-- The groups behind a `::`; when there are none, the cut leaves an empty part there. -/
def behindGap : List Str → Option (List Str)
  | [] => none
  | [[]] => some []
  | lo => some lo

/-- The groups on the two sides of the `::`. -/
def sides : List Str → Option (List Str × List Str)
  | [] :: [] :: lo => (behindGap lo).map (Prod.mk [])
  | [] :: _ => none
  | parts =>
    match parts.dropWhile (· ≠ []) with
    | [] :: lo => (behindGap lo).map (Prod.mk (parts.takeWhile (· ≠ [])))
    | _ => none

/-- The eight groups of an IPv6 address that has been cut at its colons. -/
def readParts (parts : List Str) : Option (List ℕ) :=
  if [] ∈ parts then
    (sides parts).bind fun p => (p.1.mapM hextet).bind fun hi => (readGroups p.2).bind fun lo =>
      if hi.length + lo.length ≤ 7 then
        some (hi ++ List.replicate (8 - (hi.length + lo.length)) 0 ++ lo)
      else none
  else (readGroups parts).filter (fun l => l.length = 8)

/-- The number of the text of an IPv6 address without a zone. -/
def read6 (s : Str) : Option ℕ := (readParts (s.splitOn ':')).map (valueOf 65536)

/-- How many zeros follow each other from place `i` on. -/
def zerosAt (l : List ℕ) (i : ℕ) : ℕ := ((l.drop i).takeWhile (· = 0)).length

/-- The beginning of the first one of the longest runs of zeros. -/
def longestRun (l : List ℕ) : ℕ :=
  (List.range l.length).foldl (fun i j => if zerosAt l i < zerosAt l j then j else i) 0

/-- The parts of a text that leaves out the groups between `hi` and `lo`: an end of the text
next to the gap is an empty part of its own. -/
def gapped (hi lo : List ℕ) : List Str :=
  (if hi = [] then [[]] else hi.map (Nat.toDigits 16)) ++ [] ::
    (if lo = [] then [[]] else lo.map (Nat.toDigits 16))

/-- The parts of the canonical text: the longest run of at least two zeros is left out. -/
def canonicalParts (l : List ℕ) : List Str :=
  let i := longestRun l
  if zerosAt l i < 2 then l.map (Nat.toDigits 16)
  else gapped (l.take i) (l.drop (i + zerosAt l i))

/-- The canonical text of an IPv6 address. -/
def text6 (n : ℕ) : Str := [':'].intercalate (canonicalParts (places 65536 8 n))

/-! ### Addresses -/

inductive Family
  | v4
  | v6
  deriving DecidableEq, Repr

/-- The length of an address. -/
def Family.bits : Family → ℕ
  | .v4 => 32
  | .v6 => 128

/-- The zone of an IPv6 address, its `scope_id`. -/
abbrev Zone := { z : Str // z ≠ [] ∧ '%' ∉ z ∧ '/' ∉ z }

/-- An IP address. -/
structure Address where
  family : Family
  value : ℕ
  zone : Option Zone
  inRange : value < 2 ^ family.bits
  unzoned : family = .v4 → zone = none
  deriving DecidableEq

/-- An IPv4 address. -/
def Address.v4 (n : ℕ) : Option Address :=
  if h : n < 2 ^ 32 then some ⟨.v4, n, none, h, fun _ => rfl⟩ else none

/-- An IPv6 address. -/
def Address.v6 (zone : Option Zone) (n : ℕ) : Option Address :=
  if h : n < 2 ^ 128 then some ⟨.v6, n, zone, h, nofun⟩ else none

/-- `str` of an address. -/
def Address.text (a : Address) : Str :=
  match a.family with
  | .v4 => text4 a.value
  | .v6 => text6 a.value ++ a.zone.elim [] (fun z => '%' :: z.val)

/-- `IPv6Address`, applied to a text. -/
def ipv6Address (s : Str) : Option Address :=
  match s.splitOn '%' with
  | [a] => (read6 a).bind (Address.v6 none)
  | [a, z] =>
    if h : z ≠ [] ∧ '%' ∉ z ∧ '/' ∉ z then (read6 a).bind (Address.v6 (some ⟨z, h⟩)) else none
  | _ => none

/-- `ip_address`, applied to a text. -/
def ipAddress (s : Str) : Option Address :=
  if '/' ∈ s then none
  else
    match read4 s with
    | some n => Address.v4 n
    | none => ipv6Address s

/-! ### Reading back -/

theorem octet_toDigits {d : ℕ} (hd : d < 256) : octet (Nat.toDigits 10 d) = some d := by
  have hlen : (Nat.toDigits 10 d).length ≤ 3 :=
    (Nat.length_toDigits_le_iff (by decide) (by decide)).mpr (Nat.lt_of_lt_of_le hd (by decide))
  have hhead : Nat.toDigits 10 d = ['0'] ∨ (Nat.toDigits 10 d).head? ≠ some '0' := by
    by_cases hzero : d = 0
    · exact .inl (hzero ▸ Nat.toDigits_zero 10)
    · exact .inr (Numeral.head?_toDigits (by decide) hzero)
  rw [octet, if_pos ⟨hlen, hhead⟩, Numeral.read_toDigits (by decide) (by decide)]
  simp [Nat.le_of_lt_succ hd]

theorem hextet_toDigits {d : ℕ} (hd : d < 65536) : hextet (Nat.toDigits 16 d) = some d := by
  have hlen : (Nat.toDigits 16 d).length ≤ 4 :=
    (Nat.length_toDigits_le_iff (by decide) (by decide)).mpr (Nat.lt_of_lt_of_le hd (by decide))
  rw [hextet, if_pos hlen, Numeral.read_toDigits (by decide) (by decide)]

theorem mapM_map_of {α β : Type} {read : β → Option α} {write : α → β} {l : List α}
    (h : ∀ d ∈ l, read (write d) = some d) : (l.map write).mapM read = some l := by
  induction l with
  | nil => rfl
  | cons d l ih =>
    rw [List.map_cons, List.mapM_cons, h d List.mem_cons_self,
      ih (fun d' hd' => h d' (List.mem_cons_of_mem d hd'))]
    rfl

theorem splitOn_text4 (n : ℕ) : (text4 n).splitOn '.' = (places 256 4 n).map (Nat.toDigits 10) := by
  refine List.splitOn_intercalate '.' (fun s hs => ?_) ?_
  · obtain ⟨d, -, rfl⟩ := List.mem_map.mp hs
    exact Numeral.not_mem_toDigits (by decide) (by decide) d (by decide)
  · simp [places]

theorem read4_text4 {n : ℕ} (hn : n < 2 ^ 32) : read4 (text4 n) = some n := by
  have hmod : n % 256 ^ 4 = n := Nat.mod_eq_of_lt (by simpa using hn)
  rw [read4, splitOn_text4, if_pos (by simp), mapM_map_of (fun d hd => octet_toDigits
    (lt_of_mem_places (by decide) hd)), Option.map_some, valueOf_places, hmod]

theorem toDigits_ne_nil (n : ℕ) : Nat.toDigits 16 n ≠ [] := Nat.toDigits_ne_nil

theorem readGroups_map {l : List ℕ} (hl : ∀ d ∈ l, d < 65536) :
    readGroups (l.map (Nat.toDigits 16)) = some l := by
  induction l with
  | nil => rfl
  | cons d l ih =>
    have hd := hextet_toDigits (hl d List.mem_cons_self)
    cases l with
    | nil =>
      have hdot : '.' ∉ Nat.toDigits 16 d :=
        Numeral.not_mem_toDigits (by decide) (by decide) d (by decide)
      rw [List.map_cons, List.map_nil, readGroups, if_neg hdot, hd]
      rfl
    | cons e l =>
      have ih := ih (fun d' hd' => hl d' (List.mem_cons_of_mem d hd'))
      rw [List.map_cons, List.map_cons, readGroups, hd, Option.bind_some]
      rw [List.map_cons] at ih
      rw [ih]
      rfl

theorem behindGap_groups (lo : List ℕ) :
    behindGap (if lo = [] then [[]] else lo.map (Nat.toDigits 16)) =
      some (lo.map (Nat.toDigits 16)) := by
  cases lo with
  | nil => rfl
  | cons d lo =>
    rw [if_neg (List.cons_ne_nil d lo), List.map_cons]
    obtain ⟨c, cs, hc⟩ := List.exists_cons_of_ne_nil (toDigits_ne_nil d)
    rw [hc]
    rfl

theorem sides_gapped (hi lo : List ℕ) :
    sides (gapped hi lo) = some (hi.map (Nat.toDigits 16), lo.map (Nat.toDigits 16)) := by
  cases hi with
  | nil =>
    have hlo := behindGap_groups lo
    rw [gapped, if_pos rfl, List.cons_append, List.nil_append, sides, hlo]
    rfl
  | cons d hi =>
    have htake : (gapped (d :: hi) lo).takeWhile (· ≠ []) = (d :: hi).map (Nat.toDigits 16) := by
      rw [gapped, if_neg (List.cons_ne_nil d hi), List.takeWhile_append_of_pos (by simp)]
      simp
    have hdrop : (gapped (d :: hi) lo).dropWhile (· ≠ []) =
        [] :: (if lo = [] then [[]] else lo.map (Nat.toDigits 16)) := by
      rw [gapped, if_neg (List.cons_ne_nil d hi), List.dropWhile_append_of_pos (by simp)]
      simp
    have hlo := behindGap_groups lo
    obtain ⟨c, cs, hc⟩ := List.exists_cons_of_ne_nil (toDigits_ne_nil d)
    have hparts : ∃ rest, gapped (d :: hi) lo = (c :: cs) :: rest := by
      rw [gapped, if_neg (List.cons_ne_nil d hi), List.map_cons, hc]
      exact ⟨_, rfl⟩
    obtain ⟨rest, hparts⟩ := hparts
    rw [hparts] at htake hdrop ⊢
    rw [sides, hdrop, htake]
    · simp only [hlo, Option.map_some]
    · nofun
    · nofun

/-- A text that leaves groups out is read with zeros in their place. -/
theorem readParts_gapped {hi lo : List ℕ} (hhi : ∀ d ∈ hi, d < 65536) (hlo : ∀ d ∈ lo, d < 65536)
    (hlen : hi.length + lo.length ≤ 7) :
    readParts (gapped hi lo) = some (hi ++ List.replicate (8 - (hi.length + lo.length)) 0 ++ lo) := by
  have hmem : [] ∈ gapped hi lo := by simp [gapped]
  rw [readParts, if_pos hmem, sides_gapped, Option.bind_some,
    mapM_map_of (fun d hd => hextet_toDigits (hhi d hd)), Option.bind_some, readGroups_map hlo,
    Option.bind_some, if_pos hlen]

/-- The run of zeros at a place, and what stands before and behind it. -/
theorem zerosAt_split (l : List ℕ) (i : ℕ) :
    l.take i ++ List.replicate (zerosAt l i) 0 ++ l.drop (i + zerosAt l i) = l := by
  have hrun : (l.drop i).takeWhile (· = 0) = List.replicate (zerosAt l i) 0 := by
    refine List.eq_replicate_iff.mpr ⟨rfl, fun d hd => ?_⟩
    simpa using List.mem_takeWhile_imp hd
  have hrest : (l.drop i).dropWhile (· = 0) = l.drop (i + zerosAt l i) := by
    rw [← List.drop_drop]
    have hsplit := List.takeWhile_append_dropWhile (p := fun d => decide (d = 0)) (l := l.drop i)
    conv_rhs => rw [← hsplit]
    exact (List.drop_left' rfl).symm
  rw [← hrun, ← hrest, List.append_assoc, List.takeWhile_append_dropWhile, List.take_append_drop]

theorem readParts_canonical {l : List ℕ} (hlen : l.length = 8) (hl : ∀ d ∈ l, d < 65536) :
    readParts (canonicalParts l) = some l := by
  unfold canonicalParts
  dsimp only
  split
  · have hmem : [] ∉ l.map (Nat.toDigits 16) := by
      intro h
      obtain ⟨d, -, hd⟩ := List.mem_map.mp h
      exact toDigits_ne_nil d hd
    rw [readParts, if_neg hmem, readGroups_map hl]
    simp [hlen]
  · next hrun =>
    generalize hi : longestRun l = i at hrun
    have hsplit := zerosAt_split l i
    have hcount := congrArg List.length hsplit
    simp only [List.length_append, List.length_replicate, hlen] at hcount
    rw [readParts_gapped (fun d hd => hl d (List.mem_of_mem_take hd))
      (fun d hd => hl d (List.mem_of_mem_drop hd)) (by omega)]
    have hzeros : 8 - ((l.take i).length + (l.drop (i + zerosAt l i)).length) = zerosAt l i := by
      omega
    rw [hzeros, hsplit]

/-! ### The characters of a text -/

theorem mem_intercalate {sep c : Char} {parts : List Str} (h : c ∈ [sep].intercalate parts) :
    c = sep ∨ ∃ p ∈ parts, c ∈ p := by
  induction parts with
  | nil => cases h
  | cons p parts ih =>
    cases parts with
    | nil =>
      rw [List.intercalate_singleton] at h
      exact .inr ⟨p, List.mem_cons_self, h⟩
    | cons q parts =>
      rw [List.intercalate_cons_cons, List.mem_append, List.mem_append] at h
      rcases h with (h | h) | h
      · exact .inr ⟨p, List.mem_cons_self, h⟩
      · exact .inl (List.mem_singleton.mp h)
      · refine (ih h).imp_right ?_
        rintro ⟨r, hr, hc⟩
        exact ⟨r, List.mem_cons_of_mem p hr, hc⟩

theorem mem_intercalate_of_mem {sep c : Char} {parts : List Str} {p : Str} (hp : p ∈ parts)
    (hc : c ∈ p) : c ∈ [sep].intercalate parts := by
  induction parts with
  | nil => cases hp
  | cons q parts ih =>
    rcases List.mem_cons.mp hp with rfl | hp
    · cases parts with
      | nil => simpa [List.intercalate_singleton] using hc
      | cons r parts => simp [List.intercalate_cons_cons, hc]
    · obtain ⟨r, rest, rfl⟩ := List.exists_cons_of_ne_nil (List.ne_nil_of_mem hp)
      rw [List.intercalate_cons_cons]
      exact List.mem_append_right _ (ih hp)

/-- A text of several parts has a separator. -/
theorem sep_mem_intercalate {sep : Char} {p q : Str} {parts : List Str} :
    sep ∈ [sep].intercalate (p :: q :: parts) := by
  simp [List.intercalate_cons_cons]

theorem mem_foldl_shift {b : ℕ} {s : Str} {acc : Option ℕ} {n : ℕ}
    (h : s.foldl (Numeral.shift b) acc = some n) : ∀ c ∈ s, (Numeral.digit? c).isSome = true := by
  induction s generalizing acc with
  | nil => exact nofun
  | cons c s ih =>
    intro c' hc'
    rcases List.mem_cons.mp hc' with rfl | hc'
    · cases hdigit : Numeral.digit? c' with
      | some d => rfl
      | none =>
        have hnone : ∀ s : Str, s.foldl (Numeral.shift b) none = none := by
          intro s
          induction s with
          | nil => rfl
          | cons c s ih => exact ih
        have hshift : Numeral.shift b acc c' = none := by cases acc <;> simp [Numeral.shift, hdigit]
        rw [List.foldl_cons, hshift, hnone] at h
        cases h
    · exact ih h c' hc'

theorem digit_of_mem_octet {s : Str} {d : ℕ} (h : octet s = some d) {c : Char} (hc : c ∈ s) :
    (Numeral.digit? c).isSome = true := by
  unfold octet at h
  split at h
  · obtain ⟨hread, -⟩ := Option.filter_eq_some_iff.mp h
    unfold Numeral.read at hread
    split at hread
    · cases hread
    · exact mem_foldl_shift hread c hc
  · cases h

theorem exists_of_mapM {α β : Type} {read : α → Option β} {l : List α} {l' : List β}
    (h : l.mapM read = some l') {a : α} (ha : a ∈ l) : ∃ b, read a = some b := by
  induction l generalizing l' with
  | nil => cases ha
  | cons a' l ih =>
    rw [List.mapM_cons] at h
    obtain ⟨b, hb, h⟩ := Option.bind_eq_some_iff.mp h
    obtain ⟨l'', hl, -⟩ := Option.bind_eq_some_iff.mp h
    rcases List.mem_cons.mp ha with rfl | ha
    · exact ⟨b, hb⟩
    · exact ih hl ha

/-- An IPv4 address consists of digits and dots. -/
theorem mem_read4 {s : Str} {n : ℕ} (h : read4 s = some n) {c : Char} (hc : c ∈ s) :
    c = '.' ∨ (Numeral.digit? c).isSome = true := by
  unfold read4 at h
  split at h
  · obtain ⟨l, hl, -⟩ := Option.map_eq_some_iff.mp h
    have hself : ['.'].intercalate (s.splitOn '.') = s := List.intercalate_splitOn '.'
    rw [← hself] at hc
    refine (mem_intercalate hc).imp_right ?_
    rintro ⟨p, hp, hc⟩
    obtain ⟨d, hd⟩ := exists_of_mapM hl hp
    exact digit_of_mem_octet hd hc
  · cases h

/-- The parts of a canonical text are empty or groups. -/
theorem group_of_mem {l : List ℕ} {p : Str} (hp : p ∈ canonicalParts l) :
    p = [] ∨ ∃ d, p = Nat.toDigits 16 d := by
  have hgroups : ∀ l : List ℕ, p ∈ l.map (Nat.toDigits 16) → ∃ d, p = Nat.toDigits 16 d := by
    intro l hp
    obtain ⟨d, -, rfl⟩ := List.mem_map.mp hp
    exact ⟨d, rfl⟩
  have hend : ∀ l : List ℕ, p ∈ (if l = [] then [[]] else l.map (Nat.toDigits 16)) →
      p = [] ∨ ∃ d, p = Nat.toDigits 16 d := by
    intro l hp
    split at hp
    · exact .inl (List.mem_singleton.mp hp)
    · exact .inr (hgroups l hp)
  unfold canonicalParts at hp
  dsimp only at hp
  split at hp
  · exact .inr (hgroups l hp)
  · rcases List.mem_append.mp hp with hp | hp
    · exact hend _ hp
    · rcases List.mem_cons.mp hp with hp | hp
      · exact .inl hp
      · exact hend _ hp

/-- An IPv6 address without a zone is written with digits and colons. -/
theorem mem_text6 {n : ℕ} {c : Char} (h : c ∈ text6 n) :
    c = ':' ∨ (Numeral.digit? c).isSome = true := by
  refine (mem_intercalate h).imp_right ?_
  rintro ⟨p, hp, hc⟩
  rcases group_of_mem hp with rfl | ⟨d, rfl⟩
  · cases hc
  · exact Numeral.digit?_of_mem_toDigits (by decide) (by decide) hc

/-! ### The round trip -/

theorem read6_text6 {n : ℕ} (hn : n < 2 ^ 128) : read6 (text6 n) = some n := by
  have hparts : ∀ p ∈ canonicalParts (places 65536 8 n), ':' ∉ p := by
    intro p hp
    rcases group_of_mem hp with rfl | ⟨d, rfl⟩
    · exact List.not_mem_nil
    · exact Numeral.not_mem_toDigits (by decide) (by decide) d (by decide)
  have hne : canonicalParts (places 65536 8 n) ≠ [] := by
    unfold canonicalParts gapped
    dsimp only
    split
    · simp [places]
    · simp
  rw [read6, text6, List.splitOn_intercalate ':' hparts hne,
    readParts_canonical (length_places _ _ _) (fun d => lt_of_mem_places (by decide)),
    Option.map_some, valueOf_places, Nat.mod_eq_of_lt]
  exact hn

theorem colon_mem_text6 (n : ℕ) : ':' ∈ text6 n := by
  have hparts : ∃ p q rest, canonicalParts (places 65536 8 n) = p :: q :: rest := by
    unfold canonicalParts gapped
    dsimp only
    split
    · exact ⟨_, _, _, rfl⟩
    · split
      · exact ⟨_, _, _, rfl⟩
      · next hhi =>
        obtain ⟨d, hi, hcons⟩ := List.exists_cons_of_ne_nil hhi
        rw [hcons]
        cases hi with
        | nil => exact ⟨_, _, _, rfl⟩
        | cons e hi => exact ⟨_, _, _, rfl⟩
  obtain ⟨p, q, rest, hparts⟩ := hparts
  rw [text6, hparts]
  exact sep_mem_intercalate

/-- A text with a colon is no IPv4 address. -/
theorem read4_of_colon {s : Str} (h : ':' ∈ s) : read4 s = none := by
  cases hread : read4 s with
  | none => rfl
  | some n =>
    rcases mem_read4 hread h with hc | hc
    · cases hc
    · exact absurd hc (by decide)

/-- A character that is neither a colon nor a digit is not in an IPv6 text without a zone. -/
theorem not_mem_text6 (n : ℕ) {c : Char} (hcolon : c ≠ ':') (hdigit : Numeral.digit? c = none) :
    c ∉ text6 n := by
  intro h
  rcases mem_text6 h with hc | hc
  · exact hcolon hc
  · rw [hdigit] at hc
    cases hc

theorem splitOn_zone {a : Str} (ha : '%' ∉ a) (zone : Option Zone) :
    (a ++ zone.elim [] (fun z => '%' :: z.val)).splitOn '%' =
      a :: zone.elim [] (fun z => [z.val]) := by
  cases zone with
  | none =>
    have hsplit : (['%'].intercalate [a]).splitOn '%' = [a] :=
      List.splitOn_intercalate '%' (by simpa using ha) (by simp)
    simpa [List.intercalate_singleton] using hsplit
  | some z =>
    have hsplit : (['%'].intercalate [a, z.val]).splitOn '%' = [a, z.val] :=
      List.splitOn_intercalate '%' (by simpa using ⟨ha, z.property.2.1⟩) (by simp)
    simpa [List.intercalate_cons_cons] using hsplit

theorem ipv6Address_text {n : ℕ} (hn : n < 2 ^ 128) (zone : Option Zone) {s : Str}
    (hread : read6 s = some n) (hs : '%' ∉ s) :
    ipv6Address (s ++ zone.elim [] (fun z => '%' :: z.val)) =
      some ⟨.v6, n, zone, hn, nofun⟩ := by
  rw [ipv6Address, splitOn_zone hs]
  cases zone with
  | none =>
    dsimp only [Option.elim_none]
    rw [hread, Option.bind_some, Address.v6, dif_pos hn]
  | some z =>
    dsimp only [Option.elim_some]
    rw [dif_pos z.property, hread, Option.bind_some, Address.v6, dif_pos hn]

/-- **The canonical text of an address is read back.** -/
theorem ipAddress_text (a : Address) : ipAddress a.text = some a := by
  obtain ⟨family, n, zone, hn, hzone⟩ := a
  cases family with
  | v4 =>
    cases hzone rfl
    have hslash : '/' ∉ text4 n := by
      intro h
      rcases mem_read4 (read4_text4 hn) h with hc | hc
      · cases hc
      · exact absurd hc (by decide)
    change ipAddress (text4 n) = _
    rw [ipAddress, if_neg hslash, read4_text4 hn]
    exact dif_pos hn
  | v6 =>
    have hslash : '/' ∉ text6 n ++ zone.elim [] (fun z => '%' :: z.val) := by
      rw [List.mem_append]
      rintro (h | h)
      · exact not_mem_text6 n (by decide) (by decide) h
      · cases zone with
        | none => cases h
        | some z =>
          rcases List.mem_cons.mp h with h | h
          · cases h
          · exact z.property.2.2 h
    have hcolon : ':' ∈ text6 n ++ zone.elim [] (fun z => '%' :: z.val) :=
      List.mem_append_left _ (colon_mem_text6 n)
    change ipAddress (text6 n ++ zone.elim [] (fun z => '%' :: z.val)) = _
    rw [ipAddress, if_neg hslash, read4_of_colon hcolon]
    exact ipv6Address_text hn zone (read6_text6 hn) (not_mem_text6 n (by decide) (by decide))

/-- **An address is known by its canonical text.** -/
theorem text_injective : Function.Injective Address.text := by
  intro a b h
  have ha := ipAddress_text a
  rw [h, ipAddress_text b] at ha
  exact (Option.some.inj ha).symm

/-! ### Other spellings -/

/-- The spelling of an IPv6 address whose last two groups are written as four octets. -/
def dottedText (n : ℕ) : Str :=
  [':'].intercalate ((places 65536 6 (n / 2 ^ 32)).map (Nat.toDigits 16) ++ [text4 (n % 2 ^ 32)])

theorem dot_mem_text4 (n : ℕ) : '.' ∈ text4 n := sep_mem_intercalate

theorem readGroups_dotted {l : List ℕ} (hl : ∀ d ∈ l, d < 65536) {p : Str} (hdot : '.' ∈ p) {n : ℕ}
    (hp : read4 p = some n) :
    readGroups (l.map (Nat.toDigits 16) ++ [p]) = some (l ++ places 65536 2 n) := by
  induction l with
  | nil =>
    rw [List.map_nil, List.nil_append, readGroups, if_pos hdot, hp]
    rfl
  | cons d l ih =>
    have hd := hextet_toDigits (hl d List.mem_cons_self)
    have ih := ih (fun d' hd' => hl d' (List.mem_cons_of_mem d hd'))
    obtain ⟨q, rest, hrest⟩ := List.exists_cons_of_ne_nil
      (List.append_ne_nil_of_right_ne_nil (l.map (Nat.toDigits 16)) (List.cons_ne_nil p []))
    rw [List.map_cons, List.cons_append, hrest, readGroups, hd, Option.bind_some]
    rw [hrest] at ih
    rw [ih]
    rfl

theorem read6_dottedText {n : ℕ} (hn : n < 2 ^ 128) : read6 (dottedText n) = some n := by
  have hread : read4 (text4 (n % 2 ^ 32)) = some (n % 2 ^ 32) :=
    read4_text4 (Nat.mod_lt n (by decide))
  have hplaces : places 65536 6 (n / 2 ^ 32) ++ places 65536 2 (n % 2 ^ 32) = places 65536 8 n := by
    have hhigh : n / 2 ^ 32 = n / 65536 / 65536 := by omega
    have hlow : n % 2 ^ 32 / 65536 % 65536 = n / 65536 % 65536 := by omega
    have hlast : n % 2 ^ 32 % 65536 = n % 65536 := by omega
    have htwo : places 65536 2 (n % 2 ^ 32) = [n / 65536 % 65536, n % 65536] := by
      simp only [places, List.nil_append, List.singleton_append, hlow, hlast]
    rw [htwo, hhigh]
    change _ = (places 65536 6 (n / 65536 / 65536) ++ [n / 65536 % 65536]) ++ [n % 65536]
    rw [List.append_assoc, List.singleton_append]
  have hgroups := readGroups_dotted (l := places 65536 6 (n / 2 ^ 32))
    (fun d => lt_of_mem_places (by decide)) (dot_mem_text4 _) hread
  have hparts : ∀ p ∈ (places 65536 6 (n / 2 ^ 32)).map (Nat.toDigits 16) ++ [text4 (n % 2 ^ 32)],
      ':' ∉ p ∧ p ≠ [] := by
    intro p hp
    rcases List.mem_append.mp hp with hp | hp
    · obtain ⟨d, -, rfl⟩ := List.mem_map.mp hp
      exact ⟨Numeral.not_mem_toDigits (by decide) (by decide) d (by decide), toDigits_ne_nil d⟩
    · rw [List.mem_singleton.mp hp]
      refine ⟨fun hcolon => ?_, List.ne_nil_of_mem (dot_mem_text4 _)⟩
      rcases mem_read4 hread hcolon with hc | hc
      · cases hc
      · exact absurd hc (by decide)
  rw [read6, dottedText, List.splitOn_intercalate ':' (fun p hp => (hparts p hp).1) (by simp),
    readParts, if_neg (fun h => (hparts [] h).2 rfl), hgroups, hplaces]
  have hmod : n % 65536 ^ 8 = n := Nat.mod_eq_of_lt (by simpa using hn)
  simp only [Option.filter_some, length_places, decide_true, if_true, Option.map_some,
    valueOf_places, hmod]

/-- **Every IPv6 address has a spelling that is nobody's canonical text.** -/
theorem exists_other_text {n : ℕ} (hn : n < 2 ^ 128) :
    ∃ s, ipAddress s = some ⟨.v6, n, none, hn, nofun⟩ ∧ ∀ b : Address, s ≠ b.text := by
  have hdot : '.' ∈ dottedText n := mem_intercalate_of_mem
    (List.mem_append_right _ (List.mem_singleton_self _)) (dot_mem_text4 _)
  have hread : ipAddress (dottedText n) = some ⟨.v6, n, none, hn, nofun⟩ := by
    have hchar : ∀ c ∈ dottedText n, c = ':' ∨ c = '.' ∨ (Numeral.digit? c).isSome = true := by
      intro c hc
      refine (mem_intercalate hc).imp_right ?_
      rintro ⟨p, hp, hc⟩
      rcases List.mem_append.mp hp with hp | hp
      · obtain ⟨d, -, rfl⟩ := List.mem_map.mp hp
        exact .inr (Numeral.digit?_of_mem_toDigits (by decide) (by decide) hc)
      · rw [List.mem_singleton.mp hp] at hc
        exact mem_read4 (read4_text4 (Nat.mod_lt n (by decide))) hc
    have hslash : '/' ∉ dottedText n := fun h => absurd (hchar _ h) (by decide)
    have hpercent : '%' ∉ dottedText n := fun h => absurd (hchar _ h) (by decide)
    have hcolon : ':' ∈ dottedText n := sep_mem_intercalate
    have haddress := ipv6Address_text hn none (read6_dottedText hn) hpercent
    rw [Option.elim_none, List.append_nil] at haddress
    rw [ipAddress, if_neg hslash, read4_of_colon hcolon]
    exact haddress
  refine ⟨dottedText n, hread, fun b hb => ?_⟩
  have hread' := hread
  rw [hb, ipAddress_text] at hread'
  have hb : dottedText n = text6 n := by
    rw [hb, Option.some.inj hread']
    exact List.append_nil _
  exact not_mem_text6 n (by decide) (by decide) (hb ▸ hdot)

/-! ### What an IPv6 address consists of -/

theorem digit_of_mem_hextet {p : Str} {d : ℕ} (h : hextet p = some d) {c : Char} (hc : c ∈ p) :
    (Numeral.digit? c).isSome = true := by
  unfold hextet at h
  split at h
  · unfold Numeral.read at h
    split at h
    · cases h
    · exact mem_foldl_shift h c hc
  · cases h

/-- A part of the groups is a group, or an IPv4 address. -/
theorem mem_readGroups {parts : List Str} {l : List ℕ} (h : readGroups parts = some l) {p : Str}
    (hp : p ∈ parts) {c : Char} (hc : c ∈ p) : c = '.' ∨ (Numeral.digit? c).isSome = true := by
  induction parts generalizing l with
  | nil => cases hp
  | cons q parts ih =>
    cases parts with
    | nil =>
      obtain rfl := List.mem_singleton.mp hp
      rw [readGroups] at h
      split at h
      · obtain ⟨n, hn, -⟩ := Option.map_eq_some_iff.mp h
        exact mem_read4 hn hc
      · obtain ⟨d, hd, -⟩ := Option.map_eq_some_iff.mp h
        exact .inr (digit_of_mem_hextet hd hc)
    | cons r parts =>
      rw [readGroups] at h
      obtain ⟨d, hd, hrest⟩ := Option.bind_eq_some_iff.mp h
      obtain ⟨l', hl', -⟩ := Option.map_eq_some_iff.mp hrest
      rcases List.mem_cons.mp hp with rfl | hp
      · exact .inr (digit_of_mem_hextet hd hc)
      · exact ih hl' hp

theorem mem_behindGap {lo lo' : List Str} (h : behindGap lo = some lo') {p : Str} (hp : p ∈ lo)
    (hne : p ≠ []) : p ∈ lo' := by
  unfold behindGap at h
  split at h
  · cases h
  · exact absurd (List.mem_singleton.mp hp) hne
  · exact Option.some.inj h ▸ hp

/-- The two sides of the gap have all parts that are not empty. -/
theorem mem_sides {parts : List Str} {q : List Str × List Str} (h : sides parts = some q) {p : Str}
    (hp : p ∈ parts) (hne : p ≠ []) : p ∈ q.1 ∨ p ∈ q.2 := by
  unfold sides at h
  split at h
  · obtain ⟨lo', hlo, rfl⟩ := Option.map_eq_some_iff.mp h
    rcases List.mem_cons.mp hp with rfl | hp
    · exact absurd rfl hne
    · rcases List.mem_cons.mp hp with rfl | hp
      · exact absurd rfl hne
      · exact .inr (mem_behindGap hlo hp hne)
  · cases h
  · split at h
    · next lo hdrop =>
      obtain ⟨lo', hlo, rfl⟩ := Option.map_eq_some_iff.mp h
      have hsplit := List.takeWhile_append_dropWhile (p := fun p : Str => decide (p ≠ [])) (l := parts)
      rw [hdrop] at hsplit
      rw [← hsplit] at hp
      rcases List.mem_append.mp hp with hp | hp
      · exact .inl hp
      · rcases List.mem_cons.mp hp with rfl | hp
        · exact absurd rfl hne
        · exact .inr (mem_behindGap hlo hp hne)
    · cases h

/-- An IPv6 address consists of digits, colons and dots. -/
theorem mem_read6 {s : Str} {n : ℕ} (h : read6 s = some n) {c : Char} (hc : c ∈ s) :
    c = ':' ∨ c = '.' ∨ (Numeral.digit? c).isSome = true := by
  obtain ⟨l, hl, -⟩ := Option.map_eq_some_iff.mp h
  have hself : [':'].intercalate (s.splitOn ':') = s := List.intercalate_splitOn ':'
  rw [← hself] at hc
  refine (mem_intercalate hc).imp_right ?_
  rintro ⟨p, hp, hc⟩
  unfold readParts at hl
  split at hl
  · obtain ⟨q, hq, hl⟩ := Option.bind_eq_some_iff.mp hl
    obtain ⟨hi, hhi, hl⟩ := Option.bind_eq_some_iff.mp hl
    obtain ⟨lo, hlo, -⟩ := Option.bind_eq_some_iff.mp hl
    rcases mem_sides hq hp (List.ne_nil_of_mem hc) with hp | hp
    · obtain ⟨d, hd⟩ := exists_of_mapM hhi hp
      exact .inr (digit_of_mem_hextet hd hc)
    · exact mem_readGroups hlo hp hc
  · exact mem_readGroups (Option.filter_eq_some_iff.mp hl).1 hp hc

/-- An IPv6 address has a colon. -/
theorem colon_mem_of_read6 {s : Str} {n : ℕ} (h : read6 s = some n) : ':' ∈ s := by
  by_contra hcolon
  have hsplit : s.splitOn ':' = [s] := by
    have hparts : ([':'].intercalate [s]).splitOn ':' = [s] :=
      List.splitOn_intercalate ':' (by simpa using hcolon) (by simp)
    rwa [List.intercalate_singleton] at hparts
  obtain ⟨l, hl, -⟩ := Option.map_eq_some_iff.mp h
  rw [hsplit] at hl
  unfold readParts at hl
  split at hl
  · next hmem =>
    obtain rfl := List.mem_singleton.mp hmem
    cases hl
  · -- one part has one group, or two as an IPv4 address
    obtain ⟨hgroups, hlen⟩ := Option.filter_eq_some_iff.mp hl
    rw [readGroups] at hgroups
    split at hgroups
    · obtain ⟨m, -, rfl⟩ := Option.map_eq_some_iff.mp hgroups
      simp at hlen
    · obtain ⟨d, -, rfl⟩ := Option.map_eq_some_iff.mp hgroups
      simp at hlen

/-- A text with another letter is no address. -/
theorem ipAddress_none {s : Str} {c : Char} (hc : c ∈ s) (hcolon : c ≠ ':') (hdot : c ≠ '.')
    (hdigit : Numeral.digit? c = none) (hzone : '%' ∉ s) : ipAddress s = none := by
  have hsplit : s.splitOn '%' = [s] := by
    have hparts : (['%'].intercalate [s]).splitOn '%' = [s] :=
      List.splitOn_intercalate '%' (by simpa using hzone) (by simp)
    rwa [List.intercalate_singleton] at hparts
  have hread4 : read4 s = none := by
    by_contra hsome
    obtain ⟨n, hn⟩ := Option.ne_none_iff_exists'.mp hsome
    rcases mem_read4 hn hc with h | h
    · exact hdot h
    · rw [hdigit] at h
      cases h
  have hread6 : read6 s = none := by
    by_contra hsome
    obtain ⟨n, hn⟩ := Option.ne_none_iff_exists'.mp hsome
    rcases mem_read6 hn hc with h | h | h
    · exact hcolon h
    · exact hdot h
    · rw [hdigit] at h
      cases h
  unfold ipAddress
  split
  · rfl
  · rw [hread4, ipv6Address, hsplit]
    dsimp only
    rw [hread6, Option.bind_none]

end HuntProxy.Ip
