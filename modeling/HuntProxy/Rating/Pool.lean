import HuntProxy.Rating.Persist

/-!
# The ratings, the blacklist and the favourites

The ratings are made and changed by checks, selections, downloads and imports; the two sets
of addresses by the operator. All of them are kept in tables, from which a start restores
them, and so is the working set, the ratings that belong to the pool.

## Main definitions

- `PoolState`, `PoolDb` — the ratings and the sets, and the tables
- `PoolState.saveState`, `PoolState.restart` — saving and loading
- `PoolOp`, `PoolState.apply` — the operations
-/

namespace HuntProxy

open Ip (Str)

/-! ### The tables -/

/-- A row of `working_proxies`. -/
structure WorkingRow where
  address : Str
  country : Str
  latency : ℚ
  score : ℚ
  deriving DecidableEq

/-- The tables. A rating is kept under its address, which is its key. -/
structure PoolDb where
  ratings : Dict Str RatingDict
  blacklist : Dict Str Str
  favorites : List Str
  working : List WorkingRow

/-- The ratings with the blacklist, the favourites and the addresses whose ratings wait to be
saved; the tables; the rows of an old `working.txt`; and the clock. -/
structure PoolState where
  ratings : Dict Str ProxyRating
  blacklist : Dict Str Str
  favorites : List Str
  dirty : List Str
  db : PoolDb
  workingFile : List WorkingRow
  now : ℚ

/-- The operations. The saves in between may come at any time. -/
inductive PoolOp
  | wait (until_ : ℚ)
  | blacklistAdd (addr reason : Str)
  | blacklistRemove (addr : Str) (ix : IpIndex)
  | favoriteAdd (addr : Str)
  | favoriteRemove (addr : Str)
  | select (addr : Str)
  | sourceRefresh (raw : List Str) (sourceIds : Str → List Str)
  | check (addr : Str) (c : CheckResult) (ix : IpIndex) (sourceIds : List Str)
  | importProxies (lines : List Str) (markFavorite : Bool)
  | clearDead
  | saveState
  | saveDirtyRatings
  | saveWorkingFile
  | restart

namespace ProxyRating

/-- A rating on the blacklist. -/
def markBlacklisted (reason : Str) (r : ProxyRating) : ProxyRating :=
  { r with inBlacklist := true, blacklistReason := reason }

/-- A rating that is no longer on the blacklist; its address may still be in an IP blacklist. -/
def unmarkBlacklisted (ix : IpIndex) (r : ProxyRating) : ProxyRating :=
  ({ r with inBlacklist := false, blacklistReason := [] } : ProxyRating).applyIpBlacklist ix r.egressIp

/-- A rating that is or is not among the favourites. -/
def markFavorite (isFavorite : Bool) (r : ProxyRating) : ProxyRating :=
  { r with isFavorite := isFavorite }

section

variable (codeOf : Str → Str)

/-- The rating of a proxy that is selected without having one. -/
def selected (addr : Str) (now : ℚ) : ProxyRating where
  address := addr
  protocol := protocolOf addr
  lastStatus := .ok
  checksTotal := 1
  checksOk := 1
  lastCheck := now
  firstSeen := now

/-- The rating of a proxy that is imported. -/
def imported (addr : Str) (now : ℚ) : ProxyRating where
  address := addr
  firstSeen := now
  lastCheck := now
  checksTotal := 1
  checksOk := 1
  lastStatus := .ok

/-- The text behind the last colon. -/
def lastPart (addr : Str) : Str := (addr.reverse.takeWhile (· ≠ ':')).reverse

/-- The rating of a row of the working set. -/
def ofWorkingRow (row : WorkingRow) (now : ℚ) : ProxyRating where
  address := row.address
  country := row.country
  countryCode := codeOf row.country
  firstSeen := now
  lastCheck := now
  checksTotal := 1
  checksOk := 1
  lastStatus := .ok
  lastLatency := row.latency
  latencySum := row.latency
  latencyCount := 1
  protocol :=
    if lastPart row.address ∈ ["1080".toList, "10808".toList, "9050".toList] then .socks5
    else if lastPart row.address = "4145".toList then .socks4
    else .http

/-- `_repair_rating_codes`. -/
def repairRatingCodes (r : ProxyRating) : ProxyRating :=
  { r with
    egressCountryCode :=
      if r.egressCountry = [] then r.egressCountryCode
      else orElse (codeOf r.egressCountry) r.egressCountryCode
    listenCountryCode :=
      if r.listenCountry = [] then r.listenCountryCode
      else orElse (codeOf r.listenCountry) r.listenCountryCode
    countryCode := if r.country = [] then r.countryCode else orElse (codeOf r.country) r.countryCode }

end

end ProxyRating

namespace PoolState

/-! ### Saving -/

/-- `_save_state`. -/
def saveState (s : PoolState) : PoolState :=
  { s with
    db :=
      { s.db with
        ratings := s.ratings.mapValues (·.toDict s.now)
        blacklist := s.blacklist
        favorites := s.favorites }
    dirty := [] }

/-- `_save_dirty_ratings`. -/
def saveDirtyRatings (s : PoolState) : PoolState :=
  { s with
    db :=
      { s.db with
        ratings := s.dirty.foldl (fun rows addr =>
          match s.ratings.get? addr with
          | none => rows
          | some r => rows.insert addr (r.toDict s.now)) s.db.ratings }
    dirty := [] }

/-- `_save_working_file`: the ratings that belong to the pool, the best first. -/
def saveWorkingFile (s : PoolState) : PoolState :=
  let alive := (s.ratings.values.filter ProxyRating.poolEligible).mergeSort
    (fun r r' => r'.score s.now ≤ r.score s.now)
  { s with
    db :=
      { s.db with
        working := alive.map fun r => ⟨r.address, r.country, r.lastLatency, r.score s.now⟩ } }

/-! ### The operations -/

/-- `blacklist_add`. -/
def blacklistAdd (s : PoolState) (addr reason : Str) : PoolState :=
  if addr = [] then s
  else
    let reason := orElse reason "manual".toList
    ({ s with
      blacklist := s.blacklist.insert addr reason
      ratings := s.ratings.modify addr (·.markBlacklisted reason) } : PoolState).saveState.saveWorkingFile

/-- `blacklist_remove`. -/
def blacklistRemove (s : PoolState) (addr : Str) (ix : IpIndex) : PoolState :=
  ({ s with
    blacklist := s.blacklist.erase addr
    ratings := s.ratings.modify addr (·.unmarkBlacklisted ix) } : PoolState).saveState.saveWorkingFile

/-- `favorite_add`. -/
def favoriteAdd (s : PoolState) (addr : Str) : PoolState :=
  if addr = [] then s
  else
    ({ s with
      favorites := if addr ∈ s.favorites then s.favorites else s.favorites ++ [addr]
      ratings := s.ratings.modify addr (·.markFavorite true) } : PoolState).saveState

/-- `favorite_remove`. -/
def favoriteRemove (s : PoolState) (addr : Str) : PoolState :=
  ({ s with
    favorites := s.favorites.filter (· ≠ addr)
    ratings := s.ratings.modify addr (·.markFavorite false) } : PoolState).saveState

/-- `ProxyRunner.select`, what it does to the ratings. -/
def select (s : PoolState) (addr : Str) : PoolState :=
  if addr ≠ [] ∧ s.ratings.get? addr = none then
    { s with ratings := s.ratings.insert addr (.selected addr s.now) }
  else s

/-- The address in a line of an import. -/
def importedAddr (line : Str) : Option Str :=
  let line := Text.strip line
  let addr := Text.firstWord line
  if line = [] ∨ line.head? = some '#' then none
  else if addr = [] ∨ ':' ∉ addr then none
  else some addr

/-- A line of an import. -/
def importLine (markFavorite : Bool) (s : PoolState) (line : Str) : PoolState :=
  match importedAddr line with
  | none => s
  | some addr =>
    let s : PoolState :=
      if s.ratings.get? addr = none ∧ s.blacklist.get? addr = none then
        { s with ratings := s.ratings.insert addr (.imported addr s.now) }
      else s
    if markFavorite ∧ addr ∉ s.favorites then s.favoriteAdd addr else s

/-- `_handle_import`. -/
def importProxies (s : PoolState) (lines : List Str) (markFavorite : Bool) : PoolState :=
  (lines.foldl (importLine markFavorite) s).saveState.saveWorkingFile

/-- The dead ratings. -/
def deadAddrs (s : PoolState) : List Str :=
  (s.ratings.items.filter fun p =>
    p.2.lastStatus = .failed && !p.2.isFavorite && !p.2.inGrace).map Prod.fst

/-- `_handle_clear_dead`. -/
def clearDead (s : PoolState) : PoolState :=
  ({ s with ratings := s.ratings.eraseAll s.deadAddrs } : PoolState).saveState.saveWorkingFile

section

variable (codeOf : Str → Str)

/-- The part of `_execute_source_refresh` behind the download. -/
def sourceRefresh (s : PoolState) (raw : List Str) (sourceIds : Str → List Str) : PoolState :=
  let new := raw.filter fun addr => (s.ratings.get? addr).isNone
  let s : PoolState :=
    { s with
      ratings := new.foldl (fun ratings addr =>
        ratings.insert addr (.create codeOf addr [] [] (sourceIds addr) s.now)) s.ratings
      dirty := s.dirty ++ new }
  if new = [] then s else s.saveDirtyRatings

/-- `_update_rating`, without the saving. -/
def check (s : PoolState) (addr : Str) (c : CheckResult) (ix : IpIndex) (sourceIds : List Str) :
    PoolState :=
  { s with
    ratings := updateRating codeOf ix sourceIds s.ratings addr c s.now
    dirty := s.dirty ++ [addr] }

/-- A row of `_load_working_from_db`. -/
def loadWorkingRow (blacklist : Dict Str Str) (now : ℚ) (ratings : Dict Str ProxyRating)
    (row : WorkingRow) : Dict Str ProxyRating :=
  if ratings.get? row.address = none ∧ blacklist.get? row.address = none then
    ratings.insert row.address (.ofWorkingRow codeOf row now)
  else ratings

/-- The rows that `_load_working_file` loads: those of an old file when the table is empty. -/
def workingRows (s : PoolState) : List WorkingRow :=
  if s.db.working = [] then s.workingFile else s.db.working

/-- The ratings of `_load_state`: those of the table, with the marks of the sets. -/
def loadedRatings (db : PoolDb) : Dict Str ProxyRating :=
  let loaded := db.ratings.mapValues fun d => (buildRating d).repairRatingCodes codeOf
  let listed := db.blacklist.items.foldl (fun rs p => rs.modify p.1 (·.markBlacklisted p.2)) loaded
  db.favorites.foldl (fun rs addr => rs.modify addr (·.markFavorite true)) listed

/-- A start: `_load_state` and `_load_working_file`. -/
def restart (s : PoolState) : PoolState :=
  { s with
    ratings := s.workingRows.foldl (loadWorkingRow codeOf s.db.blacklist s.now)
      (loadedRatings codeOf s.db)
    blacklist := s.db.blacklist
    favorites := s.db.favorites
    dirty := (s.db.ratings.items.filter fun p =>
      (buildRating p.2).repairRatingCodes codeOf ≠ buildRating p.2).map Prod.fst
    db := { s.db with working := s.workingRows } }

/-- One completed operation. -/
def apply (s : PoolState) : PoolOp → PoolState
  | .wait until_ => { s with now := max s.now until_ }
  | .blacklistAdd addr reason => s.blacklistAdd addr reason
  | .blacklistRemove addr ix => s.blacklistRemove addr ix
  | .favoriteAdd addr => s.favoriteAdd addr
  | .favoriteRemove addr => s.favoriteRemove addr
  | .select addr => s.select addr
  | .sourceRefresh raw sourceIds => s.sourceRefresh codeOf raw sourceIds
  | .check addr c ix sourceIds => s.check codeOf addr c ix sourceIds
  | .importProxies lines markFavorite => s.importProxies lines markFavorite
  | .clearDead => s.clearDead
  | .saveState => s.saveState
  | .saveDirtyRatings => s.saveDirtyRatings
  | .saveWorkingFile => s.saveWorkingFile
  | .restart => s.restart codeOf

/-- The machine of the operations. -/
def machine : Machine PoolState PoolOp := ⟨fun s op => some (s.apply codeOf op)⟩

end

/-- The first start, with the rows of an old `working.txt`. -/
def start (workingFile : List WorkingRow) (now : ℚ) : PoolState where
  ratings := .empty
  blacklist := .empty
  favorites := []
  dirty := []
  db := ⟨.empty, .empty, [], []⟩
  workingFile := workingFile
  now := now

end PoolState

end HuntProxy
