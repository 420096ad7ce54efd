import HuntProxy.Lib.TimedCache
import HuntProxy.Web.CustomProxies
import HuntProxy.Web.Pac

/-!
# The settings of the proxy configuration script

The user saves patterns, networks and the address of the proxy. The script is made from them and
kept for five seconds; a save drops it. The script also depends on the port at which the proxy
listens, which changes behind the cache.

All of the program shares one connection to the database. What a save has changed when it fails
midway can be read from then on, and waits for the next commit, whoever makes it; a restart of the
program loses it.

## Main definitions

- `PacTables`, `PacState` — what is read, what is committed, and the port
- `PacState.save` — the changes of a save
- `pacCache` — the requests, with the script as a cached view
- `pacAnswer` — the answers

## Main results

- `served_script` — the script that is served is not older than five seconds, nor than the last
  save
- `served_saved` — browsers go by what has been saved
-/

namespace HuntProxy

namespace JsonArray

/-- The items of an array. -/
def toList : JsonArray → List Json
  | nil => []
  | cons v rest => v :: rest.toList

theorem toList_ofList (l : List Json) : (ofList l).toList = l := by
  induction l with
  | nil => rfl
  | cons v l ih => rw [ofList, toList, ih]

end JsonArray

namespace JsonObject

/-- The keys of an object. -/
def keys : JsonObject → List String
  | nil => []
  | cons k _ rest => k :: rest.keys

end JsonObject

namespace Json

/-- What a loop goes through; `none` stands for the exception of a value that is no container. -/
def iterate : Json → Option (List Json)
  | arr items => some items.toList
  | obj members => some (members.keys.map Json.str)
  | str s => some (s.toList.map (fun c => text [c]))
  | _ => none

end Json

namespace Web

open Ip (Str)
open Js (CodeUnits text run)

/-! ### The tables -/

/-- The table `pac_config` by its keys, and the rows of the two other tables. -/
structure PacTables where
  enabled : Option Str
  proxyHost : Option Str
  proxyPort : Option Str
  directHosts : List Str
  internalNets : List PacNet
  deriving DecidableEq

/-- What the script is made from: the tables as they are read, and the port of the proxy. Of the
tables, what has been committed outlives the program. -/
@[ext]
structure PacState where
  tables : PacTables
  committed : PacTables
  port : ℤ
  deriving DecidableEq

namespace PacState

/-- `enabled` of `get_pac_config`. -/
def isEnabled (s : PacState) : Bool := s.tables.enabled.getD "false".toList = "true".toList

/-- `get_pac_config`, without what is made from it. -/
def config (s : PacState) : PacConfig where
  proxyHost :=
    let host := Text.strip (s.tables.proxyHost.getD [])
    if host = [] then "127.0.0.1".toList else host
  proxyPort :=
    let raw := s.tables.proxyPort.getD []
    if raw = [] then s.port else (Decimal.int raw).getD s.port
  directHosts := s.tables.directHosts
  internalNets := s.tables.internalNets
  proxies := []

end PacState

/-- `INSERT OR IGNORE INTO pac_direct_hosts`. -/
def insertHost (hosts : List Str) (pattern : Str) : List Str :=
  if pattern = [] ∨ pattern ∈ hosts then hosts else hosts ++ [pattern]

section

variable (w : Rendering)

/-- The patterns of `data["direct_hosts"]`. -/
def savedHosts (items : List Json) : List Str :=
  (items.map (fun p => Text.strip (pyStr w p))).foldl insertHost []

/-- The rows of `data["direct_hosts"]`, and whether the loop comes to its end. -/
def saveHosts (data : JsonObject) (t : PacTables) : PacTables × Bool :=
  match data.get? "direct_hosts" with
  | none => (t, true)
  | some v =>
    match v.iterate with
    | none => ({ t with directHosts := [] }, false)
    | some items => ({ t with directHosts := savedHosts w items }, true)

/-- A network of `data["internal_nets"]`; there is none without a network or a mask. An item that is
no object has no `get`. -/
def savedNet (v : Json) : Option (List PacNet) :=
  match v with
  | .obj entry =>
    let network := Text.strip (pyStr w (entry.getD "network" (.text [])))
    let mask := Text.strip (pyStr w (entry.getD "mask" (.text [])))
    some (if network ≠ [] ∧ mask ≠ [] then [⟨network, mask⟩] else [])
  | _ => none

/-- The networks up to the first item that raises, and whether there is none. -/
def savedNets : List Json → List PacNet × Bool
  | [] => ([], true)
  | v :: items =>
    match savedNet w v with
    | none => ([], false)
    | some net => (net ++ (savedNets items).1, (savedNets items).2)

/-- The rows of `data["internal_nets"]`, and whether the loop comes to its end. -/
def saveNets (data : JsonObject) (t : PacTables) : PacTables × Bool :=
  match data.get? "internal_nets" with
  | none => (t, true)
  | some v =>
    match v.iterate with
    | none => ({ t with internalNets := [] }, false)
    | some items => ({ t with internalNets := (savedNets w items).1 }, (savedNets w items).2)

/-- The rows of a save, and whether they are committed: an exception leaves what has been changed by
then, and no commit. -/
def saveRows (data : JsonObject) (t : PacTables) : PacTables × Bool :=
  let hosts := saveHosts w data t
  if hosts.2 then saveNets w data hosts.1 else hosts

/-- A value that is given, and not as `null`. -/
def given (data : JsonObject) (key : String) : Option Json :=
  match data.get? key with
  | some .null => none
  | v => v

/-- `str(int(v))`, where both are without an exception. -/
def portText (v : Json) : Option Str :=
  (pyInt v).bind (fun n =>
    if (Nat.toDigits 10 n.natAbs).length ≤ Decimal.maxDigits then some (intText n) else none)

/-- The settings of a save. -/
def saveSettings (data : JsonObject) (t : PacTables) : PacTables where
  enabled := match data.get? "enabled" with
    | some v => some (if v.truthy then "true".toList else "false".toList)
    | none => t.enabled
  proxyHost := match given data "proxy_host" with
    | some v => some (Text.strip (pyStr w v))
    | none => t.proxyHost
  proxyPort := match given data "proxy_port" with
    | some v => (portText v).or t.proxyPort
    | none => t.proxyPort
  directHosts := t.directHosts
  internalNets := t.internalNets

/-- A save has a setting, which is committed with all that waits for it. -/
def commits (data : JsonObject) : Bool :=
  (data.get? "enabled").isSome || (given data "proxy_host").isSome ||
    ((given data "proxy_port").bind portText).isSome

/-- `int(v)` of an infinite number raises what `save_pac_config` does not catch. -/
def overflows (data : JsonObject) : Bool :=
  match data.get? "proxy_port" with
  | some (.float (.inf _)) => true
  | _ => false

/-- The changes of `save_pac_config`. -/
def PacState.save (data : JsonObject) (s : PacState) : PacState :=
  let t := saveSettings w data s.tables
  let committed := if commits data then t else s.committed
  if overflows data then { s with tables := t, committed }
  else
    let rows := saveRows w data t
    { s with tables := rows.1, committed := if rows.2 then rows.1 else committed }

end

/-! ### Requests -/

/-- A look at the clock, and another one if the script is made. -/
structure Look where
  check : Time
  stamp : Time
  deriving DecidableEq

/-- What happens to the server: `POST` and `GET` of `/api/pac/config`, `GET` of `/pac.js`, which
may make the script twice, and a start of the proxy on a port. Elsewhere the shared connection is
committed or, when a backup cannot be restored, rolled back; and the program is restarted. -/
inductive PacRequest
  | save (data : JsonObject) (look : Look)
  | settings (look : Look)
  | script (first second : Look)
  | listen (port : ℤ) (at_ : Time)
  | commit (at_ : Time)
  | rollback (at_ : Time)
  | restart (port : ℤ) (at_ : Time)
  deriving DecidableEq

namespace PacRequest

/-- A save that comes to its end, or a restart. -/
def renews : PacRequest → Bool
  | save data _ => !overflows data
  | restart _ _ => true
  | _ => false

/-- The times of a request. -/
def times : PacRequest → List Time
  | save _ look => [look.check, look.stamp]
  | settings look => [look.check, look.stamp]
  | script first second => [first.check, first.stamp, second.check, second.stamp]
  | listen _ time => [time]
  | commit time => [time]
  | rollback time => [time]
  | restart _ time => [time]

end PacRequest

section

variable (w : Rendering)

/-- The requests, with `_pac_cache` as the cached view. -/
def pacCache : TimedCache PacState PacRequest (Bool × Str) where
  change s
    | .save data _ => s.save w data
    | .listen port _ => { s with port }
    | .commit _ => { s with committed := s.tables }
    | .rollback _ => { s with tables := s.committed }
    | .restart port _ => { s with tables := s.committed, port }
    | _ => s
  drops := PacRequest.renews
  reads s
    | .save data look => if overflows data then [] else [(look.check, look.stamp)]
    | .settings look => [(look.check, look.stamp)]
    | .script first second =>
      if s.isEnabled then [(first.check, first.stamp), (second.check, second.stamp)]
      else [(first.check, first.stamp)]
    | _ => []
  times := PacRequest.times
  view s := (s.isEnabled, renderPac s.config)
  ttl := 5
  times_of_reads s r look hlook := by
    cases r with
    | save data l =>
      dsimp only at hlook
      split at hlook
      · cases hlook
      · simp [List.mem_singleton.mp hlook, PacRequest.times]
    | settings l => simp [List.mem_singleton.mp hlook, PacRequest.times]
    | script first second =>
      dsimp only at hlook
      split at hlook
      · rcases List.mem_pair.mp hlook with rfl | rfl <;> simp [PacRequest.times]
      · simp [List.mem_singleton.mp hlook, PacRequest.times]
    | _ => cases hlook

end

/-- The server: what is stored, and what is kept of it. -/
abbrev PacServer := TimedCache.State PacState (Bool × Str)

/-- The answer to a request. -/
inductive PacAnswer
  | settings (enabled : Bool) (config : PacConfig) (url preview : Str)
  | script (text : Str)
  | disabled
  | closed
  | silent
  deriving DecidableEq

/-- `render_pac`, of the script that is kept. -/
def PacServer.kept (s : PacServer) : Str := (s.cache.map (fun c => c.1.2)).getD []

/-- `get_pac_config`. -/
def PacServer.settings (s : PacServer) (webPort : ℤ) : PacAnswer :=
  let c := s.state.config
  .settings s.state.isEnabled c
    ("http://".toList ++ c.proxyHost ++ ':' :: intText webPort ++ "/pac.js".toList) s.kept

/-- The answer to a request, from the state after it. What has been read last is what is kept. -/
def pacAnswer (webPort : ℤ) (s : PacServer) : PacRequest → PacAnswer
  | .save data _ => if overflows data then .closed else s.settings webPort
  | .settings _ => s.settings webPort
  | .script _ _ => if s.state.isEnabled then .script s.kept else .disabled
  | _ => .silent

theorem pacAnswer_script (webPort : ℤ) (first second : Look) {s : PacServer}
    (h : s.state.isEnabled = true) :
    pacAnswer webPort s (.script first second) = .script s.kept := if_pos h

/-! ### The script that is served -/

section

variable {w : Rendering} {webPort : ℤ} {s₀ : PacServer}

/-- **The script that is served** is made from the settings as they were after some of the requests.
None of the later ones is a save that came to its end or a restart, and all of them came in the last
five seconds. -/
theorem served_script (h₀ : s₀.cache = none) {requests : List PacRequest} {first second : Look}
    (htime : (pacCache w).Timely (requests ++ [.script first second])) {script : Str}
    (hanswer : pacAnswer webPort ((pacCache w).run s₀ (requests ++ [.script first second]))
      (.script first second) = .script script) :
    ∃ pre post, requests ++ [.script first second] = pre ++ post ∧
      script = renderPac ((pacCache w).run s₀ pre).state.config ∧ (∀ r ∈ post, r.renews = false) ∧
      ∀ r ∈ post, ∀ time ∈ r.times, second.check - time < 5 := by
  have hstate : ((pacCache w).run s₀ (requests ++ [.script first second])).state =
      ((pacCache w).run s₀ requests).state := by
    rw [TimedCache.run_concat]
    rfl
  unfold pacAnswer at hanswer
  dsimp only at hanswer
  split at hanswer
  · next henabled =>
    rw [hstate] at henabled
    have hreads : (pacCache w).reads ((pacCache w).run s₀ requests).state (.script first second) =
        [(first.check, first.stamp)] ++ [(second.check, second.stamp)] := if_pos henabled
    obtain ⟨v, t, pre, post, hcache, heq, rfl, hpost, hrecent⟩ :=
      TimedCache.exists_of_reads h₀ htime hreads
    have hscript : script = renderPac ((pacCache w).run s₀ pre).state.config := by
      rw [PacServer.kept, hcache] at hanswer
      exact (PacAnswer.script.inj hanswer).symm
    exact ⟨pre, post, heq, hscript, hpost, hrecent⟩
  · cases hanswer

end

/-- A server with the default settings, but enabled, and a pattern. -/
def enabledServer : PacServer :=
  ⟨⟨⟨some "true".toList, none, none, ["old".toList], []⟩,
    ⟨some "true".toList, none, none, ["old".toList], []⟩, 17277⟩, none⟩

/-- A save whose patterns are `null` has deleted the stored ones, until the program is restarted. -/
example : ((pacCache ⟨fun _ => [], fun _ => []⟩).run enabledServer
      [.save (.ofList [("direct_hosts", .null)]) ⟨0, 0⟩]).state.config.directHosts = [] ∧
    ((pacCache ⟨fun _ => [], fun _ => []⟩).run enabledServer
      [.save (.ofList [("direct_hosts", .null)]) ⟨0, 0⟩, .restart 17277 1]).state.config.directHosts =
        ["old".toList] := by
  decide

/-- The script is served after the proxy has been started on another port. -/
theorem served_script_listen :
    ∃ script, pacAnswer 17177 ((pacCache ⟨fun _ => [], fun _ => []⟩).run
        enabledServer
        ([.settings ⟨0, 0⟩, .listen 8080 1] ++ [.script ⟨2, 2⟩ ⟨2, 2⟩])) (.script ⟨2, 2⟩ ⟨2, 2⟩) =
          .script script ∧
      ∃ pre post,
        [PacRequest.settings ⟨0, 0⟩, .listen 8080 1] ++ [.script ⟨2, 2⟩ ⟨2, 2⟩] = pre ++ post ∧
        script = renderPac ((pacCache ⟨fun _ => [], fun _ => []⟩).run
          enabledServer pre).state.config ∧
        (∀ r ∈ post, r.renews = false) ∧ ∀ r ∈ post, ∀ time ∈ r.times, 2 - time < 5 := by
  have htime : (pacCache ⟨fun _ => [], fun _ => []⟩).Timely
      ([.settings ⟨0, 0⟩, .listen 8080 1] ++ [.script ⟨2, 2⟩ ⟨2, 2⟩]) := by
    unfold TimedCache.Timely
    decide
  have hanswer := pacAnswer_script 17177 ⟨2, 2⟩ ⟨2, 2⟩ (s := (pacCache ⟨fun _ => [], fun _ => []⟩).run
      enabledServer
      ([.settings ⟨0, 0⟩, .listen 8080 1] ++ [.script ⟨2, 2⟩ ⟨2, 2⟩])) rfl
  exact ⟨_, hanswer, served_script rfl htime hanswer⟩

/-! ### What has been saved -/

/-- What the page of the settings posts. -/
structure PacForm where
  enabled : Bool
  proxyHost : Str
  proxyPort : ℤ
  directHosts : List Str
  internalNets : List PacNet

namespace PacForm

/-- A network as the page posts it. -/
def netJson (net : PacNet) : Json :=
  .obj (.ofList [("network", .text net.network), ("mask", .text net.mask)])

/-- `persist` of the page. -/
def data (f : PacForm) : JsonObject :=
  .ofList [("enabled", .bool f.enabled), ("proxy_host", .text f.proxyHost),
    ("proxy_port", .int f.proxyPort), ("direct_hosts", .arr (.ofList (f.directHosts.map Json.text))),
    ("internal_nets", .arr (.ofList (f.internalNets.map netJson)))]

/-- The host of the proxy, without white space around it. -/
def host (f : PacForm) : Str :=
  if Text.strip f.proxyHost = [] then "127.0.0.1".toList else Text.strip f.proxyHost

/-- A pattern meets a host. -/
def meets (b : Browser) (host : CodeUnits) (pattern : Str) : Bool :=
  decide (Text.strip pattern ≠ []) && b.shExpMatch host (text (Text.strip pattern))

/-- A host has its address in a network. -/
def within (b : Browser) (host : CodeUnits) (net : PacNet) : Bool :=
  decide (Text.strip net.network ≠ [] ∧ Text.strip net.mask ≠ []) &&
    b.isInNet (b.dnsResolve host) (text (Text.strip net.network)) (text (Text.strip net.mask))

/-- What the user has asked for. -/
def route (f : PacForm) (b : Browser) (host : CodeUnits) : Str :=
  if f.directHosts.any (meets b host) ∨ f.internalNets.any (within b host) ∨ b.isPlainHostName host ∨
      f.proxyPort = 0 then "DIRECT".toList
  else proxyText f.host f.proxyPort

end PacForm

theorem any_insertHost (p : Str → Bool) (hosts : List Str) (pattern : Str) :
    (insertHost hosts pattern).any p = (hosts.any p || (decide (pattern ≠ []) && p pattern)) := by
  unfold insertHost
  split
  · next h =>
    rcases h with rfl | h
    · simp
    · cases hp : p pattern with
      | false => simp
      | true =>
        have hany : hosts.any p = true := List.any_eq_true.mpr ⟨pattern, h, hp⟩
        rw [hany, Bool.true_or]
  · next h =>
    rw [not_or] at h
    simp [h.1]

theorem any_insertHosts (p : Str → Bool) (hosts patterns : List Str) :
    (patterns.foldl insertHost hosts).any p =
      (hosts.any p || patterns.any (fun pattern => decide (pattern ≠ []) && p pattern)) := by
  induction patterns generalizing hosts with
  | nil => simp
  | cons pattern patterns ih =>
    rw [List.foldl_cons, ih, any_insertHost, List.any_cons, Bool.or_assoc]

theorem length_insertHosts (hosts patterns : List Str) :
    (patterns.foldl insertHost hosts).length ≤ hosts.length + patterns.length := by
  induction patterns generalizing hosts with
  | nil => exact le_rfl
  | cons pattern patterns ih =>
    have hinsert : (insertHost hosts pattern).length ≤ hosts.length + 1 := by
      unfold insertHost
      split
      · omega
      · rw [List.length_append, List.length_singleton]
    have hrest := ih (insertHost hosts pattern)
    rw [List.foldl_cons, List.length_cons]
    omega

section

variable (w : Rendering) (f : PacForm)

/-- The patterns that are stored. -/
def PacForm.hosts : List Str := (f.directHosts.map Text.strip).foldl insertHost []

/-- The networks that are stored. -/
def PacForm.nets : List PacNet :=
  (f.internalNets.map (fun net => (⟨Text.strip net.network, Text.strip net.mask⟩ : PacNet))).filter
    (fun net => net.network ≠ [] ∧ net.mask ≠ [])

/-- The tables that a form makes. -/
def PacForm.tables : PacTables :=
  ⟨some (if f.enabled then "true".toList else "false".toList), some (Text.strip f.proxyHost),
    some (intText f.proxyPort), f.hosts, f.nets⟩

theorem savedHosts_form : savedHosts w (f.directHosts.map Json.text) = f.hosts := by
  rw [savedHosts, List.map_map, PacForm.hosts]
  congr 1
  exact List.map_congr_left (fun pattern _ => by rw [Function.comp_apply, pyStr_text])

theorem savedNet_form (net : PacNet) : savedNet w (PacForm.netJson net) =
    some (if Text.strip net.network ≠ [] ∧ Text.strip net.mask ≠ [] then
      [⟨Text.strip net.network, Text.strip net.mask⟩] else []) := by
  have hnetwork : (JsonObject.ofList [("network", .text net.network), ("mask", .text net.mask)]).getD
      "network" (.text []) = .text net.network := rfl
  have hmask : (JsonObject.ofList [("network", .text net.network), ("mask", .text net.mask)]).getD
      "mask" (.text []) = .text net.mask := rfl
  rw [PacForm.netJson, savedNet, hnetwork, hmask, pyStr_text, pyStr_text]

theorem savedNets_form (nets : List PacNet) : savedNets w (nets.map PacForm.netJson) =
    ((nets.map (fun net => (⟨Text.strip net.network, Text.strip net.mask⟩ : PacNet))).filter
      (fun net => net.network ≠ [] ∧ net.mask ≠ []), true) := by
  induction nets with
  | nil => rfl
  | cons net nets ih =>
    rw [List.map_cons, savedNets, savedNet_form, ih, List.map_cons, List.filter_cons]
    by_cases hnet : Text.strip net.network ≠ [] ∧ Text.strip net.mask ≠ []
    · rw [if_pos hnet, if_pos (decide_eq_true hnet)]
      rfl
    · rw [if_neg hnet, if_neg (fun h => hnet (of_decide_eq_true h))]
      rfl

theorem saveRows_form (t : PacTables) : saveRows w f.data t =
    ({ t with directHosts := f.hosts, internalNets := f.nets }, true) := by
  have hhosts : f.data.get? "direct_hosts" = some (.arr (.ofList (f.directHosts.map Json.text))) := rfl
  have hnets : f.data.get? "internal_nets" =
      some (.arr (.ofList (f.internalNets.map PacForm.netJson))) := rfl
  have hsavehosts : saveHosts w f.data t = ({ t with directHosts := f.hosts }, true) := by
    rw [saveHosts, hhosts]
    dsimp only
    rw [Json.iterate, JsonArray.toList_ofList]
    dsimp only
    rw [savedHosts_form]
  have hsavenets (t : PacTables) : saveNets w f.data t = ({ t with internalNets := f.nets }, true) := by
    rw [saveNets, hnets]
    dsimp only
    rw [Json.iterate, JsonArray.toList_ofList]
    dsimp only
    rw [savedNets_form]
    rfl
  rw [saveRows, hsavehosts]
  exact hsavenets _

/-- The page saves all, and all of it is committed. -/
theorem save_form (hport : (Nat.toDigits 10 f.proxyPort.natAbs).length ≤ Decimal.maxDigits)
    (s : PacState) : s.save w f.data = ⟨f.tables, f.tables, s.port⟩ := by
  have hoverflows : overflows f.data = false := rfl
  have hhost : given f.data "proxy_host" = some (.text f.proxyHost) := rfl
  have hnumber : given f.data "proxy_port" = some (.int f.proxyPort) := rfl
  have hporttext : portText (.int f.proxyPort) = some (intText f.proxyPort) := by
    rw [portText, pyInt, Option.bind_some, if_pos hport]
  have hsettings (t : PacTables) : saveSettings w f.data t =
      { f.tables with directHosts := t.directHosts, internalNets := t.internalNets } := by
    rw [saveSettings, hhost, hnumber]
    dsimp only
    rw [pyStr_text, hporttext, Option.some_or]
    rfl
  rw [PacState.save, hoverflows, if_neg Bool.false_ne_true, saveRows_form, hsettings]
  rfl

/-- The stored port is read as the posted one. -/
theorem int_intText {n : ℤ} (h : (Nat.toDigits 10 n.natAbs).length ≤ Decimal.maxDigits) :
    Decimal.int (intText n) = some n := by
  cases n with
  | ofNat n => exact Decimal.int_toDigits h
  | negSucc n => exact Decimal.int_neg_toDigits h

theorem intText_ne_nil (n : ℤ) : intText n ≠ [] := by
  cases n with
  | ofNat n => exact Nat.toDigits_ne_nil
  | negSucc n => exact List.cons_ne_nil _ _

/-- The settings that the form makes. -/
def PacForm.config : PacConfig := ⟨f.host, f.proxyPort, f.hosts, f.nets, []⟩

/-- With a port of its own, a form makes settings that do not depend on the port of the proxy. -/
theorem config_form (hport : (Nat.toDigits 10 f.proxyPort.natAbs).length ≤ Decimal.maxDigits)
    (committed : PacTables) (port : ℤ) : PacState.config ⟨f.tables, committed, port⟩ = f.config := by
  have hstrip : Text.strip (Text.strip f.proxyHost) = Text.strip f.proxyHost := trim_trim _ _
  have hnumber : (if intText f.proxyPort = [] then port
      else (Decimal.int (intText f.proxyPort)).getD port) = f.proxyPort := by
    rw [if_neg (intText_ne_nil f.proxyPort), int_intText hport, Option.getD_some]
  rw [PacState.config, PacForm.config, PacForm.host, PacForm.tables]
  dsimp only [Option.getD_some]
  rw [hnumber, hstrip]

theorem isEnabled_form (committed : PacTables) (port : ℤ) :
    PacState.isEnabled ⟨f.tables, committed, port⟩ = f.enabled := by
  rw [PacState.isEnabled, PacForm.tables]
  cases f.enabled <;> rfl

/-- What is stored means what the user has asked for. -/
theorem decide_form (b : Browser) (host : CodeUnits) : f.config.decide b host = f.route b host := by
  have hhosts : f.config.directHosts.any (fun pattern => b.shExpMatch host (text pattern)) =
      f.directHosts.any (PacForm.meets b host) := by
    rw [PacForm.config, PacForm.hosts, any_insertHosts, List.any_nil, Bool.false_or, List.any_map]
    rfl
  have hnets : f.config.internalNets.any
      (fun net => b.isInNet (b.dnsResolve host) (text net.network) (text net.mask)) =
      f.internalNets.any (PacForm.within b host) := by
    rw [PacForm.config, PacForm.nets, List.any_filter, List.any_map]
    rfl
  have hret : f.config.proxyRet =
      if f.proxyPort = 0 then "DIRECT".toList else proxyText f.host f.proxyPort := by
    have hne : f.host ≠ [] := by
      unfold PacForm.host
      split
      · decide
      · assumption
    have hproxies : ¬f.config.proxies ≠ [] := fun h => h rfl
    have hhost : f.config.proxyHost ≠ [] := hne
    rw [PacConfig.proxyRet, if_neg hproxies]
    by_cases hzero : f.proxyPort = 0
    · rw [if_neg (fun h => h.2 hzero), if_pos hzero]
    · rw [if_pos ⟨hhost, hzero⟩, if_neg hzero]
      rfl
  simp only [PacConfig.decide, PacForm.route, hhosts, hnets, hret]
  generalize "DIRECT".toList = direct
  generalize proxyText f.host f.proxyPort = proxy
  cases f.directHosts.any (PacForm.meets b host) with
  | true => simp
  | false =>
    cases f.internalNets.any (PacForm.within b host) with
    | true => simp
    | false => cases b.isPlainHostName host <;> simp

end

/-! ### Browsers -/

/-- Every save. -/
def PacRequest.isSave : PacRequest → Bool
  | save _ _ => true
  | _ => false

theorem unquoted_host {f : PacForm} (h : Unquoted f.proxyHost) : Unquoted f.host := by
  unfold PacForm.host
  split
  · decide
  · exact fun c hc => h c (mem_of_mem_trim hc)

section

variable {w : Rendering} {webPort : ℤ} {s₀ : PacServer}

/-- Without a save, tables that are committed stay as they are. -/
theorem tables_run {requests : List PacRequest} (h : ∀ r ∈ requests, r.isSave = false)
    {s : PacServer} {t : PacTables} (hs : s.state.tables = t ∧ s.state.committed = t) :
    ((pacCache w).run s requests).state.tables = t ∧
      ((pacCache w).run s requests).state.committed = t := by
  induction requests generalizing s with
  | nil => exact hs
  | cons r requests ih =>
    obtain ⟨hr, hrest⟩ := List.forall_mem_cons.mp h
    obtain ⟨htables, hcommitted⟩ := hs
    refine ih hrest (s := (pacCache w).step s r) ?_
    cases r with
    | save data look => cases hr
    | commit time => exact ⟨htables, htables⟩
    | rollback time => exact ⟨hcommitted, hcommitted⟩
    | restart port time => exact ⟨hcommitted, hcommitted⟩
    | _ => exact ⟨htables, hcommitted⟩

/-- The state after the page has saved, and requests that are no saves. -/
theorem state_after_save (w : Rendering) (s₀ : PacServer) {f : PacForm}
    (hport : (Nat.toDigits 10 f.proxyPort.natAbs).length ≤ Decimal.maxDigits) (look : Look)
    (before : List PacRequest) {after : List PacRequest} (h : ∀ r ∈ after, r.isSave = false) :
    ∃ port, ((pacCache w).run s₀ (before ++ .save f.data look :: after)).state =
      ⟨f.tables, f.tables, port⟩ := by
  have hsaved : ((pacCache w).step ((pacCache w).run s₀ before) (.save f.data look)).state =
      ⟨f.tables, f.tables, ((pacCache w).run s₀ before).state.port⟩ := save_form w f hport _
  obtain ⟨htables, hcommitted⟩ := tables_run (w := w) h
    (s := (pacCache w).step ((pacCache w).run s₀ before) (.save f.data look)) (t := f.tables)
    (by rw [hsaved]; exact ⟨rfl, rfl⟩)
  rw [TimedCache.run_append]
  exact ⟨_, PacState.ext htables hcommitted rfl⟩

/-- **Browsers go by what has been saved:** as long as no other save has come, the script that is
served answers for every host what the user has asked for. -/
theorem served_saved (h₀ : s₀.cache = none) {f : PacForm}
    (hport : (Nat.toDigits 10 f.proxyPort.natAbs).length ≤ Decimal.maxDigits)
    (hhost : Unquoted f.proxyHost) (look first second : Look) (before : List PacRequest)
    {after : List PacRequest} (hafter : ∀ r ∈ after, r.isSave = false) :
    (f.enabled = false ∧ pacAnswer webPort ((pacCache w).run s₀
        (before ++ .save f.data look :: (after ++ [.script first second])))
        (.script first second) = .disabled) ∨
      ∃ script, f.enabled = true ∧ pacAnswer webPort ((pacCache w).run s₀
          (before ++ .save f.data look :: (after ++ [.script first second])))
          (.script first second) = .script script ∧
        ∀ (b : Browser) (url host : CodeUnits) (n : ℕ), f.directHosts.length < n →
          f.internalNets.length < n →
          run b.call n script "FindProxyForURL".toList [.str url, .str host] =
            some (.str (text (f.route b host))) := by
  set requests := before ++ .save f.data look :: after with hrequests
  have hall : before ++ .save f.data look :: (after ++ [.script first second]) =
      requests ++ [.script first second] := by
    rw [hrequests, List.append_assoc, List.cons_append]
  obtain ⟨port, hstate⟩ := state_after_save w s₀ hport look before hafter
  have henabled : ((pacCache w).run s₀ requests).state.isEnabled = f.enabled := by
    rw [hstate, isEnabled_form]
  have hscript : ((pacCache w).run s₀ (requests ++ [.script first second])).state.isEnabled =
      f.enabled := by
    rw [TimedCache.run_concat]
    exact henabled
  rw [hall, pacAnswer, hscript]
  cases hf : f.enabled with
  | false => exact .inl ⟨rfl, rfl⟩
  | true =>
    refine .inr ⟨_, rfl, rfl, fun b url host n hn hn' => ?_⟩
    have hreads : (pacCache w).reads ((pacCache w).run s₀ requests).state (.script first second) ≠
        [] := by
      have hlooks : (pacCache w).reads ((pacCache w).run s₀ requests).state (.script first second) =
          [(first.check, first.stamp), (second.check, second.stamp)] := if_pos (henabled.trans hf)
      rw [hlooks]
      exact List.cons_ne_nil _ _
    obtain ⟨⟨view, time⟩, hcache⟩ := Option.ne_none_iff_exists'.mp (TimedCache.cache_ne_none hreads)
    have hfresh := TimedCache.fresh_run h₀ _ view time hcache
    rw [← hall] at hfresh
    obtain ⟨mid, rest, hmid, rfl⟩ := hfresh.of_drops rfl
    -- no request since the save has changed the tables
    have hmidsave : ∀ r ∈ mid, r.isSave = false := by
      intro r hr
      rcases List.mem_append.mp (hmid ▸ List.mem_append_left rest hr) with hr | hr
      · exact hafter r hr
      · rw [List.mem_singleton.mp hr]
        rfl
    obtain ⟨port', hstate'⟩ := state_after_save w s₀ hport look before hmidsave
    have hkept : PacServer.kept ((pacCache w).run s₀ (requests ++ [.script first second])) =
        renderPac f.config := by
      rw [PacServer.kept, hcache]
      change renderPac ((pacCache w).run s₀ (before ++ .save f.data look :: mid)).state.config = _
      rw [hstate', config_form f hport]
    have hhosts : f.config.directHosts.length < n := by
      have hle := length_insertHosts [] (f.directHosts.map Text.strip)
      rw [List.length_map] at hle
      exact lt_of_le_of_lt hle (by simpa using hn)
    have hnets : f.config.internalNets.length < n := by
      have hle := List.length_filter_le (fun net => decide (net.network ≠ [] ∧ net.mask ≠ []))
        (f.internalNets.map (fun net => (⟨Text.strip net.network, Text.strip net.mask⟩ : PacNet)))
      rw [List.length_map] at hle
      exact lt_of_le_of_lt hle hn'
    have hret : Unquoted f.config.proxyRet :=
      f.config.unquoted_proxyRet (unquoted_host hhost) (fun p hp => absurd hp List.not_mem_nil)
    rw [hkept, run_of_unquoted f.config b url host hret hhosts hnets, decide_form]

end

/-- A pattern with quotes, saved after a save that failed midway, and before the program is restarted
with another port. -/
theorem served_saved_office :
    ∃ script, pacAnswer 17177 ((pacCache ⟨fun _ => [], fun _ => []⟩).run enabledServer
        ([.save (.ofList [("direct_hosts", .null)]) ⟨0, 0⟩] ++
          .save (PacForm.data ⟨true, "10.0.0.1".toList, 8080, [" a\"b ".toList], []⟩) ⟨1, 1⟩ ::
            ([.restart 9090 2] ++ [.script ⟨3, 3⟩ ⟨3, 3⟩]))) (.script ⟨3, 3⟩ ⟨3, 3⟩) =
              .script script ∧
      run (Browser.call ⟨fun s p => s = p, some, fun _ _ _ => false, fun _ => false⟩) 2 script
          "FindProxyForURL".toList [.str [], .str (text "a\"b".toList)] =
        some (.str (text "DIRECT".toList)) := by
  have hhost : Unquoted "10.0.0.1".toList := by decide
  rcases @served_saved ⟨fun _ => [], fun _ => []⟩ 17177 enabledServer rfl
    ⟨true, "10.0.0.1".toList, 8080, [" a\"b ".toList], []⟩ (by decide) hhost ⟨1, 1⟩ ⟨3, 3⟩ ⟨3, 3⟩
    [.save (.ofList [("direct_hosts", .null)]) ⟨0, 0⟩] [.restart 9090 2] (by decide) with h | h
  · exact absurd h.1 (by decide)
  · obtain ⟨script, -, hanswer, hrun⟩ := h
    exact ⟨script, hanswer, hrun _ _ _ 2 (by decide) (by decide)⟩

end Web

end HuntProxy
