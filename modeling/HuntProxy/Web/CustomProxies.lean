import HuntProxy.Lib.Casing
import HuntProxy.Lib.Cut
import HuntProxy.Lib.Decimal
import HuntProxy.Lib.Dict
import HuntProxy.Lib.Url
import HuntProxy.Proxy.HttpConnect
import HuntProxy.Scheduler.Json
import HuntProxy.Web.Router
import Mathlib.Data.Char
import Mathlib.Data.List.Lex

/-!
# The custom proxies

The user enters proxies of his own, with names and passwords for them. The web interface lists
them, changes them, switches them on and off, and tries them out; a test goes on while other
requests are answered. A password is never listed: four asterisks stand for it, and these leave
it as it is when they come back with a change.

The number that a test finds out, and how Python and SQLite write numbers as text, are parameters.

## Main definitions

- `CustomProxy`, `ProxyTable` — the table
- `createCustomProxy`, `updateCustomProxy`, `toggleCustomProxy` — the changes
- `maskProxy` — a proxy without its password
- `ProxyApi`, `ProxyApi.handle`, `ProxyApi.finish` — requests, and the ends of tests
-/

namespace HuntProxy

namespace JsonObject

/-- The value of a member. -/
def get? : JsonObject → String → Option Json
  | nil, _ => none
  | cons k v rest, key => if k = key then some v else rest.get? key

/-- `data.get(key, default)`. -/
def getD (data : JsonObject) (key : String) (default : Json) : Json := (data.get? key).getD default

/-- An object of these members. -/
def ofList : List (String × Json) → JsonObject
  | [] => .nil
  | (k, v) :: rest => .cons k v (ofList rest)

end JsonObject

namespace JsonArray

/-- An array of these items. -/
def ofList : List Json → JsonArray
  | [] => .nil
  | v :: rest => .cons v (ofList rest)

end JsonArray

/-- A text as a value. -/
def Json.text (s : Ip.Str) : Json := .str (String.ofList s)

namespace Web

open Ip (Str)

/-! ### Values of columns -/

/-- How numbers and containers are written: by SQLite in a column of texts, and by `str`. -/
structure Rendering where
  real : PyFloat → Str
  value : Json → Str

/-- An integer that SQLite can store. -/
def integerColumn (n : ℤ) : Option ℤ := if -2 ^ 63 ≤ n ∧ n < 2 ^ 63 then some n else none

/-- A value in a column of texts; `none` says that the statement fails. -/
def textColumn (w : Rendering) : Json → Option Str
  | .null => none
  | .bool b => some (if b then ['1'] else ['0'])
  | .int n => (integerColumn n).map (fun n => (toString n).toList)
  | .float .nan => none
  | .float x => some (w.real x)
  | .str s => some s.toList
  | .arr _ => none
  | .obj _ => none

/-- `str(v)`. -/
def pyStr (w : Rendering) : Json → Str
  | .str s => s.toList
  | v => w.value v

/-- `int(v)`. -/
def pyInt : Json → Option ℤ
  | .bool b => some (if b then 1 else 0)
  | .int n => some n
  | .float (.finite q) => some (q.num.tdiv q.den)
  | .str s => Decimal.int s.toList
  | _ => none

/-- `v.strip()`; `none` stands for the exception for all but texts. -/
def stripped : Json → Option Str
  | .str s => some (Text.strip s.toList)
  | _ => none

theorem text_injective {s s' : Str} (h : Json.text s = Json.text s') : s = s' := by
  have hstring : String.ofList s = String.ofList s' := Json.str.inj h
  rw [← String.toList_ofList (l := s), hstring, String.toList_ofList]

theorem textColumn_text (w : Rendering) (s : Str) : textColumn w (.text s) = some s := by
  rw [Json.text, textColumn, String.toList_ofList]

theorem pyStr_text (w : Rendering) (s : Str) : pyStr w (.text s) = s := by
  rw [Json.text, pyStr, String.toList_ofList]

/-! ### The table -/

/-- A row of the table, without its key. -/
structure CustomProxy where
  name : Str
  protocol : Str
  host : Str
  port : ℤ
  username : Str
  password : Str
  testUrl : Str
  lastCheckAt : Time
  lastCheckStatus : Str
  lastCheckLatency : ℤ
  enabled : ℤ
  createdAt : Time
  updatedAt : Time
  deriving DecidableEq

/-- The table `custom_proxies`. -/
abbrev ProxyTable := Dict Str CustomProxy

/-- What is shown for a password. -/
def maskText : Str := "****".toList

/-- `_mask_proxy`. -/
def maskProxy (p : CustomProxy) : CustomProxy :=
  if p.password = [] then p else { p with password := maskText }

/-- The row as a dictionary. -/
def proxyObject (id : Str) (p : CustomProxy) : JsonObject :=
  .ofList [("id", .text id), ("name", .text p.name), ("protocol", .text p.protocol),
    ("host", .text p.host), ("port", .int p.port), ("username", .text p.username),
    ("password", .text p.password), ("test_url", .text p.testUrl),
    ("last_check_at", .float (.finite p.lastCheckAt)), ("last_check_status", .text p.lastCheckStatus),
    ("last_check_latency", .int p.lastCheckLatency), ("enabled", .int p.enabled),
    ("created_at", .float (.finite p.createdAt)), ("updated_at", .float (.finite p.updatedAt))]

/-- `get_custom_proxies`. -/
def getCustomProxies (table : ProxyTable) : List (Str × CustomProxy) :=
  (table.items.insertionSort (fun a b => a.2.name ≤ b.2.name)).map (fun p => (p.1, maskProxy p.2))

/-- `get_custom_proxy`. -/
def getCustomProxy (table : ProxyTable) (id : Str) : Option JsonObject :=
  (table.get? id).map (fun p => proxyObject id (maskProxy p))

/-- What the log says about a change. -/
inductive ProxyEvent
  | created (name : Str) (protocol : Json) (host : Str) (port : Json)
  | updated (id : Str)
  | deleted (id : Str)
  | toggled (id : Str) (enabled : Bool)
  deriving DecidableEq

/-! ### The changes -/

/-- `create_custom_proxy`; `none` stands for an exception in front of the `try`. -/
def createCustomProxy (w : Rendering) (table : ProxyTable) (data : JsonObject) (now : Time) :
    Option (ProxyTable × List ProxyEvent × Option JsonObject) :=
  match stripped (data.getD "id" (.text [])), stripped (data.getD "name" (.text [])),
      stripped (data.getD "host" (.text [])) with
  | some id, some name, some host =>
    let port := data.getD "port" (.int 0)
    if id = [] ∨ name = [] ∨ host = [] ∨ port.truthy = false then some (table, [], none)
    else
      match (pyInt port).bind integerColumn, textColumn w (data.getD "protocol" (.str "socks5")),
          textColumn w (data.getD "username" (.text [])), textColumn w (data.getD "password" (.text [])),
          textColumn w (data.getD "test_url" (.text [])) with
      | some number, some protocol, some username, some password, some testUrl =>
        if table.contains id then some (table, [], none)
        else
          let table := table.insert id
            { name, protocol, host, port := number, username, password, testUrl, lastCheckAt := 0,
              lastCheckStatus := [], lastCheckLatency := -1, enabled := 1, createdAt := now,
              updatedAt := now }
          some (table, [.created name (data.getD "protocol" (.str "socks5")) host port],
            getCustomProxy table id)
      | _, _, _, _, _ => some (table, [], none)
  | _, _, _ => none

/-- A column that is changed only if the request names it. -/
def changed {α : Type} (data : JsonObject) (key : String) (old : α) (column : Json → Option α) :
    Option α :=
  match data.get? key with
  | none => some old
  | some v => column v

/-- The row that `update_custom_proxy` writes; `none` if the statement fails. -/
def changedRow (w : Rendering) (data : JsonObject) (now : Time) (p : CustomProxy) :
    Option CustomProxy :=
  match changed data "name" p.name (fun v => some (Text.strip (pyStr w v))),
      changed data "protocol" p.protocol (textColumn w),
      changed data "host" p.host (fun v => some (Text.strip (pyStr w v))),
      changed data "port" p.port (fun v => (pyInt v).bind integerColumn),
      changed data "username" p.username (textColumn w),
      changed data "password" p.password
        (fun v => if v = .text maskText then some p.password else textColumn w v),
      changed data "test_url" p.testUrl (textColumn w),
      changed data "enabled" p.enabled (fun v => some (if v.truthy then 1 else 0)) with
  | some name, some protocol, some host, some port, some username, some password, some testUrl,
      some enabled =>
    some { p with name, protocol, host, port, username, password, testUrl, enabled, updatedAt := now }
  | _, _, _, _, _, _, _, _ => none

/-- `update_custom_proxy`. -/
def updateCustomProxy (w : Rendering) (table : ProxyTable) (id : Str) (data : JsonObject)
    (now : Time) : ProxyTable × List ProxyEvent × Option JsonObject :=
  match table.get? id with
  | none => (table, [], none)
  | some p =>
    match changedRow w data now p with
    | none => (table, [], none)
    | some p =>
      let table := table.insert id p
      (table, [.updated id], getCustomProxy table id)

/-- `toggle_custom_proxy`. -/
def toggleCustomProxy (table : ProxyTable) (id : Str) (now : Time) :
    ProxyTable × List ProxyEvent × Option JsonObject :=
  match table.get? id with
  | none => (table, [], none)
  | some p =>
    let enabled : ℤ := if p.enabled ≠ 0 then 0 else 1
    let table := table.insert id { p with enabled, updatedAt := now }
    (table, [.toggled id (decide (enabled ≠ 0))], getCustomProxy table id)

/-! ### Tests -/

/-- What a test comes to. -/
inductive ProbeOutcome
  | connectTimeout
  | connectError (error : Str)
  | refused
  | reached (latency : ℤ) (httpCode : ℤ) (readLatency : ℤ)
  | readTimeout
  | failed (error : Str)

/-- The result of a test. -/
structure ProbeResult where
  status : Str
  httpCode : ℤ
  latency : ℤ
  error : Str

/-- `_fail_result`. -/
def failResult (error : Str) : ProbeResult := ⟨"fail".toList, 0, -1, error⟩

/-- `_timeout_result`. -/
def timeoutResult (error : Str) : ProbeResult := ⟨"timeout".toList, 0, -1, error⟩

/-- The result as a dictionary. -/
def ProbeResult.json (r : ProbeResult) : Json :=
  .obj (.ofList [("status", .text r.status), ("http_code", .int r.httpCode),
    ("latency_ms", .int r.latency), ("error", .text r.error)])

/-- A test on its way: whose result is stored, the proxy that is connected to, and what it is asked
for. The password is left out, which the proxy alone gets. -/
structure Probe where
  id : Option Str
  host : Str
  port : ℤ
  protocol : Json
  username : Json
  url : Json
  deriving DecidableEq

/-- The end of a test. -/
def ProbeOutcome.result (o : ProbeOutcome) (tunnelOnly : Bool) : ProbeResult :=
  match o with
  | connectTimeout => timeoutResult "connection timeout".toList
  | connectError error => failResult error
  | refused => failResult "handshake failed".toList
  | reached latency httpCode readLatency =>
    if tunnelOnly then ⟨"ok".toList, 0, latency, []⟩
    else ⟨if 200 ≤ httpCode ∧ httpCode < 400 then "ok".toList else "fail".toList, httpCode,
      readLatency, []⟩
  | readTimeout => timeoutResult "read timeout".toList
  | failed error => failResult error

/-- `_update_proxy_check`. -/
def updateProxyCheck (table : ProxyTable) (id : Str) (r : ProbeResult) (now : Time) : ProxyTable :=
  table.modify id (fun p => { p with
    lastCheckAt := now, lastCheckStatus := r.status, lastCheckLatency := r.latency, updatedAt := now })

/-! ### Requests -/

/-- What is answered; an exception closes the connection, and a test is answered at its end. -/
inductive ProxyAnswer
  | reply (body : Json) (status : ℕ)
  | closed
  | testing (probe : Probe)
  deriving DecidableEq

/-- The table, and the tests on their way. -/
structure ProxyApi where
  table : ProxyTable
  probes : List Probe

/-- `{"error": "not found"}`. -/
def notFound : ProxyAnswer := .reply (.obj (.ofList [("error", .str "not found")])) 404

/-- The answer of a change of one proxy. -/
def changeAnswer (result : Option JsonObject) (error : String) (status : ℕ) : ProxyAnswer :=
  match result with
  | some p => .reply (.obj (.ofList [("ok", .bool true), ("proxy", .obj p)])) 200
  | none => .reply (.obj (.ofList [("ok", .bool false), ("error", .str error)])) status

/-- The handlers. -/
inductive ProxyHandler
  | list
  | create
  | testDirect
  | get
  | post
  | delete
  deriving DecidableEq

/-- The beginning of the paths of single proxies. -/
def proxyPath : Str := "/api/custom-proxies/".toList

/-- The registrations of the handlers. -/
def proxyRoutes : List (Registration ProxyHandler) :=
  [.add "GET".toList "/api/custom-proxies".toList .list,
    .add "POST".toList "/api/custom-proxies".toList .create,
    .add "POST".toList "/api/custom-proxies/test-direct".toList .testDirect,
    .addPrefix "GET".toList proxyPath .get,
    .addPrefix "POST".toList proxyPath .post,
    .addPrefix "DELETE".toList proxyPath .delete]

/-- `path.endswith(...)`. -/
def endsWith (path ending : Str) : Bool := ending.isSuffixOf path

/-- `unquote(path[len("/api/custom-proxies/"):-len(ending)])`. -/
def proxyId (path ending : Str) : Str :=
  Url.unquote ((path.take (path.length - ending.length)).drop proxyPath.length)

/-- A path that only a `POST` request has. -/
def postOnly (path : Str) : Bool :=
  endsWith path "/toggle".toList || endsWith path "/test".toList ||
    decide (path = "/api/custom-proxies/test-direct".toList)

section

variable (w : Rendering) (lower : LowerCase) (upper : Str → Str) (loads : Bytes → Option Json)

/-- `_json_body`. -/
def jsonBody (body : Bytes) : JsonObject :=
  match loads (if body = [] then ascii "\x7b\x7d" else body) with
  | some (.obj data) => data
  | _ => .nil

/-- Only the tunnel is tested: a SOCKS proxy and a URL with `https`. -/
def Probe.tunnelOnly (probe : Probe) : Bool :=
  match probe.url with
  | .str url => decide (probe.protocol = .str "socks5") &&
      "https://".toList.isPrefixOf (lower.apply url.toList)
  | _ => false

namespace ProxyApi

/-- A test is on its way. -/
def start (s : ProxyApi) (probe : Probe) : ProxyApi × ProxyAnswer :=
  ({ s with probes := s.probes ++ [probe] }, .testing probe)

/-- `test_custom_proxy`, up to the first await. -/
def startTest (s : ProxyApi) (id : Str) : ProxyApi × ProxyAnswer :=
  match s.table.get? id with
  | none => (s, .reply (failResult "proxy not found".toList).json 200)
  | some p =>
    if p.enabled = 0 then (s, .reply (failResult "proxy is disabled".toList).json 200)
    else
      s.start
        { id := some id
          host := p.host
          port := p.port
          protocol := .text p.protocol
          username := .text p.username
          url := if p.testUrl = [] then .str "http://httpbin.org/ip" else .text p.testUrl }

/-- `test_proxy_direct`, up to the first await. -/
def startDirect (s : ProxyApi) (data : JsonObject) : ProxyApi × ProxyAnswer :=
  let port := data.getD "port" (.int 0)
  let url := data.getD "test_url" (.text [])
  match stripped (data.getD "host" (.text [])), if port.truthy then pyInt port else some 0 with
  | some host, some number =>
    if host = [] ∨ number = 0 then
      (s, .reply (failResult "host and port required".toList).json 200)
    else
      s.start
        { id := none
          host := host
          port := number
          protocol := data.getD "protocol" (.str "socks5")
          username := data.getD "username" (.text [])
          url := if url.truthy then url else .str "http://httpbin.org/ip" }
  | _, _ => (s, .closed)

/-- A request: the state, what is logged, and the answer or the test that has been started. -/
def handle (s : ProxyApi) (method rawPath : Str) (body : Bytes) (now : Time) :
    ProxyApi × List ProxyEvent × Option ProxyAnswer :=
  let path := beforeFirst '?' rawPath
  match (Registration.runAll upper proxyRoutes).matchHandler upper method path with
  | none => (s, [], some notFound)
  | some .list =>
    let proxies := (getCustomProxies s.table).map (fun p => Json.obj (proxyObject p.1 p.2))
    (s, [], some (.reply (.obj (.ofList [("proxies", .arr (.ofList proxies))])) 200))
  | some .create =>
    match createCustomProxy w s.table (jsonBody loads body) now with
    | none => (s, [], some .closed)
    | some (table, events, result) =>
      ({ s with table }, events,
        some (changeAnswer result "id, name, host and port are required" 400))
  | some .testDirect =>
    let r := s.startDirect (jsonBody loads body)
    (r.1, [], some r.2)
  | some .get =>
    if postOnly path then (s, [], some notFound)
    else
      match getCustomProxy s.table (proxyId path []) with
      | some p => (s, [], some (.reply (.obj p) 200))
      | none => (s, [], some notFound)
  | some .post =>
    if endsWith path "/toggle".toList then
      let r := toggleCustomProxy s.table (proxyId path "/toggle".toList) now
      ({ s with table := r.1 }, r.2.1, some (changeAnswer r.2.2 "not found" 404))
    else if endsWith path "/test".toList then
      let r := s.startTest (proxyId path "/test".toList)
      (r.1, [], some r.2)
    else
      let r := updateCustomProxy w s.table (proxyId path []) (jsonBody loads body) now
      ({ s with table := r.1 }, r.2.1, some (changeAnswer r.2.2 "not found" 404))
  | some .delete =>
    if postOnly path then (s, [], some notFound)
    else
      let id := proxyId path []
      ({ s with table := s.table.erase id }, [.deleted id],
        some (.reply (.obj (.ofList [("ok", .bool true)])) 200))

/-- The end of a test: the result is stored and answered. -/
def finish (s : ProxyApi) (i : ℕ) (outcome : ProbeOutcome) (now : Time) :
    ProxyApi × List ProxyEvent × Option ProxyAnswer :=
  match s.probes[i]? with
  | none => (s, [], none)
  | some probe =>
    let r := outcome.result (probe.tunnelOnly lower)
    let table := match probe.id with
      | none => s.table
      | some id => updateProxyCheck s.table id r now
    (⟨table, s.probes.eraseIdx i⟩, [], some (.reply r.json 200))

end ProxyApi

/-- What happens to the interface. -/
inductive ProxyInput
  | request (method rawPath : Str) (body : Bytes) (now : Time)
  | finished (i : ℕ) (outcome : ProbeOutcome) (now : Time)

/-- One step, with what can be seen of it. -/
def ProxyApi.step (s : ProxyApi) :
    ProxyInput → ProxyApi × List ProxyEvent × Option ProxyAnswer
  | .request method rawPath body now => s.handle w upper loads method rawPath body now
  | .finished i outcome now => s.finish lower i outcome now

end

end Web

end HuntProxy
