import HuntProxy.Lib.Decimal
import HuntProxy.Lib.JavaScript

/-!
# The proxy configuration script

Browsers load a script that tells them for each host whether to ask the proxy. It is made from
lists of patterns and of networks, which are written into it as JSON, and from the text of the
answer, which is written into it as it is. The functions that the browser gives to the script are
a parameter.

## Main definitions

- `PacConfig`, `renderPac` — the settings and the script
- `PacConfig.decide` — what the settings mean
- `Browser` — the functions of the browser
- `pacScript` — the function that the script is read as

## Main results

- `lex_renderPac`, `parse_pacTokens` — the script is read as this function
- `run_renderPac` — the script answers what the settings mean
-/

namespace HuntProxy.Web

open Ip (Str)
open Js

/-! ### The script -/

/-- A network whose hosts are reached directly. -/
structure PacNet where
  network : Str
  mask : Str
  deriving DecidableEq

/-- The settings that the script is made from. -/
structure PacConfig where
  proxyHost : Str
  proxyPort : ℤ
  directHosts : List Str
  internalNets : List PacNet
  proxies : List (Str × ℤ)
  deriving DecidableEq

/-- A number as text. -/
def intText : ℤ → Str
  | .ofNat n => Nat.toDigits 10 n
  | .negSucc n => '-' :: Nat.toDigits 10 (n + 1)

/-- `PROXY host:port`. -/
def proxyText (host : Str) (port : ℤ) : Str := "PROXY ".toList ++ host ++ ':' :: intText port

/-- `"; ".join`. -/
def proxyTexts : List (Str × ℤ) → Str
  | [] => []
  | [p] => proxyText p.1 p.2
  | p :: rest => proxyText p.1 p.2 ++ "; ".toList ++ proxyTexts rest

namespace PacConfig

variable (c : PacConfig)

/-- `proxy_ret`. -/
def proxyRet : Str :=
  if c.proxies ≠ [] then proxyTexts c.proxies
  else if c.proxyHost ≠ [] ∧ c.proxyPort ≠ 0 then proxyText c.proxyHost c.proxyPort
  else "DIRECT".toList

/-- `json.dumps(direct_hosts)`. -/
def hostsText : Str := dumpsArr (c.directHosts.map dumpsStr)

/-- `json.dumps(internal_nets)`. -/
def netsText : Str :=
  dumpsArr (c.internalNets.map (fun net =>
    dumpsObj [("network".toList, dumpsStr net.network), ("mask".toList, dumpsStr net.mask)]))

end PacConfig

/-- The lines up to the patterns. -/
def pacHead : Str :=
  "function FindProxyForURL(url, host) \x7b\n    var directHosts = ".toList

/-- The lines between the patterns and the networks. -/
def pacHosts : Str :=
  ";\n    for (var i = 0; i < directHosts.length; i++)\n".toList ++
    "        if (shExpMatch(host, directHosts[i])) return \"DIRECT\";\n\n".toList ++
    "    var internalNets = ".toList

/-- The lines between the networks and the answer. -/
def pacNets : Str :=
  ";\n    for (var j = 0; j < internalNets.length; j++)\n".toList ++
    "        if (isInNet(dnsResolve(host), internalNets[j].network, ".toList ++
    "internalNets[j].mask)) return \"DIRECT\";\n\n".toList ++
    "    if (isPlainHostName(host)) return \"DIRECT\";\n\n    return \"".toList

/-- The end of the script. -/
def pacEnd : Str := "\";\n\x7d\n".toList

/-- `render_pac`. -/
def renderPac (c : PacConfig) : Str :=
  pacHead ++ c.hostsText ++ pacHosts ++ c.netsText ++ pacNets ++ c.proxyRet ++ pacEnd

/-! ### What the settings mean -/

/-- The functions of the browser. -/
structure Browser where
  shExpMatch : CodeUnits → CodeUnits → Bool
  dnsResolve : CodeUnits → Option CodeUnits
  isInNet : Option CodeUnits → CodeUnits → CodeUnits → Bool
  isPlainHostName : CodeUnits → Bool

/-- The answer for a host: hosts of the patterns, hosts in the networks and plain names are reached
directly, all others over the proxy. -/
def PacConfig.decide (c : PacConfig) (b : Browser) (host : CodeUnits) : Str :=
  if c.directHosts.any (fun pattern => b.shExpMatch host (text pattern)) then "DIRECT".toList
  else if c.internalNets.any (fun net => b.isInNet (b.dnsResolve host) (text net.network) (text net.mask))
    then "DIRECT".toList
  else if b.isPlainHostName host then "DIRECT".toList
  else c.proxyRet

/-- An address, or `null`. -/
def resolved : Option CodeUnits → Val
  | some address => .str address
  | none => .null

/-- A call of a function of the browser. -/
def Browser.call (b : Browser) (f : Str) (args : List Val) : Option Val :=
  if f = "shExpMatch".toList then
    match args with
    | [.str host, .str pattern] => some (.bool (b.shExpMatch host pattern))
    | _ => none
  else if f = "dnsResolve".toList then
    match args with
    | [.str host] => some (resolved (b.dnsResolve host))
    | _ => none
  else if f = "isInNet".toList then
    match args with
    | [.str host, .str net, .str mask] => some (.bool (b.isInNet (some host) net mask))
    | [.null, .str net, .str mask] => some (.bool (b.isInNet none net mask))
    | _ => none
  else if f = "isPlainHostName".toList then
    match args with
    | [.str host] => some (.bool (b.isPlainHostName host))
    | _ => none
  else none

/-! ### The tokens -/

/-- A text that is a string of the script as it is. -/
def Unquoted (s : Str) : Prop := ∀ c ∈ s, c ≠ '"' ∧ c ≠ '\\' ∧ c ≠ '\n' ∧ c ≠ '\r'

instance : DecidablePred Unquoted := fun s =>
  decidable_of_iff (s.all (fun c => decide (c ≠ '"' ∧ c ≠ '\\' ∧ c ≠ '\n' ∧ c ≠ '\r')) = true)
    (by simp only [List.all_eq_true, decide_eq_true_eq, Unquoted])

/-- The tokens of the patterns. -/
def hostsTokens (hosts : List Str) : List Token :=
  .op '[' :: (commas (hosts.map (fun s => [.str (text s)])) ++ [.op ']'])

/-- The tokens of a network. -/
def netTokens (net : PacNet) : List Token :=
  .op '{' :: (commas [[.str (text "network".toList), .op ':', .str (text net.network)],
    [.str (text "mask".toList), .op ':', .str (text net.mask)]] ++ [.op '}'])

/-- The tokens of the networks. -/
def netsTokens (nets : List PacNet) : List Token :=
  .op '[' :: (commas (nets.map netTokens) ++ [.op ']'])

/-- A name as a token. -/
def name (s : String) : Token := .word s.toList

/-- `return "DIRECT";` -/
def returnDirect : List Token := [name "return", .str (text "DIRECT".toList), .op ';']

def headTokens : List Token :=
  [name "function", name "FindProxyForURL", .op '(', name "url", .op ',', name "host", .op ')',
    .op '{', name "var", name "directHosts", .op '=']

/-- The loop over the patterns. -/
def hostsLoop : List Token :=
  [name "for", .op '(', name "var", name "i", .op '=', .num 0, .op ';', name "i", .op '<',
    name "directHosts", .op '.', name "length", .op ';', name "i", .incr, .op ')', name "if", .op '(',
    name "shExpMatch", .op '(', name "host", .op ',', name "directHosts", .op '[', name "i", .op ']',
    .op ')', .op ')'] ++ returnDirect

/-- The loop over the networks. -/
def netsLoop : List Token :=
  [name "for", .op '(', name "var", name "j", .op '=', .num 0, .op ';', name "j", .op '<',
    name "internalNets", .op '.', name "length", .op ';', name "j", .incr, .op ')', name "if",
    .op '(', name "isInNet", .op '(', name "dnsResolve", .op '(', name "host", .op ')', .op ',',
    name "internalNets", .op '[', name "j", .op ']', .op '.', name "network", .op ',',
    name "internalNets", .op '[', name "j", .op ']', .op '.', name "mask", .op ')', .op ')'] ++
    returnDirect

/-- The condition for plain names. -/
def plainTokens : List Token :=
  [name "if", .op '(', name "isPlainHostName", .op '(', name "host", .op ')', .op ')'] ++ returnDirect

/-- The tokens of the script. -/
def pacTokens (c : PacConfig) : List Token :=
  headTokens ++ hostsTokens c.directHosts ++ [.op ';'] ++ hostsLoop ++
    [name "var", name "internalNets", .op '='] ++ netsTokens c.internalNets ++ [.op ';'] ++ netsLoop ++
    plainTokens ++ [name "return", .str (text c.proxyRet), .op ';', .op '}']

theorem lexes_hostsText (c : PacConfig) : Lexes c.hostsText (hostsTokens c.directHosts) := by
  have hall : ∀ p ∈ c.directHosts.map (fun s => (dumpsStr s, [Token.str (text s)])), Lexes p.1 p.2 := by
    intro p hp
    obtain ⟨s, -, rfl⟩ := List.mem_map.mp hp
    exact lexRun_dumpsStr s
  have harr := Lexes.dumpsArr hall
  rw [List.map_map, List.map_map] at harr
  exact harr

theorem lexes_netsText (c : PacConfig) : Lexes c.netsText (netsTokens c.internalNets) := by
  have hnet (net : PacNet) : Lexes (dumpsObj [("network".toList, dumpsStr net.network),
      ("mask".toList, dumpsStr net.mask)]) (netTokens net) := by
    have hall : ∀ p ∈ [("network".toList, dumpsStr net.network, [Token.str (text net.network)]),
        ("mask".toList, dumpsStr net.mask, [Token.str (text net.mask)])], Lexes p.2.1 p.2.2 := by
      intro p hp
      rcases List.mem_pair.mp hp with rfl | rfl
      · exact lexRun_dumpsStr net.network
      · exact lexRun_dumpsStr net.mask
    exact Lexes.dumpsObj hall
  have hall : ∀ p ∈ c.internalNets.map (fun net => (dumpsObj [("network".toList, dumpsStr net.network),
      ("mask".toList, dumpsStr net.mask)], netTokens net)), Lexes p.1 p.2 := by
    intro p hp
    obtain ⟨net, -, rfl⟩ := List.mem_map.mp hp
    exact hnet net
  have harr := Lexes.dumpsArr hall
  rw [List.map_map, List.map_map] at harr
  exact harr

/-- The script is cut into these tokens. -/
theorem lex_renderPac (c : PacConfig) (h : Unquoted c.proxyRet) :
    lex (renderPac c) = some (pacTokens c) := by
  have hhead : lexRun .start pacHead = some (headTokens, .start) := by decide +kernel
  have hhosts : lexRun .start pacHosts =
      some ([.op ';'] ++ hostsLoop ++ [name "var", name "internalNets", .op '='], .start) := by
    decide +kernel
  have hnets : lexRun .start pacNets =
      some ([.op ';'] ++ netsLoop ++ plainTokens ++ [name "return"], .str []) := by decide +kernel
  have hret : lexRun (.str []) (c.proxyRet ++ pacEnd) =
      some ([.str (text c.proxyRet), .op ';', .op '}'], .start) := by
    have hend : ∀ u, lexRun (.str u) pacEnd = some ([.str u, .op ';', .op '}'], .start) :=
      fun u => rfl
    exact lexRun_append_some (lexRun_raw [] h) (hend (text c.proxyRet))
  have hfront : Lexes (pacHead ++ c.hostsText ++ pacHosts ++ c.netsText) _ :=
    ((Lexes.append hhead (lexes_hostsText c)).append hhosts).append (lexes_netsText c)
  have hall := lexRun_append_some hfront (lexRun_append_some hnets hret)
  have hscript : renderPac c = pacHead ++ c.hostsText ++ pacHosts ++ c.netsText ++
      (pacNets ++ (c.proxyRet ++ pacEnd)) := by
    simp only [renderPac, List.append_assoc]
  rw [lex, hscript, hall, Option.bind_some, finish, Option.map_some, pacTokens]
  simp only [List.append_assoc, List.cons_append, List.nil_append, List.append_nil]

/-! ### The function -/

/-- The values of the patterns. -/
def hostsVal (hosts : List Str) : Val := .arr (hosts.map (fun s => .str (text s)))

/-- The value of a network. -/
def netVal (net : PacNet) : Val :=
  .obj [(text "network".toList, .str (text net.network)), (text "mask".toList, .str (text net.mask))]

/-- The values of the networks. -/
def netsVal (nets : List PacNet) : Val := .arr (nets.map netVal)

/-- A variable. -/
def ref (s : String) : Expr := .var s.toList

/-- The condition that a counter is below the length of a list. -/
def below (counter list : String) : Expr := .lt (ref counter) (.member (ref list) "length".toList)

/-- An answer. -/
def answer (s : Str) : Statement := .ret (.lit (.str (text s)))

/-- The round of the loop over the patterns. -/
def hostsRound : Statement :=
  .ifThen (.call "shExpMatch".toList [ref "host", .index (ref "directHosts") (ref "i")])
    (answer "DIRECT".toList)

/-- The round of the loop over the networks. -/
def netsRound : Statement :=
  .ifThen (.call "isInNet".toList [.call "dnsResolve".toList [ref "host"],
    .member (.index (ref "internalNets") (ref "j")) "network".toList,
    .member (.index (ref "internalNets") (ref "j")) "mask".toList]) (answer "DIRECT".toList)

/-- The statements of the script. -/
def pacBody (c : PacConfig) : List Statement :=
  [.declare "directHosts".toList (.lit (hostsVal c.directHosts)),
    .loop "i".toList (.lit (.num 0)) (below "i" "directHosts") hostsRound,
    .declare "internalNets".toList (.lit (netsVal c.internalNets)),
    .loop "j".toList (.lit (.num 0)) (below "j" "internalNets") netsRound,
    .ifThen (.call "isPlainHostName".toList [ref "host"]) (answer "DIRECT".toList),
    answer c.proxyRet]

/-- The function that the script is read as. -/
def pacScript (c : PacConfig) : Program where
  name := "FindProxyForURL".toList
  params := ["url".toList, "host".toList]
  body := pacBody c

theorem literal_hosts (hosts : List Str) :
    Literal (hosts.length + 2) (hostsTokens hosts) (hostsVal hosts) := by
  have hall : ∀ p ∈ hosts.map (fun s => ([Token.str (text s)], Val.str (text s))),
      Literal 1 p.1 p.2 := by
    intro p hp
    obtain ⟨s, -, rfl⟩ := List.mem_map.mp hp
    exact Literal.str (text s)
  have harr := Literal.arr hall
  rw [List.map_map, List.map_map, List.length_map] at harr
  intro n hn
  exact harr n (by omega)

theorem literal_net (net : PacNet) : Literal 4 (netTokens net) (netVal net) := by
  have hall : ∀ p ∈ [(text "network".toList, [Token.str (text net.network)], Val.str (text net.network)),
      (text "mask".toList, [Token.str (text net.mask)], Val.str (text net.mask))],
      Literal 1 p.2.1 p.2.2 := by
    intro p hp
    rcases List.mem_pair.mp hp with rfl | rfl
    · exact Literal.str (text net.network)
    · exact Literal.str (text net.mask)
  exact Literal.obj hall

theorem literal_nets (nets : List PacNet) :
    Literal (nets.length + 5) (netsTokens nets) (netsVal nets) := by
  have hall : ∀ p ∈ nets.map (fun net => (netTokens net, netVal net)), Literal 4 p.1 p.2 := by
    intro p hp
    obtain ⟨net, -, rfl⟩ := List.mem_map.mp hp
    exact literal_net net
  have harr := Literal.arr hall
  rw [List.map_map, List.map_map, List.length_map] at harr
  intro n hn
  exact harr n (by omega)

section

variable (n : ℕ) (rest : List Token)

theorem parseStmt_hostsLoop : parseStmt (n + 20) (hostsLoop ++ rest) =
    some (.loop "i".toList (.lit (.num 0)) (below "i" "directHosts") hostsRound, rest) := rfl

theorem parseStmt_netsLoop : parseStmt (n + 20) (netsLoop ++ rest) =
    some (.loop "j".toList (.lit (.num 0)) (below "j" "internalNets") netsRound, rest) := rfl

theorem parseStmt_plain : parseStmt (n + 20) (plainTokens ++ rest) =
    some (.ifThen (.call "isPlainHostName".toList [ref "host"]) (answer "DIRECT".toList), rest) := rfl

theorem parseStmt_answer (s : Str) :
    parseStmt (n + 20) (name "return" :: .str (text s) :: .op ';' :: rest) =
      some (answer s, rest) := rfl

end

/-- The tokens after the opening brace. -/
def bodyTokens (c : PacConfig) : List Token :=
  name "var" :: name "directHosts" :: .op '=' :: (hostsTokens c.directHosts ++ .op ';' ::
    (hostsLoop ++ (name "var" :: name "internalNets" :: .op '=' :: (netsTokens c.internalNets ++ .op ';' ::
      (netsLoop ++ (plainTokens ++ [name "return", .str (text c.proxyRet), .op ';', .op '}']))))))

theorem parseBody_bodyTokens (c : PacConfig) {n : ℕ}
    (h : c.directHosts.length + c.internalNets.length + 40 ≤ n) :
    parseBody n (bodyTokens c) = some (pacBody c, []) := by
  obtain ⟨m, rfl⟩ : ∃ m, n = m + 20 + 7 := ⟨n - 27, by omega⟩
  have hhosts := (literal_hosts c.directHosts).declare (n := m + 20 + 6) (by omega)
    "directHosts".toList (hostsLoop ++ (name "var" :: name "internalNets" :: .op '=' ::
      (netsTokens c.internalNets ++ .op ';' :: (netsLoop ++ (plainTokens ++
        [name "return", .str (text c.proxyRet), .op ';', .op '}'])))))
  have hnets := (literal_nets c.internalNets).declare (n := m + 20 + 4) (by omega)
    "internalNets".toList (netsLoop ++ (plainTokens ++
      [name "return", .str (text c.proxyRet), .op ';', .op '}']))
  have hloop := parseStmt_hostsLoop (m + 5) (name "var" :: name "internalNets" :: .op '=' ::
    (netsTokens c.internalNets ++ .op ';' :: (netsLoop ++ (plainTokens ++
      [name "return", .str (text c.proxyRet), .op ';', .op '}']))))
  have hloop' := parseStmt_netsLoop (m + 3) (plainTokens ++
      [name "return", .str (text c.proxyRet), .op ';', .op '}'])
  have hplain := parseStmt_plain (m + 2) [name "return", .str (text c.proxyRet), .op ';', .op '}']
  have hanswer := parseStmt_answer (m + 1) [.op '}'] c.proxyRet
  have hend : parseBody (m + 20 + 1) [.op '}'] = some ([], []) := rfl
  have hbody := parseBody_cons hanswer
  rw [hend] at hbody
  have hbody := (parseBody_cons hplain).trans (congrArg _ hbody)
  have hbody := (parseBody_cons hloop').trans (congrArg _ hbody)
  have hbody := (parseBody_cons hnets).trans (congrArg _ hbody)
  have hbody := (parseBody_cons hloop).trans (congrArg _ hbody)
  exact (parseBody_cons hhosts).trans (congrArg _ hbody)

/-- The tokens are read as this function. -/
theorem parse_pacTokens (c : PacConfig) : parse (pacTokens c) = some (pacScript c) := by
  have htokens : pacTokens c = name "function" :: name "FindProxyForURL" :: .op '(' ::
      name "url" :: .op ',' :: name "host" :: .op ')' :: .op '{' :: bodyTokens c := by
    simp only [pacTokens, headTokens, bodyTokens, List.append_assoc, List.cons_append, List.nil_append]
  have hhosts : c.directHosts.length ≤ (hostsTokens c.directHosts).length := by
    have hcommas : (c.directHosts.map (fun s => [Token.str (text s)])).length ≤
        (commas (c.directHosts.map (fun s => [Token.str (text s)]))).length :=
      length_le_commas (by simp)
    rw [List.length_map] at hcommas
    simp only [hostsTokens, List.length_cons, List.length_append]
    omega
  have hnets : c.internalNets.length ≤ (netsTokens c.internalNets).length := by
    have hcommas : (c.internalNets.map netTokens).length ≤
        (commas (c.internalNets.map netTokens)).length := length_le_commas (by simp [netTokens])
    rw [List.length_map] at hcommas
    simp only [netsTokens, List.length_cons, List.length_append]
    omega
  have hloop : 20 ≤ hostsLoop.length := by decide
  have hloop' : 20 ≤ netsLoop.length := by decide
  have hlength : c.directHosts.length + c.internalNets.length + 40 ≤ (pacTokens c).length := by
    simp only [pacTokens, List.length_append]
    omega
  have hbody := parseBody_bodyTokens c hlength
  rw [htokens] at hbody ⊢
  exact parse_function rfl hbody

/-! ### The answer -/

section

variable {b : Browser} {env : Env} {host : CodeUnits} {n : ℕ}

/-- A counter is compared with the length of a list. -/
theorem eval_below {call : Str → List Val → Option Val} {counter list : String} {items : List Val}
    (hne : list.toList ≠ counter.toList) (hlist : env list.toList = some (.arr items)) (k : ℕ) :
    eval call (Function.update env counter.toList (some (.num k))) (below counter list) =
      some (.bool (k < items.length)) := by
  rw [below, eval, eval, ref, ref, eval, eval, Function.update_self, Function.update_of_ne hne, hlist]
  rfl

/-- A condition with an answer. -/
theorem exec_ifThen {call : Str → List Val → Option Val} {cond : Expr} {hit : Bool}
    (h : eval call env cond = some (.bool hit)) (s : Str) :
    exec call n (.ifThen cond (answer s)) env =
      some (env, if hit then some (.str (text s)) else none) := by
  rw [exec, h]
  cases hit <;> rfl

theorem scans_hosts {hosts : List Str} (hhost : env "host".toList = some (.str host))
    (hlist : env "directHosts".toList = some (hostsVal hosts)) :
    Scans b.call env "i".toList (below "i" "directHosts") (exec b.call n hostsRound) hosts.length
      (fun k => hosts[k]?.any (fun pattern => b.shExpMatch host (text pattern)))
      (.str (text "DIRECT".toList)) where
  cond k := by
    rw [eval_below (by decide) hlist, List.length_map]
  body k hk := by
    have hvar : (Function.update env "i".toList (some (.num k))) "host".toList = some (.str host) := by
      rw [Function.update_of_ne (by decide), hhost]
    have hhosts : (Function.update env "i".toList (some (.num k))) "directHosts".toList =
        some (hostsVal hosts) := by
      rw [Function.update_of_ne (by decide), hlist]
    have hitem : Val.item (hostsVal hosts) (.num k) = some (.str (text hosts[k])) := by
      rw [hostsVal, Val.item, List.getElem?_map, List.getElem?_eq_getElem hk]
      rfl
    have hcall : b.call "shExpMatch".toList [.str host, .str (text hosts[k])] =
        some (.bool (b.shExpMatch host (text hosts[k]))) := rfl
    rw [hostsRound, List.getElem?_eq_getElem hk, Option.any_some]
    apply exec_ifThen
    simp only [eval, evalAll, ref, hvar, hhosts, Function.update_self, Option.bind_some, hitem,
      Option.map_some, hcall]

theorem call_isInNet (b : Browser) (address : Option CodeUnits) (net mask : CodeUnits) :
    b.call "isInNet".toList [resolved address, .str net, .str mask] =
      some (.bool (b.isInNet address net mask)) := by
  cases address <;> rfl

theorem scans_nets {nets : List PacNet} (hhost : env "host".toList = some (.str host))
    (hlist : env "internalNets".toList = some (netsVal nets)) :
    Scans b.call env "j".toList (below "j" "internalNets") (exec b.call n netsRound) nets.length
      (fun k => nets[k]?.any (fun net =>
        b.isInNet (b.dnsResolve host) (text net.network) (text net.mask)))
      (.str (text "DIRECT".toList)) where
  cond k := by
    rw [eval_below (by decide) hlist, List.length_map]
  body k hk := by
    have hvar : (Function.update env "j".toList (some (.num k))) "host".toList = some (.str host) := by
      rw [Function.update_of_ne (by decide), hhost]
    have hnets : (Function.update env "j".toList (some (.num k))) "internalNets".toList =
        some (netsVal nets) := by
      rw [Function.update_of_ne (by decide), hlist]
    have hitem : Val.item (netsVal nets) (.num k) = some (netVal nets[k]) := by
      rw [netsVal, Val.item, List.getElem?_map, List.getElem?_eq_getElem hk]
      rfl
    have hnetwork : Val.member "network".toList (netVal nets[k]) =
        some (.str (text nets[k].network)) := rfl
    have hmask : Val.member "mask".toList (netVal nets[k]) = some (.str (text nets[k].mask)) := rfl
    have hresolve : b.call "dnsResolve".toList [.str host] = some (resolved (b.dnsResolve host)) := rfl
    rw [netsRound, List.getElem?_eq_getElem hk, Option.any_some]
    apply exec_ifThen
    simp only [eval, evalAll, ref, hvar, hnets, Function.update_self, Option.bind_some, hitem,
      hnetwork, hmask, Option.map_some, hresolve, call_isInNet]

end

/-- The statements answer what the settings mean. -/
theorem execAll_pacBody (c : PacConfig) (b : Browser) {host : CodeUnits} {n : ℕ} {env : Env}
    (hhosts : c.directHosts.length < n) (hnets : c.internalNets.length < n)
    (hhost : env "host".toList = some (.str host)) :
    execAll b.call n (pacBody c) env = some (.str (text (c.decide b host))) := by
  set env1 := Function.update env "directHosts".toList (some (hostsVal c.directHosts)) with henv1
  have hhost1 : env1 "host".toList = some (.str host) := by
    rw [henv1, Function.update_of_ne (by decide), hhost]
  have hlist1 : env1 "directHosts".toList = some (hostsVal c.directHosts) := by
    rw [henv1, Function.update_self]
  set env2 := Function.update env1 "i".toList (some (.num c.directHosts.length)) with henv2
  set env3 := Function.update env2 "internalNets".toList (some (netsVal c.internalNets)) with henv3
  have hhost3 : env3 "host".toList = some (.str host) := by
    rw [henv3, Function.update_of_ne (by decide), henv2, Function.update_of_ne (by decide), hhost1]
  have hlist3 : env3 "internalNets".toList = some (netsVal c.internalNets) := by
    rw [henv3, Function.update_self]
  set env4 := Function.update env3 "j".toList (some (.num c.internalNets.length)) with henv4
  have hhost4 : env4 "host".toList = some (.str host) := by
    rw [henv4, Function.update_of_ne (by decide), hhost3]
  have hplain : eval b.call env4 (.call "isPlainHostName".toList [ref "host"]) =
      some (.bool (b.isPlainHostName host)) := by
    have hcall : b.call "isPlainHostName".toList [.str host] =
        some (.bool (b.isPlainHostName host)) := rfl
    simp only [eval, evalAll, ref, hhost4, Option.bind_some, Option.map_some, hcall]
  have hanswer : execAll b.call n [answer c.proxyRet] env4 = some (.str (text c.proxyRet)) := rfl
  rw [pacBody, execAll_declare, (scans_hosts hhost1 hlist1).execAll_loop hhosts,
    range_any_getElem?, execAll_declare, (scans_nets hhost3 hlist3).execAll_loop hnets,
    range_any_getElem?, answer, execAll_ifThen hplain, hanswer, PacConfig.decide]
  simp only [apply_ite text, apply_ite Val.str, apply_ite some]

/-! ### Answers without quotes -/

theorem unquoted_append {s t : Str} (hs : Unquoted s) (ht : Unquoted t) : Unquoted (s ++ t) := by
  intro c hc
  rcases List.mem_append.mp hc with hc | hc
  · exact hs c hc
  · exact ht c hc

theorem unquoted_digits (n : ℕ) : Unquoted (Nat.toDigits 10 n) := by
  intro c hc
  exact ⟨Decimal.ne_of_mem_toDigits hc (by decide), Decimal.ne_of_mem_toDigits hc (by decide),
    Decimal.ne_of_mem_toDigits hc (by decide), Decimal.ne_of_mem_toDigits hc (by decide)⟩

theorem unquoted_intText (n : ℤ) : Unquoted (intText n) := by
  cases n with
  | ofNat n => exact unquoted_digits n
  | negSucc n =>
    have hminus : Unquoted ['-'] := by decide
    exact unquoted_append hminus (unquoted_digits (n + 1))

theorem unquoted_proxyText {host : Str} (h : Unquoted host) (port : ℤ) :
    Unquoted (proxyText host port) := by
  have hproxy : Unquoted "PROXY ".toList := by decide
  have hcolon : Unquoted [':'] := by decide
  exact unquoted_append (unquoted_append hproxy h) (unquoted_append hcolon (unquoted_intText port))

theorem unquoted_proxyTexts {proxies : List (Str × ℤ)} (h : ∀ p ∈ proxies, Unquoted p.1) :
    Unquoted (proxyTexts proxies) := by
  induction proxies with
  | nil =>
    intro c hc
    cases hc
  | cons p rest ih =>
    obtain ⟨hp, hrest⟩ := List.forall_mem_cons.mp h
    cases rest with
    | nil => exact unquoted_proxyText hp p.2
    | cons q rest =>
      have hsep : Unquoted "; ".toList := by decide
      exact unquoted_append (unquoted_append (unquoted_proxyText hp p.2) hsep) (ih hrest)

theorem PacConfig.unquoted_proxyRet (c : PacConfig) (h : Unquoted c.proxyHost)
    (hproxies : ∀ p ∈ c.proxies, Unquoted p.1) : Unquoted c.proxyRet := by
  unfold PacConfig.proxyRet
  split
  · exact unquoted_proxyTexts hproxies
  split
  · exact unquoted_proxyText h c.proxyPort
  · decide

/-- The script answers what the settings mean, if its answer can stand in a string. -/
theorem run_of_unquoted (c : PacConfig) (b : Browser) (url host : CodeUnits) {n : ℕ}
    (hret : Unquoted c.proxyRet) (hhosts : c.directHosts.length < n)
    (hnets : c.internalNets.length < n) :
    run b.call n (renderPac c) "FindProxyForURL".toList [.str url, .str host] =
      some (.str (text (c.decide b host))) := by
  have hparam : bindParams ["url".toList, "host".toList] [.str url, .str host] "host".toList =
      some (.str host) := by
    have hurl : "url".toList ≠ "host".toList := by decide
    simp only [bindParams, List.zip_cons_cons, List.find?_cons, decide_eq_false hurl, decide_true,
      Option.map_some]
  rw [run, lex_renderPac c hret, Option.bind_some, parse_pacTokens]
  exact execAll_pacBody c b hhosts hnets hparam

/-- **The script answers what the settings mean,** if the hosts of the proxies can stand in a string
of the script. -/
theorem run_renderPac (c : PacConfig) (b : Browser) (url host : CodeUnits) {n : ℕ}
    (hhost : Unquoted c.proxyHost) (hproxies : ∀ p ∈ c.proxies, Unquoted p.1)
    (hhosts : c.directHosts.length < n) (hnets : c.internalNets.length < n) :
    run b.call n (renderPac c) "FindProxyForURL".toList [.str url, .str host] =
      some (.str (text (c.decide b host))) :=
  run_of_unquoted c b url host (c.unquoted_proxyRet hhost hproxies) hhosts hnets

/-- A host outside of the patterns, the networks and the plain names. -/
theorem run_renderPac_outside :
    Unquoted "10.0.0.1".toList ∧
      run (Browser.call ⟨fun s p => s = p, some, fun address net _ => address = some net,
          fun _ => false⟩) 2
        (renderPac ⟨"10.0.0.1".toList, 8080, ["a\"b".toList], [⟨"10.0.0.2".toList, []⟩], []⟩)
        "FindProxyForURL".toList [.str [], .str (text "c".toList)] =
      some (.str (text "PROXY 10.0.0.1:8080".toList)) := by
  have hhost : Unquoted "10.0.0.1".toList := by decide
  exact ⟨hhost, run_renderPac _ _ _ _ hhost (fun p hp => absurd hp List.not_mem_nil) (by decide)
    (by decide)⟩

end HuntProxy.Web
