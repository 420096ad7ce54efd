import HuntProxy.Interception.Address
import HuntProxy.Interception.State
import HuntProxy.Lib.Dict
import HuntProxy.Lib.PacketFilter

/-!
# The rules of the script

`setup_iptables.sh` changes the chains and the ipsets of the kernel by commands that run one
after the other; a command that fails is passed over. In the selective mode it reads a
specification, whose lines have a key, `auto` or a port, and an address. All addresses of a key
go into one set, and a rule redirects what goes to a member of it; without the tool `ipset` every
line has a rule of its own.

The arguments are those after the parsing of the options. Rules of other programs may decide
about a packet as they like, but do not use the chains and the sets of the script.

## Main definitions

- `Kernel`, `Command`, `Kernel.exec` — the state of the kernel and the commands
- `startSelectiveCommands`, `startCommands`, `stopCommands` — the script
- `Kernel.verdict` — what becomes of a packet
- `kernelMachine` — calls of the script, which may stop behind any command
-/

namespace HuntProxy.Interception

open PacketFilter

/-! ### Packets and rules -/

/-- The tables whose `OUTPUT` is changed. -/
inductive Table
  | nat
  | filter
  deriving DecidableEq

/-- The table in which a chain is kept. -/
def homeTable : ChainName → Table
  | .redirect => .nat
  | .selective => .nat
  | .selectiveQuic => .filter

inductive Proto
  | tcp
  | udp
  | other
  deriving DecidableEq

/-- A packet on its way out: the addresses, the port, the interface, and the user and the
cgroups of the process that sends it. The cgroups are the innermost one and those around it. -/
structure Packet where
  proto : Proto
  src : ℕ
  dst : ℕ
  dport : ℕ
  out : Str
  uid : Str
  cgroups : List Str
  deriving DecidableEq

/-- The conditions of the rules, with their arguments as they are written. -/
inductive Match
  | out (iface : Str)
  | set (name : Str)
  | dst (net : Str)
  | src (net : Str)
  | proto (p : Proto)
  | dport (port : Str)
  | uid (user : Str)
  | cgroup (path : Str)
  deriving DecidableEq

/-- `RETURN`, `REDIRECT --to-port` and `DROP`. -/
inductive Target
  | ret
  | redirect (port : Str)
  | drop
  deriving DecidableEq

/-- What becomes of a packet; `other` is up to the rules of others. -/
inductive Verdict
  | redirect (port : ℕ)
  | drop
  | other (n : ℕ)
  deriving DecidableEq

/-- A rule of someone else. -/
abbrev Foreign := Packet → Option Verdict

abbrev Rule := PacketFilter.Rule Match Target

/-- The number of a port. -/
def portNumber (s : Str) : Option ℕ := (Numeral.read 10 s).filter (· < 65536)

/-- The number that a network or an address begins with, and the number of its bits. -/
def network (s : Str) : Option (ℕ × ℕ) :=
  match s.splitOn '/' with
  | [a] => (Ip.read4 a).map (fun n => (n, 32))
  | [a, bits] =>
    (Ip.read4 a).bind (fun n => ((Numeral.read 10 bits).filter (· ≤ 32)).map (fun b => (n, b)))
  | _ => none

/-- Whether an address is in a network. -/
def inNetwork (net : Str) (ip : ℕ) : Bool :=
  (network net).any (fun q => ip / 2 ^ (32 - q.2) = q.1 / 2 ^ (32 - q.2))

/-- A path in the tree of the cgroups, `${EXCLUDE_CGROUP#/}`. -/
def cgroupPath (path : Str) : Str := if "/".toList.isPrefixOf path then path.drop 1 else path

/-- Whether a name given to `-o` means an interface. With a `+` at its end it means all whose names
begin with the rest. -/
def onInterface (iface out : Str) : Bool :=
  if iface.getLast? = some '+' then iface.dropLast.isPrefixOf out else out = iface

/-- Whether a condition holds of a packet. -/
def Match.holds (sets : Dict Str (List ℕ)) : Match → Packet → Bool
  | .out iface, p => onInterface iface p.out
  | .set name, p => (sets.get? name).any (fun ips => ips.contains p.dst)
  | .dst net, p => inNetwork net p.dst
  | .src net, p => inNetwork net p.src
  | .proto q, p => p.proto = q
  | .dport port, p => portNumber port = some p.dport
  | .uid user, p => p.uid = user
  | .cgroup path, p => p.cgroups.contains (cgroupPath path)

/-- The port of a redirection. -/
def Target.verdict : Target → Option Verdict
  | .ret => none
  | .redirect port => (portNumber port).map Verdict.redirect
  | .drop => some .drop

/-! ### The kernel -/

/-- The rules, the ipsets, and the tree of the cgroups, if there is one. -/
structure Kernel where
  rules : Ruleset Table ChainName Match Target Foreign
  sets : Dict Str (List ℕ)
  cgroupV2 : Bool
  cgroups : List Str

/-- A command of the script. -/
inductive Command
  | newChain (c : ChainName)
  | flush (c : ChainName)
  | deleteJump (c : ChainName)
  | deleteChain (c : ChainName)
  | append (c : ChainName) (r : Rule)
  | ensureJump (c : ChainName)
  | createSet (name : Str)
  | flushSet (name : Str)
  | addIp (name ip : Str)
  | destroySet (name : Str)
  | makeCgroup (path : Str)
  deriving DecidableEq

/-- How many addresses a set holds, `maxelem`. -/
def maxElem : ℕ := 65536

/-- Add an address to a set of hosts, which never holds 0.0.0.0. -/
def addHost (n : ℕ) (ips : List ℕ) : List ℕ :=
  if n = 0 ∨ n ∈ ips ∨ maxElem ≤ ips.length then ips else ips ++ [n]

namespace Kernel

/-- Whether the kernel accepts a condition. The name of an interface has 15 letters at most. -/
def acceptsMatch (k : Kernel) : Match → Bool
  | .out iface => iface.length ≤ 15
  | .set name => k.sets.contains name
  | .dst net => (network net).isSome
  | .src net => (network net).isSome
  | .dport port => (portNumber port).isSome
  | .cgroup path => k.cgroups.contains (cgroupPath path)
  | .proto _ => true
  | .uid _ => true

/-- Whether the kernel accepts a rule. -/
def accepts (k : Kernel) (r : Rule) : Bool :=
  r.conds.all k.acceptsMatch &&
    match r.target with
    | .redirect port => (portNumber port).isSome
    | _ => true

/-- Whether a rule uses a set. -/
def uses (k : Kernel) (name : Str) : Bool :=
  [ChainName.redirect, .selective, .selectiveQuic].any (fun c =>
    (k.rules.chains c).any (fun rules => rules.any (fun r => r.conds.contains (.set name))))

/-- One command. -/
def exec (k : Kernel) : Command → Kernel
  | .newChain c => { k with rules := k.rules.newChain c }
  | .flush c => { k with rules := k.rules.flush c }
  | .deleteJump c => { k with rules := k.rules.deleteJump (homeTable c) c }
  | .deleteChain c => { k with rules := k.rules.deleteChain (homeTable c) c }
  | .append c r => if k.accepts r then { k with rules := k.rules.append c r } else k
  | .ensureJump c => { k with rules := k.rules.ensureJump (homeTable c) c }
  | .createSet name =>
    if k.sets.contains name then k else { k with sets := k.sets.insert name [] }
  | .flushSet name => { k with sets := k.sets.modify name (fun _ => []) }
  | .addIp name ip =>
    match Ip.read4 ip with
    | none => k
    | some n => { k with sets := k.sets.modify name (addHost n) }
  | .destroySet name => if k.uses name then k else { k with sets := k.sets.erase name }
  | .makeCgroup path =>
    if k.cgroupV2 then { k with cgroups := cgroupPath path :: k.cgroups } else k

/-- The commands one after the other. -/
def execAll (k : Kernel) (cmds : List Command) : Kernel := cmds.foldl exec k

/-- A command that is about the sets leaves the rules. -/
theorem rules_exec (k : Kernel) {cmd : Command}
    (h : match cmd with
      | .createSet _ | .flushSet _ | .addIp _ _ | .destroySet _ | .makeCgroup _ => True
      | _ => False) : (k.exec cmd).rules = k.rules := by
  cases cmd with
  | newChain | flush | deleteJump | deleteChain | append | ensureJump => cases h
  | createSet | destroySet | makeCgroup =>
    simp only [exec]
    split <;> rfl
  | flushSet => rfl
  | addIp =>
    simp only [exec]
    split <;> rfl

theorem cgroups_exec (k : Kernel) {cmd : Command} (h : ∀ path, cmd ≠ .makeCgroup path) :
    (k.exec cmd).cgroups = k.cgroups := by
  cases cmd with
  | makeCgroup path => exact absurd rfl (h path)
  | newChain | flush | deleteJump | deleteChain | ensureJump | flushSet => rfl
  | append | createSet | destroySet | addIp =>
    simp only [exec]
    split <;> rfl

theorem cgroupV2_exec (k : Kernel) (cmd : Command) : (k.exec cmd).cgroupV2 = k.cgroupV2 := by
  cases cmd with
  | newChain | flush | deleteJump | deleteChain | ensureJump | flushSet => rfl
  | append | createSet | destroySet | addIp | makeCgroup =>
    simp only [exec]
    split <;> rfl

/-- What the `OUTPUT` of a table decides about a packet. -/
def verdict (k : Kernel) (t : Table) (p : Packet) : Option Verdict :=
  k.rules.decide (Match.holds k.sets) Target.verdict (fun r p => r p) t p

/-- What the rules of others decide. -/
def foreignVerdict (k : Kernel) (t : Table) (p : Packet) : Option Verdict :=
  (k.rules.others t).findSome? (fun r => r p)

end Kernel

/-! ### The script -/

/-- What the script depends on: its options, the file of the specification, if there is one, and
whether the tool `ipset` is there. -/
structure ScriptArgs where
  redirectPort : Str
  redirectPorts : List Str
  ownIp : Str
  excludeUid : Str
  excludeCgroup : Str
  iface : Str
  spec : Option Str
  dropQuic : Bool
  ipset : Bool

/-- Blanks between the words that `read` reads. -/
def isBlank (c : Char) : Bool := c = ' ' || c = '\t'

/-- `read -r key ip` of a line. -/
def readKeyIp (line : Str) : Str × Str :=
  let s := trim isBlank line
  (s.takeWhile (fun c => !isBlank c), (s.dropWhile (fun c => !isBlank c)).dropWhile isBlank)

/-- The keys and the addresses of a specification; a last line without its end is not read. -/
def specLines (spec : Option Str) : List (Str × Str) :=
  (((spec.getD []).splitOn '\n').dropLast.map readKeyIp).filter
    (fun q => q.1 ≠ [] ∧ q.2 ≠ [])

/-- `auto`, the key of addresses all of whose ports are redirected. -/
def autoKey : Str := "auto".toList

/-- The beginning of the names of the sets. -/
def setStem : Str := "huntproxy_sel_".toList

/-- The set of all addresses. -/
def allSet : Str := setStem ++ "all".toList

/-- The set of the addresses of a key. -/
def keySet (key : Str) : Str :=
  if key = autoKey then setStem ++ "auto".toList
  else setStem ++ 'p' :: key.filter Char.isDigit

/-- `add_exclusions`. -/
def addExclusions (a : ScriptArgs) (c : ChainName) : List Command :=
  (if a.excludeUid = [] then [] else [.append c ⟨[.uid a.excludeUid], .ret⟩]) ++
    (if a.excludeCgroup = [] then [] else [.append c ⟨[.cgroup a.excludeCgroup], .ret⟩])

/-- `ensure_exclude_cgroup`. -/
def ensureExcludeCgroup (a : ScriptArgs) : List Command :=
  if a.excludeCgroup = [] then [] else [.makeCgroup a.excludeCgroup]

/-- The jump to a chain and the chain are deleted. -/
def dropChain (c : ChainName) : List Command := [.deleteJump c, .flush c, .deleteChain c]

/-- A chain is created, or emptied. -/
def renewChain (c : ChainName) : List Command := [.newChain c, .flush c]

/-- The restriction to an interface. -/
def outMatch (a : ScriptArgs) : List Match := if a.iface = [] then [] else [.out a.iface]

/-- The rule that redirects what goes to the addresses of a key. -/
def keyRule (a : ScriptArgs) (key : Str) : Rule :=
  ⟨outMatch a ++ [.set (keySet key), .proto .tcp] ++ (if key = autoKey then [] else [.dport key]),
    .redirect a.redirectPort⟩

/-- The rule of one line. -/
def lineRule (a : ScriptArgs) (q : Str × Str) : Rule :=
  ⟨outMatch a ++ [.proto .tcp, .dst q.2] ++ (if q.1 = autoKey then [] else [.dport q.1]),
    .redirect a.redirectPort⟩

/-- The commands that fill the sets; `seen` are the keys that have their set. -/
def fillSets (seen : List Str) : List (Str × Str) → List Command
  | [] => []
  | (key, ip) :: rest =>
    (if key ∈ seen then [] else [.createSet (keySet key), .flushSet (keySet key)]) ++
      [.addIp (keySet key) ip, .addIp allSet ip] ++ fillSets (key :: seen) rest

/-- The keys in the order in which they come first. -/
def keyOrder (lines : List (Str × Str)) : List Str := (lines.map Prod.fst).eraseDups

/-- The sets that the script has made. -/
def ownSets (k : Kernel) : List Str := k.sets.keys.filter (fun name => setStem.isPrefixOf name)

/-- Destinations that are never redirected without `ipset`. -/
def localNets : List Str :=
  ["127.0.0.0/8".toList, "10.0.0.0/8".toList, "169.254.0.0/16".toList, "172.16.0.0/12".toList,
    "192.168.0.0/16".toList, "224.0.0.0/4".toList, "240.0.0.0/4".toList]

/-- The rules of `HUNTPROXY_SELECTIVE` and the sets that they use. -/
def redirectCommands (k : Kernel) (a : ScriptArgs) : List Command :=
  if a.ipset then
    (ownSets k).map .destroySet ++ [.createSet allSet, .flushSet allSet] ++
      fillSets [] (specLines a.spec) ++
      (keyOrder (specLines a.spec)).map (fun key => .append .selective (keyRule a key))
  else
    localNets.map (fun net => .append .selective ⟨[.dst net], .ret⟩) ++
      (specLines a.spec).map (fun q => .append .selective (lineRule a q))

/-- The chain that drops QUIC. -/
def quicCommands (a : ScriptArgs) : List Command :=
  renewChain .selectiveQuic ++ addExclusions a .selectiveQuic ++
    (if a.ipset then
      [.append .selectiveQuic
        ⟨outMatch a ++ [.set allSet, .proto .udp, .dport "443".toList], .drop⟩]
    else
      (specLines a.spec).map (fun q => .append .selectiveQuic
        ⟨outMatch a ++ [.proto .udp, .dst q.2, .dport "443".toList], .drop⟩)) ++
    [.ensureJump .selectiveQuic]

/-- `start_selective_rules`; the sets are those of the kernel at its start. -/
def startSelectiveCommands (k : Kernel) (a : ScriptArgs) : List Command :=
  ensureExcludeCgroup a ++ dropChain .selective ++ dropChain .selectiveQuic ++
    renewChain .selective ++ addExclusions a .selective ++ redirectCommands k a ++
    [.ensureJump .selective] ++ (if a.dropQuic then quicCommands a else [])

/-- Destinations that are never redirected for the whole machine. -/
def reservedNets : List Str :=
  ["0.0.0.0/8".toList, "10.0.0.0/8".toList, "127.0.0.0/8".toList, "169.254.0.0/16".toList,
    "172.16.0.0/12".toList, "192.168.0.0/16".toList, "224.0.0.0/4".toList, "240.0.0.0/4".toList]

/-- `start_rules`, for the whole machine. -/
def startCommands (a : ScriptArgs) : List Command :=
  renewChain .redirect ++
    (if a.excludeUid = [] then [] else [.append .redirect ⟨[.uid a.excludeUid], .ret⟩]) ++
    ensureExcludeCgroup a ++
    (if a.excludeCgroup = [] then [] else [.append .redirect ⟨[.cgroup a.excludeCgroup], .ret⟩]) ++
    reservedNets.map (fun net => .append .redirect ⟨[.dst net], .ret⟩) ++
    (if a.ownIp = [] then []
    else [.append .redirect ⟨[.dst a.ownIp], .ret⟩, .append .redirect ⟨[.src a.ownIp], .ret⟩]) ++
    (if a.redirectPorts = [] then
      [.append .redirect ⟨[.proto .tcp], .redirect a.redirectPort⟩]
    else
      a.redirectPorts.map (fun port =>
        .append .redirect ⟨[.proto .tcp, .dport port], .redirect a.redirectPort⟩)) ++
    [.ensureJump .redirect]

/-- The sets that `stop` destroys, those of older versions too. -/
def everySet (k : Kernel) : List Str :=
  k.sets.keys.filter (fun name => "huntproxy_sel".toList.isPrefixOf name)

/-- `stop_rules`. -/
def stopCommands (k : Kernel) (ipset : Bool) : List Command :=
  dropChain .redirect ++ dropChain .selective ++ dropChain .selectiveQuic ++
    (if ipset then (everySet k).map .destroySet else [])

/-! ### Runs -/

/-- A call of the script. -/
inductive ScriptCall
  | start (a : ScriptArgs)
  | startSelective (a : ScriptArgs)
  | stop (ipset : Bool)

/-- The commands of a call. -/
def ScriptCall.commands (k : Kernel) : ScriptCall → List Command
  | .start a => startCommands a
  | .startSelective a => startSelectiveCommands k a
  | .stop ipset => stopCommands k ipset

/-- The cgroup that a call excludes, if it sets up rules. -/
def ScriptCall.excludes? : ScriptCall → Option Str
  | .start a => some a.excludeCgroup
  | .startSelective a => some a.excludeCgroup
  | .stop _ => none

/-- What happens to the rules: a call of the script, of which the first commands are run, or a
change of the rules of others in the `OUTPUT` of a table. -/
inductive KernelOp
  | call (script : ScriptCall) (ran : ℕ)
  | others (t : Table) (hook : List (Entry ChainName Foreign))

/-- One of them. -/
def Kernel.perform (k : Kernel) : KernelOp → Kernel
  | .call script ran => k.execAll ((script.commands k).take ran)
  | .others t hook => { k with rules := k.rules.setOthers t hook }

/-- The kernel under any sequence of them. -/
def kernelMachine : Machine Kernel KernelOp where
  step k op := some (k.perform op)

/-- No chain and no jump of the script is there. -/
structure Kernel.Clean (k : Kernel) : Prop where
  chains : ∀ c, k.rules.chains c = none
  jumps : ∀ t c, k.rules.jumps t c = 0

/-- A kernel without rules. -/
def Kernel.fresh : Kernel := ⟨⟨fun _ => [], fun _ => none⟩, .empty, true, []⟩

theorem Kernel.clean_fresh : Kernel.fresh.Clean := ⟨fun _ => rfl, fun _ _ => rfl⟩

/-- The arguments for one address, all of whose connections go to port 17478. -/
def oneAddress : ScriptArgs where
  redirectPort := "17478".toList
  redirectPorts := []
  ownIp := []
  excludeUid := []
  excludeCgroup := "/huntproxy".toList
  iface := []
  spec := some "auto 192.0.2.1\n".toList
  dropQuic := true
  ipset := true

/-- A connection to this address, by a process of some cgroups. -/
def connection (cgroups : List Str) : Packet :=
  ⟨.tcp, 0x0a000001, 0xc0000201, 80, "eth0".toList, "1000".toList, cgroups⟩

end HuntProxy.Interception
