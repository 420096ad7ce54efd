import HuntProxy.Lib.Machine
import Mathlib.Data.Int.Notation
import Mathlib.Data.Nat.Notation
import Mathlib.Logic.Function.Basic

/-!
# Transparent interception

The kernel redirects outgoing connections to the transparent listener. A script run as root
sets the rules up and takes them down, for the whole machine or for selected addresses, and
writes a state file that says which. The process saves two flags of its own, that the listener
runs and on which port, and a switch for the selective mode. At startup the listener is
restored from the flags, and the rules are compared with the file and the switch.

The commands of the script run one after the other; a script that fails has run some of the
first ones.

## Main definitions

- `Host`, `Host.startRules`, `Host.startSelectiveRules`, `Host.stopRules` — the kernel, the
  state file and the script
- `InterceptionState`, `InterceptionOp` — the process and its operations
- `InterceptionState.interceptionReadiness` — the gate of the two ways to apply rules
- `InterceptionState.reconcileOnStartup`, `InterceptionState.reenforceOnStartup` — the startup
-/

namespace HuntProxy

/-! ### The kernel and the script -/

/-- The chains of the script. -/
inductive ChainName
  | redirect
  | selective
  | selectiveQuic
  deriving DecidableEq

/-- A chain that exists: whether `OUTPUT` jumps to it, and the port of its redirect rules. -/
structure Chain where
  jump : Bool
  redirect : Option ℤ
  deriving DecidableEq

/-- The mode of the state file. -/
inductive Mode
  | all
  | selective
  deriving DecidableEq

/-- What the script writes into `transparent_state.json`, as far as it is read again. -/
structure StateFile where
  active : Bool
  mode : Mode
  redirectPort : ℤ
  deriving DecidableEq

/-- What lies outside the process: the chains, whether one of the ipsets exists, and the state
file. -/
structure Host where
  chains : ChainName → Option Chain
  ipsets : Bool
  file : Option StateFile

/-- A command of the script. -/
inductive Cmd
  | newChain (c : ChainName)
  | flush (c : ChainName)
  | deleteJump (c : ChainName)
  | deleteChain (c : ChainName)
  | redirectTo (c : ChainName) (port : ℤ)
  | appendJump (c : ChainName)
  | createSets
  | destroySets
  | writeState (file : StateFile)
  deriving DecidableEq

/-- A number that names a port. -/
def validPort (port : ℤ) : Bool := decide (0 ≤ port ∧ port < 65536)

namespace Host

/-- A change of one chain. -/
def setChain (h : Host) (c : ChainName) (chain : Option Chain) : Host :=
  { h with chains := Function.update h.chains c chain }

/-- One command. On a chain that does not exist, all but its creation fail, and the script
goes on. -/
def exec (h : Host) : Cmd → Host
  | .newChain c => h.setChain c ((h.chains c).or (some ⟨false, none⟩))
  | .flush c => h.setChain c ((h.chains c).map fun chain => { chain with redirect := none })
  | .deleteJump c => h.setChain c ((h.chains c).map fun chain => { chain with jump := false })
  -- a chain that is in use or not empty stays
  | .deleteChain c => h.setChain c ((h.chains c).filter fun chain => chain ≠ ⟨false, none⟩)
  | .redirectTo c port =>
    h.setChain c ((h.chains c).map fun chain =>
      if validPort port then { chain with redirect := some port } else chain)
  | .appendJump c => h.setChain c ((h.chains c).map fun chain => { chain with jump := true })
  | .createSets => { h with ipsets := true }
  | .destroySets => { h with ipsets := false }
  | .writeState file => { h with file := some file }

/-- The commands one after the other. -/
def execAll (h : Host) (cmds : List Cmd) : Host := cmds.foldl exec h

/-- Whether a chain exists and `OUTPUT` jumps to it. -/
def jumps (h : Host) (c : ChainName) : Bool := (h.chains c).any Chain.jump

end Host

/-- The commands of `start` for the whole machine. -/
def startRules (port : ℤ) : List Cmd :=
  [.newChain .redirect, .flush .redirect, .redirectTo .redirect port, .appendJump .redirect,
    .writeState ⟨true, .all, port⟩]

/-- What `start --selective` depends on: whether the tool `ipset` is there, whether the
specification names an address, and the option for QUIC. -/
structure SelectiveArgs where
  ipset : Bool
  addresses : Bool
  dropQuic : Bool

/-- The commands of `start --selective`. -/
def startSelectiveRules (port : ℤ) (args : SelectiveArgs) : List Cmd :=
  [.deleteJump .selective, .flush .selective, .deleteChain .selective,
    .deleteJump .selectiveQuic, .flush .selectiveQuic, .deleteChain .selectiveQuic,
    .newChain .selective, .flush .selective] ++
  (if args.ipset then [.destroySets, .createSets] else []) ++
  (if args.addresses then [.redirectTo .selective port] else []) ++
  [.appendJump .selective] ++
  (if args.dropQuic then
    [.newChain .selectiveQuic, .flush .selectiveQuic, .appendJump .selectiveQuic] else []) ++
  [.writeState ⟨true, .selective, port⟩]

/-- The commands of `stop`. It gets no port, so the file names the default one. -/
def stopRules (ipset : Bool) : List Cmd :=
  [.deleteJump .redirect, .flush .redirect, .deleteChain .redirect,
    .deleteJump .selective, .flush .selective, .deleteChain .selective,
    .deleteJump .selectiveQuic, .flush .selectiveQuic, .deleteChain .selectiveQuic] ++
  (if ipset then [.destroySets] else []) ++
  [.writeState ⟨false, .all, 17477⟩]

/-- How a run of the script ends: `none` when all goes well, else the number of commands that
were run. -/
abbrev ScriptRun := Option ℕ

/-- A run of the script by root: whether it reports success, and what it leaves. -/
def Host.runScript (h : Host) (cmds : List Cmd) : ScriptRun → Bool × Host
  | none => (true, h.execAll cmds)
  | some n => (false, h.execAll (cmds.take n))

/-! ### The process -/

/-- The transparent runner: its flag, its port, and the port its socket listens on. -/
structure TransparentRunner where
  running : Bool
  port : ℤ
  listening : Option ℤ
  deriving DecidableEq

/-- The outcome of an attempt to listen: whether it succeeds, and the port that the kernel
picks when it is asked for port 0. -/
structure Bind where
  succeeds : Bool
  ephemeral : ℤ

/-- The port that is listened on. -/
def Bind.address (b : Bind) (port : ℤ) : Option ℤ :=
  if b.succeeds && validPort port then some (if port = 0 then b.ephemeral else port) else none

/-- The process and its machine. The flag and the port of the listener and the switch are
saved and survive a restart. -/
structure InterceptionState where
  host : Host
  selectiveEnabled : Bool
  transparentRunning : Bool
  transparentPort : ℤ
  transparent : TransparentRunner
  root : Bool
  dropQuic : Bool
  ipset : Bool

/-- What an operation that applies rules meets: whether the tools are there, whether another
program answers on the port that is probed, whether our listener answers in time, the number
of resolved addresses before and after one more resolution, the run of the script, and whether
the network is reached afterwards. -/
structure ApplyEnv where
  capable : Bool
  foreign : Bool
  timely : Bool
  counts : ℕ × ℕ
  script : ScriptRun
  probe : Bool

/-- The number of addresses that a selective apply finds; it resolves once more if there are
none. -/
def ApplyEnv.count (e : ApplyEnv) : ℕ := if e.counts.1 = 0 then e.counts.2 else e.counts.1

/-- What a restart meets: the user of the new process, the attempt to listen, the number of
resolved addresses, and the run of the script. -/
structure StartupEnv where
  root : Bool
  bind : Bind
  count : ℕ
  script : ScriptRun

namespace InterceptionState

/-- A run of the script with other arguments than `stop`, by root. -/
def runSetupIptables (s : InterceptionState) (cmds : List Cmd) (r : ScriptRun) :
    Bool × InterceptionState :=
  ((s.host.runScript cmds r).1, { s with host := (s.host.runScript cmds r).2 })

/-- `stop` of the script; only root gets past its first line. -/
def runStop (s : InterceptionState) : InterceptionState :=
  if s.root then { s with host := s.host.execAll (stopRules s.ipset) } else s

/-- `TransparentRunner.start`; the task that listens runs until its first wait. -/
def transparentStart (s : InterceptionState) (port : ℤ) (b : Bind) : InterceptionState :=
  if s.transparent.running then s
  else
    { s with
      transparentRunning := true
      transparentPort := port
      transparent := ⟨(b.address port).isSome, port, b.address port⟩ }

/-- `TransparentRunner.stop`. -/
def transparentStop (s : InterceptionState) : InterceptionState :=
  { s with
    transparentRunning := false
    transparent := { s.transparent with running := false, listening := none } }

/-- `_handle_transparent_start`. -/
def handleTransparentStart (s : InterceptionState) (port : ℤ) (b : Bind) : InterceptionState :=
  { s with transparentPort := port }.transparentStart port b

/-- `_handle_transparent_stop`. -/
def handleTransparentStop (s : InterceptionState) : InterceptionState :=
  { s.transparentStop.runStop with selectiveEnabled := false }

/-- The port that the readiness check names; 0 counts as missing. -/
def readinessPort (s : InterceptionState) : ℤ :=
  if s.transparent.port ≠ 0 then s.transparent.port
  else if s.transparentPort ≠ 0 then s.transparentPort
  else 17477

/-- Whether a connection to a port is accepted, by our listener or by another program. -/
def answers (s : InterceptionState) (e : ApplyEnv) (port : ℤ) : Bool :=
  validPort port && (e.foreign || e.timely && decide (s.transparent.listening = some port))

/-- `ready` of `_interception_readiness`. -/
def interceptionReadiness (s : InterceptionState) (e : ApplyEnv) : Bool :=
  s.root && e.capable && (s.transparent.running || s.transparentRunning) &&
    s.answers e s.readinessPort

/-- `_handle_interception_apply`, first part: the whole machine replaces the selection. -/
def dropSelective (s : InterceptionState) : InterceptionState :=
  if s.selectiveEnabled then { s.runStop with selectiveEnabled := false } else s

/-- `_handle_interception_apply`, second part: set the rules up and probe the network. -/
def applyWhole (s : InterceptionState) (port : ℤ) (e : ApplyEnv) : InterceptionState :=
  match s.runSetupIptables (startRules port) e.script with
  | (true, s) => if e.probe then s else s.runStop
  -- what a script that fails has set up stays
  | (false, s) => s

/-- `_handle_interception_apply`. -/
def handleInterceptionApply (s : InterceptionState) (e : ApplyEnv) : InterceptionState :=
  if s.interceptionReadiness e then s.dropSelective.applyWhole s.readinessPort e else s

/-- `_handle_interception_stop`. -/
def handleInterceptionStop (s : InterceptionState) : InterceptionState :=
  { s.runStop with selectiveEnabled := false }

/-- Whether the state file says that the whole machine is intercepted. -/
def wholeActive (s : InterceptionState) : Bool :=
  s.host.file.any fun file => file.active && file.mode ≠ .selective

/-- `_handle_selective_apply`, the part behind its checks. -/
def applySelective (s : InterceptionState) (port : ℤ) (e : ApplyEnv) : InterceptionState :=
  match s.runSetupIptables (startSelectiveRules port ⟨s.ipset, true, s.dropQuic⟩) e.script with
  | (true, s) => if e.probe then { s with selectiveEnabled := true } else s.runStop
  | (false, s) => s.runStop

/-- `_handle_selective_apply`. -/
def handleSelectiveApply (s : InterceptionState) (e : ApplyEnv) : InterceptionState :=
  if s.wholeActive then s
  else if s.interceptionReadiness e then
    if e.count = 0 then s else s.applySelective s.readinessPort e
  else s

/-- `_handle_selective_stop`. -/
def handleSelectiveStop (s : InterceptionState) : InterceptionState :=
  { s.runStop with selectiveEnabled := false }

/-! ### The startup -/

/-- `actual_state`, reduced to the question whether something of ours is left. -/
def applied (s : InterceptionState) : Bool :=
  s.host.jumps .selective || s.host.jumps .redirect || (s.host.chains .selective).isSome ||
    s.host.jumps .selectiveQuic || s.host.ipsets

/-- Whether the state file says that something is active. -/
def fileActive (s : InterceptionState) : Bool := s.host.file.any StateFile.active

/-- `reconcile_on_startup`. -/
def reconcileOnStartup (s : InterceptionState) : InterceptionState :=
  if s.applied && !(s.selectiveEnabled || s.fileActive) then s.runStop else s

/-- The port of the state file, or the saved one. -/
def reenforcePort (s : InterceptionState) : ℤ :=
  (s.host.file.map StateFile.redirectPort).getD s.transparentPort

/-- The script that `reenforce_on_startup` runs, if any. -/
def reenforceScript (s : InterceptionState) (count : ℕ) : Option (List Cmd) :=
  if s.selectiveEnabled then
    some (startSelectiveRules s.reenforcePort ⟨s.ipset, decide (count ≠ 0), s.dropQuic⟩)
  else if s.wholeActive then some (startRules s.reenforcePort)
  else none

/-- `reenforce_on_startup`. -/
def reenforceOnStartup (s : InterceptionState) (e : StartupEnv) : InterceptionState :=
  if s.transparentRunning then
    if s.root then
      match s.reenforceScript e.count with
      | none => s
      | some cmds =>
        match s.runSetupIptables cmds e.script with
        | (true, s) => s
        | (false, s) => s.runStop
    else s
  else if s.applied then s.runStop else s

/-- A new process that has not restored its services: no socket, and the saved port. -/
def newProcess (s : InterceptionState) (root : Bool) : InterceptionState :=
  { s with root := root, transparent := ⟨false, s.transparentPort, none⟩ }

/-- The restored services. -/
def restore (s : InterceptionState) (b : Bind) : InterceptionState :=
  if s.transparentRunning then s.transparentStart s.transparentPort b else s

/-- A restart of the process. -/
def restart (s : InterceptionState) (e : StartupEnv) : InterceptionState :=
  (((s.newProcess e.root).restore e.bind).reconcileOnStartup).reenforceOnStartup e

/-- A machine on which nothing was ever set up. -/
def fresh (root dropQuic ipset : Bool) : InterceptionState :=
  ⟨⟨fun _ => none, false, none⟩, false, false, 17477, ⟨false, 17477, none⟩, root, dropQuic, ipset⟩

end InterceptionState

/-- An operation on the interception. -/
inductive InterceptionOp
  | transparentStart (port : ℤ) (b : Bind)
  | transparentStop
  | apply (e : ApplyEnv)
  | stop
  | selectiveApply (e : ApplyEnv)
  | selectiveStop
  | restart (e : StartupEnv)

namespace InterceptionState

/-- One operation. -/
def perform (s : InterceptionState) : InterceptionOp → InterceptionState
  | .transparentStart port b => s.handleTransparentStart port b
  | .transparentStop => s.handleTransparentStop
  | .apply e => s.handleInterceptionApply e
  | .stop => s.handleInterceptionStop
  | .selectiveApply e => s.handleSelectiveApply e
  | .selectiveStop => s.handleSelectiveStop
  | .restart e => s.restart e

end InterceptionState

/-- The interception under any sequence of operations. -/
def interceptionMachine : Machine InterceptionState InterceptionOp where
  step s op := some (s.perform op)

end HuntProxy
