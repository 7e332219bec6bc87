import PeerCompute.Agent.Endpoints
import PeerCompute.Data.Separated
import PeerCompute.Interleaving.Prog
import PeerCompute.Registry.Messages

/-! The provider's machine as the agent uses it: the daemon's map of sessions, Docker, wg-quick and
its config files, and what the registry lists. -/

namespace PeerCompute.Agent

open PeerCompute.Data PeerCompute.Interleaving PeerCompute.Computev1 Prog

/-- A session of a poll.  The IDs of the registry are UUIDs, so that `sess.Id[:12]` is in range. -/
structure PolledSession extends Session where
  long : 12 ≤ id.toList.length

structure WGKeyPair where
  privateKey : String
  publicKey : String
  deriving DecidableEq

structure WGConfig where
  privateKey : String
  tunnelIP : String
  listenPort : Int
  peerPublicKey : String
  peerIP : String
  peerEndpoint : String
  deriving DecidableEq

/-- What runs under a context of its own in a session. -/
inductive Task
  | relayClient
  | sshProxy
  deriving DecidableEq

/-- A context made by the `startSession` with the number `attempt`. -/
structure Context where
  attempt : Nat
  task : Task
  deriving DecidableEq

/-- `relayCancel` is the list of contexts that the function cancels. -/
structure RunningSession where
  containerID : String := ""
  networkID : String := ""
  wgKeyPair : Option WGKeyPair := none
  wgConfPath : String := ""
  relayCancel : Option (List Context) := none
  connMode : String := ""
  deriving DecidableEq

/-- The assignments of `startSession` to the fields of its `runningSession`. -/
inductive Assign
  | containerID (id : String)
  | networkID (id : String)
  | wgKeyPair (kp : WGKeyPair)
  | wgConfPath (path : String)
  | relayCancel (contexts : List Context)

def Assign.apply : Assign → RunningSession → RunningSession
  | .containerID id, rs => { rs with containerID := id }
  | .networkID id, rs => { rs with networkID := id }
  | .wgKeyPair kp, rs => { rs with wgKeyPair := some kp }
  | .wgConfPath path, rs => { rs with wgConfPath := path }
  | .relayCancel cs, rs => { rs with relayCancel := some cs }

/-- The part of a container's configuration that depends on its session. -/
structure ContainerConfig where
  image : String
  network : String
  nanoCPUs : Int
  memory : Int
  gpuCount : Int
  deriving DecidableEq

/-- `creator` is the number of the `startSession` that has made it. -/
structure Container where
  name : String
  config : ContainerConfig
  running : Bool := false
  creator : Nat

structure Network where
  id : String
  creator : Nat

structure ConfigFile where
  config : WGConfig
  creator : Nat

structure Inspection where
  running : Bool
  hostPort : String

/-- Why Docker or wg-quick has not done what it was asked for. -/
inductive CallError
  | notFound
  | refused
  deriving DecidableEq

/-- The response of `ExchangeCandidates`. -/
structure Exchange where
  peerCandidates : List EndpointCandidate := []
  peerWGPublicKey : String := ""
  relayAddress : String := ""
  relayToken : String := ""

/-- What the daemon starts with `go`. -/
inductive Goroutine
  | startSession (sess : PolledSession)
  | stopSession (sessionID : String)

/-- How far a `startSession` has come since its reservation. -/
inductive Phase
  | starting
  | cleaning
  | ended
  deriving DecidableEq

structure Attempt where
  sessionID : String
  phase : Phase
  deriving DecidableEq

/-- A `runningSession` is named by the number of the `startSession` that has made it.  `attempts`
is a history variable; `clock` counts the actions taken so far. -/
structure Host where
  sessions : Map String Nat := ∅
  objects : Map Nat RunningSession := ∅
  attempts : Map Nat Attempt := ∅
  /-- By their IDs. -/
  containers : Map String Container := ∅
  /-- By their names. -/
  networks : Map String Network := ∅
  /-- By their paths. -/
  configs : Map String ConfigFile := ∅
  interfaces : List String := []
  /-- The attempts that have started an SSH proxy. -/
  proxies : List Nat := []
  /-- The attempts that have started a relay client. -/
  relays : List Nat := []
  cancelled : List Context := []
  /-- The context of `Run` is done. -/
  done : Bool := false
  /-- What the registry lists as pending. -/
  pending : List PolledSession := []
  spawned : List Goroutine := []
  clock : Nat := 0

/-- The atomic actions of the daemon: the critical sections of its mutex, each read or assignment
of a field, and the calls of Docker, wg-quick, the file system and the registry. -/
inductive Action
  | reserve (attempt : Nat) (sessionID : String)
  | release (attempt : Nat) (sessionID : String)
  | take (sessionID : String)
  | tracked (sessionID : String)
  | sessionIDs
  | setConnMode (sessionID connMode : String)
  | registerProxy (attempt : Nat) (sessionID : String)
  | load (object : Nat)
  | assign (object : Nat) (a : Assign)
  | cancel (contexts : List Context)
  | cancelRun
  | runRelayClient (attempt : Nat)
  | runSSHProxy (attempt : Nat) (providerWGIP sshPort : String)
  | networkRemove (name : String)
  | networkCreate (attempt : Nat) (name : String)
  | imagePull (image : String)
  | containerRemoveNamed (name : String)
  | containerCreate (attempt : Nat) (name : String) (config : ContainerConfig)
  | containerStart (id : String)
  | containerInspect (id : String)
  | containerStop (id : String)
  | containerRemove (id : String)
  | generateKeyPair
  | gatherCandidates (port : Int)
  | exchangeCandidates (req : ExchangeCandidatesRequest)
  | probe (port : Int) (remote : List EndpointCandidate)
  | newRelayClient (address token : String) (proxyPort wgPort : Int)
  | reportConnectionResult (req : ReportConnectionResultRequest)
  | writeConfig (attempt : Nat) (path : String) (config : WGConfig)
  | removeConfig (cleanup : Option Nat) (path : String)
  | wgUp (confPath : String)
  | wgDown (confPath : String)
  | updateSessionStatus (req : UpdateSessionStatusRequest)
  | listPending
  | heartbeat (activeSessions : List String)
  | go (g : Goroutine)

namespace Action

def Res : Action → Type
  | reserve _ _ | tracked _ | newRelayClient _ _ _ _ => Bool
  | take _ => Option Nat
  | sessionIDs => List String
  | load _ => RunningSession
  | networkRemove _ | imagePull _ | containerRemoveNamed _ | containerStart _ | containerStop _ |
    containerRemove _ | writeConfig _ _ _ | removeConfig _ _ | wgUp _ | wgDown _ =>
    Except CallError Unit
  | networkCreate _ _ | containerCreate _ _ _ => Except CallError String
  | containerInspect _ => Except CallError Inspection
  | generateKeyPair => Option WGKeyPair
  | gatherCandidates _ => List EndpointCandidate
  | exchangeCandidates _ => Option Exchange
  | probe _ _ => Option String
  | listPending => Option (List PolledSession)
  | heartbeat _ => Option (List String)
  | release _ _ | setConnMode _ _ | registerProxy _ _ | assign _ _ | cancel _ | cancelRun |
    runRelayClient _ | runSSHProxy _ _ _ | reportConnectionResult _ | updateSessionStatus _ |
    go _ => Unit

end Action

def signature : Signature := ⟨Action, Action.Res⟩

/-! The actions as programs of one step. -/

namespace Call

def reserve (n : Nat) (id : String) : Prog signature Bool :=
  perform (S := signature) (.reserve n id)

def release (n : Nat) (id : String) : Prog signature Unit :=
  perform (S := signature) (.release n id)

def take (id : String) : Prog signature (Option Nat) := perform (S := signature) (.take id)

def tracked (id : String) : Prog signature Bool := perform (S := signature) (.tracked id)

def sessionIDs : Prog signature (List String) := perform (S := signature) .sessionIDs

def setConnMode (id mode : String) : Prog signature Unit :=
  perform (S := signature) (.setConnMode id mode)

def registerProxy (n : Nat) (id : String) : Prog signature Unit :=
  perform (S := signature) (.registerProxy n id)

def load (m : Nat) : Prog signature RunningSession := perform (S := signature) (.load m)

def assign (m : Nat) (a : Assign) : Prog signature Unit := perform (S := signature) (.assign m a)

def cancel (cs : List Context) : Prog signature Unit := perform (S := signature) (.cancel cs)

def cancelRun : Prog signature Unit := perform (S := signature) .cancelRun

def runRelayClient (n : Nat) : Prog signature Unit := perform (S := signature) (.runRelayClient n)

def runSSHProxy (n : Nat) (ip port : String) : Prog signature Unit :=
  perform (S := signature) (.runSSHProxy n ip port)

def networkRemove (name : String) : Prog signature (Except CallError Unit) :=
  perform (S := signature) (.networkRemove name)

def networkCreate (n : Nat) (name : String) : Prog signature (Except CallError String) :=
  perform (S := signature) (.networkCreate n name)

def imagePull (image : String) : Prog signature (Except CallError Unit) :=
  perform (S := signature) (.imagePull image)

def containerRemoveNamed (name : String) : Prog signature (Except CallError Unit) :=
  perform (S := signature) (.containerRemoveNamed name)

def containerCreate (n : Nat) (name : String) (config : ContainerConfig) :
    Prog signature (Except CallError String) :=
  perform (S := signature) (.containerCreate n name config)

def containerStart (id : String) : Prog signature (Except CallError Unit) :=
  perform (S := signature) (.containerStart id)

def containerInspect (id : String) : Prog signature (Except CallError Inspection) :=
  perform (S := signature) (.containerInspect id)

def containerStop (id : String) : Prog signature (Except CallError Unit) :=
  perform (S := signature) (.containerStop id)

def containerRemove (id : String) : Prog signature (Except CallError Unit) :=
  perform (S := signature) (.containerRemove id)

def generateKeyPair : Prog signature (Option WGKeyPair) := perform (S := signature) .generateKeyPair

def gatherCandidates (port : Int) : Prog signature (List EndpointCandidate) :=
  perform (S := signature) (.gatherCandidates port)

def exchangeCandidates (req : ExchangeCandidatesRequest) : Prog signature (Option Exchange) :=
  perform (S := signature) (.exchangeCandidates req)

def probe (port : Int) (remote : List EndpointCandidate) : Prog signature (Option String) :=
  perform (S := signature) (.probe port remote)

def newRelayClient (address token : String) (proxyPort wgPort : Int) : Prog signature Bool :=
  perform (S := signature) (.newRelayClient address token proxyPort wgPort)

def reportConnectionResult (req : ReportConnectionResultRequest) : Prog signature Unit :=
  perform (S := signature) (.reportConnectionResult req)

def writeConfig (n : Nat) (path : String) (config : WGConfig) :
    Prog signature (Except CallError Unit) :=
  perform (S := signature) (.writeConfig n path config)

def removeConfig (cleanup : Option Nat) (path : String) : Prog signature (Except CallError Unit) :=
  perform (S := signature) (.removeConfig cleanup path)

def wgUp (path : String) : Prog signature (Except CallError Unit) :=
  perform (S := signature) (.wgUp path)

def wgDown (path : String) : Prog signature (Except CallError Unit) :=
  perform (S := signature) (.wgDown path)

def updateSessionStatus (req : UpdateSessionStatusRequest) : Prog signature Unit :=
  perform (S := signature) (.updateSessionStatus req)

def listPending : Prog signature (Option (List PolledSession)) :=
  perform (S := signature) .listPending

def heartbeat (active : List String) : Prog signature (Option (List String)) :=
  perform (S := signature) (.heartbeat active)

def go (g : Goroutine) : Prog signature Unit := perform (S := signature) (.go g)

end Call

/-- How the write of a config file can end: the template may fail when the file is already there. -/
inductive Write
  | written
  | refused
  | torn

/-- What the environment answers, by the moment of the question. -/
structure Env where
  /-- Whether a call is refused. -/
  fails : Action → Nat → Bool
  /-- The IDs that Docker gives to what it creates. -/
  id : Nat → String
  id_injective : Function.Injective id
  id_ne : ∀ t, id t ≠ ""
  /-- Whether a started container is seen to have exited. -/
  exited : Nat → Bool
  /-- The published SSH port. -/
  hostPort : Nat → String
  keyPair : Nat → Option WGKeyPair
  gatherCandidates : Nat → List EndpointCandidate
  exchangeCandidates : Nat → Option Exchange
  /-- The endpoint of a hole punch that succeeds. -/
  probe : Nat → Option String
  write : Nat → Write
  /-- The sessions that the reply to a heartbeat asks to terminate. -/
  heartbeat : Nat → List String → Option (List String)
  /-- The order in which a map is ranged over. -/
  order : Nat → Order String

/-- A machine on which everything goes well.  The reply to a heartbeat asks for every session to be
terminated. -/
def quietEnv : Env where
  fails _ _ := false
  id t := "id-" ++ t.repr
  id_injective m n h := by
    have hl := congrArg String.toList h
    simp only [String.toList_append] at hl
    exact repr_inj (List.append_cancel_left hl)
  id_ne t h := by
    have hl := congrArg String.length h
    simp at hl
  exited _ := false
  hostPort _ := "32768"
  keyPair _ := some ⟨"provider private key", "provider key"⟩
  gatherCandidates _ := []
  exchangeCandidates _ := some { peerWGPublicKey := "renter key" }
  probe _ := none
  write _ := .written
  heartbeat _ active := some active
  order _ := Order.id

/-- `filepath.Base` without the suffix `.conf`. -/
def ifaceFromPath (confPath : String) : String :=
  let base := ((confPath.toList.splitOn '/').getLast?).getD []
  let suffix := ".conf".toList
  String.ofList (if suffix.isSuffixOf base then base.take (base.length - suffix.length) else base)

namespace Host

variable (E : Env) (s : Host)

def tick : Host := { s with clock := s.clock + 1 }

def reserve (n : Nat) (id : String) : Bool × Host :=
  match s.sessions.lookup id with
  | some _ => (false, s)
  | none => (true, { s with
      sessions := s.sessions.insert id n
      objects := s.objects.insert n {}
      attempts := s.attempts.insert n ⟨id, .starting⟩ })

/-- `delete(d.sessions, sess.Id)` in `cleanupFailedStart`. -/
def release (n : Nat) (id : String) : Host :=
  { s with
    sessions := s.sessions.erase id
    attempts := s.attempts.modify n (fun a => { a with phase := .cleaning }) }

/-- The critical section of `stopSession`. -/
def take (id : String) : Option Nat × Host :=
  (s.sessions.lookup id, { s with sessions := s.sessions.erase id })

/-- `if current, ok := d.sessions[sess.Id]; ok`. -/
def withCurrent (id : String) (f : RunningSession → RunningSession) : Host :=
  match s.sessions.lookup id with
  | none => s
  | some m => { s with objects := s.objects.modify m f }

def setConnMode (id mode : String) : Host := s.withCurrent id (fun rs => { rs with connMode := mode })

/-- The SSH proxy's cancel function before the one that was there. -/
def registerProxy (n : Nat) (id : String) : Host :=
  s.withCurrent id (fun rs =>
    { rs with relayCancel := some (⟨n, .sshProxy⟩ :: rs.relayCancel.getD []) })

/-- Docker refuses to remove a network that a running container is attached to. -/
def networkRemove (name : String) : Except CallError Unit × Host :=
  if (s.networks.lookup name).isNone then (.error .notFound, s)
  else if s.containers.entries.any (fun c => c.2.running && c.2.config.network == name) then
    (.error .refused, s)
  else (.ok (), { s with networks := s.networks.erase name })

def networkCreate (n : Nat) (name : String) : Except CallError String × Host :=
  if (s.networks.lookup name).isSome then (.error .refused, s)
  else (.ok (E.id s.clock), { s with networks := s.networks.insert name ⟨E.id s.clock, n⟩ })

/-- The ID of the container with a name. -/
def named (name : String) : Option String :=
  (s.containers.entries.find? (fun c => c.2.name == name)).map (·.1)

def containerRemove (id : String) : Except CallError Unit × Host :=
  if (s.containers.lookup id).isNone then (.error .notFound, s)
  else (.ok (), { s with containers := s.containers.erase id })

def containerRemoveNamed (name : String) : Except CallError Unit × Host :=
  match s.named name with
  | none => (.error .notFound, s)
  | some id => s.containerRemove id

def containerCreate (n : Nat) (name : String) (config : ContainerConfig) :
    Except CallError String × Host :=
  if (s.named name).isSome then (.error .refused, s)
  else (.ok (E.id s.clock), { s with
    containers := s.containers.insert (E.id s.clock) { name := name, config := config, creator := n } })

/-- The network of a container has to be there when it starts. -/
def containerStart (id : String) : Except CallError Unit × Host :=
  match s.containers.lookup id with
  | none => (.error .notFound, s)
  | some c =>
    if (s.networks.lookup c.config.network).isNone then (.error .refused, s)
    else (.ok (), { s with containers := s.containers.insert id { c with running := true } })

def containerInspect (id : String) : Except CallError Inspection :=
  match s.containers.lookup id with
  | none => .error .notFound
  | some c => .ok ⟨c.running && !E.exited s.clock, E.hostPort s.clock⟩

def containerStop (id : String) : Except CallError Unit × Host :=
  match s.containers.lookup id with
  | none => (.error .notFound, s)
  | some c => (.ok (), { s with containers := s.containers.insert id { c with running := false } })

def writeConfig (n : Nat) (path : String) (config : WGConfig) : Except CallError Unit × Host :=
  let written := { s with configs := s.configs.insert path ⟨config, n⟩ }
  match E.write s.clock with
  | .written => (.ok (), written)
  | .refused => (.error .refused, s)
  | .torn => (.error .refused, written)

/-- A `cleanupFailedStart` is over with the removal of the file, whatever comes of it. -/
def endCleanup (cleanup : Option Nat) : Host :=
  { s with
    attempts := match cleanup with
      | none => s.attempts
      | some n => s.attempts.modify n (fun a => { a with phase := .ended }) }

/-- `os.Remove` of a config file, by the `cleanupFailedStart` of an attempt or by somebody else.  The
callers ignore its error. -/
def removeConfig (cleanup : Option Nat) (path : String) : Except CallError Unit × Host :=
  if (s.configs.lookup path).isNone then (.error .notFound, s.endCleanup cleanup)
  else if E.fails (.removeConfig cleanup path) s.clock then (.error .refused, s.endCleanup cleanup)
  else (.ok (), { s.endCleanup cleanup with configs := s.configs.erase path })

/-- wg-quick wants the file, and no interface of that name. -/
def wgUp (confPath : String) : Except CallError Unit × Host :=
  if (s.configs.lookup confPath).isNone ∨ ifaceFromPath confPath ∈ s.interfaces then
    (.error .refused, s)
  else (.ok (), { s with interfaces := ifaceFromPath confPath :: s.interfaces })

def wgDown (confPath : String) : Except CallError Unit × Host :=
  if ifaceFromPath confPath ∉ s.interfaces then (.error .notFound, s)
  else if (s.configs.lookup confPath).isNone then (.error .refused, s)
  else (.ok (), { s with interfaces := s.interfaces.filter (· ≠ ifaceFromPath confPath) })

/-- The registry lists a session as pending until a status report for it arrives. -/
def updateSessionStatus (req : UpdateSessionStatusRequest) : Host :=
  { s with pending := s.pending.filter (fun sess => sess.id ≠ req.sessionID) }

/-- A call that the environment may refuse. -/
def attempted {α : Type} (a : Action) (x : Except CallError α × Host) : Except CallError α × Host :=
  if E.fails a s.clock then (.error .refused, s) else x

def act : (a : Action) → a.Res × Host
  | .reserve n id => s.reserve n id
  | .release n id => ((), s.release n id)
  | .take id => s.take id
  | .tracked id => ((s.sessions.lookup id).isSome, s)
  | .sessionIDs => ((E.order s.clock).apply s.sessions.keys, s)
  | .setConnMode id mode => ((), s.setConnMode id mode)
  | .registerProxy n id => ((), s.registerProxy n id)
  | .load m => ((s.objects.lookup m).getD {}, s)
  | .assign m a => ((), { s with objects := s.objects.modify m a.apply })
  | .cancel cs => ((), { s with cancelled := cs ++ s.cancelled })
  | .cancelRun => ((), { s with done := true })
  | .runRelayClient n => ((), { s with relays := n :: s.relays })
  | .runSSHProxy n ip port =>
    -- a proxy that cannot listen is over at once
    ((), if E.fails (.runSSHProxy n ip port) s.clock then s else { s with proxies := n :: s.proxies })
  | .networkRemove name => s.attempted E (.networkRemove name) (s.networkRemove name)
  | .networkCreate n name => s.attempted E (.networkCreate n name) (s.networkCreate E n name)
  | .imagePull image => s.attempted E (.imagePull image) (.ok (), s)
  | .containerRemoveNamed name =>
    s.attempted E (.containerRemoveNamed name) (s.containerRemoveNamed name)
  | .containerCreate n name config =>
    s.attempted E (.containerCreate n name config) (s.containerCreate E n name config)
  | .containerStart id => s.attempted E (.containerStart id) (s.containerStart id)
  | .containerInspect id => s.attempted E (.containerInspect id) (s.containerInspect E id, s)
  | .containerStop id => s.attempted E (.containerStop id) (s.containerStop id)
  | .containerRemove id => s.attempted E (.containerRemove id) (s.containerRemove id)
  | .generateKeyPair => (E.keyPair s.clock, s)
  | .gatherCandidates _ => (E.gatherCandidates s.clock, s)
  | .exchangeCandidates _ => (E.exchangeCandidates s.clock, s)
  | .probe _ _ => (E.probe s.clock, s)
  | .newRelayClient address token proxyPort wgPort =>
    (!E.fails (.newRelayClient address token proxyPort wgPort) s.clock, s)
  | .reportConnectionResult _ => ((), s)
  | .writeConfig n path config => s.writeConfig E n path config
  | .removeConfig cleanup path => s.removeConfig E cleanup path
  | .wgUp path => s.attempted E (.wgUp path) (s.wgUp path)
  | .wgDown path => s.attempted E (.wgDown path) (s.wgDown path)
  | .updateSessionStatus req =>
    ((), if E.fails (.updateSessionStatus req) s.clock then s else s.updateSessionStatus req)
  | .listPending => (if E.fails .listPending s.clock then none else some s.pending, s)
  | .heartbeat active => (E.heartbeat s.clock active, s)
  | .go g => ((), { s with spawned := s.spawned ++ [g] })

end Host

def exec (E : Env) : Exec signature Host := fun a s =>
  let x := s.act E a
  some (x.1, x.2.tick)

end PeerCompute.Agent
