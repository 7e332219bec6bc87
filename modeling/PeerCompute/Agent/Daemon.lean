import PeerCompute.Agent.Docker
import PeerCompute.Interleaving.Guard
import PeerCompute.Interleaving.Steps

/-! `Daemon`, whose goroutines share the machine. -/

namespace PeerCompute.Agent

open PeerCompute.Interleaving PeerCompute.Computev1 Prog

/-- `provider` is the ID under which the daemon has registered. -/
structure Config where
  address : String
  wgListenPort : Int
  compat : Bool := false
  provider : String

/-- `os.TempDir()` joined with the directory of the config files. -/
def configPath (sessionID : String) : String :=
  "/tmp/peer-compute/wg/pc-" ++ short sessionID ++ ".conf"

def updateStatus (sessionID status containerID sshEndpoint wgEndpoint wgPublicKey : String) :
    Prog signature Unit :=
  Call.updateSessionStatus
    { sessionID := sessionID, status := status, containerID := containerID
      sshEndpoint := sshEndpoint, wgPublicKey := wgPublicKey, wgEndpoint := wgEndpoint }

/-! A field is read each time the source names it: another goroutine may assign it in between. -/

/-- `if rs.relayCancel != nil { rs.relayCancel() }`. -/
def callRelayCancel (m : Nat) : Prog signature Unit := do
  let rs ← Call.load m
  if rs.relayCancel = none then return ()
  else
    let rs ← Call.load m
    Call.cancel (rs.relayCancel.getD [])

/-- `if rs.containerID != "" { … d.runner.StopContainer(ctx, rs.containerID, sess.Id) … }`. -/
def stopRecorded (m : Nat) (sessionID : String) : Prog signature Unit := do
  let rs ← Call.load m
  if rs.containerID = "" then return ()
  else
    let rs ← Call.load m
    stopContainer rs.containerID sessionID

/-- `if rs.wgConfPath != "" { … WGDown(ctx, rs.wgConfPath, d.log) … }`. -/
def wgDownRecorded (m : Nat) : Prog signature Unit := do
  let rs ← Call.load m
  if rs.wgConfPath = "" then return ()
  else
    let rs ← Call.load m
    let _ ← Call.wgDown rs.wgConfPath
    return ()

def cleanupFailedStart (n : Nat) (sessionID : String) : Prog signature Unit := do
  Call.release n sessionID
  callRelayCancel n
  stopRecorded n sessionID
  wgDownRecorded n
  let _ ← Call.removeConfig (some n) (configPath sessionID)
  return ()

def failSessionStart (n : Nat) (sessionID : String) : Prog signature Unit := do
  cleanupFailedStart n sessionID
  updateStatus sessionID "terminated" "" "" "" ""

/-- The mode of the connection, and the endpoint of the peer. -/
structure Link where
  connMode : String
  peerEndpoint : String

def direct : Link := ⟨"direct", ""⟩

def relayFallback (n : Nat) (cfg : Config) (sessionID : String) (wgPort : Int) (exch : Exchange) :
    Prog signature Link := do
  if exch.relayAddress = "" then return direct
  else
    let proxyPort := wrap (wgPort + 10000)
    if ← Call.newRelayClient exch.relayAddress exch.relayToken proxyPort wgPort then
      Call.assign n (.relayCancel [⟨n, .relayClient⟩])
      Call.runRelayClient n
      Call.reportConnectionResult
        { sessionID := sessionID, peerID := cfg.provider, selectedEndpoint := "", useRelay := true }
      return ⟨"relay", "127.0.0.1:" ++ toString proxyPort⟩
    else return direct

/-- A hole punch if the peer has candidates, then the relay, then nothing. -/
def negotiate (n : Nat) (cfg : Config) (sessionID : String) (wgPort : Int) (exch : Exchange) :
    Prog signature Link := do
  if exch.peerCandidates = [] then relayFallback n cfg sessionID wgPort exch
  else
    match ← Call.probe wgPort exch.peerCandidates with
    | some addr => return ⟨"holepunch", addr⟩
    | none => relayFallback n cfg sessionID wgPort exch

/-- The fallback of legacy sessions. -/
def orElse (ip fallback : String) : String := if ip = "" then fallback else ip

/-- Steps 8 to 10: the session is up. -/
def serveSession (n : Nat) (cfg : Config) (sess : PolledSession) (started : Started)
    (kp : WGKeyPair) (wgPort : Int) (link : Link) : Prog signature Unit := do
  Call.setConnMode sess.id link.connMode
  Call.registerProxy n sess.id
  Call.runSSHProxy n (orElse sess.wgProviderIP "10.99.0.1") started.sshPort
  updateStatus sess.id "running" started.containerID
    (buildSSHEndpoint cfg.address started.sshPort) (cfg.address ++ ":" ++ toString wgPort)
    kp.publicKey
  if link.connMode = "holepunch" then
    Call.reportConnectionResult
      { sessionID := sess.id, peerID := cfg.provider, selectedEndpoint := link.peerEndpoint
        useRelay := false }
  else return ()

/-- Step 7: the WireGuard config is written and activated. -/
def activate (n : Nat) (cfg : Config) (sess : PolledSession) (started : Started) (kp : WGKeyPair)
    (wgPort : Int) (peerWGKey : String) (link : Link) : Prog signature Unit := do
  match ← Call.writeConfig n (configPath sess.id)
      { privateKey := kp.privateKey, tunnelIP := orElse sess.wgProviderIP "10.99.0.1"
        listenPort := wgPort, peerPublicKey := peerWGKey
        peerIP := orElse sess.wgRenterIP "10.99.0.2", peerEndpoint := link.peerEndpoint } with
  | .error _ => failSessionStart n sess.id
  | .ok () =>
    Call.assign n (.wgConfPath (configPath sess.id))
    match ← Call.wgUp (configPath sess.id) with
    | .error _ => failSessionStart n sess.id
    | .ok () => serveSession n cfg sess started kp wgPort link

/-- Steps 3 to 6. -/
def connect (n : Nat) (cfg : Config) (sess : PolledSession) (started : Started) (kp : WGKeyPair) :
    Prog signature Unit := do
  let wgPort := wrap (cfg.wgListenPort + parseTunnelIndex sess.wgProviderIP)
  if cfg.compat then failSessionStart n sess.id
  else
    let candidates ← Call.gatherCandidates wgPort
    -- an exchange that fails counts as an empty one
    let exch := (← Call.exchangeCandidates
      { sessionID := sess.id, peerID := cfg.provider, candidates := candidates
        wgPublicKey := kp.publicKey }).getD {}
    if exch.peerWGPublicKey = "" then failSessionStart n sess.id
    else
      let link ← negotiate n cfg sess.id wgPort exch
      activate n cfg sess started kp wgPort exch.peerWGPublicKey link

def startSession (n : Nat) (cfg : Config) (sess : PolledSession) : Prog signature Unit := do
  if ← Call.reserve n sess.id then
    match ← startContainer n
        { sessionID := sess.id, resources := sess.allocated, imageName := sess.image
          gpuCount := sess.allocated.gpuCount.toNat } with
    | .error _ => failSessionStart n sess.id
    | .ok started =>
      Call.assign n (.containerID started.containerID)
      Call.assign n (.networkID started.networkID)
      match ← Call.generateKeyPair with
      | none => failSessionStart n sess.id
      | some kp =>
        Call.assign n (.wgKeyPair kp)
        connect n cfg sess started kp
  else return ()

/-- What `stopSession` does with the `runningSession` that it has taken out of the map. -/
def tearDown (m : Nat) (sessionID : String) : Prog signature Unit := do
  callRelayCancel m
  let rs ← Call.load m
  stopContainer rs.containerID sessionID
  wgDownRecorded m
  let _ ← Call.removeConfig none (configPath sessionID)
  updateStatus sessionID "terminated" "" "" "" ""

def stopSession (sessionID : String) : Prog signature Unit := do
  match ← Call.take sessionID with
  | none => return ()
  | some m => tearDown m sessionID

def stopAll : List String → Prog signature Unit
  | [] => return ()
  | id :: ids => do
    stopSession id
    stopAll ids

/-- The context of `Run` is done, and the sessions are stopped one after the other. -/
def cleanup : Prog signature Unit := do
  Call.cancelRun
  let ids ← Call.sessionIDs
  stopAll ids

def spawnStops : List String → Prog signature Unit
  | [] => return ()
  | id :: ids => do
    Call.go (.stopSession id)
    spawnStops ids

/-- One round of `heartbeatLoop`. -/
def heartbeatRound : Prog signature Unit := do
  let activeIDs ← Call.sessionIDs
  match ← Call.heartbeat activeIDs with
  | none => return ()
  | some terminate => spawnStops terminate

def spawnStarts : List PolledSession → Prog signature Unit
  | [] => return ()
  | sess :: rest => do
    if ← Call.tracked sess.id then spawnStarts rest
    else
      Call.go (.startSession sess)
      spawnStarts rest

/-- One round of `sessionLoop`. -/
def pollRound : Prog signature Unit := do
  match ← Call.listPending with
  | none => return ()
  | some sessions => spawnStarts sessions

/-- The actions of such a round. -/
def Polls : Action → Prop
  | .tracked _ | .listPending | .go (.startSession _) => True
  | _ => False

theorem Polls.elim {allowed : Action → Prop} (htracked : ∀ id, allowed (.tracked id))
    (hlist : allowed .listPending) (hgo : ∀ sess, allowed (.go (.startSession sess))) {a : Action}
    (ha : Polls a) : allowed a := by
  cases a with
  | tracked id => exact htracked id
  | listPending => exact hlist
  | go g =>
    cases g with
    | startSession sess => exact hgo sess
    | stopSession => cases ha
  | _ => cases ha

theorem uses_spawnStarts (sessions : List PolledSession) : (spawnStarts sessions).Uses Polls := by
  induction sessions with
  | nil => trivial
  | cons sess rest ih =>
    refine ⟨trivial, fun res => ?_⟩
    cases res with
    | true => exact ih
    | false => exact ⟨trivial, fun _ => ih⟩

theorem uses_pollRound : pollRound.Uses Polls := by
  refine ⟨trivial, fun res => ?_⟩
  cases res with
  | none => trivial
  | some sessions => exact uses_spawnStarts sessions

/-- The goroutine with the number `n`. -/
def Goroutine.prog (cfg : Config) (n : Nat) : Goroutine → Prog signature Unit
  | .startSession sess => Agent.startSession n cfg sess
  | .stopSession id => Agent.stopSession id

/-- One turn of the daemon: a renter has created a session, a ticker fires, the daemon is told to
stop, a goroutine that has been spawned begins, or the `i`-th one performs its next action. -/
inductive Turn
  | created (sess : PolledSession)
  | poll
  | heartbeat
  | shutdown
  | begin (k : Nat)
  | step (i : Nat)

/-- The goroutines of a daemon, those that have returned included. -/
abbrev Daemon := Pool signature Unit Host

namespace Daemon

def launch (P : Daemon) (p : Prog signature Unit) : Daemon := ⟨P.state, P.threads ++ [p]⟩

def next (E : Env) (cfg : Config) : Step Daemon Turn := fun P t =>
  match t with
  | .created sess => some ⟨{ P.state with pending := P.state.pending ++ [sess] }, P.threads⟩
  | .poll => some (P.launch pollRound)
  | .heartbeat => some (P.launch heartbeatRound)
  | .shutdown => some (P.launch cleanup)
  | .begin k => match P.state.spawned[k]? with
    | none => none
    | some g => some ⟨{ P.state with spawned := P.state.spawned.eraseIdx k },
        P.threads ++ [g.prog cfg P.threads.length]⟩
  | .step i => Pool.next (exec E) P (.step i)

/-- `NewDaemon` on a machine with nothing of an earlier run. -/
def new : Daemon := ⟨{}, []⟩

end Daemon

/-- Every step of a turn meets `ok`. -/
def Obeying (E : Env) (ok : (a : Action) → Host → a.Res → Prop) (P : Daemon) (t : Turn) : Prop :=
  ∀ i, t = .step i → P.Obeys (exec E) ok i

instance (E : Env) (ok : (a : Action) → Host → a.Res → Prop)
    [hok : ∀ a s res, Decidable (ok a s res)] (P : Daemon) : (t : Turn) → Decidable (Obeying E ok P t)
  | .step i =>
    have : Decidable (P.Obeys (exec E) ok i) :=
      @Pool.decidableObeys signature Unit Host (exec E) ok hok P i
    decidable_of_iff (P.Obeys (exec E) ok i)
      ⟨fun h j hj => by cases hj; exact h, fun h => h i rfl⟩
  | .created _ | .poll | .heartbeat | .shutdown | .begin _ => .isTrue (fun _ hj => by cases hj)

def aSession : PolledSession where
  id := "5f0c2b9e-7a41-4c57-9d3f-2f6f1f0a9e11"
  providerID := "p"
  renterID := "r"
  allocated := {}
  status := "pending"
  containerID := ""
  sshEndpoint := ""
  image := "alpine"
  createdAt := 0
  terminatedAt := none
  wgPublicKey := ""
  wgEndpoint := ""
  connectionMode := ""
  relayToken := ""
  wgProviderIP := "10.99.1.1"
  wgRenterIP := "10.99.1.2"
  long := by decide

def aConfig : Config := { address := "provider:50051", wgListenPort := 51820, provider := "p" }

/-- A session is polled, and its `startSession` begins. -/
def polled : List Turn := [.created aSession, .poll, .step 0, .step 0, .step 0, .begin 0]

end PeerCompute.Agent
