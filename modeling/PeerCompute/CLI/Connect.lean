import PeerCompute.Agent.Daemon
import PeerCompute.Plugin.MemoryStore
import PeerCompute.Registry.Handlers
import PeerCompute.Retry.Do

/-! `peerctl session connect`, with the registry on the other side. -/

namespace PeerCompute.CLI

open PeerCompute.Agent (WGConfig WGKeyPair Exchange Link orElse)
open PeerCompute.Interleaving PeerCompute.Plugin PeerCompute.Computev1 Prog

/-- The name of a file is made of bytes. -/
abbrev Path := List UInt8

def bytes (s : String) : List UInt8 := s.toByteArray.data.toList

/-- What `doConnect` does to its surroundings.  `announce` is the message that the connection is
established. -/
inductive Action
  | gatherCandidates (stunAddr : String) (port : Int)
  | exchangeCandidates (req : ExchangeCandidatesRequest)
  | sleep (attempt : Nat)
  | probe (port : Int) (remote : List EndpointCandidate)
  | newRelayClient (address token : String) (proxyPort wgPort : Int)
  | runRelayClient
  | cancelRelayClient
  | reportConnectionResult (req : ReportConnectionResultRequest)
  | getSession (req : GetSessionRequest)
  | mkdirAll
  | panic
  | createFile (path : Path) (config : WGConfig)
  | announce (connMode : String) (confPath : Path)
  | hasWGQuick
  | isRoot
  | wgUp (confPath : Path)
  | awaitSignal
  | wgDown (confPath : Path)

namespace Action

/-- A call of the registry that fails gives `none`, and nothing comes after a panic. -/
def Res : Action → Type
  | gatherCandidates _ _ => List EndpointCandidate
  | exchangeCandidates _ => Option Exchange
  | probe _ _ => Option String
  | getSession _ => Option Session
  | panic => Empty
  | newRelayClient _ _ _ _ | mkdirAll | createFile _ _ | hasWGQuick | isRoot | wgUp _ => Bool
  | sleep _ | runRelayClient | cancelRelayClient | reportConnectionResult _ | announce _ _ |
    awaitSignal | wgDown _ => Unit

end Action

def signature : Signature := ⟨Action, Action.Res⟩

/-! The actions as programs of one step. -/

namespace Call

def gatherCandidates (stunAddr : String) (port : Int) : Prog signature (List EndpointCandidate) :=
  perform (S := signature) (.gatherCandidates stunAddr port)

def exchangeCandidates (req : ExchangeCandidatesRequest) : Prog signature (Option Exchange) :=
  perform (S := signature) (.exchangeCandidates req)

def sleep (attempt : Nat) : Prog signature Unit := perform (S := signature) (.sleep attempt)

def probe (port : Int) (remote : List EndpointCandidate) : Prog signature (Option String) :=
  perform (S := signature) (.probe port remote)

def newRelayClient (address token : String) (proxyPort wgPort : Int) : Prog signature Bool :=
  perform (S := signature) (.newRelayClient address token proxyPort wgPort)

def runRelayClient : Prog signature Unit := perform (S := signature) .runRelayClient

def cancelRelayClient : Prog signature Unit := perform (S := signature) .cancelRelayClient

def reportConnectionResult (req : ReportConnectionResultRequest) : Prog signature Unit :=
  perform (S := signature) (.reportConnectionResult req)

def getSession (req : GetSessionRequest) : Prog signature (Option Session) :=
  perform (S := signature) (.getSession req)

def mkdirAll : Prog signature Bool := perform (S := signature) .mkdirAll

def panic {α : Type} : Prog signature α :=
  .act (S := signature) .panic (fun r : Empty => r.elim)

def createFile (path : Path) (config : WGConfig) : Prog signature Bool :=
  perform (S := signature) (.createFile path config)

def announce (connMode : String) (confPath : Path) : Prog signature Unit :=
  perform (S := signature) (.announce connMode confPath)

def hasWGQuick : Prog signature Bool := perform (S := signature) .hasWGQuick

def isRoot : Prog signature Bool := perform (S := signature) .isRoot

def wgUp (confPath : Path) : Prog signature Bool := perform (S := signature) (.wgUp confPath)

def awaitSignal : Prog signature Unit := perform (S := signature) .awaitSignal

def wgDown (confPath : Path) : Prog signature Unit := perform (S := signature) (.wgDown confPath)

end Call

/-! ## Writing the config -/

/-- `s[:n]`, which panics if there are fewer bytes. -/
def slice (s : String) (n : Nat) : Option (List UInt8) :=
  if n ≤ s.utf8ByteSize then some ((bytes s).take n) else none

def configPath (p : List UInt8) : Path := bytes "/tmp/peer-compute/wg/pc-" ++ p ++ bytes ".conf"

/-- The rest of `WriteConfig` after the slice, which may panic. -/
def createConfig (config : WGConfig) : Option (List UInt8) → Prog signature (Option Path)
  | none => Call.panic
  | some p => do
    if ← Call.createFile (configPath p) config then return some (configPath p) else return none

/-- `agent.WriteConfig`, which gives the path. -/
def writeConfig (sessionID : String) (config : WGConfig) : Prog signature (Option Path) := do
  if ← Call.mkdirAll then createConfig config (slice sessionID 12) else return none

/-! ## Connecting -/

inductive ConnectError
  | candidateExchange
  | relayClient
  | writeConfig
  deriving DecidableEq

/-- The WireGuard port of the renter. -/
def wgPort : Int := 51821

/-- Why an exchange is tried again. -/
inductive PollError
  | call
  | noPeerCandidates
  deriving DecidableEq

/-- The function that is retried.  It assigns to `exchResp`, which is nil after an error. -/
def pollExchange (req : ExchangeCandidatesRequest) (_exchResp : Option Exchange) :
    Prog signature (Option Exchange × Option PollError) := do
  match ← Call.exchangeCandidates req with
  | none => return (none, some .call)
  | some exch =>
    if exch.peerCandidates = [] then return (some exch, some .noPeerCandidates)
    else return (some exch, none)

/-- `context.Background()` is never done. -/
def background : Retry.Context signature where
  err := return false
  sleep attempt := do
    Call.sleep attempt
    return false

/-- What the loop returns is ignored. -/
def awaitPeer (req : ExchangeCandidatesRequest) (exch : Exchange) :
    Prog signature (Option Exchange) := do
  if exch.peerCandidates = [] then
    let (exchResp, _) ← Retry.loop 10 background (pollExchange req) 10 0 none (some exch)
    return exchResp
  else return some exch

/-- Step 3. -/
def holePunch (exch : Exchange) : Prog signature (Option String) := do
  if exch.peerCandidates = [] then return none else Call.probe wgPort exch.peerCandidates

/-- Steps 3 and 4: a hole punch, then the relay, then nothing.  Without a relay client there is no
connection. -/
def reachPeer (sessionID : String) (exch : Exchange) : Prog signature (Option Link) := do
  match ← holePunch exch with
  | some addr =>
    Call.reportConnectionResult
      { sessionID := sessionID, peerID := "cli-user", selectedEndpoint := addr, useRelay := false }
    return some ⟨"holepunch", addr⟩
  | none =>
    if exch.relayAddress = "" then return some Agent.direct
    else
      let proxyPort := wgPort + 10000
      if ← Call.newRelayClient exch.relayAddress exch.relayToken proxyPort wgPort then
        Call.runRelayClient
        Call.reportConnectionResult
          { sessionID := sessionID, peerID := "cli-user", selectedEndpoint := "", useRelay := true }
        return some ⟨"relay", "127.0.0.1:" ++ toString proxyPort⟩
      else return none

structure TunnelIPs where
  renterIP : String := "10.99.0.2"
  providerIP : String := "10.99.0.1"

/-- Step 5. -/
def tunnelIPs (sessionID : String) : Prog signature TunnelIPs := do
  match ← Call.getSession ⟨sessionID⟩ with
  | none => return {}
  | some sess => return ⟨orElse sess.wgRenterIP "10.99.0.2", orElse sess.wgProviderIP "10.99.0.1"⟩

/-- Whether the tunnel is active. -/
def activate (confPath : Path) : Prog signature Bool := do
  if ← Call.hasWGQuick then
    if ← Call.isRoot then Call.wgUp confPath else return false
  else return false

/-- Until the interrupt, if there is something to keep up. -/
def stayConnected (connMode : String) (confPath : Path) (tunnelActive : Bool) :
    Prog signature Unit := do
  if connMode = "relay" ∨ tunnelActive = true then
    Call.awaitSignal
    if tunnelActive then Call.wgDown confPath else return ()
  else return ()

/-- What follows on the announcement. -/
def keepUp (connMode : String) (confPath : Path) : Prog signature (Except ConnectError Unit) := do
  let tunnelActive ← activate confPath
  stayConnected connMode confPath tunnelActive
  return .ok ()

/-- Step 6 and what follows. -/
def bringUp (sessionID : String) (kp : WGKeyPair) (peerWGKey : String) (link : Link)
    (ips : TunnelIPs) : Prog signature (Except ConnectError Unit) := do
  match ← writeConfig sessionID
      { privateKey := kp.privateKey, tunnelIP := ips.renterIP, listenPort := wgPort
        peerPublicKey := peerWGKey, peerIP := ips.providerIP, peerEndpoint := link.peerEndpoint } with
  | none => return .error .writeConfig
  | some confPath =>
    Call.announce link.connMode confPath
    keepUp link.connMode confPath

def doConnect (stunAddr sessionID : String) (kp : WGKeyPair) :
    Prog signature (Except ConnectError Unit) := do
  let candidates ← Call.gatherCandidates stunAddr wgPort
  let req : ExchangeCandidatesRequest :=
    { sessionID := sessionID, peerID := "cli-user", candidates := candidates
      wgPublicKey := kp.publicKey }
  match ← Call.exchangeCandidates req with
  | none => return .error .candidateExchange
  | some exch =>
    -- the getters of a nil response give the zero values
    let exch := (← awaitPeer req exch).getD {}
    match ← reachPeer sessionID exch with
    | none => return .error .relayClient
    | some link =>
      let ips ← tunnelIPs sessionID
      let res ← bringUp sessionID kp exch.peerWGPublicKey link ips
      -- deferred
      if link.connMode = "relay" then
        Call.cancelRelayClient
        return res
      else return res

/-! ## A renter of a registry -/

/-- What the renter's machine answers. -/
structure Machine where
  candidates : List EndpointCandidate := []
  probe : Option String := none
  relayClient : Bool := true
  mkdirAll : Bool := true
  createFile : Bool := true
  wgQuick : Bool := false
  root : Bool := false
  wgUp : Bool := true

/-- The response, as far as there is one. -/
def exchanged : Except Status Response → Option Exchange
  | .ok (.exchangeCandidates peerCandidates peerWGPublicKey relayAddress relayToken) =>
    some ⟨peerCandidates, peerWGPublicKey, relayAddress, relayToken⟩
  | _ => none

def fetched : Except Status Response → Option Session
  | .ok (.getSession sess) => some sess
  | _ => none

/-- The calls go to a registry that nobody else uses in the meantime. -/
def exec {σ : Type} (M : Machine) (E : Registry.Env) (S : Store σ) :
    Exec signature (Registry.Server σ)
  | .gatherCandidates _ _, s => some (M.candidates, s)
  | .exchangeCandidates req, s =>
    ((Registry.exchangeCandidates req).run (Registry.exec E S) s).map
      (fun x => (exchanged x.1, x.2))
  | .reportConnectionResult req, s =>
    ((Registry.reportConnectionResult req).run (Registry.exec E S) s).map (fun x => ((), x.2))
  | .getSession req, s =>
    ((Registry.getSession req).run (Registry.exec E S) s).map (fun x => (fetched x.1, x.2))
  | .probe _ _, s => some (M.probe, s)
  | .newRelayClient _ _ _ _, s => some (M.relayClient, s)
  | .mkdirAll, s => some (M.mkdirAll, s)
  | .createFile _ _, s => some (M.createFile, s)
  | .hasWGQuick, s => some (M.wgQuick, s)
  | .isRoot, s => some (M.root, s)
  | .wgUp _, s => some (M.wgUp, s)
  | .panic, _ => none
  | .sleep _, s | .runRelayClient, s | .cancelRelayClient, s | .announce _ _, s | .awaitSignal, s |
    .wgDown _, s => some ((), s)

def aUUID : String := "5f0c2b9e-7a41-4c57-9d3f-0a1b2c3d4e5f"

/-- A registry with one session, which its provider has not taken up yet. -/
def rented : Registry.Server Tables where
  relay := none
  store := Tables.empty.insertSession { id := aUUID, providerID := "p", renterID := "cli-user" }

/-- The provider has submitted its candidates. -/
def takenUp : Registry.Server Tables :=
  { rented with
    candidates := AList.insert aUUID (AList.insert "p"
      { candidates := [⟨"203.0.113.7:51820", "host", 100⟩], wgPublicKey := "provider key" } ∅) ∅ }

/-- A renter who connects to the session by this argument. -/
def connectAs (sessionID : String) : Prog signature (Except ConnectError Unit) :=
  doConnect "localhost:3478" sessionID ⟨"renter private key", "renter key"⟩

/-- The registry has a `MemoryStore`, and the renter is not root. -/
def aMachine : Exec signature (Registry.Server Tables) :=
  exec {} Registry.countingEnv (memoryStore (fun _ => Data.Order.id))

end PeerCompute.CLI
