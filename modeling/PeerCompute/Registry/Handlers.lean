import PeerCompute.Interleaving.Pool
import PeerCompute.Registry.Server

namespace PeerCompute.Registry

open PeerCompute.Data PeerCompute.Interleaving PeerCompute.Plugin PeerCompute.Computev1
  PeerCompute.Relay

/-- The assignments `rec.F = v` of a handler, in order. -/
def setProviders : List ProviderAssign → Ref ProviderRecord → Prog signature (Ref ProviderRecord)
  | [], ref => return ref
  | a :: as, ref => do
    let ref ← Call.setProvider ref a
    setProviders as ref

/-- `if v != "" { rec.F = v }`. -/
def setNonempty (v : String) (f : String → SessionAssign) (ref : Ref SessionRecord) :
    Prog signature (Ref SessionRecord) :=
  if v ≠ "" then Call.setSession ref (f v) else return ref

/-- The last step of a handler that has changed a record. -/
def putSessionAnd (ref : Ref SessionRecord) (resp : Response) : Handler := do
  match ← Call.putSession ref with
  | .error e => return .error (storeErr e)
  | .ok _ => return .ok resp

/-- The tail of `RegisterProvider`: the record is stored, then the hook is told. -/
def finishRegistration (ref : Ref ProviderRecord) (id : String) : Handler := do
  match ← Call.putProvider ref with
  | .error e => return .error (storeErr e)
  | .ok ref =>
    match ← Call.onProviderRegistered id with
    | .error e => return .error ⟨.internal, "registration hook: " ++ e⟩
    | .ok () =>
      let r ← Call.loadProvider ref
      return .ok (.registerProvider (providerToProto r) ("tok_" ++ id))

def registerNewProvider (req : RegisterProviderRequest) (now : Int) : Handler := do
  let capacity := req.capacity.getD {}
  let id ← Call.newUUID
  finishRegistration (.own
    { id := id, name := req.name, address := req.address, status := "online"
      cpuCores := capacity.cpuCores, memoryMB := capacity.memoryMB, diskGB := capacity.diskGB
      gpuCount := capacity.gpuCount, gpuModel := capacity.gpuModel
      availCPU := capacity.cpuCores, availMemoryMB := capacity.memoryMB
      availGPU := capacity.gpuCount, registeredAt := now, lastHeartbeat := now }) id

def registerProvider (ctx : Metadata) (req : RegisterProviderRequest) : Handler := do
  let now ← Call.now
  let existingID := providerIDFromMetadata ctx
  if existingID = "" then registerNewProvider req now
  else
    match ← Call.getProvider existingID with
    | .ok existing =>
      let capacity := req.capacity.getD {}
      let existing ← setProviders
        [.name req.name, .address req.address, .status "online", .cpuCores capacity.cpuCores,
         .memoryMB capacity.memoryMB, .diskGB capacity.diskGB, .gpuCount capacity.gpuCount,
         .gpuModel capacity.gpuModel, .availCPU capacity.cpuCores,
         .availMemoryMB capacity.memoryMB, .availGPU capacity.gpuCount, .lastHeartbeat now]
        existing
      finishRegistration existing existingID
    | .error .notFound => registerNewProvider req now
    | .error e => return .error (storeErr e)

/-- The terminated sessions among those the provider says it runs; a failing query is ignored. -/
def finishHeartbeat (req : HeartbeatRequest) (providerID : String) : Handler := do
  if req.activeSessions = [] then return .ok (.heartbeat true [])
  else
    match ← Call.getTerminatedSessionIDs req.activeSessions providerID with
    | .error _ => return .ok (.heartbeat true [])
    | .ok terminated => return .ok (.heartbeat true terminated)

def heartbeat (req : HeartbeatRequest) : Handler := do
  match ← Call.getProviderByPrefix req.providerID with
  | .error e => return .error (storeErr e)
  | .ok ref =>
    let r ← Call.loadProvider ref
    let now ← Call.now
    match req.available with
    | some available =>
      let ref ← setProviders
        [.lastHeartbeat now, .status "online", .availCPU available.cpuCores,
         .availMemoryMB available.memoryMB, .availGPU available.gpuCount] ref
      match ← Call.putProvider ref with
      | .error e => return .error (storeErr e)
      | .ok _ => finishHeartbeat req r.id
    | none =>
      match ← Call.updateHeartbeat r.id now with
      | .error e => return .error (storeErr e)
      | .ok () => finishHeartbeat req r.id

/-- The loop of `ListProviders`: a provider without a recent heartbeat is put offline. -/
def onlineProviders (stale : Int) : List (Ref ProviderRecord) → Prog signature (List Provider)
  | [] => return []
  | ref :: refs => do
    let r ← Call.loadProvider ref
    if r.lastHeartbeat < stale then
      let ref ← Call.setProvider ref (.status "offline")
      let _ ← Call.putProvider ref
      onlineProviders stale refs
    else if r.status ≠ "online" then onlineProviders stale refs
    else
      let out ← onlineProviders stale refs
      return providerToProto r :: out

def listProviders (req : ListProvidersRequest) : Handler := do
  match ← Call.listProviders
      { minCPU := req.minCPU, minMemory := req.minMemoryMB, minGPU := req.minGPU } with
  | .error e => return .error (storeErr e)
  | .ok records =>
    let now ← Call.now
    let out ← onlineProviders (now - heartbeatTimeout) records
    return .ok (.listProviders out)

/-- The end of `CreateSession`: the record is stored and the renter's key is kept. -/
def finishCreateSession (req : CreateSessionRequest) (r : SessionRecord) : Handler := do
  match ← Call.putSession (.own r) with
  | .error e => return .error (storeErr e)
  | .ok ref =>
    if req.wgPublicKey ≠ "" then
      Call.putCandidates r.id req.renterID { wgPublicKey := req.wgPublicKey }
      let r ← Call.loadSession ref
      return .ok (.createSession (sessionToProto r))
    else
      let r ← Call.loadSession ref
      return .ok (.createSession (sessionToProto r))

def createSession (ctx : Metadata) (req : CreateSessionRequest) : Handler := do
  let (_, networkPolicy) := sessionPolicyFromMetadata ctx
  if networkPolicy = "wireguard_required" ∧ req.wgPublicKey = "" then
    return .error ⟨.invalidArgument, "wireguard_required: renter wg_public_key is required"⟩
  else
    match ← Call.getProviderByPrefix req.providerID with
    | .error e => return .error (storeErr e)
    | .ok pRec =>
      let p ← Call.loadProvider pRec
      if p.status ≠ "online" then return .error ⟨.unavailable, "provider is not online"⟩
      else
        match ← Call.meetsMinimum p.id 50 with
        | .ok true =>
          let relayToken ← Call.newUUID
          let sessionID ← Call.newUUID
          match ← Call.allocateTunnelIPs sessionID with
          | .error e => return .error ⟨.resourceExhausted, "tunnel allocation: " ++ e.text⟩
          | .ok (providerIP, renterIP) =>
            let createdAt ← Call.now
            let requested := req.requested.getD {}
            finishCreateSession req
              { id := sessionID, providerID := p.id, renterID := req.renterID, image := req.image
                status := "pending", relayToken := relayToken, wgProviderIP := providerIP
                wgRenterIP := renterIP, createdAt := createdAt, cpuCores := requested.cpuCores
                memoryMB := requested.memoryMB }
        | _ => return .error ⟨.unavailable, "provider does not meet minimum reputation"⟩

def getSession (req : GetSessionRequest) : Handler := do
  match ← Call.getSessionByPrefix req.sessionID with
  | .error e => return .error (storeErr e)
  | .ok ref =>
    let r ← Call.loadSession ref
    return .ok (.getSession (sessionToProto r))

/-- What is left of a terminated session is cleaned up. -/
def cleanUp (r : SessionRecord) : Handler := do
  Call.recordOutcome r.id true
  if r.relayToken ≠ "" then
    Call.invalidateRelay r.relayToken
    Call.deleteCandidates r.id
    Call.reclaimTunnelIndex r.id
    return .ok (.terminateSession true)
  else
    Call.deleteCandidates r.id
    Call.reclaimTunnelIndex r.id
    return .ok (.terminateSession true)

def terminateSession (req : TerminateSessionRequest) : Handler := do
  match ← Call.getSessionByPrefix req.sessionID with
  | .error e => return .error (storeErr e)
  | .ok ref =>
    let ref ← Call.setSession ref (.status "terminated")
    let now ← Call.now
    let ref ← Call.setSession ref (.terminatedAt now)
    match ← Call.putSession ref with
    | .error e => return .error (storeErr e)
    | .ok ref =>
      -- the fields read from here on, `ID` and `RelayToken`, are never assigned
      let r ← Call.loadSession ref
      cleanUp r

def loadSessions : List (Ref SessionRecord) → Prog signature (List Session)
  | [] => return []
  | ref :: refs => do
    let r ← Call.loadSession ref
    let out ← loadSessions refs
    return sessionToProto r :: out

def listProviderSessions (req : ListProviderSessionsRequest) : Handler := do
  match ← Call.listSessions { providerID := req.providerID, status := req.statusFilter } with
  | .error e => return .error (storeErr e)
  | .ok records =>
    let out ← loadSessions records
    return .ok (.listProviderSessions out)

/-- What `UpdateSessionStatus` does on the step into `"terminated"`. -/
def closeOut (id : String) (ref : Ref SessionRecord) : Prog signature (Ref SessionRecord) := do
  Call.recordOutcome id true
  let now ← Call.now
  let ref ← Call.setSession ref (.terminatedAt now)
  Call.reclaimTunnelIndex id
  return ref

/-- The fields of the request that are not empty. -/
def setReported (req : UpdateSessionStatusRequest) (ref : Ref SessionRecord) :
    Prog signature (Ref SessionRecord) := do
  let ref ← setNonempty req.containerID .containerID ref
  let ref ← setNonempty req.sshEndpoint .sshEndpoint ref
  let ref ← setNonempty req.wgPublicKey .wgPublicKey ref
  setNonempty req.wgEndpoint .wgEndpoint ref

/-- The end of `UpdateSessionStatus`: a running session must have an endpoint. -/
def finishUpdate (req : UpdateSessionStatusRequest) (ref : Ref SessionRecord) : Handler := do
  if req.status = "running" then
    if req.wgEndpoint = "" then
      return .error ⟨.failedPrecondition,
        "wireguard_required: running sessions must include wg_endpoint"⟩
    else
      let r ← Call.loadSession ref
      if r.connectionMode = "" then
        let ref ← Call.setSession ref (.connectionMode "direct")
        putSessionAnd ref (.updateSessionStatus true)
      else putSessionAnd ref (.updateSessionStatus true)
  else putSessionAnd ref (.updateSessionStatus true)

def updateSessionStatus (req : UpdateSessionStatusRequest) : Handler := do
  match ← Call.getSessionByPrefix req.sessionID with
  | .error e => return .error (storeErr e)
  | .ok ref =>
    let r ← Call.loadSession ref
    let prevStatus := r.status
    let ref ← Call.setSession ref (.status req.status)
    let ref ← if req.status = "terminated" ∧ prevStatus ≠ "terminated" then closeOut r.id ref
      else pure ref
    let ref ← setReported req ref
    finishUpdate req ref

def exchangeCandidates (req : ExchangeCandidatesRequest) : Handler := do
  match ← Call.getSessionByPrefix req.sessionID with
  | .error e => return .error (storeErr e)
  | .ok ref =>
    let r ← Call.loadSession ref
    let relayAddress ← Call.relayAddr
    let other ← Call.exchangeCandidates r.id req.peerID
      { candidates := req.candidates, wgPublicKey := req.wgPublicKey }
    match other with
    | none => return .ok (.exchangeCandidates [] "" (relayAddress.getD "") r.relayToken)
    | some cs =>
      return .ok (.exchangeCandidates cs.candidates cs.wgPublicKey (relayAddress.getD "")
        r.relayToken)

def reportConnectionResult (req : ReportConnectionResultRequest) : Handler := do
  match ← Call.getSessionByPrefix req.sessionID with
  | .error e => return .error (storeErr e)
  | .ok ref =>
    if req.useRelay then
      let ref ← Call.setSession ref (.connectionMode "relay")
      let r ← Call.loadSession ref
      Call.registerRelay r.relayToken r.id
      putSessionAnd ref (.reportConnectionResult true)
    else
      let ref ← Call.setSession ref (.connectionMode "holepunch")
      putSessionAnd ref (.reportConnectionResult true)

/-- The calls of `RegistryService`. -/
inductive Rpc
  | registerProvider (ctx : Metadata) (req : RegisterProviderRequest)
  | heartbeat (req : HeartbeatRequest)
  | listProviders (req : ListProvidersRequest)
  | createSession (ctx : Metadata) (req : CreateSessionRequest)
  | getSession (req : GetSessionRequest)
  | terminateSession (req : TerminateSessionRequest)
  | listProviderSessions (req : ListProviderSessionsRequest)
  | updateSessionStatus (req : UpdateSessionStatusRequest)
  | exchangeCandidates (req : ExchangeCandidatesRequest)
  | reportConnectionResult (req : ReportConnectionResultRequest)

def Rpc.handler : Rpc → Handler
  | .registerProvider ctx req => Registry.registerProvider ctx req
  | .heartbeat req => Registry.heartbeat req
  | .listProviders req => Registry.listProviders req
  | .createSession ctx req => Registry.createSession ctx req
  | .getSession req => Registry.getSession req
  | .terminateSession req => Registry.terminateSession req
  | .listProviderSessions req => Registry.listProviderSessions req
  | .updateSessionStatus req => Registry.updateSessionStatus req
  | .exchangeCandidates req => Registry.exchangeCandidates req
  | .reportConnectionResult req => Registry.reportConnectionResult req

/-- What happens to a registry whose calls are executed one at a time: a call, a restart of the
process over the same store, or something in the attached relay that registers no token. -/
inductive Event
  | rpc (r : Rpc)
  | restart (relayAddr : Option String)
  | relay (e : Relay.Event) (h : e.registers = none)

variable {σ : Type}

/-- `NewServer` over the store another server has left. -/
def Server.restart (s : Server σ) (relayAddr : Option String) : Server σ :=
  { relay := relayAddr.map newRelayServer, store := s.store, outcomes := s.outcomes
    clock := s.clock }

def step (E : Env) (S : Store σ) : Step (Server σ) Event := fun s e =>
  match e with
  | .rpc r => (r.handler.run (exec E S) s).map Prod.snd
  | .restart relayAddr => some (s.restart relayAddr)
  | .relay e _ => match s.relay with
    | none => some s
    | some rs => (rs.next e).map (fun rs' => { s with relay := some rs' })

/-- One turn of concurrent calls: a call arrives, or the `i`-th call performs its next action. -/
inductive Turn
  | call (r : Rpc)
  | step (i : Nat)

def Turn.event : Turn → Pool.Event signature (Except Status Response)
  | .call r => .start r.handler
  | .step i => .step i

/-- The calls in progress at a server, and those that have returned. -/
abbrev Calls (σ : Type) := Pool signature (Except Status Response) (Server σ)

def interleave (E : Env) (S : Store σ) (turns : List Turn) (s : Server σ) : Option (Calls σ) :=
  Pool.play (exec E S) (turns.map Turn.event) ⟨s, []⟩

end PeerCompute.Registry
