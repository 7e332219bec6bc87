import PeerCompute.Data.Map
import PeerCompute.Plugin.Records

/-! The messages of `compute.v1` that the registry reads and writes.  A timestamp
is its seconds. -/

namespace PeerCompute.Computev1

structure Resources where
  cpuCores : UInt32 := 0
  memoryMB : UInt64 := 0
  diskGB : UInt64 := 0
  gpuCount : UInt32 := 0
  gpuModel : String := ""
  deriving DecidableEq

structure Provider where
  id : String
  name : String
  address : String
  capacity : Resources
  available : Resources
  status : String
  lastHeartbeat : Int
  registeredAt : Int
  publicAddress : String
  deriving DecidableEq

structure Session where
  id : String
  providerID : String
  renterID : String
  allocated : Resources
  status : String
  containerID : String
  sshEndpoint : String
  image : String
  createdAt : Int
  terminatedAt : Option Int
  wgPublicKey : String
  wgEndpoint : String
  connectionMode : String
  relayToken : String
  wgProviderIP : String
  wgRenterIP : String
  deriving DecidableEq

structure EndpointCandidate where
  address : String
  type : String
  priority : Int
  deriving DecidableEq

structure RegisterProviderRequest where
  name : String
  address : String
  capacity : Option Resources

structure HeartbeatRequest where
  providerID : String
  available : Option Resources
  activeSessions : List String

structure ListProvidersRequest where
  minCPU : UInt32
  minMemoryMB : UInt64
  minGPU : UInt32

structure CreateSessionRequest where
  providerID : String
  renterID : String
  requested : Option Resources
  image : String
  wgPublicKey : String

structure GetSessionRequest where
  sessionID : String

structure TerminateSessionRequest where
  sessionID : String

structure ListProviderSessionsRequest where
  providerID : String
  statusFilter : String

structure UpdateSessionStatusRequest where
  sessionID : String
  status : String
  containerID : String := ""
  sshEndpoint : String := ""
  wgPublicKey : String := ""
  wgEndpoint : String := ""

structure ExchangeCandidatesRequest where
  sessionID : String
  peerID : String
  candidates : List EndpointCandidate
  wgPublicKey : String

structure ReportConnectionResultRequest where
  sessionID : String
  peerID : String
  selectedEndpoint : String
  useRelay : Bool

inductive Response
  | registerProvider (provider : Provider) (token : String)
  | heartbeat (acknowledged : Bool) (terminateSessions : List String)
  | listProviders (providers : List Provider)
  | createSession (session : Session)
  | getSession (session : Session)
  | terminateSession (success : Bool)
  | listProviderSessions (sessions : List Session)
  | updateSessionStatus (success : Bool)
  | exchangeCandidates (peerCandidates : List EndpointCandidate) (peerWGPublicKey : String)
      (relayAddress relayToken : String)
  | reportConnectionResult (acknowledged : Bool)
  deriving DecidableEq

inductive Code
  | invalidArgument
  | notFound
  | resourceExhausted
  | failedPrecondition
  | internal
  | unavailable
  deriving DecidableEq

structure Status where
  code : Code
  message : String
  deriving DecidableEq

end PeerCompute.Computev1

namespace PeerCompute.Registry

open PeerCompute.Data PeerCompute.Plugin PeerCompute.Computev1

/-- In seconds. -/
def heartbeatTimeout : Int := 30

def providerToProto (r : ProviderRecord) : Provider where
  id := r.id
  name := r.name
  address := r.address
  capacity :=
    { cpuCores := r.cpuCores, memoryMB := r.memoryMB, diskGB := r.diskGB
      gpuCount := r.gpuCount, gpuModel := r.gpuModel }
  available := { cpuCores := r.availCPU, memoryMB := r.availMemoryMB, gpuCount := r.availGPU }
  status := r.status
  lastHeartbeat := r.lastHeartbeat
  registeredAt := r.registeredAt
  publicAddress := r.publicAddress

def sessionToProto (r : SessionRecord) : Session where
  id := r.id
  providerID := r.providerID
  renterID := r.renterID
  allocated := { cpuCores := r.cpuCores, memoryMB := r.memoryMB }
  status := r.status
  containerID := r.containerID
  sshEndpoint := r.sshEndpoint
  image := r.image
  createdAt := r.createdAt
  terminatedAt := if r.terminatedAt > 0 then some r.terminatedAt else none
  wgPublicKey := r.wgPublicKey
  wgEndpoint := r.wgEndpoint
  connectionMode := r.connectionMode
  relayToken := r.relayToken
  wgProviderIP := r.wgProviderIP
  wgRenterIP := r.wgRenterIP

def storeErr : StoreError → Status
  | .notFound => ⟨.notFound, "not found"⟩
  | .ambiguousPrefix => ⟨.invalidArgument, "ambiguous ID prefix"⟩
  | .other message => ⟨.internal, "store: " ++ message⟩

/-- The incoming gRPC metadata of a call, if it has any. -/
abbrev Metadata := Option (Map String (List String))

def Metadata.get (md : Metadata) (key : String) : List String :=
  (md.bind (fun m => m.lookup key)).getD []

def providerIDFromMetadata (ctx : Metadata) : String := (ctx.get "x-provider-id").headD ""

/-- The first value given, unless there is none or it is empty. -/
def policyOr (default : String) (vals : List String) : String :=
  match vals with
  | [] => default
  | v :: _ => if v ≠ "" then v else default

def sessionPolicyFromMetadata (ctx : Metadata) : String × String :=
  (policyOr "sensitive" (ctx.get "x-security-tier"),
   policyOr "wireguard_required" (ctx.get "x-network-policy"))

end PeerCompute.Registry
