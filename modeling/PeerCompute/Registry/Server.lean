import PeerCompute.Interleaving.Prog
import PeerCompute.Plugin.Store
import PeerCompute.Registry.Messages
import PeerCompute.Registry.Tunnel
import PeerCompute.Relay.Server

namespace PeerCompute.Registry

open PeerCompute.Data PeerCompute.Interleaving PeerCompute.Plugin PeerCompute.Computev1
  PeerCompute.Relay Prog

structure CandidateSet where
  candidates : List EndpointCandidate := []
  wgPublicKey : String
  deriving DecidableEq

/-- The registry server over a store with states `σ`.  `outcomes` are the calls made to
`Reputation.RecordOutcome`, the latest first; `clock` counts the actions taken so far. -/
structure Server (σ : Type) where
  candidates : Map String (Map String CandidateSet) := ∅
  tunnels : Tunnels := newTunnels
  relay : Option RelayServer
  store : σ
  outcomes : List (String × Bool) := []
  clock : Nat := 0

/-- What the environment answers, by the moment of the question. -/
structure Env where
  /-- `time.Now().Unix()`. -/
  now : Nat → Int
  /-- `time.Now()` in the relay, in nanoseconds. -/
  nowNano : Nat → Int
  /-- `uuid.NewString()`. -/
  uuid : Nat → String
  /-- `Reputation.MeetsMinimum`. -/
  meetsMinimum : Nat → String → Nat → Except String Bool
  /-- `OnProviderRegistered`, when the authenticator has the hook. -/
  onProviderRegistered : Option (Nat → String → Except String Unit)
  /-- The order in which a map is ranged over. -/
  order : Nat → Order String
  /-- Whether the operating system lets an unused port be bound. -/
  free : Nat → Bool

/-- The environment of the default plugins on a quiet machine: moments are numbered, and so are
the UUIDs. -/
def countingEnv : Env where
  now t := t
  nowNano t := t
  uuid t := "session-" ++ t.repr
  meetsMinimum _ _ _ := .ok true
  onProviderRegistered := none
  order _ := Order.id
  free _ := true

/-- The same environment at the time `now`. -/
def envAt (now : Int) : Env := { countingEnv with now := fun _ => now }

/-- The atomic actions of the handlers: the calls of the store, each read or assignment of a
record's field, and the critical sections of the server's mutexes. -/
inductive Action
  | now
  | newUUID
  | getProvider (id : String)
  | getProviderByPrefix (id : String)
  | putProvider (rec : Ref ProviderRecord)
  | listProviders (filter : ProviderFilter)
  | updateHeartbeat (id : String) (heartbeat : Int)
  | loadProvider (rec : Ref ProviderRecord)
  | setProvider (rec : Ref ProviderRecord) (a : ProviderAssign)
  | getSessionByPrefix (id : String)
  | putSession (rec : Ref SessionRecord)
  | listSessions (filter : SessionFilter)
  | getTerminatedSessionIDs (ids : List String) (providerID : String)
  | loadSession (rec : Ref SessionRecord)
  | setSession (rec : Ref SessionRecord) (a : SessionAssign)
  | allocateTunnelIPs (sessionID : String)
  | reclaimTunnelIndex (sessionID : String)
  | putCandidates (sessionID peerID : String) (cs : CandidateSet)
  | exchangeCandidates (sessionID peerID : String) (cs : CandidateSet)
  | deleteCandidates (sessionID : String)
  | relayAddr
  | registerRelay (token sessionID : String)
  | invalidateRelay (token : String)
  | meetsMinimum (providerID : String) (minScore : Nat)
  | recordOutcome (sessionID : String) (success : Bool)
  | onProviderRegistered (providerID : String)

namespace Action

def Res : Action → Type
  | now => Int
  | newUUID => String
  | getProvider _ | getProviderByPrefix _ | putProvider _ => Except StoreError (Ref ProviderRecord)
  | listProviders _ => Except StoreError (List (Ref ProviderRecord))
  | updateHeartbeat _ _ => Except StoreError Unit
  | loadProvider _ => ProviderRecord
  | setProvider _ _ => Ref ProviderRecord
  | getSessionByPrefix _ | putSession _ => Except StoreError (Ref SessionRecord)
  | listSessions _ => Except StoreError (List (Ref SessionRecord))
  | getTerminatedSessionIDs _ _ => Except StoreError (List String)
  | loadSession _ => SessionRecord
  | setSession _ _ => Ref SessionRecord
  | allocateTunnelIPs _ => Except TunnelError (String × String)
  | exchangeCandidates _ _ _ => Option CandidateSet
  | relayAddr => Option String
  | meetsMinimum _ _ => Except String Bool
  | onProviderRegistered _ => Except String Unit
  | reclaimTunnelIndex _ | putCandidates _ _ _ | deleteCandidates _ | registerRelay _ _ |
    invalidateRelay _ | recordOutcome _ _ => Unit

end Action

def signature : Signature := ⟨Action, Action.Res⟩

/-- A handler: a program over the actions that ends with a response or a gRPC status. -/
abbrev Handler := Prog signature (Except Status Response)

/-! The actions as programs of one step. -/

namespace Call

def now : Prog signature Int := perform (S := signature) .now

def newUUID : Prog signature String := perform (S := signature) .newUUID

def getProvider (id : String) : Prog signature (Except StoreError (Ref ProviderRecord)) :=
  perform (S := signature) (.getProvider id)

def getProviderByPrefix (id : String) : Prog signature (Except StoreError (Ref ProviderRecord)) :=
  perform (S := signature) (.getProviderByPrefix id)

def putProvider (ref : Ref ProviderRecord) :
    Prog signature (Except StoreError (Ref ProviderRecord)) :=
  perform (S := signature) (.putProvider ref)

def listProviders (filter : ProviderFilter) :
    Prog signature (Except StoreError (List (Ref ProviderRecord))) :=
  perform (S := signature) (.listProviders filter)

def updateHeartbeat (id : String) (heartbeat : Int) : Prog signature (Except StoreError Unit) :=
  perform (S := signature) (.updateHeartbeat id heartbeat)

def loadProvider (ref : Ref ProviderRecord) : Prog signature ProviderRecord :=
  perform (S := signature) (.loadProvider ref)

def setProvider (ref : Ref ProviderRecord) (a : ProviderAssign) :
    Prog signature (Ref ProviderRecord) :=
  perform (S := signature) (.setProvider ref a)

def getSessionByPrefix (id : String) : Prog signature (Except StoreError (Ref SessionRecord)) :=
  perform (S := signature) (.getSessionByPrefix id)

def putSession (ref : Ref SessionRecord) : Prog signature (Except StoreError (Ref SessionRecord)) :=
  perform (S := signature) (.putSession ref)

def listSessions (filter : SessionFilter) :
    Prog signature (Except StoreError (List (Ref SessionRecord))) :=
  perform (S := signature) (.listSessions filter)

def getTerminatedSessionIDs (ids : List String) (providerID : String) :
    Prog signature (Except StoreError (List String)) :=
  perform (S := signature) (.getTerminatedSessionIDs ids providerID)

def loadSession (ref : Ref SessionRecord) : Prog signature SessionRecord :=
  perform (S := signature) (.loadSession ref)

def setSession (ref : Ref SessionRecord) (a : SessionAssign) : Prog signature (Ref SessionRecord) :=
  perform (S := signature) (.setSession ref a)

def allocateTunnelIPs (id : String) : Prog signature (Except TunnelError (String × String)) :=
  perform (S := signature) (.allocateTunnelIPs id)

def reclaimTunnelIndex (id : String) : Prog signature Unit :=
  perform (S := signature) (.reclaimTunnelIndex id)

def putCandidates (id peerID : String) (cs : CandidateSet) : Prog signature Unit :=
  perform (S := signature) (.putCandidates id peerID cs)

def exchangeCandidates (id peerID : String) (cs : CandidateSet) :
    Prog signature (Option CandidateSet) :=
  perform (S := signature) (.exchangeCandidates id peerID cs)

def deleteCandidates (id : String) : Prog signature Unit :=
  perform (S := signature) (.deleteCandidates id)

def relayAddr : Prog signature (Option String) := perform (S := signature) .relayAddr

def registerRelay (token id : String) : Prog signature Unit :=
  perform (S := signature) (.registerRelay token id)

def invalidateRelay (token : String) : Prog signature Unit :=
  perform (S := signature) (.invalidateRelay token)

def meetsMinimum (id : String) (minScore : Nat) : Prog signature (Except String Bool) :=
  perform (S := signature) (.meetsMinimum id minScore)

def recordOutcome (id : String) (success : Bool) : Prog signature Unit :=
  perform (S := signature) (.recordOutcome id success)

def onProviderRegistered (id : String) : Prog signature (Except String Unit) :=
  perform (S := signature) (.onProviderRegistered id)

end Call

namespace Server

variable {σ : Type}

/-- `s.candidates[sessionID][peerID] = cs`, making the inner map if it is not there. -/
def putCandidates (s : Server σ) (sessionID peerID : String) (cs : CandidateSet) : Server σ :=
  let peers := (s.candidates.lookup sessionID).getD ∅
  { s with candidates := s.candidates.insert sessionID (peers.insert peerID cs) }

/-- The candidates of the first other peer, in the order the inner map is ranged over. -/
def otherCandidates (s : Server σ) (order : Order String) (sessionID peerID : String) :
    Option CandidateSet :=
  let peers := (s.candidates.lookup sessionID).getD ∅
  ((order.apply peers.keys).find? (fun id => id ≠ peerID)).bind (fun id => peers.lookup id)

/-- The answer of a store call that may change the store. -/
def stored {α : Type} (s : Server σ) :
    Except StoreError (α × σ) → Except StoreError α × Server σ
  | .error e => (.error e, s)
  | .ok (x, st) => (.ok x, { s with store := st })

/-- One action.  `none` is an action that never returns: the endless scan of an allocator
without a free slot, or a panic of the relay. -/
def act (E : Env) (S : Store σ) (s : Server σ) : (a : Action) → Option (a.Res × Server σ)
  | .now => some (E.now s.clock, s)
  | .newUUID => some (E.uuid s.clock, s)
  | .getProvider id => some (S.getProvider s.clock s.store id, s)
  | .getProviderByPrefix id => some (S.getProviderByPrefix s.clock s.store id, s)
  | .putProvider rec => some (s.stored (S.putProvider s.clock s.store rec))
  | .listProviders filter => some (S.listProviders s.clock s.store filter, s)
  | .updateHeartbeat id heartbeat =>
    some (s.stored ((S.updateHeartbeat s.clock s.store id heartbeat).map (fun st => ((), st))))
  | .loadProvider rec => some (S.loadProvider s.store rec, s)
  | .setProvider rec a =>
    some ((S.setProvider s.store a rec).1, { s with store := (S.setProvider s.store a rec).2 })
  | .getSessionByPrefix id => some (S.getSessionByPrefix s.clock s.store id, s)
  | .putSession rec => some (s.stored (S.putSession s.clock s.store rec))
  | .listSessions filter => some (S.listSessions s.clock s.store filter, s)
  | .getTerminatedSessionIDs ids providerID =>
    some (S.getTerminatedSessionIDs s.clock s.store ids providerID, s)
  | .loadSession rec => some (S.loadSession s.store rec, s)
  | .setSession rec a =>
    some ((S.setSession s.store a rec).1, { s with store := (S.setSession s.store a rec).2 })
  | .allocateTunnelIPs id =>
    (s.tunnels.allocateTunnelIPs id).map (fun x => (x.1, { s with tunnels := x.2 }))
  | .reclaimTunnelIndex id => some ((), { s with tunnels := s.tunnels.reclaimTunnelIndex id })
  | .putCandidates id peerID cs => some ((), s.putCandidates id peerID cs)
  | .exchangeCandidates id peerID cs =>
    let s' := s.putCandidates id peerID cs
    some (s'.otherCandidates (E.order s.clock) id peerID, s')
  | .deleteCandidates id => some ((), { s with candidates := s.candidates.erase id })
  | .relayAddr => some (s.relay.map RelayServer.advertised, s)
  | .registerRelay token id => match s.relay with
    | none => some ((), s)
    | some rs => (rs.registerSession (E.nowNano s.clock) (E.free s.clock) token id).map
        (fun rs' => ((), { s with relay := some rs' }))
  | .invalidateRelay token =>
    some ((), { s with relay := s.relay.map (fun rs => rs.invalidateSession token) })
  | .meetsMinimum id minScore => some (E.meetsMinimum s.clock id minScore, s)
  | .recordOutcome id success => some ((), { s with outcomes := (id, success) :: s.outcomes })
  | .onProviderRegistered id => some (match E.onProviderRegistered with
    | none => .ok ()
    | some hook => hook s.clock id, s)

end Server

/-- The machine the handlers run on: an action, and the clock moves on. -/
def exec {σ : Type} (E : Env) (S : Store σ) : Exec signature (Server σ) := fun a s =>
  (s.act E S a).map (fun x => (x.1, { x.2 with clock := s.clock + 1 }))

end PeerCompute.Registry
