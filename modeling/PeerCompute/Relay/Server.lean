import PeerCompute.Data.Map
import PeerCompute.Data.Sha256
import PeerCompute.Interleaving.Steps

namespace PeerCompute.Relay

open PeerCompute.Data PeerCompute.Interleaving

def rawBasePort : Nat := 44000
def rawPortRange : Nat := 1000

def rawPortForToken (token : String) : Nat :=
  let h := sha256 token.toUTF8.toList
  let offset := (Sha256.word (h.take 4)).toNat % rawPortRange
  rawBasePort + offset

/-- `"PCRL"`. -/
def relayMagic : List UInt8 := [0x50, 0x43, 0x52, 0x4c]

def tokenIDLen : Nat := 16
def magicLen : Nat := 4
def headerLen : Nat := magicLen + tokenIDLen

/-- In nanoseconds, as every time of the relay. -/
def idleTimeout : Int := 60 * 1000000000

def tokenID (token : String) : List UInt8 := (sha256 token.toUTF8.toList).take tokenIDLen

def header (id : List UInt8) : List UInt8 := relayMagic ++ id

/-- A `net.UDPAddr` as its `String` method prints it: the relay looks at addresses in no other
way. -/
structure UDPAddr where
  string : String
  deriving DecidableEq

structure RelaySession where
  sessionID : String
  token : String
  tokenID : List UInt8
  peerA : Option UDPAddr := none
  peerB : Option UDPAddr := none
  /-- The port of the session's own raw socket, if the bind succeeded. -/
  rawConn : Option Nat := none
  renterAddr : Option UDPAddr := none
  created : Int
  lastActive : Int
  deriving DecidableEq

/-- `heap` holds every session object ever made, a pointer being its index: a raw listener keeps
the pointer it was started with, whatever `sessions` says later.  `listeners` are the sessions
whose raw socket is open. -/
structure RelayServer where
  sessions : Map String Nat := ∅
  heap : List RelaySession := []
  listeners : List Nat := []
  addr : String
  publicAddr : String := ""

def newRelayServer (listenAddr : String) : RelayServer := { addr := listenAddr }

namespace RelayServer

def advertised (rs : RelayServer) : String :=
  if rs.publicAddr ≠ "" then rs.publicAddr else rs.addr

def update (rs : RelayServer) (p : Nat) (sess : RelaySession) : RelayServer :=
  { rs with heap := rs.heap.set p sess }

/-- The ports on which a raw socket is open. -/
def boundPorts (rs : RelayServer) : List Nat :=
  rs.listeners.filterMap (fun p => rs.heap[p]?.bind RelaySession.rawConn)

/-- `RegisterSession` up to the lock: the session object is made, its raw port bound and `serveRaw`
started.  A port that is bound already cannot be bound again; for any other port `free` is the answer
of the operating system.  `none` is the panic of `sessionID[:8]`. -/
def bindSession (rs : RelayServer) (now : Int) (free : Bool) (token sessionID : String) :
    Option RelayServer :=
  if sessionID.utf8ByteSize < 8 then none
  else
    let rawPort := rawPortForToken token
    let bound := free && !rs.boundPorts.contains rawPort
    let sess : RelaySession :=
      { sessionID := sessionID, token := token, tokenID := tokenID token
        rawConn := if bound then some rawPort else none
        created := now, lastActive := now }
    some { rs with
      heap := rs.heap ++ [sess]
      listeners := if bound then rs.heap.length :: rs.listeners else rs.listeners }

/-- The session object is entered in the map. -/
def enterSession (rs : RelayServer) (token : String) (p : Nat) : RelayServer :=
  { rs with sessions := rs.sessions.insert token p }

def registerSession (rs : RelayServer) (now : Int) (free : Bool) (token sessionID : String) :
    Option RelayServer :=
  (rs.bindSession now free token sessionID).map (fun rs' => rs'.enterSession token rs.heap.length)

/-- Takes the token out of the map and closes the raw socket of the session it named. -/
def dropSession (rs : RelayServer) (token : String) : RelayServer :=
  match rs.sessions.lookup token with
  | none => rs
  | some p =>
    { rs with
      sessions := rs.sessions.erase token
      listeners := rs.listeners.filter (fun q => q ≠ p) }

def removeSession (rs : RelayServer) (token : String) : RelayServer := rs.dropSession token

def invalidateSession (rs : RelayServer) (token : String) : RelayServer := rs.dropSession token

def findSessionByTokenID (rs : RelayServer) (order : Order String) (id : List UInt8) :
    Option Nat :=
  (order.apply rs.sessions.keys).findSome? (fun token =>
    (rs.sessions.lookup token).filter (fun p =>
      rs.heap[p]?.any (fun sess => sess.tokenID = id)))

def reapIdle (now : Int) (rs : RelayServer) (token : String) : RelayServer :=
  match (rs.sessions.lookup token).bind (fun p => rs.heap[p]?) with
  | none => rs
  | some sess => if now - sess.lastActive > idleTimeout then rs.dropSession token else rs

/-- One sweep of `reapIdleSessions`. -/
def reapIdleSessions (rs : RelayServer) (now : Int) : RelayServer :=
  rs.sessions.keys.foldl (reapIdle now) rs

end RelayServer

inductive Socket
  | main
  | raw (port : Nat)
  deriving DecidableEq

/-- A datagram the relay has sent, with the token of the session it was sent for. -/
structure Sent where
  token : String
  socket : Socket
  dst : UDPAddr
  data : List UInt8
  deriving DecidableEq

/-- The largest payload of a UDP datagram over IPv4; a longer write fails and its error is ignored.
Over IPv6 there would be room for 20 bytes more. -/
def maxDatagram : Nat := 65507

def writeToUDP (token : String) (socket : Socket) (data : List UInt8) (dst : UDPAddr) : List Sent :=
  if data.length ≤ maxDatagram then [⟨token, socket, dst, data⟩] else []

/-- Where a packet goes: nowhere, to a peer on the main socket, or to the renter on the raw one. -/
inductive Route
  | none
  | main (target : UDPAddr)
  | raw (port : Nat) (dst : UDPAddr)
  deriving DecidableEq

namespace RelaySession

def needsWrite (sess : RelaySession) (raddr : UDPAddr) : Bool :=
  sess.peerA = none ||
    (sess.peerB = none && sess.renterAddr = none && sess.peerA ≠ some raddr)

/-- Provider to renter: the raw path is preferred if there is one. -/
def renterRoute (sess : RelaySession) : Route :=
  match sess.rawConn, sess.renterAddr with
  | some port, some dst => .raw port dst
  | _, _ => match sess.peerB with
    | some b => .main b
    | none => .none

/-- The switch under the read lock. -/
def fastRoute (sess : RelaySession) (raddr : UDPAddr) : Route :=
  match sess.peerA with
  | none => .none
  | some a =>
    if raddr = a then sess.renterRoute
    else if sess.peerB = some raddr then .main a
    else .none

/-- The switch under the write lock. -/
def slowRoute (sess : RelaySession) (now : Int) (raddr : UDPAddr) : RelaySession × Route :=
  match sess.peerA with
  | none => ({ sess with peerA := some raddr, lastActive := now }, .none)
  | some a =>
    if sess.peerB = none ∧ sess.renterAddr = none ∧ raddr ≠ a then
      ({ sess with peerB := some raddr, lastActive := now }, .main a)
    else if raddr = a then ({ sess with lastActive := now }, sess.renterRoute)
    else if sess.peerB = some raddr then ({ sess with lastActive := now }, .main a)
    else (sess, .none)

end RelaySession

namespace RelayServer

/-- Sends `payload` along the route chosen for the session at `p`. -/
def forward (rs : RelayServer) (p : Nat) (token : String) (payload : List UInt8) :
    Route → List Sent
  | .none => []
  | .main target => writeToUDP token .main payload target
  | .raw port dst => if p ∈ rs.listeners then writeToUDP token (.raw port) payload dst else []

/-- The fast path of `serve`; `none` when a peer has to be assigned first. -/
def serveFast (rs : RelayServer) (order : Order String) (now : Int) (raddr : UDPAddr)
    (id payload : List UInt8) : Option (RelayServer × List Sent) :=
  match (rs.findSessionByTokenID order id).bind (fun p => rs.heap[p]?.map (fun s => (p, s))) with
  | none => some (rs, [])
  | some (p, sess) =>
    if sess.needsWrite raddr then none
    else some (rs.update p { sess with lastActive := now },
      rs.forward p sess.token payload (sess.fastRoute raddr))

/-- The slow path of `serve`, which looks the session up again. -/
def serveSlow (rs : RelayServer) (order : Order String) (now : Int) (raddr : UDPAddr)
    (id payload : List UInt8) : RelayServer × List Sent :=
  match (rs.findSessionByTokenID order id).bind (fun p => rs.heap[p]?.map (fun s => (p, s))) with
  | none => (rs, [])
  | some (p, sess) =>
    let (sess', route) := sess.slowRoute now raddr
    (rs.update p sess', rs.forward p sess.token payload route)

/-- One datagram read by `serve` on the main socket. -/
def serve (rs : RelayServer) (order order' : Order String) (now : Int) (raddr : UDPAddr)
    (data : List UInt8) : RelayServer × List Sent :=
  let buf := data.take 65536
  if buf.length < headerLen ∨ buf.take magicLen ≠ relayMagic then (rs, [])
  else
    let id := (buf.drop magicLen).take tokenIDLen
    let payload := buf.drop headerLen
    match rs.serveFast order now raddr id payload with
    | some x => x
    | none => rs.serveSlow order' now raddr id payload

/-- One datagram read by `serveRaw` on the raw socket of the session at `p`. -/
def serveRaw (rs : RelayServer) (p : Nat) (now : Int) (raddr : UDPAddr) (data : List UInt8) :
    RelayServer × List Sent :=
  match rs.heap[p]? with
  | none => (rs, [])
  | some sess =>
    let buf := data.take 65536
    let rs' := rs.update p { sess with lastActive := now, renterAddr := some raddr }
    match sess.peerA with
    | none => (rs', [])
    | some a => (rs', writeToUDP sess.token .main (header sess.tokenID ++ buf) a)

end RelayServer

/-- Everything that can happen to a running relay. -/
inductive Event
  | register (token sessionID : String) (now : Int) (free : Bool)
  | remove (token : String)
  | invalidate (token : String)
  | reap (now : Int)
  | main (now : Int) (raddr : UDPAddr) (data : List UInt8) (order order' : Order String)
  | raw (port : Nat) (now : Int) (raddr : UDPAddr) (data : List UInt8)

/-- The token an event registers. -/
def Event.registers : Event → Option String
  | .register token _ _ _ => some token
  | _ => none

namespace RelayServer

/-- The session whose raw socket is open on `port`. -/
def listenerOn (rs : RelayServer) (port : Nat) : Option Nat :=
  rs.listeners.find? (fun p => rs.heap[p]?.any (fun sess => sess.rawConn = some port))

/-- A datagram sent to a port without an open socket is not read by anyone. -/
def step (rs : RelayServer) : Event → Option (RelayServer × List Sent)
  | .register token sessionID now free =>
    (rs.registerSession now free token sessionID).map (fun rs' => (rs', []))
  | .remove token => some (rs.removeSession token, [])
  | .invalidate token => some (rs.invalidateSession token, [])
  | .reap now => some (rs.reapIdleSessions now, [])
  | .main now raddr data order order' => some (rs.serve order order' now raddr data)
  | .raw port now raddr data => match rs.listenerOn port with
    | none => some (rs, [])
    | some p => some (rs.serveRaw p now raddr data)

/-- The relay as a machine over its events. -/
def next : Step RelayServer Event := fun rs e => (rs.step e).map Prod.fst

end RelayServer

end PeerCompute.Relay
