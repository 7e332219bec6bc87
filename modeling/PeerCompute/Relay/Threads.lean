import PeerCompute.Interleaving.Pool
import PeerCompute.Relay.Forwarding

/-! The goroutines of a running relay, one lock section or system call at a time. -/

namespace PeerCompute.Relay.Threads

open PeerCompute.Data PeerCompute.Interleaving Prog

/-- What the main loop knows of a packet when it gives the lock back. -/
inductive Decision
  | drop
  /-- A peer has to be assigned, under the write lock. -/
  | upgrade
  | send (p : Nat) (token : String) (route : Route)

/-- The lock sections of the relay, and its steps outside of them.  Session objects are named by
their place in the heap; times and map orders are those the step meets with. -/
inductive Action
  | bind (token sessionID : String) (now : Int) (free : Bool)
  | enter (token : String) (p : Nat)
  | delete (token : String)
  | close (p : Nat)
  | reap (now : Int)
  | locate (order : Order String) (now : Int) (raddr : UDPAddr) (id : List UInt8)
  | assign (order : Order String) (now : Int) (raddr : UDPAddr) (id : List UInt8)
  | readFromUDP (p : Nat)
  | touch (p : Nat) (now : Int)
  | recordRenter (p : Nat) (raddr : UDPAddr)
  | readPeerA (p : Nat)
  | write (p : Nat) (token : String) (route : Route) (data : List UInt8)

def Action.Res : Action → Type
  | bind _ _ _ _ => Nat
  | delete _ => Option Nat
  | locate _ _ _ _ | assign _ _ _ _ => Decision
  | readFromUDP _ => String × List UInt8
  | readPeerA _ => Option UDPAddr
  | enter _ _ | close _ | reap _ | touch _ _ | recordRenter _ _ | write _ _ _ _ => Unit

def signature : Signature := ⟨Action, Action.Res⟩

/-- The relay with everything it has sent, the oldest first. -/
structure Machine where
  server : RelayServer
  wire : List Sent := []

/-- Applies `f` to the session object at `p`. -/
def modify (rs : RelayServer) (p : Nat) (f : RelaySession → RelaySession) : RelayServer :=
  match rs.heap[p]? with
  | none => rs
  | some sess => rs.update p (f sess)

/-- The session object a packet is for. -/
def find (rs : RelayServer) (order : Order String) (id : List UInt8) :
    Option (Nat × RelaySession) :=
  (rs.findSessionByTokenID order id).bind (fun p => rs.heap[p]?.map (fun sess => (p, sess)))

/-- The section of the main loop under the read lock. -/
def locate (rs : RelayServer) (order : Order String) (now : Int) (raddr : UDPAddr)
    (id : List UInt8) : Decision × RelayServer :=
  match find rs order id with
  | none => (.drop, rs)
  | some (p, sess) =>
    if sess.needsWrite raddr then (.upgrade, rs)
    else (.send p sess.token (sess.fastRoute raddr), rs.update p { sess with lastActive := now })

/-- The section of the main loop under the write lock. -/
def assign (rs : RelayServer) (order : Order String) (now : Int) (raddr : UDPAddr)
    (id : List UInt8) : Decision × RelayServer :=
  match find rs order id with
  | none => (.drop, rs)
  | some (p, sess) =>
    (.send p sess.token (sess.slowRoute now raddr).2, rs.update p (sess.slowRoute now raddr).1)

/-- A read from a raw socket returns only while the socket is open. -/
def exec : Exec signature Machine
  | .bind token sessionID now free, m =>
    (m.server.bindSession now free token sessionID).map (fun rs =>
      (m.server.heap.length, { m with server := rs }))
  | .enter token p, m => some ((), { m with server := m.server.enterSession token p })
  | .delete token, m =>
    let rs := { m.server with sessions := m.server.sessions.erase token }
    some (m.server.sessions.lookup token, { m with server := rs })
  | .close p, m =>
    let rs := { m.server with listeners := m.server.listeners.filter (fun q => q ≠ p) }
    some ((), { m with server := rs })
  | .reap now, m => some ((), { m with server := m.server.reapIdleSessions now })
  | .locate order now raddr id, m =>
    let (d, rs) := locate m.server order now raddr id
    some (d, { m with server := rs })
  | .assign order now raddr id, m =>
    let (d, rs) := assign m.server order now raddr id
    some (d, { m with server := rs })
  | .readFromUDP p, m =>
    if p ∈ m.server.listeners then
      m.server.heap[p]?.map (fun sess => ((sess.token, sess.tokenID), m))
    else none
  | .touch p now, m =>
    let rs := modify m.server p (fun sess => { sess with lastActive := now })
    some ((), { m with server := rs })
  | .recordRenter p raddr, m =>
    let rs := modify m.server p (fun sess => { sess with renterAddr := some raddr })
    some ((), { m with server := rs })
  | .readPeerA p, m => some (m.server.heap[p]?.bind RelaySession.peerA, m)
  | .write p token route data, m =>
    some ((), { m with wire := m.wire ++ m.server.forward p token data route })

abbrev Thread := Prog signature Unit

/-! The actions as programs of one step. -/

namespace Call

def bind (token sessionID : String) (now : Int) (free : Bool) : Prog signature Nat :=
  perform (S := signature) (.bind token sessionID now free)

def enter (token : String) (p : Nat) : Thread := perform (S := signature) (.enter token p)

def delete (token : String) : Prog signature (Option Nat) :=
  perform (S := signature) (.delete token)

def close (p : Nat) : Thread := perform (S := signature) (.close p)

def reap (now : Int) : Thread := perform (S := signature) (.reap now)

def locate (order : Order String) (now : Int) (raddr : UDPAddr) (id : List UInt8) :
    Prog signature Decision :=
  perform (S := signature) (.locate order now raddr id)

def assign (order : Order String) (now : Int) (raddr : UDPAddr) (id : List UInt8) :
    Prog signature Decision :=
  perform (S := signature) (.assign order now raddr id)

def readFromUDP (p : Nat) : Prog signature (String × List UInt8) :=
  perform (S := signature) (.readFromUDP p)

def touch (p : Nat) (now : Int) : Thread := perform (S := signature) (.touch p now)

def recordRenter (p : Nat) (raddr : UDPAddr) : Thread :=
  perform (S := signature) (.recordRenter p raddr)

def readPeerA (p : Nat) : Prog signature (Option UDPAddr) :=
  perform (S := signature) (.readPeerA p)

def write (p : Nat) (token : String) (route : Route) (data : List UInt8) : Thread :=
  perform (S := signature) (.write p token route data)

end Call

def registerSession (token sessionID : String) (now : Int) (free : Bool) : Thread := do
  let p ← Call.bind token sessionID now free
  Call.enter token p

/-- `RemoveSession` and `InvalidateSession`. -/
def dropSession (token : String) : Thread := do
  match ← Call.delete token with
  | none => return ()
  | some p => Call.close p

/-- What the main loop does when it has given a lock back. -/
def finish (payload : List UInt8) (upgrade : Thread) : Decision → Thread
  | .drop => return ()
  | .upgrade => upgrade
  | .send p token route => Call.write p token route payload

/-- The main loop from the write lock on. -/
def serveSlow (raddr : UDPAddr) (order : Order String) (now : Int) (id payload : List UInt8) :
    Thread := do
  let d ← Call.assign order now raddr id
  finish payload (return ()) d

/-- One datagram read by `serve`. -/
def serve (raddr : UDPAddr) (data : List UInt8) (order order' : Order String) (now now' : Int) :
    Thread :=
  let buf := data.take 65536
  if buf.length < headerLen ∨ buf.take magicLen ≠ relayMagic then return ()
  else do
    let id := (buf.drop magicLen).take tokenIDLen
    let payload := buf.drop headerLen
    let d ← Call.locate order now raddr id
    finish payload (serveSlow raddr order' now' id payload) d

/-- `serveRaw` between two reads, for the session object at `p` with its token. -/
def forwardRaw (p : Nat) (raddr : UDPAddr) (buf : List UInt8) (now : Int) (token : String)
    (id : List UInt8) : Thread := do
  Call.touch p now
  Call.recordRenter p raddr
  match ← Call.readPeerA p with
  | none => return ()
  | some a => Call.write p token (.main a) (header id ++ buf)

/-- One datagram read by the `serveRaw` of the session object at `p`. -/
def serveRaw (p : Nat) (raddr : UDPAddr) (data : List UInt8) (now : Int) : Thread := do
  let x ← Call.readFromUDP p
  forwardRaw p raddr (data.take 65536) now x.1 x.2

/-- What sets a goroutine of the relay to work: a call, a tick of the reaper, or a datagram.  The
main loop takes one datagram after the other; here several may be in work at once, of which that
is a special case. -/
inductive Job
  | register (token sessionID : String) (now : Int) (free : Bool)
  | remove (token : String)
  | invalidate (token : String)
  | reap (now : Int)
  | main (raddr : UDPAddr) (data : List UInt8) (order order' : Order String) (now now' : Int)
  | raw (p : Nat) (raddr : UDPAddr) (data : List UInt8) (now : Int)

def Job.thread : Job → Thread
  | .register token sessionID now free => registerSession token sessionID now free
  | .remove token | .invalidate token => dropSession token
  | .reap now => Call.reap now
  | .main raddr data order order' now now' => serve raddr data order order' now now'
  | .raw p raddr data now => serveRaw p raddr data now

/-- A job arrives, or the `i`-th job takes its next step. -/
inductive Turn
  | job (j : Job)
  | step (i : Nat)

def Turn.event : Turn → Pool.Event signature Unit
  | .job j => .start j.thread
  | .step i => .step i

/-- The jobs that have arrived, in the order of the threads. -/
def arrived (turns : List Turn) : List Job :=
  turns.filterMap (fun t => match t with
    | .job j => some j
    | .step _ => none)

abbrev Jobs := Pool signature Unit Machine

def interleave (turns : List Turn) (rs : RelayServer) : Option Jobs :=
  Pool.play exec (turns.map Turn.event) ⟨{ server := rs }, []⟩

end PeerCompute.Relay.Threads
