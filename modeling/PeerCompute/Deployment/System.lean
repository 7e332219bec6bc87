import PeerCompute.CLI.Connect
import PeerCompute.Interleaving.Phases

/-! A provider, its renters and the registry that they share. -/

namespace PeerCompute.Deployment

open PeerCompute.Interleaving PeerCompute.Plugin PeerCompute.Computev1 Prog

/-- The actions of the agent and those of `peerctl`. -/
inductive ClientAction
  | provider (a : Agent.Action)
  | renter (a : CLI.Action)

def ClientAction.Res : ClientAction → Type
  | .provider a => a.Res
  | .renter a => a.Res

/-- What a client and the registry do.  A client does `own` things on its own machine; it sends a
request, which is answered or not, and has the call return with what it makes of the answer.  `done`
is the question whether the context of a call is done. -/
inductive Action
  | own (a : ClientAction)
  | send (c : Registry.Rpc)
  | registry (a : Registry.Action)
  | done
  | returns (a : ClientAction) (r : a.Res)

def Action.Res : Action → Type
  | .own a => a.Res
  | .registry a => a.Res
  | .send _ | .done => Bool
  | .returns _ _ => Unit

def clients : Signature := ⟨ClientAction, ClientAction.Res⟩

def signature : Signature := ⟨Action, Action.Res⟩

/-! The actions as programs of one step. -/

namespace Call

def own (a : ClientAction) : Prog signature a.Res := perform (S := signature) (.own a)

def send (c : Registry.Rpc) : Prog signature Bool := perform (S := signature) (.send c)

def registry (a : Registry.Action) : Prog signature a.Res := perform (S := signature) (.registry a)

def done : Prog signature Bool := perform (S := signature) .done

def returns (a : ClientAction) (r : a.Res) : Prog signature Unit :=
  perform (S := signature) (.returns a r)

end Call

/-! ## The calls of the clients -/

/-- The response that the agent reads as sessions.  A session with a shorter ID would make
`sess.Id[:12]` panic. -/
def polled (sess : Session) : Option Agent.PolledSession :=
  if h : 12 ≤ sess.id.toList.length then some { toSession := sess, long := h } else none

def listed : Except Status Response → Option (List Agent.PolledSession)
  | .ok (.listProviderSessions sessions) => some (sessions.filterMap polled)
  | _ => none

def terminations : Except Status Response → Option (List String)
  | .ok (.heartbeat _ terminateSessions) => some terminateSessions
  | _ => none

/-- A call of a client: the request, whether it goes through `retry.Do`, and what the client makes of
the answer. -/
structure Request (α : Type) where
  rpc : Registry.Rpc
  retried : Bool
  read : Except Status Response → α

/-- Whether an action is a call of the registry.  `available` is what the registry has told the agent
of itself. -/
def request? (cfg : Agent.Config) (available : Option Resources) :
    (a : ClientAction) → Option (Request a.Res)
  | .provider (.exchangeCandidates req) => some ⟨.exchangeCandidates req, false, CLI.exchanged⟩
  | .provider (.reportConnectionResult req) =>
    some ⟨.reportConnectionResult req, true, fun _ => ()⟩
  | .provider (.updateSessionStatus req) => some ⟨.updateSessionStatus req, true, fun _ => ()⟩
  | .provider .listPending =>
    some ⟨.listProviderSessions { providerID := cfg.provider, statusFilter := "pending" }, true,
      listed⟩
  | .provider (.heartbeat activeSessions) =>
    some ⟨.heartbeat { providerID := cfg.provider, available := available
                       activeSessions := activeSessions }, true, terminations⟩
  | .renter (.exchangeCandidates req) => some ⟨.exchangeCandidates req, false, CLI.exchanged⟩
  | .renter (.reportConnectionResult req) =>
    some ⟨.reportConnectionResult req, false, fun _ => ()⟩
  | .renter (.getSession req) => some ⟨.getSession req, false, CLI.fetched⟩
  | _ => none

/-- The handler of a request, at the registry. -/
def handling (c : Registry.Rpc) : Prog signature (Except Status Response) :=
  c.handler.expand Call.registry

def connectionLost : Status := ⟨.unavailable, "connection lost"⟩

/-- A request that is sent once. -/
def attempt (c : Registry.Rpc) : Prog signature (Except Status Response) := do
  if ← Call.send c then handling c else return .error connectionLost

def context : Retry.Context signature where
  err := Call.done
  sleep _ := Call.done

/-- The function that `retry.Do` is given.  It assigns to the response. -/
def attemptAgain (c : Registry.Rpc) (_resp : Except Status Response) :
    Prog signature (Except Status Response × Option Status) := do
  match ← attempt c with
  | .ok resp => return (.ok resp, none)
  | .error e => return (.error e, some e)

/-- `retry.Do` with three attempts, as in all calls of the agent that go through it. -/
def persist (c : Registry.Rpc) : Prog signature (Except Status Response) := do
  let (resp, _) ← Retry.loop 3 context (attemptAgain c) 3 0 none (.error connectionLost)
  return resp

def Request.prog {α : Type} (q : Request α) : Prog signature (Except Status Response) :=
  if q.retried then persist q.rpc else attempt q.rpc

/-- What stands for an action of a client. -/
def serve (cfg : Agent.Config) (available : Option Resources) (a : ClientAction) :
    Prog signature a.Res :=
  match request? cfg available a with
  | none => Call.own a
  | some q => do
    let x ← q.prog
    Call.returns a (q.read x)
    return q.read x

/-! ## The machine -/

/-- What the parties run on. -/
structure Setting (σ : Type) where
  cfg : Agent.Config
  available : Option Resources := none
  agent : Agent.Env
  machine : Nat → CLI.Machine := fun _ => {}
  registry : Registry.Env
  store : Store σ
  /-- Whether a request that is sent now is answered. -/
  answered : Nat → Bool := fun _ => true
  /-- Whether the context of a call is done. -/
  done : Nat → Bool := fun _ => false

/-- A request that is not answered is `adrift`: the registry may get it at any time, or never. -/
structure State (σ : Type) where
  host : Agent.Host := {}
  server : Registry.Server σ
  adrift : List Registry.Rpc := []
  clock : Nat := 0

namespace State

variable {σ : Type} (D : Setting σ) (s : State σ)

def actOwn : (a : ClientAction) → Option (a.Res × State σ)
  | .provider a => (Agent.exec D.agent a s.host).map (fun x => (x.1, { s with host := x.2 }))
  | .renter a => (CLI.exec (D.machine s.clock) D.registry D.store a s.server).map
      (fun x => (x.1, s))

def act : (a : Action) → Option (a.Res × State σ)
  | .own a => s.actOwn D a
  | .send c =>
    if D.answered s.clock then some (true, s) else some (false, { s with adrift := s.adrift ++ [c] })
  | .registry a => (Registry.exec D.registry D.store a s.server).map
      (fun x => (x.1, { s with server := x.2 }))
  | .done => some (D.done s.clock, s)
  | .returns _ _ => some ((), s)

end State

def exec {σ : Type} (D : Setting σ) : Exec signature (State σ) := fun a s =>
  (s.act D a).map (fun x => (x.1, { x.2 with clock := s.clock + 1 }))

/-- An agent and a registry with a `MemoryStore`, for which everything goes well. -/
def aSetting : Setting Tables where
  cfg := Agent.aConfig
  agent := { Agent.quietEnv with
    gatherCandidates := fun _ => [⟨"203.0.113.7:51820", "host", 100⟩] }
  registry := Registry.countingEnv
  store := memoryStore (fun _ => Data.Order.id)

/-- The renter has created a session, and has given a key. -/
def created : State Tables where
  server :=
    { relay := none
      store := Tables.empty.insertSession
        { id := Agent.aSession.id, providerID := "p", renterID := "cli-user" }
      candidates := AList.insert Agent.aSession.id
        (AList.insert "cli-user" { wgPublicKey := "key of the creation" } ∅) ∅ }

def secondSession : SessionRecord :=
  { id := Agent.aSession.id, providerID := "p", renterID := "cli-user", status := "pending"
    wgProviderIP := "10.99.1.1", wgRenterIP := "10.99.1.2" }

/-- The second tunnel of the registry, whose renter has given a key. -/
def secondTunnel : State Tables :=
  { created with
    server := { created.server with store := Tables.empty.insertSession secondSession } }

end PeerCompute.Deployment
