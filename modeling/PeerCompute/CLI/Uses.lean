import PeerCompute.CLI.Connect

/-! Which actions the parts of `doConnect` take, whatever the answers. -/

namespace PeerCompute.CLI

open PeerCompute.Agent (WGConfig WGKeyPair Exchange Link)
open PeerCompute.Interleaving PeerCompute.Computev1 Prog

/-- The actions that neither exchange candidates, write a config nor announce a connection; wg-quick
is called with one path only. -/
def Quiet (path : Path) : Action → Prop
  | .exchangeCandidates _ | .mkdirAll | .panic | .createFile _ _ | .announce _ _ => False
  | .wgUp confPath | .wgDown confPath => confPath = path
  | _ => True

theorem uses_reachPeer (path : Path) (sessionID : String) (exch : Exchange) :
    (reachPeer sessionID exch).Uses (Quiet path) := by
  have hpunch : (holePunch exch).Uses (Quiet path) := by
    unfold holePunch
    split
    · trivial
    · exact ⟨trivial, fun _ => trivial⟩
  refine hpunch.bind (fun res => ?_)
  cases res with
  | some addr => exact ⟨trivial, fun _ => trivial⟩
  | none =>
    change Uses (S := signature) _ (if _ then _ else _)
    split
    · trivial
    refine ⟨trivial, fun made => ?_⟩
    cases made with
    | false => trivial
    | true => exact ⟨trivial, fun _ => ⟨trivial, fun _ => trivial⟩⟩

theorem uses_tunnelIPs (path : Path) (sessionID : String) :
    (tunnelIPs sessionID).Uses (Quiet path) := by
  refine ⟨trivial, fun res => ?_⟩
  cases res <;> trivial

theorem uses_activate (confPath : Path) : (activate confPath).Uses (Quiet confPath) := by
  refine ⟨trivial, fun quick => ?_⟩
  cases quick with
  | false => trivial
  | true =>
    refine ⟨trivial, fun root => ?_⟩
    cases root with
    | false => trivial
    | true => exact ⟨rfl, fun _ => trivial⟩

theorem uses_stayConnected (connMode : String) (confPath : Path) (tunnelActive : Bool) :
    (stayConnected connMode confPath tunnelActive).Uses (Quiet confPath) := by
  unfold stayConnected
  split
  · refine ⟨trivial, fun _ => ?_⟩
    cases tunnelActive with
    | false => trivial
    | true => exact ⟨rfl, fun _ => trivial⟩
  · trivial

theorem uses_keepUp (connMode : String) (confPath : Path) :
    (keepUp connMode confPath).Uses (Quiet confPath) :=
  (uses_activate confPath).bind (fun tunnelActive =>
    (uses_stayConnected connMode confPath tunnelActive).bind (fun _ => trivial))

/-- The quiet actions, and the exchanges. -/
def Early (path : Path) (a : Action) : Prop :=
  Quiet path a ∨ ∃ req, a = .exchangeCandidates req

theorem uses_awaitPeer (path : Path) (req : ExchangeCandidatesRequest) (exch : Exchange) :
    (awaitPeer req exch).Uses (Early path) := by
  have hpoll (x : Option Exchange) : (pollExchange req x).Uses (Early path) := by
    refine ⟨.inr ⟨req, rfl⟩, fun res => ?_⟩
    cases res with
    | none => trivial
    | some exch =>
      change Uses (S := signature) _ (if _ then _ else _)
      split
      · trivial
      · trivial
  unfold awaitPeer
  split
  · have hsleep (n : Nat) : (background.sleep n).Uses (Early path) :=
      ⟨.inl trivial, fun _ => trivial⟩
    have herr : background.err.Uses (Early path) := trivial
    exact (Retry.uses_loop hpoll herr hsleep 10 0 none _).bind (fun _ => trivial)
  · trivial

/-- What holds of the negotiation and of `bringUp`, and of programs one after the other, holds of
`doConnect`. -/
theorem doConnect_induct {P : {α : Type} → Prog signature α → Prop} (path : Path)
    (hbind : ∀ {α β : Type} {p : Prog signature α} {f : α → Prog signature β}, P p →
      (∀ x, P (f x)) → P (p >>= f))
    (hearly : ∀ {α : Type} {p : Prog signature α}, p.Uses (Early path) → P p) (stunAddr : String)
    {sessionID : String} {kp : WGKeyPair}
    (hbring : ∀ peerWGKey link ips, P (bringUp sessionID kp peerWGKey link ips)) :
    P (doConnect stunAddr sessionID kp) := by
  refine hbind (p := Call.gatherCandidates stunAddr wgPort)
    (hearly ⟨.inl trivial, fun _ => trivial⟩) (fun candidates => ?_)
  refine hbind (p := Call.exchangeCandidates _) (hearly ⟨.inr ⟨_, rfl⟩, fun _ => trivial⟩)
    (fun res => ?_)
  cases res with
  | none => exact hearly trivial
  | some exch =>
    refine hbind (hearly (uses_awaitPeer path _ exch)) (fun exch => ?_)
    refine hbind (hearly ((uses_reachPeer path sessionID _).mono (fun _ => .inl))) (fun link => ?_)
    cases link with
    | none => exact hearly trivial
    | some link =>
      refine hbind (hearly ((uses_tunnelIPs path sessionID).mono (fun _ => .inl))) (fun ips => ?_)
      refine hbind (hbring _ link ips) (fun res => hearly ?_)
      change Uses (S := signature) _ (if _ then _ else _)
      split
      · exact ⟨.inl trivial, fun _ => trivial⟩
      · trivial

end PeerCompute.CLI
