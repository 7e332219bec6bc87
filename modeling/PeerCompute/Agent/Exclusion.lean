import PeerCompute.Agent.Uses
import PeerCompute.Interleaving.Contract

/-! The attempts to start one session: the part that each goroutine has in them. -/

namespace PeerCompute.Agent

open PeerCompute.Data PeerCompute.Interleaving PeerCompute.Computev1 Prog Contract

/-- What a `startSession` makes under a name that it does not choose. -/
inductive Item
  | container (id : String)
  | network (name : String)
  | config (path : String)

/-- The attempt that has made what is there. -/
def Host.creator (s : Host) : Item → Option Nat
  | .container id => (s.containers.lookup id).map (·.creator)
  | .network name => (s.networks.lookup name).map (·.creator)
  | .config path => (s.configs.lookup path).map (·.creator)

/-- The attempt to start the session is between its reservation and the end of its cleanup. -/
def Host.Underway (s : Host) (n : Nat) (id : String) : Prop :=
  s.attempts.lookup n = some ⟨id, .starting⟩ ∨ s.attempts.lookup n = some ⟨id, .cleaning⟩

/-- At most one attempt to start the session is underway. -/
def Host.Exclusive (s : Host) (id : String) : Prop :=
  ∀ m n, s.Underway m id → s.Underway n id → m = n

/-- The session that has been reserved. -/
def Action.reserves : (a : Action) → a.Res → Option String
  | .reserve _ id, (true : Bool) => some id
  | _, _ => none

/-- The session is reserved only when no earlier attempt to start it is still cleaning up. -/
def Patient (id : String) (a : Action) (s : Host) (res : a.Res) : Prop :=
  a.reserves res = some id → ∀ m ∈ s.attempts.keys, s.attempts.lookup m ≠ some ⟨id, .cleaning⟩

instance (id : String) (a : Action) (s : Host) (res : a.Res) : Decidable (Patient id a s res) :=
  inferInstanceAs (Decidable (_ → _))

/-- The attempt whose cleanup is over with its config file still there. -/
def Action.leaves : (a : Action) → a.Res → Option Nat
  | .removeConfig cleanup _, (.error .refused : Except CallError Unit) => cleanup
  | _, _ => none

/-- No cleanup of an attempt to start the session leaves its config file there. -/
def Removes (id : String) (a : Action) (s : Host) (res : a.Res) : Prop :=
  ∀ n ∈ a.leaves res, s.attempts.lookup n ≠ some ⟨id, .cleaning⟩

instance (id : String) (a : Action) (s : Host) (res : a.Res) : Decidable (Removes id a s res) :=
  inferInstanceAs (Decidable (∀ n ∈ a.leaves res, _))

namespace Exclusion

/-- How far an attempt has come.  `own` says that it has made its network, `made` is the container
that it has made; a cleanup holds what it has read last. -/
inductive Part
  | idle
  | fresh (n : Nat)
  | starting (n : Nat) (id : String) (own : Bool) (made : Option String)
  | cleaning (n : Nat) (id : String) (rs : Option RunningSession)
  | ended

/-- The actions that touch neither the map nor the attempts, and neither make nor remove a
container, a network or a config file. -/
def Quiet : Action → Prop
  | .reserve _ _ | .release _ _ | .take _ | .networkRemove _ | .networkCreate _ _ |
    .containerRemoveNamed _ | .containerCreate _ _ _ | .containerRemove _ | .writeConfig _ _ _ |
    .removeConfig _ _ | .assign _ (.containerID _) | .go (.stopSession _) => False
  | _ => True

inductive Move : Part → (a : Action) → a.Res → Part → Prop
  | quiet {g : Part} {a : Action} {res : a.Res} (ha : Quiet a) : Move g a res g
  | reserve {n : Nat} {id : String} : Move (.fresh n) (.reserve n id) true (.starting n id false none)
  | present {n : Nat} {id : String} : Move (.fresh n) (.reserve n id) false .ended
  | stale {n : Nat} {id name : String} {own : Bool} {made : Option String}
      {res : Except CallError Unit} :
      Move (.starting n id own made) (.networkRemove name) res (.starting n id own made)
  | network {n : Nat} {id x : String} {own : Bool} {made : Option String} :
      Move (.starting n id own made) (.networkCreate n (networkName id)) (.ok x)
        (.starting n id true made)
  | noNetwork {n : Nat} {id name : String} {own : Bool} {made : Option String} {e : CallError} :
      Move (.starting n id own made) (.networkCreate n name) (.error e) (.starting n id own made)
  | collision {n : Nat} {id name : String} {own : Bool} {made : Option String}
      {res : Except CallError Unit} :
      Move (.starting n id own made) (.containerRemoveNamed name) res (.starting n id own made)
  | create {n : Nat} {id name c : String} {own : Bool} {config : ContainerConfig} :
      Move (.starting n id own none) (.containerCreate n name config) (.ok c)
        (.starting n id own (some c))
  | noContainer {n : Nat} {id name : String} {own : Bool} {made : Option String}
      {config : ContainerConfig} {e : CallError} :
      Move (.starting n id own made) (.containerCreate n name config) (.error e)
        (.starting n id own made)
  | record {n : Nat} {id c : String} {res : Unit} :
      Move (.starting n id true (some c)) (.assign n (.containerID c)) res
        (.starting n id true (some c))
  | write {n : Nat} {id : String} {own : Bool} {made : Option String} {config : WGConfig}
      {res : Except CallError Unit} :
      Move (.starting n id own made) (.writeConfig n (configPath id) config) res
        (.starting n id own made)
  | release {n : Nat} {id : String} {own : Bool} {made : Option String} {res : Unit} :
      Move (.starting n id own made) (.release n id) res (.cleaning n id none)
  | load {n : Nat} {id : String} {rs₀ : Option RunningSession} {rs : RunningSession} :
      Move (.cleaning n id rs₀) (.load n) rs (.cleaning n id (some rs))
  | container {n : Nat} {id : String} {rs : RunningSession} {res : Except CallError Unit}
      (hc : rs.containerID ≠ "") :
      Move (.cleaning n id (some rs)) (.containerRemove rs.containerID) res
        (.cleaning n id (some rs))
  | unlink {n : Nat} {id : String} {rs : RunningSession} {res : Except CallError Unit}
      (hc : rs.containerID ≠ "") :
      Move (.cleaning n id (some rs)) (.networkRemove (networkName id)) res
        (.cleaning n id (some rs))
  | clean {n : Nat} {id : String} {rs₀ : Option RunningSession} {res : Except CallError Unit} :
      Move (.cleaning n id rs₀) (.removeConfig (some n) (configPath id)) res .ended

/-- A goroutine may stop anywhere: nobody waits for it. -/
def contract : Contract signature Still Part where
  Answers _ _ _ := True
  Move _ g a res _ g' := Move g a res g'
  Done _ := True

variable {g : Part} {n : Nat} {id : String} {own : Bool} {made : Option String} {w : Still}

theorem move_of_quiet {a : Action} {res : a.Res} (ha : Quiet a) : contract.Move w g a res w g :=
  .quiet ha

theorem quiet_of_negotiates {a : Action} (ha : Negotiates a) : Quiet a := by
  cases a with
  | probe | newRelayClient | runRelayClient | reportConnectionResult => trivial
  | assign m b =>
    cases b with
    | relayCancel => trivial
    | _ => cases ha
  | _ => cases ha

/-- An attempt stays one that is starting, whatever the answers. -/
def Starting (n : Nat) (id : String) (g : Part) : Prop := ∃ own made, g = .starting n id own made

theorem delivers_removeSessionNetwork {sessionID : String} :
    contract.Delivers (fun g (_ : Unit) => g = .starting n id own made) w (.starting n id own made)
      (removeSessionNetwork sessionID) :=
  delivers_move (fun _ _ => ⟨_, .stale, delivers_ret.mpr rfl⟩)

/-- How `StartContainer` leaves an attempt: a container that has been started stands in a network
that the attempt has made. -/
def StartsContainer (n : Nat) (id : String) (g : Part) : Except CallError Started → Prop
  | .error _ => Starting n id g
  | .ok started => g = .starting n id true (some started.containerID)

theorem delivers_startContainer (opts : StartContainerOpts) :
    contract.Delivers (StartsContainer n opts.sessionID) w (.starting n opts.sessionID false none)
      (startContainer n opts) := by
  have hfail : ∀ {w own made} (e : CallError), contract.Delivers (StartsContainer n opts.sessionID) w
      (.starting n opts.sessionID own made) (.ret (.error e)) :=
    fun e => delivers_ret.mpr ⟨_, _, rfl⟩
  have hremove : ∀ {w own made} (e : CallError),
      contract.Delivers (StartsContainer n opts.sessionID) w (.starting n opts.sessionID own made)
        (removeSessionNetwork opts.sessionID >>= fun _ => .ret (.error e)) := by
    intro w own made e
    refine Delivers.seq delivers_removeSessionNetwork ?_
    rintro w g _ rfl
    exact hfail e
  unfold startContainer createSessionNetwork
  rw [bind_assoc]
  refine delivers_move (fun _ _ => ⟨_, .stale, ?_⟩)
  refine delivers_move (fun res _ => ?_)
  cases res with
  | error e => exact ⟨_, .noNetwork, hfail e⟩
  | ok networkID =>
    refine ⟨_, .network, ?_⟩
    refine delivers_quiet move_of_quiet trivial (fun res _ => ?_)
    cases res with
    | error e => exact hremove e
    | ok u =>
      unfold runContainer
      refine delivers_move (fun _ _ => ⟨_, .collision, ?_⟩)
      refine delivers_move (fun res _ => ?_)
      cases res with
      | error e => exact ⟨_, .noContainer, hremove e⟩
      | ok c =>
        refine ⟨_, .create, ?_⟩
        refine delivers_quiet move_of_quiet trivial (fun res _ => ?_)
        cases res with
        | error e => exact hremove e
        | ok u =>
          refine Delivers.seq (R := fun g _ => g = .starting n opts.sessionID true (some c))
            (delivers_quietly move_of_quiet
              ((uses_awaitPort c 20).mono (fun _ => Inspects.elim (fun _ => trivial)))
              (fun _ => rfl)) ?_
          rintro w g x rfl
          cases x with
          | error e => exact hfail e
          | ok port => exact delivers_ret.mpr rfl

theorem delivers_callRelayCancel {rs₀ : Option RunningSession} :
    contract.Delivers (fun g (_ : Unit) => ∃ rs, g = .cleaning n id rs) w (.cleaning n id rs₀)
      (callRelayCancel n) := by
  refine delivers_move (fun rs _ => ⟨_, .load, ?_⟩)
  split
  · exact delivers_ret.mpr ⟨_, rfl⟩
  · refine delivers_move (fun rs' _ => ⟨_, .load, ?_⟩)
    exact delivers_quietly move_of_quiet ⟨trivial, fun _ => trivial⟩ (fun _ => ⟨_, rfl⟩)

theorem delivers_stopRecorded {rs₀ : Option RunningSession} :
    contract.Delivers (fun g (_ : Unit) => ∃ rs, g = .cleaning n id rs) w (.cleaning n id rs₀)
      (stopRecorded n id) := by
  refine delivers_move (fun rs _ => ⟨_, .load, ?_⟩)
  split
  · exact delivers_ret.mpr ⟨_, rfl⟩
  · refine delivers_move (fun rs' _ => ⟨_, .load, ?_⟩)
    unfold stopContainer
    split
    · exact delivers_ret.mpr ⟨_, rfl⟩
    next hc =>
      refine delivers_quiet move_of_quiet trivial (fun _ _ => ?_)
      refine delivers_move (fun _ _ => ⟨_, .container hc, ?_⟩)
      split
      · exact delivers_ret.mpr ⟨_, rfl⟩
      · exact delivers_move (fun _ _ => ⟨_, .unlink hc, delivers_ret.mpr ⟨_, rfl⟩⟩)

theorem delivers_wgDownRecorded {rs₀ : Option RunningSession} :
    contract.Delivers (fun g (_ : Unit) => ∃ rs, g = .cleaning n id rs) w (.cleaning n id rs₀)
      (wgDownRecorded n) := by
  refine delivers_move (fun rs _ => ⟨_, .load, ?_⟩)
  split
  · exact delivers_ret.mpr ⟨_, rfl⟩
  · refine delivers_move (fun rs' _ => ⟨_, .load, ?_⟩)
    exact delivers_quietly move_of_quiet ⟨trivial, fun _ => trivial⟩ (fun _ => ⟨_, rfl⟩)

theorem delivers_failSessionStart (h : Starting n id g) :
    contract.Delivers (fun _ (_ : Unit) => True) w g (failSessionStart n id) := by
  obtain ⟨own, made, rfl⟩ := h
  unfold failSessionStart cleanupFailedStart
  simp only [bind_assoc]
  refine delivers_move (fun _ _ => ⟨_, .release, ?_⟩)
  refine Delivers.seq delivers_callRelayCancel ?_
  rintro w g _ ⟨rs, rfl⟩
  refine Delivers.seq delivers_stopRecorded ?_
  rintro w g _ ⟨rs, rfl⟩
  refine Delivers.seq delivers_wgDownRecorded ?_
  rintro w g _ ⟨rs, rfl⟩
  refine delivers_move (fun _ _ => ⟨_, .clean, ?_⟩)
  exact delivers_quietly move_of_quiet ⟨trivial, fun _ => trivial⟩ (fun _ => trivial)

theorem uses_serveSession (cfg : Config) (sess : PolledSession) (started : Started)
    (kp : WGKeyPair) (wgPort : Int) (link : Link) :
    (serveSession n cfg sess started kp wgPort link).Uses Quiet := by
  refine ⟨trivial, fun _ => ⟨trivial, fun _ => ⟨trivial, fun _ => ⟨trivial, fun _ => ?_⟩⟩⟩⟩
  change Uses (S := signature) Quiet (if _ then _ else _)
  split
  · exact ⟨trivial, fun _ => trivial⟩
  · trivial

theorem delivers_activate (cfg : Config) (sess : PolledSession) (started : Started)
    (kp : WGKeyPair) (wgPort : Int) (peerWGKey : String) (link : Link) :
    contract.Delivers (fun _ _ => True) w (.starting n sess.id own made)
      (activate n cfg sess started kp wgPort peerWGKey link) := by
  refine delivers_move (fun res _ => ⟨_, .write, ?_⟩)
  cases res with
  | error e => exact delivers_failSessionStart ⟨_, _, rfl⟩
  | ok u =>
    refine delivers_quiet move_of_quiet trivial (fun _ _ => ?_)
    refine delivers_quiet move_of_quiet trivial (fun res _ => ?_)
    cases res with
    | error e => exact delivers_failSessionStart ⟨_, _, rfl⟩
    | ok u =>
      exact delivers_quietly move_of_quiet (uses_serveSession cfg sess started kp wgPort link)
        (fun _ => trivial)

theorem delivers_connect (cfg : Config) (sess : PolledSession) (started : Started)
    (kp : WGKeyPair) :
    contract.Delivers (fun _ _ => True) w (.starting n sess.id own made)
      (connect n cfg sess started kp) := by
  unfold connect
  dsimp only
  split
  · exact delivers_failSessionStart ⟨_, _, rfl⟩
  refine delivers_quiet move_of_quiet trivial (fun candidates _ => ?_)
  refine delivers_quiet move_of_quiet trivial (fun exch _ => ?_)
  split
  · exact delivers_failSessionStart ⟨_, _, rfl⟩
  refine Delivers.seq (R := fun g _ => g = .starting n sess.id own made)
    (delivers_quietly move_of_quiet
      ((uses_negotiate cfg sess.id _ _).mono (fun _ => quiet_of_negotiates)) (fun _ => rfl)) ?_
  rintro w g link rfl
  exact delivers_activate cfg sess started kp _ _ link

theorem delivers_startSession (cfg : Config) (sess : PolledSession) :
    contract.Delivers (fun _ _ => True) w (.fresh n) (startSession n cfg sess) := by
  refine delivers_move (fun res _ => ?_)
  cases res with
  | false => exact ⟨_, .present, delivers_ret.mpr trivial⟩
  | true =>
    refine ⟨_, .reserve, Delivers.seq (delivers_startContainer ⟨sess.id, _, _, _⟩) ?_⟩
    intro w g x hg
    cases x with
    | error e => exact delivers_failSessionStart hg
    | ok started =>
      obtain rfl := hg
      refine delivers_move (fun _ _ => ⟨_, .record, ?_⟩)
      refine delivers_quiet move_of_quiet trivial (fun _ _ => ?_)
      refine delivers_quiet move_of_quiet trivial (fun kp _ => ?_)
      cases kp with
      | none => exact delivers_failSessionStart ⟨_, _, rfl⟩
      | some kp =>
        refine delivers_quiet move_of_quiet trivial (fun _ _ => ?_)
        exact delivers_connect cfg sess started kp

end Exclusion

end PeerCompute.Agent
