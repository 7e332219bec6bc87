import PeerCompute.Agent.Daemon
import PeerCompute.Interleaving.Contract

/-! What the daemon has started and still keeps track of: the part that each goroutine has in it. -/

namespace PeerCompute.Agent

open PeerCompute.Data PeerCompute.Interleaving PeerCompute.Computev1 Prog Contract

/-- What a session leaves on the machine if nobody removes it. -/
inductive Resource
  | container (id : String)
  | interface (name : String)
  | proxy (attempt : Nat)
  deriving DecidableEq

/-- An SSH proxy that has been cancelled is gone. -/
def Host.Has (s : Host) : Resource → Prop
  | .container id => (s.containers.lookup id).isSome = true
  | .interface name => name ∈ s.interfaces
  | .proxy n => n ∈ s.proxies ∧ ⟨n, .sshProxy⟩ ∉ s.cancelled

/-- The `runningSession` says what is to be removed. -/
def RunningSession.Records (rs : RunningSession) : Resource → Prop
  | .container id => rs.containerID = id ∧ id ≠ ""
  | .interface name => rs.wgConfPath ≠ "" ∧ ifaceFromPath rs.wgConfPath = name
  | .proxy n => ⟨n, .sshProxy⟩ ∈ rs.relayCancel.getD []

/-- The resource belongs to an entry of `d.sessions`. -/
def Host.Belongs (s : Host) (r : Resource) : Prop :=
  ∃ id m rs, s.sessions.lookup id = some m ∧ s.objects.lookup m = some rs ∧ rs.Records r

def failure {α : Type} : Except CallError α → Option CallError
  | .error e => some e
  | .ok _ => none

theorem failure_eq_none {α : Type} {r : Except CallError α} (h : failure r = none) :
    ∃ x, r = .ok x := by
  cases r with
  | error e => cases h
  | ok x => exact ⟨x, rfl⟩

/-- The error that Docker or wg-quick has answered with. -/
def Action.error : (a : Action) → a.Res → Option CallError
  | .networkRemove _, (r : Except CallError Unit) | .imagePull _, (r : Except CallError Unit)
  | .containerRemoveNamed _, (r : Except CallError Unit)
  | .containerStart _, (r : Except CallError Unit) | .containerStop _, (r : Except CallError Unit)
  | .containerRemove _, (r : Except CallError Unit) | .wgUp _, (r : Except CallError Unit)
  | .wgDown _, (r : Except CallError Unit) => failure r
  | .networkCreate _ _, (r : Except CallError String)
  | .containerCreate _ _ _, (r : Except CallError String) => failure r
  | .containerInspect _, (r : Except CallError Inspection) => failure r
  | _, _ => none

def Action.removes : Action → Bool
  | .networkRemove _ | .containerRemoveNamed _ | .containerStop _ | .containerRemove _ |
    .wgDown _ => true
  | _ => false

/-- Docker and wg-quick do what they are asked for; what is to be removed may be gone already. -/
def Succeeds (a : Action) (res : a.Res) : Prop :=
  a.error res = none ∨ a.removes = true ∧ a.error res = some .notFound

theorem Succeeds.made {a : Action} {res : a.Res} (h : Succeeds a res) (ha : a.removes = false) :
    a.error res = none :=
  h.resolve_right (fun h' => by rw [ha] at h'; cases h'.1)

theorem Succeeds.removed {a : Action} {res : a.Res} (h : Succeeds a res) :
    a.error res ≠ some .refused := by
  intro heq
  obtain h | ⟨-, h⟩ := h <;> rw [heq] at h <;> cases h

/-- A container is seen to have exited. -/
def Action.exited : (a : Action) → a.Res → Bool
  | .containerInspect _, (.ok inspect : Except CallError Inspection) => !inspect.running
  | _, _ => false

/-- The `runningSession` that a `stopSession` takes out of the map. -/
def Action.takes (s : Host) : Action → Option Nat
  | .take id => s.sessions.lookup id
  | _ => none

/-- A container keeps running while its port is waited for, and a session is stopped only when its
SSH proxy has been registered. -/
structure Ripe (a : Action) (s : Host) (res : a.Res) : Prop where
  running : a.exited res = false
  registered : ∀ m ∈ a.takes s, ∃ rs ∈ s.objects.lookup m, ⟨m, .sshProxy⟩ ∈ rs.relayCancel.getD []

instance (a : Action) (res : a.Res) : Decidable (Succeeds a res) :=
  inferInstanceAs (Decidable (_ ∨ _ ∧ _))

instance (a : Action) (s : Host) (res : a.Res) : Decidable (Ripe a s res) :=
  decidable_of_iff (a.exited res = false ∧
      ∀ m ∈ a.takes s, ∃ rs ∈ s.objects.lookup m, ⟨m, .sshProxy⟩ ∈ rs.relayCancel.getD [])
    ⟨fun h => ⟨h.1, h.2⟩, fun h => ⟨h.1, h.2⟩⟩

namespace Custody

/-- What a `stopSession` still has to do with the `runningSession` that it has taken. -/
inductive Duty
  | cancel
  | container
  | interface
  deriving DecidableEq

def Duty.of : Resource → Duty
  | .container _ => .container
  | .interface _ => .interface
  | .proxy _ => .cancel

/-- There is something to be done. -/
def Duty.Due (rs : RunningSession) : Duty → Prop
  | .cancel => rs.relayCancel ≠ none
  | .container => rs.containerID ≠ ""
  | .interface => rs.wgConfPath ≠ ""

instance (rs : RunningSession) : (d : Duty) → Decidable (d.Due rs)
  | .cancel => inferInstanceAs (Decidable (rs.relayCancel ≠ none))
  | .container => inferInstanceAs (Decidable (rs.containerID ≠ ""))
  | .interface => inferInstanceAs (Decidable (rs.wgConfPath ≠ ""))

def duties : List Duty := [.cancel, .container, .interface]

theorem mem_duties (d : Duty) : d ∈ duties := by
  cases d <;> decide

/-- The fields that are read when a session is stopped. -/
structure Alike (rs rs' : RunningSession) : Prop where
  containerID : rs'.containerID = rs.containerID
  wgConfPath : rs'.wgConfPath = rs.wgConfPath
  relayCancel : rs'.relayCancel = rs.relayCancel

/-- What a goroutine is answerable for.  `starting` holds what it has assigned so far, and the
container that it has made and not yet recorded. -/
inductive Part
  | free
  | fresh (n : Nat)
  | starting (n : Nat) (id : String) (made : Option String) (rs : RunningSession)
  | registered (n : Nat)
  | holding (m : Nat) (rs : Option RunningSession) (ds : List Duty)

/-- The actions that start nothing, and touch neither the map nor the fields that are read when a
session is stopped. -/
def Quiet : Action → Prop
  | .reserve _ _ | .release _ _ | .take _ | .registerProxy _ _ | .assign _ _ | .runSSHProxy _ _ _ |
    .containerCreate _ _ _ | .wgUp _ => False
  | _ => True

/-- The assignments of a `startSession`, each made once. -/
def Assignable (n : Nat) (rs : RunningSession) : Option String → Assign → Option String → Prop
  | made, .containerID c, made' => made = some c ∧ made' = none ∧ rs.containerID = ""
  | made, .wgConfPath p, made' => made' = made ∧ rs.wgConfPath = "" ∧ p ≠ ""
  | made, .relayCancel cs, made' => made' = made ∧ rs.relayCancel = none ∧ ⟨n, .sshProxy⟩ ∉ cs
  | made, _, made' => made' = made

inductive Move : Part → (a : Action) → a.Res → Part → Prop
  | quiet {g : Part} {a : Action} {res : a.Res} (ha : Quiet a) : Move g a res g
  | reserve {n : Nat} {id : String} : Move (.fresh n) (.reserve n id) true (.starting n id none {})
  | present {n : Nat} {id : String} : Move (.fresh n) (.reserve n id) false .free
  | create {n n' : Nat} {id name c : String} {rs : RunningSession} {config : ContainerConfig} :
      Move (.starting n id none rs) (.containerCreate n' name config) (.ok c)
        (.starting n id (some c) rs)
  | assign {n : Nat} {id : String} {made made' : Option String} {rs : RunningSession} {a : Assign}
      {res : Unit} (ha : Assignable n rs made a made') :
      Move (.starting n id made rs) (.assign n a) res (.starting n id made' (a.apply rs))
  | wgUp {n : Nat} {id : String} {rs : RunningSession} (hp : rs.wgConfPath ≠ "") :
      Move (.starting n id none rs) (.wgUp rs.wgConfPath) (.ok ()) (.starting n id none rs)
  | release {n : Nat} {id : String} {rs : RunningSession} {res : Unit} :
      Move (.starting n id none rs) (.release n id) res (.holding n none duties)
  | register {n : Nat} {id : String} {rs : RunningSession} {res : Unit} :
      Move (.starting n id none rs) (.registerProxy n id) res (.registered n)
  | proxy {n : Nat} {ip port : String} {res : Unit} :
      Move (.registered n) (.runSSHProxy n ip port) res .free
  | take {id : String} {m : Nat} : Move .free (.take id) (some m) (.holding m none duties)
  | absent {id : String} : Move .free (.take id) none .free
  | load {m : Nat} {rs₀ : Option RunningSession} {ds : List Duty} {rs : RunningSession} :
      Move (.holding m rs₀ ds) (.load m) rs (.holding m (some rs) (ds.filter (·.Due rs)))
  | cancel {m : Nat} {ds : List Duty} {rs : RunningSession} {res : Unit} :
      Move (.holding m (some rs) ds) (.cancel (rs.relayCancel.getD [])) res
        (.holding m (some rs) (ds.filter (· ≠ .cancel)))
  | container {m : Nat} {ds : List Duty} {rs : RunningSession} {res : Except CallError Unit} :
      Move (.holding m (some rs) ds) (.containerRemove rs.containerID) res
        (.holding m (some rs) (ds.filter (· ≠ .container)))
  | interface {m : Nat} {ds : List Duty} {rs : RunningSession} {res : Except CallError Unit} :
      Move (.holding m (some rs) ds) (.wgDown rs.wgConfPath) res
        (.holding m (some rs) (ds.filter (· ≠ .interface)))
  | drop {m : Nat} {rs : Option RunningSession} {cleanup : Option Nat} {path : String}
      {res : Except CallError Unit} : Move (.holding m rs []) (.removeConfig cleanup path) res .free

def contract : Contract signature Still Part where
  Answers _ a res := Succeeds a res ∧ a.exited res = false
  Move _ g a res _ g' := Move g a res g'
  Done g := g = .free

variable {g : Part} {n m : Nat} {id : String} {rs : RunningSession} {w : Still}

/-! What the functions of the daemon do, one after the other. -/

theorem move_of_quiet {a : Action} {res : a.Res} (ha : Quiet a) : contract.Move w g a res w g :=
  .quiet ha

theorem delivers_awaitPort (c : String) (k : Nat) {g : Part} :
    contract.Delivers (fun g' x => g' = g ∧ ∃ port, x = .ok port) w g (awaitPort c k) := by
  induction k with
  | zero => exact delivers_ret.mpr ⟨rfl, "", rfl⟩
  | succ k ih =>
    refine delivers_quiet move_of_quiet trivial (fun res ⟨hres, hup⟩ => ?_)
    obtain ⟨inspect, rfl⟩ := failure_eq_none (hres.made rfl)
    have hrunning : inspect.running = true := by simpa [Action.exited] using hup
    dsimp only
    rw [if_neg (by simp [hrunning])]
    split
    · exact delivers_ret.mpr ⟨rfl, _, rfl⟩
    · exact ih

/-- A container that has been started is the one that is still to be recorded. -/
theorem delivers_startContainer (opts : StartContainerOpts) :
    contract.Delivers
      (fun g x => ∃ started : Started,
        x = .ok started ∧ g = .starting n id (some started.containerID) rs)
      w (.starting n id none rs) (startContainer n opts) := by
  unfold startContainer createSessionNetwork
  rw [bind_assoc]
  refine delivers_quiet move_of_quiet trivial (fun _ _ => ?_)
  refine delivers_quiet move_of_quiet trivial (fun res ⟨hres, _⟩ => ?_)
  obtain ⟨networkID, rfl⟩ := failure_eq_none (hres.made rfl)
  refine delivers_quiet move_of_quiet trivial (fun res ⟨hres, _⟩ => ?_)
  obtain ⟨_, rfl⟩ := failure_eq_none (hres.made rfl)
  unfold runContainer
  refine delivers_quiet move_of_quiet trivial (fun _ _ => ?_)
  apply delivers_move
  intro res ⟨hres, _⟩
  obtain ⟨c, rfl⟩ := failure_eq_none (hres.made rfl)
  refine ⟨_, .create, ?_⟩
  refine delivers_quiet move_of_quiet trivial (fun res ⟨hres, _⟩ => ?_)
  obtain ⟨_, rfl⟩ := failure_eq_none (hres.made rfl)
  refine Delivers.seq (delivers_awaitPort c 20) ?_
  rintro w g x ⟨rfl, port, rfl⟩
  exact delivers_ret.mpr ⟨⟨c, networkID, port⟩, rfl, rfl⟩

/-- What is left to do after `d` has been done. -/
def Left (m : Nat) (ds : List Duty) (d : Duty) (g : Part) : Prop :=
  ∃ rs ds', g = .holding m (some rs) ds' ∧ ∀ d' ∈ ds', d' ∈ ds ∧ d' ≠ d

theorem mem_due {ds : List Duty} {d : Duty} (h : d ∈ ds.filter (·.Due rs)) : d ∈ ds ∧ d.Due rs := by
  simpa using h

theorem Left.of_due {rs' : RunningSession} {ds : List Duty} {d : Duty}
    (h : Left m (ds.filter (·.Due rs')) d g) : Left m ds d g := by
  obtain ⟨rs, ds', rfl, hds⟩ := h
  exact ⟨rs, ds', rfl, fun d' hd => ⟨(mem_due (hds d' hd).1).1, (hds d' hd).2⟩⟩

theorem left_of_not_due {ds : List Duty} {d : Duty} (h : ¬d.Due rs) :
    Left m ds d (.holding m (some rs) (ds.filter (·.Due rs))) := by
  refine ⟨rs, _, rfl, fun d' hd => ⟨(mem_due hd).1, ?_⟩⟩
  rintro rfl
  exact h (mem_due hd).2

theorem left_of_done (rs : RunningSession) (ds : List Duty) (d : Duty) :
    Left m ds d (.holding m (some rs) (ds.filter (· ≠ d))) := by
  refine ⟨rs, _, rfl, fun d' hd => ?_⟩
  obtain ⟨hd, hne⟩ := List.mem_filter.mp hd
  exact ⟨hd, of_decide_eq_true hne⟩

theorem delivers_load {rs₀ : Option RunningSession} {ds : List Duty} {d : Duty}
    {f : RunningSession → Prog signature Unit}
    (h : ∀ rs, contract.Delivers (fun g _ => Left m (ds.filter (·.Due rs)) d g ∨ Left m ds d g) w
      (.holding m (some rs) (ds.filter (·.Due rs))) (f rs)) :
    contract.Delivers (fun g _ => Left m ds d g) w (.holding m rs₀ ds) (Call.load m >>= f) := by
  refine delivers_move (fun rs _ => ⟨_, .load, (h rs).imp ?_⟩)
  rintro g _ (hleft | hleft)
  · exact hleft.of_due
  · exact hleft

theorem delivers_callRelayCancel {rs₀ : Option RunningSession} {ds : List Duty} :
    contract.Delivers (fun g _ => Left m ds .cancel g) w (.holding m rs₀ ds)
      (callRelayCancel m) := by
  refine delivers_load (fun rs => ?_)
  split
  next hnone => exact delivers_ret.mpr (.inr (left_of_not_due (fun hdue => hdue hnone)))
  next =>
    refine Delivers.imp (fun _ _ => .inl) (delivers_load (fun rs' => ?_))
    exact delivers_move (fun _ _ => ⟨_, .cancel, delivers_ret.mpr (.inl (left_of_done _ _ _))⟩)

/-- `StopContainer` with the ID that has just been read. -/
theorem delivers_stopContainer {ds : List Duty} (sessionID : String) :
    contract.Delivers (fun g _ => Left m (ds.filter (·.Due rs)) .container g ∨
        Left m ds .container g) w (.holding m (some rs) (ds.filter (·.Due rs)))
      (stopContainer rs.containerID sessionID) := by
  unfold stopContainer
  split
  next hempty => exact delivers_ret.mpr (.inr (left_of_not_due (fun hdue => hdue hempty)))
  next =>
    refine delivers_quiet move_of_quiet trivial (fun _ _ => ?_)
    refine delivers_move (fun _ _ => ⟨_, .container, ?_⟩)
    have hleft := left_of_done (m := m) rs (ds.filter (·.Due rs)) .container
    split
    · exact delivers_ret.mpr (.inl hleft)
    · exact delivers_quietly move_of_quiet ⟨trivial, fun _ => trivial⟩ (fun _ => .inl hleft)

theorem delivers_stopRecorded {rs₀ : Option RunningSession} {ds : List Duty} (sessionID : String) :
    contract.Delivers (fun g _ => Left m ds .container g) w (.holding m rs₀ ds)
      (stopRecorded m sessionID) := by
  refine delivers_load (fun rs => ?_)
  split
  next hempty => exact delivers_ret.mpr (.inr (left_of_not_due (fun hdue => hdue hempty)))
  next => exact Delivers.imp (fun _ _ => .inl) (delivers_load (fun _ => delivers_stopContainer _))

theorem delivers_wgDownRecorded {rs₀ : Option RunningSession} {ds : List Duty} :
    contract.Delivers (fun g _ => Left m ds .interface g) w (.holding m rs₀ ds)
      (wgDownRecorded m) := by
  refine delivers_load (fun rs => ?_)
  split
  next hempty => exact delivers_ret.mpr (.inr (left_of_not_due (fun hdue => hdue hempty)))
  next =>
    refine Delivers.imp (fun _ _ => .inl) (delivers_load (fun rs' => ?_))
    exact delivers_move (fun _ _ => ⟨_, .interface, delivers_ret.mpr (.inl (left_of_done _ _ _))⟩)

/-- The three steps by which a session is stopped leave nothing to be done. -/
theorem delivers_torn {stop : Prog signature Unit} (cleanup : Option Nat) (path : String)
    (rest : Prog signature Unit) (hrest : rest.Uses Quiet)
    (hstop : ∀ {w rs₀ ds}, contract.Delivers (fun g _ => Left m ds .container g) w
      (.holding m rs₀ ds) stop) :
    contract.Delivers (fun g _ => g = .free) w (.holding m none duties) (do
      callRelayCancel m
      stop
      wgDownRecorded m
      let _ ← Call.removeConfig cleanup path
      rest) := by
  refine Delivers.seq delivers_callRelayCancel ?_
  rintro w g _ ⟨rs, ds, rfl, hds⟩
  refine Delivers.seq hstop ?_
  rintro w g _ ⟨rs', ds', rfl, hds'⟩
  refine Delivers.seq delivers_wgDownRecorded ?_
  rintro w g _ ⟨rs'', ds'', rfl, hds''⟩
  have hempty : ds'' = [] := by
    refine List.eq_nil_iff_forall_not_mem.mpr (fun d hd => ?_)
    obtain ⟨hd, hinterface⟩ := hds'' d hd
    obtain ⟨hd, hcontainer⟩ := hds' d hd
    obtain ⟨-, hcancel⟩ := hds d hd
    cases d with
    | cancel => exact hcancel rfl
    | container => exact hcontainer rfl
    | interface => exact hinterface rfl
  subst hempty
  exact delivers_move (fun _ _ => ⟨_, .drop, delivers_quietly move_of_quiet hrest (fun _ => rfl)⟩)

theorem delivers_failSessionStart :
    contract.Delivers (fun g _ => g = .free) w (.starting n id none rs) (failSessionStart n id) := by
  unfold failSessionStart cleanupFailedStart
  simp only [bind_assoc]
  refine delivers_move (fun _ _ => ⟨_, .release, ?_⟩)
  exact delivers_torn _ _ _ ⟨trivial, fun _ => trivial⟩ (delivers_stopRecorded id)

theorem delivers_stopSession (id : String) :
    contract.Delivers (fun g _ => g = .free) w .free (stopSession id) := by
  apply delivers_move
  intro res _
  cases res with
  | none => exact ⟨_, .absent, delivers_ret.mpr rfl⟩
  | some m =>
    refine ⟨_, .take, ?_⟩
    have hstop : ∀ {w rs₀ ds}, contract.Delivers (fun g _ => Left m ds .container g) w
        (.holding m rs₀ ds) (Call.load m >>= fun rs => stopContainer rs.containerID id) :=
      delivers_load (fun _ => delivers_stopContainer id)
    have htorn := delivers_torn (w := w) none (configPath id)
      (updateStatus id "terminated" "" "" "" "") ⟨trivial, fun _ => trivial⟩ hstop
    simp only [bind_assoc] at htorn
    exact htorn

theorem delivers_relayFallback (cfg : Config) (sessionID : String) (wgPort : Int) (exch : Exchange)
    (hrelay : rs.relayCancel = none) :
    contract.Delivers (fun g _ => ∃ rs', g = .starting n id none rs' ∧
        rs'.wgConfPath = rs.wgConfPath) w (.starting n id none rs)
      (relayFallback n cfg sessionID wgPort exch) := by
  have hdirect : contract.Delivers (fun g _ => ∃ rs', g = .starting n id none rs' ∧
      rs'.wgConfPath = rs.wgConfPath) w (.starting n id none rs) (.ret direct) :=
    delivers_ret.mpr ⟨rs, rfl, rfl⟩
  unfold relayFallback
  split
  · exact hdirect
  refine delivers_quiet move_of_quiet trivial (fun res _ => ?_)
  cases res with
  | false => exact hdirect
  | true =>
    refine delivers_move (fun _ _ => ⟨_, .assign ⟨rfl, hrelay, by simp⟩, ?_⟩)
    exact delivers_quietly move_of_quiet ⟨trivial, fun _ => ⟨trivial, fun _ => trivial⟩⟩
      (fun _ => ⟨_, rfl, rfl⟩)

theorem delivers_negotiate (cfg : Config) (sessionID : String) (wgPort : Int) (exch : Exchange)
    (hrelay : rs.relayCancel = none) :
    contract.Delivers (fun g _ => ∃ rs', g = .starting n id none rs' ∧
        rs'.wgConfPath = rs.wgConfPath) w (.starting n id none rs)
      (negotiate n cfg sessionID wgPort exch) := by
  have hfallback : contract.Delivers (fun g _ => ∃ rs', g = .starting n id none rs' ∧
      rs'.wgConfPath = rs.wgConfPath) w (.starting n id none rs)
      (relayFallback n cfg sessionID wgPort exch) :=
    delivers_relayFallback cfg sessionID wgPort exch hrelay
  unfold negotiate
  split
  · exact hfallback
  refine delivers_quiet move_of_quiet trivial (fun res _ => ?_)
  cases res with
  | some addr => exact delivers_ret.mpr ⟨rs, rfl, rfl⟩
  | none => exact hfallback

theorem delivers_serveSession (cfg : Config) (sess : PolledSession) (started : Started)
    (kp : WGKeyPair) (wgPort : Int) (link : Link) :
    contract.Delivers (fun g _ => g = .free) w (.starting n sess.id none rs)
      (serveSession n cfg sess started kp wgPort link) := by
  refine delivers_quiet move_of_quiet trivial (fun _ _ => ?_)
  refine delivers_move (fun _ _ => ⟨_, .register, ?_⟩)
  refine delivers_move (fun _ _ => ⟨_, .proxy, ?_⟩)
  refine delivers_quiet move_of_quiet trivial (fun _ _ => ?_)
  split
  · exact delivers_quietly move_of_quiet ⟨trivial, fun _ => trivial⟩ (fun _ => rfl)
  · exact delivers_ret.mpr rfl

theorem configPath_ne (sessionID : String) : configPath sessionID ≠ "" := by
  unfold configPath
  intro h
  exact absurd (String.append_eq_empty_iff.mp h).2 (by decide)

theorem delivers_activate (cfg : Config) (sess : PolledSession) (started : Started)
    (kp : WGKeyPair) (wgPort : Int) (peerWGKey : String) (link : Link)
    (hpath : rs.wgConfPath = "") :
    contract.Delivers (fun g _ => g = .free) w (.starting n sess.id none rs)
      (activate n cfg sess started kp wgPort peerWGKey link) := by
  refine delivers_quiet move_of_quiet trivial (fun res _ => ?_)
  cases res with
  | error e => exact delivers_failSessionStart
  | ok u =>
    refine delivers_move (fun _ _ => ⟨_, .assign ⟨rfl, hpath, configPath_ne _⟩, ?_⟩)
    refine delivers_move (fun res hres => ?_)
    obtain ⟨_, rfl⟩ := failure_eq_none (hres.1.made rfl)
    exact ⟨_, .wgUp (configPath_ne _), delivers_serveSession cfg sess started kp wgPort link⟩

theorem delivers_connect (cfg : Config) (sess : PolledSession) (started : Started)
    (kp : WGKeyPair) (hpath : rs.wgConfPath = "") (hrelay : rs.relayCancel = none) :
    contract.Delivers (fun g _ => g = .free) w (.starting n sess.id none rs)
      (connect n cfg sess started kp) := by
  unfold connect
  dsimp only
  split
  · exact delivers_failSessionStart
  refine delivers_quiet move_of_quiet trivial (fun candidates _ => ?_)
  refine delivers_quiet move_of_quiet trivial (fun exch _ => ?_)
  split
  · exact delivers_failSessionStart
  refine Delivers.seq (delivers_negotiate cfg sess.id _ _ hrelay) ?_
  rintro w g link ⟨rs', rfl, hpath'⟩
  exact delivers_activate cfg sess started kp _ _ link (hpath'.trans hpath)

theorem delivers_startSession (cfg : Config) (sess : PolledSession) :
    contract.Delivers (fun g _ => g = .free) w (.fresh n) (startSession n cfg sess) := by
  apply delivers_move
  intro res _
  cases res with
  | false => exact ⟨_, .present, delivers_ret.mpr rfl⟩
  | true =>
    refine ⟨_, .reserve, Delivers.seq (delivers_startContainer _) ?_⟩
    rintro w g x ⟨started, rfl, rfl⟩
    refine delivers_move (fun _ _ => ⟨_, .assign ⟨rfl, rfl, rfl⟩, ?_⟩)
    refine delivers_move (fun _ _ => ⟨_, .assign rfl, ?_⟩)
    refine delivers_quiet move_of_quiet trivial (fun kp _ => ?_)
    cases kp with
    | none => exact delivers_failSessionStart
    | some kp =>
      refine delivers_move (fun _ _ => ⟨_, .assign rfl, ?_⟩)
      exact delivers_connect cfg sess started kp rfl rfl

theorem delivers_stopAll (ids : List String) :
    contract.Delivers (fun g _ => g = .free) w .free (stopAll ids) := by
  induction ids with
  | nil => exact delivers_ret.mpr rfl
  | cons id ids ih =>
    refine Delivers.seq (delivers_stopSession id) ?_
    rintro w g _ rfl
    exact ih

theorem delivers_cleanup : contract.Delivers (fun g _ => g = .free) w .free cleanup := by
  refine delivers_quiet move_of_quiet trivial (fun _ _ => ?_)
  refine delivers_quiet move_of_quiet trivial (fun ids _ => ?_)
  exact delivers_stopAll ids

theorem uses_spawnStops (ids : List String) : (spawnStops ids).Uses Quiet := by
  induction ids with
  | nil => trivial
  | cons id ids ih => exact ⟨trivial, fun _ => ih⟩

theorem uses_heartbeatRound : heartbeatRound.Uses Quiet := by
  refine ⟨trivial, fun ids => ⟨trivial, fun res => ?_⟩⟩
  cases res with
  | none => trivial
  | some ids => exact uses_spawnStops ids

end Custody

end PeerCompute.Agent
