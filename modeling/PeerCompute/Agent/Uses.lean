import PeerCompute.Agent.Daemon
import PeerCompute.Interleaving.History

/-! Which actions the functions of the daemon take, whatever the answers. -/

namespace PeerCompute.Agent

open PeerCompute.Interleaving PeerCompute.Computev1 Prog

/-- The actions by which the port of a container is waited for. -/
def Inspects : Action → Prop
  | .containerInspect _ => True
  | _ => False

theorem Inspects.elim {allowed : Action → Prop} (h : ∀ c, allowed (.containerInspect c)) {a : Action}
    (ha : Inspects a) : allowed a := by
  cases a with
  | containerInspect c => exact h c
  | _ => cases ha

/-- The actions by which a container is started, but for its creation. -/
def Builds : Action → Prop
  | .networkRemove _ | .networkCreate _ _ | .imagePull _ | .containerRemoveNamed _ |
    .containerStart _ => True
  | a => Inspects a

/-- The actions of a negotiation. -/
def Negotiates : Action → Prop
  | .probe _ _ | .newRelayClient _ _ _ _ | .assign _ (.relayCancel _) | .runRelayClient _ |
    .reportConnectionResult _ => True
  | _ => False

/-- The actions by which what runs in a session is stopped. -/
def Undoes : Action → Prop
  | .load _ | .cancel _ | .containerStop _ | .containerRemove _ | .networkRemove _ | .wgDown _ => True
  | _ => False

/-- The actions of a cleanup. -/
def Cleans : Action → Prop
  | .release _ _ | .removeConfig _ _ => True
  | a => Undoes a

/-- The actions of a session that is up, but for what it reports. -/
def Serves : Action → Prop
  | .setConnMode _ _ | .registerProxy _ _ | .runSSHProxy _ _ _ | .reportConnectionResult _ => True
  | _ => False

/-- The actions of a `connect`, but for the config that it writes and what it reports. -/
def Connects : Action → Prop
  | .gatherCandidates _ | .exchangeCandidates _ | .probe _ _ | .newRelayClient _ _ _ _ |
    .assign _ _ | .runRelayClient _ | .reportConnectionResult _ | .wgUp _ | .setConnMode _ _ |
    .registerProxy _ _ | .runSSHProxy _ _ _ => True
  | a => Cleans a

/-- The actions that neither create a container, write a config file nor report a status. -/
def Plain : Action → Prop
  | .containerCreate _ _ _ | .writeConfig _ _ _ | .updateSessionStatus _ => False
  | _ => True

variable {n : Nat}

theorem uses_awaitPort (c : String) (k : Nat) : (awaitPort c k).Uses Inspects := by
  induction k with
  | zero => trivial
  | succ k ih =>
    refine ⟨trivial, fun res => ?_⟩
    cases res with
    | error e => trivial
    | ok inspect =>
      change Uses (S := signature) Inspects (if _ then _ else _)
      split
      · trivial
      split
      · trivial
      · exact ih

theorem uses_relayFallback (cfg : Config) (sessionID : String) (wgPort : Int) (exch : Exchange) :
    (relayFallback n cfg sessionID wgPort exch).Uses Negotiates := by
  unfold relayFallback
  split
  · trivial
  refine ⟨trivial, fun res => ?_⟩
  cases res with
  | false => trivial
  | true => exact ⟨trivial, fun _ => ⟨trivial, fun _ => ⟨trivial, fun _ => trivial⟩⟩⟩

theorem uses_negotiate (cfg : Config) (sessionID : String) (wgPort : Int) (exch : Exchange) :
    (negotiate n cfg sessionID wgPort exch).Uses Negotiates := by
  unfold negotiate
  split
  · exact uses_relayFallback cfg sessionID wgPort exch
  refine ⟨trivial, fun res => ?_⟩
  cases res with
  | some addr => trivial
  | none => exact uses_relayFallback cfg sessionID wgPort exch

theorem builds_of_inspects {a : Action} (ha : Inspects a) : Builds a := ha.elim (fun _ => trivial)

theorem plain_of_builds {a : Action} (ha : Builds a) : Plain a := by
  cases a with
  | containerCreate | updateSessionStatus | writeConfig => cases ha
  | _ => trivial

theorem connects_of_cleans {a : Action} (ha : Cleans a) : Connects a := by
  unfold Connects
  split
  all_goals trivial

theorem connects_of_negotiates {a : Action} (ha : Negotiates a) : Connects a := by
  cases a with
  | probe | newRelayClient | assign | runRelayClient | reportConnectionResult => trivial
  | _ => cases ha

theorem connects_of_serves {a : Action} (ha : Serves a) : Connects a := by
  cases a with
  | setConnMode | registerProxy | runSSHProxy | reportConnectionResult => trivial
  | _ => cases ha

theorem plain_of_connects {a : Action} (ha : Connects a) : Plain a := by
  cases a with
  | containerCreate | updateSessionStatus | writeConfig => cases ha
  | _ => trivial

section

variable {allowed : Action → Prop} (hbuilds : ∀ a, Builds a → allowed a)

include hbuilds

theorem uses_runContainer {opts : StartContainerOpts}
    (hcreate : allowed (.containerCreate n (containerName opts.sessionID) (containerConfig opts)))
    (networkID : String) : (runContainer n opts networkID).Uses allowed := by
  have hremove : ∀ e : CallError, Uses (S := signature) allowed
      (removeSessionNetwork opts.sessionID >>= fun _ => .ret (.error e : Except CallError Started)) :=
    fun e => ⟨hbuilds _ trivial, fun _ => trivial⟩
  refine ⟨hbuilds _ trivial, fun _ => ⟨hcreate, fun res => ?_⟩⟩
  cases res with
  | error e => exact hremove e
  | ok c =>
    refine ⟨hbuilds _ trivial, fun res => ?_⟩
    cases res with
    | error e => exact hremove e
    | ok x =>
      refine ((uses_awaitPort c 20).mono (fun _ ha => hbuilds _ (builds_of_inspects ha))).bind
        (fun res => ?_)
      cases res <;> trivial

theorem uses_startContainer {opts : StartContainerOpts}
    (hcreate : allowed (.containerCreate n (containerName opts.sessionID) (containerConfig opts))) :
    (startContainer n opts).Uses allowed := by
  refine ⟨hbuilds _ trivial, fun _ => ⟨hbuilds _ trivial, fun res => ?_⟩⟩
  cases res with
  | error e => trivial
  | ok networkID =>
    refine ⟨hbuilds _ trivial, fun res => ?_⟩
    cases res with
    | error e => exact ⟨hbuilds _ trivial, fun _ => trivial⟩
    | ok x => exact uses_runContainer hbuilds hcreate networkID

end

theorem cleans_of_undoes {a : Action} (ha : Undoes a) : Cleans a := by
  unfold Cleans
  split
  · trivial
  · trivial
  · exact ha

theorem uses_callRelayCancel (m : Nat) : (callRelayCancel m).Uses Undoes := by
  refine ⟨trivial, fun rs => ?_⟩
  change Uses (S := signature) Undoes (if _ then _ else _)
  split
  · trivial
  · exact ⟨trivial, fun _ => ⟨trivial, fun _ => trivial⟩⟩

theorem uses_stopContainer (containerID sessionID : String) :
    (stopContainer containerID sessionID).Uses Undoes := by
  unfold stopContainer
  split
  · trivial
  refine ⟨trivial, fun _ => ⟨trivial, fun _ => ?_⟩⟩
  change Uses (S := signature) Undoes (if _ then _ else _)
  split
  · trivial
  · exact ⟨trivial, fun _ => trivial⟩

theorem uses_stopRecorded (m : Nat) (sessionID : String) :
    (stopRecorded m sessionID).Uses Undoes := by
  refine ⟨trivial, fun rs => ?_⟩
  change Uses (S := signature) Undoes (if _ then _ else _)
  split
  · trivial
  · exact ⟨trivial, fun rs => uses_stopContainer rs.containerID sessionID⟩

theorem uses_wgDownRecorded (m : Nat) : (wgDownRecorded m).Uses Undoes := by
  refine ⟨trivial, fun rs => ?_⟩
  change Uses (S := signature) Undoes (if _ then _ else _)
  split
  · trivial
  · exact ⟨trivial, fun _ => ⟨trivial, fun _ => trivial⟩⟩

theorem uses_cleanupFailedStart (sessionID : String) :
    (cleanupFailedStart n sessionID).Uses Cleans := by
  refine ⟨trivial, fun _ => ?_⟩
  refine ((uses_callRelayCancel n).mono (fun _ => cleans_of_undoes)).bind (fun _ => ?_)
  refine ((uses_stopRecorded n sessionID).mono (fun _ => cleans_of_undoes)).bind (fun _ => ?_)
  exact ((uses_wgDownRecorded n).mono (fun _ => cleans_of_undoes)).bind
    (fun _ => ⟨trivial, fun _ => trivial⟩)

/-- The options with which a session's container is started. -/
def startOpts (sess : PolledSession) : StartContainerOpts :=
  { sessionID := sess.id, resources := sess.allocated, imageName := sess.image
    gpuCount := sess.allocated.gpuCount.toNat }

/-- The status that is reported when a start has failed. -/
def terminatedReport (sessionID : String) : UpdateSessionStatusRequest :=
  { sessionID := sessionID, status := "terminated" }

section

variable {allowed : Action → Prop} {cfg : Config} {sess : PolledSession}

theorem uses_failSessionStart (hcleans : ∀ a, Cleans a → allowed a) {sessionID : String}
    (hreport : allowed (.updateSessionStatus (terminatedReport sessionID))) :
    (failSessionStart n sessionID).Uses allowed :=
  ((uses_cleanupFailedStart sessionID).mono hcleans).bind (fun _ => ⟨hreport, fun _ => trivial⟩)

theorem uses_serveSession (hserves : ∀ a, Serves a → allowed a)
    (hreport : ∀ req, allowed (.updateSessionStatus req)) (started : Started) (kp : WGKeyPair)
    (wgPort : Int) (link : Link) :
    (serveSession n cfg sess started kp wgPort link).Uses allowed := by
  refine ⟨hserves _ trivial, fun _ => ⟨hserves _ trivial, fun _ => ⟨hserves _ trivial,
    fun _ => ⟨hreport _, fun _ => ?_⟩⟩⟩⟩
  change Uses (S := signature) _ (if _ then _ else _)
  split
  · exact ⟨hserves _ trivial, fun _ => trivial⟩
  · trivial

end

/-- The config file of the session has been written, with the peer's key. -/
def Written (n : Nat) (sess : PolledSession) (l : Journal signature) : Prop :=
  ∃ config : WGConfig, config.peerPublicKey ≠ "" ∧
    ⟨Action.writeConfig n (configPath sess.id) config, .ok ()⟩ ∈ l

theorem Written.head {sess : PolledSession} {l : Journal signature} {config : WGConfig}
    (hkey : config.peerPublicKey ≠ "") :
    Written n sess (l ++ [⟨Action.writeConfig n (configPath sess.id) config, .ok ()⟩]) :=
  ⟨config, hkey, List.mem_append_right _ (.head _)⟩

theorem Written.snoc {sess : PolledSession} {l : Journal signature} (h : Written n sess l)
    (y : Σ a : signature.Act, signature.Res a) : Written n sess (l ++ [y]) := by
  obtain ⟨config, hkey, hmem⟩ := h
  exact ⟨config, hkey, List.mem_append_left _ hmem⟩

section

variable {ok : Journal signature → Action → Prop} {cfg : Config} {sess : PolledSession}
  (hfail : ∀ l, ok l (.updateSessionStatus (terminatedReport sess.id)))
  (hwrite : ∀ config, config.peerPublicKey ≠ "" →
    ∀ l, ok l (.writeConfig n (configPath sess.id) config))

include hfail hwrite

/-- The config is written if the peer's key is there, and nothing but the failure is reported
before. -/
theorem along_connect (hconnects : ∀ l a, Connects a → ok l a) {started : Started} {kp : WGKeyPair}
    (hserve : ∀ link l, Written n sess l →
      (serveSession n cfg sess started kp (wrap (cfg.wgListenPort +
        parseTunnelIndex sess.wgProviderIP)) link).Along ok (fun _ _ => True) l)
    (l : Journal signature) : (connect n cfg sess started kp).Along ok (fun _ _ => True) l := by
  have hfailed := (uses_failSessionStart (n := n)
    (fun a ha l => hconnects l a (connects_of_cleans ha)) hfail).along_always
  unfold connect
  dsimp only
  split
  · exact hfailed l
  refine ⟨hconnects _ _ trivial, fun _ => ⟨hconnects _ _ trivial, fun exch => ?_⟩⟩
  change Along (S := signature) _ _ (if _ then _ else _) _
  split
  · exact hfailed _
  next hkey =>
    have hnegotiate := (uses_negotiate (n := n) cfg sess.id
      (wrap (cfg.wgListenPort + parseTunnelIndex sess.wgProviderIP)) (exch.getD {})).mono
        (fun a ha l => hconnects l a (connects_of_negotiates ha))
    refine ((hnegotiate.along_always _).mono (fun link l _ => ⟨hwrite _ hkey l, fun res => ?_⟩)).bind
    cases res with
    | error e => exact hfailed _
    | ok x =>
      refine ⟨hconnects _ _ trivial, fun _ => ⟨hconnects _ _ trivial, fun res => ?_⟩⟩
      cases res with
      | error e => exact hfailed _
      | ok x =>
        refine hserve link _ (((Written.head ?_).snoc _).snoc _)
        exact hkey

/-- What `startSession` does besides plain actions: it creates the container of the session, writes a
config file with the peer's key, and reports. -/
theorem along_startSession (hplain : ∀ l a, Plain a → ok l a)
    (hreport : ∀ req l, Written n sess l → ok l (.updateSessionStatus req))
    (hcreate : ∀ l,
      ok l (.containerCreate n (containerName sess.id) (containerConfig (startOpts sess)))) :
    (startSession n cfg sess).Along ok (fun _ _ => True) [] := by
  have hconnects : ∀ l a, Connects a → ok l a := fun l a ha => hplain l a (plain_of_connects ha)
  have hfailed := (uses_failSessionStart (n := n)
    (fun a ha l => hconnects l a (connects_of_cleans ha)) hfail).along_always
  refine ⟨hplain _ _ trivial, fun reserved => ?_⟩
  cases reserved with
  | false => trivial
  | true =>
    have hstart : (startContainer n (startOpts sess)).Uses (fun a => ∀ l, ok l a) :=
      uses_startContainer (fun a ha l => hplain l a (plain_of_builds ha)) hcreate
    refine ((hstart.along_always _).mono (fun res l _ => ?_)).bind
    cases res with
    | error e => exact hfailed l
    | ok started =>
      refine ⟨hplain _ _ trivial, fun _ => ⟨hplain _ _ trivial, fun _ => ⟨hplain _ _ trivial,
        fun kp => ?_⟩⟩⟩
      cases kp with
      | none => exact hfailed _
      | some kp =>
        refine ⟨hplain _ _ trivial, fun _ => along_connect hfail hwrite hconnects ?_ _⟩
        intro link l hwritten
        have hserve : (serveSession n cfg sess started kp (wrap (cfg.wgListenPort +
            parseTunnelIndex sess.wgProviderIP)) link).Uses
              (fun a => ∀ l, Written n sess l → ok l a) :=
          uses_serveSession (fun a ha l _ => hconnects l a (connects_of_serves ha)) hreport started kp _
            link
        exact (hserve.along (fun _ ha l hl => ha l hl) (fun _ _ _ hl r => hl.snoc ⟨_, r⟩)
          hwritten).mono (fun _ _ _ => trivial)

end

theorem uses_startSession {allowed : Action → Prop} {cfg : Config} {sess : PolledSession}
    (hplain : ∀ a, Plain a → allowed a) (hreport : ∀ req, allowed (.updateSessionStatus req))
    (hcreate : allowed (.containerCreate n (containerName sess.id) (containerConfig (startOpts sess))))
    (hwrite : ∀ config, config.peerPublicKey ≠ "" →
      allowed (.writeConfig n (configPath sess.id) config)) :
    (startSession n cfg sess).Uses allowed :=
  (along_startSession (fun _ => hreport _) (fun config hkey _ => hwrite config hkey)
    (fun _ a ha => hplain a ha) (fun req _ _ => hreport req) (fun _ => hcreate)).uses

end PeerCompute.Agent
