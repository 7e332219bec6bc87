import PeerCompute.Agent.Uses

/-! What the daemon does because the registry has told it so. -/

namespace PeerCompute.Agent

open PeerCompute.Interleaving PeerCompute.Computev1 Prog

/-- A session is started because a poll has listed it, and stopped because the reply to a heartbeat
has asked for it. -/
def Ordered (before : Journal signature) : Action → Prop
  | .go (.startSession sess) =>
    ∃ sessions, ⟨Action.listPending, some sessions⟩ ∈ before ∧ sess ∈ sessions
  | .go (.stopSession id) =>
    ∃ active terminate, ⟨Action.heartbeat active, some terminate⟩ ∈ before ∧ id ∈ terminate
  | _ => True

theorem along_spawnStarts {sessions rest : List PolledSession} {l : Journal signature}
    (hl : ⟨Action.listPending, some sessions⟩ ∈ l) (hrest : ∀ sess ∈ rest, sess ∈ sessions) :
    (spawnStarts rest).Along Ordered (fun _ _ => True) l := by
  induction rest generalizing l with
  | nil => trivial
  | cons sess rest ih =>
    have htail : ∀ sess ∈ rest, sess ∈ sessions := fun sess h => hrest sess (.tail _ h)
    refine ⟨trivial, fun tracked => ?_⟩
    have hl' := List.mem_append_left [⟨Action.tracked sess.id, tracked⟩] hl
    cases tracked with
    | true => exact ih hl' htail
    | false =>
      exact ⟨⟨sessions, hl', hrest sess (.head _)⟩, fun _ => ih (List.mem_append_left _ hl') htail⟩

theorem along_pollRound : pollRound.Along Ordered (fun _ _ => True) [] := by
  refine ⟨trivial, fun res => ?_⟩
  cases res with
  | none => trivial
  | some sessions => exact along_spawnStarts (.head _) (fun _ h => h)

theorem along_spawnStops {active terminate rest : List String} {l : Journal signature}
    (hl : ⟨Action.heartbeat active, some terminate⟩ ∈ l) (hrest : ∀ id ∈ rest, id ∈ terminate) :
    (spawnStops rest).Along Ordered (fun _ _ => True) l := by
  induction rest generalizing l with
  | nil => trivial
  | cons id rest ih =>
    exact ⟨⟨active, terminate, hl, hrest id (.head _)⟩, fun _ =>
      ih (List.mem_append_left _ hl) (fun id h => hrest id (.tail _ h))⟩

theorem along_heartbeatRound : heartbeatRound.Along Ordered (fun _ _ => True) [] := by
  refine ⟨trivial, fun active => ⟨trivial, fun res => ?_⟩⟩
  cases res with
  | none => trivial
  | some terminate => exact along_spawnStops (.tail _ (.head _)) (fun _ h => h)

section

variable {allowed : Action → Prop} (hcleans : ∀ a, Cleans a → allowed a)

include hcleans

theorem uses_tearDown (m : Nat) {sessionID : String}
    (hreport : allowed (.updateSessionStatus (terminatedReport sessionID))) :
    (tearDown m sessionID).Uses allowed := by
  have hundoes : ∀ {p : Prog signature Unit}, p.Uses Undoes → p.Uses allowed :=
    fun hp => hp.mono (fun a ha => hcleans a (cleans_of_undoes ha))
  refine (hundoes (uses_callRelayCancel m)).bind (fun _ => ?_)
  refine ⟨hcleans _ trivial, fun rs => ?_⟩
  refine (hundoes (uses_stopContainer rs.containerID sessionID)).bind (fun _ => ?_)
  exact (hundoes (uses_wgDownRecorded m)).bind
    (fun _ => ⟨hcleans _ trivial, fun _ => ⟨hreport, fun _ => trivial⟩⟩)

theorem uses_stopSession {sessionID : String} (htake : allowed (.take sessionID))
    (hreport : allowed (.updateSessionStatus (terminatedReport sessionID))) :
    (stopSession sessionID).Uses allowed := by
  refine ⟨htake, fun m => ?_⟩
  cases m with
  | none => trivial
  | some m => exact uses_tearDown hcleans m hreport

theorem uses_stopAll (htake : ∀ id, allowed (.take id))
    (hreport : ∀ id, allowed (.updateSessionStatus (terminatedReport id))) (ids : List String) :
    (stopAll ids).Uses allowed := by
  induction ids with
  | nil => trivial
  | cons id ids ih => exact (uses_stopSession hcleans (htake id) (hreport id)).bind (fun _ => ih)

theorem uses_cleanup (htake : ∀ id, allowed (.take id))
    (hreport : ∀ id, allowed (.updateSessionStatus (terminatedReport id)))
    (hrun : allowed .cancelRun) (hids : allowed .sessionIDs) : cleanup.Uses allowed :=
  ⟨hrun, fun _ => ⟨hids, fun ids => uses_stopAll hcleans htake hreport ids⟩⟩

end

/-- The actions by which a session is stopped. -/
def Stops (sessionID : String) : Action → Prop
  | .take id => id = sessionID
  | .updateSessionStatus req => req = terminatedReport sessionID
  | a => Cleans a

/-- The actions of a shutdown. -/
def Closes : Action → Prop
  | .cancelRun | .sessionIDs => True
  | a => ∃ id, Stops id a

/-- The actions of a round of `heartbeatLoop`. -/
def Beats : Action → Prop
  | .sessionIDs | .heartbeat _ | .go (.stopSession _) => True
  | _ => False

theorem stops_of_cleans {sessionID : String} {a : Action} (ha : Cleans a) : Stops sessionID a := by
  cases a with
  | take | updateSessionStatus => cases ha
  | _ => exact ha

theorem stops_stopSession (sessionID : String) : (stopSession sessionID).Uses (Stops sessionID) :=
  uses_stopSession (fun _ => stops_of_cleans) rfl rfl

theorem closes_cleanup : cleanup.Uses Closes := by
  have hstops : ∀ id {a}, Stops id a → Closes a := by
    intro id a ha
    cases a with
    | cancelRun | sessionIDs => trivial
    | _ => exact ⟨id, ha⟩
  exact uses_cleanup (fun _ ha => hstops "" (stops_of_cleans ha)) (fun id => ⟨id, rfl⟩)
    (fun id => ⟨id, rfl⟩) trivial trivial

theorem beats_spawnStops (ids : List String) : (spawnStops ids).Uses Beats := by
  induction ids with
  | nil => trivial
  | cons id ids ih => exact ⟨trivial, fun _ => ih⟩

theorem beats_heartbeatRound : heartbeatRound.Uses Beats := by
  refine ⟨trivial, fun active => ⟨trivial, fun res => ?_⟩⟩
  cases res with
  | none => trivial
  | some terminate => exact beats_spawnStops terminate

end PeerCompute.Agent
