import PeerCompute.Registry.Copies
import PeerCompute.Registry.Effects
import PeerCompute.Store.Postgres

namespace PeerCompute.Registry

open PeerCompute.Data PeerCompute.Interleaving PeerCompute.Plugin PeerCompute.Computev1
  PeerCompute.PostgresStore

/-- A record that a running session may have. -/
def Connected (r : SessionRecord) : Prop :=
  r.status = "running" → r.wgEndpoint ≠ "" ∧ r.connectionMode ≠ ""

theorem connected_of_status {r : SessionRecord} (h : r.status ≠ "running") : Connected r :=
  fun hr => absurd hr h

/-- The endpoint is not taken from the record that was read: a report of a running session
brings its own. -/
theorem connected_updateRecord {req : UpdateSessionStatusRequest} (hrej : ¬Rejected req) (t : Int)
    (r : SessionRecord) : Connected (updateRecord req t r) := by
  intro hstatus
  rw [status_updateRecord] at hstatus
  have hwg : req.wgEndpoint ≠ "" := fun hwg => hrej ⟨hstatus, hwg⟩
  have hendpoint : (assigned req t r).wgEndpoint ≠ "" := by
    simp only [assigned]
    rw [setIf, if_pos hwg]
    exact hwg
  unfold updateRecord
  split
  next =>
    have hdirect : "direct" ≠ "" := by decide
    exact ⟨hendpoint, hdirect⟩
  next hmode => exact ⟨hendpoint, fun h => hmode ⟨hstatus, h⟩⟩

theorem Rewritten.connected {c : Rpc} {r r' : SessionRecord} (h : Rewritten r c r')
    (hr : Connected r) : Connected r' := by
  cases h with
  | terminated t =>
    have hne : "terminated" ≠ "running" := by decide
    exact connected_of_status hne
  | updated hrej t => exact connected_updateRecord hrej t r
  | reported req =>
    intro hstatus
    refine ⟨(hr hstatus).1, ?_⟩
    simp only [reportRecord]
    split <;> decide

variable {σ : Type} {E : Env} {S : Store σ}

/-- A put overwrites the three fields together. -/
theorem connected_merge {r : SessionRecord} (h : Connected r) (old : Option SessionRecord) :
    Connected (S.merge old r) := by
  unfold Store.merge
  split
  next => exact h
  next =>
    split
    next => exact h
    next => exact h

namespace Running

/-- The actions that store no record but a connected one. -/
def Allowed : Action → Prop
  | .putSession (.own r) => Connected r
  | .putSession (.stored _) | .setSession (.stored _) _ => False
  | _ => True

/-- Every copy a call has read is connected, and so is what it stores. -/
def contract : Contract signature Still (Option String) where
  Answers _ := Copied Connected (fun _ => True)
  Move _ _ a _ _ _ := Allowed a
  Done _ := True

theorem allowed_of_calm {a : Action} (ha : Calm a) : Allowed a := by
  cases a with
  | putSession ref => exact ha.elim
  | setSession ref b =>
    cases ref with
    | own r => trivial
    | stored id => exact ha
  | _ => trivial

theorem contract_copying : Copying contract (fun _ => Connected) (fun _ _ => True) where
  session_mono _ h := h
  provider_mono _ h := h
  done _ := trivial
  calm ha := allowed_of_calm ha
  draw := trivial
  answers h := h
  rewrite hr h := h.connected hr
  create hstatus _ _ _ := ⟨.still, connected_of_status (by rw [hstatus]; decide)⟩
  edit _ _ _ := trivial
  enroll _ := ⟨.still, trivial⟩
  beat _ := trivial

def Inv (S : Store σ) (s : Server σ) : Prop :=
  ∀ id r, S.session s.store id = some r → Connected r

theorem inv_exec (hS : S.Lawful) {s s' : Server σ} {a : Action} {res : a.Res}
    (h : exec E S a s = some (res, s')) (ha : Allowed a) (hs : Inv S s) : Inv S s' := by
  intro id r hr
  cases exec_touches hS h with
  | none hview => exact hs id r (hview ▸ hr)
  | set => exact ha.elim
  | reclaim hview => exact hs id r (hview ▸ hr)
  | allocate hview => exact hs id r (hview ▸ hr)
  | @put r' res hview =>
    rw [hview] at hr
    split at hr
    next =>
      cases hr
      exact connected_merge ha _
    next => exact hs id r hr

theorem contract_sound (hS : S.Lawful) (hcopy : S.Copies) :
    contract.Sound (exec E S) (fun _ _ => Inv S) where
  act hs _ hx :=
    ⟨copied_exec hS hcopy hs (fun _ _ _ => trivial) hx,
      fun _ _ ha => ⟨le_rfl, inv_exec hS hx ha hs⟩⟩

end Running

/-- Whatever the calls in progress are and wherever they stand, no running session is stored
without an endpoint and a connection mode. -/
theorem running_connected (hS : S.Lawful) (hcopy : S.Copies) {s : Server σ}
    (hs : ∀ id r, S.session s.store id = some r → Connected r) {turns : List Turn} {P : Calls σ}
    (hP : interleave E S turns s = some P) {id : String} {r : SessionRecord}
    (hr : S.session P.state.store id = some r) (hstatus : r.status = "running") :
    r.wgEndpoint ≠ "" ∧ r.connectionMode ≠ "" := by
  have hadmits : ∀ e ∈ turns.map Turn.event, ∀ p, e = .start p →
      Running.contract.Admits (fun _ _ => Running.Inv S) p := by
    rintro e he p rfl
    obtain ⟨turn, -, hturn⟩ := List.mem_map.mp he
    cases turn with
    | call c =>
      cases hturn
      exact ⟨none, fun w => Running.contract_copying.follows_handler c, fun _ _ _ h => h⟩
    | step i => cases hturn
  have hstart : Running.contract.Governed (fun _ _ => Running.Inv S)
      (⟨s, []⟩ : Calls σ) := ⟨.still, [], hs, .nil⟩
  obtain ⟨_, _, hinv, -⟩ := hstart.play (Running.contract_sound hS hcopy) hadmits hP
  exact hinv id r hr hstatus

def runningReport : Rpc := .updateSessionStatus
  { sessionID := "session-4", status := "running", wgEndpoint := "198.51.100.7:51820" }

/-- The session is created; its connection and that it runs are reported at the same time, and
the copy without a connection mode is written last. -/
def lateRunning : List Turn :=
  .call (.createSession none { providerID := "p", renterID := "r", requested := none
                               image := "alpine", wgPublicKey := "key" }) ::
    .call runningReport ::
    .call (.reportConnectionResult { sessionID := "session-4", peerID := "r"
                                     selectedEndpoint := "", useRelay := false }) ::
    ([0, 0, 0, 0, 0, 0, 0, 0, 0, 0, 1, 2, 2, 2, 1, 1, 1, 1, 1, 1].map .step)

theorem running_connected_late :
    ∃ P, interleave countingEnv (tableStore (postgres (fun _ => Order.id) (fun _ _ => none)
        (fun _ => none))) lateRunning oneProvider = some P ∧
      ∃ r, P.state.store.sessions.lookup "session-4" = some r ∧ r.status = "running" ∧
        r.wgEndpoint ≠ "" ∧ r.connectionMode ≠ "" := by
  have hplay : (interleave countingEnv (tableStore (postgres (fun _ => Order.id) (fun _ _ => none)
      (fun _ => none))) lateRunning oneProvider).map
      (fun P => (P.state.store.sessions.lookup "session-4").map (·.status)) =
      some (some "running") := by decide +kernel
  obtain ⟨P, hP, hr⟩ := Option.map_eq_some_iff.mp hplay
  obtain ⟨r, hr, hstatus⟩ := Option.map_eq_some_iff.mp hr
  have hnone : ∀ id r, (tableStore (postgres (fun _ => Order.id) (fun _ _ => none)
      (fun _ => none))).session oneProvider.store id = some r → Connected r := by
    intro id r h
    cases h
  exact ⟨P, hP, r, hr, hstatus,
    running_connected (tableStore_lawful _) (tableStore_copies _) hnone hP hr hstatus⟩

end PeerCompute.Registry
