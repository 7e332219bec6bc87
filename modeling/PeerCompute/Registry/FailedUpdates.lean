import PeerCompute.Plugin.MemoryStore
import PeerCompute.Registry.HandlerSpecs
import PeerCompute.Store.Postgres

/-! What an `UpdateSessionStatus` that returns an error leaves behind. -/

namespace PeerCompute.Registry

open PeerCompute.Data PeerCompute.Interleaving PeerCompute.Plugin PeerCompute.Computev1 Prog

variable {σ : Type} {E : Env} {S : Store σ} {s s' : Server σ} {req : UpdateSessionStatusRequest}

/-- The stored sessions, the slot maps and the reported outcomes are what they were. -/
structure Kept (S : Store σ) (s s' : Server σ) : Prop where
  session : S.session s'.store = S.session s.store
  slots : s'.tunnels.usedTunnelIdxs = s.tunnels.usedTunnelIdxs
  sessions : s'.tunnels.usedTunnelSet = s.tunnels.usedTunnelSet
  outcomes : s'.outcomes = s.outcomes

/-- The session runs already, and the request has no value for a column or the stored one. -/
structure Repeats (req : UpdateSessionStatusRequest) (r : SessionRecord) : Prop where
  status : r.status = "running"
  containerID : req.containerID = "" ∨ req.containerID = r.containerID
  sshEndpoint : req.sshEndpoint = "" ∨ req.sshEndpoint = r.sshEndpoint
  wgPublicKey : req.wgPublicKey = "" ∨ req.wgPublicKey = r.wgPublicKey

/-- A request that is refused assigns what does not depend on the time. -/
theorem assigned_of_rejected (h : Rejected req) (t : Int) (r : SessionRecord) :
    assigned req t r = assigned req 0 r := by
  have hcloses : ¬Closes req r := by
    intro hc
    have hstatus := h.1.symm.trans hc.1
    exact absurd hstatus (by decide)
  simp only [assigned, if_neg hcloses]

/-- A request that is refused assigns nothing new exactly if it repeats what is stored. -/
theorem assigned_eq_self_iff (h : Rejected req) (r : SessionRecord) :
    assigned req 0 r = r ↔ Repeats req r := by
  have hcloses : ¬Closes req r := by
    intro hc
    have hstatus := h.1.symm.trans hc.1
    exact absurd hstatus (by decide)
  have hcolumn : ∀ v w : String, (if v ≠ "" then v else w) = w ↔ v = "" ∨ v = w := by
    intro v w
    by_cases hv : v = "" <;> simp [hv]
  have hassigned : assigned req 0 r =
      { r with
        status := "running"
        containerID := if req.containerID ≠ "" then req.containerID else r.containerID
        sshEndpoint := if req.sshEndpoint ≠ "" then req.sshEndpoint else r.sshEndpoint
        wgPublicKey := if req.wgPublicKey ≠ "" then req.wgPublicKey else r.wgPublicKey } := by
    rw [assigned, if_neg hcloses, h.1, h.2]
    by_cases hc : req.containerID = "" <;> by_cases hs : req.sshEndpoint = "" <;>
      by_cases hk : req.wgPublicKey = "" <;> simp [setIf, SessionAssign.apply, hc, hs, hk]
  rw [hassigned]
  constructor
  · intro heq
    exact ⟨(congrArg SessionRecord.status heq).symm,
      (hcolumn _ _).mp (congrArg SessionRecord.containerID heq),
      (hcolumn _ _).mp (congrArg SessionRecord.sshEndpoint heq),
      (hcolumn _ _).mp (congrArg SessionRecord.wgPublicKey heq)⟩
  · intro hr
    rw [(hcolumn _ _).mpr hr.containerID, (hcolumn _ _).mpr hr.sshEndpoint,
      (hcolumn _ _).mpr hr.wgPublicKey, ← hr.status]

/-- An `UpdateSessionStatus` that fails leaves everything as it was exactly if it is not a step
into `"terminated"` and, on a store that hands out its own records, repeats what is stored. -/
theorem updateSessionStatus_error_kept_iff (hS : S.Lawful) {e : Status}
    (hrun : (updateSessionStatus req).run (exec E S) s = some (.error e, s')) :
    Kept S s s' ↔ ∀ r, Names S s req.sessionID r →
      ¬Closes req r ∧ (S.shared = true → Repeats req r) := by
  obtain ⟨-, hu, hO, hmiss⟩ | ⟨r, hn, hu, hO⟩ :=
    leads_iff.mp (updateSessionStatus_leads hS req) _ _ hrun
  · refine ⟨fun _ r hr => absurd hr (hmiss r), fun _ => ?_⟩
    exact ⟨hu.session, by rw [hu.tunnels], by rw [hu.tunnels], hO⟩
  · have hall : (∀ r', Names S s req.sessionID r' →
        ¬Closes req r' ∧ (S.shared = true → Repeats req r')) ↔
          ¬Closes req r ∧ (S.shared = true → Repeats req r) := by
      refine ⟨fun h => h r hn, fun h r' hn' => ?_⟩
      rw [hn.unique hn']
      exact h
    rw [hall]
    by_cases hc : Closes req r
    · rw [if_pos hc] at hO
      refine ⟨fun hk => ?_, fun h => absurd hc h.1⟩
      have hlen := congrArg List.length (hO.symm.trans hk.outcomes)
      rw [List.length_cons] at hlen
      omega
    · have hT := hu.tunnels
      rw [if_neg hc] at hO hT
      obtain ⟨-, hcopy, hst⟩ | ⟨-, hrej, hshared, t, hst⟩ | ⟨hresp, -⟩ := hu.stores
      · refine ⟨fun _ => ⟨hc, fun hs => ?_⟩, fun _ => ⟨hst, by rw [hT], by rw [hT], hO⟩⟩
        rw [hcopy] at hs
        cases hs
      · rw [assigned_of_rejected hrej] at hst
        have hid : (assigned req 0 r).id = r.id :=
          SessionRecord.id_of_origin (origin_assigned req 0 r)
        constructor
        · intro hk
          refine ⟨hc, fun _ => ?_⟩
          have hr := hst r.id
          rw [hk.session, hn.2, hid, if_pos rfl] at hr
          exact (assigned_eq_self_iff hrej r).mp (Option.some.inj hr).symm
        · rintro ⟨-, hsame⟩
          refine ⟨?_, by rw [hT], by rw [hT], hO⟩
          funext id
          rw [hst id, (assigned_eq_self_iff hrej r).mpr (hsame hshared)]
          split
          next h => rw [h, hn.2]
          next => rfl
      · cases hresp

/-- A pending session with a slot. -/
def pendingServer : Server Tables where
  tunnels := ⟨⟨99, 2⟩, AList.insert "session-1" ⟨99, 1⟩ ∅, AList.insert ⟨99, 1⟩ "session-1" ∅⟩
  relay := none
  store := (Tables.empty.insertProvider { id := "p", status := "online" }).insertSession
    { id := "session-1", providerID := "p", status := "pending" }

/-- A copying store: the request is refused before anything is written. -/
theorem updateSessionStatus_refused_kept :
    ∃ e s', (updateSessionStatus { sessionID := "session-1", status := "running" }).run
        (exec countingEnv (PostgresStore.tableStore
          (PostgresStore.faultless (fun _ => Order.id)))) pendingServer = some (.error e, s') ∧
      Kept (PostgresStore.tableStore (PostgresStore.faultless (fun _ => Order.id)))
        pendingServer s' := by
  obtain ⟨e, s', hrun⟩ : ∃ e s',
      (updateSessionStatus { sessionID := "session-1", status := "running" }).run
        (exec countingEnv (PostgresStore.tableStore
          (PostgresStore.faultless (fun _ => Order.id)))) pendingServer = some (.error e, s') :=
    ⟨_, _, rfl⟩
  refine ⟨e, s', hrun, (updateSessionStatus_error_kept_iff
    (PostgresStore.tableStore_lawful _) hrun).mpr ?_⟩
  intro r _
  exact ⟨fun hc => absurd hc.1 (by decide), fun hs => by cases hs⟩

/-- On `MemoryStore` the refused request has made the session `"running"`; on PostgreSQL a
container ID that is no text makes the write fail, after the outcome has been reported and the slot
given back. -/
theorem updateSessionStatus_error_leaves_traces :
    ((updateSessionStatus { sessionID := "session-1", status := "running" }).run
        (exec countingEnv (memoryStore (fun _ => Order.id))) pendingServer).map (fun x =>
          (x.1, (x.2.store.sessions.lookup "session-1").map SessionRecord.status)) =
      some (.error ⟨.failedPrecondition,
        "wireguard_required: running sessions must include wg_endpoint"⟩, some "running") ∧
    ((updateSessionStatus
        { sessionID := "session-1", status := "terminated"
          containerID := String.singleton (Char.ofNat 0) }).run
        (exec countingEnv (PostgresStore.tableStore
          (PostgresStore.postgres (fun _ => Order.id) (fun _ _ => none) (fun _ => none))))
        pendingServer).map (fun x => ((x.1, x.2.outcomes), x.2.tunnels.usedTunnelIdxs.keys,
          (x.2.store.sessions.lookup "session-1").map SessionRecord.status)) =
      some ((.error ⟨.internal,
        "store: pq: invalid byte sequence for encoding \"UTF8\": 0x00"⟩, [("session-1", true)]),
        [], some "pending") := by
  decide +kernel

end PeerCompute.Registry
