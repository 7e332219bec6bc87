import PeerCompute.Registry.HandlerSpecs
import PeerCompute.Store.Postgres

namespace PeerCompute.Registry

open PeerCompute.Data PeerCompute.Interleaving PeerCompute.Plugin PeerCompute.Computev1
  PeerCompute.Relay Prog

variable {σ : Type} {E : Env} {S : Store σ} {s : Server σ} {ctx : Metadata}
  {req : CreateSessionRequest}

/-- Every check passes and a slot is allocated, and then the store refuses the new record. -/
def WriteRefused (E : Env) (S : Store σ) (s : Server σ) (ctx : Metadata)
    (req : CreateSessionRequest) : Prop :=
  ∃ providerID ips T e, Admitted E S s ctx req providerID ∧
    s.tunnels.allocateTunnelIPs (E.uuid (s.clock + 4)) = some (.ok ips, T) ∧
    S.putSession (s.clock + 7) s.store (.own (newSession E s.clock req providerID ips)) = .error e

/-- What is left of `CreateSession` once every check has passed and a slot is allocated. -/
theorem leads_of_admitted {providerID : String} {ips : String × String} {T : Tunnels}
    (hadm : Admitted E S s ctx req providerID)
    (halloc : s.tunnels.allocateTunnelIPs (E.uuid (s.clock + 4)) = some (.ok ips, T))
    {Q : Except Status Response → Server σ → Prop}
    (h : Leads (exec E S) (createSession ctx req) s Q) :
    Leads (exec E S) (finishCreateSession req (newSession E s.clock req providerID ips))
      { s with tunnels := T, clock := s.clock + 7 } Q := by
  obtain ⟨hpolicy, ref, hget, rfl, honline, hmeets⟩ := hadm
  unfold createSession at h
  dsimp only at h
  rw [if_neg hpolicy, leads_getProviderByPrefix, hget] at h
  dsimp only at h
  rw [leads_loadProvider] at h
  simp only [Server.tick, Nat.add_assoc, Nat.reduceAdd, honline, ne_eq, not_true_eq_false, if_false,
    leads_meetsMinimum, hmeets, leads_newUUID, leads_allocateTunnelIPs] at h
  have h' := h (.ok ips) T halloc
  dsimp only at h'
  rw [leads_now] at h'
  simp only [Server.tick, Nat.add_assoc, Nat.reduceAdd] at h'
  exact h'

/-- The late exit of `CreateSession`, taken when the store refuses the record. -/
theorem leads_of_refused {providerID : String} {ips : String × String} {T : Tunnels}
    {e : StoreError} (hadm : Admitted E S s ctx req providerID)
    (halloc : s.tunnels.allocateTunnelIPs (E.uuid (s.clock + 4)) = some (.ok ips, T))
    (hput : S.putSession (s.clock + 7) s.store
      (.own (newSession E s.clock req providerID ips)) = .error e)
    {Q : Except Status Response → Server σ → Prop}
    (h : Leads (exec E S) (createSession ctx req) s Q) :
    Q (.error (storeErr e)) { s with tunnels := T, clock := s.clock + 8 } := by
  have h' := leads_of_admitted hadm halloc h
  rw [finishCreateSession, leads_putSession, hput] at h'
  exact leads_ret.mp h'

/-- `CreateSession` returns a session. -/
def Succeeds (E : Env) (S : Store σ) (ctx : Metadata) (req : CreateSessionRequest)
    (s : Server σ) : Prop :=
  ∃ resp s', (createSession ctx req).run (exec E S) s = some (.ok resp, s')

theorem succeeds_iff : Succeeds E S ctx req s ↔ ∃ providerID ips T,
    Admitted E S s ctx req providerID ∧
      s.tunnels.allocateTunnelIPs (E.uuid (s.clock + 4)) = some (.ok ips, T) ∧
      ∃ x, S.putSession (s.clock + 7) s.store
        (.own (newSession E s.clock req providerID ips)) = .ok x := by
  constructor
  · rintro ⟨resp, s', hrun⟩
    obtain ⟨⟨e, hresp⟩, -⟩ | ⟨providerID, ips, T, hadm, halloc, h⟩ :=
      leads_iff.mp (createSession_leads ctx req) _ _ hrun
    · cases hresp
    · obtain ⟨e, -, hresp, -⟩ | ⟨x, hput, -⟩ := h.stores
      · cases hresp
      · exact ⟨providerID, ips, T, hadm, halloc, x, hput⟩
  · rintro ⟨providerID, ips, T, hadm, halloc, x, hput⟩
    have h := leads_of_admitted hadm halloc (leads_iff.mpr (fun resp s' hrun =>
      (⟨s', hrun⟩ : ∃ s', (createSession ctx req).run (exec E S) s = some (resp, s'))))
    rw [finishCreateSession, leads_putSession, hput] at h
    dsimp only [Server.stored] at h
    split at h
    next =>
      rw [leads_putCandidates, leads_loadSession] at h
      exact ⟨_, leads_ret.mp h⟩
    next =>
      rw [leads_loadSession] at h
      exact ⟨_, leads_ret.mp h⟩

/-- The held slots, the candidates and the stored sessions are what they were. -/
def SessionsUnchanged (S : Store σ) (s s' : Server σ) : Prop :=
  s'.tunnels.usedTunnelIdxs = s.tunnels.usedTunnelIdxs ∧
    s'.tunnels.usedTunnelSet = s.tunnels.usedTunnelSet ∧ s'.candidates = s.candidates ∧
    S.session s'.store = S.session s.store

/-- A `CreateSession` that fails leaves everything as it was, unless it fails because the store
refuses the new record: then the slot it has allocated stays held. -/
theorem createSession_error_unchanged_iff (E : Env) (S : Store σ) (s : Server σ) (ctx : Metadata)
    (req : CreateSessionRequest) :
    (∀ e s', (createSession ctx req).run (exec E S) s = some (.error e, s') →
      SessionsUnchanged S s s') ↔ ¬WriteRefused E S s ctx req := by
  constructor
  · rintro hall ⟨providerID, ips, T, e, hadm, halloc, hput⟩
    have h : Leads (exec E S) (createSession ctx req) s (fun resp s' =>
        ∀ e, resp = .error e → SessionsUnchanged S s s') := by
      refine leads_iff.mpr (fun resp s' hrun e he => hall e s' ?_)
      rw [hrun, he]
    obtain ⟨-, hset, -⟩ := leads_of_refused hadm halloc hput h _ rfl
    obtain ⟨hres, -⟩ | ⟨n, idx, hfirst, -, rfl⟩ := Tunnels.allocateTunnelIPs_cases halloc
    · cases hres
    · have hlook := congrArg (fun m => m.lookup idx) hset
      simp only [Map.lookup_insert, if_pos, hfirst.free] at hlook
      cases hlook
  · intro hrefused e s' hrun
    obtain ⟨-, hst, h⟩ | ⟨providerID, ips, T, hadm, halloc, h⟩ :=
      leads_iff.mp (createSession_leads ctx req) _ _ hrun
    · exact ⟨by rw [h.tunnels], by rw [h.tunnels], h.candidates, h.session⟩
    · obtain ⟨e', hput, -⟩ | ⟨x, -, hresp, -⟩ := h.stores
      · exact absurd ⟨providerID, ips, T, e', hadm, halloc, hput⟩ hrefused
      · cases hresp

/-- A request for more CPU cores than an `INT` column holds: the error comes back and the slot
stays with a session that does not exist. -/
theorem createSession_out_of_range_keeps_slot :
    ((createSession none
        { providerID := "p", renterID := "r", requested := some { cpuCores := 2147483648 }
          image := "alpine", wgPublicKey := "key" }).run
      (exec countingEnv (PostgresStore.tableStore
        (PostgresStore.postgres (fun _ => Order.id) (fun _ _ => none) (fun _ => none))))
      { relay := none
        store := Tables.empty.insertProvider { id := "p", status := "online" } }).map (fun x =>
        (x.1, x.2.tunnels.usedTunnelIdxs.keys, x.2.store.sessions.keys)) =
    some (.error ⟨.internal, "store: pq: value \"2147483648\" is out of range for type integer"⟩,
      ["session-4"], []) := by
  decide +kernel

end PeerCompute.Registry
