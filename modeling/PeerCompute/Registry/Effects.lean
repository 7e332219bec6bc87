import PeerCompute.Plugin.MemoryStore
import PeerCompute.Registry.HandlerSpecs

namespace PeerCompute.Registry

open PeerCompute.Data PeerCompute.Interleaving PeerCompute.Plugin PeerCompute.Computev1
  PeerCompute.Relay Prog

variable {σ : Type}

/-- Everything one event can do to a registry whose calls are executed one at a time. -/
inductive Effect (E : Env) (S : Store σ) (s : Server σ) : Event → Server σ → Prop
  | restart (relayAddr : Option String) : Effect E S s (.restart relayAddr) (s.restart relayAddr)
  | noRelay {e : Relay.Event} {h : e.registers = none} : Effect E S s (.relay e h) s
  | relay {e : Relay.Event} {h : e.registers = none} {rs rs' : RelayServer}
      (hrelay : s.relay = some rs) (hnext : rs.next e = some rs') :
      Effect E S s (.relay e h) { s with relay := some rs' }
  | untouched {r : Rpc} {s' : Server σ} (h : Untouched S s s') : Effect E S s (.rpc r) s'
  | terminated {req : TerminateSessionRequest} {r : SessionRecord} {s' : Server σ}
      (hn : Names S s req.sessionID r) (h : Terminated S r s s') :
      Effect E S s (.rpc (.terminateSession req)) s'
  | updated {req : UpdateSessionStatusRequest} {r : SessionRecord}
      {resp : Except Status Response} {s' : Server σ} (hn : Names S s req.sessionID r)
      (h : Updated S req r resp s s') : Effect E S s (.rpc (.updateSessionStatus req)) s'
  | reported {req : ReportConnectionResultRequest} {r : SessionRecord}
      {resp : Except Status Response} {s' : Server σ} (hn : Names S s req.sessionID r)
      (h : Reported S req r resp s s') : Effect E S s (.rpc (.reportConnectionResult req)) s'
  | exchanged {req : ExchangeCandidatesRequest} {r : SessionRecord} {s' : Server σ}
      (hn : Names S s req.sessionID r) (h : Exchanged S req r s s') :
      Effect E S s (.rpc (.exchangeCandidates req)) s'
  | created {ctx : Metadata} {req : CreateSessionRequest} {providerID : String}
      {ips : String × String} {T : Tunnels} {resp : Except Status Response} {s' : Server σ}
      (halloc : s.tunnels.allocateTunnelIPs (E.uuid (s.clock + 4)) = some (.ok ips, T))
      (h : Created E S req (newSession E s.clock req providerID ips) T resp s s') :
      Effect E S s (.rpc (.createSession ctx req)) s'

variable {E : Env} {S : Store σ} {s s' : Server σ}

theorem rpc_effect (hS : S.Lawful) (r : Rpc) :
    Leads (exec E S) r.handler s (fun _ s' => Effect E S s (.rpc r) s') := by
  have silent : ∀ {p : Handler}, p.Uses Silent →
      Leads (exec E S) p s (fun _ s' => Effect E S s (.rpc r) s') :=
    fun hp => (harmless_leads hS (hp.mono (fun _ => Silent.harmless))).mono
      (fun _ _ h => .untouched h)
  cases r with
  | registerProvider ctx req => exact silent (uses_registerProvider ctx req)
  | heartbeat req => exact silent (uses_heartbeat req)
  | listProviders req => exact silent (uses_listProviders req)
  | getSession req => exact silent (uses_getSession req trivial (fun _ => trivial))
  | listProviderSessions req =>
    exact silent (uses_listProviderSessions req (fun _ => trivial) (fun _ => trivial))
  | createSession ctx req =>
    refine (createSession_leads ctx req).mono (fun _ s' h => ?_)
    obtain ⟨-, -, h⟩ | ⟨_, ips, T, -, halloc, h⟩ := h
    · exact .untouched h
    · exact .created halloc h
  | terminateSession req =>
    refine (terminateSession_leads hS req).mono (fun _ s' h => ?_)
    obtain ⟨-, h, -⟩ | ⟨-, r, hn, h, -⟩ := h
    · exact .untouched h
    · exact .terminated hn h
  | updateSessionStatus req =>
    refine (updateSessionStatus_leads hS req).mono (fun _ s' h => ?_)
    obtain ⟨-, h, -⟩ | ⟨r, hn, h, -⟩ := h
    · exact .untouched h
    · exact .updated hn h
  | exchangeCandidates req =>
    refine (exchangeCandidates_leads hS req).mono (fun _ s' h => ?_)
    obtain ⟨-, h⟩ | ⟨r, hn, h⟩ := h
    · exact .untouched h
    · exact .exchanged hn h
  | reportConnectionResult req =>
    refine (reportConnectionResult_leads hS req).mono (fun _ s' h => ?_)
    obtain ⟨-, h⟩ | ⟨r, hn, h⟩ := h
    · exact .untouched h
    · exact .reported hn h

theorem step_effect (hS : S.Lawful) {e : Event} (h : step E S s e = some s') :
    Effect E S s e s' := by
  cases e with
  | rpc r =>
    obtain ⟨⟨resp, t⟩, hrun, rfl⟩ := Option.map_eq_some_iff.mp h
    exact leads_iff.mp (rpc_effect hS r) resp t hrun
  | restart relayAddr =>
    cases h
    exact .restart relayAddr
  | relay e he =>
    simp only [step] at h
    split at h
    next =>
      cases h
      exact .noRelay
    next rs hrelay =>
      obtain ⟨rs', hnext, rfl⟩ := Option.map_eq_some_iff.mp h
      exact .relay hrelay hnext

theorem clock_le_run {α : Type} (p : Prog signature α) :
    Leads (exec E S) p s (fun _ s' => s.clock ≤ s'.clock) := by
  have hall : p.Uses (fun _ => True) := by
    induction p with
    | ret x => trivial
    | act a k ih => exact ⟨trivial, ih⟩
  refine hall.leads (R := fun s s' : Server σ => s.clock ≤ s'.clock) (fun _ => le_refl _)
    (fun h h' => le_trans h h') (fun a _ s r s' h => ?_) s
  obtain ⟨x, -, hx⟩ := Option.map_eq_some_iff.mp h
  cases hx
  exact Nat.le_succ _

theorem clock_le_step {e : Event} (h : step E S s e = some s') : s.clock ≤ s'.clock := by
  cases e with
  | rpc r =>
    obtain ⟨⟨resp, t⟩, hrun, rfl⟩ := Option.map_eq_some_iff.mp h
    exact leads_iff.mp (clock_le_run r.handler) resp t hrun
  | restart relayAddr =>
    cases h
    exact le_refl _
  | relay e he =>
    simp only [step] at h
    split at h
    next =>
      cases h
      exact le_refl _
    next rs hrelay =>
      obtain ⟨rs', hnext, rfl⟩ := Option.map_eq_some_iff.mp h
      exact le_refl _

/-- The UUIDs still to come name no stored session and no holder of a slot. -/
structure Fresh (E : Env) (S : Store σ) (s : Server σ) : Prop where
  injective : Function.Injective E.uuid
  session : ∀ t, s.clock ≤ t → S.session s.store (E.uuid t) = none
  slot : ∀ t, s.clock ≤ t → s.tunnels.usedTunnelIdxs.lookup (E.uuid t) = none

theorem countingEnv_uuid_injective : Function.Injective countingEnv.uuid := by
  intro m n h
  have hl := congrArg String.toList h
  simp only [countingEnv, String.toList_append] at hl
  exact repr_inj (List.append_cancel_left hl)

theorem Fresh.counting (hst : S.session s.store = fun _ => none)
    (hT : s.tunnels.usedTunnelIdxs = ∅) : Fresh countingEnv S s :=
  ⟨countingEnv_uuid_injective, fun t _ => congrFun hst _, fun t _ => by rw [hT]; rfl⟩

section

variable {st st' : σ} {r r' : SessionRecord} {id : String}

theorem stores_none (h : S.Stores st r' st') (hr : S.session st r.id = some r)
    (hid : r'.origin = r.origin) (hnone : S.session st id = none) : S.session st' id = none := by
  rw [h id, if_neg, hnone]
  rintro rfl
  rw [SessionRecord.id_of_origin hid, hr] at hnone
  cases hnone

theorem stores_other (h : S.Stores st r' st') (hid : r'.origin = r.origin) (hne : id ≠ r.id) :
    S.session st' id = S.session st id := by
  rw [h id, if_neg]
  rwa [SessionRecord.id_of_origin hid]

theorem stores_self (h : S.Stores st r' st') (hid : r'.origin = r.origin) :
    S.session st' r.id = some r' := by
  rw [h r.id, if_pos (SessionRecord.id_of_origin hid).symm]

end

/-- The session view after the put of a record made by `CreateSession`. -/
theorem Created.session (hS : S.Lawful) {req : CreateSessionRequest} {r : SessionRecord}
    {T : Tunnels} {resp : Except Status Response} (h : Created E S req r T resp s s')
    (hnone : S.session s.store r.id = none) :
    (S.session s'.store = S.session s.store ∧ s'.candidates = s.candidates) ∨
      (S.Stores s.store r s'.store ∧ s'.candidates = keptKey s req r.id) := by
  obtain ⟨e, -, -, hst, hc⟩ | ⟨x, hput, -, hst, hc⟩ := h.stores
  · exact .inl ⟨congrArg _ hst, hc⟩
  · refine .inr ⟨fun id => ?_, hc⟩
    rw [hst, (hS.put_own hput).2 id, hnone]
    rfl

/-- Everything one event can do to the stored sessions. -/
inductive ViewChange (E : Env) (S : Store σ) (s : Server σ) (e : Event) (s' : Server σ) : Prop
  | same (h : S.session s'.store = S.session s.store)
  | changed {r r' : SessionRecord} (hr : S.session s.store r.id = some r)
      (hst : S.Stores s.store r' s'.store) (hid : r'.origin = r.origin)
      (hstatus : r'.status = r.status ∨ r'.status = "terminated" ∨
        ∃ req, e = .rpc (.updateSessionStatus req) ∧ Names S s req.sessionID r ∧
          (¬Rejected req ∨ S.shared = true) ∧ r'.status = req.status)
  | new {req : CreateSessionRequest} {providerID : String} {ips : String × String}
      (hnew : S.session s.store (E.uuid (s.clock + 4)) = none) (hclock : s.clock + 8 ≤ s'.clock)
      (hst : S.Stores s.store (newSession E s.clock req providerID ips) s'.store)

theorem step_view (hS : S.Lawful) (hf : Fresh E S s) {e : Event} (h : step E S s e = some s') :
    ViewChange E S s e s' := by
  cases step_effect hS h with
  | restart relayAddr => exact .same rfl
  | noRelay => exact .same rfl
  | relay hrelay hnext => exact .same rfl
  | untouched h => exact .same h.session
  | exchanged hn h => exact .same h.session
  | @terminated req r _ hn h =>
    obtain ⟨t, hst⟩ := h.stores
    exact .changed (r := r) hn.2 hst rfl (.inr (.inl rfl))
  | @updated req r resp _ hn h =>
    obtain ⟨-, -, hst⟩ | ⟨-, -, hs, t, hst⟩ | ⟨-, hrej, t, hst⟩ := h.stores
    · exact .same hst
    · exact .changed hn.2 hst (origin_assigned req t r)
        (.inr (.inr ⟨req, rfl, hn, .inr hs, status_assigned req t r⟩))
    · exact .changed hn.2 hst (origin_updateRecord req t r)
        (.inr (.inr ⟨req, rfl, hn, .inl hrej, status_updateRecord req t r⟩))
  | @reported req r resp _ hn h =>
    obtain ⟨-, hst⟩ | ⟨-, hst⟩ := h.stores
    · exact .same hst
    · exact .changed (r := r) hn.2 hst rfl (.inl rfl)
  | created halloc h =>
    have hnew := hf.session (s.clock + 4) (Nat.le_add_right _ _)
    obtain ⟨hst, -⟩ | ⟨hst, -⟩ := h.session hS hnew
    · exact .same hst
    · exact .new hnew h.clock hst

theorem slots_step (hS : S.Lawful) (hf : Fresh E S s) {e : Event} (h : step E S s e = some s')
    {t : Nat} (ht : s'.clock ≤ t) : s'.tunnels.usedTunnelIdxs.lookup (E.uuid t) = none := by
  have hold := hf.slot t (le_trans (clock_le_step h) ht)
  have hreclaim : ∀ id, (s.tunnels.reclaimTunnelIndex id).usedTunnelIdxs.lookup (E.uuid t) = none := by
    intro id
    rw [Tunnels.lookup_reclaim, hold, ite_self]
  cases step_effect hS h with
  | restart relayAddr => rfl
  | noRelay => exact hold
  | relay hrelay hnext => exact hold
  | untouched h => exact h.tunnels ▸ hold
  | exchanged hn h => exact h.tunnels ▸ hold
  | reported hn h => exact h.tunnels ▸ hold
  | @terminated req r _ hn h => exact h.tunnels ▸ hreclaim r.id
  | @updated req r resp _ hn h =>
    rw [h.tunnels]
    split
    · exact hreclaim r.id
    · exact hold
  | created halloc h =>
    obtain ⟨hres, -⟩ | ⟨n, idx, -, -, hT⟩ := Tunnels.allocateTunnelIPs_cases halloc
    · cases hres
    · rw [h.tunnels, hT, Map.lookup_insert, if_neg, hold]
      intro heq
      have h8 := h.clock
      have := hf.injective heq
      omega

theorem Fresh.step (hS : S.Lawful) (hf : Fresh E S s) {e : Event} (h : step E S s e = some s') :
    Fresh E S s' := by
  refine ⟨hf.injective, fun t ht => ?_, fun t ht => slots_step hS hf h ht⟩
  have hold := hf.session t (le_trans (clock_le_step h) ht)
  cases step_view hS hf h with
  | same hst => exact hst ▸ hold
  | changed hr hst hid hstatus => exact stores_none hst hr hid hold
  | new hnew hclock hst =>
    rw [hst (E.uuid t), if_neg, hold]
    intro heq
    have := hf.injective heq
    omega

/-- A new server whose store has one provider online. -/
def oneProvider : Server Tables :=
  { relay := none, store := Tables.empty.insertProvider { id := "p", status := "online" } }

def createOne : Event := .rpc (.createSession none
  { providerID := "p", renterID := "r", requested := none, image := "alpine", wgPublicKey := "key" })

def terminateOne : Event := .rpc (.terminateSession { sessionID := "session-4" })

theorem Names.status {order : Nat → Order String} {s : Server Tables} {p id status : String}
    {r : SessionRecord} (hn : Names (memoryStore order) s p r)
    (hget : (memoryStore order).getSessionByPrefix s.clock s.store p = .ok (.stored id))
    (hst : (s.store.sessions.lookup id).map (·.status) = some status) : r.status = status := by
  obtain ⟨hfound, hr⟩ := hn
  rw [hget] at hfound
  have hid : id = r.id := by simpa [Store.handle, memoryStore] using hfound
  rw [hid, show s.store.sessions.lookup r.id = some r from hr] at hst
  exact Option.some.inj hst

end PeerCompute.Registry
