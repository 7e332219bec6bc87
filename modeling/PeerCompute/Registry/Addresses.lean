import PeerCompute.Registry.Effects
import PeerCompute.Store.Postgres

namespace PeerCompute.Registry

open PeerCompute.Data PeerCompute.Interleaving PeerCompute.Plugin PeerCompute.Computev1
  PeerCompute.Relay Prog

variable {σ : Type} {E : Env} {S : Store σ} {s s' : Server σ}

/-- What keeps the addresses apart: a restart waits until every session is terminated, and an
`UpdateSessionStatus` neither revives a terminated session nor has the termination refused for
which it gave the slot back. -/
def KeepsApart (E : Env) (S : Store σ) (s : Server σ) : Event → Prop
  | .restart _ => ∀ id r, S.session s.store id = some r → r.status = "terminated"
  | .rpc (.updateSessionStatus req) => ∀ r, Names S s req.sessionID r →
    ((¬Rejected req ∨ S.shared = true) → r.status = "terminated" → req.status = "terminated") ∧
      (Closes req r → CloseAccepted E S s req r)
  | _ => True

/-- Every session that is not terminated holds a slot and has the addresses of that slot. -/
structure Addressed (S : Store σ) (s : Server σ) : Prop where
  wf : s.tunnels.Wf
  slot : ∀ id r, S.session s.store id = some r → r.status ≠ "terminated" →
    ∃ idx, s.tunnels.usedTunnelIdxs.lookup id = some idx ∧ r.wgProviderIP = providerIP idx ∧
      r.wgRenterIP = renterIP idx

/-- No two sessions that are not terminated have an address in common. -/
def AddressesApart (S : Store σ) (s : Server σ) : Prop :=
  ∀ id id' r r', id ≠ id' → S.session s.store id = some r → S.session s.store id' = some r' →
    r.status ≠ "terminated" → r'.status ≠ "terminated" →
    r.wgProviderIP ≠ r'.wgProviderIP ∧ r.wgRenterIP ≠ r'.wgRenterIP

namespace Addressed

theorem apart (h : Addressed S s) : AddressesApart S s := by
  intro id id' r r' hne hr hr' ht ht'
  obtain ⟨idx, hidx, hp, hq⟩ := h.slot id r hr ht
  obtain ⟨idx', hidx', hp', hq'⟩ := h.slot id' r' hr' ht'
  have hslots : idx ≠ idx' := by
    rintro rfl
    have hs := (h.wf.inverse _ _).mp hidx
    rw [(h.wf.inverse _ _).mp hidx'] at hs
    exact hne (Option.some.inj hs).symm
  rw [hp, hp', hq, hq']
  exact ⟨fun heq => hslots (providerIP_inj heq), fun heq => hslots (renterIP_inj heq)⟩

theorem of_eq (h : Addressed S s) (hst : S.session s'.store = S.session s.store)
    (hT : s'.tunnels = s.tunnels) : Addressed S s' := by
  refine ⟨hT ▸ h.wf, ?_⟩
  rw [hst, hT]
  exact h.slot

/-- A step that changes `r` and keeps the slots. -/
theorem of_stores (h : Addressed S s) {r r' : SessionRecord}
    (hr : S.session s.store r.id = some r) (hst : S.Stores s.store r' s'.store)
    (hid : r'.origin = r.origin) (hT : s'.tunnels = s.tunnels)
    (hkeep : r'.status ≠ "terminated" → r.status ≠ "terminated") : Addressed S s' := by
  refine ⟨hT ▸ h.wf, ?_⟩
  intro id q hq ht
  rw [hT]
  by_cases heq : id = r.id
  · subst heq
    rw [stores_self hst hid] at hq
    cases hq
    obtain ⟨hp, hq⟩ := SessionRecord.ips_of_origin hid
    rw [hp, hq]
    exact h.slot _ r hr (hkeep ht)
  · rw [stores_other hst hid heq] at hq
    exact h.slot id q hq ht

/-- A step that terminates `r` and gives its slot back. -/
theorem of_terminated (h : Addressed S s) {r r' : SessionRecord}
    (hst : S.Stores s.store r' s'.store) (hid : r'.origin = r.origin)
    (hT : s'.tunnels = s.tunnels.reclaimTunnelIndex r.id) (ht : r'.status = "terminated") :
    Addressed S s' := by
  refine ⟨hT ▸ h.wf.reclaim r.id, ?_⟩
  intro id q hq hqt
  by_cases heq : id = r.id
  · subst heq
    rw [stores_self hst hid] at hq
    cases hq
    exact absurd ht hqt
  · rw [stores_other hst hid heq] at hq
    rw [hT, Tunnels.lookup_reclaim, if_neg heq]
    exact h.slot id q hq hqt

theorem updated (hS : S.Lawful) (h : Addressed S s) {req : UpdateSessionStatusRequest}
    {r : SessionRecord} {resp : Except Status Response} (hn : Names S s req.sessionID r)
    (hs : Registry.step E S s (.rpc (.updateSessionStatus req)) = some s')
    (hup : Updated S req r resp s s')
    (hok : KeepsApart E S s (.rpc (.updateSessionStatus req))) : Addressed S s' := by
  obtain ⟨hrevive, hclose⟩ := hok r hn
  have hT := hup.tunnels
  by_cases hc : Closes req r
  · rw [if_pos hc] at hT
    obtain ⟨-, hcopy, -⟩ | ⟨-, hrej, -⟩ | ⟨-, -, t, hst⟩ := hup.stores
    · obtain ⟨⟨_, _⟩, hrun, rfl⟩ := Option.map_eq_some_iff.mp hs
      have hst := leads_iff.mp (closeAccepted_leads hS hcopy hn hc (hclose hc)) _ _ hrun
      exact h.of_terminated hst (origin_updateRecord req _ r) hT
        ((status_updateRecord req _ r).trans hc.1)
    · exact absurd (hrej.1.symm.trans hc.1) (by decide)
    · exact h.of_terminated hst (origin_updateRecord req t r) hT
        ((status_updateRecord req t r).trans hc.1)
  · rw [if_neg hc] at hT
    have hkeep : (¬Rejected req ∨ S.shared = true) → req.status ≠ "terminated" →
        r.status ≠ "terminated" := fun heff hne ht => hne (hrevive heff ht)
    obtain ⟨-, -, hst⟩ | ⟨-, -, hshared, t, hst⟩ | ⟨-, hrej, t, hst⟩ := hup.stores
    · exact h.of_eq hst hT
    · apply h.of_stores hn.2 hst (origin_assigned req t r) hT
      rw [status_assigned]
      exact hkeep (.inr hshared)
    · apply h.of_stores hn.2 hst (origin_updateRecord req t r) hT
      rw [status_updateRecord]
      exact hkeep (.inl hrej)

theorem created (hS : S.Lawful) (hf : Fresh E S s) (h : Addressed S s)
    {req : CreateSessionRequest} {providerID : String} {ips : String × String} {T : Tunnels}
    {resp : Except Status Response}
    (halloc : s.tunnels.allocateTunnelIPs (E.uuid (s.clock + 4)) = some (.ok ips, T))
    (hcr : Created E S req (newSession E s.clock req providerID ips) T resp s s') :
    Addressed S s' := by
  have hclock : s.clock ≤ s.clock + 4 := Nat.le_add_right _ _
  have hwf := h.wf.allocate (hf.slot _ hclock) halloc
  obtain ⟨hres, -⟩ | ⟨n, idx, -, hres, rfl⟩ := Tunnels.allocateTunnelIPs_cases halloc
  · cases hres
  cases hres
  refine ⟨hcr.tunnels ▸ hwf, ?_⟩
  have hslot : ∀ id r, S.session s.store id = some r → r.status ≠ "terminated" →
      ∃ idx, s'.tunnels.usedTunnelIdxs.lookup id = some idx ∧ r.wgProviderIP = providerIP idx ∧
        r.wgRenterIP = renterIP idx := by
    intro id r hr ht
    have hne : id ≠ E.uuid (s.clock + 4) := by
      rintro rfl
      rw [hf.session _ hclock] at hr
      cases hr
    rw [hcr.tunnels, Map.lookup_insert, if_neg hne]
    exact h.slot id r hr ht
  intro id r hr ht
  obtain ⟨hst, -⟩ | ⟨hst, -⟩ := hcr.session hS (hf.session _ hclock)
  · rw [hst] at hr
    exact hslot id r hr ht
  · rw [hst id] at hr
    split at hr
    next hid =>
      cases hr
      refine ⟨idx, ?_, rfl, rfl⟩
      rw [hcr.tunnels, Map.lookup_insert]
      exact if_pos hid
    next => exact hslot id r hr ht

theorem step (hS : S.Lawful) (hf : Fresh E S s) (h : Addressed S s) {e : Event}
    (hok : KeepsApart E S s e) (hs : Registry.step E S s e = some s') : Addressed S s' := by
  cases step_effect hS hs with
  | restart relayAddr =>
    refine ⟨Tunnels.newTunnels_wf, fun id r hr ht => ?_⟩
    exact absurd (hok id r hr) ht
  | noRelay => exact h
  | relay hrelay hnext => exact h.of_eq rfl rfl
  | untouched hu => exact h.of_eq hu.session hu.tunnels
  | exchanged hn hx => exact h.of_eq hx.session hx.tunnels
  | terminated hn hterm =>
    obtain ⟨t, hst⟩ := hterm.stores
    exact h.of_terminated hst rfl hterm.tunnels rfl
  | reported hn hrep =>
    obtain ⟨-, hst⟩ | ⟨-, hst⟩ := hrep.stores
    · exact h.of_eq hst hrep.tunnels
    · exact h.of_stores hn.2 hst rfl hrep.tunnels (fun ht => ht)
  | created halloc hcr => exact h.created hS hf halloc hcr
  | updated hn hup => exact h.updated hS hn hs hup hok

end Addressed

/-- In a run that starts with a new server and keeps to `KeepsApart`, the addresses of the
sessions that are not terminated are all different in every state reached. -/
theorem addresses_apart (hS : S.Lawful) (es : List Event) (hf : Fresh E S s)
    (hnew : s.tunnels = newTunnels)
    (hdone : ∀ id r, S.session s.store id = some r → r.status = "terminated")
    (hok : Step.Along (step E S) (KeepsApart E S) es s) :
    ∀ t ∈ Step.trace (step E S) es s, AddressesApart S t := by
  have hs : Fresh E S s ∧ Addressed S s := by
    refine ⟨hf, hnew ▸ Tunnels.newTunnels_wf, fun id r hr ht => ?_⟩
    exact absurd (hdone id r hr) ht
  intro t ht
  apply Addressed.apart
  refine (Step.forall_mem_trace (I := fun s => Fresh E S s ∧ Addressed S s) ?_ hok hs t ht).2
  intro s s' e hok hs h
  exact ⟨hs.1.step hS h, hs.2.step hS hs.1 hok h⟩

theorem terminateOne_done {s : Server Tables}
    (h : Step.run (step countingEnv (PostgresStore.tableStore (PostgresStore.faultless
      (fun _ => Order.id)))) [createOne, terminateOne] oneProvider = some s) :
    ∀ id r, s.store.sessions.lookup id = some r → r.status = "terminated" := by
  have hstored : (Step.run (step countingEnv (PostgresStore.tableStore (PostgresStore.faultless
      (fun _ => Order.id)))) [createOne, terminateOne] oneProvider).map (fun s =>
        (s.store.sessions.keys, (s.store.sessions.lookup "session-4").map (·.status))) =
      some (["session-4"], some "terminated") := by decide +kernel
  rw [h] at hstored
  simp only [Option.map_some, Option.some.injEq, Prod.mk.injEq] at hstored
  intro id r hr
  have hid : id ∈ s.store.sessions.keys := Map.mem_keys_iff.mpr ⟨r, hr⟩
  rw [hstored.1, List.mem_singleton] at hid
  rw [← hid, hr] at hstored
  exact Option.some.inj hstored.2

theorem addresses_apart_restart :
    (Step.trace (step countingEnv (PostgresStore.tableStore (PostgresStore.faultless
      (fun _ => Order.id)))) [createOne, terminateOne, .restart none, createOne, createOne]
      oneProvider).length = 6 ∧
    ∀ t ∈ Step.trace (step countingEnv (PostgresStore.tableStore (PostgresStore.faultless
      (fun _ => Order.id)))) [createOne, terminateOne, .restart none, createOne, createOne]
      oneProvider, AddressesApart (PostgresStore.tableStore (PostgresStore.faultless
        (fun _ => Order.id))) t := by
  refine ⟨by decide +kernel, addresses_apart (PostgresStore.tableStore_lawful _) _
    (Fresh.counting rfl rfl) rfl (fun _ _ h => by cases h)
    ⟨trivial, fun s hs => ⟨trivial, fun s' hs' => ⟨?_, fun _ _ => ?_⟩⟩⟩⟩
  · refine terminateOne_done (s := s') ?_
    simp only [Step.run, hs, hs', Option.bind_some]
  · exact ⟨trivial, fun _ _ => ⟨trivial, fun _ _ => trivial⟩⟩

/-- The first session created after a restart is given the addresses of a session that is still
pending. -/
theorem restart_reuses_addresses :
    ∃ s, Step.run (step countingEnv (PostgresStore.tableStore (PostgresStore.faultless
      (fun _ => Order.id)))) [createOne, .restart none, createOne] oneProvider = some s ∧
      ¬AddressesApart (PostgresStore.tableStore (PostgresStore.faultless (fun _ => Order.id))) s := by
  have hrun : (Step.run (step countingEnv (PostgresStore.tableStore (PostgresStore.faultless
      (fun _ => Order.id)))) [createOne, .restart none, createOne] oneProvider).map (fun s =>
        ["session-4", "session-14"].map (fun id => (s.store.sessions.lookup id).map (fun r =>
          (r.status, r.wgProviderIP, r.wgRenterIP)))) =
      some [some ("pending", "10.99.1.1", "10.99.1.2"),
        some ("pending", "10.99.1.1", "10.99.1.2")] := by decide +kernel
  obtain ⟨s, hs, hsessions⟩ := Option.map_eq_some_iff.mp hrun
  simp only [List.map_cons, List.map_nil, List.cons.injEq, and_true, Option.map_eq_some_iff,
    Prod.mk.injEq] at hsessions
  obtain ⟨⟨r, hr, ht, hp, -⟩, r', hr', ht', hp', -⟩ := hsessions
  refine ⟨s, hs, fun h => ?_⟩
  refine (h "session-4" "session-14" r r' (by decide) hr hr' ?_ ?_).1 (hp.trans hp'.symm)
  · rw [ht]
    decide
  · rw [ht']
    decide

end PeerCompute.Registry
