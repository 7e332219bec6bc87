import PeerCompute.Registry.Effects
import PeerCompute.Relay.ServerLaws

namespace PeerCompute.Registry

open PeerCompute.Data PeerCompute.Interleaving PeerCompute.Plugin PeerCompute.Computev1
  PeerCompute.Relay Prog

variable {σ : Type} {E : Env} {S : Store σ} {s s' : Server σ}

/-- A stored session that is not terminated, with the token `token`. -/
def LiveToken (S : Store σ) (s : Server σ) (token : String) : Prop :=
  ∃ r, S.session s.store r.id = some r ∧ r.relayToken = token ∧ r.status ≠ "terminated"

def Live (S : Store σ) (s : Server σ) (id : String) : Prop :=
  ∃ r, S.session s.store id = some r ∧ r.status ≠ "terminated"

/-- The relay has an entry for `token`. -/
def Relays (s : Server σ) (token : String) : Prop :=
  ∃ rs p, s.relay = some rs ∧ rs.sessions.lookup token = some p

/-- Every entry of the candidates and of the relay belongs to a session that is not terminated. -/
structure NoOrphans (S : Store σ) (s : Server σ) : Prop where
  candidates : ∀ id ∈ s.candidates.keys, Live S s id
  relay : ∀ token, Relays s token → LiveToken S s token

/-- What leaves no orphans: the session that `UpdateSessionStatus` terminates has neither
candidates nor a relay entry, and a terminated session is not given any. -/
def LeavesNone (E : Env) (S : Store σ) (s : Server σ) : Event → Prop
  | .rpc (.updateSessionStatus req) => ∀ r, Names S s req.sessionID r → Closes req r →
    CloseAccepted E S s req r → r.id ∉ s.candidates.keys ∧ ¬Relays s r.relayToken
  | .rpc (.exchangeCandidates req) => ∀ r, Names S s req.sessionID r → r.status ≠ "terminated"
  | .rpc (.reportConnectionResult req) => ∀ r, Names S s req.sessionID r → req.useRelay = true →
    s.relay.isSome = true → r.status ≠ "terminated"
  | _ => True

theorem relays_of_eq (hR : s'.relay = s.relay) {token : String} : Relays s' token → Relays s token := by
  rintro ⟨rs, p, hrs, hp⟩
  exact ⟨rs, p, hR ▸ hrs, hp⟩

theorem mem_keys_putCandidates {id id' peerID : String} {cs : CandidateSet} :
    id' ∈ (s.putCandidates id peerID cs).candidates.keys ↔
      id' = id ∨ id' ∈ s.candidates.keys := by
  rw [Map.mem_keys_iff, Map.mem_keys_iff]
  simp only [Server.putCandidates, Map.lookup_insert]
  split
  next h => simp [h]
  next h => simp [h]

theorem mem_keys_erase {m : Map String (Map String CandidateSet)} {id id' : String} :
    id' ∈ (m.erase id).keys ↔ id' ≠ id ∧ id' ∈ m.keys := by
  rw [Map.mem_keys_iff, Map.mem_keys_iff, Map.lookup_erase]
  split
  next h => simp [h]
  next h => simp [h]

/-- Every session that is not terminated stays so. -/
structure KeepsLive (S : Store σ) (s s' : Server σ) : Prop where
  session : ∀ {id}, Live S s id → Live S s' id
  token : ∀ {token}, LiveToken S s token → LiveToken S s' token

theorem KeepsLive.of_eq (h : S.session s'.store = S.session s.store) : KeepsLive S s s' := by
  constructor
  · rintro id ⟨r, hr, ht⟩
    exact ⟨r, h ▸ hr, ht⟩
  · rintro token ⟨r, hr, htok, ht⟩
    exact ⟨r, h ▸ hr, htok, ht⟩

section

variable {r r' : SessionRecord} (hst : S.Stores s.store r' s'.store) (hid : r'.origin = r.origin)
  (hr : S.session s.store r.id = some r)

include hst hid

theorem live_of_stores {id : String} (hne : id ≠ r.id) (h : Live S s id) : Live S s' id := by
  obtain ⟨q, hq, ht⟩ := h
  exact ⟨q, (stores_other hst hid hne).trans hq, ht⟩

include hr

theorem liveToken_of_stores {token : String} (hne : token ≠ r.relayToken)
    (h : LiveToken S s token) : LiveToken S s' token := by
  obtain ⟨q, hq, htok, ht⟩ := h
  refine ⟨q, ?_, htok, ht⟩
  rw [stores_other hst hid, hq]
  intro heq
  rw [heq, hr] at hq
  cases hq
  exact hne htok.symm

theorem KeepsLive.of_stores (hkeep : r.status ≠ "terminated" → r'.status ≠ "terminated") :
    KeepsLive S s s' := by
  have hself := stores_self hst hid
  constructor
  · intro id h
    by_cases heq : id = r.id
    · obtain ⟨q, hq, ht⟩ := h
      rw [heq, hr] at hq
      cases hq
      exact ⟨r', heq ▸ hself, hkeep ht⟩
    · exact live_of_stores hst hid heq h
  · rintro token ⟨q, hq, htok, ht⟩
    by_cases heq : q.id = r.id
    · rw [heq, hr] at hq
      cases hq
      refine ⟨r', ?_, (SessionRecord.relayToken_of_origin hid).trans htok, hkeep ht⟩
      rwa [SessionRecord.id_of_origin hid]
    · exact ⟨q, (stores_other hst hid heq).trans hq, htok, ht⟩

end

namespace NoOrphans

/-- A step after which everything that was alive still is. -/
theorem of_keepsLive (h : NoOrphans S s) (hk : KeepsLive S s s')
    (hc : ∀ id ∈ s'.candidates.keys, Live S s' id ∨ id ∈ s.candidates.keys)
    (hr : ∀ token, Relays s' token → LiveToken S s' token ∨ Relays s token) :
    NoOrphans S s' := by
  constructor
  · intro id hid
    obtain hl | hid := hc id hid
    · exact hl
    · exact hk.session (h.candidates id hid)
  · intro token ht
    obtain hl | ht := hr token ht
    · exact hl
    · exact hk.token (h.relay token ht)

/-- A step that terminates `r` and leaves it without candidates and without a relay entry. -/
theorem of_terminated (h : NoOrphans S s) {r r' : SessionRecord}
    (hst : S.Stores s.store r' s'.store) (hid : r'.origin = r.origin)
    (hr : S.session s.store r.id = some r)
    (hc : ∀ id ∈ s'.candidates.keys, id ≠ r.id ∧ id ∈ s.candidates.keys)
    (hrel : ∀ token, Relays s' token → token ≠ r.relayToken ∧ Relays s token) :
    NoOrphans S s' := by
  constructor
  · intro id hmem
    obtain ⟨hne, hmem⟩ := hc id hmem
    exact live_of_stores hst hid hne (h.candidates id hmem)
  · intro token ht
    obtain ⟨hne, ht⟩ := hrel token ht
    exact liveToken_of_stores hst hid hr hne (h.relay token ht)

theorem terminated (h : NoOrphans S s) {r : SessionRecord} (hr : S.session s.store r.id = some r)
    (htok : r.relayToken ≠ "") (ht : Terminated S r s s') : NoOrphans S s' := by
  obtain ⟨t, hst⟩ := ht.stores
  apply h.of_terminated (r := r) hst rfl hr
  · intro id hid
    rwa [ht.candidates, mem_keys_erase] at hid
  · rintro token ⟨rs, p, hrs, hp⟩
    rw [ht.relay, if_pos htok] at hrs
    obtain ⟨rs₀, hrs₀, rfl⟩ := Option.map_eq_some_iff.mp hrs
    rw [RelayServer.invalidateSession, RelayServer.lookup_dropSession] at hp
    split at hp
    next => cases hp
    next hne => exact ⟨hne, rs₀, p, hrs₀, hp⟩

theorem exchanged (h : NoOrphans S s) {req : ExchangeCandidatesRequest} {r : SessionRecord}
    (hr : S.session s.store r.id = some r) (hlive : r.status ≠ "terminated")
    (hx : Exchanged S req r s s') : NoOrphans S s' := by
  have hk : KeepsLive S s s' := .of_eq hx.session
  apply h.of_keepsLive hk
  · intro id hid
    rw [hx.candidates, mem_keys_putCandidates] at hid
    refine hid.imp (fun heq => hk.session ?_) (fun hmem => hmem)
    exact ⟨r, heq ▸ hr, hlive⟩
  · exact fun token ht => .inr (relays_of_eq hx.relay ht)

theorem reported (h : NoOrphans S s) {req : ReportConnectionResultRequest} {r : SessionRecord}
    {resp : Except Status Response} (hr : S.session s.store r.id = some r)
    (hlive : req.useRelay = true → s.relay.isSome = true → r.status ≠ "terminated")
    (hrep : Reported S req r resp s s') : NoOrphans S s' := by
  have hk : KeepsLive S s s' := by
    obtain ⟨-, hst⟩ | ⟨-, hst⟩ := hrep.stores
    · exact .of_eq hst
    · exact .of_stores (r := r) hst rfl hr (fun ht => ht)
  apply h.of_keepsLive hk
  · intro id hid
    rw [hrep.candidates] at hid
    exact .inr hid
  · rintro token ⟨rs', p, hrs', hp⟩
    have hrel := hrep.relay
    split at hrel
    next huse =>
      unfold Registered at hrel
      split at hrel
      next =>
        rw [hrel] at hrs'
        cases hrs'
      next rs hrs =>
        obtain ⟨now, free, rs'', hreg, heq⟩ := hrel
        rw [heq] at hrs'
        cases hrs'
        obtain ⟨_, hreg⟩ := RelayServer.registerSession_eq_some hreg
        rw [hreg.sessions, Map.lookup_insert] at hp
        split at hp
        next htok =>
          refine .inl (hk.token ⟨r, hr, htok.symm, hlive huse ?_⟩)
          rw [hrs]
          rfl
        next => exact .inr ⟨rs, p, hrs, hp⟩
    next => exact .inr (relays_of_eq hrel ⟨rs', p, hrs', hp⟩)

theorem updated (hS : S.Lawful) (h : NoOrphans S s) {req : UpdateSessionStatusRequest}
    {r : SessionRecord} {resp : Except Status Response} (hn : Names S s req.sessionID r)
    (hs : Registry.step E S s (.rpc (.updateSessionStatus req)) = some s')
    (hok : LeavesNone E S s (.rpc (.updateSessionStatus req))) (hup : Updated S req r resp s s') :
    NoOrphans S s' := by
  have hkeep : KeepsLive S s s' → NoOrphans S s' := by
    intro hk
    apply h.of_keepsLive hk
    · intro id hid
      rw [hup.candidates] at hid
      exact .inr hid
    · exact fun token ht => .inr (relays_of_eq hup.relay ht)
  by_cases hc : Closes req r
  · by_cases hacc : CloseAccepted E S s req r
    · obtain ⟨hcand, hrel⟩ := hok r hn hc hacc
      have hclosed : ∀ t, S.Stores s.store (updateRecord req t r) s'.store → NoOrphans S s' := by
        intro t hst
        apply h.of_terminated hst (origin_updateRecord req t r) hn.2
        · intro id hid
          rw [hup.candidates] at hid
          exact ⟨fun heq => hcand (heq ▸ hid), hid⟩
        · intro token ht
          have ht := relays_of_eq hup.relay ht
          exact ⟨fun heq => hrel (heq ▸ ht), ht⟩
      obtain ⟨-, hcopy, -⟩ | ⟨-, hrej, -⟩ | ⟨-, -, t, hst⟩ := hup.stores
      · obtain ⟨⟨_, _⟩, hrun, rfl⟩ := Option.map_eq_some_iff.mp hs
        exact hclosed _ (leads_iff.mp (closeAccepted_leads hS hcopy hn hc hacc) _ _ hrun)
      · exact absurd (hrej.1.symm.trans hc.1) (by decide)
      · exact hclosed t hst
    · obtain ⟨⟨_, _⟩, hrun, rfl⟩ := Option.map_eq_some_iff.mp hs
      exact hkeep (.of_eq (leads_iff.mp (closeRefused_leads hn hc hacc) _ _ hrun))
  · have hopen : r.status ≠ "terminated" → req.status ≠ "terminated" := fun ht heq => hc ⟨heq, ht⟩
    obtain ⟨-, -, hst⟩ | ⟨-, -, -, t, hst⟩ | ⟨-, -, t, hst⟩ := hup.stores
    · exact hkeep (.of_eq hst)
    · refine hkeep (.of_stores hst (origin_assigned req t r) hn.2 ?_)
      rwa [status_assigned]
    · refine hkeep (.of_stores hst (origin_updateRecord req t r) hn.2 ?_)
      rwa [status_updateRecord]

theorem created (hS : S.Lawful) (hf : Fresh E S s) (h : NoOrphans S s) {req : CreateSessionRequest}
    {providerID : String} {ips : String × String} {T : Tunnels} {resp : Except Status Response}
    (hcr : Created E S req (newSession E s.clock req providerID ips) T resp s s') :
    NoOrphans S s' := by
  have hnew := hf.session (s.clock + 4) (Nat.le_add_right _ _)
  obtain ⟨hst, hc⟩ | ⟨hst, hc⟩ := hcr.session hS hnew
  · apply h.of_keepsLive (.of_eq hst)
    · exact fun id hid => .inr (hc ▸ hid)
    · exact fun token ht => .inr (relays_of_eq hcr.relay ht)
  · have hother : ∀ id q, S.session s.store id = some q → S.session s'.store id = some q := by
      intro id q hq
      rw [hst id, if_neg, hq]
      rintro rfl
      rw [show S.session s.store (newSession E s.clock req providerID ips).id = none from hnew] at hq
      cases hq
    apply h.of_keepsLive
    · constructor
      · rintro id ⟨q, hq, ht⟩
        exact ⟨q, hother id q hq, ht⟩
      · rintro token ⟨q, hq, htok, ht⟩
        exact ⟨q, hother _ q hq, htok, ht⟩
    · intro id hid
      rw [hc, keptKey] at hid
      split at hid
      · refine (mem_keys_putCandidates.mp hid).imp (fun heq => ?_) (fun hmem => hmem)
        refine ⟨newSession E s.clock req providerID ips, ?_, ?_⟩
        · rw [hst id, if_pos heq]
        · simp [newSession]
      · exact .inr hid
    · exact fun token ht => .inr (relays_of_eq hcr.relay ht)

end NoOrphans

/-- Every stored session has a relay token. -/
def TokensGiven (S : Store σ) (s : Server σ) : Prop :=
  ∀ id r, S.session s.store id = some r → r.relayToken ≠ ""

theorem TokensGiven.step (hS : S.Lawful) (huuid : ∀ t, E.uuid t ≠ "") (hf : Fresh E S s)
    (h : TokensGiven S s) {e : Event} (hs : step E S s e = some s') : TokensGiven S s' := by
  intro id q hq
  cases step_view hS hf hs with
  | same hst => exact h id q (hst ▸ hq)
  | @changed r r' hr hst hid hstatus =>
    rw [hst id] at hq
    split at hq
    · cases hq
      rw [SessionRecord.relayToken_of_origin hid]
      exact h r.id r hr
    · exact h id q hq
  | new hnew hclock hst =>
    rw [hst id] at hq
    split at hq
    · cases hq
      exact huuid _
    · exact h id q hq

theorem NoOrphans.step (hS : S.Lawful) (hf : Fresh E S s) (htok : TokensGiven S s)
    (h : NoOrphans S s) {e : Event} (hok : LeavesNone E S s e) (hs : step E S s e = some s') :
    NoOrphans S s' := by
  cases step_effect hS hs with
  | restart relayAddr =>
    constructor
    · intro id hid
      cases hid
    · rintro token ⟨rs, p, hrs, hp⟩
      obtain ⟨addr, -, rfl⟩ := Option.map_eq_some_iff.mp hrs
      cases hp
  | noRelay => exact h
  | @relay e he rs rs' hrelay hnext =>
    have hk : KeepsLive S s { s with relay := some rs' } := .of_eq rfl
    apply h.of_keepsLive hk (fun id hid => .inr hid)
    rintro token ⟨_, p, heq, hp⟩
    cases heq
    exact .inr ⟨rs, p, hrelay, RelayServer.sessions_next he hnext hp⟩
  | untouched hu =>
    apply h.of_keepsLive (.of_eq hu.session)
    · exact fun id hid => .inr (hu.candidates ▸ hid)
    · exact fun token ht => .inr (relays_of_eq hu.relay ht)
  | terminated hn ht => exact h.terminated hn.2 (htok _ _ hn.2) ht
  | updated hn hup => exact h.updated hS hn hs hok hup
  | reported hn hrep => exact h.reported hn.2 (hok _ hn) hrep
  | exchanged hn hx => exact h.exchanged hn.2 (hok _ hn) hx
  | created halloc hcr => exact h.created hS hf hcr

/-- In a run that keeps to `LeavesNone`, no state reached has candidates or a relay entry of a
session that is terminated or not stored. -/
theorem no_orphans (hS : S.Lawful) (huuid : ∀ t, E.uuid t ≠ "") (es : List Event)
    (hf : Fresh E S s) (htok : TokensGiven S s) (hs : NoOrphans S s)
    (hok : Step.Along (step E S) (LeavesNone E S) es s) :
    ∀ t ∈ Step.trace (step E S) es s, NoOrphans S t := by
  intro t ht
  refine (Step.forall_mem_trace (I := fun s => Fresh E S s ∧ TokensGiven S s ∧ NoOrphans S s) ?_
    hok ⟨hf, htok, hs⟩ t ht).2.2
  rintro s s' e hok ⟨hf, htok, hs⟩ h
  exact ⟨hf.step hS h, htok.step hS huuid hf h, hs.step hS hf htok hok h⟩

def relayAttached : Server Tables := { oneProvider with relay := some (newRelayServer ":7000") }

def exchangeOne : Event := .rpc (.exchangeCandidates
  { sessionID := "session-4", peerID := "r", candidates := [], wgPublicKey := "key" })

theorem countingEnv_uuid_ne (t : Nat) : countingEnv.uuid t ≠ "" := by
  intro h
  have hl := congrArg String.length h
  simp [countingEnv, String.length_append] at hl

theorem exchangeOne_leavesNone {s : Server Tables}
    (h : step countingEnv (memoryStore (fun _ => Order.id)) relayAttached createOne = some s) :
    LeavesNone countingEnv (memoryStore (fun _ => Order.id)) s exchangeOne := by
  have hstored : (step countingEnv (memoryStore (fun _ => Order.id)) relayAttached createOne).map
      (fun s => ((memoryStore (fun _ => Order.id)).getSessionByPrefix s.clock s.store "session-4",
        (s.store.sessions.lookup "session-4").map (·.status))) =
      some (.ok (.stored "session-4"), some "pending") := by decide +kernel
  rw [h] at hstored
  simp only [Option.map_some, Option.some.injEq, Prod.mk.injEq] at hstored
  intro r hn
  rw [hn.status hstored.1 hstored.2]
  decide

theorem no_orphans_exchange :
    (Step.trace (step countingEnv (memoryStore (fun _ => Order.id)))
      [createOne, exchangeOne, terminateOne] relayAttached).length = 4 ∧
    ∀ t ∈ Step.trace (step countingEnv (memoryStore (fun _ => Order.id)))
      [createOne, exchangeOne, terminateOne] relayAttached,
      NoOrphans (memoryStore (fun _ => Order.id)) t := by
  refine ⟨by decide +kernel, no_orphans (memoryStore_lawful _) countingEnv_uuid_ne _
    (Fresh.counting rfl rfl) (fun _ _ h => by cases h) ⟨fun id hid => (by cases hid), ?_⟩ ?_⟩
  · rintro token ⟨rs, p, hrs, hp⟩
    cases hrs
    cases hp
  · refine ⟨trivial, fun s hs => ⟨exchangeOne_leavesNone hs, fun _ _ => ⟨trivial, fun _ _ => trivial⟩⟩⟩

/-- The provider's own report of the termination leaves the candidates behind. -/
theorem reported_termination_orphans_candidates :
    ∃ s, Step.run (step countingEnv (memoryStore (fun _ => Order.id)))
      [createOne, .rpc (.updateSessionStatus { sessionID := "session-4", status := "terminated" })]
      relayAttached = some s ∧ ¬NoOrphans (memoryStore (fun _ => Order.id)) s := by
  have hrun : (Step.run (step countingEnv (memoryStore (fun _ => Order.id)))
      [createOne, .rpc (.updateSessionStatus { sessionID := "session-4", status := "terminated" })]
      relayAttached).map (fun s =>
        (s.candidates.keys, (s.store.sessions.lookup "session-4").map (·.status))) =
      some (["session-4"], some "terminated") := by decide +kernel
  obtain ⟨s, hs, hstate⟩ := Option.map_eq_some_iff.mp hrun
  simp only [Prod.mk.injEq] at hstate
  refine ⟨s, hs, fun h => ?_⟩
  obtain ⟨r, hr, ht⟩ := h.candidates "session-4" (by rw [hstate.1]; exact .head _)
  rw [show s.store.sessions.lookup "session-4" = some r from hr] at hstate
  exact ht (Option.some.inj hstate.2)

end PeerCompute.Registry
