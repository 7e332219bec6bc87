import PeerCompute.Plugin.Editing
import PeerCompute.Registry.Handlers
import PeerCompute.Registry.TunnelLaws

namespace PeerCompute.Registry

open PeerCompute.Data PeerCompute.Interleaving PeerCompute.Plugin PeerCompute.Computev1
  PeerCompute.Relay Prog

section

variable {σ : Type} {E : Env} {S : Store σ} {α : Type} {s : Server σ}
  {Q : α → Server σ → Prop}

def Server.tick (s : Server σ) : Server σ := { s with clock := s.clock + 1 }

/-! What each action does to the program that goes on after it. -/

theorem leads_now {f : Int → Prog signature α} :
    Leads (exec E S) (Call.now >>= f) s Q ↔
      Leads (exec E S) (f (E.now s.clock)) s.tick Q :=
  leads_perform rfl

theorem leads_newUUID {f : String → Prog signature α} :
    Leads (exec E S) (Call.newUUID >>= f) s Q ↔
      Leads (exec E S) (f (E.uuid s.clock)) s.tick Q :=
  leads_perform rfl

theorem leads_getProviderByPrefix {id : String}
    {f : Except StoreError (Ref ProviderRecord) → Prog signature α} :
    Leads (exec E S) (Call.getProviderByPrefix id >>= f) s Q ↔
      Leads (exec E S) (f (S.getProviderByPrefix s.clock s.store id)) s.tick Q :=
  leads_perform rfl

theorem leads_getSessionByPrefix {id : String}
    {f : Except StoreError (Ref SessionRecord) → Prog signature α} :
    Leads (exec E S) (Call.getSessionByPrefix id >>= f) s Q ↔
      Leads (exec E S) (f (S.getSessionByPrefix s.clock s.store id)) s.tick Q :=
  leads_perform rfl

theorem leads_listProviders {filter : ProviderFilter}
    {f : Except StoreError (List (Ref ProviderRecord)) → Prog signature α} :
    Leads (exec E S) (Call.listProviders filter >>= f) s Q ↔
      Leads (exec E S) (f (S.listProviders s.clock s.store filter)) s.tick Q :=
  leads_perform rfl

theorem leads_putProvider {ref : Ref ProviderRecord}
    {f : Except StoreError (Ref ProviderRecord) → Prog signature α} :
    Leads (exec E S) (Call.putProvider ref >>= f) s Q ↔
      Leads (exec E S) (f (s.stored (S.putProvider s.clock s.store ref)).1)
        { (s.stored (S.putProvider s.clock s.store ref)).2 with clock := s.clock + 1 } Q :=
  leads_perform rfl

theorem leads_setProvider {ref : Ref ProviderRecord} {a : ProviderAssign}
    {f : Ref ProviderRecord → Prog signature α} :
    Leads (exec E S) (Call.setProvider ref a >>= f) s Q ↔
      Leads (exec E S) (f (S.setProvider s.store a ref).1)
        (Server.tick { s with store := (S.setProvider s.store a ref).2 }) Q :=
  leads_perform rfl

theorem leads_loadProvider {ref : Ref ProviderRecord} {f : ProviderRecord → Prog signature α} :
    Leads (exec E S) (Call.loadProvider ref >>= f) s Q ↔
      Leads (exec E S) (f (S.loadProvider s.store ref)) s.tick Q :=
  leads_perform rfl

theorem leads_loadSession {ref : Ref SessionRecord} {f : SessionRecord → Prog signature α} :
    Leads (exec E S) (Call.loadSession ref >>= f) s Q ↔
      Leads (exec E S) (f (S.loadSession s.store ref)) s.tick Q :=
  leads_perform rfl

theorem leads_setSession {ref : Ref SessionRecord} {a : SessionAssign}
    {f : Ref SessionRecord → Prog signature α} :
    Leads (exec E S) (Call.setSession ref a >>= f) s Q ↔
      Leads (exec E S) (f (S.setSession s.store a ref).1)
        (Server.tick { s with store := (S.setSession s.store a ref).2 }) Q :=
  leads_perform rfl

theorem leads_reclaimTunnelIndex {id : String} {f : Unit → Prog signature α} :
    Leads (exec E S) (Call.reclaimTunnelIndex id >>= f) s Q ↔
      Leads (exec E S) (f ())
        (Server.tick { s with tunnels := s.tunnels.reclaimTunnelIndex id }) Q :=
  leads_perform rfl

theorem leads_putCandidates {id peerID : String} {cs : CandidateSet} {f : Unit → Prog signature α} :
    Leads (exec E S) (Call.putCandidates id peerID cs >>= f) s Q ↔
      Leads (exec E S) (f ()) (s.putCandidates id peerID cs).tick Q :=
  leads_perform rfl

theorem leads_deleteCandidates {id : String} {f : Unit → Prog signature α} :
    Leads (exec E S) (Call.deleteCandidates id >>= f) s Q ↔
      Leads (exec E S) (f ()) (Server.tick { s with candidates := s.candidates.erase id }) Q :=
  leads_perform rfl

theorem leads_invalidateRelay {token : String} {f : Unit → Prog signature α} :
    Leads (exec E S) (Call.invalidateRelay token >>= f) s Q ↔
      Leads (exec E S) (f ())
        (Server.tick { s with relay := s.relay.map (fun rs => rs.invalidateSession token) }) Q :=
  leads_perform rfl

theorem leads_meetsMinimum {id : String} {minScore : Nat}
    {f : Except String Bool → Prog signature α} :
    Leads (exec E S) (Call.meetsMinimum id minScore >>= f) s Q ↔
      Leads (exec E S) (f (E.meetsMinimum s.clock id minScore)) s.tick Q :=
  leads_perform rfl

theorem leads_recordOutcome {id : String} {success : Bool} {f : Unit → Prog signature α} :
    Leads (exec E S) (Call.recordOutcome id success >>= f) s Q ↔
      Leads (exec E S) (f ()) (Server.tick { s with outcomes := (id, success) :: s.outcomes }) Q :=
  leads_perform rfl

theorem leads_relayAddr {f : Option String → Prog signature α} :
    Leads (exec E S) (Call.relayAddr >>= f) s Q ↔
      Leads (exec E S) (f (s.relay.map RelayServer.advertised)) s.tick Q :=
  leads_perform rfl

theorem leads_putSession {ref : Ref SessionRecord}
    {f : Except StoreError (Ref SessionRecord) → Prog signature α} :
    Leads (exec E S) (Call.putSession ref >>= f) s Q ↔
      Leads (exec E S) (f (s.stored (S.putSession s.clock s.store ref)).1)
        { (s.stored (S.putSession s.clock s.store ref)).2 with clock := s.clock + 1 } Q :=
  leads_perform rfl

theorem leads_exchangeCandidates {id peerID : String} {cs : CandidateSet}
    {f : Option CandidateSet → Prog signature α} :
    Leads (exec E S) (Call.exchangeCandidates id peerID cs >>= f) s Q ↔
      Leads (exec E S)
        (f ((s.putCandidates id peerID cs).otherCandidates (E.order s.clock) id peerID))
        (s.putCandidates id peerID cs).tick Q :=
  leads_perform rfl

theorem leads_allocateTunnelIPs {id : String}
    {f : Except TunnelError (String × String) → Prog signature α} :
    Leads (exec E S) (Call.allocateTunnelIPs id >>= f) s Q ↔
      ∀ res T, s.tunnels.allocateTunnelIPs id = some (res, T) →
        Leads (exec E S) (f res) (Server.tick { s with tunnels := T }) Q := by
  refine leads_act.trans ⟨fun h res T hT => ?_, fun h r t hact => ?_⟩
  · exact h res _ (by simp only [exec, Server.act, hT]; rfl)
  · simp only [exec, Server.act, Option.map_map, Option.map_eq_some_iff] at hact
    obtain ⟨⟨res, T⟩, hT, heq⟩ := hact
    cases heq
    exact h res T hT

/-- The relay after `RegisterSession(token, id)`, if there is a relay. -/
def Registered (token id : String) (relay relay' : Option RelayServer) : Prop :=
  match relay with
  | none => relay' = none
  | some rs => ∃ now free rs', rs.registerSession now free token id = some rs' ∧ relay' = some rs'

theorem leads_registerRelay {token id : String} {f : Unit → Prog signature α}
    (h : ∀ relay', Registered token id s.relay relay' →
      Leads (exec E S) (f ()) (Server.tick { s with relay := relay' }) Q) :
    Leads (exec E S) (Call.registerRelay token id >>= f) s Q := by
  refine leads_act.mpr (fun r t hact => ?_)
  simp only [exec, Server.act] at hact
  cases hrelay : s.relay with
  | none =>
    rw [hrelay] at hact
    cases hact
    have h' := h none (by rw [hrelay]; exact rfl)
    simp only [Server.tick, ← hrelay] at h'
    exact h'
  | some rs =>
    rw [hrelay] at hact
    simp only [Option.map_map, Option.map_eq_some_iff] at hact
    obtain ⟨rs', hrs, heq⟩ := hact
    cases heq
    exact h (some rs') (by rw [hrelay]; exact ⟨_, _, rs', hrs, rfl⟩)

end

section

variable {σ : Type} {E : Env} {S : Store σ}

/-- Nothing that a session owns has changed. -/
structure Untouched (S : Store σ) (s s' : Server σ) : Prop where
  session : S.session s'.store = S.session s.store
  candidates : s'.candidates = s.candidates
  tunnels : s'.tunnels = s.tunnels
  relay : s'.relay = s.relay

theorem Untouched.refl (s : Server σ) : Untouched S s s := ⟨rfl, rfl, rfl, rfl⟩

/-- The request's session ID, or a prefix of it, names the stored session `r`. -/
def Names (S : Store σ) (s : Server σ) (id : String) (r : SessionRecord) : Prop :=
  S.getSessionByPrefix s.clock s.store id = .ok (S.handle r) ∧ S.session s.store r.id = some r

theorem Names.unique {s : Server σ} {p : String} {r r' : SessionRecord} (hn : Names S s p r)
    (hn' : Names S s p r') : r' = r := by
  have hhandle : S.handle r' = S.handle r := Except.ok.inj (hn'.1.symm.trans hn.1)
  unfold Store.handle at hhandle
  split at hhandle
  next =>
    have hid : r'.id = r.id := by simpa using hhandle
    have hr := hn'.2
    rw [hid, hn.2] at hr
    exact (Option.some.inj hr).symm
  next => simpa using hhandle

/-- A handler that looked up `r₀` is editing it, and has brought the other resources of the
server to `c`, `T` and `R` and the outcomes it has reported to `O`. -/
structure Held (S : Store σ) (st₀ : σ) (c : Map String (Map String CandidateSet)) (T : Tunnels)
    (R : Option RelayServer) (O : List (String × Bool)) (r₀ r : SessionRecord)
    (ref : Ref SessionRecord) (s : Server σ) : Prop where
  editing : Editing S st₀ s.store r₀ r ref
  candidates : s.candidates = c
  tunnels : s.tunnels = T
  relay : s.relay = R
  outcomes : s.outcomes = O

section

variable {st₀ : σ} {c : Map String (Map String CandidateSet)} {T : Tunnels}
  {R : Option RelayServer} {O : List (String × Bool)} {r₀ r : SessionRecord}
  {ref : Ref SessionRecord} {s : Server σ} {α : Type} {Q : α → Server σ → Prop}

theorem Held.get (hS : S.Lawful) {id : String}
    {f : Except StoreError (Ref SessionRecord) → Prog signature α}
    (herr : ∀ e s', (∀ r, ¬Names S s id r) → Untouched S s s' → s'.outcomes = s.outcomes →
      Leads (exec E S) (f (.error e)) s' Q)
    (hok : ∀ r ref s', Names S s id r →
      Held S s.store s.candidates s.tunnels s.relay s.outcomes r r ref s' →
      Leads (exec E S) (f (.ok ref)) s' Q) :
    Leads (exec E S) (Call.getSessionByPrefix id >>= f) s Q := by
  rw [leads_getSessionByPrefix]
  cases hget : S.getSessionByPrefix s.clock s.store id with
  | error e =>
    refine herr e s.tick (fun r hn => ?_) ⟨rfl, rfl, rfl, rfl⟩ rfl
    rw [hn.1] at hget
    cases hget
  | ok ref =>
    obtain ⟨r, href, hed⟩ := hS.editing hget
    exact hok r ref s.tick ⟨href ▸ hget, hed.before⟩ ⟨hed, rfl, rfl, rfl, rfl⟩

theorem Held.set (hS : S.Lawful) (h : Held S st₀ c T R O r₀ r ref s) {a : SessionAssign}
    {f : Ref SessionRecord → Prog signature α}
    (hnext : ∀ ref' s', Held S st₀ c T R O r₀ (a.apply r) ref' s' →
      Leads (exec E S) (f ref') s' Q) :
    Leads (exec E S) (Call.setSession ref a >>= f) s Q := by
  rw [leads_setSession]
  exact hnext _ _ ⟨h.editing.set hS a, h.candidates, h.tunnels, h.relay, h.outcomes⟩

theorem Held.now (h : Held S st₀ c T R O r₀ r ref s) {f : Int → Prog signature α}
    (hnext : ∀ t s', Held S st₀ c T R O r₀ r ref s' → Leads (exec E S) (f t) s' Q) :
    Leads (exec E S) (Call.now >>= f) s Q := by
  rw [leads_now]
  exact hnext _ _ ⟨h.editing, h.candidates, h.tunnels, h.relay, h.outcomes⟩

theorem Held.load (h : Held S st₀ c T R O r₀ r ref s) {f : SessionRecord → Prog signature α}
    (hnext : ∀ s', Held S st₀ c T R O r₀ r ref s' → Leads (exec E S) (f r) s' Q) :
    Leads (exec E S) (Call.loadSession ref >>= f) s Q := by
  rw [leads_loadSession, h.editing.load]
  exact hnext _ ⟨h.editing, h.candidates, h.tunnels, h.relay, h.outcomes⟩

theorem Held.recordOutcome (h : Held S st₀ c T R O r₀ r ref s) {id : String} {success : Bool}
    {f : Unit → Prog signature α}
    (hnext : ∀ s', Held S st₀ c T R ((id, success) :: O) r₀ r ref s' →
      Leads (exec E S) (f ()) s' Q) :
    Leads (exec E S) (Call.recordOutcome id success >>= f) s Q := by
  rw [leads_recordOutcome]
  exact hnext _ ⟨h.editing, h.candidates, h.tunnels, h.relay, congrArg _ h.outcomes⟩

theorem Held.reclaim (h : Held S st₀ c T R O r₀ r ref s) {id : String} {f : Unit → Prog signature α}
    (hnext : ∀ s', Held S st₀ c (T.reclaimTunnelIndex id) R O r₀ r ref s' →
      Leads (exec E S) (f ()) s' Q) :
    Leads (exec E S) (Call.reclaimTunnelIndex id >>= f) s Q := by
  rw [leads_reclaimTunnelIndex]
  exact hnext _ ⟨h.editing, h.candidates, congrArg (·.reclaimTunnelIndex id) h.tunnels, h.relay,
    h.outcomes⟩

theorem Held.registerRelay (h : Held S st₀ c T R O r₀ r ref s) {token id : String}
    {f : Unit → Prog signature α}
    (hnext : ∀ R' s', Registered token id R R' → Held S st₀ c T R' O r₀ r ref s' →
      Leads (exec E S) (f ()) s' Q) :
    Leads (exec E S) (Call.registerRelay token id >>= f) s Q :=
  leads_registerRelay (fun R' hR' => hnext R' _ (h.relay ▸ hR')
    ⟨h.editing, h.candidates, h.tunnels, rfl, h.outcomes⟩)

/-- The write at the end: it is refused and nothing is stored, or the record is stored. -/
theorem Held.put (hS : S.Lawful) (h : Held S st₀ c T R O r₀ r ref s)
    {f : Except StoreError (Ref SessionRecord) → Prog signature α}
    (herr : ∀ e s', ¬S.NeverFails → S.shared = false → S.session s'.store = S.session st₀ →
      s'.candidates = c → s'.tunnels = T → s'.relay = R → s'.outcomes = O →
      Leads (exec E S) (f (.error e)) s' Q)
    (hok : ∀ ref' s', S.Stores st₀ r s'.store → S.loadSession s'.store ref' = r →
      s'.candidates = c → s'.tunnels = T → s'.relay = R → s'.outcomes = O →
      Leads (exec E S) (f (.ok ref')) s' Q) :
    Leads (exec E S) (Call.putSession ref >>= f) s Q := by
  rw [leads_putSession]
  cases hput : S.putSession s.clock s.store ref with
  | error e =>
    obtain ⟨hs, hst⟩ := h.editing.put_error hS hput
    refine herr e _ (fun hfail => ?_) hs hst h.candidates h.tunnels h.relay h.outcomes
    obtain ⟨x, hx⟩ := hfail s.clock s.store ref
    rw [hput] at hx
    cases hx
  | ok x =>
    obtain ⟨hload, hstores⟩ := h.editing.put_ok hS hput
    exact hok x.1 _ hstores hload h.candidates h.tunnels h.relay h.outcomes

end

end

end PeerCompute.Registry
