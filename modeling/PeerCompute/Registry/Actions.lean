import PeerCompute.Registry.HandlerSpecs

namespace PeerCompute.Registry

open PeerCompute.Data PeerCompute.Interleaving PeerCompute.Plugin PeerCompute.Computev1
  PeerCompute.Relay Prog

variable {σ : Type} {E : Env} {S : Store σ} {s s' : Server σ} {a : Action} {res : a.Res}

theorem exec_clock (h : exec E S a s = some (res, s')) : s'.clock = s.clock + 1 := by
  obtain ⟨x, -, hx⟩ := Option.map_eq_some_iff.mp h
  cases hx
  rfl

/-- Everything one action can do to the slots and the stored sessions. -/
inductive Touches (S : Store σ) (s s' : Server σ) : (a : Action) → a.Res → Prop
  | none {a : Action} {res : a.Res} (hview : S.session s'.store = S.session s.store)
      (hT : s'.tunnels = s.tunnels) : Touches S s s' a res
  | put {r : SessionRecord} {res : Except StoreError (Ref SessionRecord)}
      (hview : ∀ id, S.session s'.store id =
        if id = r.id then some (S.merge (S.session s.store r.id) r) else S.session s.store id)
      (hT : s'.tunnels = s.tunnels) : Touches S s s' (.putSession (.own r)) res
  | set {id : String} {b : SessionAssign} {ref : Ref SessionRecord}
      (hview : ∀ id', S.session s'.store id' =
        if id' = id then (S.session s.store id).map b.apply else S.session s.store id')
      (hT : s'.tunnels = s.tunnels) : Touches S s s' (.setSession (.stored id) b) ref
  | reclaim {id : String} (hview : S.session s'.store = S.session s.store)
      (hT : s'.tunnels = s.tunnels.reclaimTunnelIndex id) :
      Touches S s s' (.reclaimTunnelIndex id) ()
  | allocate {id : String} {res : Except TunnelError (String × String)}
      (hview : S.session s'.store = S.session s.store)
      (halloc : s.tunnels.allocateTunnelIPs id = some (res, s'.tunnels)) :
      Touches S s s' (.allocateTunnelIPs id) res

theorem exec_allocate {id : String} {res : Except TunnelError (String × String)}
    (h : exec E S (.allocateTunnelIPs id) s = some (res, s')) :
    S.session s'.store = S.session s.store ∧
      s.tunnels.allocateTunnelIPs id = some (res, s'.tunnels) := by
  simp only [exec, Server.act, Option.map_map] at h
  obtain ⟨⟨_, T⟩, hT, heq⟩ := Option.map_eq_some_iff.mp h
  cases heq
  exact ⟨rfl, hT⟩

/-- A put of a handler's own record: it is stored, or the store refuses it. -/
theorem exec_putSession (hS : S.Lawful) {r : SessionRecord}
    {res : Except StoreError (Ref SessionRecord)}
    (h : exec E S (.putSession (.own r)) s = some (res, s')) :
    s'.candidates = s.candidates ∧ s'.tunnels = s.tunnels ∧
      ((∃ e, S.putSession s.clock s.store (.own r) = .error e ∧ res = .error e ∧
          s'.store = s.store) ∨
        (res = .ok (S.handle r) ∧ ∀ id, S.session s'.store id =
          if id = r.id then some (S.merge (S.session s.store r.id) r)
          else S.session s.store id)) := by
  cases hput : S.putSession s.clock s.store (.own r) with
  | error e =>
    simp only [exec, Server.act, hput] at h
    cases h
    exact ⟨rfl, rfl, .inl ⟨e, rfl, rfl, rfl⟩⟩
  | ok x =>
    simp only [exec, Server.act, hput] at h
    cases h
    obtain ⟨href, hview⟩ := hS.put_own hput
    exact ⟨rfl, rfl, .inr ⟨congrArg Except.ok href, hview⟩⟩

theorem touches_putSession (hS : S.Lawful) {ref : Ref SessionRecord}
    {res : Except StoreError (Ref SessionRecord)}
    (h : exec E S (.putSession ref) s = some (res, s')) :
    Touches S s s' (.putSession ref) res := by
  cases ref with
  | own r =>
    obtain ⟨-, hT, ⟨e, -, -, hst⟩ | ⟨-, hview⟩⟩ := exec_putSession hS h
    · exact .none (congrArg _ hst) hT
    · exact .put hview hT
  | stored id =>
    cases hput : S.putSession s.clock s.store (.stored id) with
    | error e =>
      simp only [exec, Server.act, hput] at h
      cases h
      exact .none rfl rfl
    | ok x =>
      simp only [exec, Server.act, hput] at h
      cases h
      exact .none (hS.put_stored hput).2 rfl

theorem exec_touches (hS : S.Lawful) (h : exec E S a s = some (res, s')) :
    Touches S s s' a res := by
  by_cases hh : Harmless a
  · have hu := harmless_untouched hS hh h
    exact .none hu.session hu.tunnels
  cases a with
  | putSession ref => exact touches_putSession hS h
  | setSession ref b =>
    cases h
    cases ref with
    | own r => exact .none rfl rfl
    | stored id => exact .set (fun id' => hS.assign_session) rfl
  | allocateTunnelIPs id =>
    obtain ⟨hview, halloc⟩ := exec_allocate h
    exact .allocate hview halloc
  | reclaimTunnelIndex id =>
    cases h
    exact .reclaim rfl rfl
  | registerRelay token id =>
    simp only [exec, Server.act] at h
    split at h
    · cases h
      exact .none rfl rfl
    · obtain ⟨x, hx, heq⟩ := Option.map_eq_some_iff.mp h
      cases heq
      obtain ⟨rs', -, heq⟩ := Option.map_eq_some_iff.mp hx
      cases heq
      exact .none rfl rfl
  | putCandidates id peerID cs =>
    cases h
    exact .none rfl rfl
  | exchangeCandidates id peerID cs =>
    cases h
    exact .none rfl rfl
  | deleteCandidates id =>
    cases h
    exact .none rfl rfl
  | invalidateRelay token =>
    cases h
    exact .none rfl rfl
  | _ => exact absurd trivial hh

theorem exec_put_own (hS : S.Lawful) (hfail : S.NeverFails) {r : SessionRecord}
    {res : Except StoreError (Ref SessionRecord)}
    (h : exec E S (.putSession (.own r)) s = some (res, s')) :
    res = .ok (S.handle r) ∧ (∀ id, S.session s'.store id =
      if id = r.id then some (S.merge (S.session s.store r.id) r) else S.session s.store id) ∧
    s'.tunnels = s.tunnels := by
  obtain ⟨x, hx⟩ := hfail s.clock s.store (.own r)
  obtain ⟨-, hT, ⟨e, he, -⟩ | ⟨hres, hview⟩⟩ := exec_putSession hS h
  · rw [hx] at he
    cases he
  · exact ⟨hres, hview, hT⟩

theorem exec_registerRelay {token id : String} {res : Unit}
    (h : exec E S (.registerRelay token id) s = some (res, s')) :
    s'.relay.isSome = s.relay.isSome ∧ (s.relay.isSome = true → 8 ≤ id.utf8ByteSize) := by
  simp only [exec, Server.act] at h
  cases hrelay : s.relay with
  | none =>
    rw [hrelay] at h
    cases h
    exact ⟨congrArg Option.isSome hrelay, fun h => by cases h⟩
  | some rs =>
    rw [hrelay] at h
    obtain ⟨x, hx, heq⟩ := Option.map_eq_some_iff.mp h
    obtain ⟨rs', hrs, hx⟩ := Option.map_eq_some_iff.mp hx
    cases hx
    cases heq
    refine ⟨rfl, fun _ => ?_⟩
    unfold RelayServer.registerSession RelayServer.bindSession at hrs
    split at hrs
    next => cases hrs
    next hlen => exact Nat.le_of_not_lt hlen

/-- No action attaches a relay or takes it away. -/
theorem exec_relay (hS : S.Lawful) (h : exec E S a s = some (res, s')) :
    s'.relay.isSome = s.relay.isSome := by
  by_cases hh : Harmless a
  · exact congrArg Option.isSome (harmless_untouched hS hh h).relay
  cases a with
  | registerRelay token id => exact (exec_registerRelay h).1
  | allocateTunnelIPs id =>
    simp only [exec, Server.act, Option.map_map] at h
    obtain ⟨x, -, heq⟩ := Option.map_eq_some_iff.mp h
    cases heq
    rfl
  | putSession ref =>
    cases hput : S.putSession s.clock s.store ref with
    | error e =>
      simp only [exec, Server.act, hput] at h
      cases h
      rfl
    | ok x =>
      simp only [exec, Server.act, hput] at h
      cases h
      rfl
  | invalidateRelay token =>
    cases h
    exact Option.isSome_map
  | setSession | reclaimTunnelIndex | putCandidates | exchangeCandidates | deleteCandidates =>
    cases h
    rfl
  | _ => exact absurd trivial hh

/-- The actions that return in every state. -/
def total : Action → Bool
  | .allocateTunnelIPs _ | .registerRelay _ _ => false
  | _ => true

theorem exec_total (ha : total a = true) (s : Server σ) : ∃ x, exec E S a s = some x := by
  cases a with
  | allocateTunnelIPs | registerRelay => cases ha
  | _ => exact ⟨_, rfl⟩

end PeerCompute.Registry
