import PeerCompute.Agent.Custody
import PeerCompute.Agent.HostLaws

/-! What a run of `startSession` has put on the host, step by step. -/

namespace PeerCompute.Agent

open PeerCompute.Data PeerCompute.Interleaving PeerCompute.Computev1

/-- A container of the session. -/
def Host.Contains (s : Host) (id c : String) : Prop :=
  ∃ x, s.containers.lookup c = some x ∧ x.name = containerName id

namespace Remains

variable {E : Env} {s t t' : Host} {n : Nat} {id : String} {a : Action} {res : a.Res}

/-- What a `startSession` has made and not removed yet. -/
structure Holding where
  container : Option String := none
  network : Bool := false
  interface : Bool := false
  relay : Bool := false

/-- Of the session, `t` has nothing beyond what `s` had, but for the holding. -/
structure Within (n : Nat) (id : String) (s t : Host) (h : Holding) : Prop where
  container : ∀ c, t.Contains id c → s.Contains id c ∨ h.container = some c
  network : (t.networks.lookup (networkName id)).isSome = true →
    (s.networks.lookup (networkName id)).isSome = true ∨ h.network = true
  interface : ifaceFromPath (configPath id) ∈ t.interfaces →
    ifaceFromPath (configPath id) ∈ s.interfaces ∨ h.interface = true
  relay : n ∈ t.relays → ⟨n, .relayClient⟩ ∉ t.cancelled → n ∈ s.relays ∨ h.relay = true

theorem Within.refl (n : Nat) (id : String) (s : Host) : Within n id s s {} :=
  ⟨fun _ hc => .inl hc, fun hn => .inl hn, fun hi => .inl hi, fun hr _ => .inl hr⟩

/-- Nothing of the session has been added. -/
structure Wanes (id : String) (t t' : Host) : Prop where
  containers : ∀ c, t'.Contains id c → t.Contains id c
  networks : ∀ name, (t'.networks.lookup name).isSome = true → (t.networks.lookup name).isSome = true
  interfaces : ∀ i ∈ t'.interfaces, i ∈ t.interfaces
  relays : t'.relays = t.relays
  cancelled : ∀ c ∈ t.cancelled, c ∈ t'.cancelled

theorem Wanes.of_eq (hc : t'.containers = t.containers) (hn : t'.networks = t.networks)
    (hi : t'.interfaces = t.interfaces) (hr : t'.relays = t.relays)
    (hd : t'.cancelled = t.cancelled) : Wanes id t t' := by
  refine ⟨fun c hcontains => ?_, fun _ h => hn ▸ h, fun _ h => hi ▸ h, hr, fun _ h => hd ▸ h⟩
  unfold Host.Contains at hcontains ⊢
  rwa [← hc]

theorem Wanes.within {h : Holding} (hw : Wanes id t t') (ht : Within n id s t h) :
    Within n id s t' h where
  container c hc := ht.container c (hw.containers c hc)
  network hn := ht.network (hw.networks _ hn)
  interface hi := ht.interface (hw.interfaces _ hi)
  relay hr hd := ht.relay (hw.relays ▸ hr) (fun hc => hd (hw.cancelled _ hc))

theorem wanes_erase (c : String) :
    Wanes id t { t with containers := t.containers.erase c } := by
  refine ⟨fun c' hc' => ?_, fun _ h => h, fun _ h => h, rfl, fun _ h => h⟩
  obtain ⟨x, hx, hname⟩ := hc'
  dsimp only at hx
  rw [Map.lookup_erase] at hx
  split at hx
  · cases hx
  · exact ⟨x, hx, hname⟩

/-- `ContainerStart` and `ContainerStop` leave a container its name. -/
theorem wanes_replace {c : String} {x y : Container} (hx : t.containers.lookup c = some x)
    (hy : y.name = x.name) : Wanes id t { t with containers := t.containers.insert c y } := by
  refine ⟨fun c' hc' => ?_, fun _ h => h, fun _ h => h, rfl, fun _ h => h⟩
  obtain ⟨z, hz, hname⟩ := hc'
  dsimp only at hz
  rw [Map.lookup_insert] at hz
  split at hz
  next heq =>
    subst heq
    cases hz
    exact ⟨x, hx, hy ▸ hname⟩
  next => exact ⟨z, hz, hname⟩

/-- The actions that add nothing to the host. -/
def Shedding : Action → Prop
  | .networkCreate _ _ | .containerCreate _ _ _ | .wgUp _ | .runRelayClient _ => False
  | _ => True

theorem wanes_exec (hx : exec E a t = some (res, t')) (ha : Shedding a) : Wanes id t t' := by
  obtain ⟨u, htouch, rfl⟩ := exec_touch hx
  suffices hwanes : Wanes id t u from
    ⟨hwanes.containers, hwanes.networks, hwanes.interfaces, hwanes.relays, hwanes.cancelled⟩
  cases htouch with
  | networkCreate | containerCreate | wgUp | runRelayClient => cases ha
  | nothing | reserve | release | take | setConnMode | registerProxy | assign | cancelRun |
    runSSHProxy | writeConfig | endCleanup | removeConfig | updateSessionStatus | go =>
    exact .of_eq rfl rfl rfl rfl rfl
  | cancel =>
    exact ⟨fun _ h => h, fun _ h => h, fun _ h => h, rfl, fun _ h => List.mem_append_right _ h⟩
  | networkRemove =>
    refine ⟨fun _ h => h, fun name hname => ?_, fun _ h => h, rfl, fun _ h => h⟩
    dsimp only at hname
    rw [Map.lookup_erase] at hname
    split at hname
    · cases hname
    · exact hname
  | containerRemoveNamed | containerRemove => exact wanes_erase _
  | containerStart hc => exact wanes_replace hc rfl
  | containerStop hc => exact wanes_replace hc rfl
  | wgDown =>
    exact ⟨fun _ h => h, fun _ h => h, fun _ h => (List.mem_filter.mp h).1, rfl, fun _ h => h⟩

/-- The actions by which no container gets lost. -/
def Sparing : Action → Prop
  | .containerRemoveNamed _ | .containerRemove _ | .containerCreate _ _ _ => False
  | _ => True

theorem contains_replace {c c' : String} {x y : Container} (hx : t.containers.lookup c' = some x)
    (hy : y.name = x.name) (hc : t.Contains id c) :
    Host.Contains { t with containers := t.containers.insert c' y } id c := by
  obtain ⟨z, hz, hname⟩ := hc
  by_cases heq : c = c'
  · subst heq
    rw [hx] at hz
    cases hz
    exact ⟨y, (Map.lookup_insert _ _ _ _).trans (if_pos rfl), hy.trans hname⟩
  · exact ⟨z, (Map.lookup_insert _ _ _ _).trans ((if_neg heq).trans hz), hname⟩

theorem contains_exec {c : String} (hx : exec E a t = some (res, t')) (ha : Sparing a)
    (hc : t.Contains id c) : t'.Contains id c := by
  obtain ⟨u, htouch, rfl⟩ := exec_touch hx
  suffices hcontains : u.Contains id c from hcontains
  cases htouch with
  | containerRemoveNamed | containerRemove | containerCreate => cases ha
  | containerStart hlookup => exact contains_replace hlookup rfl hc
  | containerStop hlookup => exact contains_replace hlookup rfl hc
  | _ => exact hc

/-! What is added. -/

theorem Within.networkCreate {h : Holding} {x : String} (ht : Within n id s t h)
    (hx : exec E (.networkCreate n (networkName id)) t = some (.ok x, t')) :
    Within n id s t' { h with network := true } := by
  obtain rfl := exec_networkCreate hx
  exact ⟨ht.container, fun _ => .inr rfl, ht.interface, ht.relay⟩

theorem Within.containerCreate {h : Holding} {name c : String} {config : ContainerConfig}
    (ht : Within n id s t h) (hnone : h.container = none)
    (hx : exec E (.containerCreate n name config) t = some (.ok c, t')) :
    Within n id s t' { h with container := some c } := by
  obtain ⟨-, rfl⟩ := exec_containerCreate hx
  refine ⟨fun c' hc' => ?_, ht.network, ht.interface, ht.relay⟩
  obtain ⟨y, hy, hname⟩ := hc'
  dsimp only at hy
  rw [Map.lookup_insert] at hy
  split at hy
  next heq => exact .inr (congrArg some heq.symm)
  next =>
    obtain hs | hheld := ht.container c' ⟨y, hy, hname⟩
    · exact .inl hs
    · rw [hnone] at hheld
      cases hheld

theorem Within.wgUp {h : Holding} {path : String} {r : Except CallError Unit}
    (ht : Within n id s t h) (hx : exec E (.wgUp path) t = some (r, t')) :
    Within n id s t' { h with interface := true } := by
  obtain ⟨u, htouch, rfl⟩ := exec_touch hx
  cases htouch with
  | nothing | wgUp => exact ⟨ht.container, ht.network, fun _ => .inr rfl, ht.relay⟩

theorem Within.runRelayClient {h : Holding} {m : Nat} {u : Unit} (ht : Within n id s t h)
    (hx : exec E (.runRelayClient m) t = some (u, t')) :
    Within n id s t' { h with relay := true } := by
  obtain ⟨-, rfl⟩ := exec_eq hx
  exact ⟨ht.container, ht.network, ht.interface, fun _ _ => .inr rfl⟩

/-! What is removed. -/

/-- The calls that remove something from the host. -/
def Removing : Action → Bool
  | .networkRemove _ | .containerRemoveNamed _ | .containerRemove _ | .wgDown _ => true
  | _ => false

/-- Docker and wg-quick remove what they are asked to, if it is there. -/
def Removed (a : Action) (r : a.Res) : Prop := Removing a = true → a.error r ≠ some .refused

instance (y : Σ a : signature.Act, signature.Res a) : Decidable (Removed y.1 y.2) :=
  inferInstanceAs (Decidable (_ → _))

theorem failure_refused {r : Except CallError Unit} (h : failure r ≠ some .refused) :
    r ≠ .error .refused := by
  rintro rfl
  exact h rfl

theorem Within.networkRemove {h : Holding} {r : Except CallError Unit} (ht : Within n id s t h)
    (hx : exec E (.networkRemove (networkName id)) t = some (r, t'))
    (hr : Removed (.networkRemove (networkName id)) r) :
    Within n id s t' { h with network := false } := by
  have hgone := exec_networkRemove_gone hx (failure_refused (hr rfl))
  have ht' := (wanes_exec hx trivial).within ht
  refine ⟨ht'.container, fun hn => ?_, ht'.interface, ht'.relay⟩
  rw [hgone] at hn
  cases hn

theorem Within.containerRemove {h : Holding} {c : String} {r : Except CallError Unit}
    (ht : Within n id s t h) (hc : ∀ c', h.container = some c' → c' = c)
    (hx : exec E (.containerRemove c) t = some (r, t')) (hr : Removed (.containerRemove c) r) :
    Within n id s t' { h with container := none } := by
  have hgone := exec_containerRemove hx (failure_refused (hr rfl))
  have ht' := (wanes_exec hx trivial).within ht
  refine ⟨fun c' hc' => ?_, ht'.network, ht'.interface, ht'.relay⟩
  obtain hs | hheld := ht'.container c' hc'
  · exact .inl hs
  · obtain ⟨x, hx', -⟩ := hc'
    rw [hc c' hheld, hgone] at hx'
    cases hx'

theorem Within.wgDown {h : Holding} {r : Except CallError Unit} (ht : Within n id s t h)
    (hx : exec E (.wgDown (configPath id)) t = some (r, t'))
    (hr : Removed (.wgDown (configPath id)) r) :
    Within n id s t' { h with interface := false } := by
  have hgone := exec_wgDown hx (failure_refused (hr rfl))
  have ht' := (wanes_exec hx trivial).within ht
  exact ⟨ht'.container, ht'.network, fun hi => absurd hi hgone, ht'.relay⟩

theorem Within.cancel {h : Holding} {cs : List Context} {u : Unit} (ht : Within n id s t h)
    (hcs : h.relay = true → ⟨n, .relayClient⟩ ∈ cs)
    (hx : exec E (.cancel cs) t = some (u, t')) : Within n id s t' { h with relay := false } := by
  have ht' := (wanes_exec hx trivial).within ht
  refine ⟨ht'.container, ht'.network, ht'.interface, fun hr hd => ?_⟩
  obtain hs | hheld := ht'.relay hr hd
  · exact .inl hs
  · obtain ⟨-, rfl⟩ := exec_eq hx
    exact absurd (List.mem_append_left _ (hcs hheld)) hd

end Remains

end PeerCompute.Agent
