import PeerCompute.Agent.Remains
import PeerCompute.Agent.Uses

/-! A `startSession` that fails cleans up after itself. -/

namespace PeerCompute.Agent

open PeerCompute.Data PeerCompute.Interleaving PeerCompute.Computev1 Prog Remains

/-- The session is not in the map, and but for a config file it has nothing on the host that was not
there before. -/
structure Cleared (n : Nat) (id : String) (s t : Host) : Prop where
  session : t.sessions.lookup id = none
  container : ∀ c, t.Contains id c → s.Contains id c
  network : (t.networks.lookup (networkName id)).isSome = true →
    (s.networks.lookup (networkName id)).isSome = true
  interface : ifaceFromPath (configPath id) ∈ t.interfaces →
    ifaceFromPath (configPath id) ∈ s.interfaces
  relay : n ∈ t.relays → ⟨n, .relayClient⟩ ∉ t.cancelled → n ∈ s.relays

/-- And there is no config file either. -/
structure LeavesNothing (n : Nat) (id : String) (s t : Host) : Prop extends Cleared n id s t where
  config : t.configs.lookup (configPath id) = none

theorem Cleared.report {E : Env} {s t t' : Host} {n : Nat} {id : String}
    {req : UpdateSessionStatusRequest} {u : Unit} (hl : Cleared n id s t)
    (hx : exec E (.updateSessionStatus req) t = some (u, t')) :
    Cleared n id s t' ∧ t'.configs = t.configs := by
  obtain ⟨v, htouch, rfl⟩ := exec_touch hx
  cases htouch with
  | nothing | updateSessionStatus =>
    exact ⟨⟨hl.session, hl.container, hl.network, hl.interface, hl.relay⟩, rfl⟩

namespace Cleanup

/-- The host when nothing that is to be removed is refused. -/
noncomputable def machine (E : Env) : Exec signature Host :=
  guarded (exec E) (fun a _ r => Removed a r)

variable {E : Env} {s t t' : Host} {n : Nat} {id : String} {phase : Phase} {rs : RunningSession}
  {h : Holding}

/-- An action of the machine. -/
theorem leads_call {α : Type} {a : Action} {k : a.Res → Prog signature α}
    {Q : α → Host → Prop} (hk : ∀ r t', exec E a t = some (r, t') → Removed a r →
      Leads (machine E) (k r) t' Q) : Leads (S := signature) (machine E) (.act a k) t Q := by
  refine leads_act.mpr (fun r t' hx => ?_)
  obtain ⟨hexec, hr⟩ := guarded_eq_some.mp hx
  exact hk r t' hexec hr

/-- The attempt has come to a phase; its `runningSession` is `rs`, and it has made `h`. -/
structure Under (n : Nat) (id : String) (s : Host) (phase : Phase) (rs : RunningSession)
    (h : Holding) (t : Host) : Prop where
  within : Within n id s t h
  object : t.objects.lookup n = some rs
  attempt : t.attempts.lookup n = some ⟨id, phase⟩
  released : phase = .cleaning → t.sessions.lookup id = none
  clock : s.clock ≤ t.clock

/-- The actions that touch neither the map nor what is kept of the attempts. -/
def Aside : Action → Prop
  | .reserve _ _ | .release _ _ | .take _ | .setConnMode _ _ | .registerProxy _ _ | .assign _ _ |
    .removeConfig _ _ => False
  | _ => True

/-- What an action leaves as it is. -/
structure Frame (t t' : Host) : Prop where
  sessions : t'.sessions = t.sessions
  objects : t'.objects = t.objects
  attempts : t'.attempts = t.attempts
  clock : t.clock ≤ t'.clock

theorem frame_exec {a : Action} {r : a.Res} (hx : exec E a t = some (r, t')) (ha : Aside a) :
    Frame t t' := by
  obtain ⟨u, htouch, rfl⟩ := exec_touch hx
  cases htouch with
  | reserve | release | take | setConnMode | registerProxy | assign | endCleanup | removeConfig =>
    cases ha
  | _ => exact ⟨rfl, rfl, rfl, Nat.le_succ _⟩

theorem Under.frame {h' : Holding} (hu : Under n id s phase rs h t) (hw : Within n id s t' h')
    (hframe : Frame t t') : Under n id s phase rs h' t' :=
  ⟨hw, hframe.objects ▸ hu.object, hframe.attempts ▸ hu.attempt,
    fun hp => hframe.sessions ▸ hu.released hp, Nat.le_trans hu.clock hframe.clock⟩

/-- The actions that moreover add nothing to the host. -/
def Quiet (a : Action) : Prop := Aside a ∧ Shedding a

theorem Under.quiet {a : Action} {r : a.Res} (hu : Under n id s phase rs h t)
    (hx : exec E a t = some (r, t')) (ha : Quiet a) : Under n id s phase rs h t' :=
  hu.frame ((wanes_exec hx ha.2).within hu.within) (frame_exec hx ha.1)

theorem Under.tick (hu : Under n id s phase rs h t) : Under n id s phase rs h t.tick := by
  have hwanes : Wanes id t t.tick := .of_eq rfl rfl rfl rfl rfl
  exact hu.frame (hwanes.within hu.within) ⟨rfl, rfl, rfl, Nat.le_succ _⟩

theorem Under.assign {b : Assign} {u : Unit} (hu : Under n id s phase rs h t)
    (hx : exec E (.assign n b) t = some (u, t')) : Under n id s phase (b.apply rs) h t' := by
  have hw := (wanes_exec hx trivial).within hu.within
  obtain ⟨-, rfl⟩ := exec_eq hx
  refine ⟨hw, ?_, hu.attempt, hu.released, Nat.le_succ_of_le hu.clock⟩
  refine (Map.lookup_modify _ _ _ _).trans ?_
  rw [if_pos rfl, hu.object]
  rfl

theorem leads_quiet {α : Type} {p : Prog signature α} (hp : p.Uses Quiet)
    (hu : Under n id s phase rs h t) :
    Leads (machine E) p t (fun _ t' => Under n id s phase rs h t') := by
  refine Leads.mono (hp.leads (R := fun t t' => Under n id s phase rs h t →
    Under n id s phase rs h t') ?_ ?_ ?_ t) (fun _ _ hkeep => hkeep hu)
  · exact fun _ hu => hu
  · exact fun h₁ h₂ hu => h₂ (h₁ hu)
  · exact fun a ha t r t' hx hu => hu.quiet (guarded_eq_some.mp hx).1 ha

theorem Under.load {rs' : RunningSession} (hu : Under n id s phase rs h t)
    (hx : exec E (.load n) t = some (rs', t')) : rs = rs' ∧ Under n id s phase rs h t' := by
  have hres : rs' = (t.objects.lookup n).getD {} := (exec_eq hx).1
  rw [hu.object, Option.getD_some] at hres
  exact ⟨hres.symm, hu.quiet hx ⟨trivial, trivial⟩⟩

/-! ## Cleaning up -/

/-- What has been made is written down, as `cleanupFailedStart` reads it. -/
structure Covers (n : Nat) (id : String) (rs : RunningSession) (h : Holding) : Prop where
  container : ∀ c, h.container = some c → rs.containerID = c ∧ c ≠ ""
  network : h.network = true → rs.containerID ≠ ""
  interface : h.interface = true → rs.wgConfPath ≠ ""
  path : rs.wgConfPath ≠ "" → rs.wgConfPath = configPath id
  relay : h.relay = true → ⟨n, .relayClient⟩ ∈ rs.relayCancel.getD []

theorem leads_callRelayCancel (hu : Under n id s .cleaning rs h t)
    (hrelay : h.relay = true → ⟨n, .relayClient⟩ ∈ rs.relayCancel.getD []) :
    Leads (machine E) (callRelayCancel n) t
      (fun _ t' => Under n id s .cleaning rs { h with relay := false } t') := by
  refine leads_call (fun rs' t₁ hx _ => ?_)
  obtain ⟨rfl, hu⟩ := hu.load hx
  change Leads (S := signature) _ (if _ then _ else _) _ _
  split
  next hnone =>
    rw [hnone] at hrelay
    refine leads_ret.mpr ⟨⟨hu.within.container, hu.within.network, hu.within.interface,
      fun hr hd => ?_⟩, hu.object, hu.attempt, hu.released, hu.clock⟩
    obtain hs | hheld := hu.within.relay hr hd
    · exact .inl hs
    · cases hrelay hheld
  next =>
    refine leads_call (fun rs' t₂ hx _ => ?_)
    obtain ⟨rfl, hu⟩ := hu.load hx
    refine leads_call (fun _ t₃ hx _ => leads_ret.mpr ?_)
    exact hu.frame (hu.within.cancel hrelay hx) (frame_exec hx trivial)

theorem leads_removeSessionNetwork (hu : Under n id s phase rs h t) :
    Leads (machine E) (removeSessionNetwork id) t
      (fun _ t' => Under n id s phase rs { h with network := false } t') := by
  refine leads_call (fun r t' hx hr => leads_ret.mpr ?_)
  exact hu.frame (hu.within.networkRemove hx hr) (frame_exec hx trivial)

theorem leads_stopContainer (hu : Under n id s phase rs h t) (hid : id ≠ "") {c : String}
    (hne : c ≠ "") (hc : ∀ c', h.container = some c' → c' = c) :
    Leads (machine E) (stopContainer c id) t
      (fun _ t' => Under n id s phase rs { h with container := none, network := false } t') := by
  unfold stopContainer
  rw [if_neg hne]
  refine leads_call (fun _ t₁ hx _ => ?_)
  have hu := hu.quiet hx ⟨trivial, trivial⟩
  refine leads_call (fun r t₂ hx hr => ?_)
  have hu := hu.frame (hu.within.containerRemove hc hx hr) (frame_exec hx trivial)
  change Leads (S := signature) _ (if _ then _ else _) _ _
  rw [if_neg hid]
  exact leads_removeSessionNetwork hu

theorem leads_stopRecorded (hu : Under n id s .cleaning rs h t) (hid : id ≠ "")
    (hcontainer : ∀ c, h.container = some c → rs.containerID = c ∧ c ≠ "")
    (hnetwork : h.network = true → rs.containerID ≠ "") :
    Leads (machine E) (stopRecorded n id) t
      (fun _ t' => Under n id s .cleaning rs { h with container := none, network := false } t') := by
  refine leads_call (fun rs' t₁ hx _ => ?_)
  obtain ⟨rfl, hu⟩ := hu.load hx
  change Leads (S := signature) _ (if _ then _ else _) _ _
  split
  next hempty =>
    refine leads_ret.mpr ⟨⟨fun c hc => ?_, fun hn => ?_, hu.within.interface, hu.within.relay⟩,
      hu.object, hu.attempt, hu.released, hu.clock⟩
    · obtain hs | hheld := hu.within.container c hc
      · exact .inl hs
      · obtain ⟨rfl, hne⟩ := hcontainer c hheld
        exact absurd hempty hne
    · obtain hs | hheld := hu.within.network hn
      · exact .inl hs
      · exact absurd hempty (hnetwork hheld)
  next hne =>
    refine leads_call (fun rs' t₂ hx _ => ?_)
    obtain ⟨rfl, hu⟩ := hu.load hx
    exact leads_stopContainer hu hid hne (fun c hheld => (hcontainer c hheld).1.symm)

theorem leads_wgDownRecorded (hu : Under n id s .cleaning rs h t)
    (hinterface : h.interface = true → rs.wgConfPath ≠ "")
    (hpath : rs.wgConfPath ≠ "" → rs.wgConfPath = configPath id) :
    Leads (machine E) (wgDownRecorded n) t
      (fun _ t' => Under n id s .cleaning rs { h with interface := false } t') := by
  refine leads_call (fun rs' t₁ hx _ => ?_)
  obtain ⟨rfl, hu⟩ := hu.load hx
  change Leads (S := signature) _ (if _ then _ else _) _ _
  split
  next hempty =>
    refine leads_ret.mpr ⟨⟨hu.within.container, hu.within.network, fun hi => ?_, hu.within.relay⟩,
      hu.object, hu.attempt, hu.released, hu.clock⟩
    obtain hs | hheld := hu.within.interface hi
    · exact .inl hs
    · exact absurd hempty (hinterface hheld)
  next hne =>
    refine leads_call (fun rs' t₂ hx _ => ?_)
    obtain ⟨rfl, hu⟩ := hu.load hx
    change Leads (S := signature) _ (Call.wgDown rs.wgConfPath >>= _) _ _
    rw [hpath hne]
    refine leads_call (fun r t₃ hx hr => leads_ret.mpr ?_)
    exact hu.frame (hu.within.wgDown hx hr) (frame_exec hx trivial)

theorem Under.release {u : Unit} (hu : Under n id s .starting rs h t)
    (hx : exec E (.release n id) t = some (u, t')) : Under n id s .cleaning rs h t' := by
  have hw := (wanes_exec hx trivial).within hu.within
  obtain ⟨-, rfl⟩ := exec_eq hx
  refine ⟨hw, hu.object, ?_, fun _ => ?_, Nat.le_succ_of_le hu.clock⟩
  · refine (Map.lookup_modify _ _ _ _).trans ?_
    rw [if_pos rfl, hu.attempt]
    rfl
  · exact (Map.lookup_erase _ _ _).trans (if_pos rfl)

/-- The last action of the cleanup, when what the attempt has made is gone but for its file. -/
theorem Under.remove {r : Except CallError Unit} (hu : Under n id s .cleaning rs {} t)
    (hx : exec E (.removeConfig (some n) (configPath id)) t = some (r, t')) :
    Cleared n id s t' ∧ (t'.configs.lookup (configPath id) = none ↔ r ≠ .error .refused) := by
  have hw := (wanes_exec hx trivial).within hu.within
  obtain ⟨configs, rfl, hcases⟩ := exec_removeConfig hx
  refine ⟨⟨hu.released rfl, fun c hc => (hw.container c hc).resolve_right (fun h => by cases h),
    fun hn => (hw.network hn).resolve_right (fun h => by cases h),
    fun hi => (hw.interface hi).resolve_right (fun h => by cases h),
    fun hr hd => (hw.relay hr hd).resolve_right (fun h => by cases h)⟩, ?_⟩
  obtain ⟨hr, hlookup⟩ | ⟨hr, hsame, hfile⟩ := hcases
  · exact iff_of_true ((hlookup _).trans (if_pos rfl)) hr
  · refine iff_of_false (fun hnone => ?_) (fun h => h hr)
    have hnone : configs.lookup (configPath id) = none := hnone
    rw [← hsame, hnone] at hfile
    cases hfile

end Cleanup

end PeerCompute.Agent
