import PeerCompute.Registry.TunnelLaws

namespace PeerCompute.Registry

open PeerCompute.Data

inductive TunnelCall
  | allocate (sessionID : String)
  | reclaim (sessionID : String)

def TunnelCall.allocated : TunnelCall → Option String
  | .allocate id => some id
  | .reclaim _ => none

/-- The addresses an allocation has returned. -/
structure Granted where
  sessionID : String
  providerIP : String
  renterIP : String

/-- One call on the allocator, with the log of the addresses returned so far. -/
def TunnelCall.exec (T : Tunnels) (log : List Granted) :
    TunnelCall → Option (Tunnels × List Granted)
  | .allocate id => match T.allocateTunnelIPs id with
    | none => none
    | some (.error _, T') => some (T', log)
    | some (.ok (providerIP, renterIP), T') => some (T', ⟨id, providerIP, renterIP⟩ :: log)
  | .reclaim id => some (T.reclaimTunnelIndex id, log)

def runCalls : List TunnelCall → Tunnels → List Granted → Option (Tunnels × List Granted)
  | [], T, log => some (T, log)
  | c :: cs, T, log => (c.exec T log).bind (fun x => runCalls cs x.1 x.2)

/-- Every session that holds a slot was given the addresses of that slot, and no others. -/
structure Accounted (T : Tunnels) (log : List Granted) : Prop where
  wf : T.Wf
  logged : ∀ id idx, T.usedTunnelIdxs.lookup id = some idx → ∃ g ∈ log, g.sessionID = id
  granted : ∀ id idx, T.usedTunnelIdxs.lookup id = some idx → ∀ g ∈ log, g.sessionID = id →
    g.providerIP = providerIP idx ∧ g.renterIP = renterIP idx

def Unseen (T : Tunnels) (log : List Granted) (id : String) : Prop :=
  T.usedTunnelIdxs.lookup id = none ∧ ∀ g ∈ log, g.sessionID ≠ id

theorem Accounted.allocate {T T' : Tunnels} {log : List Granted} (h : Accounted T log)
    {id : String} (hid : Unseen T log id) {p r : String}
    (ha : T.allocateTunnelIPs id = some (.ok (p, r), T')) : Accounted T' (⟨id, p, r⟩ :: log) := by
  have hwf := h.wf.allocate hid.1 ha
  obtain ⟨hres, -⟩ | ⟨n, idx, -, hres, rfl⟩ := Tunnels.allocateTunnelIPs_cases ha
  · cases hres
  · cases hres
    refine ⟨hwf, ?_, ?_⟩
    · intro id' idx' hl
      rw [Map.lookup_insert] at hl
      split at hl
      next hi => exact ⟨_, .head _, hi.symm⟩
      next hi =>
        obtain ⟨g, hg, rfl⟩ := h.logged id' idx' hl
        exact ⟨g, .tail _ hg, rfl⟩
    · intro id' idx' hl g hg hgi
      rw [Map.lookup_insert] at hl
      split at hl
      next hi =>
        cases hl
        cases hg with
        | head => exact ⟨rfl, rfl⟩
        | tail _ hg => exact absurd (hgi.trans hi) (hid.2 g hg)
      next hi =>
        cases hg with
        | head => exact absurd hgi.symm hi
        | tail _ hg => exact h.granted id' idx' hl g hg hgi

theorem Accounted.reclaim {T : Tunnels} {log : List Granted} (h : Accounted T log)
    (id : String) : Accounted (T.reclaimTunnelIndex id) log := by
  refine ⟨h.wf.reclaim id, ?_, ?_⟩
  · intro id' idx hl
    rw [Tunnels.lookup_reclaim] at hl
    split at hl
    next => cases hl
    next => exact h.logged id' idx hl
  · intro id' idx hl
    rw [Tunnels.lookup_reclaim] at hl
    split at hl
    next => cases hl
    next => exact h.granted id' idx hl

/-- One call returns, and keeps the log true and every ID unseen that it does not name. -/
theorem Accounted.exec {T : Tunnels} {log : List Granted} (h : Accounted T log) (c : TunnelCall)
    (hc : ∀ id, c.allocated = some id → Unseen T log id) :
    ∃ T' log', c.exec T log = some (T', log') ∧ Accounted T' log' ∧
      ∀ id, c.allocated ≠ some id → Unseen T log id → Unseen T' log' id := by
  cases c with
  | allocate id =>
    have hid := hc id rfl
    obtain ⟨⟨res, T'⟩, ha⟩ := h.wf.allocateTunnelIPs_isSome id
    cases res with
    | error e =>
      obtain ⟨-, rfl⟩ | ⟨n, idx, -, hres, -⟩ := Tunnels.allocateTunnelIPs_cases ha
      · exact ⟨T', log, by simp only [TunnelCall.exec, ha], h, fun _ _ hu => hu⟩
      · cases hres
    | ok ips =>
      obtain ⟨p, r⟩ := ips
      refine ⟨T', ⟨id, p, r⟩ :: log, by simp only [TunnelCall.exec, ha], h.allocate hid ha, ?_⟩
      intro id' hne hu
      have hne' : id' ≠ id := fun he => hne (congrArg some he.symm)
      obtain ⟨hres, -⟩ | ⟨n, idx, -, -, rfl⟩ := Tunnels.allocateTunnelIPs_cases ha
      · cases hres
      · refine ⟨by rw [Map.lookup_insert, if_neg hne']; exact hu.1, ?_⟩
        intro g hg
        cases hg with
        | head => exact hne'.symm
        | tail _ hg => exact hu.2 g hg
  | reclaim id =>
    refine ⟨_, log, rfl, h.reclaim id, ?_⟩
    intro id' _ hu
    refine ⟨?_, hu.2⟩
    rw [Tunnels.lookup_reclaim]
    split
    next => rfl
    next => exact hu.1

theorem Accounted.runCalls {cs : List TunnelCall} {T : Tunnels} {log : List Granted}
    (h : Accounted T log) (hnodup : (cs.filterMap TunnelCall.allocated).Nodup)
    (hnew : ∀ id ∈ cs.filterMap TunnelCall.allocated, Unseen T log id) :
    ∃ T' log', Registry.runCalls cs T log = some (T', log') ∧ Accounted T' log' := by
  induction cs generalizing T log with
  | nil => exact ⟨T, log, rfl, h⟩
  | cons c cs ih =>
    have hmem : ∀ id, id ∈ cs.filterMap TunnelCall.allocated → c.allocated ≠ some id := by
      intro id hid hc
      rw [List.filterMap_cons, hc] at hnodup
      exact (List.nodup_cons.mp hnodup).1 hid
    have hsub : ∀ id, id ∈ cs.filterMap TunnelCall.allocated →
        id ∈ (c :: cs).filterMap TunnelCall.allocated := by
      intro id hid
      obtain ⟨d, hd, hdi⟩ := List.mem_filterMap.mp hid
      exact List.mem_filterMap.mpr ⟨d, .tail _ hd, hdi⟩
    obtain ⟨T', log', hexec, h', hkeep⟩ := h.exec c
      (fun id hc => hnew id (List.mem_filterMap.mpr ⟨c, .head _, hc⟩))
    have hnodup' : (cs.filterMap TunnelCall.allocated).Nodup := by
      rw [List.filterMap_cons] at hnodup
      split at hnodup
      next => exact hnodup
      next => exact (List.nodup_cons.mp hnodup).2
    obtain ⟨T'', log'', hrun, h''⟩ := ih h' hnodup'
      (fun id hid => hkeep id (hmem id hid) (hnew id (hsub id hid)))
    exact ⟨T'', log'', by rw [Registry.runCalls, hexec]; exact hrun, h''⟩

/-- What the allocator promises of its state and of the addresses it has returned. -/
structure Exclusive (T : Tunnels) (log : List Granted) : Prop where
  inverse : Map.Inverse T.usedTunnelIdxs T.usedTunnelSet
  slots : ∀ id idx, T.usedTunnelIdxs.lookup id = some idx → idx.InRange
  hint : T.nextTunnelHint.InRange
  no_wrap : ∀ n, let c := advanceTunnel^[n] T.nextTunnelHint
    (c.minor + 1).toNat = c.minor.toNat + 1 ∧ (c.major + 1).toNat = c.major.toNat + 1
  logged : ∀ id idx, T.usedTunnelIdxs.lookup id = some idx → ∃ g ∈ log, g.sessionID = id
  distinct : ∀ g ∈ log, ∀ g' ∈ log, g.sessionID ≠ g'.sessionID →
    (T.usedTunnelIdxs.lookup g.sessionID).isSome → (T.usedTunnelIdxs.lookup g'.sessionID).isSome →
    [g.providerIP, g.renterIP, g'.providerIP, g'.renterIP].Nodup

theorem Accounted.exclusive {T : Tunnels} {log : List Granted} (h : Accounted T log) :
    Exclusive T log where
  inverse := h.wf.inverse
  slots id idx hl := h.wf.slots idx id ((h.wf.inverse id idx).mp hl)
  hint := h.wf.hint
  no_wrap n := (tunnelCycle.ok_iterate h.wf.hint n).no_wrap
  logged := h.logged
  distinct g hg g' hg' hne hh hh' := by
    obtain ⟨idx, hi⟩ := Option.isSome_iff_exists.mp hh
    obtain ⟨idx', hi'⟩ := Option.isSome_iff_exists.mp hh'
    have hidx : idx ≠ idx' := by
      rintro rfl
      have hs := (h.wf.inverse _ _).mp hi
      rw [(h.wf.inverse _ _).mp hi'] at hs
      exact hne (Option.some.inj hs).symm
    obtain ⟨hp, hr⟩ := h.granted _ _ hi g hg rfl
    obtain ⟨hp', hr'⟩ := h.granted _ _ hi' g' hg' rfl
    rw [hp, hr, hp', hr']
    have h1 := providerIP_ne_renterIP idx idx
    have h2 := providerIP_ne_renterIP idx idx'
    have h3 := (providerIP_ne_renterIP idx' idx).symm
    have h4 := providerIP_ne_renterIP idx' idx'
    have h5 : providerIP idx ≠ providerIP idx' := fun h => hidx (providerIP_inj h)
    have h6 : renterIP idx ≠ renterIP idx' := fun h => hidx (renterIP_inj h)
    simp [h1, h2, h3, h4, h5, h6]

theorem newTunnels_accounted : Accounted newTunnels [] where
  wf := Tunnels.newTunnels_wf
  logged id idx h := by simp [newTunnels] at h
  granted id idx h := by simp [newTunnels] at h

theorem runCalls_accounted {calls : List TunnelCall}
    (hfresh : (calls.filterMap TunnelCall.allocated).Nodup) :
    ∃ T log, runCalls calls newTunnels [] = some (T, log) ∧ Accounted T log :=
  newTunnels_accounted.runCalls hfresh (fun _ _ => ⟨rfl, fun _ h => by cases h⟩)

theorem runCalls_exclusive (calls : List TunnelCall)
    (hfresh : (calls.filterMap TunnelCall.allocated).Nodup) :
    ∃ T log, runCalls calls newTunnels [] = some (T, log) ∧ Exclusive T log := by
  obtain ⟨T, log, hrun, h⟩ := runCalls_accounted hfresh
  exact ⟨T, log, hrun, h.exclusive⟩

theorem runCalls_exclusive_reclaimed :
    ∃ T log, runCalls [.allocate "a", .allocate "b", .reclaim "a", .reclaim "x", .allocate "c"]
      newTunnels [] = some (T, log) ∧ Exclusive T log :=
  runCalls_exclusive _ (by decide)

end PeerCompute.Registry
