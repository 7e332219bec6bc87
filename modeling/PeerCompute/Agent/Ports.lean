import PeerCompute.Agent.Endpoints
import PeerCompute.Registry.TunnelHistory

/-! The ports an agent derives from the addresses of the registry's allocator. -/

namespace PeerCompute.Agent

open PeerCompute.Data PeerCompute.Registry

theorem atoi_octet (m : UInt8) : atoi m.toNat.repr.toList = m.toNat := by
  have h : ∀ n : Fin 256, atoi n.val.repr.toList = n.val := by decide +kernel
  exact h m.toFin

/-- The agent reads the minor octet back, and nothing of the major one. -/
theorem parseTunnelIndex_providerIP (idx : TunnelIndex) :
    parseTunnelIndex (providerIP idx) = idx.minor.toNat := by
  have hdot (n : Nat) : '.' ∉ n.repr.toList := notMem_repr (by decide) n
  have hsplit : (providerIP idx).toList.splitOn '.' =
      [['1', '0'], idx.major.toNat.repr.toList, idx.minor.toNat.repr.toList, ['1']] := by
    rw [providerIP_toList]
    change (['1', '0'] ++ '.' :: _).splitOn '.' = _
    rw [List.splitOn_append_cons_self_of_not_mem (by decide),
      List.splitOn_append_cons_self_of_not_mem (hdot _),
      List.splitOn_append_cons_self_of_not_mem (hdot _), List.splitOn_eq_singleton (by decide)]
  rw [parseTunnelIndex, hsplit]
  exact atoi_octet idx.minor

theorem wrap_emod (n : Int) : wrap n % 18446744073709551616 = n % 18446744073709551616 :=
  Int.bmod_emod

theorem wrap_eq_iff {m n : Int} :
    wrap m = wrap n ↔ m % 18446744073709551616 = n % 18446744073709551616 := by
  constructor
  · intro h
    rw [← wrap_emod m, ← wrap_emod n, h]
  · intro h
    calc wrap m
      _ = wrap (m % 18446744073709551616) := (Int.emod_bmod m _).symm
      _ = wrap (n % 18446744073709551616) := by rw [h]
      _ = wrap n := Int.emod_bmod n _

/-- Two sessions of an agent listen on one port exactly if their slots have the same minor octet. -/
theorem wgPorts_differ_iff {calls : List TunnelCall} {T : Tunnels} {log : List Granted}
    (hfresh : (calls.filterMap TunnelCall.allocated).Nodup)
    (hrun : runCalls calls newTunnels [] = some (T, log)) {g g' : Granted} (hg : g ∈ log)
    (hg' : g' ∈ log) {idx idx' : TunnelIndex}
    (hidx : T.usedTunnelIdxs.lookup g.sessionID = some idx)
    (hidx' : T.usedTunnelIdxs.lookup g'.sessionID = some idx') (wgListenPort : Int) :
    let wgPort := wrap (wgListenPort + parseTunnelIndex g.providerIP)
    let wgPort' := wrap (wgListenPort + parseTunnelIndex g'.providerIP)
    (wgPort ≠ wgPort' ∧ wrap (wgPort + 10000) ≠ wrap (wgPort' + 10000)) ↔
      idx.minor ≠ idx'.minor := by
  have h := accounted_of_runCalls hfresh hrun
  obtain ⟨hip, -⟩ := h.granted _ _ hidx g hg rfl
  obtain ⟨hip', -⟩ := h.granted _ _ hidx' g' hg' rfl
  intro wgPort wgPort'
  have hport : wgPort = wgPort' ↔ idx.minor = idx'.minor := by
    have hlt := idx.minor.toNat_lt
    have hlt' := idx'.minor.toNat_lt
    rw [← UInt8.toNat_inj, wrap_eq_iff, hip, hip', parseTunnelIndex_providerIP,
      parseTunnelIndex_providerIP]
    omega
  have hproxy : wrap (wgPort + 10000) = wrap (wgPort' + 10000) ↔ wgPort = wgPort' := by
    have hw := wrap_emod (wgListenPort + parseTunnelIndex g.providerIP)
    have hw' := wrap_emod (wgListenPort + parseTunnelIndex g'.providerIP)
    rw [wrap_eq_iff, wrap_eq_iff]
    omega
  rw [ne_eq, ne_eq, hproxy, hport, and_self]

/-- The first two sessions, with the slots `10.99.1` and `10.99.2`. -/
theorem wgPorts_differ_next : ∃ T log, runCalls [.allocate "a", .allocate "b"] newTunnels [] =
    some (T, log) ∧ ∀ wgListenPort,
      wrap (wgListenPort + parseTunnelIndex (providerIP ⟨99, 1⟩)) ≠
        wrap (wgListenPort + parseTunnelIndex (providerIP ⟨99, 2⟩)) := by
  have hfresh : ([.allocate "a", .allocate "b"].filterMap TunnelCall.allocated).Nodup := by decide
  refine ⟨_, _, rfl, fun wgListenPort => ?_⟩
  exact ((wgPorts_differ_iff hfresh rfl (.tail _ (.head _)) (.head _) rfl rfl wgListenPort).mpr
    (by decide)).1

/-- Session `"a"` has the first slot, and the hint is at `hint`. -/
def firstHeld (hint : TunnelIndex) : Tunnels :=
  ⟨hint, AList.insert "a" ⟨99, 1⟩ ∅, AList.insert ⟨99, 1⟩ "a" ∅⟩

theorem runCalls_firstHeld {ids : List String} (hlen : ids.length = 253) (ha : "a" ∉ ids)
    (log : List Granted) :
    ∃ log', runCalls (inTurn ids) (firstHeld ⟨99, 2⟩) log = some (firstHeld ⟨100, 1⟩, log') := by
  have hround : advanceTunnel^[253] ⟨99, 2⟩ = ⟨100, 1⟩ := by decide +kernel
  rw [← hround, ← hlen]
  refine runCalls_inTurn (by decide) ?_ ?_
  · intro n hn
    have hne : advanceTunnel^[n] ⟨99, 2⟩ ≠ ⟨99, 1⟩ := by
      intro h
      have hstart : TunnelIndex.InRange ⟨99, 1⟩ := by decide
      have hz := tunnelCycle.iterate_inj hstart (m := n + 1) (n := 0)
        (by rw [maxTunnelSlots_eq]; omega) (by decide) h
      cases hz
    exact AList.lookup_insert_ne hne
  · intro id hid
    have hne : id ≠ "a" := fun h => ha (h ▸ hid)
    exact AList.lookup_insert_ne hne

/-- After 254 allocations the minor octet comes round: the session that has been there from the
start and the new one get the same ports, whatever the base port. -/
theorem wgPorts_collide : ∃ calls T log, (calls.filterMap TunnelCall.allocated).Nodup ∧
    runCalls calls newTunnels [] = some (T, log) ∧
    ∃ g ∈ log, ∃ g' ∈ log, g.sessionID ≠ g'.sessionID ∧
      (T.usedTunnelIdxs.lookup g.sessionID).isSome ∧
      (T.usedTunnelIdxs.lookup g'.sessionID).isSome ∧
      ∀ wgListenPort, wrap (wgListenPort + parseTunnelIndex g.providerIP) =
        wrap (wgListenPort + parseTunnelIndex g'.providerIP) := by
  obtain ⟨ids, hlen, hnodup⟩ := exists_ids 253
  have ha : "a" ∉ ids := fun h => (List.nodup_cons.mp hnodup).1 (List.mem_append_left _ h)
  have hfresh : ((TunnelCall.allocate "a" :: (inTurn ids ++ [TunnelCall.allocate "b"])).filterMap
      TunnelCall.allocated).Nodup := by
    change ("a" :: (inTurn ids ++ [TunnelCall.allocate "b"]).filterMap
      TunnelCall.allocated).Nodup
    rw [List.filterMap_append, allocated_inTurn]
    exact hnodup
  obtain ⟨log', hturn⟩ :=
    runCalls_firstHeld hlen ha [⟨"a", providerIP ⟨99, 1⟩, renterIP ⟨99, 1⟩⟩]
  have hrun : runCalls (.allocate "a" :: (inTurn ids ++ [.allocate "b"])) newTunnels [] =
      some (⟨⟨100, 2⟩, AList.insert "b" ⟨100, 1⟩ (AList.insert "a" ⟨99, 1⟩ ∅),
        AList.insert ⟨100, 1⟩ "b" (AList.insert ⟨99, 1⟩ "a" ∅)⟩,
        ⟨"b", providerIP ⟨100, 1⟩, renterIP ⟨100, 1⟩⟩ :: log') := by
    have hused : (firstHeld ⟨100, 1⟩).usedTunnelSet.keys.length < maxTunnelSlots := by decide
    change runCalls (inTurn ids ++ [.allocate "b"]) (firstHeld ⟨99, 2⟩)
      [⟨"a", providerIP ⟨99, 1⟩, renterIP ⟨99, 1⟩⟩] = _
    rw [runCalls_append, hturn, Option.bind_some, runCalls, TunnelCall.exec,
      allocateTunnelIPs_at_hint hused rfl]
    rfl
  have h := accounted_of_runCalls hfresh hrun
  obtain ⟨g, hg, hga⟩ := h.logged "a" ⟨99, 1⟩ rfl
  obtain ⟨g', hg', hgb⟩ := h.logged "b" ⟨100, 1⟩ rfl
  obtain ⟨hip, -⟩ := h.granted "a" ⟨99, 1⟩ rfl g hg hga
  obtain ⟨hip', -⟩ := h.granted "b" ⟨100, 1⟩ rfl g' hg' hgb
  refine ⟨_, _, _, hfresh, hrun, g, hg, g', hg', ?_, ?_, ?_, ?_⟩
  · rw [hga, hgb]
    decide
  · rw [hga]
    rfl
  · rw [hgb]
    rfl
  · intro wgListenPort
    rw [hip, hip', parseTunnelIndex_providerIP, parseTunnelIndex_providerIP]

end PeerCompute.Agent
