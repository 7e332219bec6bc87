import PeerCompute.Registry.TunnelRuns

/-! What an allocation does in a reachable state, and how far apart two allocations of one slot
are. -/

namespace PeerCompute.Registry

open PeerCompute.Data

variable {calls : List TunnelCall} {T T' : Tunnels} {log log' : List Granted}

theorem runCalls_append (calls calls' : List TunnelCall) (T : Tunnels) (log : List Granted) :
    runCalls (calls ++ calls') T log =
      (runCalls calls T log).bind (fun x => runCalls calls' x.1 x.2) := by
  induction calls generalizing T log with
  | nil => rfl
  | cons c calls ih =>
    rw [List.cons_append, runCalls, runCalls]
    cases c.exec T log with
    | none => rfl
    | some x => exact ih x.1 x.2

theorem accounted_of_runCalls (hfresh : (calls.filterMap TunnelCall.allocated).Nodup)
    (hrun : runCalls calls newTunnels [] = some (T, log)) : Accounted T log := by
  obtain ⟨T', log', hrun', h⟩ := runCalls_accounted hfresh
  rw [hrun] at hrun'
  cases hrun'
  exact h

theorem allocateTunnelIPs_reachable (hfresh : (calls.filterMap TunnelCall.allocated).Nodup)
    (hrun : runCalls calls newTunnels [] = some (T, log)) (id : String) :
    (T.Full ↔ T.usedTunnelSet.keys.length = 7112) ∧
    (T.Full → T.allocateTunnelIPs id = some (.error .tunnelExhausted, T)) ∧
    (¬T.Full → ∃ n idx T', n ≤ 7111 ∧ T.FirstFree n idx ∧
      T.allocateTunnelIPs id = some (.ok (providerIP idx, renterIP idx), T') ∧
      (∀ id', T'.usedTunnelIdxs.lookup id' =
        if id' = id then some idx else T.usedTunnelIdxs.lookup id') ∧
      (∀ idx', T'.usedTunnelSet.lookup idx' =
        if idx' = idx then some id else T.usedTunnelSet.lookup idx') ∧
      T'.nextTunnelHint = advanceTunnel idx ∧
      idx.InRange ∧ idx.pos = (T.nextTunnelHint.pos + n) % 7112 ∧
      T'.nextTunnelHint.pos = (idx.pos + 1) % 7112) := by
  have hT := (accounted_of_runCalls hfresh hrun).wf
  refine ⟨?_, fun hfull => hT.allocate_full hfull id, fun hfull => ?_⟩
  · rw [hT.full_iff, maxTunnelSlots_eq]
    have hle := hT.length_keys_le
    rw [maxTunnelSlots_eq] at hle
    omega
  · obtain ⟨n, idx, hn, hfirst, halloc⟩ := hT.allocate_free hfull id
    have hidx : idx.InRange := hfirst.place ▸ tunnelCycle.ok_iterate hT.hint n
    have hplace : idx.pos = (T.nextTunnelHint.pos + n) % maxTunnelSlots :=
      hfirst.place ▸ tunnelCycle.pos_iterate hT.hint n
    have hnext := pos_advanceTunnel hidx
    rw [maxTunnelSlots_eq] at hn hplace hnext
    exact ⟨n, idx, _, by omega, hfirst, halloc, fun id' => Map.lookup_insert _ _ _ _,
      fun idx' => Map.lookup_insert _ _ _ _, rfl, hidx, hplace, hnext⟩

theorem allocateTunnelIPs_reachable_reclaimed :
    ∃ T log, runCalls [.allocate "a", .allocate "b", .reclaim "a"] newTunnels [] = some (T, log) ∧
      ∃ n idx T', n ≤ 7111 ∧ T.FirstFree n idx ∧
        T.allocateTunnelIPs "c" = some (.ok (providerIP idx, renterIP idx), T') := by
  have hfresh : ([.allocate "a", .allocate "b", .reclaim "a"].filterMap
    TunnelCall.allocated).Nodup := by decide
  refine ⟨_, _, rfl, ?_⟩
  obtain ⟨hfull, -, halloc⟩ := allocateTunnelIPs_reachable hfresh rfl "c"
  obtain ⟨n, idx, T', hn, hfirst, hres, -⟩ := halloc (fun h => absurd (hfull.mp h) (by decide))
  exact ⟨n, idx, T', hn, hfirst, hres⟩

/-- Everything a call can do: it takes the first free slot, or leaves the hint and lets no session
have a slot that it did not have. -/
theorem exec_cases {c : TunnelCall} (h : c.exec T log = some (T', log')) :
    (T'.nextTunnelHint = T.nextTunnelHint ∧ ∀ id idx, T'.usedTunnelIdxs.lookup id = some idx →
      T.usedTunnelIdxs.lookup id = some idx) ∨
    ∃ id n idx, c = .allocate id ∧ T.FirstFree n idx ∧
      T' = { nextTunnelHint := advanceTunnel idx
             usedTunnelIdxs := T.usedTunnelIdxs.insert id idx
             usedTunnelSet := T.usedTunnelSet.insert idx id } := by
  cases c with
  | allocate id =>
    simp only [TunnelCall.exec] at h
    split at h
    next => cases h
    next e T₁ halloc =>
      cases h
      obtain ⟨-, rfl⟩ | ⟨n, idx, -, hres, -⟩ := Tunnels.allocateTunnelIPs_cases halloc
      · exact .inl ⟨rfl, fun _ _ h => h⟩
      · cases hres
    next p r T₁ halloc =>
      cases h
      obtain ⟨hres, -⟩ | ⟨n, idx, hfirst, -, rfl⟩ := Tunnels.allocateTunnelIPs_cases halloc
      · cases hres
      · exact .inr ⟨id, n, idx, rfl, hfirst, rfl⟩
  | reclaim id =>
    cases h
    refine .inl ⟨T.hint_reclaim id, ?_⟩
    intro id' idx hl
    rw [Tunnels.lookup_reclaim] at hl
    split at hl
    next => cases hl
    next => exact hl

/-- `idx` is held at some moment of a run of `calls`, its start and its end included. -/
def HeldDuring (T : Tunnels) (log : List Granted) (calls : List TunnelCall) (idx : TunnelIndex) :
    Prop :=
  ∃ done rest T' log', calls = done ++ rest ∧ runCalls done T log = some (T', log') ∧
    ∃ id, T'.usedTunnelSet.lookup idx = some id

theorem HeldDuring.cons {c : TunnelCall} {idx : TunnelIndex} (hc : c.exec T log = some (T', log'))
    (h : HeldDuring T' log' calls idx) : HeldDuring T log (c :: calls) idx := by
  obtain ⟨done, rest, T'', log'', rfl, hrun, hheld⟩ := h
  refine ⟨c :: done, rest, T'', log'', rfl, ?_, hheld⟩
  rw [runCalls, hc]
  exact hrun

theorem HeldDuring.start {idx : TunnelIndex} (h : ∃ id, T.usedTunnelSet.lookup idx = some id) :
    HeldDuring T log calls idx :=
  ⟨[], calls, T, log, rfl, rfl, h⟩

/-- The slots that one call moves the hint over are held before or after it. -/
theorem exec_sweeps {c : TunnelCall} (h : c.exec T log = some (T', log')) :
    ∃ n, T'.nextTunnelHint = advanceTunnel^[n] T.nextTunnelHint ∧ ∀ k < n,
      (∃ id, T.usedTunnelSet.lookup (advanceTunnel^[k] T.nextTunnelHint) = some id) ∨
      ∃ id, T'.usedTunnelSet.lookup (advanceTunnel^[k] T.nextTunnelHint) = some id := by
  obtain ⟨hhint, -⟩ | ⟨id, n, idx, -, hfirst, rfl⟩ := exec_cases h
  · exact ⟨0, hhint, fun k hk => absurd hk (Nat.not_lt_zero k)⟩
  · refine ⟨n + 1, ?_, ?_⟩
    · rw [Function.iterate_succ_apply', ← hfirst.place]
    · intro k hk
      by_cases hkn : k < n
      · exact .inl (hfirst.skipped k hkn)
      · obtain rfl : k = n := by omega
        refine .inr ⟨id, ?_⟩
        rw [← hfirst.place, Map.lookup_insert, if_pos rfl]

theorem runCalls_sweeps (h : runCalls calls T log = some (T', log')) :
    ∃ n, T'.nextTunnelHint = advanceTunnel^[n] T.nextTunnelHint ∧
      ∀ k < n, HeldDuring T log calls (advanceTunnel^[k] T.nextTunnelHint) := by
  induction calls generalizing T log with
  | nil =>
    cases h
    exact ⟨0, rfl, fun k hk => absurd hk (Nat.not_lt_zero k)⟩
  | cons c calls ih =>
    rw [runCalls] at h
    obtain ⟨⟨T₁, log₁⟩, hc, hrun⟩ := Option.bind_eq_some_iff.mp h
    obtain ⟨n, hn, hheld⟩ := exec_sweeps hc
    obtain ⟨m, hm, hheld'⟩ := ih hrun
    have hplace (k : Nat) : advanceTunnel^[k + n] T.nextTunnelHint =
        advanceTunnel^[k] T₁.nextTunnelHint := by
      rw [hn, Function.iterate_add_apply]
    refine ⟨m + n, hm.trans (hplace m).symm, ?_⟩
    intro k hk
    by_cases hkn : k < n
    · obtain hheld | hheld := hheld k hkn
      · exact .start hheld
      · exact .cons hc (.start hheld)
    · obtain ⟨j, rfl⟩ : ∃ j, k = j + n := ⟨k - n, by omega⟩
      rw [hplace]
      exact .cons hc (hheld' j (by omega))

theorem lookup_runCalls_none {id : String} (hid : id ∉ calls.filterMap TunnelCall.allocated)
    (hrun : runCalls calls T log = some (T', log')) (h : T.usedTunnelIdxs.lookup id = none) :
    T'.usedTunnelIdxs.lookup id = none := by
  induction calls generalizing T log with
  | nil =>
    cases hrun
    exact h
  | cons c calls ih =>
    rw [runCalls] at hrun
    obtain ⟨⟨T₁, log₁⟩, hc, hrun⟩ := Option.bind_eq_some_iff.mp hrun
    rw [List.mem_filterMap] at hid
    refine ih (fun hmem => hid ?_) hrun ?_
    · obtain ⟨d, hd, hdi⟩ := List.mem_filterMap.mp hmem
      exact ⟨d, .tail _ hd, hdi⟩
    · obtain ⟨-, hkeep⟩ | ⟨id', n, idx, rfl, -, rfl⟩ := exec_cases hc
      · rw [Option.eq_none_iff_forall_ne_some] at h ⊢
        exact fun idx hl => h idx (hkeep id idx hl)
      · have hne : id ≠ id' := by
          rintro rfl
          exact hid ⟨_, .head _, rfl⟩
        rw [Map.lookup_insert, if_neg hne]
        exact h

/-- The last of these calls gave its session the first free slot. -/
theorem firstFree_of_lookup {id : String} {idx : TunnelIndex}
    (hid : id ∉ calls.filterMap TunnelCall.allocated) (h : T.usedTunnelIdxs.lookup id = none)
    (hrun : runCalls (calls ++ [.allocate id]) T log = some (T', log'))
    (hidx : T'.usedTunnelIdxs.lookup id = some idx) :
    ∃ T₁ log₁ n, runCalls calls T log = some (T₁, log₁) ∧ T₁.FirstFree n idx ∧
      T'.nextTunnelHint = advanceTunnel idx := by
  rw [runCalls_append] at hrun
  obtain ⟨⟨T₁, log₁⟩, hcalls, hlast⟩ := Option.bind_eq_some_iff.mp hrun
  rw [runCalls] at hlast
  obtain ⟨⟨T₂, log₂⟩, hc, hend⟩ := Option.bind_eq_some_iff.mp hlast
  cases hend
  obtain ⟨-, hkeep⟩ | ⟨id', n, idx', hcall, hfirst, rfl⟩ := exec_cases hc
  · have hnone := lookup_runCalls_none hid hcalls h
    rw [hkeep id idx hidx] at hnone
    cases hnone
  · cases hcall
    rw [Map.lookup_insert, if_pos rfl] at hidx
    cases hidx
    exact ⟨T₁, log₁, n, hcalls, hfirst, rfl⟩

/-- Before a slot is given out again, every other one has been held since it was last given
out. -/
theorem late_reuse {before middle : List TunnelCall} {a b : String} {idx slot : TunnelIndex}
    (hfresh : ((before ++ TunnelCall.allocate a :: (middle ++ [.allocate b])).filterMap
      TunnelCall.allocated).Nodup)
    (hfirst : runCalls (before ++ [.allocate a]) newTunnels [] = some (T, log))
    (ha : T.usedTunnelIdxs.lookup a = some idx)
    (hagain : runCalls (middle ++ [.allocate b]) T log = some (T', log'))
    (hb : T'.usedTunnelIdxs.lookup b = some idx)
    (hslot : slot.InRange) (hne : slot ≠ idx) : HeldDuring T log middle slot := by
  have ⟨hnewa, hnewb, hnewb'⟩ : a ∉ before.filterMap TunnelCall.allocated ∧
      b ∉ (before ++ [TunnelCall.allocate a]).filterMap TunnelCall.allocated ∧
      b ∉ middle.filterMap TunnelCall.allocated := by
    simp only [List.filterMap_append, List.filterMap_cons, List.filterMap_nil,
      TunnelCall.allocated] at hfresh ⊢
    grind
  obtain ⟨T₁, log₁, n₁, hrun₁, hfree₁, hhint⟩ := firstFree_of_lookup hnewa rfl hfirst ha
  obtain ⟨T₂, log₂, n, hrun, hfree, -⟩ :=
    firstFree_of_lookup hnewb' (lookup_runCalls_none hnewb hfirst rfl) hagain hb
  have hidx : idx.InRange := by
    obtain ⟨m, hm, -⟩ := runCalls_sweeps hrun₁
    rw [hfree₁.place, hm]
    exact tunnelCycle.ok_iterate (tunnelCycle.ok_iterate Tunnels.newTunnels_wf.hint m) n₁
  -- the hint has come round from just after the slot to the slot itself
  obtain ⟨m, hm, hheld⟩ := runCalls_sweeps hrun
  have hback : advanceTunnel^[n + m] (advanceTunnel idx) = idx := by
    rw [Function.iterate_add_apply, ← hhint, ← hm]
    exact hfree.place.symm
  obtain ⟨k, hk, rfl⟩ := tunnelCycle.passes pos_inj hidx hslot hne hback
  rw [← hhint]
  by_cases hkm : k < m
  · exact hheld k hkm
  · -- the rest of the way was skipped by the last scan
    obtain ⟨j, rfl⟩ : ∃ j, k = j + m := ⟨k - m, by omega⟩
    refine ⟨middle, [], T₂, log₂, (List.append_nil _).symm, hrun, ?_⟩
    rw [Function.iterate_add_apply, ← hm]
    exact hfree.skipped j (by omega)

/-- Sessions that come and go one after the other. -/
def inTurn (ids : List String) : List TunnelCall :=
  ids.flatMap (fun id => [.allocate id, .reclaim id])

theorem allocated_inTurn (ids : List String) :
    (inTurn ids).filterMap TunnelCall.allocated = ids := by
  induction ids with
  | nil => rfl
  | cons id ids ih => exact congrArg (id :: ·) ih

theorem allocateTunnelIPs_at_hint (hlen : T.usedTunnelSet.keys.length < maxTunnelSlots)
    (hfree : T.usedTunnelSet.lookup T.nextTunnelHint = none) (id : String) :
    T.allocateTunnelIPs id = some (.ok (providerIP T.nextTunnelHint, renterIP T.nextTunnelHint),
      { nextTunnelHint := advanceTunnel T.nextTunnelHint
        usedTunnelIdxs := T.usedTunnelIdxs.insert id T.nextTunnelHint
        usedTunnelSet := T.usedTunnelSet.insert T.nextTunnelHint id }) := by
  have hscan : scanTunnel T.usedTunnelSet T.nextTunnelHint = some T.nextTunnelHint :=
    firstFree_eq_some_iff.mpr ⟨0, by omega, rfl, by rw [hfree]; rfl, by simp⟩
  rw [Tunnels.allocateTunnelIPs, if_neg (Nat.not_le.mpr hlen), hscan]

/-- They move the hint and leave nothing else behind. -/
theorem runCalls_inTurn {ids : List String} (hlen : T.usedTunnelSet.keys.length < maxTunnelSlots)
    (hfree : ∀ n < ids.length,
      T.usedTunnelSet.lookup (advanceTunnel^[n] T.nextTunnelHint) = none)
    (hids : ∀ id ∈ ids, T.usedTunnelIdxs.lookup id = none) :
    ∃ log', runCalls (inTurn ids) T log = some
      ({ T with nextTunnelHint := advanceTunnel^[ids.length] T.nextTunnelHint }, log') := by
  induction ids generalizing T log with
  | nil => exact ⟨log, rfl⟩
  | cons id ids ih =>
    have hhint : T.usedTunnelSet.lookup T.nextTunnelHint = none := hfree 0 (by simp)
    have hid := hids id (.head _)
    have hreclaim : Tunnels.reclaimTunnelIndex
        { nextTunnelHint := advanceTunnel T.nextTunnelHint
          usedTunnelIdxs := T.usedTunnelIdxs.insert id T.nextTunnelHint
          usedTunnelSet := T.usedTunnelSet.insert T.nextTunnelHint id } id =
        { T with nextTunnelHint := advanceTunnel T.nextTunnelHint } := by
      simp only [Tunnels.reclaimTunnelIndex, Map.lookup_insert, if_pos, Map.erase_insert hhint,
        Map.erase_insert hid]
    have hstep : runCalls (inTurn (id :: ids)) T log = runCalls (inTurn ids)
        { T with nextTunnelHint := advanceTunnel T.nextTunnelHint }
        (⟨id, providerIP T.nextTunnelHint, renterIP T.nextTunnelHint⟩ :: log) := by
      change runCalls (.allocate id :: .reclaim id :: inTurn ids) T log = _
      rw [runCalls, TunnelCall.exec, allocateTunnelIPs_at_hint hlen hhint, Option.bind_some,
        runCalls, TunnelCall.exec, Option.bind_some, hreclaim]
    rw [hstep]
    exact ih hlen (fun n hn => hfree (n + 1) (by simpa using hn))
      (fun id' h' => hids id' (.tail _ h'))

/-- Any number of sessions between `"a"` and `"b"`. -/
theorem exists_ids (n : Nat) :
    ∃ ids : List String, ids.length = n ∧ ("a" :: (ids ++ ["b"])).Nodup := by
  have hletter {c : Char} (hc : c.isDigit = false) (m : Nat) : m.repr ≠ String.ofList [c] := by
    intro h
    apply notMem_repr hc m
    simp [h]
  refine ⟨(List.range n).map Nat.repr, by simp, ?_⟩
  have hnodup : ((List.range n).map Nat.repr).Nodup :=
    List.nodup_range.map (fun m m' h => repr_inj (congrArg String.toList h))
  rw [List.nodup_cons, List.nodup_append]
  refine ⟨?_, hnodup, List.nodup_singleton "b", ?_⟩
  · simpa using fun m _ => hletter (c := 'a') (by decide) m
  · intro id hid id' hid' heq
    obtain ⟨m, -, rfl⟩ := List.mem_map.mp hid
    cases List.mem_singleton.mp hid'
    exact hletter (c := 'b') (by decide) m heq

theorem late_reuse_round :
    ∃ ids T log T' log', runCalls [.allocate "a"] newTunnels [] = some (T, log) ∧
      runCalls (.reclaim "a" :: inTurn ids ++ [.allocate "b"]) T log = some (T', log') ∧
      T.usedTunnelIdxs.lookup "a" = some ⟨99, 1⟩ ∧ T'.usedTunnelIdxs.lookup "b" = some ⟨99, 1⟩ ∧
      HeldDuring T log (.reclaim "a" :: inTurn ids) ⟨113, 7⟩ := by
  obtain ⟨ids, hlen, hnodup⟩ := exists_ids 7111
  have hround : advanceTunnel^[7111] ⟨99, 2⟩ = ⟨99, 1⟩ :=
    pos_inj (tunnelCycle.ok_iterate (by decide) _) (by decide)
      (tunnelCycle.pos_iterate (by decide) _)
  have hgone (log : List Granted) : ∃ log', runCalls (inTurn ids) ⟨⟨99, 2⟩, ∅, ∅⟩ log =
      some (⟨⟨99, 1⟩, ∅, ∅⟩, log') := by
    rw [← hround, ← hlen]
    exact runCalls_inTurn (by decide) (fun _ _ => rfl) (fun _ _ => rfl)
  have hagain (log : List Granted) : ∃ log',
      runCalls ((.reclaim "a" :: inTurn ids) ++ [.allocate "b"])
        ⟨⟨99, 2⟩, AList.insert "a" ⟨99, 1⟩ ∅, AList.insert ⟨99, 1⟩ "a" ∅⟩ log =
      some (⟨⟨99, 2⟩, AList.insert "b" ⟨99, 1⟩ ∅, AList.insert ⟨99, 1⟩ "b" ∅⟩, log') := by
    obtain ⟨log', hgone⟩ := hgone log
    refine ⟨⟨"b", providerIP ⟨99, 1⟩, renterIP ⟨99, 1⟩⟩ :: log', ?_⟩
    change runCalls (inTurn ids ++ [.allocate "b"]) ⟨⟨99, 2⟩, ∅, ∅⟩ log = _
    have hlen : (AList.keys (∅ : Map TunnelIndex String)).length < maxTunnelSlots := by decide
    rw [runCalls_append, hgone, Option.bind_some, runCalls, TunnelCall.exec,
      allocateTunnelIPs_at_hint hlen rfl]
    rfl
  have hfirst : runCalls ([] ++ [.allocate "a"]) newTunnels [] =
      some (⟨⟨99, 2⟩, AList.insert "a" ⟨99, 1⟩ ∅, AList.insert ⟨99, 1⟩ "a" ∅⟩,
        [⟨"a", providerIP ⟨99, 1⟩, renterIP ⟨99, 1⟩⟩]) := rfl
  have hslot (id : String) : (AList.insert id ⟨99, 1⟩ ∅ : Map String TunnelIndex).lookup id =
      some ⟨99, 1⟩ := AList.lookup_insert _
  obtain ⟨log', hagain⟩ := hagain [⟨"a", providerIP ⟨99, 1⟩, renterIP ⟨99, 1⟩⟩]
  refine ⟨ids, _, _, _, _, hfirst, hagain, hslot "a", hslot "b", ?_⟩
  have hfresh : (([] : List TunnelCall) ++ TunnelCall.allocate "a" ::
      ((TunnelCall.reclaim "a" :: inTurn ids) ++ [TunnelCall.allocate "b"])).filterMap
        TunnelCall.allocated = "a" :: (ids ++ ["b"]) := by
    change "a" :: (inTurn ids ++ [TunnelCall.allocate "b"]).filterMap TunnelCall.allocated = _
    rw [List.filterMap_append, allocated_inTurn]
    rfl
  refine late_reuse ?_ hfirst (hslot "a") hagain (hslot "b") (by decide) (by decide)
  rw [hfresh]
  exact hnodup

end PeerCompute.Registry
