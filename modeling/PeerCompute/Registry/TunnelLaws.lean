import PeerCompute.Data.Separated
import PeerCompute.Registry.Tunnel
import Mathlib.Data.Fintype.Prod

namespace PeerCompute.Registry

open PeerCompute.Data

instance uint8Fintype : Fintype UInt8 :=
  Fintype.ofEquiv (Fin 256) ⟨UInt8.ofFin, UInt8.toFin, fun _ => rfl, fun _ => rfl⟩

instance : Fintype TunnelIndex := Fintype.ofEquiv (UInt8 × UInt8)
  ⟨fun p => ⟨p.1, p.2⟩, fun idx => (idx.major, idx.minor), fun _ => rfl, fun _ => rfl⟩

theorem card_tunnelIndex : Fintype.card TunnelIndex = 2 ^ 16 := by
  rw [Fintype.ofEquiv_card, Fintype.card_prod, Fintype.ofEquiv_card, Fintype.card_fin]
  rfl

/-- The model's scan gives up exactly where the source's loop never ends. -/
theorem scanTunnel_eq_none_iff {used : Map TunnelIndex String} {c : TunnelIndex} :
    scanTunnel used c = none ↔ ∀ n, (used.lookup (advanceTunnel^[n] c)).isSome = true := by
  constructor
  · intro h n
    unfold scanTunnel at h
    rw [← card_tunnelIndex] at h
    exact firstFree_eq_none_iff.mp (firstFree_diverges h (n + 1)) n (by omega)
  · intro h
    exact firstFree_eq_none_iff.mpr (fun n _ => h n)

namespace TunnelIndex

def InRange (idx : TunnelIndex) : Prop :=
  99 ≤ idx.major.toNat ∧ idx.major.toNat ≤ 126 ∧ 1 ≤ idx.minor.toNat ∧ idx.minor.toNat ≤ 254

instance (idx : TunnelIndex) : Decidable idx.InRange :=
  inferInstanceAs (Decidable (_ ∧ _ ∧ _ ∧ _))

/-- Both octets can be incremented without wrapping past 255. -/
theorem InRange.no_wrap {idx : TunnelIndex} (h : idx.InRange) :
    (idx.minor + 1).toNat = idx.minor.toNat + 1 ∧ (idx.major + 1).toNat = idx.major.toNat + 1 := by
  obtain ⟨_, hM, _, hm⟩ := h
  constructor
  · rw [UInt8.toNat_add]
    exact Nat.mod_eq_of_lt (by change idx.minor.toNat + 1 < 256; omega)
  · rw [UInt8.toNat_add]
    exact Nat.mod_eq_of_lt (by change idx.major.toNat + 1 < 256; omega)

/-- The place of an index in the order in which slots are handed out. -/
def pos (idx : TunnelIndex) : Nat := (idx.major.toNat - 99) * 254 + (idx.minor.toNat - 1)

end TunnelIndex

theorem advanceTunnel_minor {idx : TunnelIndex} (h : idx.InRange) (hm : idx.minor.toNat ≠ 254) :
    advanceTunnel idx = ⟨idx.major, idx.minor + 1⟩ := by
  have hle : ¬ idx.minor + 1 > tunnelMinorMax := by
    rw [gt_iff_lt, UInt8.lt_iff_toNat_lt, h.no_wrap.1]
    change ¬ 254 < _
    have := h.2.2.2
    omega
  simp only [advanceTunnel, if_neg hle]

theorem advanceTunnel_major {idx : TunnelIndex} (h : idx.InRange) (hm : idx.minor.toNat = 254)
    (hM : idx.major.toNat ≠ 126) : advanceTunnel idx = ⟨idx.major + 1, tunnelMinorMin⟩ := by
  have hgt : idx.minor + 1 > tunnelMinorMax := by
    rw [gt_iff_lt, UInt8.lt_iff_toNat_lt, h.no_wrap.1, hm]
    decide
  have hle : ¬ idx.major + 1 > tunnelMajorMax := by
    rw [gt_iff_lt, UInt8.lt_iff_toNat_lt, h.no_wrap.2]
    change ¬ 126 < _
    have := h.2.1
    omega
  simp only [advanceTunnel, if_pos hgt, if_neg hle]

theorem advanceTunnel_last {idx : TunnelIndex} (h : idx.InRange) (hm : idx.minor.toNat = 254)
    (hM : idx.major.toNat = 126) : advanceTunnel idx = ⟨tunnelMajorMin, tunnelMinorMin⟩ := by
  have hgt : idx.minor + 1 > tunnelMinorMax := by
    rw [gt_iff_lt, UInt8.lt_iff_toNat_lt, h.no_wrap.1, hm]
    decide
  have hgt' : idx.major + 1 > tunnelMajorMax := by
    rw [gt_iff_lt, UInt8.lt_iff_toNat_lt, h.no_wrap.2, hM]
    decide
  simp only [advanceTunnel, if_pos hgt, if_pos hgt']

theorem advanceTunnel_inRange {idx : TunnelIndex} (h : idx.InRange) :
    (advanceTunnel idx).InRange := by
  have ⟨hminor, hmajor⟩ := h.no_wrap
  obtain ⟨h1, h2, h3, h4⟩ := id h
  by_cases hm : idx.minor.toNat = 254
  · by_cases hM : idx.major.toNat = 126
    · rw [advanceTunnel_last h hm hM]
      decide
    · rw [advanceTunnel_major h hm hM]
      refine ⟨?_, ?_, Nat.le_refl 1, Nat.le_of_ble_eq_true rfl⟩
      · change 99 ≤ (idx.major + 1).toNat
        omega
      · change (idx.major + 1).toNat ≤ 126
        omega
  · rw [advanceTunnel_minor h hm]
    refine ⟨h1, h2, ?_, ?_⟩
    · change 1 ≤ (idx.minor + 1).toNat
      omega
    · change (idx.minor + 1).toNat ≤ 254
      omega

theorem maxTunnelSlots_eq : maxTunnelSlots = 7112 := by decide

theorem pos_lt {idx : TunnelIndex} (h : idx.InRange) : idx.pos < maxTunnelSlots := by
  obtain ⟨h1, h2, h3, h4⟩ := h
  rw [maxTunnelSlots_eq, TunnelIndex.pos]
  omega

theorem pos_inj {idx idx' : TunnelIndex} (h : idx.InRange) (h' : idx'.InRange)
    (hpos : idx.pos = idx'.pos) : idx = idx' := by
  obtain ⟨h1, h2, h3, h4⟩ := h
  obtain ⟨h1', h2', h3', h4'⟩ := h'
  unfold TunnelIndex.pos at hpos
  have hmajor : idx.major = idx'.major := UInt8.toNat_inj.mp (by omega)
  have hminor : idx.minor = idx'.minor := UInt8.toNat_inj.mp (by omega)
  cases idx
  cases idx'
  rw [TunnelIndex.mk.injEq]
  exact ⟨hmajor, hminor⟩

theorem pos_advanceTunnel {idx : TunnelIndex} (h : idx.InRange) :
    (advanceTunnel idx).pos = (idx.pos + 1) % maxTunnelSlots := by
  have ⟨hminor, hmajor⟩ := h.no_wrap
  obtain ⟨h1, h2, h3, h4⟩ := id h
  rw [maxTunnelSlots_eq]
  by_cases hm : idx.minor.toNat = 254
  · by_cases hM : idx.major.toNat = 126
    · rw [advanceTunnel_last h hm hM, TunnelIndex.pos, TunnelIndex.pos, hm, hM]
      rfl
    · rw [advanceTunnel_major h hm hM, TunnelIndex.pos, TunnelIndex.pos]
      change ((idx.major + 1).toNat - 99) * 254 + (1 - 1) = _
      rw [Nat.mod_eq_of_lt (by omega)]
      omega
  · rw [advanceTunnel_minor h hm, TunnelIndex.pos, TunnelIndex.pos]
    change (idx.major.toNat - 99) * 254 + ((idx.minor + 1).toNat - 1) = _
    rw [Nat.mod_eq_of_lt (by omega)]
    omega

/-- The slots form a single cycle of `maxTunnelSlots` places. -/
def tunnelCycle : Cycle advanceTunnel TunnelIndex.InRange maxTunnelSlots where
  pos := TunnelIndex.pos
  closed := advanceTunnel_inRange
  pos_lt := pos_lt
  pos_next := pos_advanceTunnel

theorem providerIP_toList (idx : TunnelIndex) :
    (providerIP idx).toList = '1' :: '0' :: '.' :: (idx.major.toNat.repr.toList ++
      '.' :: (idx.minor.toNat.repr.toList ++ '.' :: ['1'])) := by
  simp [providerIP]

theorem renterIP_toList (idx : TunnelIndex) :
    (renterIP idx).toList = '1' :: '0' :: '.' :: (idx.major.toNat.repr.toList ++
      '.' :: (idx.minor.toNat.repr.toList ++ '.' :: ['2'])) := by
  simp [renterIP]

/-- The two octets and the role can be read back from a tunnel address. -/
theorem tunnelIP_inj {M m M' m' : UInt8} {role role' : List Char}
    (h : '1' :: '0' :: '.' :: (M.toNat.repr.toList ++ '.' :: (m.toNat.repr.toList ++ '.' :: role)) =
      '1' :: '0' :: '.' ::
        (M'.toNat.repr.toList ++ '.' :: (m'.toNat.repr.toList ++ '.' :: role'))) :
    M = M' ∧ m = m' ∧ role = role' := by
  simp only [List.cons.injEq, true_and] at h
  have hdot : '.'.isDigit = false := by decide
  obtain ⟨hM, h⟩ := append_sep_inj (notMem_repr hdot _) (notMem_repr hdot _) h
  obtain ⟨hm, hrole⟩ := append_sep_inj (notMem_repr hdot _) (notMem_repr hdot _) h
  exact ⟨UInt8.toNat_inj.mp (repr_inj hM), UInt8.toNat_inj.mp (repr_inj hm), hrole⟩

theorem providerIP_inj {idx idx' : TunnelIndex} (h : providerIP idx = providerIP idx') :
    idx = idx' := by
  have hl := congrArg String.toList h
  rw [providerIP_toList, providerIP_toList] at hl
  obtain ⟨hM, hm, -⟩ := tunnelIP_inj hl
  cases idx
  cases idx'
  simp_all

theorem renterIP_inj {idx idx' : TunnelIndex} (h : renterIP idx = renterIP idx') :
    idx = idx' := by
  have hl := congrArg String.toList h
  rw [renterIP_toList, renterIP_toList] at hl
  obtain ⟨hM, hm, -⟩ := tunnelIP_inj hl
  cases idx
  cases idx'
  simp_all

theorem providerIP_ne_renterIP (idx idx' : TunnelIndex) : providerIP idx ≠ renterIP idx' := by
  intro h
  have hl := congrArg String.toList h
  rw [providerIP_toList, renterIP_toList] at hl
  obtain ⟨-, -, hrole⟩ := tunnelIP_inj hl
  cases hrole

namespace Tunnels

/-- The two maps are each other's inverse and every slot lies in the address space. -/
structure Wf (T : Tunnels) : Prop where
  inverse : Map.Inverse T.usedTunnelIdxs T.usedTunnelSet
  slots : ∀ idx id, T.usedTunnelSet.lookup idx = some id → idx.InRange
  hint : T.nextTunnelHint.InRange

theorem newTunnels_wf : newTunnels.Wf where
  inverse id idx := by simp [newTunnels]
  slots idx id h := by simp [newTunnels] at h
  hint := by decide

/-- `idx` is free, `n` places on from the hint, and the places before it are held. -/
structure FirstFree (T : Tunnels) (n : Nat) (idx : TunnelIndex) : Prop where
  place : idx = advanceTunnel^[n] T.nextTunnelHint
  free : T.usedTunnelSet.lookup idx = none
  skipped : ∀ m < n, ∃ id, T.usedTunnelSet.lookup (advanceTunnel^[m] T.nextTunnelHint) = some id

theorem firstFree_of_scanTunnel {T : Tunnels} {idx : TunnelIndex}
    (h : scanTunnel T.usedTunnelSet T.nextTunnelHint = some idx) : ∃ n, T.FirstFree n idx := by
  obtain ⟨n, -, hn, hfree, hskipped⟩ := firstFree_eq_some_iff.mp h
  exact ⟨n, hn.symm, by simpa using hfree,
    fun m hm => Option.isSome_iff_exists.mp (hskipped m hm)⟩

/-- Everything an allocation can do, whatever the state. -/
theorem allocateTunnelIPs_cases {T T' : Tunnels} {id : String}
    {res : Except TunnelError (String × String)}
    (h : T.allocateTunnelIPs id = some (res, T')) :
    (res = .error .tunnelExhausted ∧ T' = T) ∨
    ∃ n idx, T.FirstFree n idx ∧ res = .ok (providerIP idx, renterIP idx) ∧
      T' = { nextTunnelHint := advanceTunnel idx
             usedTunnelIdxs := T.usedTunnelIdxs.insert id idx
             usedTunnelSet := T.usedTunnelSet.insert idx id } := by
  unfold allocateTunnelIPs at h
  split at h
  next =>
    cases h
    exact .inl ⟨rfl, rfl⟩
  next =>
    split at h
    next => cases h
    next idx hscan =>
      obtain ⟨n, hfirst⟩ := firstFree_of_scanTunnel hscan
      cases h
      exact .inr ⟨n, idx, hfirst, rfl, rfl⟩

theorem Wf.scanTunnel_isSome {T : Tunnels} (hT : T.Wf)
    (hlen : T.usedTunnelSet.keys.length < maxTunnelSlots) :
    ∃ idx, scanTunnel T.usedTunnelSet T.nextTunnelHint = some idx :=
  tunnelCycle.firstFree_isSome hT.hint hlen
    (fun _ hc => Map.mem_keys_iff.mpr (Option.isSome_iff_exists.mp hc))
    (by rw [maxTunnelSlots_eq]; omega)

/-- In a well-formed state the scan ends, so an allocation always returns. -/
theorem Wf.allocateTunnelIPs_isSome {T : Tunnels} (hT : T.Wf) (id : String) :
    ∃ x, T.allocateTunnelIPs id = some x := by
  unfold allocateTunnelIPs
  split
  next => exact ⟨_, rfl⟩
  next hlen =>
    obtain ⟨idx, hidx⟩ := hT.scanTunnel_isSome (by omega)
    rw [hidx]
    exact ⟨_, rfl⟩

theorem Wf.allocate {T T' : Tunnels} (hT : T.Wf) {id : String}
    {res : Except TunnelError (String × String)} (hid : T.usedTunnelIdxs.lookup id = none)
    (h : T.allocateTunnelIPs id = some (res, T')) : T'.Wf := by
  obtain ⟨-, rfl⟩ | ⟨n, idx, hfirst, -, rfl⟩ := allocateTunnelIPs_cases h
  · exact hT
  · have hidx : idx.InRange := hfirst.place ▸ tunnelCycle.ok_iterate hT.hint n
    refine ⟨hT.inverse.insert hid hfirst.free, ?_, advanceTunnel_inRange hidx⟩
    · intro idx' id' h'
      rw [Map.lookup_insert] at h'
      split at h'
      next hx => exact hx ▸ hidx
      next => exact hT.slots idx' id' h'

theorem lookup_reclaim (T : Tunnels) (id id' : String) :
    (T.reclaimTunnelIndex id).usedTunnelIdxs.lookup id' =
      if id' = id then none else T.usedTunnelIdxs.lookup id' := by
  unfold reclaimTunnelIndex
  split
  next h =>
    split
    next hi => rw [hi, h]
    next => rfl
  next idx h => exact Map.lookup_erase _ _ _

theorem hint_reclaim (T : Tunnels) (id : String) :
    (T.reclaimTunnelIndex id).nextTunnelHint = T.nextTunnelHint := by
  unfold reclaimTunnelIndex
  split <;> rfl

theorem Wf.reclaim {T : Tunnels} (hT : T.Wf) (id : String) : (T.reclaimTunnelIndex id).Wf := by
  unfold reclaimTunnelIndex
  split
  next => exact hT
  next idx hid =>
    refine ⟨hT.inverse.erase hid, ?_, hT.hint⟩
    · intro idx' id' h'
      simp only [Map.lookup_erase] at h'
      split at h'
      next => cases h'
      next => exact hT.slots idx' id' h'

def Full (T : Tunnels) : Prop :=
  ∀ idx : TunnelIndex, idx.InRange → ∃ id, T.usedTunnelSet.lookup idx = some id

theorem Wf.inRange_of_mem_keys {T : Tunnels} (hT : T.Wf) :
    ∀ idx ∈ T.usedTunnelSet.keys, idx.InRange := by
  intro idx hidx
  obtain ⟨id, hid⟩ := Map.mem_keys_iff.mp hidx
  exact hT.slots idx id hid

theorem Wf.length_keys_le {T : Tunnels} (hT : T.Wf) :
    T.usedTunnelSet.keys.length ≤ maxTunnelSlots :=
  tunnelCycle.length_le pos_inj T.usedTunnelSet.keys_nodup hT.inRange_of_mem_keys

theorem Wf.full_iff {T : Tunnels} (hT : T.Wf) :
    T.Full ↔ maxTunnelSlots ≤ T.usedTunnelSet.keys.length := by
  constructor
  · intro hfull
    by_contra hlen
    obtain ⟨n, -, hfree⟩ := tunnelCycle.exists_free hT.hint (Nat.lt_of_not_le hlen)
    exact hfree (Map.mem_keys_iff.mpr (hfull _ (tunnelCycle.ok_iterate hT.hint n)))
  · intro hlen idx hidx
    exact Map.mem_keys_iff.mp (tunnelCycle.mem_of_full pos_inj T.usedTunnelSet.keys_nodup
      hT.inRange_of_mem_keys hlen hidx)

/-- A scan of a state that is not full looks at no slot twice. -/
theorem Wf.firstFree_lt {T : Tunnels} (hT : T.Wf) (hfull : ¬T.Full) {n : Nat} {idx : TunnelIndex}
    (h : T.FirstFree n idx) : n < maxTunnelSlots := by
  rw [hT.full_iff] at hfull
  obtain ⟨m, hm, hfree⟩ := tunnelCycle.exists_free hT.hint (Nat.lt_of_not_le hfull)
  by_contra hn
  exact hfree (Map.mem_keys_iff.mpr (h.skipped m (by omega)))

theorem Wf.allocate_full {T : Tunnels} (hT : T.Wf) (hfull : T.Full) (id : String) :
    T.allocateTunnelIPs id = some (.error .tunnelExhausted, T) :=
  if_pos (hT.full_iff.mp hfull)

theorem Wf.allocate_free {T : Tunnels} (hT : T.Wf) (hfull : ¬T.Full) (id : String) :
    ∃ n idx, n < maxTunnelSlots ∧ T.FirstFree n idx ∧
      T.allocateTunnelIPs id = some (.ok (providerIP idx, renterIP idx),
        { nextTunnelHint := advanceTunnel idx
          usedTunnelIdxs := T.usedTunnelIdxs.insert id idx
          usedTunnelSet := T.usedTunnelSet.insert idx id }) := by
  have hlen : ¬maxTunnelSlots ≤ T.usedTunnelSet.keys.length := fun h => hfull (hT.full_iff.mpr h)
  obtain ⟨idx, hscan⟩ := hT.scanTunnel_isSome (Nat.lt_of_not_le hlen)
  obtain ⟨n, hfirst⟩ := firstFree_of_scanTunnel hscan
  refine ⟨n, idx, hT.firstFree_lt hfull hfirst, hfirst, ?_⟩
  rw [allocateTunnelIPs, if_neg hlen, hscan]

end Tunnels

end PeerCompute.Registry
