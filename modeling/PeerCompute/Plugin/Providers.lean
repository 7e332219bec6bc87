import PeerCompute.Plugin.Tables

/-! The provider half of a store. -/

namespace PeerCompute.Plugin

open PeerCompute.Data

namespace Store

variable {σ : Type}

/-- The reference a lookup of the stored provider `r` answers with. -/
def providerHandle (S : Store σ) (r : ProviderRecord) : Ref ProviderRecord :=
  if S.shared then .stored r.id else .own r

/-- What is stored when `r` is put over `old`. -/
def mergeProvider (S : Store σ) (old : Option ProviderRecord) (r : ProviderRecord) :
    ProviderRecord :=
  match old with
  | none => r
  | some old => if S.shared then r else { r with registeredAt := old.registeredAt }

/-- What the handlers rely on: a lookup or a listing answers with stored records, a listing with
each of those that its filter admits, and a write touches no other provider. -/
structure ProviderLaws (S : Store σ) : Prop where
  provider_id : ∀ {s id r}, S.provider s id = some r → r.id = id
  get_provider : ∀ {t s id ref}, S.getProvider t s id = .ok ref →
    ∃ r, S.provider s id = some r ∧ ref = S.providerHandle r
  get_provider_by : ∀ {t s p ref}, S.getProviderByPrefix t s p = .ok ref →
    ∃ r, S.provider s r.id = some r ∧ ref = S.providerHandle r
  list_providers : ∀ {t s filter refs}, S.listProviders t s filter = .ok refs →
    ∃ rs : List ProviderRecord, refs = rs.map S.providerHandle ∧ (rs.map ProviderRecord.id).Nodup ∧
      ∀ r, r ∈ rs ↔ S.provider s r.id = some r ∧ filter.admits r = true
  put_own : ∀ {t s r ref s'}, S.putProvider t s (.own r) = .ok (ref, s') →
    ref = S.providerHandle r ∧ ∀ id, S.provider s' id =
      if id = r.id then some (S.mergeProvider (S.provider s r.id) r) else S.provider s id
  put_stored : ∀ {t s id ref s'}, S.putProvider t s (.stored id) = .ok (ref, s') →
    ref = .stored id ∧ S.provider s' = S.provider s
  assign_provider : ∀ {s id id' a}, S.provider (S.assignProvider s id a) id' =
    if id' = id then (S.provider s id).map a.apply else S.provider s id'
  update_heartbeat : ∀ {t s id now s' id'}, S.updateHeartbeat t s id now = .ok s' →
    S.provider s' id' =
      if id' = id then
        (S.provider s id).map (fun r => { r with lastHeartbeat := now, status := "online" })
      else S.provider s id'

@[simp] theorem mergeProvider_status (S : Store σ) (old : Option ProviderRecord)
    (r : ProviderRecord) : (S.mergeProvider old r).status = r.status := by
  unfold mergeProvider
  split
  next => rfl
  next => split <;> rfl

@[simp] theorem mergeProvider_lastHeartbeat (S : Store σ) (old : Option ProviderRecord)
    (r : ProviderRecord) : (S.mergeProvider old r).lastHeartbeat = r.lastHeartbeat := by
  unfold mergeProvider
  split
  next => rfl
  next => split <;> rfl

theorem ProviderLaws.copies {S : Store σ} (hP : S.ProviderLaws) (hcopy : S.shared = false) :
    S.Copies := by
  have hown (r : ProviderRecord) : S.providerHandle r = .own r := if_neg (by simp [hcopy])
  refine ⟨hcopy, fun h => ?_, fun h => ?_, fun h ref href => ?_⟩
  · obtain ⟨r, hr, rfl⟩ := hP.get_provider h
    exact ⟨r, by rw [hP.provider_id hr, hr], hown r⟩
  · obtain ⟨r, hr, rfl⟩ := hP.get_provider_by h
    exact ⟨r, hr, hown r⟩
  · obtain ⟨rs, rfl, -, hmem⟩ := hP.list_providers h
    obtain ⟨r, hr, rfl⟩ := List.mem_map.mp href
    exact ⟨r, ((hmem r).mp hr).1, hown r⟩

/-- The two stores know the same providers. -/
def SameProviders (S : Store σ) (s s' : σ) : Prop :=
  ∀ id, (S.provider s id).isSome = (S.provider s' id).isSome

/-- No call of a listing that starts in `st` fails: every stored record can be put back offline. -/
structure Listable (S : Store σ) (st : σ) : Prop where
  list_providers : ∀ t st' filter, filter.status = "" →
    ∃ refs, S.listProviders t st' filter = .ok refs
  put_provider : ∀ t st' r, S.provider st r.id = some r →
    ∃ x, S.putProvider t st' (S.providerHandle { r with status := "offline" }) = .ok x

/-- What a call answers depends neither on the moment nor on what is stored about a provider. -/
structure Steady (S : Store σ) : Prop where
  get_provider_by : ∀ {t t' s s' p r}, S.SameProviders s s' → S.provider s r.id = some r →
    S.getProviderByPrefix t s p = .ok (S.providerHandle r) →
    ∃ r' : ProviderRecord, r'.id = r.id ∧ S.provider s' r.id = some r' ∧
      S.getProviderByPrefix t' s' p = .ok (S.providerHandle r')
  put_session : ∀ {t t' s s' r}, S.SameProviders s s' → S.session s = S.session s' →
    (∃ x, S.putSession t s (.own r) = .ok x) → ∃ x, S.putSession t' s' (.own r) = .ok x

end Store

section

variable {V : Type} {m : Map String V} {ids : List String} {p : V → Bool} {key : V → String}

/-- The records under `ids` that `p` admits. -/
def listed (m : Map String V) (ids : List String) (p : V → Bool) : List V :=
  ids.filterMap (fun id => (m.lookup id).filter p)

theorem mem_listed {x : V} : x ∈ listed m ids p ↔ ∃ id ∈ ids, m.lookup id = some x ∧ p x = true := by
  simp only [listed, List.mem_filterMap, Option.filter_eq_some_iff]

theorem map_listed (hkey : ∀ {id x}, m.lookup id = some x → key x = id) :
    (listed m ids p).map key = ids.filter (fun id => (m.lookup id).any p) := by
  induction ids with
  | nil => rfl
  | cons id ids ih =>
    unfold listed at ih ⊢
    rw [List.filterMap_cons, List.filter_cons, ← ih]
    cases hx : m.lookup id with
    | none => rfl
    | some x =>
      cases hp : p x with
      | false => simp [Option.filter, hp]
      | true => simp [Option.filter, hp, hkey hx]

/-- In whatever order the keys are listed, each admitted record comes once. -/
theorem listed_keys (order : Order String) (hkey : ∀ {id x}, m.lookup id = some x → key x = id) :
    ((listed m (order.apply m.keys) p).map key).Nodup ∧
      ∀ x, x ∈ listed m (order.apply m.keys) p ↔ m.lookup (key x) = some x ∧ p x = true := by
  constructor
  · rw [map_listed hkey]
    exact ((order.perm _).nodup_iff.mpr m.keys_nodup).filter _
  · intro x
    rw [mem_listed]
    constructor
    · rintro ⟨id, -, hx, hp⟩
      exact ⟨hkey hx ▸ hx, hp⟩
    · rintro ⟨hx, hp⟩
      exact ⟨key x, (order.perm _).mem_iff.mpr (Map.mem_keys_iff.mpr ⟨x, hx⟩), hx, hp⟩

end

end PeerCompute.Plugin
