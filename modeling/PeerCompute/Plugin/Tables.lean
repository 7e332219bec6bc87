import PeerCompute.Data.Map
import PeerCompute.Plugin.Store

namespace PeerCompute.Plugin

open PeerCompute.Data

/-- The two collections every store keeps, each record under its own ID. -/
structure Tables where
  providers : Map String ProviderRecord := ∅
  sessions : Map String SessionRecord := ∅
  provider_id : ∀ {id r}, providers.lookup id = some r → r.id = id
  session_id : ∀ {id r}, sessions.lookup id = some r → r.id = id

namespace Tables

def empty : Tables where
  provider_id h := by simp at h
  session_id h := by simp at h

def insertProvider (m : Tables) (r : ProviderRecord) : Tables where
  providers := m.providers.insert r.id r
  sessions := m.sessions
  provider_id := by
    intro id r' h
    rw [Map.lookup_insert] at h
    split at h
    next hid =>
      cases h
      exact hid.symm
    next => exact m.provider_id h
  session_id := m.session_id

def insertSession (m : Tables) (r : SessionRecord) : Tables where
  providers := m.providers
  sessions := m.sessions.insert r.id r
  provider_id := m.provider_id
  session_id := by
    intro id r' h
    rw [Map.lookup_insert] at h
    split at h
    next hid =>
      cases h
      exact hid.symm
    next => exact m.session_id h

def assignProvider (m : Tables) (id : String) (a : ProviderAssign) : Tables where
  providers := m.providers.modify id a.apply
  sessions := m.sessions
  provider_id := by
    intro id' r h
    rw [Map.lookup_modify] at h
    split at h
    next hid =>
      obtain ⟨r', hr', rfl⟩ := Option.map_eq_some_iff.mp h
      rw [a.id_apply, m.provider_id hr', hid]
    next => exact m.provider_id h
  session_id := m.session_id

def assignSession (m : Tables) (id : String) (a : SessionAssign) : Tables where
  providers := m.providers
  sessions := m.sessions.modify id a.apply
  provider_id := m.provider_id
  session_id := by
    intro id' r h
    rw [Map.lookup_modify] at h
    split at h
    next hid =>
      obtain ⟨r', hr', rfl⟩ := Option.map_eq_some_iff.mp h
      rw [a.id_apply, m.session_id hr', hid]
    next => exact m.session_id h

/-- The two assignments of `UpdateHeartbeat`. -/
theorem lookup_online (m : Tables) (id : String) (now : Int) (id' : String) :
    ((m.assignProvider id (.lastHeartbeat now)).assignProvider id
      (.status "online")).providers.lookup id' =
      if id' = id then
        (m.providers.lookup id).map (fun r => { r with lastHeartbeat := now, status := "online" })
      else m.providers.lookup id' := by
  simp only [assignProvider, Map.lookup_modify, if_true, Option.map_map]
  split <;> rfl

end Tables

theorem map_eq_ok {α β : Type} {x : Except StoreError α} {f : α → β} {y : β}
    (h : x.map f = .ok y) : ∃ a, x = .ok a ∧ f a = y := by
  cases x with
  | error e => cases h
  | ok a => exact ⟨a, rfl, Except.ok.inj h⟩

/-- The loop of a lookup by prefix over the IDs that match: one is the answer, a second one makes
the prefix ambiguous. -/
def onlyMatch : List String → Except StoreError String
  | [] => .error .notFound
  | [id] => .ok id
  | _ :: _ :: _ => .error .ambiguousPrefix

theorem mem_of_onlyMatch {ids : List String} {id : String} (h : onlyMatch ids = .ok id) :
    id ∈ ids := by
  match ids, h with
  | [_], h =>
    cases h
    exact .head _

/-- The answer does not depend on the order of the rows. -/
theorem onlyMatch_perm {ids ids' : List String} (h : ids.Perm ids') :
    onlyMatch ids = onlyMatch ids' := by
  match ids, ids' with
  | [], ids' => rw [List.nil_perm.mp h]
  | [id], ids' => rw [List.singleton_perm.mp h]
  | _ :: _ :: _, [] => exact absurd h.length_eq (by simp)
  | _ :: _ :: _, [_] => exact absurd h.length_eq (by simp)
  | _ :: _ :: _, _ :: _ :: _ => rfl

section

variable {V W : Type} {accepts : String → Bool} {m : Map String V}

/-- The ID that `p` leads to: `p` itself, or the only one that is accepted. -/
def matchLookup (accepts : String → Bool) (order : Order String) (m : Map String V) (p : String) :
    Except StoreError String :=
  if (m.lookup p).isSome then .ok p else onlyMatch ((order.apply m.keys).filter accepts)

theorem matchLookup_eq_ok {order : Order String} {p id : String}
    (h : matchLookup accepts order m p = .ok id) : ∃ x, m.lookup id = some x := by
  unfold matchLookup at h
  split at h
  next hp =>
    cases h
    exact Option.isSome_iff_exists.mp hp
  next =>
    have hmem := (List.mem_filter.mp (mem_of_onlyMatch h)).1
    exact Map.mem_keys_iff.mp ((order.perm _).mem_iff.mp hmem)

/-- Neither the order nor what is stored under the IDs matters. -/
theorem matchLookup_sameKeys {m' : Map String W}
    (h : ∀ id, (m.lookup id).isSome = (m'.lookup id).isSome) (order order' : Order String)
    (p : String) : matchLookup accepts order m p = matchLookup accepts order' m' p := by
  have hperm : m.keys.Perm m'.keys := by
    refine (List.perm_ext_iff_of_nodup m.keys_nodup m'.keys_nodup).mpr (fun id => ?_)
    rw [Map.mem_keys_iff, Map.mem_keys_iff, ← Option.isSome_iff_exists, ← Option.isSome_iff_exists,
      h id]
  have hrows := (((order.perm m.keys).trans hperm).trans (order'.perm m'.keys).symm).filter accepts
  rw [matchLookup, matchLookup, h p, onlyMatch_perm hrows]

end

/-- `strings.HasPrefix(id, p)`. -/
def hasPrefix (p id : String) : Bool := p.toList.isPrefixOf id.toList

def ProviderFilter.admits (filter : ProviderFilter) (p : ProviderRecord) : Bool :=
  (filter.status = "" || p.status = filter.status) &&
  (filter.minCPU = 0 || filter.minCPU ≤ p.availCPU) &&
  (filter.minMemory = 0 || filter.minMemory ≤ p.availMemoryMB) &&
  (filter.minGPU = 0 || filter.minGPU ≤ p.availGPU)

def SessionFilter.admits (filter : SessionFilter) (s : SessionRecord) : Bool :=
  (filter.providerID = "" || s.providerID = filter.providerID) &&
  (filter.renterID = "" || s.renterID = filter.renterID) &&
  (filter.status = "" || s.status = filter.status)

end PeerCompute.Plugin
