import PeerCompute.Plugin.Providers

namespace PeerCompute.Plugin

open PeerCompute.Data

variable (order : Nat → Order String)

/-- A lookup of `MemoryStore` by ID or prefix: the ID of the record found. -/
def memoryLookup {V : Type} (order : Order String) (m : Map String V) (p : String) :
    Except StoreError String :=
  if (m.lookup p).isSome then .ok p
  else onlyMatch ((order.apply m.keys).filter (hasPrefix p))

/-- The loop as it is written, with the match so far: it returns at the second one. -/
def prefixLoop (p : String) : List String → Option String → Except StoreError String
  | [], none => .error .notFound
  | [], some id => .ok id
  | id :: ids, found =>
    if hasPrefix p id then
      match found with
      | some _ => .error .ambiguousPrefix
      | none => prefixLoop p ids (some id)
    else prefixLoop p ids found

theorem prefixLoop_eq (p : String) (ids : List String) (found : Option String) :
    prefixLoop p ids found = onlyMatch (found.toList ++ ids.filter (hasPrefix p)) := by
  fun_induction prefixLoop p ids found with
  | case1 => rfl
  | case2 => rfl
  | case3 id ids hid id' => simp [hid, onlyMatch]
  | case4 id ids hid ih => simpa [List.filter_cons, hid] using ih
  | case5 id ids found hid ih => simpa [List.filter_cons, hid] using ih

theorem memoryLookup_eq_loop {V : Type} (order : Order String) (m : Map String V) (p : String) :
    memoryLookup order m p =
      if (m.lookup p).isSome then .ok p else prefixLoop p (order.apply m.keys) none := by
  rw [prefixLoop_eq]
  rfl

theorem memoryLookup_eq_ok {V : Type} {order : Order String} {m : Map String V} {p id : String}
    (h : memoryLookup order m p = .ok id) : ∃ x, m.lookup id = some x :=
  matchLookup_eq_ok h

/-- `MemoryStore`: a lookup hands out the stored record itself.  `order t` is the order in which
a map is ranged over at the moment `t`. -/
def memoryStore : Store Tables where
  putProvider _ m ref := match ref with
    | .own r => .ok (.stored r.id, m.insertProvider r)
    | .stored id => .ok (.stored id, m)
  getProvider _ m id :=
    if (m.providers.lookup id).isSome then .ok (.stored id) else .error .notFound
  getProviderByPrefix t m p := (memoryLookup (order t) m.providers p).map .stored
  listProviders t m filter := .ok <|
    ((order t).apply m.providers.keys).filter (fun id =>
      (m.providers.lookup id).any filter.admits) |>.map .stored
  updateHeartbeat _ m id heartbeat :=
    if (m.providers.lookup id).isSome then
      .ok ((m.assignProvider id (.lastHeartbeat heartbeat)).assignProvider id (.status "online"))
    else .error .notFound
  putSession _ m ref := match ref with
    | .own r => .ok (.stored r.id, m.insertSession r)
    | .stored id => .ok (.stored id, m)
  getSessionByPrefix t m p := (memoryLookup (order t) m.sessions p).map .stored
  listSessions t m filter := .ok <|
    ((order t).apply m.sessions.keys).filter (fun id =>
      (m.sessions.lookup id).any filter.admits) |>.map .stored
  getTerminatedSessionIDs _ m ids providerID := .ok <|
    ids.filter (fun id => (m.sessions.lookup id).any (fun s =>
      s.providerID = providerID && s.status = "terminated"))
  shared := true
  provider m id := m.providers.lookup id
  session m id := m.sessions.lookup id
  assignProvider m id a := m.assignProvider id a
  assignSession m id a := m.assignSession id a

theorem memoryStore_lawful : (memoryStore order).Lawful where
  session_id {s _ _} h := s.session_id h
  get_session := by
    intro t s p ref h
    obtain ⟨id, hid, rfl⟩ := map_eq_ok h
    obtain ⟨r, hr⟩ := memoryLookup_eq_ok hid
    obtain rfl := s.session_id hr
    exact ⟨r, hr, rfl⟩
  put_own := by
    intro t s r ref s' h
    cases h
    refine ⟨rfl, fun id => ?_⟩
    have hmerge : (memoryStore order).merge ((memoryStore order).session s r.id) r = r := by
      unfold Store.merge
      split <;> rfl
    rw [hmerge]
    exact Map.lookup_insert _ _ _ _
  put_stored := by
    intro t s id ref s' h
    cases h
    exact ⟨rfl, rfl⟩
  put_shared _ t s ref := by
    cases ref with
    | own r => exact ⟨_, rfl⟩
    | stored id => exact ⟨_, rfl⟩
  assign_session := Map.lookup_modify _ _ _ _
  put_provider := by
    intro t s ref ref' s' h
    cases ref with
    | own r =>
      cases h
      rfl
    | stored id =>
      cases h
      rfl
  update_heartbeat := by
    intro t s id now s' h
    simp only [memoryStore] at h
    split at h
    · cases h
      rfl
    · cases h
  assign_provider := rfl

theorem memoryStore_exact : (memoryStore order).Exact where
  get_session := by
    intro t s id r h
    have hsome : (s.sessions.lookup id).isSome = true := Option.isSome_iff_exists.mpr ⟨r, h⟩
    have hfound : memoryLookup (order t) s.sessions id = .ok id := if_pos hsome
    simp only [memoryStore, hfound]
    rw [← s.session_id h]
    rfl
  list_sessions := by
    intro t s filter refs h ref href
    cases h
    obtain ⟨id, hid, rfl⟩ := List.mem_map.mp href
    have hadmits := (List.mem_filter.mp hid).2
    cases hr : s.sessions.lookup id with
    | none =>
      rw [hr] at hadmits
      cases hadmits
    | some r =>
      obtain rfl := s.session_id hr
      exact ⟨r, hr, rfl⟩

theorem memoryStore_neverFails : (memoryStore order).NeverFails :=
  fun t s ref => (memoryStore_lawful order).put_shared rfl t s ref

theorem memoryStore_providerLaws : (memoryStore order).ProviderLaws where
  provider_id {s _ _} h := s.provider_id h
  get_provider := by
    intro t s id ref h
    simp only [memoryStore] at h
    split at h
    next hid =>
      cases h
      obtain ⟨r, hr⟩ := Option.isSome_iff_exists.mp hid
      obtain rfl := s.provider_id hr
      exact ⟨r, hr, rfl⟩
    next => cases h
  get_provider_by := by
    intro t s p ref h
    obtain ⟨id, hid, rfl⟩ := map_eq_ok h
    obtain ⟨r, hr⟩ := memoryLookup_eq_ok hid
    obtain rfl := s.provider_id hr
    exact ⟨r, hr, rfl⟩
  list_providers := by
    intro t s filter refs h
    cases h
    obtain ⟨hnodup, hmem⟩ := listed_keys (p := filter.admits) (order t) s.provider_id
    refine ⟨listed s.providers ((order t).apply s.providers.keys) filter.admits, ?_, hnodup, hmem⟩
    rw [← map_listed s.provider_id, List.map_map]
    rfl
  put_own := by
    intro t s r ref s' h
    cases h
    refine ⟨rfl, fun id => ?_⟩
    have hmerge : (memoryStore order).mergeProvider ((memoryStore order).provider s r.id) r = r := by
      unfold Store.mergeProvider
      split <;> rfl
    rw [hmerge]
    exact Map.lookup_insert _ _ _ _
  put_stored := by
    intro t s id ref s' h
    cases h
    exact ⟨rfl, rfl⟩
  assign_provider := Map.lookup_modify _ _ _ _
  update_heartbeat := by
    intro t s id now s' id' h
    simp only [memoryStore] at h
    split at h
    next =>
      cases h
      exact Tables.lookup_online s id now id'
    next => cases h

theorem memoryStore_listable (st : Tables) : (memoryStore order).Listable st where
  list_providers _ _ _ _ := ⟨_, rfl⟩
  put_provider _ _ _ _ := ⟨_, rfl⟩

theorem memoryStore_steady : (memoryStore order).Steady where
  get_provider_by := by
    intro t t' s s' p r hsame hr hget
    obtain ⟨id, hid, hhandle⟩ := map_eq_ok hget
    obtain rfl : id = r.id := Ref.stored.inj hhandle
    have hsome : ((memoryStore order).provider s' r.id).isSome = true := by
      rw [← hsame r.id, hr]
      rfl
    obtain ⟨r', hr'⟩ := Option.isSome_iff_exists.mp hsome
    have hid' : r'.id = r.id := s'.provider_id hr'
    refine ⟨r', hid', hr', ?_⟩
    have hfound : memoryLookup (order t') s'.providers p = .ok r.id :=
      (matchLookup_sameKeys hsame (order t) (order t') p).symm.trans hid
    simp only [memoryStore, hfound]
    change Except.ok (Ref.stored r.id) = Except.ok (Ref.stored r'.id)
    rw [hid']
  put_session _ _ _ := ⟨_, rfl⟩

end PeerCompute.Plugin
