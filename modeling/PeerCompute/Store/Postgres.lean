import PeerCompute.Plugin.Providers

namespace PeerCompute.PostgresStore

open PeerCompute.Data PeerCompute.Plugin

/-- SQL `LIKE` with the default escape character. -/
def like : List Char → List Char → Bool
  | [], s => s.isEmpty
  | '%' :: p, s => s.tails.any (like p)
  | '_' :: p, s => match s with
    | [] => false
    | _ :: s => like p s
  | ['\\'], _ => false
  | '\\' :: c :: p, s => match s with
    | [] => false
    | d :: s => c = d && like p s
  | c :: p, s => match s with
    | [] => false
    | d :: s => c = d && like p s

/-- What the database decides: the rows a statement sees come in some order, a statement may fail,
the connection may be lost after some rows, and a row may break a constraint. -/
structure Backend where
  order : Nat → Order String
  /-- The error of the `i`-th statement of the call made at `t`. -/
  fault : Nat → Nat → Option String
  /-- How many rows of the call at `t` arrive before the connection is lost. -/
  lost : Nat → Option Nat
  refuseText : String → Option String
  refuseProvider : ProviderRecord → Option String
  refuseSession : Tables → SessionRecord → Option String

variable (B : Backend)

namespace Backend

/-- Runs the `i`-th statement of a call, unless it or one of its checks fails. -/
def statement {α : Type} (t i : Nat) (checks : List (Option String)) (x : Except StoreError α) :
    Except StoreError α :=
  match (B.fault t i :: checks).findSome? id with
  | some message => .error (.other message)
  | none => x

/-- The rows a loop without a `rows.Err()` check sees. -/
def arrived {α : Type} (t : Nat) (rows : List α) : List α :=
  match B.lost t with
  | none => rows
  | some n => rows.take n

/-- The rows of a loop with a `rows.Err()` check. -/
def allRows {α : Type} (t : Nat) (rows : List α) : Except StoreError (List α) :=
  match B.lost t with
  | none => .ok rows
  | some n => if rows.length ≤ n then .ok rows else .error (.other "driver: bad connection")

/-- `SELECT … WHERE id = $1`. -/
def byID {V : Type} (t : Nat) (m : Map String V) (id : String) : Except StoreError V :=
  B.statement t 0 [B.refuseText id] (match m.lookup id with
    | none => .error .notFound
    | some x => .ok x)

/-- `SELECT … WHERE id LIKE $1 LIMIT 2`, after a failed lookup by ID. -/
def byPrefix {V : Type} (t : Nat) (m : Map String V) (p : String) : Except StoreError String :=
  B.statement t 1 [B.refuseText p] (onlyMatch (B.arrived t
    ((((B.order t).apply m.keys).filter (fun id => like (p.toList ++ ['%']) id.toList)).take 2)))

/-- `GetProviderByPrefix` and `GetSessionByPrefix`. -/
def lookup {V : Type} (t : Nat) (m : Map String V) (p : String) : Except StoreError V :=
  match B.byID t m p with
  | .ok x => .ok x
  | .error _ => match B.byPrefix t m p with
    | .error e => .error e
    | .ok id => match m.lookup id with
      | none => .error .notFound
      | some x => .ok x

end Backend

/-- `ON CONFLICT (id) DO UPDATE` of a provider. -/
def upsertProvider (m : Tables) (r : ProviderRecord) : Tables :=
  match m.providers.lookup r.id with
  | none => m.insertProvider r
  | some old => m.insertProvider { r with registeredAt := old.registeredAt }

/-- `ON CONFLICT (id) DO UPDATE` of a session. -/
def upsertSession (m : Tables) (r : SessionRecord) : Tables :=
  match m.sessions.lookup r.id with
  | none => m.insertSession r
  | some old => m.insertSession (old.overwrite r)

/-- A store over tables that hands out copies.  A handler holds no other records, so a put of a
stored one does not happen and does nothing. -/
def tableStore : Store Tables where
  putProvider t m ref := match ref with
    | .own r => B.statement t 0 [B.refuseProvider r] (.ok (.own r, upsertProvider m r))
    | .stored id => .ok (.stored id, m)
  getProvider t m id := (B.byID t m.providers id).map .own
  getProviderByPrefix t m p := (B.lookup t m.providers p).map .own
  listProviders t m filter := B.statement t 0 [B.refuseText filter.status]
    ((B.allRows t (((B.order t).apply m.providers.keys).filterMap (fun id =>
      (m.providers.lookup id).filter filter.admits))).map (List.map .own))
  updateHeartbeat t m id heartbeat := B.statement t 0 [B.refuseText id]
    (.ok ((m.assignProvider id (.lastHeartbeat heartbeat)).assignProvider id (.status "online")))
  putSession t m ref := match ref with
    | .own r => B.statement t 0 [B.refuseSession m r] (.ok (.own r, upsertSession m r))
    | .stored id => .ok (.stored id, m)
  getSessionByPrefix t m p := (B.lookup t m.sessions p).map .own
  listSessions t m filter :=
    B.statement t 0 [B.refuseText filter.providerID, B.refuseText filter.renterID,
      B.refuseText filter.status]
      ((B.allRows t (((B.order t).apply m.sessions.keys).filterMap (fun id =>
        (m.sessions.lookup id).filter filter.admits))).map (List.map .own))
  getTerminatedSessionIDs t m ids providerID :=
    if ids = [] then .ok []
    else B.statement t 0 (B.refuseText providerID :: ids.map B.refuseText)
      (B.allRows t (((B.order t).apply m.sessions.keys).filter (fun id => id ∈ ids &&
        (m.sessions.lookup id).any (fun s =>
          s.providerID = providerID && s.status = "terminated"))))
  shared := false
  provider m id := m.providers.lookup id
  session m id := m.sessions.lookup id
  assignProvider m id a := m.assignProvider id a
  assignSession m id a := m.assignSession id a

section

variable {B}

theorem Backend.statement_eq_ok {α : Type} {t i : Nat} {checks : List (Option String)}
    {x : Except StoreError α} {y : α} (h : B.statement t i checks x = .ok y) : x = .ok y := by
  unfold statement at h
  split at h
  · cases h
  · exact h

theorem Backend.checks_of_statement {α : Type} {t i : Nat} {checks : List (Option String)}
    {x : Except StoreError α} {y : α} (h : B.statement t i checks x = .ok y) :
    ∀ c ∈ B.fault t i :: checks, c = none := by
  unfold statement at h
  split at h
  next => cases h
  next hnone => exact List.findSome?_eq_none_iff.mp hnone

theorem Backend.allRows_eq_ok {α : Type} {t : Nat} {rows rows' : List α}
    (h : B.allRows t rows = .ok rows') : rows' = rows := by
  unfold allRows at h
  split at h
  · exact (Except.ok.inj h).symm
  · split at h
    · exact (Except.ok.inj h).symm
    · cases h

theorem Backend.byID_eq_ok {V : Type} {t : Nat} {m : Map String V} {id : String} {x : V}
    (h : B.byID t m id = .ok x) : m.lookup id = some x := by
  have hid := statement_eq_ok h
  split at hid
  · cases hid
  next z hz =>
    cases hid
    exact hz

theorem Backend.lookup_eq_ok {V : Type} {t : Nat} {m : Map String V} {p : String} {x : V}
    (h : B.lookup t m p = .ok x) : ∃ id, m.lookup id = some x := by
  unfold lookup at h
  split at h
  next y hy =>
    cases h
    exact ⟨p, byID_eq_ok hy⟩
  next =>
    split at h
    · cases h
    next id _ =>
      split at h
      · cases h
      next z hz =>
        cases h
        exact ⟨id, hz⟩

theorem sessions_upsertSession (m : Tables) (r : SessionRecord) (id : String) :
    (upsertSession m r).sessions.lookup id =
      if id = r.id then some (match m.sessions.lookup r.id with
        | none => r
        | some old => old.overwrite r) else m.sessions.lookup id := by
  unfold upsertSession
  split
  next h => exact Map.lookup_insert _ _ _ _
  next old h =>
    have hold : old.id = r.id := m.session_id h
    have hid : (old.overwrite r).id = r.id := hold
    rw [Tables.insertSession, Map.lookup_insert, hid]

end

theorem tableStore_lawful : (tableStore B).Lawful where
  session_id {m _ _} h := m.session_id h
  get_session := by
    intro t m p ref h
    obtain ⟨r, hr, rfl⟩ := map_eq_ok h
    obtain ⟨id, hr'⟩ := Backend.lookup_eq_ok hr
    exact ⟨r, m.session_id hr' ▸ hr', rfl⟩
  put_own := by
    intro t m r ref m' h
    have h' := Backend.statement_eq_ok h
    cases h'
    refine ⟨rfl, fun id => ?_⟩
    have hmerge : (tableStore B).merge ((tableStore B).session m r.id) r =
        (match m.sessions.lookup r.id with
          | none => r
          | some old => old.overwrite r) := by
      simp only [Store.merge, tableStore]
      cases m.sessions.lookup r.id <;> rfl
    rw [hmerge]
    exact sessions_upsertSession m r id
  put_stored := by
    intro t m id ref m' h
    cases h
    exact ⟨rfl, rfl⟩
  put_shared h := by cases h
  assign_session := Map.lookup_modify _ _ _ _
  put_provider := by
    intro t m ref ref' m' h
    cases ref with
    | own r =>
      have h' := Backend.statement_eq_ok h
      cases h'
      simp only [tableStore, upsertProvider]
      split <;> rfl
    | stored id =>
      cases h
      rfl
  update_heartbeat := by
    intro t m id now m' h
    have h' := Backend.statement_eq_ok h
    cases h'
    rfl
  assign_provider := rfl

theorem providers_upsertProvider (m : Tables) (r : ProviderRecord) (id : String) :
    (upsertProvider m r).providers.lookup id =
      if id = r.id then
        some ((tableStore B).mergeProvider (m.providers.lookup r.id) r)
      else m.providers.lookup id := by
  unfold upsertProvider Store.mergeProvider
  cases m.providers.lookup r.id with
  | none => exact Map.lookup_insert _ _ _ _
  | some old => exact Map.lookup_insert _ _ _ _

theorem tableStore_providerLaws : (tableStore B).ProviderLaws where
  provider_id {m _ _} h := m.provider_id h
  get_provider := by
    intro t m id ref h
    obtain ⟨r, hr, rfl⟩ := map_eq_ok h
    exact ⟨r, Backend.byID_eq_ok hr, rfl⟩
  get_provider_by := by
    intro t m p ref h
    obtain ⟨r, hr, rfl⟩ := map_eq_ok h
    obtain ⟨id, hr'⟩ := Backend.lookup_eq_ok hr
    exact ⟨r, m.provider_id hr' ▸ hr', rfl⟩
  list_providers := by
    intro t m filter refs h
    obtain ⟨rows, hrows, rfl⟩ := map_eq_ok (Backend.statement_eq_ok h)
    obtain rfl := Backend.allRows_eq_ok hrows
    obtain ⟨hnodup, hmem⟩ := listed_keys (p := filter.admits) (B.order t) m.provider_id
    exact ⟨_, rfl, hnodup, hmem⟩
  put_own := by
    intro t m r ref m' h
    have h' := Backend.statement_eq_ok h
    cases h'
    exact ⟨rfl, providers_upsertProvider B m r⟩
  put_stored := by
    intro t m id ref m' h
    cases h
    exact ⟨rfl, rfl⟩
  assign_provider := Map.lookup_modify _ _ _ _
  update_heartbeat := by
    intro t m id now m' id' h
    have h' := Backend.statement_eq_ok h
    cases h'
    exact Tables.lookup_online m id now id'

theorem tableStore_copies : (tableStore B).Copies := (tableStore_providerLaws B).copies rfl

theorem listed_session {B : Backend} {t : Nat} {m : Tables} {filter : SessionFilter}
    {refs : List (Ref SessionRecord)} (h : (tableStore B).listSessions t m filter = .ok refs) :
    ∀ ref ∈ refs, ∃ r, m.sessions.lookup r.id = some r ∧ ref = .own r := by
  intro ref href
  obtain ⟨rows, hrows, rfl⟩ := map_eq_ok (Backend.statement_eq_ok h)
  obtain rfl := Backend.allRows_eq_ok hrows
  obtain ⟨r, hr, rfl⟩ := List.mem_map.mp href
  obtain ⟨id, -, hid⟩ := List.mem_filterMap.mp hr
  have hlookup := (Option.filter_eq_some_iff.mp hid).1
  exact ⟨r, m.session_id hlookup ▸ hlookup, rfl⟩

theorem tableStore_lists : (tableStore B).Lists := fun _ _ _ _ h => listed_session h

/-- A database that never fails and has no constraints. -/
def faultless (order : Nat → Order String) : Backend where
  order := order
  fault _ _ := none
  lost _ := none
  refuseText _ := none
  refuseProvider _ := none
  refuseSession _ _ := none

theorem tableStore_neverFails (order : Nat → Order String) :
    (tableStore (faultless order)).NeverFails := by
  intro t m ref
  cases ref with
  | own r => exact ⟨_, rfl⟩
  | stored id => exact ⟨_, rfl⟩

theorem tableStore_exact (order : Nat → Order String) :
    (tableStore (faultless order)).Exact where
  get_session := by
    intro t m id r h
    have hr : m.sessions.lookup id = some r := h
    simp only [tableStore, Backend.lookup, Backend.byID, hr]
    rfl
  list_sessions h := listed_session h

/-- `TEXT` holds no zero byte. -/
def refuseText (v : String) : Option String :=
  if v.toList.contains (Char.ofNat 0) then
    some "pq: invalid byte sequence for encoding \"UTF8\": 0x00"
  else none

/-- A `uint32` in an `INT` column. -/
def refuseInt (v : UInt32) : Option String :=
  if v.toNat < 0x80000000 then none
  else some ("pq: value \"" ++ v.toNat.repr ++ "\" is out of range for type integer")

/-- A `uint64` in a `BIGINT` column. -/
def refuseBigint (i : Nat) (v : UInt64) : Option String :=
  if v.toNat < 0x8000000000000000 then none
  else some ("sql: converting argument $" ++ i.repr ++
    " type: uint64 values with high bit set are not supported")

def refuseProvider (r : ProviderRecord) : Option String :=
  [refuseBigint 7 r.memoryMB, refuseBigint 8 r.diskGB, refuseBigint 12 r.availMemoryMB,
   refuseText r.id, refuseText r.name, refuseText r.address, refuseText r.publicAddress,
   refuseText r.status, refuseInt r.cpuCores, refuseInt r.gpuCount, refuseText r.gpuModel,
   refuseInt r.availCPU, refuseInt r.availGPU].findSome? id

/-- The driver checks its arguments first, then the server the values and the foreign key. -/
def refuseSessionIf (dangling : Bool) (r : SessionRecord) : Option String :=
  [refuseBigint 15 r.memoryMB, refuseText r.id, refuseText r.providerID, refuseText r.renterID,
   refuseText r.image, refuseText r.status, refuseText r.containerID, refuseText r.sshEndpoint,
   refuseText r.connectionMode, refuseText r.relayToken, refuseText r.wgPublicKey,
   refuseText r.wgEndpoint, refuseText r.wgProviderIP, refuseText r.wgRenterIP,
   refuseInt r.cpuCores,
   if dangling then
     some ("pq: insert or update on table \"sessions\" violates foreign key constraint " ++
       "\"sessions_provider_id_fkey\"")
   else none].findSome? id

def refuseSession (m : Tables) (r : SessionRecord) : Option String :=
  refuseSessionIf (!((m.sessions.lookup r.id).isSome || (m.providers.lookup r.providerID).isSome)) r

/-- PostgreSQL with the tables of `schema.sql`. -/
def postgres (order : Nat → Order String) (fault : Nat → Nat → Option String)
    (lost : Nat → Option Nat) : Backend where
  order := order
  fault := fault
  lost := lost
  refuseText := refuseText
  refuseProvider := refuseProvider
  refuseSession := refuseSession

end PeerCompute.PostgresStore
