import Mathlib.Data.List.Forall2
import PeerCompute.Store.Columns
import PeerCompute.Store.Statements

/-! `PostgresStore` over rows: what each statement does to the columns it names. -/

namespace PeerCompute.PostgresStore

open PeerCompute.Data PeerCompute.Plugin

/-- The rows of the two tables, by primary key. -/
structure Database where
  providers : Map String (Row ProviderColumn) := ∅
  sessions : Map String (Row SessionColumn) := ∅

section Tables

variable {C R : Type}

/-- The rows of a table, in the order in which a statement sees them. -/
def tableRows (order : Order String) (m : Map String (Row C)) : List (Row C) :=
  (order.apply m.keys).filterMap m.lookup

/-- `INSERT … ON CONFLICT (id) DO UPDATE SET …`. -/
def upsertRow [DecidableEq C] (updates : List C) (m : Map String (Row C)) (id : String)
    (row : Row C) : Map String (Row C) :=
  m.insert id (match m.lookup id with
    | none => row
    | some old => updateRow updates old row)

/-- `Scan` of the selected columns into a new record. -/
def scanned (dests : List (Dest R)) (columns : List C) (zero : R) (row : Row C) :
    Except StoreError R :=
  match scan dests (selectRow columns row) zero with
  | none => .error (.other "sql: Scan error")
  | some r => .ok r

/-- The loop of a lookup by prefix over the rows, with the match so far. -/
def matchLoop (scanRow : Row C → Except StoreError R) :
    List (Row C) → Option R → Except StoreError R
  | [], none => .error .notFound
  | [], some r => .ok r
  | row :: rows, found => match scanRow row with
    | .error e => .error e
    | .ok r => match found with
      | some _ => .error .ambiguousPrefix
      | none => matchLoop scanRow rows (some r)

/-- `c = $1`. -/
def Value.isText (v : String) : Value → Bool
  | .text u => u = v
  | _ => false

/-- `c >= $1`. -/
def Value.atLeast (n : Nat) : Value → Bool
  | .int v => n ≤ v
  | _ => false

/-- `c LIKE $1`. -/
def Value.likeText (pattern : List Char) : Value → Bool
  | .text u => like pattern u.toList
  | _ => false

/-- `c = ANY($1)`. -/
def Value.isAny (vs : List String) : Value → Bool
  | .text u => u ∈ vs
  | _ => false

end Tables

/-- The `WHERE` of `ListProviders`. -/
def whereProvider (filter : ProviderFilter) (row : Row ProviderColumn) : Bool :=
  (filter.status = "" || (row .status).isText filter.status) &&
  (filter.minCPU = 0 || (row .availCPU).atLeast filter.minCPU.toNat) &&
  (filter.minMemory = 0 || (row .availMemoryMB).atLeast filter.minMemory.toNat) &&
  (filter.minGPU = 0 || (row .availGPU).atLeast filter.minGPU.toNat)

/-- The `WHERE` of `ListSessions`. -/
def whereSession (filter : SessionFilter) (row : Row SessionColumn) : Bool :=
  (filter.providerID = "" || (row .providerID).isText filter.providerID) &&
  (filter.renterID = "" || (row .renterID).isText filter.renterID) &&
  (filter.status = "" || (row .status).isText filter.status)

/-- The `WHERE` of `GetTerminatedSessionIDs`. -/
def whereTerminated (ids : List String) (providerID : String) (row : Row SessionColumn) : Bool :=
  (row .id).isAny ids && (row .providerID).isText providerID && (row .status).isText "terminated"

/-- `SET last_heartbeat = $1, status = 'online'`. -/
def beatRow (heartbeat : Int) (row : Row ProviderColumn) : Row ProviderColumn
  | .lastHeartbeat => .int heartbeat
  | .status => .text "online"
  | c => row c

def Database.putProvider (db : Database) (p : ProviderRecord) : Database :=
  let row := insertRow providerDefaults putProviderColumns (putProviderArgs p)
  { db with providers := upsertRow putProviderUpdates db.providers p.id row }

def Database.putSession (db : Database) (s : SessionRecord) : Database :=
  let row := insertRow sessionDefaults putSessionColumns (putSessionArgs s)
  { db with sessions := upsertRow putSessionUpdates db.sessions s.id row }

/-- The record of a row. -/
def readProvider (row : Row ProviderColumn) : Option ProviderRecord :=
  scan scanProvider (selectRow getProviderColumns row) {}

def readSession (row : Row SessionColumn) : Option SessionRecord :=
  scan scanSession (selectRow getSessionColumns row) {}

variable (B : Backend)

namespace Backend

/-- `SELECT … WHERE id = $1`. -/
def selectID {C R : Type} (t : Nat) (m : Map String (Row C)) (scanRow : Row C → Except StoreError R)
    (id : String) : Except StoreError R :=
  B.statement t 0 [B.refuseText id] (match m.lookup id with
    | none => .error .notFound
    | some row => scanRow row)

/-- `SELECT … WHERE id LIKE $1 LIMIT 2`. -/
def selectLike {C R : Type} (t : Nat) (m : Map String (Row C)) (key : C)
    (scanRow : Row C → Except StoreError R) (p : String) : Except StoreError R :=
  B.statement t 1 [B.refuseText p] (matchLoop scanRow (B.arrived t
    (((tableRows (B.order t) m).filter (fun row =>
      (row key).likeText (p.toList ++ ['%']))).take 2)) none)

/-- `SELECT … WHERE …` and the loop over the rows. -/
def selectWhere {C R : Type} (t : Nat) (m : Map String (Row C)) (cond : Row C → Bool)
    (scanRow : Row C → Except StoreError R) : Except StoreError (List R) :=
  (B.allRows t ((tableRows (B.order t) m).filter cond)).bind (List.mapM scanRow)

end Backend

/-- `PostgresStore`. -/
def rowStatements : Statements Database where
  putProvider t db ref := match ref with
    | .own p => B.statement t 0 [B.refuseProvider p] (.ok (.own p, db.putProvider p))
    | .stored id => .ok (.stored id, db)
  updateHeartbeat t db id heartbeat := B.statement t 0 [B.refuseText id]
    (.ok { db with providers := db.providers.modify id (beatRow heartbeat) })
  getProvider t db id :=
    (B.selectID t db.providers (scanned scanProvider getProviderColumns {}) id).map .own
  findProvider t db p :=
    (B.selectID t db.providers (scanned scanProvider getProviderColumns {}) p).map .own
  likeProvider t db p := (B.selectLike t db.providers .id
    (scanned scanProviderRow getProviderByPrefixColumns {}) p).map .own
  getProviderByPrefix t db p := orElse
    ((B.selectID t db.providers (scanned scanProvider getProviderColumns {}) p).map .own)
    ((B.selectLike t db.providers .id
      (scanned scanProviderRow getProviderByPrefixColumns {}) p).map .own)
  listProviders t db filter := B.statement t 0 [B.refuseText filter.status]
    ((B.selectWhere t db.providers (whereProvider filter)
      (scanned scanProviderRow listProvidersColumns {})).map (List.map .own))
  putSession t db ref := match ref with
    | .own s => B.statement t 0
        [refuseSessionIf (!((db.sessions.lookup s.id).isSome ||
          (db.providers.lookup s.providerID).isSome)) s] (.ok (.own s, db.putSession s))
    | .stored id => .ok (.stored id, db)
  findSession t db p :=
    (B.selectID t db.sessions (scanned scanSession getSessionColumns {}) p).map .own
  likeSession t db p := (B.selectLike t db.sessions .id
    (scanned scanSessionRow getSessionByPrefixColumns {}) p).map .own
  getSessionByPrefix t db p := orElse
    ((B.selectID t db.sessions (scanned scanSession getSessionColumns {}) p).map .own)
    ((B.selectLike t db.sessions .id
      (scanned scanSessionRow getSessionByPrefixColumns {}) p).map .own)
  listSessions t db filter :=
    B.statement t 0 [B.refuseText filter.providerID, B.refuseText filter.renterID,
      B.refuseText filter.status]
      ((B.selectWhere t db.sessions (whereSession filter)
        (scanned scanSessionRow listSessionsColumns {})).map (List.map .own))
  getTerminatedSessionIDs t db ids providerID :=
    if ids = [] then .ok []
    else B.statement t 0 (B.refuseText providerID :: ids.map B.refuseText)
      (B.selectWhere t db.sessions (whereTerminated ids providerID)
        (scanned [.text fun _ v => v] [.id] ""))
  shared := false
  provider db id := (db.providers.lookup id).bind readProvider
  session db id := (db.sessions.lookup id).bind readSession
  -- a handler holds copies only, so nothing is ever assigned to a stored row
  assignProvider db id a := ⟨db.providers.modify id (fun row =>
    (readProvider row).elim row (fun p => providerRow (a.apply p))), db.sessions⟩
  assignSession db id a := ⟨db.providers, db.sessions.modify id (fun row =>
    (readSession row).elim row (fun s => sessionRow (a.apply s)))⟩
  lookup_provider _ _ _ := rfl
  lookup_session _ _ _ := rfl

/-- The tables whose rows are those of the records. -/
def Database.ofTables (m : Tables) : Database where
  providers := Map.mapValues providerRow m.providers
  sessions := Map.mapValues sessionRow m.sessions

section Encoded

variable {C R V : Type} {B : Backend} {t : Nat} {m : Map String V} {enc : V → Row C}
  {scanRow : Row C → Except StoreError R}

theorem selectID_mapValues {scanRow : Row C → Except StoreError V}
    (hscan : ∀ v, scanRow (enc v) = .ok v) (id : String) :
    B.selectID t (Map.mapValues enc m) scanRow id = B.byID t m id := by
  unfold Backend.selectID Backend.byID
  rw [Map.lookup_mapValues]
  cases m.lookup id with
  | none => rfl
  | some v => simp only [Option.map_some, hscan]

theorem tableRows_mapValues (order : Order String) :
    tableRows order (Map.mapValues enc m) = ((order.apply m.keys).filterMap m.lookup).map enc := by
  simp only [tableRows, Map.keys_mapValues, List.map_filterMap]
  congr 1
  funext id
  exact Map.lookup_mapValues enc m id

theorem mapM_map {out : V → R} (hscan : ∀ v, scanRow (enc v) = .ok (out v)) (vs : List V) :
    (vs.map enc).mapM scanRow = .ok (vs.map out) := by
  induction vs with
  | nil => rfl
  | cons v vs ih =>
    rw [List.map_cons, List.mapM_cons, hscan, ih]
    rfl

theorem allRows_map {W : Type} (f : V → W) (vs : List V) :
    B.allRows t (vs.map f) = (B.allRows t vs).map (List.map f) := by
  unfold Backend.allRows
  cases B.lost t with
  | none => rfl
  | some n =>
    simp only [List.length_map]
    split <;> rfl

theorem selectWhere_mapValues {cond : Row C → Bool} {p : V → Bool} {out : V → R}
    (hscan : ∀ v, scanRow (enc v) = .ok (out v)) (hcond : ∀ v, cond (enc v) = p v) :
    B.selectWhere t (Map.mapValues enc m) cond scanRow =
      B.allRows t ((((B.order t).apply m.keys).filterMap (fun id => (m.lookup id).filter p)).map out) := by
  have hrows : (tableRows (B.order t) (Map.mapValues enc m)).filter cond =
      (((B.order t).apply m.keys).filterMap (fun id => (m.lookup id).filter p)).map enc := by
    have hp : cond ∘ enc = p := funext hcond
    rw [tableRows_mapValues, List.filter_map, hp, List.filter_filterMap]
  rw [Backend.selectWhere, hrows, allRows_map, allRows_map]
  cases B.allRows t (((B.order t).apply m.keys).filterMap (fun id => (m.lookup id).filter p)) with
  | error e => rfl
  | ok vs => exact mapM_map hscan vs

/-- The rows of stored IDs. -/
theorem forall₂_lookup {ids : List String} (hids : ∀ id ∈ ids, id ∈ m.keys) :
    List.Forall₂ (fun id v => m.lookup id = some v) ids (ids.filterMap m.lookup) := by
  induction ids with
  | nil => exact .nil
  | cons id ids ih =>
    obtain ⟨v, hv⟩ := Map.mem_keys_iff.mp (hids id (.head _))
    have hcons := List.filterMap_cons_some (f := fun id => m.lookup id) (l := ids) hv
    rw [hcons]
    exact .cons hv (ih (fun id hid => hids id (.tail _ hid)))

theorem forall₂_arrived {W : Type} {rel : V → W → Prop} {vs : List V} {ws : List W}
    (h : List.Forall₂ rel vs ws) : List.Forall₂ rel (B.arrived t vs) (B.arrived t ws) := by
  unfold Backend.arrived
  cases B.lost t with
  | none => exact h
  | some n => exact List.forall₂_take n h

/-- The loop over the rows finds what the loop over their IDs finds. -/
theorem matchLoop_map {scanRow : Row C → Except StoreError V} (hscan : ∀ v, scanRow (enc v) = .ok v)
    {ids : List String} {vs : List V} (h : List.Forall₂ (fun id v => m.lookup id = some v) ids vs) :
    matchLoop scanRow (vs.map enc) none =
      (onlyMatch ids).bind (fun id => (m.lookup id).elim (.error .notFound) .ok) := by
  match h with
  | .nil => rfl
  | .cons hv .nil => simp [matchLoop, hscan, onlyMatch, Except.bind, hv]
  | .cons _ (.cons _ _) => simp [matchLoop, hscan, onlyMatch, Except.bind]

theorem likeRow_eq (p : String) :
    B.likeRow t m p =
      (B.byPrefix t m p).bind (fun id => (m.lookup id).elim (.error .notFound) .ok) := by
  unfold Backend.likeRow
  cases B.byPrefix t m p with
  | error e => rfl
  | ok id =>
    simp only [Except.bind]
    cases m.lookup id <;> rfl

theorem statement_bind {W : Type} {i : Nat} {checks : List (Option String)}
    {x : Except StoreError V} (f : V → Except StoreError W) :
    (B.statement t i checks x).bind f = B.statement t i checks (x.bind f) := by
  unfold Backend.statement
  split <;> rfl

theorem selectLike_mapValues (key : C) {scanRow : Row C → Except StoreError V}
    (hscan : ∀ v, scanRow (enc v) = .ok v)
    (hkey : ∀ id v, m.lookup id = some v → enc v key = .text id) (p : String) :
    B.selectLike t (Map.mapValues enc m) key scanRow p = B.likeRow t m p := by
  let ids := ((B.order t).apply m.keys).filter (fun id => like (p.toList ++ ['%']) id.toList)
  have hrows : (tableRows (B.order t) (Map.mapValues enc m)).filter
      (fun row => (row key).likeText (p.toList ++ ['%'])) = (ids.filterMap m.lookup).map enc := by
    rw [tableRows_mapValues, List.filter_map, List.filter_filterMap, List.filterMap_filter]
    congr 1
    refine List.filterMap_congr (fun id _ => ?_)
    cases hv : m.lookup id with
    | none => simp
    | some v => simp [hkey id v hv, Value.likeText, Option.filter_some]
  have hids : ∀ id ∈ ids, id ∈ m.keys := fun id hid =>
    ((B.order t).perm _).mem_iff.mp (List.mem_filter.mp hid).1
  have hloop := matchLoop_map hscan (forall₂_arrived (B := B) (t := t)
    (List.forall₂_take 2 (forall₂_lookup hids)))
  have hmap : (B.arrived t ((ids.filterMap m.lookup).take 2)).map enc =
      B.arrived t (((ids.filterMap m.lookup).map enc).take 2) := by
    unfold Backend.arrived
    cases B.lost t <;> simp [List.map_take]
  rw [hmap] at hloop
  rw [Backend.selectLike, hrows, hloop, likeRow_eq, Backend.byPrefix, statement_bind]

end Encoded

theorem map_statement {V W : Type} {B : Backend} {t i : Nat} {checks : List (Option String)}
    {x : Except StoreError V} (f : V → W) :
    (B.statement t i checks x).map f = B.statement t i checks (x.map f) := by
  unfold Backend.statement
  split <;> rfl

theorem scanned_eq_ok {C R : Type} {dests : List (Dest R)} {columns : List C} {zero r : R}
    {row : Row C} (h : scan dests (selectRow columns row) zero = some r) :
    scanned dests columns zero row = .ok r := by
  rw [scanned, h]

theorem whereProvider_providerRow (filter : ProviderFilter) (p : ProviderRecord) :
    whereProvider filter (providerRow p) = filter.admits p := by
  have hstatus : providerRow p .status = .text p.status := rfl
  have hcpu : providerRow p .availCPU = .int p.availCPU.toNat := rfl
  have hmemory : providerRow p .availMemoryMB = .int p.availMemoryMB.toNat := rfl
  have hgpu : providerRow p .availGPU = .int p.availGPU.toNat := rfl
  simp [whereProvider, ProviderFilter.admits, hstatus, hcpu, hmemory, hgpu, Value.isText,
    Value.atLeast, UInt32.le_iff_toNat_le, UInt64.le_iff_toNat_le]

theorem whereSession_sessionRow (filter : SessionFilter) (s : SessionRecord) :
    whereSession filter (sessionRow s) = filter.admits s := rfl

section

variable {C V : Type} [DecidableEq C] {m : Map String V} {enc : V → Row C} {updates : List C}
  {id : String} {v : V}

theorem upsertRow_of_none (h : m.lookup id = none) :
    upsertRow updates (Map.mapValues enc m) id (enc v) = Map.mapValues enc (m.insert id v) := by
  rw [upsertRow, Map.lookup_mapValues, h, Map.mapValues_insert]
  rfl

theorem upsertRow_of_some {old v' : V} (h : m.lookup id = some old)
    (hv : updateRow updates (enc old) (enc v) = enc v') :
    upsertRow updates (Map.mapValues enc m) id (enc v) = Map.mapValues enc (m.insert id v') := by
  rw [upsertRow, Map.lookup_mapValues, h, Map.mapValues_insert, ← hv]
  rfl

end

theorem whereTerminated_sessionRow (ids : List String) (providerID : String) (s : SessionRecord) :
    whereTerminated ids providerID (sessionRow s) =
      (decide (s.id ∈ ids) && decide (s.providerID = providerID) &&
        decide (s.status = "terminated")) := rfl

theorem scanned_id (s : SessionRecord) :
    scanned [.text fun _ v => v] [.id] "" (sessionRow s) = .ok s.id := rfl

namespace Database

theorem ofTables_upsertProvider (m : Tables) (p : ProviderRecord) :
    (ofTables m).putProvider p = ofTables (upsertProvider m p) := by
  unfold upsertProvider
  split
  next h => exact congrArg (Database.mk · _) (upsertRow_of_none h)
  next old h =>
    have hrow := updateRow_providerRow old p (m.provider_id h).symm
    exact congrArg (Database.mk · _) (upsertRow_of_some h hrow)

theorem ofTables_upsertSession (m : Tables) (s : SessionRecord) :
    (ofTables m).putSession s = ofTables (upsertSession m s) := by
  unfold upsertSession
  split
  next h => exact congrArg (Database.mk _ ·) (upsertRow_of_none h)
  next old h =>
    have hold : old.id = s.id := m.session_id h
    have hid : (old.overwrite s).id = s.id := hold
    refine congrArg (Database.mk _ ·) ((upsertRow_of_some h (updateRow_sessionRow old s)).trans ?_)
    exact congrArg (fun k => Map.mapValues sessionRow (m.sessions.insert k (old.overwrite s))) hid.symm

end Database

theorem Database.ofTables_beat (m : Tables) (id : String) (heartbeat : Int) :
    ({ ofTables m with providers := (ofTables m).providers.modify id (beatRow heartbeat) } : Database) =
      ofTables ((m.assignProvider id (.lastHeartbeat heartbeat)).assignProvider id (.status "online")) := by
  refine congrArg (Database.mk · _) ?_
  refine Eq.trans ?_ (congrArg (Map.mapValues providerRow) (Map.modify_modify m.providers id _ _).symm)
  refine (Map.mapValues_modify (fun p => ?_) m.providers id).symm
  funext c
  cases c <;> rfl


theorem readProvider_providerRow (p : ProviderRecord) : readProvider (providerRow p) = some p :=
  (scan_providerRow p).1

theorem readSession_sessionRow (s : SessionRecord) : readSession (sessionRow s) = some s :=
  (scan_sessionRow s).1

theorem bind_mapValues {C V : Type} {enc : V → Row C} {read : Row C → Option V}
    (h : ∀ v, read (enc v) = some v) (m : Map String V) (id : String) :
    ((Map.mapValues enc m).lookup id).bind read = m.lookup id := by
  rw [Map.lookup_mapValues]
  cases m.lookup id with
  | none => rfl
  | some v => exact h v

theorem map_filterMap_lookup {V : Type} {m : Map String V} {idOf : V → String}
    (hid : ∀ {id v}, m.lookup id = some v → idOf v = id) {p : V → Bool} {ids : List String} :
    (ids.filterMap (fun id => (m.lookup id).filter p)).map idOf =
      ids.filter (fun id => (m.lookup id).any p) := by
  rw [← List.filterMap_eq_filter, List.map_filterMap]
  refine List.filterMap_congr (fun id _ => ?_)
  cases h : m.lookup id with
  | none => simp [Option.guard, h]
  | some v => cases hp : p v <;> simp [Option.guard, Option.filter_some, h, hp, hid h]

theorem rowStatements_represents {B : Backend} (hB : B.refuseSession = refuseSession) :
    (rowStatements B).Represents (tableStatements B) Database.ofTables where
  put_provider t m ref := by
    cases ref with
    | own p =>
      refine Eq.trans ?_ (map_statement _).symm
      exact congrArg (fun db => B.statement t 0 [B.refuseProvider p] (.ok (Ref.own p, db)))
        (Database.ofTables_upsertProvider m p)
    | stored id => rfl
  get_provider t m id := congrArg (Except.map _)
    (selectID_mapValues (fun p => scanned_eq_ok (scan_providerRow p).1) id)
  find_provider t m p := congrArg (Except.map _)
    (selectID_mapValues (fun p => scanned_eq_ok (scan_providerRow p).1) p)
  like_provider t m p := congrArg (Except.map _)
    (selectLike_mapValues ProviderColumn.id (fun p => scanned_eq_ok (scan_providerRow p).2.1)
      (fun id p h => congrArg Value.text (m.provider_id h)) p)
  list_providers t m filter := by
    refine congrArg (fun x : Except StoreError (List ProviderRecord) =>
      B.statement t 0 [B.refuseText filter.status] (x.map (List.map Ref.own))) ?_
    refine (selectWhere_mapValues (fun p => scanned_eq_ok (scan_providerRow p).2.2)
      (whereProvider_providerRow filter)).trans ?_
    rw [List.map_id']
  update_heartbeat t m id heartbeat := by
    refine Eq.trans ?_ (map_statement _).symm
    exact congrArg (fun db => B.statement t 0 [B.refuseText id] (.ok db))
      (Database.ofTables_beat m id heartbeat)
  put_session t m ref := by
    cases ref with
    | own s =>
      refine Eq.trans ?_ (map_statement _).symm
      have hrefuse : B.refuseSession m s = refuseSessionIf
          (!(((Database.ofTables m).sessions.lookup s.id).isSome ||
            ((Database.ofTables m).providers.lookup s.providerID).isSome)) s := by
        simp only [hB, refuseSession, Database.ofTables, Map.lookup_mapValues, Option.isSome_map]
      rw [hrefuse]
      exact congrArg (fun db => B.statement t 0 [refuseSessionIf
          (!(((Database.ofTables m).sessions.lookup s.id).isSome ||
            ((Database.ofTables m).providers.lookup s.providerID).isSome)) s] (.ok (Ref.own s, db)))
        (Database.ofTables_upsertSession m s)
    | stored id => rfl
  find_session t m p := congrArg (Except.map _)
    (selectID_mapValues (fun s => scanned_eq_ok (scan_sessionRow s).1) p)
  like_session t m p := congrArg (Except.map _)
    (selectLike_mapValues SessionColumn.id (fun s => scanned_eq_ok (scan_sessionRow s).2.1)
      (fun id s h => congrArg Value.text (m.session_id h)) p)
  list_sessions t m filter := by
    refine congrArg (fun x : Except StoreError (List SessionRecord) =>
      B.statement t 0 [B.refuseText filter.providerID, B.refuseText filter.renterID,
        B.refuseText filter.status] (x.map (List.map Ref.own))) ?_
    refine (selectWhere_mapValues (fun s => scanned_eq_ok (scan_sessionRow s).2.2)
      (whereSession_sessionRow filter)).trans ?_
    rw [List.map_id']
  terminated t m ids providerID := by
    simp only [rowStatements, tableStatements, tableStore]
    split
    · rfl
    · refine congrArg (B.statement t 0 _) ?_
      refine (selectWhere_mapValues scanned_id (whereTerminated_sessionRow ids providerID)).trans
        (congrArg (B.allRows t) ?_)
      refine (map_filterMap_lookup m.session_id).trans (List.filter_congr (fun id _ => ?_))
      cases h : m.sessions.lookup id with
      | none => simp
      | some s => simp [m.session_id h, Bool.and_assoc]
  provider m id := bind_mapValues readProvider_providerRow m.providers id
  session m id := bind_mapValues readSession_sessionRow m.sessions id
  assign_provider m id a := by
    refine congrArg (Database.mk · _) (Map.mapValues_modify (fun p => ?_) m.providers id).symm
    rw [readProvider_providerRow]
    rfl
  assign_session m id a := by
    refine congrArg (Database.mk _ ·) (Map.mapValues_modify (fun s => ?_) m.sessions id).symm
    rw [readSession_sessionRow]
    rfl

end PeerCompute.PostgresStore
