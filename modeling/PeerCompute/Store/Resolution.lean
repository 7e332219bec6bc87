import PeerCompute.Store.PrefixLookup

/-! The record that an ID or a prefix of one stands for. -/

namespace PeerCompute.PostgresStore

open PeerCompute.Data PeerCompute.Plugin

section

variable {V : Type}

/-- `p` names the records of `m` with an ID that begins with it; one whose ID it is comes
first. -/
inductive Resolves (m : Map String V) (p : String) : Except StoreError V → Prop
  | whole {x : V} (hp : m.lookup p = some x) : Resolves m p (.ok x)
  | only {id : String} {x : V} (hp : m.lookup p = none) (hid : m.lookup id = some x)
      (hstarts : p.toList <+: id.toList)
      (honly : ∀ id' x', m.lookup id' = some x' → p.toList <+: id'.toList → id' = id) :
      Resolves m p (.ok x)
  | ambiguous {id id' : String} {x x' : V} (hp : m.lookup p = none) (hne : id ≠ id')
      (hid : m.lookup id = some x) (hid' : m.lookup id' = some x')
      (hstarts : p.toList <+: id.toList) (hstarts' : p.toList <+: id'.toList) :
      Resolves m p (.error .ambiguousPrefix)
  | notFound (hp : m.lookup p = none)
      (hnone : ∀ id x, m.lookup id = some x → ¬p.toList <+: id.toList) :
      Resolves m p (.error .notFound)

theorem Resolves.unique {m : Map String V} {p : String} {res res' : Except StoreError V}
    (h : Resolves m p res) (h' : Resolves m p res') : res = res' := by
  cases h with
  | whole hp =>
    cases h' with
    | whole hp' =>
      rw [hp] at hp'
      cases hp'
      rfl
    | only hp' => simp [hp] at hp'
    | ambiguous hp' => simp [hp] at hp'
    | notFound hp' => simp [hp] at hp'
  | only hp hid hstarts honly =>
    cases h' with
    | whole hp' => simp [hp] at hp'
    | only _ hid' hstarts' _ =>
      obtain rfl := honly _ _ hid' hstarts'
      rw [hid] at hid'
      cases hid'
      rfl
    | ambiguous _ hne hid₁ hid₂ hstarts₁ hstarts₂ =>
      exact absurd ((honly _ _ hid₁ hstarts₁).trans (honly _ _ hid₂ hstarts₂).symm) hne
    | notFound _ hnone => exact absurd hstarts (hnone _ _ hid)
  | ambiguous hp hne hid hid' hstarts hstarts' =>
    cases h' with
    | whole hp' => simp [hp] at hp'
    | only _ _ _ honly =>
      exact absurd ((honly _ _ hid hstarts).trans (honly _ _ hid' hstarts').symm) hne
    | ambiguous => rfl
    | notFound _ hnone => exact absurd hstarts (hnone _ _ hid)
  | notFound hp hnone =>
    cases h' with
    | whole hp' => simp [hp] at hp'
    | only _ hid hstarts => exact absurd hstarts (hnone _ _ hid)
    | ambiguous _ _ hid _ hstarts => exact absurd hstarts (hnone _ _ hid)
    | notFound => rfl

/-- The rows a loop over all IDs stops at. -/
def rows (order : Order String) (m : Map String V) (p : String) : List String :=
  (order.apply m.keys).filter (hasPrefix p)

variable {order : Order String} {m : Map String V} {p : String}

theorem mem_rows_iff {id : String} :
    id ∈ rows order m p ↔ (∃ x, m.lookup id = some x) ∧ p.toList <+: id.toList := by
  rw [rows, List.mem_filter, (order.perm _).mem_iff, Map.mem_keys_iff, hasPrefix,
    List.isPrefixOf_iff_prefix]

/-- A single row is what the prefix stands for, also if the lookup by ID has failed. -/
theorem resolves_of_rows_eq {id : String} {x : V} (h : rows order m p = [id])
    (hx : m.lookup id = some x) : Resolves m p (.ok x) := by
  have hmem {id' : String} : id' ∈ rows order m p ↔ id' = id := by rw [h, List.mem_singleton]
  cases hp : m.lookup p with
  | some y =>
    have hpid : p = id := hmem.mp (mem_rows_iff.mpr ⟨⟨y, hp⟩, List.prefix_rfl⟩)
    rw [← hpid, hp] at hx
    cases hx
    exact .whole hp
  | none =>
    refine .only hp hx (mem_rows_iff.mp (hmem.mpr rfl)).2 ?_
    intro id' x' hid' hstarts'
    exact hmem.mp (mem_rows_iff.mpr ⟨⟨x', hid'⟩, hstarts'⟩)

theorem resolves_of_rows_cons_cons {id id' : String} {ids : List String}
    (hp : m.lookup p = none) (h : rows order m p = id :: id' :: ids) :
    Resolves m p (.error .ambiguousPrefix) := by
  have hnodup : (rows order m p).Nodup := ((order.perm _).nodup_iff.mpr m.keys_nodup).filter _
  have hmem : id ∈ rows order m p := h ▸ .head _
  have hmem' : id' ∈ rows order m p := h ▸ .tail _ (.head _)
  obtain ⟨⟨x, hx⟩, hstarts⟩ := mem_rows_iff.mp hmem
  obtain ⟨⟨x', hx'⟩, hstarts'⟩ := mem_rows_iff.mp hmem'
  refine .ambiguous hp ?_ hx hx' hstarts hstarts'
  rintro rfl
  rw [h] at hnodup
  exact (List.nodup_cons.mp hnodup).1 (.head _)

theorem lookup_eq_getD {id : String} {x default : V} (h : m.lookup id = some x) :
    m.lookup id = some ((m.lookup id).getD default) := by
  rw [h, Option.getD_some]

/-- The loop of `MemoryStore` is independent of the order. -/
theorem resolves_memoryLookup (order : Order String) (m : Map String V) (p : String)
    (default : V) :
    Resolves m p ((memoryLookup order m p).map (fun id => (m.lookup id).getD default)) := by
  cases hp : m.lookup p with
  | some x =>
    have hfound : memoryLookup order m p = .ok p := if_pos (by rw [hp]; rfl)
    rw [hfound]
    exact .whole (lookup_eq_getD hp)
  | none =>
    have hloop : memoryLookup order m p = onlyMatch (rows order m p) := if_neg (by simp [hp])
    rw [hloop]
    match hrows : rows order m p with
    | [] =>
      refine .notFound hp (fun id x hid hstarts => ?_)
      have hmem : id ∈ rows order m p := mem_rows_iff.mpr ⟨⟨x, hid⟩, hstarts⟩
      rw [hrows] at hmem
      cases hmem
    | [id] =>
      have hmem : id ∈ rows order m p := hrows ▸ List.mem_singleton_self id
      obtain ⟨⟨x, hx⟩, -⟩ := mem_rows_iff.mp hmem
      exact resolves_of_rows_eq hrows (lookup_eq_getD hx)
    | id :: id' :: ids => exact resolves_of_rows_cons_cons hp hrows

end

/-- A lookup of `MemoryStore` gives the record that the prefix stands for, or says why there is
none, in whatever order the map is ranged over. -/
theorem memoryStore_resolves (order : Nat → Order String) (t : Nat) (m : Tables) (p : String) :
    Resolves m.sessions p (foundSession (memoryStore order) t m p) ∧
      Resolves m.providers p (foundProvider (memoryStore order) t m p) := by
  rw [foundSession_memoryStore, foundProvider_memoryStore]
  exact ⟨resolves_memoryLookup (order t) m.sessions p {},
    resolves_memoryLookup (order t) m.providers p {}⟩

/-! ## A database that may fail -/

section

variable {B : Backend} {t : Nat} {p : String} {V : Type} {m : Map String V}

theorem byPrefix_of_plain (hp : Plain p) : B.byPrefix t m p =
    B.statement t 1 [B.refuseText p] (onlyMatch (B.arrived t ((rows (B.order t) m p).take 2))) := by
  have hlike : (fun id : String => like (p.toList ++ ['%']) id.toList) = hasPrefix p := by
    funext id
    exact like_append_percent hp id.toList
  rw [Backend.byPrefix, hlike, rows]

/-- Unless the connection is lost right after the first row, a single row is the only one. -/
theorem rows_eq_of_arrived {ids : List String} {id : String} (hlost : B.lost t ≠ some 1)
    (h : onlyMatch (B.arrived t (ids.take 2)) = .ok id) : ids = [id] := by
  unfold Backend.arrived at h
  match ids, hl : B.lost t with
  | [], none => simp [hl, onlyMatch] at h
  | [], some n => simp [hl, onlyMatch] at h
  | [id'], none =>
    obtain rfl : id' = id := by simpa [hl, onlyMatch] using h
    rfl
  | [id'], some 0 => simp [hl, onlyMatch] at h
  | [id'], some (n + 1) =>
    obtain rfl : id' = id := by simpa [hl, onlyMatch] using h
    rfl
  | id' :: id'' :: ids, none => simp [hl, onlyMatch] at h
  | id' :: id'' :: ids, some 0 => simp [hl, onlyMatch] at h
  | id' :: id'' :: ids, some 1 => exact absurd hl hlost
  | id' :: id'' :: ids, some (n + 2) => simp [hl, onlyMatch] at h

/-- The connection is lost after the first row of the query by prefix. -/
def CutShort (B : Backend) (t : Nat) (p : String) : Prop :=
  B.lost t = some 1 ∧ B.fault t 1 = none ∧ B.refuseText p = none

theorem resolves_lookup (hp : Plain p) (hcut : ¬CutShort B t p) {x : V}
    (h : B.lookup t m p = .ok x) : Resolves m p (.ok x) := by
  unfold Backend.lookup at h
  split at h
  next y hy =>
    cases h
    exact .whole (Backend.byID_eq_ok hy)
  next =>
    split at h
    next => cases h
    next id hid =>
      rw [byPrefix_of_plain hp] at hid
      have hchecks := Backend.checks_of_statement hid
      have hlost : B.lost t ≠ some 1 := fun hlost =>
        hcut ⟨hlost, hchecks _ (.head _), hchecks _ (.tail _ (.head _))⟩
      have hrows := rows_eq_of_arrived hlost (Backend.statement_eq_ok hid)
      split at h
      next => cases h
      next z hz =>
        cases h
        exact resolves_of_rows_eq hrows hz

/-- When it is lost there, the first of two rows is taken for the only one. -/
theorem lookup_of_cutShort (hp : Plain p) (hcut : CutShort B t p) (hnone : m.lookup p = none)
    {id id' : String} {ids : List String} (hrows : rows (B.order t) m p = id :: id' :: ids) :
    ∃ x, B.lookup t m p = .ok x := by
  obtain ⟨hlost, hfault, htext⟩ := hcut
  obtain ⟨e, hbyID⟩ : ∃ e, B.byID t m p = .error e := by
    rw [Backend.byID, hnone, Backend.statement]
    split
    next message _ => exact ⟨_, rfl⟩
    next => exact ⟨_, rfl⟩
  have hbyPrefix : B.byPrefix t m p = .ok id := by
    rw [byPrefix_of_plain hp, hrows]
    simp [Backend.statement, Backend.arrived, hfault, htext, hlost, onlyMatch]
  obtain ⟨⟨x, hx⟩, -⟩ := mem_rows_iff.mp (hrows ▸ List.mem_cons_self)
  refine ⟨x, ?_⟩
  simp only [Backend.lookup, hbyID, hbyPrefix, hx]

/-- Two records whose IDs go on from the prefix. -/
theorem unsound_of_cutShort (hp : Plain p) (hcut : CutShort B t p)
    (hkeys : m.keys = [p ++ "b", p ++ "a"]) :
    ∃ x, B.lookup t m p = .ok x ∧ ¬Resolves m p (.ok x) := by
  have hnone : m.lookup p = none := by
    rw [← Option.not_isSome_iff_eq_none, AList.lookup_isSome, AList.mem_keys, hkeys]
    simp [← String.toList_inj]
  have hall : ∀ id ∈ m.keys, hasPrefix p id = true := by
    simp [hkeys, hasPrefix, String.toList_append]
  have hrows : (rows (B.order t) m p).length = 2 := by
    have hperm : (rows (B.order t) m p).Perm (m.keys.filter (hasPrefix p)) :=
      ((B.order t).perm _).filter _
    rw [hperm.length_eq, List.filter_eq_self.mpr hall, hkeys]
    rfl
  obtain ⟨id, id', hrows⟩ := List.length_eq_two.mp hrows
  obtain ⟨x, hx⟩ := lookup_of_cutShort hp hcut hnone hrows
  exact ⟨x, hx, fun h => by cases h.unique (resolves_of_rows_cons_cons hnone hrows)⟩

end

/-- What a lookup returns can be relied on exactly if the connection is not lost between the first
row and the second, whatever else fails. -/
theorem lookup_sound_iff {B : Backend} {t : Nat} {p : String} (hp : Plain p) :
    ((∀ m r, foundSession (tableStore B) t m p = .ok r → Resolves m.sessions p (.ok r)) ↔
      ¬CutShort B t p) ∧
    ((∀ m r, foundProvider (tableStore B) t m p = .ok r → Resolves m.providers p (.ok r)) ↔
      ¬CutShort B t p) := by
  have hne : p ++ "a" ≠ p ++ "b" := by simp [← String.toList_inj]
  have hkeys {V : Type} (x y : V) :
      (AList.insert (p ++ "b") y (AList.insert (p ++ "a") x ∅) : Map String V).keys =
        [p ++ "b", p ++ "a"] := by
    rw [AList.keys_insert, AList.keys_insert]
    simp [hne]
  simp only [foundSession_tableStore, foundProvider_tableStore]
  refine ⟨⟨fun hsound hcut => ?_, fun hcut m r h => resolves_lookup hp hcut h⟩,
    ⟨fun hsound hcut => ?_, fun hcut m r h => resolves_lookup hp hcut h⟩⟩
  · let m := (Tables.empty.insertSession { id := p ++ "a" }).insertSession { id := p ++ "b" }
    have hm : m.sessions.keys = [p ++ "b", p ++ "a"] := hkeys _ _
    obtain ⟨r, hr, hnot⟩ := unsound_of_cutShort hp hcut hm
    exact hnot (hsound m r hr)
  · let m := (Tables.empty.insertProvider { id := p ++ "a" }).insertProvider { id := p ++ "b" }
    have hm : m.providers.keys = [p ++ "b", p ++ "a"] := hkeys _ _
    obtain ⟨r, hr, hnot⟩ := unsound_of_cutShort hp hcut hm
    exact hnot (hsound m r hr)

/-- The second query fails, the first one has found the session. -/
theorem lookup_sound_faulty :
    let B := postgres (fun _ => Order.id) (fun _ i => if i = 1 then some "driver: bad connection" else none)
      (fun _ => some 1)
    ∀ m r, foundSession (tableStore B) 0 m "session-4" = .ok r →
      Resolves m.sessions "session-4" (.ok r) :=
  (lookup_sound_iff (by decide)).1.mpr (fun h => by cases h.2.1)

/-- Of two sessions that the prefix fits, the connection delivers one before it is lost: the lookup
returns it, as if it were the only one. -/
theorem lost_row_hides_ambiguity :
    let B := postgres (fun _ => Order.id) (fun _ _ => none) (fun _ => some 1)
    let m := (Tables.empty.insertSession { id := "session-41" }).insertSession { id := "session-42" }
    foundSession (tableStore B) 0 m "session-4" = .ok { id := "session-42" } ∧
      ¬Resolves m.sessions "session-4" (.ok { id := "session-42" }) := by
  intro B m
  refine ⟨by decide +kernel, fun h => ?_⟩
  have hne : "session-41" ≠ "session-42" := by decide
  have hambiguous : Resolves m.sessions "session-4" (.error .ambiguousPrefix) :=
    .ambiguous rfl hne rfl rfl (by decide) (by decide)
  cases h.unique hambiguous

end PeerCompute.PostgresStore
