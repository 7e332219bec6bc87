import PeerCompute.Store.PrefixLookup
import PeerCompute.Store.Statements

/-! A store that keeps a full copy of the last record that was put under each ID, and where the
database answers as it does. -/

namespace PeerCompute.PostgresStore

open PeerCompute.Data PeerCompute.Plugin

theorem orElse_self {α : Type} (x : Except StoreError α) : orElse x x = x := by
  cases x <;> rfl

/-- A copy of the record with the ID `p`, or of the only one whose ID begins with `p`. -/
def copyOf {V : Type} (order : Order String) (m : Map String V) (zero : V) (p : String) :
    Except StoreError V :=
  (memoryLookup order m p).map (fun id => (m.lookup id).getD zero)

def fullCopies (order : Nat → Order String) : Statements Tables where
  putProvider _ m ref := match ref with
    | .own r => .ok (.own r, m.insertProvider r)
    | .stored id => .ok (.stored id, m)
  getProvider _ m id := match m.providers.lookup id with
    | none => .error .notFound
    | some r => .ok (.own r)
  getProviderByPrefix t m p := (copyOf (order t) m.providers {} p).map .own
  findProvider t m p := (copyOf (order t) m.providers {} p).map .own
  likeProvider t m p := (copyOf (order t) m.providers {} p).map .own
  listProviders t m filter := .ok ((((order t).apply m.providers.keys).filterMap (fun id =>
    (m.providers.lookup id).filter filter.admits)).map .own)
  updateHeartbeat _ m id heartbeat :=
    if (m.providers.lookup id).isSome then
      .ok ((m.assignProvider id (.lastHeartbeat heartbeat)).assignProvider id (.status "online"))
    else .error .notFound
  putSession _ m ref := match ref with
    | .own r => .ok (.own r, m.insertSession r)
    | .stored id => .ok (.stored id, m)
  getSessionByPrefix t m p := (copyOf (order t) m.sessions {} p).map .own
  findSession t m p := (copyOf (order t) m.sessions {} p).map .own
  likeSession t m p := (copyOf (order t) m.sessions {} p).map .own
  listSessions t m filter := .ok ((((order t).apply m.sessions.keys).filterMap (fun id =>
    (m.sessions.lookup id).filter filter.admits)).map .own)
  getTerminatedSessionIDs _ m ids providerID := .ok (ids.filter (fun id =>
    (m.sessions.lookup id).any (fun s => s.providerID = providerID && s.status = "terminated")))
  shared := false
  provider m id := m.providers.lookup id
  session m id := m.sessions.lookup id
  assignProvider m id a := m.assignProvider id a
  assignSession m id a := m.assignSession id a
  lookup_provider _ _ _ := (orElse_self _).symm
  lookup_session _ _ _ := (orElse_self _).symm

/-- The same elements, whatever their order and however often they come. -/
def SameMembers {α : Type} (x y : Except StoreError (List α)) : Prop :=
  ∃ l l', x = .ok l ∧ y = .ok l' ∧ ∀ a, a ∈ l ↔ a ∈ l'

/-- No ID of the table begins with another one. -/
def PrefixFree {V : Type} (m : Map String V) : Prop :=
  ∀ id id', (m.lookup id).isSome = true → (m.lookup id').isSome = true → hasPrefix id id' = true →
    id' = id

/-- PostgreSQL while no statement fails and no connection is lost. -/
abbrev reliable (order : Nat → Order String) : Backend :=
  postgres order (fun _ _ => none) (fun _ => none)

section

variable {order : Nat → Order String} {t : Nat} {V : Type} {m : Map String V} {p : String}

theorem statement_reliable {α : Type} {i : Nat} {checks : List (Option String)}
    (h : ∀ c ∈ checks, c = none) (x : Except StoreError α) :
    (reliable order).statement t i checks x = x := by
  have hnone : ((reliable order).fault t i :: checks).findSome? id = none := by
    rw [List.findSome?_eq_none_iff]
    intro c hc
    obtain rfl | hc := List.mem_cons.mp hc
    · rfl
    · exact h c hc
  rw [Backend.statement, hnone]

theorem answers_reliable (hp : refuseText p = none) : (reliable order).Answers t p where
  fault _ := rfl
  lost := rfl
  text := hp

/-- An ID that is found is the answer of the whole lookup. -/
theorem copyOf_of_byID {x : V} (h : (reliable order).byID t m p = .ok x) (order' : Order String)
    (zero : V) : copyOf order' m zero p = .ok x := by
  have hx := Backend.byID_eq_ok h
  simp [copyOf, memoryLookup, hx, Except.map]

/-- A stored ID is the only one that begins with itself, so the pattern finds it as well. -/
theorem memoryLookup_eq_onlyMatch (hfree : PrefixFree m) (order : Order String) (p : String) :
    memoryLookup order m p = onlyMatch ((order.apply m.keys).filter (hasPrefix p)) := by
  unfold memoryLookup
  split
  next hp =>
    have hkeys : ∀ id, id ∈ (order.apply m.keys).filter (hasPrefix p) ↔ id = p := by
      intro id
      rw [List.mem_filter, (order.perm _).mem_iff, Map.mem_keys_iff, ← Option.isSome_iff_exists]
      constructor
      · rintro ⟨hid, hprefix⟩
        exact hfree p id hp hid hprefix
      · rintro rfl
        exact ⟨hp, by simp [hasPrefix]⟩
    have hnodup : ((order.apply m.keys).filter (hasPrefix p)).Nodup :=
      ((order.perm _).nodup_iff.mpr m.keys_nodup).filter _
    have hsingle : ((order.apply m.keys).filter (hasPrefix p)).Perm [p] := by
      rw [List.perm_ext_iff_of_nodup hnodup (List.nodup_singleton p)]
      intro id
      rw [hkeys, List.mem_singleton]
    rw [List.perm_singleton.mp hsingle]
    rfl
  next => rfl

/-- Among IDs none of which begins with another one, the second statement of a lookup finds what
the whole lookup would find at that moment. -/
theorem likeRow_reliable (hfree : PrefixFree m) (hplain : Plain p) (hp : refuseText p = none)
    (order' : Order String) (zero : V) :
    (reliable order).likeRow t m p = copyOf order' m zero p := by
  have hlike : (fun id : String => like (p.toList ++ ['%']) id.toList) = hasPrefix p := by
    funext id
    exact like_append_percent hplain id.toList
  have hperm := ((((reliable order).order t).perm m.keys).trans (order'.perm m.keys).symm).filter
    (hasPrefix p)
  unfold Backend.likeRow copyOf
  rw [(answers_reliable hp).byPrefix m, hlike, onlyMatch_perm hperm,
    ← memoryLookup_eq_onlyMatch hfree order' p]
  cases hid : memoryLookup order' m p with
  | error e => rfl
  | ok id =>
    obtain ⟨x, hx⟩ := memoryLookup_eq_ok hid
    simp [hx, Except.map]

theorem sameMembers_listed {R : Type} (order order' : Order String) (p : V → Bool) (f : V → R) :
    SameMembers (.ok (((order.apply m.keys).filterMap (fun id => (m.lookup id).filter p)).map f))
      (.ok (((order'.apply m.keys).filterMap (fun id => (m.lookup id).filter p)).map f)) := by
  have hperm := ((order.perm m.keys).trans (order'.perm m.keys).symm)
  exact ⟨_, _, rfl, rfl, fun a => ((hperm.filterMap _).map f).mem_iff⟩

end

section

variable {order order' : Nat → Order String} {t : Nat} {m : Tables}

theorem putProvider_reliable {r : ProviderRecord} (hr : refuseProvider r = none)
    (hold : ∀ old, m.providers.lookup r.id = some old → r.registeredAt = old.registeredAt) :
    (tableStatements (reliable order)).putProvider t m (.own r) =
      (fullCopies order').putProvider t m (.own r) := by
  have hupsert : upsertProvider m r = m.insertProvider r := by
    unfold upsertProvider
    split
    next => rfl
    next old h => rw [← hold old h]
  refine (statement_reliable (fun c hc => ?_) _).trans ?_
  · exact (List.mem_singleton.mp hc).trans hr
  · exact congrArg (fun m => Except.ok (Ref.own r, m)) hupsert

theorem putSession_reliable {r : SessionRecord} (hr : refuseSessionIf false r = none)
    (hold : ∀ old, m.sessions.lookup r.id = some old → r.origin = old.origin)
    (hnew : m.sessions.lookup r.id = none → (m.providers.lookup r.providerID).isSome = true) :
    (tableStatements (reliable order)).putSession t m (.own r) =
      (fullCopies order').putSession t m (.own r) := by
  have hupsert : upsertSession m r = m.insertSession r := by
    unfold upsertSession
    split
    next => rfl
    next old h => rw [SessionRecord.overwrite_of_origin (hold old h)]
  have href : ((m.sessions.lookup r.id).isSome || (m.providers.lookup r.providerID).isSome) = true := by
    cases h : m.sessions.lookup r.id with
    | none => simpa using hnew h
    | some old => rfl
  refine (statement_reliable (fun c hc => ?_) _).trans ?_
  · rw [List.mem_singleton.mp hc]
    simpa [postgres, refuseSession, href] using hr
  · exact congrArg (fun m => Except.ok (Ref.own r, m)) hupsert

theorem updateHeartbeat_reliable {id : String} (hid : refuseText id = none)
    (hstored : (m.providers.lookup id).isSome = true) (heartbeat : Int) :
    (tableStatements (reliable order)).updateHeartbeat t m id heartbeat =
      (fullCopies order').updateHeartbeat t m id heartbeat := by
  refine (statement_reliable (fun c hc => ?_) _).trans (if_pos hstored).symm
  exact (List.mem_singleton.mp hc).trans hid

theorem getProvider_reliable {id : String} (hid : refuseText id = none) :
    (tableStatements (reliable order)).getProvider t m id =
      (fullCopies order').getProvider t m id := by
  simp only [tableStatements, tableStore, fullCopies]
  rw [(answers_reliable hid).byID m.providers]
  cases m.providers.lookup id <;> rfl

theorem getProviderByPrefix_reliable {p : String} (hplain : Plain p) (hp : refuseText p = none) :
    (tableStatements (reliable order)).getProviderByPrefix t m p =
      (fullCopies order').getProviderByPrefix t m p :=
  congrArg (Except.map Ref.own)
    ((answers_reliable hp).lookup_of_plain hplain (order' t) m.providers {})

theorem getSessionByPrefix_reliable {p : String} (hplain : Plain p) (hp : refuseText p = none) :
    (tableStatements (reliable order)).getSessionByPrefix t m p =
      (fullCopies order').getSessionByPrefix t m p :=
  congrArg (Except.map Ref.own)
    ((answers_reliable hp).lookup_of_plain hplain (order' t) m.sessions {})

theorem listProviders_reliable {filter : ProviderFilter} (hstatus : refuseText filter.status = none) :
    SameMembers ((tableStatements (reliable order)).listProviders t m filter)
      ((fullCopies order').listProviders t m filter) := by
  have hrows : (tableStatements (reliable order)).listProviders t m filter = .ok
      ((((order t).apply m.providers.keys).filterMap (fun id =>
        (m.providers.lookup id).filter filter.admits)).map .own) := by
    refine statement_reliable (fun c hc => ?_) _
    exact (List.mem_singleton.mp hc).trans hstatus
  rw [hrows]
  exact sameMembers_listed _ _ _ _

theorem listSessions_reliable {filter : SessionFilter} (hprovider : refuseText filter.providerID = none)
    (hrenter : refuseText filter.renterID = none) (hstatus : refuseText filter.status = none) :
    SameMembers ((tableStatements (reliable order)).listSessions t m filter)
      ((fullCopies order').listSessions t m filter) := by
  have hrows : (tableStatements (reliable order)).listSessions t m filter = .ok
      ((((order t).apply m.sessions.keys).filterMap (fun id =>
        (m.sessions.lookup id).filter filter.admits)).map .own) := by
    refine statement_reliable (fun c hc => ?_) _
    simp only [List.mem_cons, List.not_mem_nil, or_false] at hc
    obtain rfl | rfl | rfl := hc
    · exact hprovider
    · exact hrenter
    · exact hstatus
  rw [hrows]
  exact sameMembers_listed _ _ _ _

theorem terminated_reliable {ids : List String} {providerID : String}
    (hprovider : refuseText providerID = none) (hids : ∀ id ∈ ids, refuseText id = none) :
    SameMembers ((tableStatements (reliable order)).getTerminatedSessionIDs t m ids providerID)
      ((fullCopies order').getTerminatedSessionIDs t m ids providerID) := by
  by_cases hnil : ids = []
  · subst hnil
    exact ⟨[], [], rfl, rfl, fun _ => Iff.rfl⟩
  have hrows : (tableStatements (reliable order)).getTerminatedSessionIDs t m ids providerID = .ok
      (((order t).apply m.sessions.keys).filter (fun id => decide (id ∈ ids) &&
        (m.sessions.lookup id).any (fun s =>
          decide (s.providerID = providerID) && decide (s.status = "terminated")))) := by
    refine (if_neg hnil).trans (statement_reliable (fun c hc => ?_) _)
    obtain rfl | hc := List.mem_cons.mp hc
    · exact hprovider
    · obtain ⟨id, hid, rfl⟩ := List.mem_map.mp hc
      exact hids id hid
  refine ⟨_, _, hrows, rfl, fun id => ?_⟩
  simp only [List.mem_filter, ((order t).perm _).mem_iff, Map.mem_keys_iff, Bool.and_eq_true,
    decide_eq_true_eq]
  constructor
  · rintro ⟨-, hid, hany⟩
    exact ⟨hid, hany⟩
  · rintro ⟨hid, hany⟩
    refine ⟨?_, hid, hany⟩
    cases hs : m.sessions.lookup id with
    | none =>
      rw [hs] at hany
      cases hany
    | some s => exact ⟨s, rfl⟩

end

end PeerCompute.PostgresStore
