import Mathlib.Data.List.Infix
import PeerCompute.Plugin.MemoryStore
import PeerCompute.Store.Postgres

namespace PeerCompute.PostgresStore

open PeerCompute.Data PeerCompute.Plugin

/-! ## Patterns made of a prefix and a percent sign -/

/-- A character that stands for itself in a pattern. -/
def PlainChar (c : Char) : Prop := c ≠ '%' ∧ c ≠ '_' ∧ c ≠ '\\'

instance decidablePlainChar (c : Char) : Decidable (PlainChar c) :=
  inferInstanceAs (Decidable (_ ∧ _))

def Plain (p : String) : Prop := ∀ c ∈ p.toList, PlainChar c

instance decidablePlain (p : String) : Decidable (Plain p) :=
  List.decidableBAll PlainChar p.toList

theorem like_percent (s : List Char) : like ['%'] s = true := by
  simp [like, List.any_eq_true]

theorem like_cons_of_plainChar {c : Char} (hc : PlainChar c) (p s : List Char) :
    like (c :: p) s = match s with
      | [] => false
      | d :: s => decide (c = d) && like p s := by
  obtain ⟨h1, h2, h3⟩ := hc
  rw [like.eq_def]
  split
  next h => cases h
  next h =>
    cases h
    exact absurd rfl h1
  next h =>
    cases h
    exact absurd rfl h2
  next h =>
    cases h
    exact absurd rfl h3
  next h =>
    cases h
    exact absurd rfl h3
  next h =>
    cases h
    rfl

/-- A plain prefix matches the strings it is a prefix of. -/
theorem like_append_percent {p : List Char} (h : ∀ c ∈ p, PlainChar c) (s : List Char) :
    like (p ++ ['%']) s = p.isPrefixOf s := by
  induction p generalizing s with
  | nil =>
    rw [List.nil_append, like_percent]
    rfl
  | cons c p ih =>
    rw [List.cons_append, like_cons_of_plainChar (h c (.head _))]
    cases s with
    | nil => rfl
    | cons d s =>
      simp only [ih (fun c hc => h c (.tail _ hc))]
      rfl

/-- A short string that the pattern `p%` matches. -/
def shortest : List Char → List Char
  | [] => []
  | '%' :: p => shortest p
  | '_' :: p => 'a' :: shortest p
  | ['\\'] => ['%']
  | '\\' :: c :: p => c :: shortest p
  | c :: p => c :: shortest p

theorem plainChar_of_cases {c : Char} {p : List Char} (h1 : c = '%' → False)
    (h2 : c = '_' → False) (h3 : c = '\\' → p = [] → False)
    (h4 : ∀ d q, c = '\\' → p = d :: q → False) : PlainChar c := by
  refine ⟨h1, h2, fun h => ?_⟩
  cases p with
  | nil => exact h3 h rfl
  | cons d q => exact h4 d q h rfl

theorem like_shortest (p : List Char) : like (p ++ ['%']) (shortest p) = true := by
  fun_induction shortest p with
  | case1 => exact like_percent []
  | case2 p ih =>
    rw [List.cons_append, like]
    exact List.any_eq_true.mpr ⟨shortest p, by simp, ih⟩
  | case3 p ih => simpa [like] using ih
  | case4 => decide
  | case5 c p ih => simpa [like] using ih
  | case6 c p h1 h2 h3 h4 ih =>
    rw [List.cons_append, like_cons_of_plainChar (plainChar_of_cases h1 h2 h3 h4)]
    simpa using ih

theorem length_shortest_le (p : List Char) : (shortest p).length ≤ p.length := by
  fun_induction shortest p with
  | case1 => exact le_refl _
  | case2 p ih => exact le_trans ih (Nat.le_succ _)
  | case3 p ih => exact Nat.succ_le_succ ih
  | case4 => exact le_refl _
  | case5 c p ih => exact le_trans (Nat.succ_le_succ ih) (Nat.le_succ _)
  | case6 c p h1 h2 h3 h4 ih => exact Nat.succ_le_succ ih

/-- Only a plain prefix is its own shortest match. -/
theorem plain_of_shortest_eq {p : List Char} (h : shortest p = p) : ∀ c ∈ p, PlainChar c := by
  fun_induction shortest p with
  | case1 =>
    intro c hc
    cases hc
  | case2 p ih =>
    have hlen := length_shortest_le p
    rw [h, List.length_cons] at hlen
    exact absurd hlen (Nat.not_succ_le_self _)
  | case3 p ih => exact absurd (List.cons.inj h).1 (by decide)
  | case4 => exact absurd h (by decide)
  | case5 c p ih =>
    have hlen := length_shortest_le p
    rw [(List.cons.inj h).2, List.length_cons] at hlen
    exact absurd hlen (Nat.not_succ_le_self _)
  | case6 c p h1 h2 h3 h4 ih =>
    intro d hd
    obtain rfl | hd := List.mem_cons.mp hd
    · exact plainChar_of_cases h1 h2 h3 h4
    · exact ih (List.cons.inj h).2 d hd

/-! ## Lookups -/

/-- The loop sees at most the first two rows. -/
theorem onlyMatch_take (ids : List String) : onlyMatch (ids.take 2) = onlyMatch ids := by
  match ids with
  | [] => rfl
  | [_] => rfl
  | _ :: _ :: _ => rfl

/-- The database answers the queries of a lookup of `p` completely. -/
structure Backend.Answers (B : Backend) (t : Nat) (p : String) : Prop where
  fault : ∀ i, B.fault t i = none
  lost : B.lost t = none
  text : B.refuseText p = none

section

variable {B : Backend} {t : Nat} {p : String} {V : Type}

theorem Backend.Answers.byID (h : B.Answers t p) (m : Map String V) :
    B.byID t m p = match m.lookup p with
      | none => .error .notFound
      | some x => .ok x := by
  simp only [Backend.byID, Backend.statement, h.fault, h.text]
  rfl

theorem Backend.Answers.byPrefix (h : B.Answers t p) (m : Map String V) :
    B.byPrefix t m p =
      onlyMatch (((B.order t).apply m.keys).filter (fun id => like (p.toList ++ ['%']) id.toList)) := by
  simp [Backend.byPrefix, Backend.statement, Backend.arrived, h.fault, h.lost, h.text, onlyMatch_take]

theorem Backend.refuseText_of_lookup {m : Map String V} {x : V} (h : B.lookup t m p = .ok x) :
    B.refuseText p = none := by
  unfold Backend.lookup at h
  split at h
  next y hy => exact Backend.checks_of_statement hy _ (.tail _ (.head _))
  next =>
    split at h
    next => cases h
    next id hid => exact Backend.checks_of_statement hid _ (.tail _ (.head _))

/-- A lookup goes by the ID, and then by the pattern. -/
theorem Backend.Answers.lookup_eq (h : B.Answers t p) (m : Map String V) (default : V) :
    B.lookup t m p =
      (matchLookup (fun id => like (p.toList ++ ['%']) id.toList) (B.order t) m p).map
        (fun id => (m.lookup id).getD default) := by
  unfold Backend.lookup matchLookup
  rw [h.byID, h.byPrefix]
  cases hm : m.lookup p with
  | some x =>
    have hx : (m.lookup p).getD default = x := by rw [hm, Option.getD_some]
    exact congrArg Except.ok hx.symm
  | none =>
    simp only [Option.isSome_none, Bool.false_eq_true, if_false]
    cases honly : onlyMatch (((B.order t).apply m.keys).filter
        (fun id => like (p.toList ++ ['%']) id.toList)) with
    | error e => rfl
    | ok id =>
      have hmem := (List.mem_filter.mp (mem_of_onlyMatch honly)).1
      obtain ⟨x, hx⟩ := Map.mem_keys_iff.mp (((B.order t).perm _).mem_iff.mp hmem)
      have hx' : (m.lookup id).getD default = x := by rw [hx, Option.getD_some]
      simp only [hx]
      exact congrArg Except.ok hx'.symm

/-- On a plain prefix the database finds what the loop over the map finds. -/
theorem Backend.Answers.lookup_of_plain (h : B.Answers t p) (hp : Plain p) (order : Order String)
    (m : Map String V) (default : V) :
    B.lookup t m p = (memoryLookup order m p).map (fun id => (m.lookup id).getD default) := by
  have hlike : (fun id : String => like (p.toList ++ ['%']) id.toList) = hasPrefix p := by
    funext id
    exact like_append_percent hp id.toList
  rw [h.lookup_eq m default, hlike, matchLookup_sameKeys (fun _ => rfl) (B.order t) order]
  rfl

/-- On any other prefix it finds a record that the loop does not find, if that is the only one. -/
theorem Backend.Answers.lookup_of_not_plain (h : B.Answers t p) (hp : ¬Plain p)
    (order : Order String) {m : Map String V} {x : V}
    (hkeys : m.keys = [String.ofList (shortest p.toList)])
    (hx : m.lookup (String.ofList (shortest p.toList)) = some x) :
    B.lookup t m p = .ok x ∧ memoryLookup order m p = .error .notFound := by
  have hne : shortest p.toList ≠ p.toList := fun he => hp (plain_of_shortest_eq he)
  have hstarts : hasPrefix p (String.ofList (shortest p.toList)) = false := by
    rw [hasPrefix, String.toList_ofList, ← Bool.not_eq_true, List.isPrefixOf_iff_prefix]
    intro hpre
    exact hne (hpre.eq_of_length_le (length_shortest_le _)).symm
  have hnone : m.lookup p = none := by
    rw [← Option.not_isSome_iff_eq_none, AList.lookup_isSome, AList.mem_keys, hkeys,
      List.mem_singleton]
    intro he
    exact hne (by rw [← String.toList_ofList (l := shortest p.toList), ← he])
  have happly : ∀ order : Order String, order.apply m.keys = [String.ofList (shortest p.toList)] := by
    intro order
    rw [hkeys]
    exact List.perm_singleton.mp (order.perm _)
  constructor
  · unfold Backend.lookup
    rw [h.byID, hnone, h.byPrefix, happly]
    simp [String.toList_ofList, like_shortest, onlyMatch, hx]
  · unfold memoryLookup
    rw [hnone, happly]
    simp [hstarts, onlyMatch]

end

/-- The outcome of a lookup of a session by ID or prefix, with the record it leads to. -/
def foundSession {σ : Type} (S : Store σ) (t : Nat) (s : σ) (p : String) :
    Except StoreError SessionRecord :=
  (S.getSessionByPrefix t s p).map (S.loadSession s)

def foundProvider {σ : Type} (S : Store σ) (t : Nat) (s : σ) (p : String) :
    Except StoreError ProviderRecord :=
  (S.getProviderByPrefix t s p).map (S.loadProvider s)

theorem foundProvider_tableStore (B : Backend) (t : Nat) (m : Tables) (p : String) :
    foundProvider (tableStore B) t m p = B.lookup t m.providers p := by
  simp only [foundProvider, tableStore]
  cases B.lookup t m.providers p <;> rfl

theorem foundSession_tableStore (B : Backend) (t : Nat) (m : Tables) (p : String) :
    foundSession (tableStore B) t m p = B.lookup t m.sessions p := by
  simp only [foundSession, tableStore]
  cases B.lookup t m.sessions p <;> rfl

theorem foundProvider_memoryStore (order : Nat → Order String) (t : Nat) (m : Tables) (p : String) :
    foundProvider (memoryStore order) t m p =
      (memoryLookup (order t) m.providers p).map (fun id => (m.providers.lookup id).getD {}) := by
  simp only [foundProvider, memoryStore]
  cases memoryLookup (order t) m.providers p <;> rfl

theorem foundSession_memoryStore (order : Nat → Order String) (t : Nat) (m : Tables) (p : String) :
    foundSession (memoryStore order) t m p =
      (memoryLookup (order t) m.sessions p).map (fun id => (m.sessions.lookup id).getD {}) := by
  simp only [foundSession, memoryStore]
  cases memoryLookup (order t) m.sessions p <;> rfl

/-- When the database answers, the two stores agree on every table about a prefix exactly when it
contains none of the characters that are special in a pattern. -/
theorem prefix_lookups_agree_iff {B : Backend} {t : Nat} {p : String} (h : B.Answers t p)
    (order : Nat → Order String) :
    ((∀ m, foundProvider (tableStore B) t m p = foundProvider (memoryStore order) t m p) ↔
      Plain p) ∧
    ((∀ m, foundSession (tableStore B) t m p = foundSession (memoryStore order) t m p) ↔
      Plain p) := by
  simp only [foundProvider_tableStore, foundSession_tableStore, foundProvider_memoryStore,
    foundSession_memoryStore]
  refine ⟨⟨fun hagree => ?_, fun hp m => h.lookup_of_plain hp _ _ _⟩,
    ⟨fun hagree => ?_, fun hp m => h.lookup_of_plain hp _ _ _⟩⟩
  · by_contra hp
    let r : ProviderRecord := { id := String.ofList (shortest p.toList) }
    obtain ⟨hfound, hnone⟩ := h.lookup_of_not_plain hp (order t)
      (m := (Tables.empty.insertProvider r).providers) (x := r) rfl (AList.lookup_insert _)
    have heq := hagree (Tables.empty.insertProvider r)
    rw [hfound, hnone] at heq
    cases heq
  · by_contra hp
    let r : SessionRecord := { id := String.ofList (shortest p.toList) }
    obtain ⟨hfound, hnone⟩ := h.lookup_of_not_plain hp (order t)
      (m := (Tables.empty.insertSession r).sessions) (x := r) rfl (AList.lookup_insert _)
    have heq := hagree (Tables.empty.insertSession r)
    rw [hfound, hnone] at heq
    cases heq

theorem postgres_answers (order : Nat → Order String) {p : String}
    (hp : p.toList.contains (Char.ofNat 0) = false) (t : Nat) :
    (postgres order (fun _ _ => none) (fun _ => none)).Answers t p where
  fault _ := rfl
  lost := rfl
  text := if_neg (Bool.eq_false_iff.mp hp)

/-- Without faults and lost rows, what the database answers depends on the IDs it stores, not on the
moment. -/
theorem tableStore_steady {B : Backend} (hfault : ∀ t i, B.fault t i = none)
    (hlost : ∀ t, B.lost t = none)
    (hrefuse : ∀ {m m' : Tables} {r}, (tableStore B).SameProviders m m' →
      (tableStore B).session m = (tableStore B).session m' → B.refuseSession m r = B.refuseSession m' r) :
    (tableStore B).Steady where
  get_provider_by := by
    intro t t' m m' p r hsame hr hget
    obtain ⟨x, hlookup, hhandle⟩ := map_eq_ok hget
    obtain rfl : x = r := Ref.own.inj hhandle
    have htext := Backend.refuseText_of_lookup hlookup
    have hanswers (t : Nat) : B.Answers t p := ⟨hfault t, hlost t, htext⟩
    rw [(hanswers t).lookup_eq m.providers {}] at hlookup
    obtain ⟨id, hid, hget⟩ := map_eq_ok hlookup
    obtain ⟨y, hy⟩ := matchLookup_eq_ok hid
    obtain rfl : y = x := by rwa [hy] at hget
    obtain rfl : y.id = id := m.provider_id hy
    have hsome : ((tableStore B).provider m' y.id).isSome = true := by
      rw [← hsame y.id, hr]
      rfl
    obtain ⟨r', hr'⟩ := Option.isSome_iff_exists.mp hsome
    have hget' : (m'.providers.lookup y.id).getD {} = r' := congrArg (·.getD {}) hr'
    refine ⟨r', m'.provider_id hr', hr', ?_⟩
    rw [matchLookup_sameKeys hsame (B.order t) (B.order t')] at hid
    have hfound : B.lookup t' m'.providers p = .ok r' := by
      rw [(hanswers t').lookup_eq m'.providers {}, hid]
      exact congrArg Except.ok hget'
    simp only [tableStore, hfound]
    rfl
  put_session := by
    intro t t' m m' r hsame hsession hput
    obtain ⟨x, hx⟩ := hput
    have hnone := Backend.checks_of_statement hx _ (.tail _ (.head _))
    rw [hrefuse hsame hsession] at hnone
    refine ⟨(.own r, upsertSession m' r), ?_⟩
    simp [tableStore, Backend.statement, hfault, hnone]

theorem postgres_steady (order : Nat → Order String) :
    (tableStore (postgres order (fun _ _ => none) (fun _ => none))).Steady := by
  refine tableStore_steady (fun _ _ => rfl) (fun _ => rfl) (fun {m m' r} hsame hsession => ?_)
  have hsession' : m.sessions.lookup r.id = m'.sessions.lookup r.id := congrFun hsession r.id
  have hsame' : (m.providers.lookup r.providerID).isSome = (m'.providers.lookup r.providerID).isSome :=
    hsame r.providerID
  simp only [postgres, refuseSession, hsession', hsame']

/-- A database that refuses nothing serves every listing. -/
theorem tableStore_listable {B : Backend} (hfault : ∀ t i, B.fault t i = none)
    (hlost : ∀ t, B.lost t = none) (htext : B.refuseText "" = none) {st : Tables}
    (hback : ∀ r, st.providers.lookup r.id = some r →
      B.refuseProvider { r with status := "offline" } = none) : (tableStore B).Listable st where
  list_providers := by
    intro t m filter hstatus
    simp [tableStore, Backend.statement, Backend.allRows, hfault, hlost, hstatus, htext, Except.map]
  put_provider := by
    intro t m r hr
    simp [tableStore, Store.providerHandle, Backend.statement, hfault, hback r hr]

theorem prefix_lookups_agree_session :
    (∀ m, foundProvider (tableStore (postgres (fun _ => Order.id) (fun _ _ => none) (fun _ => none)))
        0 m "session-4" = foundProvider (memoryStore (fun _ => Order.id)) 0 m "session-4") ∧
      ∀ m, foundSession (tableStore (postgres (fun _ => Order.id) (fun _ _ => none) (fun _ => none)))
        0 m "session-4" = foundSession (memoryStore (fun _ => Order.id)) 0 m "session-4" := by
  have hanswers := postgres_answers (fun _ => Order.id) (p := "session-4") (by decide) 0
  have h := prefix_lookups_agree_iff hanswers (fun _ => Order.id)
  exact ⟨h.1.mpr (by decide), h.2.mpr (by decide)⟩

/-- `"%"` is a prefix of no ID, but as a pattern it matches every one. -/
theorem percent_finds_any_session :
    let m := Tables.empty.insertSession { id := "session-4" }
    foundSession (tableStore (postgres (fun _ => Order.id) (fun _ _ => none) (fun _ => none)))
        0 m "%" = .ok { id := "session-4" } ∧
      foundSession (memoryStore (fun _ => Order.id)) 0 m "%" = .error .notFound := by
  decide +kernel

end PeerCompute.PostgresStore
