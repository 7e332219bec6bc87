import PeerCompute.Plugin.Store

namespace PeerCompute.Plugin

variable {σ : Type} {S : Store σ}

/-- `r` is stored under its ID, and every other session is as before. -/
def Store.Stores (S : Store σ) (st : σ) (r : SessionRecord) (st' : σ) : Prop :=
  ∀ id, S.session st' id = if id = r.id then some r else S.session st id

/-- A handler that looked up `r₀` in `st₀` has made it into `r` by assignments, which are in the
store already when the store handed out its own record. -/
structure Editing (S : Store σ) (st₀ st : σ) (r₀ r : SessionRecord) (ref : Ref SessionRecord) :
    Prop where
  before : S.session st₀ r₀.id = some r₀
  origin : r.origin = r₀.origin
  ref_eq : ref = if S.shared then .stored r₀.id else .own r
  view : ∀ id, S.session st id = if S.shared ∧ id = r₀.id then some r else S.session st₀ id

theorem Store.Lawful.editing (hS : S.Lawful) {t : Nat} {st : σ} {p : String}
    {ref : Ref SessionRecord} (h : S.getSessionByPrefix t st p = .ok ref) :
    ∃ r, ref = S.handle r ∧ Editing S st st r r ref := by
  obtain ⟨r, hr, rfl⟩ := hS.get_session h
  refine ⟨r, rfl, hr, rfl, rfl, fun id => ?_⟩
  split
  next hid => rw [hid.2, hr]
  next => rfl

namespace Editing

variable {st₀ st : σ} {r₀ r : SessionRecord} {ref : Ref SessionRecord}

theorem id_eq (h : Editing S st₀ st r₀ r ref) : r.id = r₀.id :=
  SessionRecord.id_of_origin h.origin

theorem view_of_not_shared (h : Editing S st₀ st r₀ r ref) (hs : S.shared = false) :
    S.session st = S.session st₀ := by
  funext id
  rw [h.view id, if_neg]
  simp [hs]

theorem load (h : Editing S st₀ st r₀ r ref) : S.loadSession st ref = r := by
  rw [h.ref_eq]
  split
  next hs => simp [Store.loadSession, h.view, hs]
  next => rfl

theorem set (hS : S.Lawful) (h : Editing S st₀ st r₀ r ref) (a : SessionAssign) :
    Editing S st₀ (S.setSession st a ref).2 r₀ (a.apply r) (S.setSession st a ref).1 := by
  refine ⟨h.before, (a.origin_apply r).trans h.origin, ?_, ?_⟩
  · rw [h.ref_eq]
    split <;> rfl
  · intro id
    rw [h.ref_eq]
    cases hs : S.shared with
    | true =>
      simp only [if_pos, Store.setSession, true_and, hS.assign_session, h.view, hs, Option.map_some]
      split <;> rfl
    | false =>
      simp only [Bool.false_eq_true, if_false, Store.setSession, false_and]
      rw [h.view_of_not_shared hs]

theorem put_ok (hS : S.Lawful) (h : Editing S st₀ st r₀ r ref) {t : Nat}
    {ref' : Ref SessionRecord} {st' : σ} (hput : S.putSession t st ref = .ok (ref', st')) :
    S.loadSession st' ref' = r ∧ S.Stores st₀ r st' := by
  rw [h.ref_eq] at hput
  cases hs : S.shared with
  | true =>
    rw [hs, if_pos rfl] at hput
    obtain ⟨rfl, hview⟩ := hS.put_stored hput
    have hsession : ∀ id, S.session st' id = if id = r₀.id then some r else S.session st₀ id := by
      intro id
      rw [hview, h.view id]
      simp [hs]
    refine ⟨?_, fun id => ?_⟩
    · simp [Store.loadSession, hsession]
    · rw [hsession, h.id_eq]
  | false =>
    rw [hs, if_neg Bool.false_ne_true] at hput
    obtain ⟨rfl, hview⟩ := hS.put_own hput
    have hold : S.session st r.id = some r₀ := by
      rw [h.view_of_not_shared hs, h.id_eq, h.before]
    refine ⟨by simp [Store.handle, hs, Store.loadSession], fun id => ?_⟩
    rw [hview id, hold, S.merge_of_origin h.origin, h.view_of_not_shared hs]

/-- A store that hands out its own records refuses no write, so nothing has been changed. -/
theorem put_error (hS : S.Lawful) (h : Editing S st₀ st r₀ r ref) {t : Nat} {e : StoreError}
    (hput : S.putSession t st ref = .error e) :
    S.shared = false ∧ S.session st = S.session st₀ := by
  cases hs : S.shared with
  | true =>
    obtain ⟨x, hx⟩ := hS.put_shared hs t st ref
    rw [hput] at hx
    cases hx
  | false => exact ⟨rfl, h.view_of_not_shared hs⟩

end Editing

end PeerCompute.Plugin
