import Mathlib.Data.List.AList

universe u v w

namespace PeerCompute.Data

/-- A finite map, as a list of entries with distinct keys. -/
abbrev Map (K : Type u) (V : Type v) := AList (fun _ : K => V)

/-- An order in which a map may be iterated: any rearrangement of its keys. -/
structure Order (K : Type u) where
  apply : List K → List K
  perm : ∀ keys, (apply keys).Perm keys

def Order.id {K : Type u} : Order K := ⟨fun keys => keys, List.Perm.refl⟩

/-- The order that begins with `k`, if `k` is a key. -/
def Order.first {K : Type u} [DecidableEq K] (k : K) : Order K where
  apply keys := if k ∈ keys then k :: keys.erase k else keys
  perm keys := by
    split
    next hk => exact (List.perm_cons_erase hk).symm
    next => exact List.Perm.refl keys

namespace Map

variable {K : Type u} {V : Type v} [DecidableEq K]

theorem lookup_insert (m : Map K V) (k k' : K) (x : V) :
    (m.insert k x).lookup k' = if k' = k then some x else m.lookup k' := by
  split
  next h =>
    subst h
    exact AList.lookup_insert m
  next h => exact AList.lookup_insert_ne h

theorem lookup_erase (m : Map K V) (k k' : K) :
    (m.erase k).lookup k' = if k' = k then none else m.lookup k' := by
  split
  next h =>
    subst h
    exact AList.lookup_erase k' m
  next h => exact AList.lookup_erase_ne h

theorem mem_keys_iff {m : Map K V} {k : K} : k ∈ m.keys ↔ ∃ x, m.lookup k = some x := by
  rw [← Option.isSome_iff_exists, AList.lookup_isSome]
  exact AList.mem_keys.symm

theorem erase_insert {m : Map K V} {k : K} (h : m.lookup k = none) (x : V) :
    (m.insert k x).erase k = m := by
  have hk : k ∉ m.entries.keys := AList.lookup_eq_none.mp h
  have hhead : k = Sigma.fst (⟨k, x⟩ : Sigma fun _ : K => V) := rfl
  apply AList.ext
  change List.kerase k (⟨k, x⟩ :: List.kerase k m.entries) = m.entries
  rw [List.kerase_cons_eq hhead, List.kerase_of_notMem_keys hk]

/-- Applies `f` to the value under `k`, if there is one. -/
def modify (m : Map K V) (k : K) (f : V → V) : Map K V :=
  match m.lookup k with
  | none => m
  | some x => m.insert k (f x)

theorem lookup_modify (m : Map K V) (k k' : K) (f : V → V) :
    (m.modify k f).lookup k' = if k' = k then (m.lookup k).map f else m.lookup k' := by
  unfold modify
  split
  next h =>
    split
    next hk => rw [hk, h, Option.map_none]
    next => rfl
  next x h => rw [lookup_insert, h, Option.map_some]

theorem modify_modify (m : Map K V) (k : K) (f g : V → V) :
    (m.modify k f).modify k g = m.modify k (g ∘ f) := by
  unfold modify
  cases h : m.lookup k with
  | none => simp [h]
  | some x =>
    have hx : (m.insert k (f x)).lookup k = some (f x) := AList.lookup_insert m
    simp only [hx]
    exact AList.insert_insert m

section Values

variable {W : Type w}

/-- Applies `f` to every value. -/
def mapValues (f : V → W) (m : Map K V) : Map K W where
  entries := m.entries.map (.map id (fun _ => f))
  nodupKeys := m.nodupKeys.map₂ (fun _ => f) _

omit [DecidableEq K] in
@[simp] theorem keys_mapValues (f : V → W) (m : Map K V) : (mapValues f m).keys = m.keys :=
  List.map₂_keys (fun _ => f) m.entries

@[simp] theorem lookup_mapValues (f : V → W) (m : Map K V) (k : K) :
    (mapValues f m).lookup k = (m.lookup k).map f :=
  List.dlookup_map₂ k

theorem kerase_mapValues (f : V → W) (k : K) (entries : List (Sigma fun _ : K => V)) :
    List.kerase k (entries.map (.map id (fun _ => f)) : List (Sigma fun _ : K => W)) =
      (List.kerase k entries).map (.map id (fun _ => f)) := by
  induction entries with
  | nil => rfl
  | cons e entries ih =>
    by_cases h : k = e.1
    · rw [List.kerase_cons_eq h]
      exact List.kerase_cons_eq h
    · rw [List.kerase_cons_ne h, List.map_cons, List.map_cons, ← ih]
      exact List.kerase_cons_ne h

theorem mapValues_insert (f : V → W) (m : Map K V) (k : K) (x : V) :
    mapValues f (m.insert k x) = (mapValues f m).insert k (f x) := by
  apply AList.ext
  exact congrArg (List.cons (⟨k, f x⟩ : Sigma fun _ : K => W)) (kerase_mapValues f k m.entries).symm

theorem mapValues_modify {f : V → W} {g : V → V} {h : W → W} (hfg : ∀ x, f (g x) = h (f x))
    (m : Map K V) (k : K) : mapValues f (m.modify k g) = (mapValues f m).modify k h := by
  unfold modify
  rw [lookup_mapValues]
  cases m.lookup k with
  | none => rfl
  | some x =>
    have hinsert := mapValues_insert f m k (g x)
    rw [hfg] at hinsert
    exact hinsert

end Values

/-- The two maps are each other's inverse. -/
def Inverse {W : Type v} [DecidableEq W] (m : Map K W) (m' : Map W K) : Prop :=
  ∀ k x, m.lookup k = some x ↔ m'.lookup x = some k

namespace Inverse

variable {W : Type v} [DecidableEq W] {m : Map K W} {m' : Map W K}

theorem insert (h : Inverse m m') {k : K} {x : W} (hk : m.lookup k = none)
    (hx : m'.lookup x = none) : Inverse (m.insert k x) (m'.insert x k) := by
  intro k' x'
  rw [lookup_insert, lookup_insert]
  by_cases hkk : k' = k
  · subst hkk
    by_cases hxx : x' = x
    · simp [hxx]
    · have hne : m'.lookup x' ≠ some k' := by
        intro h'
        rw [← h k' x', hk] at h'
        cases h'
      simp [hxx, Ne.symm hxx, hne]
  · by_cases hxx : x' = x
    · subst hxx
      have hne : m.lookup k' ≠ some x' := by
        intro h'
        rw [h k' x', hx] at h'
        cases h'
      simp [hkk, Ne.symm hkk, hne]
    · simp [hkk, hxx, h k' x']

theorem erase (h : Inverse m m') {k : K} {x : W} (hk : m.lookup k = some x) :
    Inverse (m.erase k) (m'.erase x) := by
  have hx := (h k x).mp hk
  intro k' x'
  rw [lookup_erase, lookup_erase]
  by_cases hkk : k' = k
  · subst hkk
    by_cases hxx : x' = x
    · simp [hxx]
    · have hne : m'.lookup x' ≠ some k' := by
        intro h'
        rw [← h k' x', hk] at h'
        exact hxx (Option.some.inj h').symm
      simp [hxx, hne]
  · by_cases hxx : x' = x
    · subst hxx
      have hne : m.lookup k' ≠ some x' := by
        intro h'
        rw [h k' x', hx] at h'
        exact hkk (Option.some.inj h').symm
      simp [hkk, hne]
    · simp [hkk, hxx, h k' x']

end Inverse

end Map

end PeerCompute.Data
