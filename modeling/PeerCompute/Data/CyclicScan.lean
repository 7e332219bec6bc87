import Mathlib.Data.Fintype.Pigeonhole
import Mathlib.Data.List.Perm.Subperm
import Mathlib.Data.Nat.ModEq

/-! A scan for the first free place along the orbit of a successor function. -/

universe u

namespace PeerCompute.Data

variable {α : Type u} {next : α → α} {taken : α → Bool}

def firstFree (next : α → α) (taken : α → Bool) : Nat → α → Option α
  | 0, _ => none
  | fuel + 1, c => if taken c then firstFree next taken fuel (next c) else some c

theorem firstFree_eq_some_iff {fuel : Nat} {c x : α} :
    firstFree next taken fuel c = some x ↔
      ∃ n < fuel, next^[n] c = x ∧ taken x = false ∧ ∀ m < n, taken (next^[m] c) = true := by
  induction fuel generalizing c with
  | zero => simp [firstFree]
  | succ fuel ih =>
    cases hc : taken c with
    | false =>
      simp only [firstFree, hc, Bool.false_eq_true, if_false, Option.some.injEq]
      constructor
      · rintro rfl
        exact ⟨0, by omega, rfl, hc, by simp⟩
      · rintro ⟨n, -, rfl, -, hm⟩
        cases n with
        | zero => rfl
        | succ n => simpa [hc] using hm 0 (by omega)
    | true =>
      simp only [firstFree, hc, if_true, ih]
      constructor
      · rintro ⟨n, hn, hx, hf, hm⟩
        refine ⟨n + 1, by omega, hx, hf, ?_⟩
        intro m hlt
        cases m with
        | zero => exact hc
        | succ m => exact hm m (by omega)
      · rintro ⟨n, hn, hx, hf, hm⟩
        cases n with
        | zero =>
          rw [← hx, Function.iterate_zero, id_eq, hc] at hf
          cases hf
        | succ n => exact ⟨n, by omega, hx, hf, fun m hlt => hm (m + 1) (by omega)⟩

theorem firstFree_eq_none_iff {fuel : Nat} {c : α} :
    firstFree next taken fuel c = none ↔ ∀ n < fuel, taken (next^[n] c) = true := by
  induction fuel generalizing c with
  | zero => simp [firstFree]
  | succ fuel ih =>
    cases hc : taken c with
    | false =>
      simp only [firstFree, hc, Bool.false_eq_true, if_false, reduceCtorEq, false_iff]
      intro h
      have h0 := h 0 (by omega)
      rw [Function.iterate_zero, id_eq, hc] at h0
      cases h0
    | true =>
      simp only [firstFree, hc, if_true, ih]
      constructor
      · intro h n hn
        cases n with
        | zero => exact hc
        | succ n => exact h n (by omega)
      · intro h n hn
        exact h (n + 1) (by omega)

/-- On a finite type every iterate already occurs among the first `card` ones. -/
theorem iterate_mem_prefix [Fintype α] (next : α → α) (c : α) (n : Nat) :
    ∃ m < Fintype.card α, next^[m] c = next^[n] c := by
  have hcard : Fintype.card α < Fintype.card (Fin (Fintype.card α + 1)) := by simp
  obtain ⟨i, j, hne, hij⟩ := Fintype.exists_ne_map_eq_of_card_lt
    (fun i : Fin (Fintype.card α + 1) => next^[i.val] c) hcard
  have hloop : ∃ i j, i < j ∧ j ≤ Fintype.card α ∧ next^[i] c = next^[j] c := by
    rcases Nat.lt_or_gt_of_ne (fun h => hne (Fin.ext h)) with h | h
    · exact ⟨i, j, h, by omega, hij⟩
    · exact ⟨j, i, h, by omega, hij.symm⟩
  obtain ⟨i, j, hlt, hle, hij⟩ := hloop
  induction n using Nat.strong_induction_on with
  | _ n ih =>
    by_cases hn : n < Fintype.card α
    · exact ⟨n, hn, rfl⟩
    · obtain ⟨m, hm, h⟩ := ih (n - j + i) (by omega)
      refine ⟨m, hm, h.trans ?_⟩
      rw [Function.iterate_add_apply, hij, ← Function.iterate_add_apply]
      congr 1
      omega

/-- A scan that has looked at as many candidates as there are goes on forever. -/
theorem firstFree_diverges [Fintype α] {c : α}
    (h : firstFree next taken (Fintype.card α) c = none) (fuel : Nat) :
    firstFree next taken fuel c = none := by
  rw [firstFree_eq_none_iff] at h ⊢
  intro n _
  obtain ⟨m, hm, hmn⟩ := iterate_mem_prefix next c n
  rw [← hmn]
  exact h m hm

/-- `next` runs through the `size` places of `Ok` in a single cycle. -/
structure Cycle (next : α → α) (Ok : α → Prop) (size : Nat) where
  pos : α → Nat
  closed : ∀ {c}, Ok c → Ok (next c)
  pos_lt : ∀ {c}, Ok c → pos c < size
  pos_next : ∀ {c}, Ok c → pos (next c) = (pos c + 1) % size

namespace Cycle

variable {Ok : α → Prop} {size : Nat}

theorem ok_iterate (C : Cycle next Ok size) {c : α} (hc : Ok c) (n : Nat) : Ok (next^[n] c) := by
  induction n with
  | zero => exact hc
  | succ n ih =>
    rw [Function.iterate_succ_apply']
    exact C.closed ih

theorem pos_iterate (C : Cycle next Ok size) {c : α} (hc : Ok c) (n : Nat) :
    C.pos (next^[n] c) = (C.pos c + n) % size := by
  induction n with
  | zero => exact (Nat.mod_eq_of_lt (C.pos_lt hc)).symm
  | succ n ih =>
    rw [Function.iterate_succ_apply', C.pos_next (C.ok_iterate hc n), ih, Nat.mod_add_mod,
      Nat.add_assoc]

theorem iterate_inj (C : Cycle next Ok size) {c : α} (hc : Ok c) {m n : Nat} (hm : m < size)
    (hn : n < size) (h : next^[m] c = next^[n] c) : m = n := by
  have hpos := congrArg C.pos h
  rw [C.pos_iterate hc, C.pos_iterate hc] at hpos
  have hmod : Nat.ModEq size m n := Nat.ModEq.add_left_cancel' (C.pos c) hpos
  exact Nat.ModEq.eq_of_lt_of_lt hmod hm hn

/-- Fewer than `size` places cannot fill the cycle. -/
theorem exists_free (C : Cycle next Ok size) {c : α} (hc : Ok c) {used : List α}
    (hused : used.length < size) : ∃ n < size, next^[n] c ∉ used := by
  by_contra hall
  push Not at hall
  have hnodup : ((List.range size).map (fun n => next^[n] c)).Nodup := by
    refine List.Nodup.map_on ?_ List.nodup_range
    intro m hm n hn h
    exact C.iterate_inj hc (List.mem_range.mp hm) (List.mem_range.mp hn) h
  have hsub : (List.range size).map (fun n => next^[n] c) ⊆ used := by
    intro x hx
    obtain ⟨n, hn, rfl⟩ := List.mem_map.mp hx
    exact hall n (List.mem_range.mp hn)
  have hlen := (hnodup.subperm hsub).length_le
  rw [List.length_map, List.length_range] at hlen
  omega

theorem firstFree_isSome (C : Cycle next Ok size) {c : α} (hc : Ok c) {used : List α}
    (hused : used.length < size) (htaken : ∀ x, taken x = true → x ∈ used) {fuel : Nat}
    (hfuel : size ≤ fuel) : ∃ x, firstFree next taken fuel c = some x := by
  by_contra hnone
  have hall : firstFree next taken fuel c = none := by
    cases h : firstFree next taken fuel c with
    | none => rfl
    | some x => exact absurd ⟨x, h⟩ hnone
  obtain ⟨n, hn, hfree⟩ := C.exists_free hc hused
  exact hfree (htaken _ (firstFree_eq_none_iff.mp hall n (by omega)))

section Places

variable (C : Cycle next Ok size) (hinj : ∀ {x y}, Ok x → Ok y → C.pos x = C.pos y → x = y)

include hinj

theorem reaches {c x : α} (hc : Ok c) (hx : Ok x) : ∃ n < size, next^[n] c = x := by
  have hposc := C.pos_lt hc
  have hposx := C.pos_lt hx
  refine ⟨(C.pos x + size - C.pos c) % size, Nat.mod_lt _ (by omega), ?_⟩
  apply hinj (C.ok_iterate hc _) hx
  rw [C.pos_iterate hc, Nat.add_mod_mod,
    show C.pos c + (C.pos x + size - C.pos c) = C.pos x + size by omega, Nat.add_mod_right,
    Nat.mod_eq_of_lt hposx]

theorem length_le {used : List α} (hnodup : used.Nodup) (hused : ∀ x ∈ used, Ok x) :
    used.length ≤ size := by
  cases used with
  | nil => exact Nat.zero_le size
  | cons c used =>
    have hsub : c :: used ⊆ (List.range size).map (fun n => next^[n] c) := by
      intro x hx
      obtain ⟨n, hn, rfl⟩ := C.reaches hinj (hused c (.head _)) (hused x hx)
      exact List.mem_map.mpr ⟨n, List.mem_range.mpr hn, rfl⟩
    have hle := (hnodup.subperm hsub).length_le
    rwa [List.length_map, List.length_range] at hle

/-- `size` different places are all there are. -/
theorem mem_of_full {used : List α} (hnodup : used.Nodup) (hused : ∀ x ∈ used, Ok x)
    (hlen : size ≤ used.length) {x : α} (hx : Ok x) : x ∈ used := by
  by_contra hout
  have hle := C.length_le hinj (List.nodup_cons.mpr ⟨hout, hnodup⟩)
    (List.forall_mem_cons.mpr ⟨hx, hused⟩)
  rw [List.length_cons] at hle
  omega

/-- Whoever walks on from a place until they are back has passed every other one. -/
theorem passes {c x : α} (hc : Ok c) (hx : Ok x) (hne : x ≠ c) {n : Nat}
    (hback : next^[n] (next c) = c) : ∃ k < n, next^[k] (next c) = x := by
  obtain ⟨k, hk, hkx⟩ := C.reaches hinj (C.closed hc) hx
  by_cases hlt : k < n
  · exact ⟨k, hlt, hkx⟩
  · exfalso
    have hpos := congrArg C.pos hback
    rw [← Function.iterate_succ_apply, C.pos_iterate hc] at hpos
    have hmod : Nat.ModEq size (n + 1) 0 := by
      apply Nat.ModEq.add_left_cancel' (C.pos c)
      exact hpos.trans (Nat.mod_eq_of_lt (C.pos_lt hc)).symm
    have hround : size ≤ n + 1 := Nat.le_of_dvd (by omega) (Nat.modEq_zero_iff_dvd.mp hmod)
    obtain rfl : k = n := by omega
    exact hne (hkx.symm.trans hback)

end Places

end Cycle

end PeerCompute.Data
