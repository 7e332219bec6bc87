import PeerCompute.Interleaving.Contract

/-! Names that the threads of a pool draw from one supply. -/

universe u

namespace PeerCompute.Interleaving

open Contract

/-- Each thread has drawn at most one name that it has not used yet.  No name is drawn twice, and
none is used that is still to be drawn. -/
structure Drawn {N : Type u} (name : Nat → N) (used : N → Prop) (gs : List (Option N))
    (clock : Nat) : Prop where
  fresh : ∀ t, clock ≤ t → ¬used (name t)
  unused : ∀ (i : Nat) n, gs[i]? = some (some n) → ¬used n ∧ ∃ t < clock, n = name t
  apart : ∀ (i j : Nat) n, gs[i]? = some (some n) → gs[j]? = some (some n) → i = j

namespace Drawn

variable {N : Type u} {name : Nat → N} {used used' : N → Prop} {gs : List (Option N)} {clock : Nat}
  {i : Nat} {n : N}

theorem nil (h : ∀ t, clock ≤ t → ¬used (name t)) : Drawn name used [] clock where
  fresh := h
  unused i n hi := by cases hi
  apart i j n hi := by cases hi

theorem begins (h : Drawn name used gs clock) : Drawn name used (gs ++ [none]) clock where
  fresh := h.fresh
  unused i n hi := by
    obtain hi | ⟨-, hi⟩ := getElem?_concat_elim hi
    · exact h.unused i n hi
    · cases hi
  apart i j n hi hj := by
    obtain hi | ⟨-, hi⟩ := getElem?_concat_elim hi
    · obtain hj | ⟨-, hj⟩ := getElem?_concat_elim hj
      · exact h.apart i j n hi hj
      · cases hj
    · cases hi

theorem tick (h : Drawn name used gs clock) : Drawn name used gs (clock + 1) where
  fresh t ht := h.fresh t (by omega)
  unused i n hi := by
    obtain ⟨hn, t, ht, rfl⟩ := h.unused i n hi
    exact ⟨hn, t, by omega, rfl⟩
  apart := h.apart

/-- A thread that gives up the name that it has drawn. -/
theorem forget (h : Drawn name used gs clock) (i : Nat) : Drawn name used (gs.set i none) clock where
  fresh := h.fresh
  unused j n hj := by
    obtain ⟨-, hj⟩ | ⟨-, hj⟩ := getElem?_set_elim hj
    · cases hj
    · exact h.unused j n hj
  apart j k n hj hk := by
    obtain ⟨-, hj⟩ | ⟨-, hj⟩ := getElem?_set_elim hj
    · cases hj
    obtain ⟨-, hk⟩ | ⟨-, hk⟩ := getElem?_set_elim hk
    · cases hk
    exact h.apart j k n hj hk

theorem draw (hinj : Function.Injective name) (h : Drawn name used gs clock) (i : Nat) :
    Drawn name used (gs.set i (some (name clock))) (clock + 1) := by
  have hne : ∀ j : Nat, gs[j]? ≠ some (some (name clock)) := by
    intro j hj
    obtain ⟨-, t, ht, heq⟩ := h.unused j _ hj
    have := hinj heq
    omega
  refine ⟨h.tick.fresh, fun j n hj => ?_, fun j k n hj hk => ?_⟩
  · obtain ⟨-, heq⟩ | ⟨-, hj⟩ := getElem?_set_elim hj
    · cases heq
      exact ⟨h.fresh clock (Nat.le_refl _), clock, by omega, rfl⟩
    · exact h.tick.unused j n hj
  · obtain ⟨hji, hn⟩ | ⟨-, hj'⟩ := getElem?_set_elim hj
    · obtain ⟨hki, -⟩ | ⟨-, hk'⟩ := getElem?_set_elim hk
      · exact hji.trans hki.symm
      · cases hn
        exact absurd hk' (hne k)
    · obtain ⟨-, hn⟩ | ⟨-, hk'⟩ := getElem?_set_elim hk
      · cases hn
        exact absurd hj' (hne j)
      · exact h.apart j k n hj' hk'

/-- A thread that uses the name that it has drawn. -/
theorem use (hinj : Function.Injective name) (h : Drawn name used gs clock)
    (hi : gs[i]? = some (some n)) (hused : ∀ m, used' m → m = n ∨ used m) :
    Drawn name used' (gs.set i none) (clock + 1) := by
  obtain ⟨hn, t₀, ht₀, hname⟩ := h.unused i n hi
  refine ⟨fun t ht hu => ?_, fun j m hj => ?_, (h.forget i).apart⟩
  · obtain heq | hu := hused _ hu
    · have := hinj (heq.trans hname)
      omega
    · exact h.fresh t (by omega) hu
  · obtain ⟨-, hj⟩ | ⟨hij, hj⟩ := getElem?_set_elim hj
    · cases hj
    obtain ⟨hm, t, ht, rfl⟩ := h.unused j m hj
    refine ⟨fun hu => ?_, t, by omega, rfl⟩
    obtain heq | hu := hused _ hu
    · exact hij (h.apart j i _ hj (heq ▸ hi))
    · exact hm hu

end Drawn

end PeerCompute.Interleaving
