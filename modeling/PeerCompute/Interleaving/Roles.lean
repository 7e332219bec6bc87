import PeerCompute.Interleaving.Deeds
import PeerCompute.Interleaving.Phases

/-! Runs in which threads begin in some role while others are in progress, and what is recorded of
them. -/

universe u v w

namespace PeerCompute.Interleaving

open Prog

/-- A thread begins in a role, or a thread performs an action. -/
inductive Entry (S : Signature.{u}) (Q : Type v) : Type (max u v)
  | begins (q : Q)
  | does (d : Deed S)

namespace Entry

variable {S : Signature.{u}} {Q : Type v}

def role? : Entry S Q → Option Q
  | begins q => some q
  | does _ => none

def deed? : Entry S Q → Option (Deed S)
  | begins _ => none
  | does d => some d

/-- The roles of the threads, in the order of the threads. -/
def roles (h : List (Entry S Q)) : List Q := h.filterMap role?

def deeds (h : List (Entry S Q)) : List (Deed S) := h.filterMap deed?

variable {h h' : List (Entry S Q)} {q : Q} {d : Deed S}

@[simp] theorem roles_begins : roles (h ++ [.begins q]) = roles h ++ [q] := by
  simp [roles, role?]

@[simp] theorem roles_does : roles (h ++ [.does d]) = roles h := by
  simp [roles, role?]

@[simp] theorem deeds_begins : deeds (h ++ [.begins q]) = deeds h := by
  simp [deeds, deed?]

@[simp] theorem deeds_does : deeds (h ++ [.does d]) = deeds h ++ [d] := by
  simp [deeds, deed?]

theorem deeds_append_cons : deeds (h ++ .does d :: h') = deeds h ++ d :: deeds h' := by
  simp [deeds, deed?]

theorem mem_deeds : d ∈ deeds h ↔ .does d ∈ h := by
  constructor
  · intro hd
    obtain ⟨e, he, heq⟩ := List.mem_filterMap.mp hd
    cases e with
    | begins q => cases heq
    | does d' =>
      cases heq
      exact he
  · exact fun hd => List.mem_filterMap.mpr ⟨_, hd, rfl⟩

/-- What a thread has done, among the entries of all. -/
theorem does_split {i : Nat} {y : Σ a : S.Act, S.Res a} {before after : Journal S}
    (hsplit : ofThread i (deeds h) = before ++ y :: after) :
    ∃ h₁ h₂, h = h₁ ++ .does (i, y) :: h₂ ∧ ofThread i (deeds h₁) = before ∧
      ofThread i (deeds h₂) = after := by
  obtain ⟨d₁, d₂, hd, rfl, rfl⟩ := ofThread_split hsplit
  obtain ⟨h₁, h₂', rfl, rfl, h₂⟩ := List.filterMap_eq_append_iff.mp hd
  obtain ⟨h₃, e, h₄, rfl, hnone, he, rfl⟩ := List.filterMap_eq_cons_iff.mp h₂
  cases e with
  | begins q => cases he
  | does d =>
    cases he
    have hnil : h₃.filterMap deed? = [] := List.filterMap_eq_nil_iff.mpr hnone
    refine ⟨h₁ ++ h₃, h₄, by rw [List.append_assoc], ?_, rfl⟩
    rw [deeds, List.filterMap_append, hnil, List.append_nil]

theorem ofThread_extends (h h' : List (Entry S Q)) (i : Nat) :
    ofThread i (deeds h) <+: ofThread i (deeds (h ++ h')) := by
  simp only [deeds, ofThread, List.filterMap_append, List.filter_append, List.map_append]
  exact List.prefix_append _ _

/-- A thread keeps the role in which it has begun. -/
theorem role_append {i : Nat} (hi : (roles h)[i]? = some q) : (roles (h ++ h'))[i]? = some q := by
  rw [roles, List.filterMap_append, List.getElem?_append_left]
  · exact hi
  · exact (List.getElem?_eq_some_iff.mp hi).1

end Entry

/-- The threads of a pool are what is left of the programs of their roles, and each action was
performed by the program of a role. -/
structure Staffed {S : Signature.{u}} {α : Type u} {σ : Type w} {Q : Type v}
    (prog : Nat → Q → Prog S α) (h : List (Entry S Q)) (P : Pool S α σ) : Prop where
  length : P.threads.length = (Entry.roles h).length
  bounded : ∀ d ∈ Entry.deeds h, d.1 < (Entry.roles h).length
  leaves : ∀ i q p, (Entry.roles h)[i]? = some q → P.threads[i]? = some p →
    (prog i q).Leaves (ofThread i (Entry.deeds h)) p
  performed : ∀ before i a r after, h = before ++ .does (i, ⟨a, r⟩) :: after →
    ∃ q k, (Entry.roles before)[i]? = some q ∧
      (prog i q).Leaves (ofThread i (Entry.deeds before)) (.act a k)

namespace Staffed

variable {S : Signature.{u}} {α : Type u} {σ : Type w} {Q : Type v} {prog : Nat → Q → Prog S α}
  {h : List (Entry S Q)} {P : Pool S α σ} {s : σ} {i : Nat} {a : S.Act} {r : S.Res a}

theorem nil (s : σ) : Staffed prog [] ⟨s, []⟩ where
  length := rfl
  bounded d hd := by cases hd
  leaves i q p hq := by cases hq
  performed before i a r after heq := by cases before <;> cases heq

theorem begins (H : Staffed prog h P) (q : Q) (s : σ) :
    Staffed prog (h ++ [.begins q]) ⟨s, P.threads ++ [prog P.threads.length q]⟩ where
  length := by simp [H.length]
  bounded d hd := by
    rw [Entry.deeds_begins] at hd
    have := H.bounded d hd
    simp only [Entry.roles_begins, List.length_append, List.length_singleton]
    omega
  leaves i q' p hq hp := by
    rw [Entry.roles_begins] at hq
    rw [Entry.deeds_begins]
    by_cases hi : i < P.threads.length
    · rw [List.getElem?_append_left (H.length ▸ hi)] at hq
      rw [List.getElem?_append_left hi] at hp
      exact H.leaves i q' p hq hp
    · have hlt := (List.getElem?_eq_some_iff.mp hp).1
      simp only [List.length_append, List.length_singleton] at hlt
      obtain rfl : i = P.threads.length := by omega
      rw [List.getElem?_concat_length] at hp
      rw [H.length, List.getElem?_concat_length] at hq
      cases hp
      cases hq
      -- the new thread has done nothing
      have hnil : ofThread P.threads.length (Entry.deeds h) = [] := by
        rw [ofThread, List.map_eq_nil_iff, List.filter_eq_nil_iff]
        intro d hd hlen
        have hlt := H.bounded d hd
        rw [← H.length] at hlt
        have heq : d.1 = P.threads.length := of_decide_eq_true hlen
        omega
      rw [hnil]
      exact .start
  performed before i a r after heq := by
    obtain ⟨-, hx⟩ | ⟨l, rfl⟩ := split_concat heq
    · cases hx
    · exact H.performed before i a r l rfl

theorem does (H : Staffed prog h P) {k : S.Res a → Prog S α}
    (hi : P.threads[i]? = some (.act a k)) (r : S.Res a) (s : σ) :
    Staffed prog (h ++ [.does (i, ⟨a, r⟩)]) ⟨s, P.threads.set i (k r)⟩ where
  length := by simp [H.length]
  bounded d hd := by
    rw [Entry.deeds_does] at hd
    rw [Entry.roles_does]
    obtain hd | hd := List.mem_append.mp hd
    · exact H.bounded d hd
    · obtain rfl := List.mem_singleton.mp hd
      rw [← H.length]
      exact (List.getElem?_eq_some_iff.mp hi).1
  leaves j q p hq hp := by
    rw [Entry.roles_does] at hq
    rw [Entry.deeds_does]
    by_cases hij : i = j
    · subst hij
      rw [List.getElem?_set_self', hi] at hp
      cases hp
      rw [ofThread_concat_self]
      exact (H.leaves i q _ hq hi).step r
    · rw [List.getElem?_set_ne hij] at hp
      rw [ofThread_concat_other hij]
      exact H.leaves j q p hq hp
  performed before j b r' after heq := by
    obtain ⟨rfl, hx⟩ | ⟨l, rfl⟩ := split_concat heq
    · cases hx
      have hlt := (List.getElem?_eq_some_iff.mp hi).1
      rw [H.length] at hlt
      obtain ⟨q, hq⟩ : ∃ q, (Entry.roles before)[i]? = some q :=
        ⟨_, List.getElem?_eq_getElem hlt⟩
      exact ⟨q, k, hq, H.leaves i q _ hq hi⟩
    · exact H.performed before j b r' l rfl

end Staffed

end PeerCompute.Interleaving
