import PeerCompute.Interleaving.History

/-! The actions of a schedule, each with its answer and the thread that performs it. -/

universe u v

namespace PeerCompute.Interleaving

open Prog

/-- An action with its answer, and the thread that has performed it. -/
abbrev Deed (S : Signature.{u}) := Nat × (Σ a : S.Act, S.Res a)

/-- What one thread has done. -/
def ofThread {S : Signature.{u}} (i : Nat) (l : List (Deed S)) : Journal S :=
  (l.filter (fun x => x.1 = i)).map Prod.snd

section

variable {S : Signature.{u}} {i j : Nat} {y : Σ a : S.Act, S.Res a} {l : List (Deed S)}

theorem ofThread_concat_self : ofThread i (l ++ [(i, y)]) = ofThread i l ++ [y] := by
  simp [ofThread]

theorem ofThread_concat_other (h : j ≠ i) : ofThread i (l ++ [(j, y)]) = ofThread i l := by
  simp [ofThread, h]

theorem mem_ofThread : y ∈ ofThread i l ↔ (i, y) ∈ l := by
  simp [ofThread]

/-- What a thread does between two of its actions, among what the others do. -/
theorem ofThread_split {before after : Journal S} (h : ofThread i l = before ++ y :: after) :
    ∃ l₁ l₂, l = l₁ ++ (i, y) :: l₂ ∧ ofThread i l₁ = before ∧ ofThread i l₂ = after := by
  obtain ⟨m₁, m, hm, hm₁, hm₂⟩ := List.map_eq_append_iff.mp h
  obtain ⟨l₁, l', rfl, rfl, hl'⟩ := List.filter_eq_append_iff.mp hm
  obtain ⟨z, m₂, rfl, rfl, rfl⟩ := List.map_eq_cons_iff.mp hm₂
  obtain ⟨l₂, l₃, rfl, hl₂, hz, hl₃⟩ := List.filter_eq_cons_iff.mp hl'
  obtain rfl : z.1 = i := of_decide_eq_true hz
  refine ⟨l₁ ++ l₂, l₃, by simp, ?_, ?_⟩
  · have hnil : l₂.filter (fun x => x.1 = z.1) = [] := List.filter_eq_nil_iff.mpr hl₂
    rw [ofThread, List.filter_append, hnil, List.append_nil, hm₁]
  · rw [ofThread, hl₃]

end

/-- Where a list that grows by one element can be split. -/
theorem split_concat {X : Type u} {l l₁ l₂ : List X} {x y : X} (h : l ++ [x] = l₁ ++ y :: l₂) :
    l₁ = l ∧ y = x ∨ ∃ l₃, l = l₁ ++ y :: l₃ := by
  obtain rfl | ⟨l₃, z, rfl⟩ := List.eq_nil_or_concat' l₂
  · obtain ⟨rfl, hxy⟩ := List.append_inj' h rfl
    cases hxy
    exact .inl ⟨rfl, rfl⟩
  · rw [← List.cons_append, ← List.append_assoc] at h
    exact .inr ⟨l₃, (List.append_inj' h rfl).1⟩

/-- Something meets `p`, and nothing after it meets `q`. -/
def Since {X : Type u} (p q : X → Prop) (l : List X) : Prop :=
  ∃ l₁ x l₂, l = l₁ ++ x :: l₂ ∧ p x ∧ ∀ y ∈ l₂, ¬q y

theorem since_concat {X : Type u} {p q : X → Prop} {l : List X} {x : X} :
    Since p q (l ++ [x]) ↔ p x ∨ Since p q l ∧ ¬q x := by
  constructor
  · rintro ⟨l₁, y, l₂, h, hp, hq⟩
    obtain rfl | ⟨l₃, z, rfl⟩ := List.eq_nil_or_concat' l₂
    · obtain ⟨-, hxy⟩ := List.append_inj' h rfl
      cases hxy
      exact .inl hp
    · rw [← List.cons_append, ← List.append_assoc] at h
      obtain ⟨hl, hz⟩ := List.append_inj' h rfl
      cases hz
      exact .inr ⟨⟨l₁, y, l₃, hl, hp, fun w hw => hq w (List.mem_append_left _ hw)⟩,
        hq x (List.mem_append_right _ (.head _))⟩
  · rintro (hp | ⟨⟨l₁, y, l₂, rfl, hp, hq⟩, hx⟩)
    · exact ⟨l, x, [], rfl, hp, nofun⟩
    · refine ⟨l₁, y, l₂ ++ [x], by rw [List.append_assoc, List.cons_append], hp, fun w hw => ?_⟩
      obtain hw | hw := List.mem_append.mp hw
      · exact hq w hw
      · cases List.mem_singleton.mp hw
        exact hx

/-- Something that meets `p` comes before something that meets `q`. -/
def Before {X : Type u} (p q : X → Prop) (l : List X) : Prop :=
  ∃ l₁ x l₂, l = l₁ ++ x :: l₂ ∧ q x ∧ ∃ y ∈ l₁, p y

section

variable {X : Type u} {p q : X → Prop} {l : List X} {x : X}

/-- It comes before the last one. -/
theorem before_iff_last {l₁ l₂ : List X} (hx : q x) (hl₂ : ∀ y ∈ l₂, ¬q y) :
    Before p q (l₁ ++ x :: l₂) ↔ ∃ y ∈ l₁, p y := by
  constructor
  · rintro ⟨m₁, z, m₂, h, hz, y, hy, hp⟩
    obtain ⟨t, rfl, ht⟩ | ⟨t, rfl, -⟩ := List.append_eq_append_iff.mp h
    · cases t with
      | nil => exact ⟨y, by simpa using hy, hp⟩
      | cons w t =>
        obtain ⟨-, rfl⟩ := List.cons.inj ht
        exact absurd hz (hl₂ z (List.mem_append_right _ (.head _)))
    · exact ⟨y, List.mem_append_left _ hy, hp⟩
  · exact fun hp => ⟨l₁, x, l₂, rfl, hx, hp⟩

end

namespace Pool

variable {S : Signature.{u}} {α : Type u} {σ : Type v} {exec : Exec S σ}

/-- The action that is performed, with its answer and its thread. -/
def deed (exec : Exec S σ) (P : Pool S α σ) : Event S α → List (Deed S)
  | .start _ => []
  | .step i => match P.threads[i]? with
    | some (.act a _) => ((exec a P.state).map (fun x => (i, ⟨a, x.1⟩))).toList
    | _ => []

variable {P : Pool S α σ} {i : Nat} {a : S.Act} {k : S.Res a → Prog S α} {r : S.Res a} {s : σ}

theorem deed_step (hi : P.threads[i]? = some (.act a k)) (hact : exec a P.state = some (r, s)) :
    P.deed exec (.step i) = [(i, ⟨a, r⟩)] := by
  simp only [deed, hi, hact, Option.map_some, Option.toList_some]

end Pool

end PeerCompute.Interleaving
