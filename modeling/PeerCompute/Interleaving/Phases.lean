import PeerCompute.Interleaving.Expand

/-! How far a program has come, and how far an expanded one: the caller waits for an action, and of
what stands for the action a part has been performed. -/

universe u

namespace PeerCompute.Interleaving.Prog

variable {S T : Signature.{u}} {α β : Type u}

/-- What is left of a program after it has performed the actions of a journal. -/
inductive Leaves (p : Prog S α) : Journal S → Prog S α → Prop
  | start : p.Leaves [] p
  | step {l : Journal S} {a : S.Act} {k : S.Res a → Prog S α} (h : p.Leaves l (.act a k))
      (r : S.Res a) : p.Leaves (l ++ [⟨a, r⟩]) (k r)

section

variable {p p' q : Prog S α} {l : Journal S} {a : S.Act} {k : S.Res a → Prog S α} {r : S.Res a}

theorem Leaves.along {ok : Journal S → S.Act → Prop} {K : α → Journal S → Prop}
    (h : p.Leaves l p') (hp : p.Along ok K []) : p'.Along ok K l := by
  induction h with
  | start => exact hp
  | step h r ih => exact ih.2 r

theorem Leaves.uses {allowed : S.Act → Prop} (h : p.Leaves l (.act a k)) (hp : p.Uses allowed) :
    allowed a :=
  (h.along ((hp.mono (fun _ ha _ => ha)).along_always [])).1

theorem Leaves.cons (h : (k r).Leaves l q) : (Prog.act a k).Leaves (⟨a, r⟩ :: l) q := by
  induction h with
  | start => exact Leaves.start.step r
  | step h r' ih => exact ih.step r'

theorem leaves_ret {x : α} : (ret x : Prog S α).Leaves l q ↔ l = [] ∧ q = .ret x := by
  constructor
  · intro h
    induction h with
    | start => exact ⟨rfl, rfl⟩
    | step h r ih => cases ih.2
  · rintro ⟨rfl, rfl⟩
    exact .start

theorem leaves_act : (Prog.act a k).Leaves l q ↔
    l = [] ∧ q = .act a k ∨ ∃ r l', l = ⟨a, r⟩ :: l' ∧ (k r).Leaves l' q := by
  constructor
  · intro h
    induction h with
    | start => exact .inl ⟨rfl, rfl⟩
    | step h r ih =>
      obtain ⟨rfl, heq⟩ | ⟨r', l', rfl, h'⟩ := ih
      · cases heq
        exact .inr ⟨r, [], rfl, .start⟩
      · exact .inr ⟨r', _, rfl, h'.step r⟩
  · rintro (⟨rfl, rfl⟩ | ⟨r, l', rfl, h⟩)
    · exact .start
    · exact h.cons

/-- The moment of an action. -/
theorem Leaves.before {y : Σ a : S.Act, S.Res a} {l₁ l₂ : Journal S}
    (h : p.Leaves (l₁ ++ y :: l₂) q) : ∃ k, p.Leaves l₁ (.act y.1 k) := by
  induction l₁ generalizing p with
  | nil =>
    cases p with
    | ret x => cases (leaves_ret.mp h).1
    | act a k =>
      obtain ⟨hnil, -⟩ | ⟨r, l', heq, -⟩ := leaves_act.mp h
      · cases hnil
      · cases heq
        exact ⟨k, .start⟩
  | cons z l₁ ih =>
    cases p with
    | ret x => cases (leaves_ret.mp h).1
    | act a k =>
      obtain ⟨hnil, -⟩ | ⟨r, l', heq, hrest⟩ := leaves_act.mp h
      · cases hnil
      · cases heq
        obtain ⟨k', hk'⟩ := ih hrest
        exact ⟨k', hk'.cons⟩

/-- What a program does is what it has left to do. -/
theorem along_leaves (p : Prog S α) :
    p.Along (fun l a => ∃ k, p.Leaves l (.act a k)) (fun x l => p.Leaves l (.ret x)) [] := by
  have hrest : ∀ (q : Prog S α) (l : Journal S), p.Leaves l q →
      q.Along (fun l a => ∃ k, p.Leaves l (.act a k)) (fun x l => p.Leaves l (.ret x)) l := by
    intro q
    induction q with
    | ret x => exact fun l h => h
    | act a k ih => exact fun l h => ⟨⟨k, h⟩, fun r => ih r _ (h.step r)⟩
  exact hrest p [] .start

/-- The first of two programs is on, or the second one. -/
theorem leaves_bind_act {f : α → Prog S β} {k : S.Res a → Prog S β}
    (h : (p >>= f).Leaves l (.act a k)) : (∃ k', p.Leaves l (.act a k')) ∨
      ∃ l₁ l₂ x, l = l₁ ++ l₂ ∧ p.Leaves l₁ (.ret x) ∧ (f x).Leaves l₂ (.act a k) := by
  induction p generalizing l with
  | ret x => exact .inr ⟨[], l, x, rfl, .start, h⟩
  | act b k' ih =>
    obtain ⟨rfl, heq⟩ | ⟨r, l', rfl, hrest⟩ := leaves_act.mp h
    · cases heq
      exact .inl ⟨k', .start⟩
    · obtain ⟨k'', hp⟩ | ⟨l₁, l₂, x, rfl, hp, hf⟩ := ih r hrest
      · exact .inl ⟨k'', hp.cons⟩
      · exact .inr ⟨_, l₂, x, rfl, hp.cons, hf⟩

theorem leaves_bind_ret {f : α → Prog S β} {y : β} (h : (p >>= f).Leaves l (.ret y)) :
    ∃ l₁ l₂ x, l = l₁ ++ l₂ ∧ p.Leaves l₁ (.ret x) ∧ (f x).Leaves l₂ (.ret y) := by
  induction p generalizing l with
  | ret x => exact ⟨[], l, x, rfl, .start, h⟩
  | act b k' ih =>
    obtain ⟨-, heq⟩ | ⟨r, l', rfl, hrest⟩ := leaves_act.mp h
    · cases heq
    · obtain ⟨l₁, l₂, x, rfl, hp, hf⟩ := ih r hrest
      exact ⟨_, l₂, x, rfl, hp.cons, hf⟩

end

/-! ## Expanded programs -/

/-- The journal of a program and that of its expansion, when what stands for each action has been
performed to its end. -/
inductive Expands (f : (a : S.Act) → Prog T (S.Res a)) : Journal S → Journal T → Prop
  | nil : Expands f [] []
  | cons {a : S.Act} {r : S.Res a} {l : Journal S} {L L' : Journal T}
      (ha : (f a).Leaves L (.ret r)) (h : Expands f l L') : Expands f (⟨a, r⟩ :: l) (L ++ L')

section

variable {f : (a : S.Act) → Prog T (S.Res a)} {p : Prog S α} {l l₁ l₂ : Journal S} {L : Journal T}

/-- The part of the journal in which an action was performed. -/
theorem Expands.split {y : Σ a : S.Act, S.Res a} (h : Expands f (l₁ ++ y :: l₂) L) :
    ∃ L₁ L' L₂, L = L₁ ++ (L' ++ L₂) ∧ Expands f l₁ L₁ ∧ (f y.1).Leaves L' (.ret y.2) ∧
      Expands f l₂ L₂ := by
  induction l₁ generalizing L with
  | nil =>
    cases h with
    | cons ha h => exact ⟨[], _, _, rfl, .nil, ha, h⟩
  | cons z l₁ ih =>
    cases h with
    | cons ha h =>
      obtain ⟨L₁, L', L₂, rfl, hl₁, hy, hl₂⟩ := ih h
      exact ⟨_ ++ L₁, L', L₂, by rw [List.append_assoc], .cons ha hl₁, hy, hl₂⟩

/-- What has been performed was performed for an action. -/
theorem Expands.mem (h : Expands f l L) {z : Σ b : T.Act, T.Res b} (hz : z ∈ L) :
    ∃ y ∈ l, ∃ L', (f y.1).Leaves L' (.ret y.2) ∧ z ∈ L' ∧ L' ⊆ L := by
  induction h with
  | nil => cases hz
  | cons ha h ih =>
    obtain hz | hz := List.mem_append.mp hz
    · exact ⟨_, .head _, _, ha, hz, List.subset_append_left _ _⟩
    · obtain ⟨y, hy, L', hleaves, hz, hsub⟩ := ih hz
      exact ⟨y, .tail _ hy, L', hleaves, hz, List.subset_append_of_subset_right _ hsub⟩

/-- What can be seen of a program and of its expansion. -/
theorem Expands.filterMap_eq {X : Type*} {see : (Σ a : S.Act, S.Res a) → Option X}
    {see' : (Σ b : T.Act, T.Res b) → Option X} (h : Expands f l L)
    (hf : ∀ y ∈ l, ∀ L', (f y.1).Leaves L' (.ret y.2) → L'.filterMap see' = (see y).toList) :
    L.filterMap see' = l.filterMap see := by
  induction h with
  | nil => rfl
  | @cons a r l L₁ L₂ ha h ih =>
    rw [List.filterMap_append, hf _ (.head _) _ ha, ih (fun y hy => hf y (.tail _ hy))]
    cases hsee : see ⟨a, r⟩ <;> simp [hsee]

/-- Where an expanded program is. -/
theorem leaves_expand_act {b : T.Act} {k : T.Res b → Prog T α}
    (h : (p.expand f).Leaves L (.act b k)) :
    ∃ l a k' L₀ L₁ k'', p.Leaves l (.act a k') ∧ Expands f l L₀ ∧
      (f a).Leaves L₁ (.act b k'') ∧ L = L₀ ++ L₁ := by
  induction p generalizing L with
  | ret x => cases (leaves_ret.mp h).2
  | act a k' ih =>
    obtain ⟨k'', h⟩ | ⟨L₁, L₂, r, rfl, ha, h⟩ := leaves_bind_act h
    · exact ⟨[], a, k', [], L, k'', .start, .nil, h, rfl⟩
    · obtain ⟨l, a', k₁, L₀, L', k₂, hp, hl, hf, rfl⟩ := ih r h
      exact ⟨_, a', k₁, _, L', k₂, hp.cons, .cons ha hl, hf, by rw [List.append_assoc]⟩

end

end PeerCompute.Interleaving.Prog
