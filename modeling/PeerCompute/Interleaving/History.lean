import PeerCompute.Interleaving.Journal

/-! What holds along every run of a program, of each action and of those before it. -/

universe u v

namespace PeerCompute.Interleaving.Prog

variable {S : Signature.{u}} {α β : Type u} {σ : Type v} {exec : Exec S σ}

/-- Whatever the answers, each action meets `ok` after the journal so far, and `Q` holds when the
program returns. -/
def Along (ok : Journal S → S.Act → Prop) (Q : α → Journal S → Prop) : Prog S α → Journal S → Prop
  | .ret x, l => Q x l
  | .act a k, l => ok l a ∧ ∀ r, (k r).Along ok Q (l ++ [⟨a, r⟩])

section

variable {ok : Journal S → S.Act → Prop} {Q Q' : α → Journal S → Prop} {p : Prog S α}
  {l : Journal S}

theorem Along.mono (h : p.Along ok Q l) (hq : ∀ x l', Q x l' → Q' x l') : p.Along ok Q' l := by
  induction p generalizing l with
  | ret x => exact hq x l h
  | act a k ih => exact ⟨h.1, fun r => ih r (h.2 r)⟩

theorem Along.imp {ok' : Journal S → S.Act → Prop} (h : p.Along ok Q l)
    (hok : ∀ l a, ok l a → ok' l a) : p.Along ok' Q l := by
  induction p generalizing l with
  | ret x => exact h
  | act a k ih => exact ⟨hok l a h.1, fun r => ih r (h.2 r)⟩

theorem Along.and {ok' : Journal S → S.Act → Prop} (h : p.Along ok Q l) (h' : p.Along ok' Q' l) :
    p.Along (fun l a => ok l a ∧ ok' l a) (fun x l => Q x l ∧ Q' x l) l := by
  induction p generalizing l with
  | ret x => exact ⟨h, h'⟩
  | act a k ih => exact ⟨⟨h.1, h'.1⟩, fun r => ih r (h.2 r) (h'.2 r)⟩

theorem Along.bind {f : α → Prog S β} {Q : β → Journal S → Prop}
    (h : p.Along ok (fun x l' => (f x).Along ok Q l') l) : (p >>= f).Along ok Q l := by
  induction p generalizing l with
  | ret x => exact h
  | act a k ih => exact ⟨h.1, fun r => ih r (h.2 r)⟩

/-- A program whose actions are all allowed after every journal that keeps to `J`, and keep to it. -/
theorem Uses.along {allowed : S.Act → Prop} {J : Journal S → Prop} (hp : p.Uses allowed)
    (hok : ∀ a, allowed a → ∀ l, J l → ok l a)
    (hJ : ∀ a, allowed a → ∀ l, J l → ∀ r, J (l ++ [⟨a, r⟩])) (hl : J l) :
    p.Along ok (fun _ l' => J l') l := by
  induction p generalizing l with
  | ret x => exact hl
  | act a k ih => exact ⟨hok a hp.1 l hl, fun r => ih r (hp.2 r) (hJ a hp.1 l hl r)⟩

/-- Actions that are allowed at any time. -/
theorem Uses.along_always (hp : p.Uses (fun a => ∀ l, ok l a)) (l : Journal S) :
    p.Along ok (fun _ _ => True) l :=
  hp.along (fun _ ha l _ => ha l) (fun _ _ _ _ _ => trivial) trivial

theorem Along.uses {allowed : S.Act → Prop} (h : p.Along (fun _ a => allowed a) Q l) :
    p.Uses allowed := by
  induction p generalizing l with
  | ret x => trivial
  | act a k ih => exact ⟨h.1, fun r => ih r (h.2 r)⟩

theorem Along.journal_after (h : p.Along ok Q l) {s : σ} {before after : Journal S} {a : S.Act}
    {r : S.Res a} (hj : p.journal exec s = before ++ ⟨a, r⟩ :: after) : ok (l ++ before) a := by
  induction p generalizing l s before with
  | ret x => cases before <;> cases hj
  | act b k ih =>
    cases hb : exec b s with
    | none =>
      simp only [Prog.journal, hb] at hj
      cases before <;> cases hj
    | some x =>
      rw [journal_act hb] at hj
      cases before with
      | nil =>
        cases hj
        rw [List.append_nil]
        exact h.1
      | cons y before =>
        obtain ⟨rfl, htail⟩ := List.cons.inj hj
        have hok := ih x.1 (h.2 x.1) htail
        rwa [List.append_assoc, List.singleton_append] at hok

/-- Each action of a journal meets `ok` after those before it. -/
theorem Along.journal (h : p.Along ok Q []) {s : σ} {before after : Journal S} {a : S.Act}
    {r : S.Res a} (hj : p.journal exec s = before ++ ⟨a, r⟩ :: after) : ok before a :=
  h.journal_after hj

end

/-- The actions that a run comes to: those of its journal, and the one that does not return. -/
def reached (exec : Exec S σ) : Prog S α → σ → List S.Act
  | .ret _, _ => []
  | .act a k, s => a :: match exec a s with
    | none => []
    | some (r, s') => (k r).reached exec s'

section

variable {p : Prog S α} {s : σ}

theorem mem_reached_act {a b : S.Act} {k : S.Res a → Prog S α} :
    b ∈ (Prog.act a k).reached exec s ↔
      b = a ∨ ∃ r s', exec a s = some (r, s') ∧ b ∈ (k r).reached exec s' := by
  cases ha : exec a s with
  | none => simp [Prog.reached, ha]
  | some x =>
    obtain ⟨r, s'⟩ := x
    simp [Prog.reached, ha]

theorem mem_journal_act {a : S.Act} {k : S.Res a → Prog S α} {y : Σ a : S.Act, S.Res a} :
    y ∈ (Prog.act a k).journal exec s ↔
      ∃ r s', exec a s = some (r, s') ∧ (y = ⟨a, r⟩ ∨ y ∈ (k r).journal exec s') := by
  cases ha : exec a s with
  | none => simp [Prog.journal, ha]
  | some x =>
    obtain ⟨r, s'⟩ := x
    simp [Prog.journal, ha]

theorem Uses.reached {allowed : S.Act → Prop} (hp : p.Uses allowed) (s : σ) :
    ∀ a ∈ p.reached exec s, allowed a := by
  induction p generalizing s with
  | ret x => exact fun a ha => by cases ha
  | act b k ih =>
    intro a ha
    obtain rfl | ⟨r, s', _, ha⟩ := mem_reached_act.mp ha
    · exact hp.1
    · exact ih r (hp.2 r) s' a ha

theorem mem_reached_bind {f : α → Prog S β} {a : S.Act} :
    a ∈ (p >>= f).reached exec s ↔ a ∈ p.reached exec s ∨
      ∃ x s', p.run exec s = some (x, s') ∧ a ∈ (f x).reached exec s' := by
  induction p generalizing s with
  | ret x => simp [Prog.reached]
  | act b k ih =>
    cases hb : exec b s with
    | none => simp [Prog.reached, hb]
    | some x => simp [Prog.reached, hb, ih, or_assoc]

theorem mem_journal_bind {f : α → Prog S β} {y : Σ a : S.Act, S.Res a} :
    y ∈ (p >>= f).journal exec s ↔ y ∈ p.journal exec s ∨
      ∃ x s', p.run exec s = some (x, s') ∧ y ∈ (f x).journal exec s' := by
  induction p generalizing s with
  | ret x => simp [Prog.journal]
  | act b k ih =>
    cases hb : exec b s with
    | none => simp [Prog.journal, hb]
    | some x => simp [Prog.journal, hb, ih, or_assoc]

end

end PeerCompute.Interleaving.Prog
