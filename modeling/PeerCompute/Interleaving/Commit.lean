import PeerCompute.Interleaving.Pool
import PeerCompute.Interleaving.Steps

/-! Threads that change the machine in a single step. -/

universe u v

namespace PeerCompute.Interleaving.Pool

variable {S : Signature.{u}} {α : Type u} {σ : Type v} {exec : Exec S σ} {i : Nat}

/-- Thread `i` leaves the machine as it is, whatever the others do. -/
def Passive (exec : Exec S σ) (i : Nat) : List (Event S α) → Pool S α σ → Prop :=
  Step.Along (next exec) (fun P e => e = .step i → ∀ P', P.next exec e = some P' →
    P'.state = P.state)

/-- Somewhere in the schedule thread `i` takes a step that meets `C`, and it has been passive until
then. -/
def Commits (exec : Exec S σ) (i : Nat) (C : Pool S α σ → Pool S α σ → Prop)
    (es : List (Event S α)) (P P' : Pool S α σ) : Prop :=
  ∃ before after Q Q', es = before ++ .step i :: after ∧ Passive exec i before P ∧
    play exec before P = some Q ∧ Q.next exec (.step i) = some Q' ∧ C Q Q' ∧
    play exec after Q' = some P'

theorem Commits.cons {C : Pool S α σ → Pool S α σ → Prop} {e : Event S α} {es : List (Event S α)}
    {P P₁ P' : Pool S α σ} (hnext : P.next exec e = some P₁)
    (he : e = .step i → P₁.state = P.state) (h : Commits exec i C es P₁ P') :
    Commits exec i C (e :: es) P P' := by
  obtain ⟨before, after, Q, Q', rfl, hpassive, hQ, hstep, hC, hafter⟩ := h
  refine ⟨e :: before, after, Q, Q', rfl, ⟨?_, ?_⟩, ?_, hstep, hC, hafter⟩
  · intro hi P₂ hP₂
    rw [hnext] at hP₂
    cases hP₂
    exact he hi
  · intro P₂ hP₂
    rw [hnext] at hP₂
    cases hP₂
    exact hpassive
  · rw [play, hnext]
    exact hQ

theorem next_other {e : Event S α} {P P' : Pool S α σ} {t : Prog S α} (he : e ≠ .step i)
    (ht : P.threads[i]? = some t) (h : P.next exec e = some P') : P'.threads[i]? = some t := by
  cases e with
  | start p =>
    cases h
    rw [List.getElem?_append_left (List.getElem?_eq_some_iff.mp ht).1, ht]
  | step j =>
    obtain ⟨a, k, r, s, -, -, rfl⟩ := next_step h
    have hij : j ≠ i := fun hji => he (hji ▸ rfl)
    rw [List.getElem?_set_ne hij, ht]

/-- A thread whose steps either change nothing and leave it waiting or commit does one or the other
in every schedule. -/
theorem waits_or_commits {Waiting : Prog S α → Prop} {C : Pool S α σ → Pool S α σ → Prop}
    (hstep : ∀ {P P' : Pool S α σ} {t}, P.threads[i]? = some t → Waiting t →
      P.next exec (.step i) = some P' →
      (P'.state = P.state ∧ ∃ t', P'.threads[i]? = some t' ∧ Waiting t') ∨ C P P')
    {es : List (Event S α)} {P P' : Pool S α σ} {t : Prog S α} (ht : P.threads[i]? = some t)
    (hw : Waiting t) (h : play exec es P = some P') :
    (Passive exec i es P ∧ ∃ t', P'.threads[i]? = some t' ∧ Waiting t') ∨
      Commits exec i C es P P' := by
  induction es generalizing P t with
  | nil =>
    cases h
    exact .inl ⟨trivial, t, ht, hw⟩
  | cons e es ih =>
    obtain ⟨P₁, hP₁, hes⟩ := Option.bind_eq_some_iff.mp h
    -- a step that does not commit is put in front of what the rest of the schedule does
    have hrest (hkeep : e = .step i → P₁.state = P.state) {t' : Prog S α}
        (ht' : P₁.threads[i]? = some t') (hw' : Waiting t') :
        (Passive exec i (e :: es) P ∧ ∃ t', P'.threads[i]? = some t' ∧ Waiting t') ∨
          Commits exec i C (e :: es) P P' := by
      obtain ⟨hpassive, hend⟩ | hcommits := ih ht' hw' hes
      · refine .inl ⟨⟨?_, ?_⟩, hend⟩
        · intro hi P₂ hP₂
          rw [hP₁] at hP₂
          cases hP₂
          exact hkeep hi
        · intro P₂ hP₂
          rw [hP₁] at hP₂
          cases hP₂
          exact hpassive
      · exact .inr (hcommits.cons hP₁ hkeep)
    by_cases he : e = .step i
    · subst he
      obtain ⟨hkeep, t', ht', hw'⟩ | hC := hstep ht hw hP₁
      · exact hrest (fun _ => hkeep) ht' hw'
      · exact .inr ⟨[], es, P, P₁, rfl, trivial, rfl, hP₁, hC, hes⟩
    · exact hrest (fun hi => absurd hi he) (next_other he ht hP₁) hw

end PeerCompute.Interleaving.Pool
