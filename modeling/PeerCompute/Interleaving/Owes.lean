import PeerCompute.Interleaving.Commit

/-! Programs that have something to do before they return. -/

universe u v

namespace PeerCompute.Interleaving

variable {S : Signature.{u}} {α : Type u} {σ : Type v}

/-- Before the program returns something that meets `ok`, one of its actions is answered as `Good`
says, if every answer is one of `Answers`. -/
def Prog.Owes (Answers Good : (a : S.Act) → S.Res a → Prop) (ok : α → Prop) : Prog S α → Prop
  | .ret x => ¬ok x
  | .act a k => ∀ r, Answers a r → Good a r ∨ (k r).Owes Answers Good ok

namespace Pool

variable {exec : Exec S σ} {i : Nat} {Good : (a : S.Act) → S.Res a → Prop}

/-- In the schedule thread `i` gets an answer that meets `Good`: then the pool is `Q`, and `after` is
what is left of the schedule. -/
def Earns (exec : Exec S σ) (i : Nat) (Good : (a : S.Act) → S.Res a → Prop)
    (es : List (Event S α)) (P : Pool S α σ) (after : List (Event S α)) (Q : Pool S α σ) : Prop :=
  ∃ before R a k r, es = before ++ .step i :: after ∧ play exec before P = some R ∧
    R.threads[i]? = some (.act a k) ∧ exec a R.state = some (r, Q.state) ∧
    Q.threads = R.threads.set i (k r) ∧ Good a r

theorem Earns.append {es es' after : List (Event S α)} {P P' Q : Pool S α σ}
    (hplay : play exec es P = some P') (h : Earns exec i Good es' P' after Q) :
    Earns exec i Good (es ++ es') P after Q := by
  obtain ⟨before, R, a, k, r, rfl, hR, h⟩ := h
  refine ⟨es ++ before, R, a, k, r, (List.append_assoc _ _ _).symm, ?_, h⟩
  exact play_append.mpr ⟨P', hplay, hR⟩

theorem Earns.cons {e : Event S α} {es after : List (Event S α)} {P P₁ Q : Pool S α σ}
    (hnext : P.next exec e = some P₁) (h : Earns exec i Good es P₁ after Q) :
    Earns exec i Good (e :: es) P after Q := by
  have hplay : play exec [e] P = some P₁ := by
    rw [play, hnext]
    rfl
  exact Earns.append hplay h

theorem Earns.extend {es after : List (Event S α)} {P Q : Pool S α σ}
    (h : Earns exec i Good es P after Q) (es' : List (Event S α)) :
    Earns exec i Good (es ++ es') P (after ++ es') Q := by
  obtain ⟨before, R, a, k, r, rfl, h⟩ := h
  exact ⟨before, R, a, k, r, List.append_assoc _ _ _, h⟩

/-- The steps before and after the one with the answer. -/
theorem Earns.play {es after : List (Event S α)} {P P' Q : Pool S α σ}
    (h : Earns exec i Good es P after Q) (hplay : play exec es P = some P') :
    ∃ before R a k r, es = before ++ .step i :: after ∧ Pool.play exec before P = some R ∧
      R.threads[i]? = some (.act a k) ∧ exec a R.state = some (r, Q.state) ∧ Good a r ∧
      R.next exec (.step i) = some Q ∧ Pool.play exec after Q = some P' := by
  obtain ⟨before, R, a, k, r, rfl, hR, hi, hact, hQ, hgood⟩ := h
  have hnext : R.next exec (.step i) = some Q := by
    simp only [next, hi, hact, Option.map_some, ← hQ]
  obtain ⟨R', hR', hrest⟩ := play_append.mp hplay
  rw [hR] at hR'
  cases hR'
  rw [Pool.play, hnext] at hrest
  exact ⟨before, R, a, k, r, rfl, hR, hi, hact, hgood, hnext, hrest⟩

/-- A thread that owes an answer still owes it at the end of a schedule, or it has got it. -/
theorem owes_or_earns {Answers : (a : S.Act) → S.Res a → Prop} {ok : α → Prop}
    (hans : ∀ {a s r s'}, exec a s = some (r, s') → Answers a r) {es : List (Event S α)}
    {P P' : Pool S α σ} {p : Prog S α} (hp : P.threads[i]? = some p)
    (howes : p.Owes Answers Good ok) (h : play exec es P = some P') :
    (∃ p', P'.threads[i]? = some p' ∧ p'.Owes Answers Good ok) ∨
      ∃ after Q, Earns exec i Good es P after Q := by
  induction es generalizing P p with
  | nil =>
    cases h
    exact .inl ⟨p, hp, howes⟩
  | cons e es ih =>
    obtain ⟨P₁, hP₁, hes⟩ := Option.bind_eq_some_iff.mp h
    by_cases he : e = .step i
    · subst he
      obtain ⟨a, k, r, s, hi, hact, rfl⟩ := next_step hP₁
      rw [hp] at hi
      cases hi
      obtain hgood | howes := howes r (hans hact)
      · exact .inr ⟨es, ⟨s, P.threads.set i (k r)⟩, [], P, a, k, r, rfl, rfl, hp, hact, rfl, hgood⟩
      · have hthread : (P.threads.set i (k r))[i]? = some (k r) := by
          rw [List.getElem?_set_self', hp]
          rfl
        obtain hend | ⟨after, Q, hearns⟩ := ih hthread howes hes
        · exact .inl hend
        · exact .inr ⟨after, Q, .cons hP₁ hearns⟩
    · obtain hend | ⟨after, Q, hearns⟩ := ih (next_other he hp hP₁) howes hes
      · exact .inl hend
      · exact .inr ⟨after, Q, .cons hP₁ hearns⟩

end Pool

end PeerCompute.Interleaving
