import PeerCompute.Interleaving.History

/-! Package `retry`: a loop over a function that may fail. -/

namespace PeerCompute.Retry

open PeerCompute.Interleaving Prog

/-- What the loop asks of its context: whether it is done, and the sleep after an attempt, which is
cut short if it gets done. -/
structure Context (S : Signature) where
  err : Prog S Bool
  sleep : Nat → Prog S Bool

/-- The result of `Do`; a loop that is still `running` has used up its fuel. -/
inductive Outcome (ε : Type)
  | returned (err : Option ε)
  | cancelled
  | running
  deriving DecidableEq

variable {S : Signature.{0}} {γ ε : Type}

/-- The loop of `Do` from an attempt on.  `x` are the variables that `fn` captures, and `last` is
the error of the attempt before; no attempt is the last one if `maxAttempts` is zero. -/
def loop (maxAttempts : Nat) (ctx : Context S) (fn : γ → Prog S (γ × Option ε)) :
    (fuel attempt : Nat) → (last : Option ε) → γ → Prog S (γ × Outcome ε)
  | 0, _, _, x => return (x, .running)
  | fuel + 1, attempt, last, x =>
    if maxAttempts = 0 ∨ attempt < maxAttempts then do
      let (x, err) ← fn x
      match err with
      | none => return (x, .returned none)
      | some e =>
        if ← ctx.err then return (x, .cancelled)
        else if 0 < maxAttempts ∧ maxAttempts - 1 ≤ attempt then return (x, .returned (some e))
        else if ← ctx.sleep attempt then return (x, .cancelled)
        else loop maxAttempts ctx fn fuel (attempt + 1) (some e) x
    else return (x, .returned last)

section

variable {maxAttempts : Nat} {ctx : Context S} {fn : γ → Prog S (γ × Option ε)}

/-- What holds of every `return` and is kept by `>>=` holds of the loop. -/
theorem loop_closed {C : {α : Type} → Prog S α → Prop} (hret : ∀ {α} (x : α), C (.ret x))
    (hbind : ∀ {α β} {p : Prog S α} {f : α → Prog S β}, C p → (∀ x, C (f x)) → C (p >>= f))
    (hfn : ∀ x, C (fn x)) (herr : C ctx.err) (hsleep : ∀ n, C (ctx.sleep n))
    (fuel attempt : Nat) (last : Option ε) (x : γ) : C (loop maxAttempts ctx fn fuel attempt last x) := by
  induction fuel generalizing attempt last x with
  | zero => exact hret _
  | succ fuel ih =>
    unfold loop
    split
    · refine hbind (hfn x) (fun y => ?_)
      obtain ⟨y, err⟩ := y
      cases err with
      | none => exact hret _
      | some e =>
        refine hbind herr (fun done => ?_)
        split
        · exact hret _
        · split
          · exact hret _
          · refine hbind (hsleep attempt) (fun done => ?_)
            split
            · exact hret _
            · exact ih _ _ _
    · exact hret _

theorem uses_loop {allowed : S.Act → Prop} (hfn : ∀ x, (fn x).Uses allowed)
    (herr : ctx.err.Uses allowed) (hsleep : ∀ n, (ctx.sleep n).Uses allowed)
    (fuel attempt : Nat) (last : Option ε) (x : γ) :
    (loop maxAttempts ctx fn fuel attempt last x).Uses allowed :=
  loop_closed (C := fun p => p.Uses allowed) (fun _ => trivial) (fun hp hf => hp.bind hf) hfn herr
    hsleep fuel attempt last x

/-- What the captured variables and the journal keep to after so many calls of `fn`. -/
theorem along_loop {ok : Journal S → S.Act → Prop} {J : Nat → γ → Journal S → Prop}
    (hfn : ∀ n x l, maxAttempts = 0 ∨ n < maxAttempts → J n x l →
      (fn x).Along ok (fun y => J (n + 1) y.1) l)
    (herr : ∀ n x l, J n x l → ctx.err.Along ok (fun _ => J n x) l)
    (hsleep : ∀ m n x l, J n x l → (ctx.sleep m).Along ok (fun _ => J n x) l)
    (fuel attempt : Nat) (last : Option ε) {x : γ} {l : Journal S} (hl : J attempt x l) :
    (loop maxAttempts ctx fn fuel attempt last x).Along ok (fun y l => ∃ n, J n y.1 l) l := by
  induction fuel generalizing attempt last x l with
  | zero => exact ⟨attempt, hl⟩
  | succ fuel ih =>
    unfold loop
    split
    next hattempt =>
      refine Along.bind ((hfn attempt x l hattempt hl).mono (fun y l hl => ?_))
      obtain ⟨y, err⟩ := y
      cases err with
      | none => exact ⟨_, hl⟩
      | some e =>
        refine Along.bind ((herr _ y l hl).mono (fun done l hl => ?_))
        split
        · exact ⟨_, hl⟩
        · split
          · exact ⟨_, hl⟩
          · refine Along.bind ((hsleep attempt _ y l hl).mono (fun done l hl => ?_))
            split
            · exact ⟨_, hl⟩
            · exact ih _ _ hl
    next => exact ⟨_, hl⟩

/-- A loop that has returned does not depend on the fuel. -/
theorem runs_loop_succ {σ : Type} {exec : Exec S σ} {fuel attempt : Nat} {last : Option ε} {x : γ}
    {y : γ × Outcome ε} {s t : σ} {l : Journal S}
    (h : Runs exec (loop maxAttempts ctx fn fuel attempt last x) s y t l) (hy : y.2 ≠ .running) :
    Runs exec (loop maxAttempts ctx fn (fuel + 1) attempt last x) s y t l := by
  induction fuel generalizing attempt last x s l with
  | zero =>
    obtain ⟨rfl, -⟩ := runs_ret.mp h
    exact absurd rfl hy
  | succ fuel ih =>
    rw [loop] at h ⊢
    split at h
    next hentry =>
      rw [if_pos hentry]
      refine h.bind_mono (fun z u after h => ?_)
      obtain ⟨x, err⟩ := z
      cases err with
      | none => exact h
      | some e =>
        refine h.bind_mono (fun done u after h => ?_)
        cases done with
        | true => exact h
        | false =>
          by_cases hlast : 0 < maxAttempts ∧ maxAttempts - 1 ≤ attempt
          · simpa only [if_pos hlast] using h
          · simp only [if_neg hlast] at h ⊢
            refine h.bind_mono (fun done u after h => ?_)
            cases done with
            | true => exact h
            | false => exact ih h
    next hentry =>
      rw [if_neg hentry]
      exact h

end

end PeerCompute.Retry
