import PeerCompute.Interleaving.Pool
import PeerCompute.Interleaving.Steps

/-! A machine that is held to a condition: a step that would break it is not taken.  What is proved
of the guarded machine holds of every schedule of the machine itself that keeps to the condition. -/

universe u v

namespace PeerCompute.Interleaving

variable {S : Signature.{u}} {α : Type u} {σ : Type v}

open Classical in
/-- Only the actions whose answers meet `ok` return. -/
noncomputable def guarded (exec : Exec S σ) (ok : (a : S.Act) → σ → S.Res a → Prop) : Exec S σ :=
  fun a s => (exec a s).filter (fun x => ok a s x.1)

theorem guarded_eq_some {exec : Exec S σ} {ok : (a : S.Act) → σ → S.Res a → Prop} {a : S.Act}
    {s s' : σ} {r : S.Res a} :
    guarded exec ok a s = some (r, s') ↔ exec a s = some (r, s') ∧ ok a s r := by
  simp [guarded, Option.filter_eq_some_iff]

/-- The next step of thread `i` meets `ok`. -/
def Pool.Obeys (exec : Exec S σ) (ok : (a : S.Act) → σ → S.Res a → Prop) (P : Pool S α σ)
    (i : Nat) : Prop :=
  ∀ a k, P.threads[i]? = some (.act a k) → ∀ r s', exec a P.state = some (r, s') → ok a P.state r

instance Pool.decidableObeys (exec : Exec S σ) (ok : (a : S.Act) → σ → S.Res a → Prop)
    [∀ a s r, Decidable (ok a s r)] (P : Pool S α σ) (i : Nat) : Decidable (P.Obeys exec ok i) :=
  match hi : P.threads[i]? with
  | none => .isTrue (fun a k h => by rw [hi] at h; cases h)
  | some (.ret x) => .isTrue (fun a k h => by rw [hi] at h; cases h)
  | some (.act a k) => match hx : exec a P.state with
    | none => .isTrue (fun a' k' h r s' hr => by
        rw [hi] at h
        cases h
        rw [hx] at hr
        cases hr)
    | some (r, s') => decidable_of_iff (ok a P.state r)
        ⟨fun hok a' k' h r' s'' hr => by
          rw [hi] at h
          cases h
          rw [hx] at hr
          cases hr
          exact hok, fun hok => hok a k hi r s' hx⟩

theorem Pool.Obeys.next {exec : Exec S σ} {ok : (a : S.Act) → σ → S.Res a → Prop}
    {P P' : Pool S α σ} {i : Nat} (hok : P.Obeys exec ok i)
    (h : P.next exec (.step i) = some P') : P.next (guarded exec ok) (.step i) = some P' := by
  obtain ⟨a, k, r, s, hi, hact, rfl⟩ := Pool.next_step h
  have hguard := guarded_eq_some.mpr ⟨hact, hok a k hi r s hact⟩
  simp only [Pool.next, hi, hguard, Option.map_some]

/-- The event meets `ok`: starting a program always does. -/
def Pool.Keeps (exec : Exec S σ) (ok : (a : S.Act) → σ → S.Res a → Prop) (P : Pool S α σ) :
    Pool.Event S α → Prop
  | .start _ => True
  | .step i => P.Obeys exec ok i

instance Pool.decidableKeeps (exec : Exec S σ) (ok : (a : S.Act) → σ → S.Res a → Prop)
    [∀ a s r, Decidable (ok a s r)] (P : Pool S α σ) : (e : Pool.Event S α) →
    Decidable (P.Keeps exec ok e)
  | .start _ => .isTrue trivial
  | .step i => Pool.decidableObeys exec ok P i

/-- A schedule of the machine that keeps to the condition is one of the guarded machine. -/
theorem Pool.play_guarded {exec : Exec S σ} {ok : (a : S.Act) → σ → S.Res a → Prop}
    {es : List (Pool.Event S α)} {P P' : Pool S α σ}
    (hok : Step.Along (Pool.next exec) (Pool.Keeps exec ok) es P)
    (h : P.play exec es = some P') : P.play (guarded exec ok) es = some P' := by
  induction es generalizing P with
  | nil => exact h
  | cons e es ih =>
    obtain ⟨Q, hQ, h⟩ := Option.bind_eq_some_iff.mp h
    have hnext : P.next (guarded exec ok) e = some Q := by
      cases e with
      | start p => exact hQ
      | step i => exact Pool.Obeys.next hok.1 hQ
    exact Option.bind_eq_some_iff.mpr ⟨Q, hnext, ih (hok.2 Q hQ) h⟩

end PeerCompute.Interleaving
