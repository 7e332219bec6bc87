import PeerCompute.Interleaving.Prog

/-! Two programs that are run on two machines. -/

universe u v w

namespace PeerCompute.Interleaving

theorem rel_imp {X : Type u} {Y : Type v} {R R' : X → Y → Prop} (himp : ∀ x y, R x y → R' x y) :
    {x : Option X} → {y : Option Y} → Option.Rel R x y → Option.Rel R' x y
  | _, _, .some h => .some (himp _ _ h)
  | _, _, .none => .none

theorem rel_bind {X : Type u} {Y : Type v} {Z : Type u} {W : Type v} {R : X → Y → Prop}
    {R' : Z → W → Prop} {f : X → Option Z} {g : Y → Option W}
    (hbind : ∀ x y, R x y → Option.Rel R' (f x) (g y)) :
    {x : Option X} → {y : Option Y} → Option.Rel R x y → Option.Rel R' (x.bind f) (y.bind g)
  | _, _, .some h => hbind _ _ h
  | _, _, .none => .none

namespace Prog

variable {S : Signature.{u}} {α β γ δ : Type u} {σ : Type v} {τ : Type v} {exec : Exec S σ}
  {exec' : Exec S τ}

/-- Both programs return and `Q` relates what they leave, or neither does. -/
def Couples (exec : Exec S σ) (exec' : Exec S τ) (p : Prog S α) (q : Prog S β) (s : σ) (t : τ)
    (Q : α → σ → β → τ → Prop) : Prop :=
  Option.Rel (fun x y => Q x.1 x.2 y.1 y.2) (p.run exec s) (q.run exec' t)

theorem couples_ret {x : α} {y : β} {s : σ} {t : τ} {Q : α → σ → β → τ → Prop} (h : Q x s y t) :
    Couples exec exec' (.ret x) (.ret y) s t Q :=
  .some h

theorem couples_act {a b : S.Act} {k : S.Res a → Prog S α} {k' : S.Res b → Prog S β} {s : σ} {t : τ}
    {Q : α → σ → β → τ → Prop}
    (h : Option.Rel (fun x y => Couples exec exec' (k x.1) (k' y.1) x.2 y.2 Q) (exec a s)
      (exec' b t)) :
    Couples exec exec' (.act a k) (.act b k') s t Q :=
  rel_bind (fun _ _ hk => hk) h

/-- An action of each program, with known answers. -/
theorem couples_perform {a b : S.Act} {x : S.Res a} {y : S.Res b} {s m : σ} {t n : τ}
    (ha : exec a s = some (x, m)) (hb : exec' b t = some (y, n)) {k : S.Res a → Prog S α}
    {k' : S.Res b → Prog S β} {Q : α → σ → β → τ → Prop}
    (h : Couples exec exec' (k x) (k' y) m n Q) :
    Couples exec exec' (.act a k) (.act b k') s t Q := by
  refine couples_act ?_
  rw [ha, hb]
  exact .some h

theorem Couples.mono {p : Prog S α} {q : Prog S β} {s : σ} {t : τ} {Q Q' : α → σ → β → τ → Prop}
    (h : Couples exec exec' p q s t Q) (hQ : ∀ x s' y t', Q x s' y t' → Q' x s' y t') :
    Couples exec exec' p q s t Q' :=
  rel_imp (fun x y hxy => hQ x.1 x.2 y.1 y.2 hxy) h

theorem run_bind (p : Prog S α) (f : α → Prog S β) (s : σ) :
    (p >>= f).run exec s = (p.run exec s).bind (fun x => (f x.1).run exec x.2) := by
  induction p generalizing s with
  | ret x => rfl
  | act a k ih =>
    rw [act_bind, run_act, run_act, Option.bind_assoc]
    exact congrArg (Option.bind (exec a s)) (funext fun x => ih x.1 x.2)

theorem Couples.bind {p : Prog S α} {q : Prog S β} {f : α → Prog S γ} {g : β → Prog S δ} {s : σ}
    {t : τ} {Q : γ → σ → δ → τ → Prop}
    (h : Couples exec exec' p q s t (fun x s' y t' => Couples exec exec' (f x) (g y) s' t' Q)) :
    Couples exec exec' (p >>= f) (q >>= g) s t Q := by
  unfold Couples
  rw [run_bind, run_bind]
  exact rel_bind (fun _ _ hfg => hfg) h

/-- A part of each program that returns what is known. -/
theorem couples_run {p : Prog S α} {q : Prog S β} {x : α} {y : β} {s m : σ} {t n : τ}
    (hp : p.run exec s = some (x, m)) (hq : q.run exec' t = some (y, n)) {f : α → Prog S γ}
    {g : β → Prog S δ} {Q : γ → σ → δ → τ → Prop} (h : Couples exec exec' (f x) (g y) m n Q) :
    Couples exec exec' (p >>= f) (q >>= g) s t Q := by
  refine Couples.bind ?_
  unfold Couples at *
  rw [hp, hq]
  exact .some h

/-- The same program on machines that answer its actions alike, in states that are related. -/
theorem Uses.couples {allowed : S.Act → Prop} {R : σ → τ → Prop}
    (hstep : ∀ a, allowed a → ∀ s t, R s t →
      Option.Rel (fun x y => x.1 = y.1 ∧ R x.2 y.2) (exec a s) (exec' a t))
    {p : Prog S α} (hp : p.Uses allowed) {s : σ} {t : τ} (h : R s t) :
    Couples exec exec' p p s t (fun x s' y t' => x = y ∧ R s' t') := by
  induction p generalizing s t with
  | ret x => exact couples_ret ⟨rfl, h⟩
  | act a k ih =>
    refine couples_act (rel_imp (fun x y hxy => ?_) (hstep a hp.1 s t h))
    rw [← hxy.1]
    exact ih x.1 (hp.2 x.1) hxy.2

theorem Couples.run_eq {exec' : Exec S σ} {p q : Prog S α} {s : σ}
    (h : Couples exec exec' p q s s (fun x s' y t' => x = y ∧ s' = t')) :
    p.run exec s = q.run exec' s := by
  unfold Couples at h
  generalize p.run exec s = x at h
  generalize q.run exec' s = y at h
  cases h with
  | some h => exact congrArg some (Prod.ext h.1 h.2)
  | none => rfl

theorem Couples.result_eq {p q : Prog S α} {s : σ} {t : τ}
    (h : Couples exec exec' p q s t (fun x _ y _ => x = y)) :
    (p.run exec s).map Prod.fst = (q.run exec' t).map Prod.fst := by
  unfold Couples at h
  generalize p.run exec s = x at h
  generalize q.run exec' t = y at h
  cases h with
  | some h => exact congrArg some h
  | none => rfl

end Prog

end PeerCompute.Interleaving
