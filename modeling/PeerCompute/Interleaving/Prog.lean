import Mathlib.Logic.Basic

/-! Programs over a signature of atomic actions.  A program is a tree of actions
whose branching is the answer of each action, so one definition serves both the
sequential semantics below and the interleaved one of a thread pool. -/

universe u v

namespace PeerCompute.Interleaving

/-- The atomic actions of a machine, each with the type of its answers. -/
structure Signature where
  Act : Type u
  Res : Act → Type u

inductive Prog (S : Signature.{u}) (α : Type u) : Type u
  | ret : α → Prog S α
  | act : (a : S.Act) → (S.Res a → Prog S α) → Prog S α

/-- How a machine with states `σ` answers an action.  `none` is an action that
never returns: a crash or an endless loop. -/
abbrev Exec (S : Signature.{u}) (σ : Type v) := (a : S.Act) → σ → Option (S.Res a × σ)

namespace Prog

variable {S : Signature.{u}} {α β γ : Type u} {σ : Type v}

def bind : Prog S α → (α → Prog S β) → Prog S β
  | .ret x, f => f x
  | .act a k, f => .act a (fun r => (k r).bind f)

instance : Monad (Prog S) where
  pure := .ret
  bind := bind

def perform (a : S.Act) : Prog S (S.Res a) := .act a .ret

@[simp] theorem pure_eq (x : α) : (pure x : Prog S α) = .ret x := rfl

@[simp] theorem ret_bind (x : α) (f : α → Prog S β) : (Prog.ret x >>= f) = f x := rfl

@[simp] theorem act_bind (a : S.Act) (k : S.Res a → Prog S α) (f : α → Prog S β) :
    (Prog.act a k >>= f) = .act a (fun r => k r >>= f) := rfl

@[simp] theorem perform_bind (a : S.Act) (f : S.Res a → Prog S β) :
    (perform a >>= f) = .act a f := rfl

theorem bind_assoc (p : Prog S α) (f : α → Prog S β) (g : β → Prog S γ) :
    ((p >>= f) >>= g) = (p >>= fun x => f x >>= g) := by
  induction p with
  | ret x => rfl
  | act a k ih =>
    simp only [act_bind]
    congr 1
    funext r
    exact ih r

/-- The sequential semantics: the program runs alone from `s`. -/
def run (exec : Exec S σ) : Prog S α → σ → Option (α × σ)
  | .ret x, s => some (x, s)
  | .act a k, s => (exec a s).bind (fun x => (k x.1).run exec x.2)

@[simp] theorem run_ret (exec : Exec S σ) (x : α) (s : σ) :
    (Prog.ret x : Prog S α).run exec s = some (x, s) := rfl

@[simp] theorem run_act (exec : Exec S σ) (a : S.Act) (k : S.Res a → Prog S α) (s : σ) :
    (Prog.act a k).run exec s = (exec a s).bind (fun x => (k x.1).run exec x.2) := rfl

/-- An action whose answer is known. -/
theorem run_perform {exec : Exec S σ} {a : S.Act} {x : S.Res a} {s s' : σ}
    (h : exec a s = some (x, s')) (f : S.Res a → Prog S α) :
    (perform a >>= f).run exec s = (f x).run exec s' := by
  rw [perform_bind, run_act, h, Option.bind_some]

/-- An action that returns, and a program that returns after it. -/
theorem returns_perform {exec : Exec S σ} {a : S.Act} {x : S.Res a} {s s' : σ}
    (h : exec a s = some (x, s')) {f : S.Res a → Prog S α} (hf : ∃ y, (f x).run exec s' = some y) :
    ∃ y, (perform a >>= f).run exec s = some y := by
  rw [run_perform h]
  exact hf

/-- `Q` holds of the answer and the state whenever the program returns. -/
@[irreducible] def Leads (exec : Exec S σ) (p : Prog S α) (s : σ) (Q : α → σ → Prop) : Prop :=
  ∀ x s', p.run exec s = some (x, s') → Q x s'

theorem leads_iff {exec : Exec S σ} {p : Prog S α} {s : σ} {Q : α → σ → Prop} :
    Leads exec p s Q ↔ ∀ x s', p.run exec s = some (x, s') → Q x s' := by
  unfold Leads
  rfl

@[simp] theorem leads_ret {exec : Exec S σ} {x : α} {s : σ} {Q : α → σ → Prop} :
    Leads exec (.ret x) s Q ↔ Q x s := by
  rw [leads_iff]
  constructor
  · intro h
    exact h x s rfl
  · intro h y s' hr
    cases hr
    exact h

theorem leads_act {exec : Exec S σ} {a : S.Act} {k : S.Res a → Prog S α} {s : σ}
    {Q : α → σ → Prop} :
    Leads exec (.act a k) s Q ↔ ∀ r s', exec a s = some (r, s') → Leads exec (k r) s' Q := by
  simp only [leads_iff]
  constructor
  · intro h r s' ha x s'' hr
    exact h x s'' (by rw [run_act, ha]; exact hr)
  · intro h x s'' hr
    rw [run_act, Option.bind_eq_some_iff] at hr
    obtain ⟨⟨r, s'⟩, ha, hr⟩ := hr
    exact h r s' ha x s'' hr

theorem leads_perform {exec : Exec S σ} {a : S.Act} {x : S.Res a} {s s' : σ}
    (h : exec a s = some (x, s')) {f : S.Res a → Prog S α} {Q : α → σ → Prop} :
    Leads exec (perform a >>= f) s Q ↔ Leads exec (f x) s' Q := by
  rw [leads_iff, leads_iff, run_perform h]

theorem Leads.mono {exec : Exec S σ} {p : Prog S α} {s : σ} {Q Q' : α → σ → Prop}
    (h : Leads exec p s Q) (hq : ∀ x s', Q x s' → Q' x s') : Leads exec p s Q' :=
  leads_iff.mpr (fun x s' hr => hq x s' (leads_iff.mp h x s' hr))

theorem Leads.bind {exec : Exec S σ} {p : Prog S α} {f : α → Prog S β} {s : σ}
    {Q : β → σ → Prop} (h : Leads exec p s (fun x s' => Leads exec (f x) s' Q)) :
    Leads exec (p >>= f) s Q := by
  induction p generalizing s with
  | ret x =>
    rw [leads_ret] at h
    exact h
  | act a k ih =>
    refine leads_act.mpr (fun r s' ha => ih r ?_)
    exact leads_act.mp h r s' ha

/-- Every action of the program is an allowed one, whatever the answers. -/
def Uses (allowed : S.Act → Prop) : Prog S α → Prop
  | .ret _ => True
  | .act a k => allowed a ∧ ∀ r, (k r).Uses allowed

@[simp] theorem uses_ret {allowed : S.Act → Prop} {x : α} :
    (Prog.ret x : Prog S α).Uses allowed := trivial

@[simp] theorem uses_act {allowed : S.Act → Prop} {a : S.Act} {k : S.Res a → Prog S α} :
    (Prog.act a k).Uses allowed ↔ allowed a ∧ ∀ r, (k r).Uses allowed := Iff.rfl

theorem uses_perform {allowed : S.Act → Prop} {a : S.Act} {f : S.Res a → Prog S α} :
    (perform a >>= f).Uses allowed ↔ allowed a ∧ ∀ r, (f r).Uses allowed := Iff.rfl

theorem Uses.mono {allowed allowed' : S.Act → Prop} (h : ∀ a, allowed a → allowed' a)
    {p : Prog S α} (hp : p.Uses allowed) : p.Uses allowed' := by
  induction p with
  | ret x => trivial
  | act a k ih => exact ⟨h a hp.1, fun r => ih r (hp.2 r)⟩

theorem Uses.bind {allowed : S.Act → Prop} {p : Prog S α} {f : α → Prog S β}
    (hp : p.Uses allowed) (hf : ∀ x, (f x).Uses allowed) : (p >>= f).Uses allowed := by
  induction p with
  | ret x => exact hf x
  | act a k ih => exact ⟨hp.1, fun r => ih r (hp.2 r)⟩

/-- A preorder kept by every allowed action is kept by the whole program. -/
theorem Uses.leads {allowed : S.Act → Prop} {exec : Exec S σ} {R : σ → σ → Prop}
    (hrefl : ∀ s, R s s) (htrans : ∀ {s t u}, R s t → R t u → R s u)
    (hkeep : ∀ a, allowed a → ∀ s r s', exec a s = some (r, s') → R s s')
    {p : Prog S α} (hp : p.Uses allowed) (s : σ) : Leads exec p s (fun _ s' => R s s') := by
  induction p generalizing s with
  | ret x => exact leads_ret.mpr (hrefl s)
  | act a k ih =>
    refine leads_act.mpr (fun r s' ha => ?_)
    exact (ih r (hp.2 r) s').mono (fun _ _ h => htrans (hkeep a hp.1 s r s' ha) h)

/-- A program all of whose actions return in every state returns. -/
theorem Uses.returns {allowed : S.Act → Prop} {exec : Exec S σ}
    (htotal : ∀ a, allowed a → ∀ s, ∃ x, exec a s = some x) {p : Prog S α} (hp : p.Uses allowed)
    (s : σ) : ∃ x, p.run exec s = some x := by
  induction p generalizing s with
  | ret x => exact ⟨(x, s), rfl⟩
  | act a k ih =>
    obtain ⟨⟨r, s'⟩, ha⟩ := htotal a hp.1 s
    obtain ⟨x, hx⟩ := ih r (hp.2 r) s'
    exact ⟨x, by rw [run_act, ha]; exact hx⟩

end Prog

end PeerCompute.Interleaving
