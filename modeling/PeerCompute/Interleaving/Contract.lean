import Mathlib.Data.List.Forall2
import Mathlib.Order.Defs.PartialOrder
import PeerCompute.Interleaving.Pool

/-! Contracts between the programs of a pool.  The pool has a world, which only grows, and each
thread a ghost value of its own; an action may be performed when the contract has a move for it,
which says what becomes of both.  A program follows the contract if it has a move for each of its
actions, whatever the other threads have done to the world in the meantime. -/

universe u v w

namespace PeerCompute.Interleaving

structure Contract (S : Signature.{u}) (W : Type v) (G : Type w) where
  /-- The answers an action can have in a world. -/
  Answers : W → (a : S.Act) → S.Res a → Prop
  Move : W → G → (a : S.Act) → S.Res a → W → G → Prop
  /-- The ghost values with which a thread may end. -/
  Done : G → Prop

/-- The world of a contract that has nothing to remember. -/
inductive Still
  | still

instance instPreorderStill : Preorder Still where
  le _ _ := True
  le_refl _ := trivial
  le_trans _ _ _ _ _ := trivial

namespace Contract

variable {S : Signature.{u}} {W : Type v} [Preorder W] {G : Type w} {α β : Type u} {σ : Type*}

def Follows (C : Contract S W G) : W → G → Prog S α → Prop
  | _, g, .ret _ => C.Done g
  | w, g, .act a k => ∀ w', w ≤ w' → ∀ r, C.Answers w' a r →
    ∃ w'' g', C.Move w' g a r w'' g' ∧ C.Follows w'' g' (k r)

variable {C : Contract S W G} {w w' : W} {g : G}

theorem follows_ret {x : α} : C.Follows w g (.ret x) ↔ C.Done g := Iff.rfl

theorem follows_act {a : S.Act} {k : S.Res a → Prog S α} :
    C.Follows w g (.act a k) ↔ ∀ w', w ≤ w' → ∀ r, C.Answers w' a r →
      ∃ w'' g', C.Move w' g a r w'' g' ∧ C.Follows w'' g' (k r) := Iff.rfl

attribute [irreducible] Follows

theorem follows_perform {a : S.Act} {f : S.Res a → Prog S α} :
    C.Follows w g (Prog.perform a >>= f) ↔ ∀ w', w ≤ w' → ∀ r, C.Answers w' a r →
      ∃ w'' g', C.Move w' g a r w'' g' ∧ C.Follows w'' g' (f r) := follows_act

/-- The program follows the contract, and `Q` holds of its ghost value and its answer when it
returns. -/
def Delivers (C : Contract S W G) (Q : G → α → Prop) : W → G → Prog S α → Prop
  | _, g, .ret x => Q g x
  | w, g, .act a k => ∀ w', w ≤ w' → ∀ r, C.Answers w' a r →
    ∃ w'' g', C.Move w' g a r w'' g' ∧ C.Delivers Q w'' g' (k r)

variable {Q : G → α → Prop}

theorem delivers_ret {x : α} : C.Delivers Q w g (.ret x) ↔ Q g x := Iff.rfl

theorem delivers_act {a : S.Act} {k : S.Res a → Prog S α} :
    C.Delivers Q w g (.act a k) ↔ ∀ w', w ≤ w' → ∀ r, C.Answers w' a r →
      ∃ w'' g', C.Move w' g a r w'' g' ∧ C.Delivers Q w'' g' (k r) := Iff.rfl

attribute [irreducible] Delivers

theorem delivers_perform {a : S.Act} {f : S.Res a → Prog S α} :
    C.Delivers Q w g (Prog.perform a >>= f) ↔ ∀ w', w ≤ w' → ∀ r, C.Answers w' a r →
      ∃ w'' g', C.Move w' g a r w'' g' ∧ C.Delivers Q w'' g' (f r) := delivers_act

theorem follows_iff_delivers {p : Prog S α} :
    C.Follows w g p ↔ C.Delivers (fun g _ => C.Done g) w g p := by
  induction p generalizing w g with
  | ret x => rw [follows_ret, delivers_ret]
  | act a k ih => simp only [follows_act, delivers_act, ih]

theorem Delivers.mono {p : Prog S α} (h : C.Delivers Q w g p) (hw : w ≤ w') :
    C.Delivers Q w' g p := by
  cases p with
  | ret x => exact delivers_ret.mpr (delivers_ret.mp h)
  | act a k => exact delivers_act.mpr (fun w'' hw'' => delivers_act.mp h w'' (le_trans hw hw''))

theorem Follows.mono {p : Prog S α} (h : C.Follows w g p) (hw : w ≤ w') : C.Follows w' g p :=
  follows_iff_delivers.mpr ((follows_iff_delivers.mp h).mono hw)

theorem Delivers.imp {Q' : G → α → Prop} (hQ : ∀ g x, Q g x → Q' g x) {p : Prog S α}
    (h : C.Delivers Q w g p) : C.Delivers Q' w g p := by
  induction p generalizing w g with
  | ret x => exact delivers_ret.mpr (hQ g x (delivers_ret.mp h))
  | act a k ih =>
    refine delivers_act.mpr (fun w' hw r hr => ?_)
    obtain ⟨w'', g', hm, hk⟩ := delivers_act.mp h w' hw r hr
    exact ⟨w'', g', hm, ih r hk⟩

/-- A program that goes on with one that delivers from any world. -/
theorem Delivers.seq {R : G → β → Prop} {p : Prog S β} {f : β → Prog S α} (hp : C.Delivers R w g p)
    (hf : ∀ w g x, R g x → C.Delivers Q w g (f x)) : C.Delivers Q w g (p >>= f) := by
  induction p generalizing w g with
  | ret x => exact hf w g x (delivers_ret.mp hp)
  | act a k ih =>
    rw [Prog.act_bind]
    refine delivers_act.mpr (fun w' hw r hr => ?_)
    obtain ⟨w'', g', hm, hk⟩ := delivers_act.mp hp w' hw r hr
    exact ⟨w'', g', hm, ih r hk⟩

theorem Follows.seq {p : Prog S β} {f : β → Prog S α} (hp : C.Follows w g p)
    (hf : ∀ w g x, C.Done g → C.Follows w g (f x)) : C.Follows w g (p >>= f) :=
  follows_iff_delivers.mpr ((follows_iff_delivers.mp hp).seq
    (fun w g x hg => follows_iff_delivers.mp (hf w g x hg)))

/-- A program all of whose actions have a move that changes nothing. -/
theorem delivers_of_uses {allowed : S.Act → Prop}
    (hmove : ∀ w a r, allowed a → C.Answers w a r → C.Move w g a r w g) (hQ : ∀ x, Q g x)
    {p : Prog S α} (hp : p.Uses allowed) : C.Delivers Q w g p := by
  induction p generalizing w with
  | ret x => exact delivers_ret.mpr (hQ x)
  | act a k ih =>
    refine delivers_act.mpr (fun w' _ r hr => ⟨w', g, hmove w' a r hp.1 hr, ?_⟩)
    exact ih r (hp.2 r)

theorem follows_of_uses {allowed : S.Act → Prop}
    (hmove : ∀ w a r, allowed a → C.Answers w a r → C.Move w g a r w g) (hdone : C.Done g)
    {p : Prog S α} (hp : p.Uses allowed) : C.Follows w g p :=
  follows_iff_delivers.mpr (delivers_of_uses hmove (fun _ => hdone) hp)

section

/-! A contract that has nothing to remember, and whose actions are of some kind `quiet` if they change
nothing. -/

variable {C : Contract S Still G} {w : Still} {a : S.Act} {f : S.Res a → Prog S α}

theorem delivers_move
    (h : ∀ r, C.Answers w a r → ∃ g', C.Move w g a r w g' ∧ C.Delivers Q w g' (f r)) :
    C.Delivers Q w g (Prog.perform a >>= f) := by
  refine delivers_perform.mpr (fun w' _ r hr => ⟨w', ?_⟩)
  cases w
  cases w'
  exact h r hr

variable {quiet : S.Act → Prop} (hquiet : ∀ {w g a} {r : S.Res a}, quiet a → C.Move w g a r w g)

include hquiet

theorem delivers_quiet (ha : quiet a) (h : ∀ r, C.Answers w a r → C.Delivers Q w g (f r)) :
    C.Delivers Q w g (Prog.perform a >>= f) :=
  delivers_move (fun r hr => ⟨g, hquiet ha, h r hr⟩)

theorem delivers_quietly {p : Prog S α} (hp : p.Uses quiet) (hQ : ∀ x, Q g x) :
    C.Delivers Q w g p :=
  delivers_of_uses (fun _ _ _ ha _ => hquiet ha) hQ hp

end

/-- The machine keeps the invariant when a thread makes a move of the contract, and gives only
the answers the contract allows. -/
structure Sound (C : Contract S W G) (exec : Exec S σ) (Inv : W → List G → σ → Prop) : Prop where
  act : ∀ {w gs s i g a r s'}, Inv w gs s → gs[i]? = some g → exec a s = some (r, s') →
    C.Answers w a r ∧
      ∀ w' g', C.Move w g a r w' g' → w ≤ w' ∧ Inv w' (gs.set i g') s'

/-- The program follows the contract whenever it starts. -/
def Admits (C : Contract S W G) (Inv : W → List G → σ → Prop) (p : Prog S α) : Prop :=
  ∃ g, (∀ w, C.Follows w g p) ∧ ∀ w gs s, Inv w gs s → Inv w (gs ++ [g]) s

/-- A pool in the world `w` whose threads all follow the contract. -/
def GovernedIn (C : Contract S W G) (Inv : W → List G → σ → Prop) (w : W) (P : Pool S α σ) : Prop :=
  ∃ gs, Inv w gs P.state ∧ List.Forall₂ (C.Follows w) gs P.threads

def Governed (C : Contract S W G) (Inv : W → List G → σ → Prop) (P : Pool S α σ) : Prop :=
  ∃ w, C.GovernedIn Inv w P

theorem forall₂_set {R R' : G → Prog S α → Prop} {gs : List G} {ps : List (Prog S α)} {g : G}
    {p : Prog S α} (h : List.Forall₂ R gs ps) (hR : ∀ g p, R g p → R' g p) (hp : R' g p) (i : Nat) :
    List.Forall₂ R' (gs.set i g) (ps.set i p) := by
  induction h generalizing i with
  | nil => exact .nil
  | @cons g' p' gs ps hgp h ih =>
    cases i with
    | zero => exact .cons hp (h.imp hR)
    | succ i => exact .cons (hR g' p' hgp) (ih i)

theorem forall₂_getElem? {A : Type u} {B : Type v} {R : A → B → Prop} {as : List A} {bs : List B}
    (h : List.Forall₂ R as bs) {i : Nat} {a : A} (ha : as[i]? = some a) :
    ∃ b, bs[i]? = some b ∧ R a b := by
  induction h generalizing i with
  | nil => cases ha
  | @cons a' b' as bs hab h ih =>
    cases i with
    | zero =>
      cases ha
      exact ⟨b', rfl, hab⟩
    | succ i => exact ih ha

theorem set_self {gs : List G} {i : Nat} {g : G} (hg : gs[i]? = some g) : gs.set i g = gs := by
  obtain ⟨hi, rfl⟩ := List.getElem?_eq_some_iff.mp hg
  exact List.set_getElem_self hi

/-- The ghost values after the thread `i` has moved. -/
theorem getElem?_set_elim {gs : List G} {i j : Nat} {g q : G} (h : (gs.set i g)[j]? = some q) :
    j = i ∧ q = g ∨ j ≠ i ∧ gs[j]? = some q := by
  by_cases hj : j = i
  · subst hj
    rw [List.getElem?_set_self'] at h
    obtain ⟨_, -, rfl⟩ := Option.map_eq_some_iff.mp h
    exact .inl ⟨rfl, rfl⟩
  · rw [List.getElem?_set_ne (Ne.symm hj)] at h
    exact .inr ⟨hj, h⟩

/-- The ghost values after a thread has begun. -/
theorem getElem?_concat_elim {gs : List G} {j : Nat} {g q : G} (h : (gs ++ [g])[j]? = some q) :
    gs[j]? = some q ∨ j = gs.length ∧ q = g := by
  obtain hj | hj := Nat.lt_or_ge j gs.length
  · rw [List.getElem?_append_left hj] at h
    exact .inl h
  · rw [List.getElem?_append_right hj] at h
    obtain ⟨hlt, h⟩ := List.getElem?_eq_some_iff.mp h
    have hzero : j - gs.length = 0 := by simpa using hlt
    refine .inr ⟨by omega, ?_⟩
    simp only [hzero, List.getElem_cons_zero] at h
    exact h.symm

variable {exec : Exec S σ} {Inv : W → List G → σ → Prop}

/-- A pool in the world `w` whose threads all follow the contract and deliver `Q`. -/
def DeliveredIn (C : Contract S W G) (Q : G → α → Prop) (Inv : W → List G → σ → Prop) (w : W)
    (P : Pool S α σ) : Prop :=
  ∃ gs, Inv w gs P.state ∧ List.Forall₂ (C.Delivers Q w) gs P.threads

theorem governedIn_iff {P : Pool S α σ} :
    C.GovernedIn Inv w P ↔ C.DeliveredIn (fun g _ => C.Done g) Inv w P := by
  have hiff : C.Follows (α := α) w = C.Delivers (fun g _ => C.Done g) w := by
    funext g p
    exact propext follows_iff_delivers
  unfold GovernedIn DeliveredIn
  rw [hiff]

theorem DeliveredIn.step (hC : C.Sound exec Inv) {P P' : Pool S α σ} {i : Nat}
    (hP : C.DeliveredIn Q Inv w P) (h : P.next exec (.step i) = some P') :
    ∃ gs g a k r w' g', Inv w gs P.state ∧ gs[i]? = some g ∧ P.threads[i]? = some (.act a k) ∧
      C.Move w g a r w' g' ∧ w ≤ w' ∧ C.DeliveredIn Q Inv w' P' := by
  obtain ⟨gs, hInv, hall⟩ := hP
  obtain ⟨a, k, r, s, hi, hact, rfl⟩ := Pool.next_step h
  obtain ⟨g, hg, hdelivers⟩ := forall₂_getElem? hall.flip hi
  obtain ⟨hans, hmove⟩ := hC.act hInv hg hact
  obtain ⟨w', g', hm, hk⟩ := delivers_act.mp hdelivers w le_rfl r hans
  obtain ⟨hle, hInv'⟩ := hmove w' g' hm
  exact ⟨gs, g, a, k, r, w', g', hInv, hg, hi, hm, hle, gs.set i g', hInv',
    forall₂_set hall (fun _ _ hf => hf.mono hle) hk i⟩

theorem GovernedIn.step (hC : C.Sound exec Inv) {P P' : Pool S α σ} {i : Nat}
    (hP : C.GovernedIn Inv w P) (h : P.next exec (.step i) = some P') :
    ∃ w', w ≤ w' ∧ C.GovernedIn Inv w' P' := by
  obtain ⟨_, _, _, _, _, w', _, -, -, -, -, hle, hP'⟩ := (governedIn_iff.mp hP).step hC h
  exact ⟨w', hle, governedIn_iff.mpr hP'⟩

/-- What the thread at `i` has returned with. -/
theorem DeliveredIn.returned {P : Pool S α σ} (hP : C.DeliveredIn Q Inv w P) {i : Nat} {x : α}
    (hi : P.threads[i]? = some (.ret x)) : ∃ gs g, Inv w gs P.state ∧ gs[i]? = some g ∧ Q g x := by
  obtain ⟨gs, hInv, hall⟩ := hP
  obtain ⟨g, hg, hdelivers⟩ := forall₂_getElem? hall.flip hi
  exact ⟨gs, g, hInv, hg, delivers_ret.mp hdelivers⟩

/-- A thread that is started by a change of the state. -/
theorem DeliveredIn.launch {P : Pool S α σ} (hP : C.DeliveredIn Q Inv w P) {p : Prog S α} {s' : σ}
    (hp : ∀ gs, gs.length = P.threads.length → Inv w gs P.state →
      ∃ g, C.Delivers Q w g p ∧ Inv w (gs ++ [g]) s') :
    C.DeliveredIn Q Inv w ⟨s', P.threads ++ [p]⟩ := by
  obtain ⟨gs, hInv, hall⟩ := hP
  obtain ⟨g, hg, hInv'⟩ := hp gs hall.length_eq hInv
  exact ⟨gs ++ [g], hInv', List.rel_append hall (.cons hg .nil)⟩

theorem GovernedIn.start {P : Pool S α σ} (hP : C.GovernedIn Inv w P) {p : Prog S α}
    (hp : C.Admits Inv p) : C.GovernedIn Inv w ⟨P.state, P.threads ++ [p]⟩ := by
  obtain ⟨gs, hInv, hall⟩ := hP
  obtain ⟨g, hfollows, hstart⟩ := hp
  exact ⟨gs ++ [g], hstart w gs P.state hInv, List.rel_append hall (.cons (hfollows w) .nil)⟩

theorem Governed.next (hC : C.Sound exec Inv) {P P' : Pool S α σ} {e : Pool.Event S α}
    (he : ∀ p, e = .start p → C.Admits Inv p) (hP : C.Governed Inv P)
    (h : P.next exec e = some P') : C.Governed Inv P' := by
  obtain ⟨w, hP⟩ := hP
  cases e with
  | start p =>
    cases h
    exact ⟨w, hP.start (he p rfl)⟩
  | step i =>
    obtain ⟨w', -, hP'⟩ := hP.step hC h
    exact ⟨w', hP'⟩

theorem Governed.play (hC : C.Sound exec Inv) {es : List (Pool.Event S α)}
    (hes : ∀ e ∈ es, ∀ p, e = .start p → C.Admits Inv p) {P P' : Pool S α σ}
    (hP : C.Governed Inv P) (h : P.play exec es = some P') : C.Governed Inv P' :=
  Pool.play_induct (fun he hP h => hP.next hC he h) hes hP h

/-- When no program is in progress, every thread has delivered. -/
theorem DeliveredIn.idle {P : Pool S α σ} (hP : C.DeliveredIn Q Inv w P) (hidle : P.Idle) :
    ∃ gs, Inv w gs P.state ∧ ∀ g ∈ gs, ∃ x, Q g x := by
  obtain ⟨gs, hInv, hall⟩ := hP
  refine ⟨gs, hInv, fun g hg => ?_⟩
  obtain ⟨i, hi⟩ := List.getElem?_of_mem hg
  obtain ⟨p, hp, hdelivers⟩ := forall₂_getElem? hall hi
  obtain ⟨x, rfl⟩ := hidle p (List.mem_of_getElem? hp)
  exact ⟨x, delivers_ret.mp hdelivers⟩

theorem GovernedIn.idle {P : Pool S α σ} (hP : C.GovernedIn Inv w P) (hidle : P.Idle) :
    ∃ gs, Inv w gs P.state ∧ ∀ g ∈ gs, C.Done g := by
  obtain ⟨gs, hInv, hdone⟩ := (governedIn_iff.mp hP).idle hidle
  refine ⟨gs, hInv, fun g hg => ?_⟩
  obtain ⟨-, hg⟩ := hdone g hg
  exact hg

/-- If every move writes down what can be seen of its action, then the world after a schedule of
steps has the schedule's log written down. -/
theorem DeliveredIn.play_log {O : Type*} {observe : S.Act → Option O} {H : W → List (Nat × O)}
    (hC : C.Sound exec Inv)
    (hH : ∀ {w gs s i g a r w' g'}, Inv w gs s → gs[i]? = some g → C.Move w g a r w' g' →
      H w' = H w ++ Pool.note observe i a)
    {schedule : List Nat} {P P' : Pool S α σ} (hP : C.DeliveredIn Q Inv w P)
    (h : P.play exec (schedule.map .step) = some P') :
    ∃ w', C.DeliveredIn Q Inv w' P' ∧
      H w' = H w ++ P.log observe exec (schedule.map .step) := by
  induction schedule generalizing w P with
  | nil =>
    cases h
    exact ⟨w, hP, (List.append_nil _).symm⟩
  | cons i schedule ih =>
    obtain ⟨Q, hQ, h⟩ := Option.bind_eq_some_iff.mp h
    obtain ⟨_, _, _, _, _, w', _, hInv, hg, hi, hm, -, hP'⟩ := hP.step hC hQ
    obtain ⟨w'', hP'', hlog⟩ := ih hP' h
    refine ⟨w'', hP'', ?_⟩
    rw [hlog, hH hInv hg hm, List.append_assoc, List.map_cons, Pool.log_step hi hQ]

theorem GovernedIn.play_log {O : Type*} {observe : S.Act → Option O} {H : W → List (Nat × O)}
    (hC : C.Sound exec Inv)
    (hH : ∀ {w gs s i g a r w' g'}, Inv w gs s → gs[i]? = some g → C.Move w g a r w' g' →
      H w' = H w ++ Pool.note observe i a)
    {schedule : List Nat} {P P' : Pool S α σ} (hP : C.GovernedIn Inv w P)
    (h : P.play exec (schedule.map .step) = some P') :
    ∃ w', C.GovernedIn Inv w' P' ∧
      H w' = H w ++ P.log observe exec (schedule.map .step) := by
  obtain ⟨w', hP', hlog⟩ := DeliveredIn.play_log hC hH (governedIn_iff.mp hP) h
  exact ⟨w', governedIn_iff.mpr hP', hlog⟩

/-- A program that follows the contract, run alone. -/
theorem Follows.leads (hC : C.Sound exec Inv) {p : Prog S α} {s : σ} (h : C.Follows w g p)
    (hInv : Inv w [g] s) :
    Prog.Leads exec p s (fun _ s' => ∃ w' g', Inv w' [g'] s' ∧ C.Done g') := by
  induction p generalizing w g s with
  | ret x => exact Prog.leads_ret.mpr ⟨w, g, hInv, follows_ret.mp h⟩
  | act a k ih =>
    refine Prog.leads_act.mpr (fun r s' hact => ?_)
    obtain ⟨hans, hmove⟩ := hC.act (i := 0) hInv rfl hact
    obtain ⟨w', g', hm, hk⟩ := follows_act.mp h w le_rfl r hans
    exact ih r hk (hmove w' g' hm).2

end Contract

end PeerCompute.Interleaving
