import PeerCompute.Interleaving.Contract
import PeerCompute.Interleaving.Guard

/-! The actions of a schedule with their answers, and what another machine makes of them. -/

universe u v w

namespace PeerCompute.Interleaving

/-- The labels `xs` lead from `s` to `s'`, one after the other. -/
inductive Path {σ : Type v} {X : Type u} (R : σ → X → σ → Prop) : σ → List X → σ → Prop
  | nil (s : σ) : Path R s [] s
  | cons {s s' s'' : σ} {x : X} {xs : List X} (hx : R s x s') (hxs : Path R s' xs s'') :
      Path R s (x :: xs) s''

namespace Path

variable {σ : Type v} {X : Type u} {R R' : σ → X → σ → Prop} {s s' : σ} {xs : List X}

theorem imp (himp : ∀ {s x s'}, R s x s' → R' s x s') (h : Path R s xs s') : Path R' s xs s' := by
  induction h with
  | nil s => exact .nil s
  | cons hx _ ih => exact .cons (himp hx) ih

/-- What relates the two ends of a label relates the two ends of a path. -/
theorem induct {Q : σ → σ → Prop} (hrefl : ∀ s, Q s s)
    (htrans : ∀ {s s' s''}, Q s s' → Q s' s'' → Q s s'') (hR : ∀ {s x s'}, R s x s' → Q s s')
    (h : Path R s xs s') : Q s s' := by
  induction h with
  | nil s => exact hrefl s
  | cons hx _ ih => exact htrans (hR hx) ih

end Path

namespace Pool

variable {S : Signature.{u}} {α : Type u} {σ : Type v} {τ : Type w}

/-- The action that is performed, with its answer. -/
def answered (exec : Exec S σ) (P : Pool S α σ) : Event S α → List (Σ a : S.Act, S.Res a)
  | .start _ => []
  | .step i => match P.threads[i]? with
    | some (.act a _) => ((exec a P.state).map (fun x => ⟨a, x.1⟩)).toList
    | _ => []

/-- The actions of a schedule, with their answers. -/
def trace (exec : Exec S σ) : List (Event S α) → Pool S α σ → List (Σ a : S.Act, S.Res a) :=
  Step.output (next exec) (answered exec)

section

variable {exec : Exec S σ} {P Q : Pool S α σ} {e : Event S α} {es : List (Event S α)}

theorem trace_cons (h : P.next exec e = some Q) :
    trace exec (e :: es) P = P.answered exec e ++ trace exec es Q := by
  simp only [trace, Step.output, h]

theorem answered_step {i : Nat} {a : S.Act} {k : S.Res a → Prog S α} {r : S.Res a} {s : σ}
    (hi : P.threads[i]? = some (.act a k)) (hact : exec a P.state = some (r, s)) :
    P.answered exec (.step i) = [⟨a, r⟩] := by
  simp only [answered, hi, hact, Option.map_some, Option.toList_some]

/-- A schedule whose actions all meet the condition, on the machine that is held to it. -/
theorem play_guarded_of_trace {ok : (a : S.Act) → S.Res a → Prop}
    (hok : ∀ x ∈ trace exec es P, ok x.1 x.2) (h : P.play exec es = some Q) :
    P.play (guarded exec (fun a _ r => ok a r)) es = some Q ∧
      trace (guarded exec (fun a _ r => ok a r)) es P = trace exec es P := by
  induction es generalizing P with
  | nil => exact ⟨h, rfl⟩
  | cons e es ih =>
    obtain ⟨R, hR, h⟩ := Option.bind_eq_some_iff.mp h
    rw [trace_cons hR] at hok
    obtain ⟨hplay, htrace⟩ := ih (fun x hx => hok x (List.mem_append_right _ hx)) h
    cases e with
    | start p =>
      have hR' : P.next (guarded exec (fun a _ r => ok a r)) (.start p) = some R := hR
      refine ⟨Option.bind_eq_some_iff.mpr ⟨R, hR', hplay⟩, ?_⟩
      rw [trace_cons hR, trace_cons hR', htrace]
      rfl
    | step i =>
      obtain ⟨a, k, r, s, hi, hact, rfl⟩ := next_step hR
      rw [answered_step hi hact] at hok
      have hguard : guarded exec (fun a _ r => ok a r) a P.state = some (r, s) :=
        guarded_eq_some.mpr ⟨hact, hok _ (List.mem_append_left _ (.head _))⟩
      have hR' : P.next (guarded exec (fun a _ r => ok a r)) (.step i) =
          some ⟨s, P.threads.set i (k r)⟩ := by
        simp only [next, hi, hguard, Option.map_some]
      refine ⟨Option.bind_eq_some_iff.mpr ⟨_, hR', hplay⟩, ?_⟩
      rw [trace_cons hR, trace_cons hR', htrace, answered_step hi hact, answered_step hi hguard]

end

/-- The pool over another machine. -/
def onState (f : σ → τ) (P : Pool S α σ) : Pool S α τ := ⟨f P.state, P.threads⟩

section

variable {exec : Exec S σ} {exec' : Exec S τ} {f : σ → τ}
  (hexec : ∀ a s, exec' a (f s) = (exec a s).map (fun x => (x.1, f x.2)))

include hexec

theorem next_onState (P : Pool S α σ) (e : Event S α) :
    (P.onState f).next exec' e = (P.next exec e).map (onState f) := by
  cases e with
  | start p => rfl
  | step i =>
    simp only [next, onState]
    split
    next a k hi =>
      rw [hexec]
      simp only [Option.map_map]
      rfl
    next => rfl

/-- A machine whose states stand for those of another one plays the other's schedules. -/
theorem play_onState (es : List (Event S α)) (P : Pool S α σ) :
    (P.onState f).play exec' es = (P.play exec es).map (onState f) := by
  induction es generalizing P with
  | nil => rfl
  | cons e es ih =>
    simp only [play, next_onState hexec]
    cases P.next exec e with
    | none => rfl
    | some Q => exact ih Q

theorem answered_onState (P : Pool S α σ) (e : Event S α) :
    (P.onState f).answered exec' e = P.answered exec e := by
  cases e with
  | start p => rfl
  | step i =>
    simp only [answered, onState]
    split
    next a k hi =>
      rw [hexec]
      simp only [Option.map_map]
      rfl
    next => rfl

theorem trace_onState (es : List (Event S α)) (P : Pool S α σ) :
    trace exec' es (P.onState f) = trace exec es P := by
  induction es generalizing P with
  | nil => rfl
  | cons e es ih =>
    simp only [trace, Step.output, next_onState hexec, answered_onState hexec]
    congr 1
    cases P.next exec e with
    | none => rfl
    | some Q => exact ih Q

end

end Pool

namespace Contract

variable {S : Signature.{u}} {W : Type v} [Preorder W] {G : Type w} {α : Type u} {σ : Type*}
  {C : Contract S W G} {exec : Exec S σ} {Inv : W → List G → σ → Prop}

/-- What every move of the contract does to the state, along the actions of a schedule. -/
theorem GovernedIn.path {R : σ → (Σ a : S.Act, S.Res a) → σ → Prop} (hC : C.Sound exec Inv)
    (hR : ∀ {w gs s i g a r s' w' g'}, Inv w gs s → gs[i]? = some g → exec a s = some (r, s') →
      C.Move w g a r w' g' → w ≤ w' → Inv w' (gs.set i g') s' → R s ⟨a, r⟩ s')
    {es : List (Pool.Event S α)} (hes : ∀ e ∈ es, ∀ p, e = .start p → C.Admits Inv p) {w : W}
    {P P' : Pool S α σ} (hP : C.GovernedIn Inv w P) (h : P.play exec es = some P') :
    (∃ w', C.GovernedIn Inv w' P') ∧ Path R P.state (Pool.trace exec es P) P'.state := by
  induction es generalizing w P with
  | nil =>
    cases h
    exact ⟨⟨w, hP⟩, .nil _⟩
  | cons e es ih =>
    have hes' := fun e he => hes e (.tail _ he)
    obtain ⟨Q, hQ, h⟩ := Option.bind_eq_some_iff.mp h
    rw [Pool.trace_cons hQ]
    cases e with
    | start p =>
      cases hQ
      exact ih hes' (hP.start (hes _ (.head _) p rfl)) h
    | step i =>
      obtain ⟨a, k, r, s, hi, hact, rfl⟩ := Pool.next_step hQ
      rw [Pool.answered_step hi hact]
      obtain ⟨gs, hInv, hall⟩ := hP
      obtain ⟨g, hg, hfollows⟩ := forall₂_getElem? hall.flip hi
      obtain ⟨hans, hmove⟩ := hC.act hInv hg hact
      obtain ⟨w', g', hm, hk⟩ := follows_act.mp hfollows w le_rfl r hans
      obtain ⟨hle, hInv'⟩ := hmove w' g' hm
      have hall' := forall₂_set hall (fun _ _ hf => hf.mono hle) hk i
      obtain ⟨hgov, hpath⟩ := ih hes' ⟨gs.set i g', hInv', hall'⟩ h
      exact ⟨hgov, .cons (hR hInv hg hact hm hle hInv') hpath⟩

end Contract

end PeerCompute.Interleaving
