import Mathlib.Data.List.Induction
import PeerCompute.Interleaving.Prog

universe u v

namespace PeerCompute.Interleaving

/-- Programs that share one machine.  A finished program stays in the pool as `ret`. -/
structure Pool (S : Signature.{u}) (α : Type u) (σ : Type v) where
  state : σ
  threads : List (Prog S α)

/-- One step of a schedule: a new program starts, or thread `i` performs its next action. -/
inductive Pool.Event (S : Signature.{u}) (α : Type u) : Type u
  | start (p : Prog S α)
  | step (i : Nat)

namespace Pool

variable {S : Signature.{u}} {α : Type u} {σ : Type v}

def next (exec : Exec S σ) (P : Pool S α σ) : Event S α → Option (Pool S α σ)
  | .start p => some { P with threads := P.threads ++ [p] }
  | .step i => match P.threads[i]? with
    | some (.act a k) => (exec a P.state).map (fun x => ⟨x.2, P.threads.set i (k x.1)⟩)
    | _ => none

/-- The pool after a schedule; `none` when a scheduled step cannot be taken. -/
def play (exec : Exec S σ) : List (Event S α) → Pool S α σ → Option (Pool S α σ)
  | [], P => some P
  | e :: es, P => (P.next exec e).bind (play exec es)

/-- No program is in progress. -/
def Idle (P : Pool S α σ) : Prop := ∀ p ∈ P.threads, ∃ x, p = .ret x

/-- What a program has returned with. -/
def answer : Prog S α → Option α
  | .ret x => some x
  | .act _ _ => none

theorem getElem?_bind_answer {ts : List (Prog S α)} {i : Nat} {x : α}
    (h : ts[i]?.bind answer = some x) : ts[i]? = some (.ret x) := by
  obtain ⟨p, hp, h⟩ := Option.bind_eq_some_iff.mp h
  cases p with
  | ret y =>
    cases h
    exact hp
  | act a k => cases h

theorem answer_isSome_iff {p : Prog S α} : (answer p).isSome = true ↔ ∃ x, p = .ret x := by
  cases p with
  | ret x => simp [answer]
  | act a k => simp [answer]

instance (P : Pool S α σ) : Decidable P.Idle :=
  decidable_of_iff (P.threads.all (fun p => (answer p).isSome) = true)
    (by simp only [Idle, List.all_eq_true, answer_isSome_iff])

theorem next_step {exec : Exec S σ} {P P' : Pool S α σ} {i : Nat}
    (h : P.next exec (.step i) = some P') :
    ∃ a k r s, P.threads[i]? = some (.act a k) ∧ exec a P.state = some (r, s) ∧
      P' = ⟨s, P.threads.set i (k r)⟩ := by
  simp only [next] at h
  split at h
  next a k hi =>
    obtain ⟨⟨r, s⟩, ha, rfl⟩ := Option.map_eq_some_iff.mp h
    exact ⟨a, k, r, s, hi, ha, rfl⟩
  next => cases h

/-- Programs that start one after the other, before any of them performs an action. -/
theorem play_starts (exec : Exec S σ) (ps : List (Prog S α)) (es : List (Event S α))
    (P : Pool S α σ) :
    P.play exec (ps.map .start ++ es) = play exec es ⟨P.state, P.threads ++ ps⟩ := by
  induction ps generalizing P with
  | nil => simp
  | cons p ps ih => simpa [play, next] using ih ⟨P.state, P.threads ++ [p]⟩

/-- An invariant of the steps of a schedule holds of the pool it ends in. -/
theorem play_induct {exec : Exec S σ} {Ok : Event S α → Prop} {I : Pool S α σ → Prop}
    (hnext : ∀ {P P' : Pool S α σ} {e}, Ok e → I P → P.next exec e = some P' → I P')
    {es : List (Event S α)} (hes : ∀ e ∈ es, Ok e) {P P' : Pool S α σ} (hP : I P)
    (h : play exec es P = some P') : I P' := by
  induction es generalizing P with
  | nil =>
    cases h
    exact hP
  | cons e es ih =>
    obtain ⟨Q, hQ, h⟩ := Option.bind_eq_some_iff.mp h
    exact ih (fun e he => hes e (.tail _ he)) (hnext (hes e (.head _)) hP hQ) h

theorem play_append {exec : Exec S σ} {es es' : List (Event S α)} {P Q : Pool S α σ} :
    play exec (es ++ es') P = some Q ↔
      ∃ R, play exec es P = some R ∧ play exec es' R = some Q := by
  induction es generalizing P with
  | nil => simp [play]
  | cons e es ih =>
    simp only [List.cons_append, play, Option.bind_eq_some_iff, ih]
    constructor
    · rintro ⟨P', hP', R, hR, h⟩
      exact ⟨R, ⟨P', hP', hR⟩, h⟩
    · rintro ⟨R, ⟨P', hP', hR⟩, h⟩
      exact ⟨P', hP', R, hR, h⟩

theorem play_concat {exec : Exec S σ} {es : List (Event S α)} {e : Event S α} {P Q : Pool S α σ} :
    play exec (es ++ [e]) P = some Q ↔ ∃ R, play exec es P = some R ∧ R.next exec e = some Q := by
  simp [play_append, play]

theorem length_steps {exec : Exec S σ} {schedule : List Nat} {P P' : Pool S α σ}
    (h : play exec (schedule.map .step) P = some P') : P'.threads.length = P.threads.length := by
  have hes : ∀ e ∈ schedule.map (Event.step (S := S) (α := α)), ∃ i, e = .step i := by
    intro e he
    obtain ⟨i, -, rfl⟩ := List.mem_map.mp he
    exact ⟨i, rfl⟩
  refine play_induct (I := (·.threads.length = P.threads.length)) ?_ hes rfl h
  rintro Q Q' e ⟨i, rfl⟩ hQ hnext
  obtain ⟨a, k, r, s, -, -, rfl⟩ := next_step hnext
  exact List.length_set.trans hQ

/-- An invariant of pools that may also speak of the schedule so far. -/
theorem play_history {T : Type*} {event : T → Event S α} {exec : Exec S σ} {P₀ : Pool S α σ}
    {I : List T → Pool S α σ → Prop} (h₀ : I [] P₀)
    (hnext : ∀ {ts t P P'}, play exec (ts.map event) P₀ = some P → I ts P →
      P.next exec (event t) = some P' → I (ts ++ [t]) P')
    {ts : List T} {P : Pool S α σ} (h : play exec (ts.map event) P₀ = some P) : I ts P := by
  induction ts using List.reverseRecOn generalizing P with
  | nil =>
    cases h
    exact h₀
  | append_singleton ts t ih =>
    rw [List.map_append, List.map_singleton, play_concat] at h
    obtain ⟨R, hR, h⟩ := h
    exact hnext hR (ih hR) h

/-- A program that returns when it runs alone, run alone in a pool. -/
theorem play_alone {exec : Exec S σ} {p : Prog S α} {x : α} {s s' : σ} (h : p.run exec s = some (x, s'))
    (ts : List (Prog S α)) :
    ∃ n, play exec (.start p :: List.replicate n (.step ts.length)) ⟨s, ts⟩ =
      some ⟨s', ts ++ [.ret x]⟩ := by
  have hsteps : ∀ (p : Prog S α) (s : σ), p.run exec s = some (x, s') →
      ∃ n, play exec (List.replicate n (.step ts.length)) ⟨s, ts ++ [p]⟩ =
        some ⟨s', ts ++ [.ret x]⟩ := by
    intro p
    induction p with
    | ret y =>
      intro s h
      cases h
      exact ⟨0, rfl⟩
    | act a k ih =>
      intro s h
      rw [Prog.run_act, Option.bind_eq_some_iff] at h
      obtain ⟨⟨r, t⟩, ha, h⟩ := h
      obtain ⟨n, hn⟩ := ih r t h
      refine ⟨n + 1, ?_⟩
      simp [List.replicate_succ, play, next, ha, hn]
  obtain ⟨n, hn⟩ := hsteps p s h
  exact ⟨n, hn⟩

section Log

variable {O : Type*} (observe : S.Act → Option O)

/-- What can be seen of an action of thread `i`. -/
def note (i : Nat) (a : S.Act) : List (Nat × O) := ((observe a).map (Prod.mk i)).toList

def noted (P : Pool S α σ) : Event S α → List (Nat × O)
  | .start _ => []
  | .step i => match P.threads[i]? with
    | some (.act a _) => note observe i a
    | _ => []

/-- What can be seen of a schedule, in the order in which it happens. -/
def log (exec : Exec S σ) : List (Event S α) → Pool S α σ → List (Nat × O)
  | [], _ => []
  | e :: es, P => P.noted observe e ++ ((P.next exec e).map (log exec es)).getD []

variable {observe}

theorem log_step {exec : Exec S σ} {P P' : Pool S α σ} {i : Nat} {a : S.Act}
    {k : S.Res a → Prog S α} (hi : P.threads[i]? = some (.act a k))
    (h : P.next exec (.step i) = some P') (es : List (Event S α)) :
    log observe exec (.step i :: es) P = note observe i a ++ log observe exec es P' := by
  simp only [log, noted, hi, h, Option.map_some, Option.getD_some]

theorem log_append {exec : Exec S σ} {es : List (Event S α)} {P R : Pool S α σ}
    (h : play exec es P = some R) (es' : List (Event S α)) :
    log observe exec (es ++ es') P = log observe exec es P ++ log observe exec es' R := by
  induction es generalizing P with
  | nil =>
    cases h
    rfl
  | cons e es ih =>
    obtain ⟨Q, hQ, h⟩ := Option.bind_eq_some_iff.mp h
    simp only [List.cons_append, log, hQ, Option.map_some, Option.getD_some, ih h,
      List.append_assoc]

theorem log_starts (exec : Exec S σ) (ps : List (Prog S α)) (es : List (Event S α))
    (P : Pool S α σ) :
    P.log observe exec (ps.map .start ++ es) = log observe exec es ⟨P.state, P.threads ++ ps⟩ := by
  induction ps generalizing P with
  | nil => simp
  | cons p ps ih => simpa [log, noted, next] using ih ⟨P.state, P.threads ++ [p]⟩

end Log

end Pool

end PeerCompute.Interleaving
