import Mathlib.Data.List.Chain

universe u v

namespace PeerCompute.Interleaving

/-- A machine that takes one event at a time; `none` is an event that never completes. -/
abbrev Step (σ : Type u) (E : Type v) := σ → E → Option σ

namespace Step

variable {σ : Type u} {E : Type v} {step : Step σ E}

def run (step : Step σ E) : List E → σ → Option σ
  | [], s => some s
  | e :: es, s => (step s e).bind (run step es)

/-- Every event of the run meets `ok` in the state it is taken from. -/
def Along (step : Step σ E) (ok : σ → E → Prop) : List E → σ → Prop
  | [], _ => True
  | e :: es, s => ok s e ∧ ∀ s', step s e = some s' → Along step ok es s'

instance decidableAlong (step : Step σ E) (ok : σ → E → Prop) [∀ s e, Decidable (ok s e)] :
    (es : List E) → (s : σ) → Decidable (Along step ok es s)
  | [], _ => .isTrue trivial
  | e :: es, s => match h : step s e with
    | none => decidable_of_iff (ok s e) ⟨fun hok => ⟨hok, fun s' hs' => by rw [h] at hs'; cases hs'⟩,
        fun hok => hok.1⟩
    | some s' =>
      have := decidableAlong step ok es s'
      decidable_of_iff (ok s e ∧ Along step ok es s')
        ⟨fun hok => ⟨hok.1, fun t ht => by rw [h] at ht; cases ht; exact hok.2⟩,
          fun hok => ⟨hok.1, hok.2 s' h⟩⟩

theorem run_append {es es' : List E} {s s' : σ} :
    run step (es ++ es') s = some s' ↔
      ∃ t, run step es s = some t ∧ run step es' t = some s' := by
  induction es generalizing s with
  | nil => simp [run]
  | cons e es ih =>
    simp only [List.cons_append, run, Option.bind_eq_some_iff, ih]
    constructor
    · rintro ⟨u, hu, t, ht, h⟩
      exact ⟨t, ⟨u, hu, ht⟩, h⟩
    · rintro ⟨t, ⟨u, hu, ht⟩, h⟩
      exact ⟨u, hu, t, ht, h⟩

theorem along_of_forall {ok : σ → E → Prop} {es : List E} (h : ∀ e ∈ es, ∀ s, ok s e) (s : σ) :
    Along step ok es s := by
  induction es generalizing s with
  | nil => trivial
  | cons e es ih => exact ⟨h e (.head _) s, fun s' _ => ih (fun e he => h e (.tail _ he)) s'⟩

theorem along_true (es : List E) (s : σ) : Along step (fun _ _ => True) es s :=
  along_of_forall (fun _ _ _ => trivial) s

theorem Along.and {ok ok' : σ → E → Prop} {es : List E} {s : σ} (h : Along step ok es s)
    (h' : Along step ok' es s) : Along step (fun s e => ok s e ∧ ok' s e) es s := by
  induction es generalizing s with
  | nil => trivial
  | cons e es ih => exact ⟨⟨h.1, h'.1⟩, fun s' hs' => ih (h.2 s' hs') (h'.2 s' hs')⟩

/-- In the states of an invariant, one condition may follow from the other. -/
theorem Along.imp {ok ok' : σ → E → Prop} {I : σ → Prop}
    (hstep : ∀ {s s' e}, ok s e → I s → step s e = some s' → I s')
    (himp : ∀ {s e}, ok s e → I s → ok' s e) {es : List E} {s : σ} (h : Along step ok es s)
    (hs : I s) : Along step ok' es s := by
  induction es generalizing s with
  | nil => trivial
  | cons e es ih => exact ⟨himp h.1 hs, fun s' hs' => ih (h.2 s' hs') (hstep h.1 hs hs')⟩

/-- What every event that meets `ok` preserves holds at the end of a run of such events. -/
theorem run_induct {ok : σ → E → Prop} {I : σ → Prop}
    (hstep : ∀ {s s' e}, ok s e → I s → step s e = some s' → I s')
    {es : List E} {s s' : σ} (hok : Along step ok es s) (hs : I s)
    (h : run step es s = some s') : I s' := by
  induction es generalizing s with
  | nil =>
    cases h
    exact hs
  | cons e es ih =>
    obtain ⟨t, ht, h⟩ := Option.bind_eq_some_iff.mp h
    exact ih (hok.2 t ht) (hstep hok.1 hs ht) h

/-- Of what a state can only gain by meeting `ok`, a run's end tells whether every event did. -/
theorem run_iff {ok : σ → E → Prop} {I J : σ → Prop}
    (hI : ∀ {s s' e}, I s → step s e = some s' → I s')
    (hstep : ∀ {s s' e}, I s → step s e = some s' → (J s' ↔ J s ∧ ok s e))
    {es : List E} {s s' : σ} (hs : I s) (h : run step es s = some s') :
    J s' ↔ J s ∧ Along step ok es s := by
  induction es generalizing s with
  | nil =>
    cases h
    exact (and_iff_left trivial).symm
  | cons e es ih =>
    obtain ⟨t, ht, h⟩ := Option.bind_eq_some_iff.mp h
    rw [ih (hI hs ht) h, hstep hs ht, and_assoc]
    refine and_congr_right (fun _ => and_congr_right (fun _ => ⟨fun ha s' hs' => ?_, fun ha => ha t ht⟩))
    rw [ht] at hs'
    cases hs'
    exact ha

/-- What the events of a run put out, one after the other. -/
def output {α : Type*} (step : Step σ E) (out : σ → E → List α) : List E → σ → List α
  | [], _ => []
  | e :: es, s => out s e ++ match step s e with
    | none => []
    | some s' => output step out es s'

theorem map_output {α β : Type*} (f : α → β) (out : σ → E → List α) (es : List E) (s : σ) :
    (output step out es s).map f = output step (fun s e => (out s e).map f) es s := by
  induction es generalizing s with
  | nil => rfl
  | cons e es ih =>
    simp only [output, List.map_append]
    cases step s e with
    | none => rfl
    | some s' => exact congrArg _ (ih s')

/-- Machines that agree on the events of a run. -/
theorem run_congr {step' : Step σ E} {ok : σ → E → Prop} (hstep : ∀ s e, ok s e → step s e = step' s e)
    {es : List E} {s : σ} (hok : Along step ok es s) : run step es s = run step' es s := by
  induction es generalizing s with
  | nil => rfl
  | cons e es ih =>
    simp only [run, ← hstep s e hok.1]
    cases hnext : step s e with
    | none => rfl
    | some s' => exact ih (hok.2 s' hnext)

/-- The last event may lead the machines to different states. -/
theorem output_congr {α : Type*} {step' : Step σ E} {ok : σ → E → Prop} {out out' : σ → E → List α}
    (hstep : ∀ s e, ok s e → step s e = step' s e) (hout : ∀ s e, out s e = out' s e)
    {es : List E} {s : σ} (hok : Along step ok es s) (e : E) :
    output step out (es ++ [e]) s = output step' out' (es ++ [e]) s := by
  induction es generalizing s with
  | nil =>
    simp only [List.nil_append, output, hout s e]
    cases step s e <;> cases step' s e <;> rfl
  | cons e' es ih =>
    simp only [List.cons_append, output, hout s e', ← hstep s e' hok.1]
    cases hnext : step s e' with
    | none => rfl
    | some s' => exact congrArg _ (ih (hok.2 s' hnext))

/-- An invariant of the state and of what has been put out so far. -/
theorem run_output {α : Type*} {ok : σ → E → Prop} {out : σ → E → List α}
    {I : List α → σ → Prop}
    (hstep : ∀ {l s s' e}, ok s e → I l s → step s e = some s' → I (l ++ out s e) s')
    {es : List E} {l : List α} {s s' : σ} (hok : Along step ok es s) (hs : I l s)
    (h : run step es s = some s') : I (l ++ output step out es s) s' := by
  induction es generalizing l s with
  | nil =>
    cases h
    simpa [output] using hs
  | cons e es ih =>
    obtain ⟨t, ht, h⟩ := Option.bind_eq_some_iff.mp h
    have htail := ih (hok.2 t ht) (hstep hok.1 hs ht) h
    simpa only [output, ht, List.append_assoc] using htail

/-- The moment of something that has been put out, if each event puts out one thing. -/
theorem output_split {α : Type*} {out : σ → E → List α}
    (hout : ∀ {s s' e}, step s e = some s' → ∃ x, out s e = [x]) {es : List E} {s s' : σ}
    (h : run step es s = some s') {l₁ l₂ : List α} {x : α}
    (hx : output step out es s = l₁ ++ x :: l₂) :
    ∃ es₁ e es₂ t t', es = es₁ ++ e :: es₂ ∧ run step es₁ s = some t ∧ output step out es₁ s = l₁ ∧
      step t e = some t' ∧ out t e = [x] ∧ run step es₂ t' = some s' := by
  induction es generalizing s l₁ with
  | nil => cases l₁ <;> cases hx
  | cons e es ih =>
    obtain ⟨t, ht, hes⟩ := Option.bind_eq_some_iff.mp h
    obtain ⟨y, hy⟩ := hout ht
    simp only [output, ht, hy, List.singleton_append] at hx
    cases l₁ with
    | nil =>
      obtain ⟨rfl, -⟩ := List.cons.inj hx
      exact ⟨[], e, es, s, t, rfl, rfl, rfl, ht, hy, hes⟩
    | cons z l₁ =>
      obtain ⟨rfl, hrest⟩ := List.cons.inj hx
      obtain ⟨es₁, e', es₂, u, u', rfl, hrun, hl₁, hnext, hout', hes₂⟩ := ih hes hrest
      refine ⟨e :: es₁, e', es₂, u, u', rfl, Option.bind_eq_some_iff.mpr ⟨t, ht, hrun⟩, ?_, hnext,
        hout', hes₂⟩
      simp only [output, ht, hy, hl₁, List.singleton_append]

/-- The states a run goes through, the first one included. -/
def trace (step : Step σ E) : List E → σ → List σ
  | [], s => [s]
  | e :: es, s => s :: match step s e with
    | none => []
    | some s' => trace step es s'

theorem trace_eq_cons (es : List E) (s : σ) : ∃ rest, trace step es s = s :: rest := by
  cases es with
  | nil => exact ⟨[], rfl⟩
  | cons e es => exact ⟨_, rfl⟩

theorem forall_mem_trace {ok : σ → E → Prop} {I : σ → Prop}
    (hstep : ∀ {s s' e}, ok s e → I s → step s e = some s' → I s')
    {es : List E} {s : σ} (hok : Along step ok es s) (hs : I s) : ∀ t ∈ trace step es s, I t := by
  induction es generalizing s with
  | nil =>
    intro t ht
    rwa [List.mem_singleton.mp ht]
  | cons e es ih =>
    intro t ht
    obtain rfl | ht := List.mem_cons.mp ht
    · exact hs
    · split at ht
      · cases ht
      next s' hs' => exact ih (hok.2 s' hs') (hstep hok.1 hs hs') t ht

/-- What can be observed of the states of a run, once it can be, moves along `R`. -/
theorem isChain_trace {ok : σ → E → Prop} {I : σ → Prop} {α : Type u} {R : α → α → Prop}
    {observe : σ → Option α}
    (hstep : ∀ {s s' e}, ok s e → I s → step s e = some s' →
      I s' ∧ ∀ a, observe s = some a → ∃ b, observe s' = some b ∧ R a b)
    {es : List E} {s : σ} (hok : Along step ok es s) (hs : I s) :
    ((trace step es s).filterMap observe).IsChain R := by
  induction es generalizing s with
  | nil =>
    cases h : observe s with
    | none => simp [trace, h]
    | some a => simp [trace, h]
  | cons e es ih =>
    cases hnext : step s e with
    | none =>
      cases h : observe s with
      | none => simp [trace, hnext, h]
      | some a => simp [trace, hnext, h]
    | some s' =>
      obtain ⟨hs', hR⟩ := hstep hok.1 hs hnext
      have htail := ih (hok.2 s' hnext) hs'
      have hhead : ∃ rest, trace step es s' = s' :: rest := trace_eq_cons es s'
      obtain ⟨rest, hrest⟩ := hhead
      cases h : observe s with
      | none =>
        simp only [trace, hnext, List.filterMap_cons, h]
        exact htail
      | some a =>
        obtain ⟨b, hb, hab⟩ := hR a h
        simp only [trace, hnext, List.filterMap_cons, h]
        simp only [hrest, List.filterMap_cons, hb] at htail ⊢
        exact List.isChain_cons_cons.mpr ⟨hab, htail⟩

/-- The first observation of a run that begins with nothing to observe. -/
theorem head_trace {ok : σ → E → Prop} {I : σ → Prop} {α : Type u} {P : α → Prop}
    {observe : σ → Option α}
    (hstep : ∀ {s s' e}, ok s e → I s → step s e = some s' →
      I s' ∧ (observe s = none → ∀ a, observe s' = some a → P a))
    {es : List E} {s : σ} (hok : Along step ok es s) (hs : I s) (hnone : observe s = none) :
    ∀ a ∈ ((trace step es s).filterMap observe).head?, P a := by
  induction es generalizing s with
  | nil => simp [trace, hnone]
  | cons e es ih =>
    cases hnext : step s e with
    | none => simp [trace, hnext, hnone]
    | some s' =>
      obtain ⟨hs', hP⟩ := hstep hok.1 hs hnext
      simp only [trace, hnext, List.filterMap_cons, hnone]
      cases h : observe s' with
      | none => exact ih (hok.2 s' hnext) hs' h
      | some b =>
        have hhead : ∃ rest, trace step es s' = s' :: rest := trace_eq_cons es s'
        obtain ⟨rest, hrest⟩ := hhead
        simp only [hrest, List.filterMap_cons, h, List.head?_cons]
        intro a ha
        cases ha
        exact hP hnone b h

/-- The machine that keeps the states it has left, the last one first. -/
def remember (step : Step σ E) : Step (List σ × σ) E :=
  fun x e => (step x.2 e).map (fun s' => (x.2 :: x.1, s'))

theorem remember_eq_some {x y : List σ × σ} {e : E} :
    remember step x e = some y ↔ step x.2 e = some y.2 ∧ y.1 = x.2 :: x.1 := by
  unfold remember
  constructor
  · intro h
    obtain ⟨s', hs', rfl⟩ := Option.map_eq_some_iff.mp h
    exact ⟨hs', rfl⟩
  · rintro ⟨hnext, hpast⟩
    rw [hnext, Option.map_some, ← hpast]

theorem run_remember {es : List E} {s s' : σ} (past : List σ) (h : run step es s = some s') :
    ∃ past', run (remember step) es (past, s) = some (past', s') := by
  induction es generalizing s past with
  | nil =>
    cases h
    exact ⟨past, rfl⟩
  | cons e es ih =>
    obtain ⟨t, ht, h⟩ := Option.bind_eq_some_iff.mp h
    obtain ⟨past', hrun⟩ := ih (s :: past) h
    exact ⟨past', Option.bind_eq_some_iff.mpr ⟨_, remember_eq_some.mpr ⟨ht, rfl⟩, hrun⟩⟩

theorem map_trace_remember (es : List E) (past : List σ) (s : σ) :
    (trace (remember step) es (past, s)).map Prod.snd = trace step es s := by
  induction es generalizing past s with
  | nil => rfl
  | cons e es ih =>
    simp only [trace, remember, List.map_cons]
    cases step s e with
    | none => rfl
    | some s' => exact congrArg _ (ih (s :: past) s')

end Step

end PeerCompute.Interleaving
