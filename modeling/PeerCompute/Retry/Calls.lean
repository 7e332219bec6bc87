import PeerCompute.Retry.Backoff

/-! How often `Do` calls its function, and what it returns. -/

namespace PeerCompute.Retry

open PeerCompute.Interleaving Prog

variable {ε : Type}

/-- The result of a call of `fn`. -/
def called : (Σ a : Action, a.Res ε) → Option (Option ε)
  | ⟨.call, r⟩ => some r
  | ⟨.err, _⟩ | ⟨.rand, _⟩ | ⟨.sleep _, _⟩ => none

/-- The results of the calls of `fn`, in their order. -/
def calls (l : Journal (signature ε)) : List (Option ε) := l.filterMap called

/-- The context is seen to be done. -/
def Cancels : (Σ a : Action, a.Res ε) → Prop
  | ⟨.err, (done : Bool)⟩ | ⟨.sleep _, (done : Bool)⟩ => done = true
  | ⟨.call, _⟩ | ⟨.rand, _⟩ => False

/-- A success, or the context is seen to be done. -/
def Stops (y : Σ a : Action, a.Res ε) : Prop := called y = some none ∨ Cancels y

/-- What `Do` promises of its calls.  A loop that is still running has made as many calls as it has
fuel. -/
structure Promise (maxAttempts fuel : Nat) (outcome : Outcome ε) (l : Journal (signature ε)) :
    Prop where
  nil_iff : outcome = .returned none ↔ (calls l).getLast? = some none
  calls_ne_nil : 0 < fuel → calls l ≠ []
  length_calls_le : 0 < maxAttempts → (calls l).length ≤ maxAttempts
  stops : l.Pairwise (fun y z => Stops y → z.1 ≠ Action.call)
  cancelled_iff : outcome = .cancelled ↔ ∃ y ∈ l, Cancels y
  exhausted : ∀ e, outcome = .returned (some e) →
    0 < maxAttempts ∧ (calls l).length = maxAttempts ∧ (calls l).getLast? = some (some e)
  running : outcome = .running → (calls l).length = fuel ∧ (0 < maxAttempts → fuel < maxAttempts)

section

variable {cfg : Config} {maxAttempts fuel attempt : Nat} {outcome : Outcome ε} {done : Bool}
  {p l : Journal (signature ε)}

/-! ## One round -/

theorem calls_nil : calls ([] : Journal (signature ε)) = [] := rfl

theorem calls_success : calls ([⟨Action.call, none⟩] : Journal (signature ε)) = [none] := rfl

theorem calls_call (r : Option ε) (l : Journal (signature ε)) :
    calls (⟨Action.call, r⟩ :: l) = r :: calls l := rfl

theorem calls_err (done : Bool) (l : Journal (signature ε)) :
    calls (⟨Action.err, done⟩ :: l) = calls l := rfl

theorem Pause.calls_append (hp : Pause cfg attempt done p) (l : Journal (signature ε)) :
    calls (p ++ l) = calls l := by
  cases hp with
  | plain => rfl
  | jittered => rfl

theorem calls_round (e : ε) (hp : Pause cfg attempt done p) (l : Journal (signature ε)) :
    calls (⟨Action.call, some e⟩ :: ⟨Action.err, false⟩ :: (p ++ l)) = some e :: calls l := by
  rw [calls_call, calls_err, hp.calls_append]

theorem calls_once (e : ε) (done : Bool) :
    calls [⟨Action.call, some e⟩, ⟨Action.err, done⟩] = [some e] := rfl

theorem calls_woken (e : ε) (hp : Pause cfg attempt done p) :
    calls (⟨Action.call, some e⟩ :: ⟨Action.err, false⟩ :: p) = [some e] := by
  have hround := calls_round e hp []
  rwa [List.append_nil] at hround

theorem getLast?_cons_some_none (e : ε) (cs : List (Option ε)) :
    (some e :: cs).getLast? = some none ↔ cs.getLast? = some none := by
  rw [List.getLast?_cons]
  cases cs.getLast? with
  | none => simp
  | some r => simp

theorem not_stops_call (e : ε) : ¬Stops ⟨Action.call, some e⟩ := by
  rintro (h | h) <;> cases h

theorem not_stops_err : ¬Stops (⟨Action.err, false⟩ : Σ a : Action, a.Res ε) := by
  rintro (h | h) <;> cases h

theorem not_stops_rand (r : Float.Model) :
    ¬Stops (⟨Action.rand, r⟩ : Σ a : Action, a.Res ε) := by
  rintro (h | h) <;> cases h

theorem not_stops_sleep (d : Int) :
    ¬Stops (⟨Action.sleep d, false⟩ : Σ a : Action, a.Res ε) := by
  rintro (h | h) <;> cases h

theorem Pause.not_stops (hp : Pause cfg attempt false p) : ∀ y ∈ p, ¬Stops y := by
  cases hp with
  | plain => exact List.forall_mem_singleton.mpr (not_stops_sleep _)
  | jittered _ r =>
    exact List.forall_mem_cons.mpr ⟨not_stops_rand r,
      List.forall_mem_singleton.mpr (not_stops_sleep _)⟩

theorem pairwise_append_of_not_stops (hp : ∀ y ∈ p, ¬Stops y)
    (hl : l.Pairwise (fun y _ => ¬Stops y)) : (p ++ l).Pairwise (fun y _ => ¬Stops y) := by
  induction p with
  | nil => exact hl
  | cons y p ih => exact .cons (fun _ _ => hp y (.head _)) (ih (fun z hz => hp z (.tail _ hz)))

/-- Whatever follows the call and the test of the context. -/
theorem pairwise_round (e : ε) (hl : l.Pairwise (fun y _ => ¬Stops y)) :
    List.Pairwise (fun y _ => ¬Stops y)
      ((⟨Action.call, some e⟩ :: ⟨Action.err, false⟩ :: l : Journal (signature ε))) :=
  .cons (fun _ _ => not_stops_call e) (.cons (fun _ _ => not_stops_err) hl)

theorem exists_cancels_round (e : ε) (l : Journal (signature ε)) :
    (∃ y ∈ ⟨Action.call, some e⟩ :: ⟨Action.err, false⟩ :: l, Cancels y) ↔
      ∃ y ∈ l, Cancels y := by
  constructor
  · rintro ⟨y, hy, hcancels⟩
    cases hy with
    | head => exact absurd (.inr hcancels) (not_stops_call e)
    | tail _ hy =>
      cases hy with
      | head => exact absurd (.inr hcancels) not_stops_err
      | tail _ hy => exact ⟨y, hy, hcancels⟩
  · rintro ⟨y, hy, hcancels⟩
    exact ⟨y, .tail _ (.tail _ hy), hcancels⟩

theorem Pause.pairwise (hp : Pause cfg attempt true p) : p.Pairwise (fun y _ => ¬Stops y) := by
  cases hp with
  | plain => exact List.pairwise_singleton _ _
  | jittered _ r => exact .cons (fun _ _ => not_stops_rand r) (List.pairwise_singleton _ _)

theorem Pause.cancels (hp : Pause cfg attempt true p) : ∃ y ∈ p, Cancels y := by
  cases hp with
  | plain => exact ⟨_, .head _, rfl⟩
  | jittered => exact ⟨_, .tail _ (.head _), rfl⟩

/-! ## All rounds -/

theorem Trace.nil_iff (h : Trace cfg maxAttempts fuel attempt outcome l) :
    outcome = .returned none ↔ (calls l).getLast? = some none := by
  induction h with
  | running => simp [calls_nil]
  | success => simp [calls_success]
  | done e => simp [calls_once]
  | last e => simp [calls_once]
  | woken e hp => simp [calls_woken e hp]
  | again e _ hp _ ih => rw [ih, calls_round e hp, getLast?_cons_some_none]

theorem Trace.calls_ne_nil (h : Trace cfg maxAttempts fuel attempt outcome l) (hfuel : 0 < fuel) :
    calls l ≠ [] := by
  cases h with
  | running => omega
  | success => simp [calls_call]
  | done e => simp [calls_once]
  | last e => simp [calls_once]
  | woken e hp => simp [calls_woken e hp]
  | again e _ hp => simp [calls_round e hp]

theorem Trace.length_calls_le (h : Trace cfg maxAttempts fuel attempt outcome l)
    (hentry : attempt < maxAttempts) : attempt + (calls l).length ≤ maxAttempts := by
  induction h with
  | running => exact Nat.le_of_lt hentry
  | success => exact hentry
  | done e => exact hentry
  | last e => exact hentry
  | woken e hp =>
    rw [calls_woken e hp]
    exact hentry
  | again e hnext hp _ ih =>
    have hle := ih (by omega)
    rw [calls_round e hp, List.length_cons]
    omega

theorem Trace.exhausted (h : Trace cfg maxAttempts fuel attempt outcome l) (e : ε)
    (houtcome : outcome = .returned (some e)) :
    attempt + (calls l).length = maxAttempts ∧ (calls l).getLast? = some (some e) := by
  induction h with
  | running | success | done | woken => cases houtcome
  | last e' hlast =>
    cases houtcome
    exact ⟨hlast, rfl⟩
  | again e' _ hp _ ih =>
    obtain ⟨hlength, hlast⟩ := ih houtcome
    rw [calls_round e' hp, List.length_cons, List.getLast?_cons, hlast]
    exact ⟨by omega, rfl⟩

theorem Trace.running_fuel (h : Trace cfg maxAttempts fuel attempt outcome l)
    (houtcome : outcome = .running) :
    (calls l).length = fuel ∧ (attempt < maxAttempts → attempt + fuel < maxAttempts) := by
  induction h with
  | running => exact ⟨rfl, id⟩
  | success | done | last | woken => cases houtcome
  | again e hnext hp _ ih =>
    obtain ⟨hlength, hfuel⟩ := ih houtcome
    rw [calls_round e hp, List.length_cons, hlength]
    refine ⟨rfl, fun hentry => ?_⟩
    have hlt := hfuel (by omega)
    omega

/-- Nothing follows a stop. -/
theorem Trace.pairwise (h : Trace cfg maxAttempts fuel attempt outcome l) :
    l.Pairwise (fun y _ => ¬Stops y) := by
  induction h with
  | running => exact .nil
  | success => exact List.pairwise_singleton _ _
  | done e => exact .cons (fun _ _ => not_stops_call e) (List.pairwise_singleton _ _)
  | last e => exact pairwise_round e .nil
  | woken e hp => exact pairwise_round e hp.pairwise
  | again e _ hp _ ih =>
    exact pairwise_round e (pairwise_append_of_not_stops hp.not_stops ih)

theorem Trace.cancelled_iff (h : Trace cfg maxAttempts fuel attempt outcome l) :
    outcome = .cancelled ↔ ∃ y ∈ l, Cancels y := by
  induction h with
  | running => simp
  | success =>
    constructor
    · intro h
      cases h
    · rintro ⟨y, hy, hcancels⟩
      obtain rfl := List.mem_singleton.mp hy
      cases hcancels
  | done e => exact ⟨fun _ => ⟨_, .tail _ (.head _), rfl⟩, fun _ => rfl⟩
  | last e =>
    rw [exists_cancels_round]
    simp
  | woken e hp => exact ⟨fun _ => (exists_cancels_round e _).mpr hp.cancels, fun _ => rfl⟩
  | again e _ hp _ ih =>
    rw [ih, exists_cancels_round]
    constructor
    · rintro ⟨y, hy, hcancels⟩
      exact ⟨y, List.mem_append_right _ hy, hcancels⟩
    · rintro ⟨y, hy, hcancels⟩
      obtain hy | hy := List.mem_append.mp hy
      · exact absurd (.inr hcancels) (hp.not_stops y hy)
      · exact ⟨y, hy, hcancels⟩

theorem Trace.promise (h : Trace cfg maxAttempts fuel 0 outcome l) :
    Promise maxAttempts fuel outcome l where
  nil_iff := h.nil_iff
  calls_ne_nil := h.calls_ne_nil
  length_calls_le hpos := by simpa using h.length_calls_le hpos
  stops := h.pairwise.imp (fun hstops hy => absurd hy hstops)
  cancelled_iff := h.cancelled_iff
  exhausted e houtcome := by
    obtain ⟨hlength, hlast⟩ := h.exhausted e houtcome
    have hpos := List.length_pos_of_mem (List.mem_of_getLast? hlast)
    exact ⟨by omega, by omega, hlast⟩
  running houtcome := by
    obtain ⟨hlength, hfuel⟩ := h.running_fuel houtcome
    exact ⟨hlength, fun hpos => by simpa using hfuel hpos⟩

end

/-- Whatever `fn` returns and whenever the context gets done, `Do` keeps its promises, and what it
returns does not depend on the fuel. -/
theorem do_calls {σ : Type} {cfg : Config} (hmax : 0 ≤ cfg.maxAttempts)
    (exec : Exec (signature ε) σ) (fuel : Nat) (s : σ) :
    ((∀ a t, exec a t ≠ none) → ∃ outcome s', (Do cfg fuel).run exec s = some (outcome, s')) ∧
      ∀ outcome s', (Do cfg fuel).run exec s = some (outcome, s') →
        Promise cfg.maxAttempts.toNat fuel outcome ((Do cfg fuel).journal exec s) ∧
          (outcome ≠ .running → ∀ more,
            (Do cfg (fuel + more)).run exec s = some (outcome, s') ∧
              (Do cfg (fuel + more)).journal exec s = (Do cfg fuel).journal exec s) := by
  refine ⟨fun hexec => exists_run hexec _ s, fun outcome s' hrun => ⟨?_, fun houtcome => ?_⟩⟩
  · exact (logs_iff.mp (logs_Do hmax s) outcome s' hrun).promise
  · exact runs_Do_add ⟨hrun, rfl⟩ houtcome

theorem do_calls_thirdAttempt :
    (Do aConfig 3).run failing 2 = some (.returned none, 0) ∧
      Promise 3 3 (.returned none) ((Do aConfig 3).journal failing 2) := by
  have hrun : (Do aConfig 3).run failing 2 = some (.returned none, 0) := rfl
  exact ⟨hrun, ((do_calls (by decide) failing 3 2).2 _ _ hrun).1⟩

end PeerCompute.Retry
