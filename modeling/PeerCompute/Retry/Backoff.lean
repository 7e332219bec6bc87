import PeerCompute.Data.Binary64
import PeerCompute.Retry.Do

/-! `Do`, with the delays between its attempts and what a run of it looks like. -/

namespace PeerCompute.Retry

open PeerCompute.Interleaving PeerCompute.Data Prog

/-- The delays are in nanoseconds. -/
structure Config where
  maxAttempts : Int
  baseDelay : Int
  maxDelay : Int
  jitter : Float.Model

/-- A call of `fn`, `ctx.Err() != nil`, `rand.Float64()`, and the `select` that ends with the
context or after the delay. -/
inductive Action
  | call
  | err
  | rand
  | sleep (delay : Int)
  deriving DecidableEq

def Action.Res (ε : Type) : Action → Type
  | call => Option ε
  | err | sleep _ => Bool
  | rand => Float.Model

def signature (ε : Type) : Signature := ⟨Action, Action.Res ε⟩

/-- `time.Duration(float64(cfg.BaseDelay) * math.Pow(2, float64(attempt)))`, then the cap. -/
def backoff (cfg : Config) (attempt : Nat) : Int :=
  let delay := Binary64.truncate (.ofInt cfg.baseDelay * Binary64.pow2 attempt)
  if cfg.maxDelay < delay then cfg.maxDelay else delay

/-- `delay + time.Duration(float64(delay) * cfg.Jitter * (2*r - 1))`, a sum of 64 bits. -/
def jittered (cfg : Config) (delay : Int) (r : Float.Model) : Int :=
  let jitter := Binary64.truncate (.ofInt delay * cfg.jitter * (.ofInt 2 * r - .ofInt 1))
  let sum := Int.bmod (delay + jitter) 18446744073709551616
  if sum < 0 then cfg.baseDelay else sum

section

variable {ε : Type}

namespace Call

def call : Prog (signature ε) (Option ε) := perform (S := signature ε) .call

def err : Prog (signature ε) Bool := perform (S := signature ε) .err

def rand : Prog (signature ε) Float.Model := perform (S := signature ε) .rand

def sleep (delay : Int) : Prog (signature ε) Bool := perform (S := signature ε) (.sleep delay)

end Call

def pause (cfg : Config) (attempt : Nat) : Prog (signature ε) Bool :=
  if .ofInt 0 < cfg.jitter then do
    let r ← Call.rand
    Call.sleep (jittered cfg (backoff cfg attempt) r)
  else Call.sleep (backoff cfg attempt)

def context (cfg : Config) : Context (signature ε) := ⟨Call.err, pause cfg⟩

/-- `fn` as the loop sees it. -/
def callFn (_ : Unit) : Prog (signature ε) (Unit × Option ε) := do
  let err ← Call.call
  return ((), err)

/-- The loop is not entered if `MaxAttempts` is negative. -/
def Do (cfg : Config) (fuel : Nat) : Prog (signature ε) (Outcome ε) := do
  if cfg.maxAttempts < 0 then return .returned none
  else
    let (_, outcome) ← loop cfg.maxAttempts.toNat (context cfg) callFn fuel 0 none ()
    return outcome

end

/-! ## The journal of a run -/

section

variable {ε : Type} {cfg : Config} {maxAttempts fuel attempt : Nat} {outcome : Outcome ε}
  {l : Journal (signature ε)}

/-- The journal of the sleep after an attempt. -/
inductive Pause (cfg : Config) (attempt : Nat) (done : Bool) : Journal (signature ε) → Prop
  | plain (h : ¬.ofInt 0 < cfg.jitter) :
      Pause cfg attempt done [⟨Action.sleep (backoff cfg attempt), done⟩]
  | jittered (h : .ofInt 0 < cfg.jitter) (r : Float.Model) :
      Pause cfg attempt done [⟨Action.rand, r⟩,
        ⟨Action.sleep (jittered cfg (backoff cfg attempt) r), done⟩]

/-- The journals of the loop from an attempt on. -/
inductive Trace (cfg : Config) (maxAttempts : Nat) :
    (fuel attempt : Nat) → Outcome ε → Journal (signature ε) → Prop
  | running {attempt : Nat} : Trace cfg maxAttempts 0 attempt .running []
  | success {fuel attempt : Nat} :
      Trace cfg maxAttempts (fuel + 1) attempt (.returned none) [⟨Action.call, none⟩]
  | done {fuel attempt : Nat} (e : ε) :
      Trace cfg maxAttempts (fuel + 1) attempt .cancelled
        [⟨Action.call, some e⟩, ⟨Action.err, true⟩]
  | last {fuel attempt : Nat} (e : ε) (h : attempt + 1 = maxAttempts) :
      Trace cfg maxAttempts (fuel + 1) attempt (.returned (some e))
        [⟨Action.call, some e⟩, ⟨Action.err, false⟩]
  | woken {fuel attempt : Nat} (e : ε) {p : Journal (signature ε)} (hp : Pause cfg attempt true p) :
      Trace cfg maxAttempts (fuel + 1) attempt .cancelled
        (⟨Action.call, some e⟩ :: ⟨Action.err, false⟩ :: p)
  | again {fuel attempt : Nat} (e : ε) {p l : Journal (signature ε)} {outcome : Outcome ε}
      (h : maxAttempts = 0 ∨ attempt + 1 < maxAttempts) (hp : Pause cfg attempt false p)
      (hl : Trace cfg maxAttempts fuel (attempt + 1) outcome l) :
      Trace cfg maxAttempts (fuel + 1) attempt outcome
        (⟨Action.call, some e⟩ :: ⟨Action.err, false⟩ :: (p ++ l))

variable {σ : Type} {exec : Exec (signature ε) σ}

theorem logs_pause (s : σ) :
    Logs exec (pause cfg attempt) s (fun done _ l => Pause cfg attempt done l) := by
  unfold pause
  split
  next h =>
    refine logs_act.mpr (fun r _ _ => logs_act.mpr (fun done _ _ => logs_ret.mpr ?_))
    exact .jittered h r
  next h => exact logs_act.mpr (fun done _ _ => logs_ret.mpr (.plain h))

/-- The test of the last attempt agrees with the condition of the loop, which holds whenever it is
looked at. -/
theorem logs_loop (hentry : maxAttempts = 0 ∨ attempt < maxAttempts) (last : Option ε) (s : σ) :
    Logs exec (loop maxAttempts (context cfg) callFn fuel attempt last ()) s
      (fun y _ l => Trace cfg maxAttempts fuel attempt y.2 l) := by
  induction fuel generalizing attempt last s with
  | zero => exact logs_ret.mpr .running
  | succ fuel ih =>
    unfold loop
    rw [if_pos hentry]
    refine logs_act.mpr (fun err _ _ => ?_)
    cases err with
    | none => exact logs_ret.mpr .success
    | some e =>
      refine logs_act.mpr (fun done s' _ => ?_)
      cases done with
      | true => exact logs_ret.mpr (.done e)
      | false =>
        change Logs (S := signature ε) exec (if _ then _ else _) _ _
        split
        · exact logs_ret.mpr (.last e (by omega))
        · refine Logs.bind ((logs_pause s').mono (fun done s'' p hp => ?_))
          cases done with
          | true =>
            refine logs_ret.mpr ?_
            rw [List.append_nil]
            exact .woken e hp
          | false =>
            have hnext : maxAttempts = 0 ∨ attempt + 1 < maxAttempts := by omega
            exact (ih hnext (some e) s'').mono (fun _ _ _ hl => .again e hnext hp hl)

theorem logs_Do (hmax : 0 ≤ cfg.maxAttempts) (s : σ) :
    Logs exec (Do cfg fuel) s
      (fun outcome _ l => Trace cfg cfg.maxAttempts.toNat fuel 0 outcome l) := by
  unfold Do
  rw [if_neg (by omega)]
  refine Logs.bind ((logs_loop (by omega) none s).mono (fun y _ l hl => logs_ret.mpr ?_))
  rw [List.append_nil]
  exact hl

/-- More fuel changes nothing once `Do` returns. -/
theorem runs_Do_add {s t : σ} (h : Runs exec (Do cfg fuel) s outcome t l)
    (houtcome : outcome ≠ .running) (more : Nat) :
    Runs exec (Do cfg (fuel + more)) s outcome t l := by
  induction more with
  | zero => exact h
  | succ more ih =>
    unfold Do at ih ⊢
    split at ih
    next hneg =>
      rw [if_pos hneg]
      exact ih
    next hneg =>
      rw [if_neg hneg]
      obtain ⟨y, u, before, after, hloop, hret, rfl⟩ := runs_bind.mp ih
      obtain ⟨rfl, -⟩ := runs_ret.mp hret
      exact runs_bind.mpr ⟨y, u, before, after, runs_loop_succ hloop houtcome, hret, rfl⟩

end

/-- Three attempts, half a second and at most five seconds apart, as the agent's, without jitter. -/
def aConfig : Config where
  maxAttempts := 3
  baseDelay := 500000000
  maxDelay := 5000000000
  jitter := .ofInt 0

/-- A function that fails some more times, under a context that does not get done. -/
def failing : Exec (signature Unit) Nat
  | .call, 0 => some ((none : Option Unit), 0)
  | .call, k + 1 => some (some (), k)
  | .err, k => some (false, k)
  | .rand, k => some ((.ofInt 0 : Float.Model), k)
  | .sleep _, k => some (false, k)

end PeerCompute.Retry
