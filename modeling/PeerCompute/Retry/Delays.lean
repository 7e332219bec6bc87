import PeerCompute.Retry.Backoff

/-! How long `Do` sleeps. -/

namespace PeerCompute.Retry

open PeerCompute.Interleaving PeerCompute.Data Prog

variable {ε : Type}

def delayOf : (Σ a : Action, a.Res ε) → Option Int
  | ⟨.sleep delay, _⟩ => some delay
  | ⟨.call, _⟩ | ⟨.err, _⟩ | ⟨.rand, _⟩ => none

/-- The delays of a run, in their order: the `n`-th one is slept after attempt `n`. -/
def slept (l : Journal (signature ε)) : List Int := l.filterMap delayOf

section

variable {cfg : Config} {maxAttempts fuel attempt : Nat} {outcome : Outcome ε} {done : Bool}
  {p l : Journal (signature ε)}

theorem slept_round (e : ε) (hjitter : ¬.ofInt 0 < cfg.jitter) (hp : Pause cfg attempt done p)
    (l : Journal (signature ε)) :
    slept (⟨Action.call, some e⟩ :: ⟨Action.err, false⟩ :: (p ++ l)) =
      backoff cfg attempt :: slept l := by
  cases hp with
  | plain => rfl
  | jittered h => exact absurd h hjitter

/-- Without jitter, the delays are those of the attempts one after the other. -/
theorem Trace.slept_eq (h : Trace cfg maxAttempts fuel attempt outcome l)
    (hjitter : ¬.ofInt 0 < cfg.jitter) {n : Nat} {d : Int} (hd : (slept l)[n]? = some d) :
    d = backoff cfg (attempt + n) := by
  induction h generalizing n with
  | running | success | done | last => cases hd
  | woken e hp =>
    have hround := slept_round e hjitter hp []
    rw [List.append_nil] at hround
    rw [hround] at hd
    cases n with
    | zero => exact (Option.some.inj hd).symm
    | succ n => cases hd
  | @again _ attempt e _ _ _ _ hp _ ih =>
    rw [slept_round e hjitter hp] at hd
    cases n with
    | zero => exact (Option.some.inj hd).symm
    | succ n =>
      rw [ih hd]
      congr 1
      omega

end

section

variable {cfg : Config}

theorem mul_two_pow_pos (hbase : 0 < cfg.baseDelay) (n : Nat) : 0 < cfg.baseDelay * 2 ^ n :=
  Int.mul_pos hbase (Int.pow_pos (by decide))

theorem truncate_eq (hbase : 0 < cfg.baseDelay) (hlt : cfg.baseDelay < 2 ^ 53) (n : Nat) :
    Binary64.truncate (.ofInt cfg.baseDelay * Binary64.pow2 n) =
      if cfg.baseDelay * 2 ^ n < 2 ^ 63 then cfg.baseDelay * 2 ^ n else -2 ^ 63 := by
  obtain ⟨b, hb⟩ := Int.eq_ofNat_of_zero_le (Int.le_of_lt hbase)
  rw [hb] at hbase hlt ⊢
  have hproduct : (b : Int) * 2 ^ n = ((b * 2 ^ n : Nat) : Int) := by
    push_cast
    rfl
  rw [Binary64.truncate_mul_pow2 (by omega) (by omega), hproduct]
  exact if_congr (by omega) rfl rfl

variable (hbase : 0 < cfg.baseDelay) (hlt : cfg.baseDelay < 2 ^ 53)
  (hmax : cfg.baseDelay ≤ cfg.maxDelay) {n : Nat}

include hbase hlt in
theorem backoff_of_lt (hfits : cfg.baseDelay * 2 ^ n < 2 ^ 63) :
    backoff cfg n = min (cfg.baseDelay * 2 ^ n) cfg.maxDelay := by
  unfold backoff
  rw [truncate_eq hbase hlt, if_pos hfits, Int.min_def]
  dsimp only
  split <;> split <;> omega

include hbase hlt hmax

/-- The least `int64` is below every cap. -/
theorem backoff_of_le (hover : 2 ^ 63 ≤ cfg.baseDelay * 2 ^ n) : backoff cfg n = -2 ^ 63 := by
  unfold backoff
  rw [truncate_eq hbase hlt, if_neg (Int.not_lt.mpr hover)]
  exact if_neg (by omega)

theorem backoff_eq_min_iff :
    backoff cfg n = min (cfg.baseDelay * 2 ^ n) cfg.maxDelay ↔ cfg.baseDelay * 2 ^ n < 2 ^ 63 := by
  refine ⟨fun heq => ?_, backoff_of_lt hbase hlt⟩
  by_contra hover
  have hpos : 0 < min (cfg.baseDelay * 2 ^ n) cfg.maxDelay :=
    Int.lt_min.mpr ⟨mul_two_pow_pos hbase n, by omega⟩
  rw [backoff_of_le hbase hlt hmax (Int.not_lt.mp hover)] at heq
  omega

theorem backoff_pos_iff : 0 < backoff cfg n ↔ cfg.baseDelay * 2 ^ n < 2 ^ 63 := by
  constructor
  · intro hpos
    by_contra hover
    rw [backoff_of_le hbase hlt hmax (Int.not_lt.mp hover)] at hpos
    omega
  · intro hfits
    rw [backoff_of_lt hbase hlt hfits]
    exact Int.lt_min.mpr ⟨mul_two_pow_pos hbase n, by omega⟩

/-- The delays decrease just where the product leaves the range. -/
theorem backoff_le_succ_iff : backoff cfg n ≤ backoff cfg (n + 1) ↔
    (cfg.baseDelay * 2 ^ n < 2 ^ 63 → cfg.baseDelay * 2 ^ (n + 1) < 2 ^ 63) := by
  have hpos := mul_two_pow_pos hbase n
  have hsucc : cfg.baseDelay * 2 ^ (n + 1) = 2 * (cfg.baseDelay * 2 ^ n) := by ring
  constructor
  · intro hle hfits
    have hbackoff := (backoff_pos_iff hbase hlt hmax).mpr hfits
    exact (backoff_pos_iff hbase hlt hmax).mp (by omega)
  · intro hnext
    by_cases hfits : cfg.baseDelay * 2 ^ n < 2 ^ 63
    · rw [backoff_of_lt hbase hlt hfits, backoff_of_lt hbase hlt (hnext hfits)]
      exact Int.le_min.mpr ⟨Int.le_trans (Int.min_le_left _ _) (by omega), Int.min_le_right _ _⟩
    · rw [backoff_of_le hbase hlt hmax (Int.not_lt.mp hfits),
        backoff_of_le hbase hlt hmax (by omega)]

/-- Without jitter, the delay after attempt `n` is the capped power, and positive, exactly if the
product of the base delay and the power fits into 64 bits: the cap comes after the conversion. -/
theorem delays_iff {σ : Type} (hjitter : ¬.ofInt 0 < cfg.jitter) (exec : Exec (signature ε) σ)
    (fuel : Nat) {s s' : σ} {outcome : Outcome ε}
    (hrun : (Do cfg fuel).run exec s = some (outcome, s')) {d : Int}
    (hd : (slept ((Do cfg fuel).journal exec s))[n]? = some d) :
    (d = min (cfg.baseDelay * 2 ^ n) cfg.maxDelay ↔ cfg.baseDelay * 2 ^ n < 2 ^ 63) ∧
      (0 < d ↔ cfg.baseDelay * 2 ^ n < 2 ^ 63) ∧
      ∀ d', (slept ((Do cfg fuel).journal exec s))[n + 1]? = some d' → (d ≤ d' ↔
        (cfg.baseDelay * 2 ^ n < 2 ^ 63 → cfg.baseDelay * 2 ^ (n + 1) < 2 ^ 63)) := by
  have hattempts : 0 ≤ cfg.maxAttempts := by
    by_contra hneg
    unfold Do at hd
    rw [if_pos (by omega)] at hd
    cases hd
  have htrace := logs_iff.mp (logs_Do hattempts s) outcome s' hrun
  have heq : d = backoff cfg n := by simpa using htrace.slept_eq hjitter hd
  refine ⟨?_, ?_, fun d' hd' => ?_⟩
  · rw [heq]
    exact backoff_eq_min_iff hbase hlt hmax
  · rw [heq]
    exact backoff_pos_iff hbase hlt hmax
  · have heq' : d' = backoff cfg (n + 1) := by simpa using htrace.slept_eq hjitter hd'
    rw [heq, heq']
    exact backoff_le_succ_iff hbase hlt hmax

end

theorem delays_secondAttempt :
    (Do aConfig 3).run failing 3 = some (.returned (some ()), 0) ∧
      (slept ((Do aConfig 3).journal failing 3))[1]? = some 1000000000 ∧
      (1000000000 : Int) = min (aConfig.baseDelay * 2 ^ 1) aConfig.maxDelay := by
  have hrun : (Do aConfig 3).run failing 3 = some (.returned (some ()), 0) := rfl
  have hd : (slept ((Do aConfig 3).journal failing 3))[1]? = some 1000000000 := by decide +kernel
  have hiff := delays_iff (by decide) (by decide) (by decide) (by decide +kernel) failing 3 hrun hd
  exact ⟨hrun, hd, hiff.1.mpr (by decide)⟩

/-- An unlimited number of attempts. -/
def unlimited : Config := { aConfig with maxAttempts := 0 }

/-- After attempt 34 the delays are those of a busy loop. -/
theorem delay_overflows :
    (Do unlimited 37).run failing 40 = some (.running, 3) ∧
      (slept ((Do unlimited 37).journal failing 40))[34]? = some 5000000000 ∧
      (slept ((Do unlimited 37).journal failing 40))[35]? = some (-9223372036854775808) := by
  refine ⟨rfl, ?_, ?_⟩
  · decide +kernel
  · decide +kernel

end PeerCompute.Retry
