import Mathlib

/-! Numbers with an exact representation in binary floating point: how the standard library's model
of a format rounds, packs and multiplies them. -/

namespace PeerCompute.Data.Binary64

open Float.Model Float.Model.UnpackedFloat

section

variable {S : Format} {m j : Nat} {e : Int} {s : Sign}

/-- A significand that uses the implicit bit. -/
structure Normal (S : Format) (m : Nat) : Prop where
  le : 2 ^ S.mantissaBitsWithoutImplicit ≤ m
  lt : m < 2 ^ (S.mantissaBitsWithoutImplicit + 1)

theorem Normal.pos (h : Normal S m) : 0 < m := Nat.lt_of_lt_of_le (Nat.two_pow_pos _) h.le

theorem Normal.log2 (h : Normal S m) : m.log2 = S.mantissaBitsWithoutImplicit :=
  (Nat.log2_eq_iff h.pos.ne').mpr ⟨h.le, h.lt⟩

theorem log2_mul_two_pow (h : 0 < m) (j : Nat) : (m * 2 ^ j).log2 = m.log2 + j := by
  refine (Nat.log2_eq_iff (Nat.mul_pos h (Nat.two_pow_pos j)).ne').mpr ⟨?_, ?_⟩
  · rw [Nat.pow_add]
    exact Nat.mul_le_mul_right _ (Nat.log2_self_le h.ne')
  · rw [show m.log2 + j + 1 = m.log2 + 1 + j by omega, Nat.pow_add]
    exact Nat.mul_lt_mul_of_pos_right Nat.lt_log2_self (Nat.two_pow_pos j)

/-- Only zeros are shifted out. -/
theorem shiftRight_mul_two_pow (m j : Nat) :
    ExtendedMantissa.ofMantissaAndAccuracy (m * 2 ^ j) .exact >>> j =
      ExtendedMantissa.ofMantissaAndAccuracy m .exact := by
  induction j generalizing m with
  | zero => rw [Nat.pow_zero, Nat.mul_one]; rfl
  | succ j ih =>
    have hstep : m * 2 ^ (j + 1) = m * 2 * 2 ^ j := by ring
    change ExtendedMantissa.shiftRightOne (ExtendedMantissa.ofMantissaAndAccuracy _ .exact >>> j) = _
    rw [hstep, ih]
    simp [ExtendedMantissa.shiftRightOne, ExtendedMantissa.ofMantissaAndAccuracy]

theorem shiftToTargetExponent_normal (hm : Normal S m) (he : S.minExponent ≤ e + j) :
    shiftToTargetExponent S (m * 2 ^ j) e .exact =
      (ExtendedMantissa.ofMantissaAndAccuracy m .exact, e + j) := by
  have htarget : S.targetExponent (totalExponent (m * 2 ^ j) e) = e + j := by
    rw [Format.targetExponent, totalExponent, log2_mul_two_pow hm.pos, hm.log2, Format.mantissaBits]
    push_cast
    omega
  have hshift : (e + j - e).toNat = j := by omega
  rw [shiftToTargetExponent, htarget, shiftToExponent, hshift, shiftRight_mul_two_pow]

/-- A number with a normal significand is not rounded. -/
theorem roundWithAccuracy_normal (hm : Normal S m) (he : S.minExponent ≤ e + j) :
    roundWithAccuracy S s (m * 2 ^ j) e .exact = .finite s m (e + j) hm.pos := by
  have hagain := shiftToTargetExponent_normal (j := 0) hm (e := e + j) (by simpa using he)
  rw [Nat.pow_zero, Nat.mul_one] at hagain
  have hrounded : (ExtendedMantissa.ofMantissaAndAccuracy m .exact).roundedMantissa = m := rfl
  have hmantissa : (ExtendedMantissa.ofMantissaAndAccuracy m .exact).mantissa = m := rfl
  unfold roundWithAccuracy
  rw [shiftToTargetExponent_normal hm he]
  dsimp only
  simp only [hrounded, hagain, hmantissa, hm.pos.ne', dite_false, Nat.cast_zero, Int.add_zero]

theorem normal_of_log2_le (hm : 0 < m) (hlog : m.log2 ≤ S.mantissaBitsWithoutImplicit) :
    Normal S (m * 2 ^ (S.mantissaBitsWithoutImplicit - m.log2)) := by
  have hlog2 := log2_mul_two_pow hm (S.mantissaBitsWithoutImplicit - m.log2)
  rw [Nat.add_sub_cancel' hlog] at hlog2
  have hpos := Nat.mul_pos hm (Nat.two_pow_pos (S.mantissaBitsWithoutImplicit - m.log2))
  obtain ⟨hle, hlt⟩ := (Nat.log2_eq_iff hpos.ne').mp hlog2
  exact ⟨hle, hlt⟩

/-- A number of few bits is not rounded. -/
theorem round_of_log2_le (hm : 0 < m) (hlog : m.log2 ≤ S.mantissaBitsWithoutImplicit)
    (he : S.minExponent ≤ e + m.log2 - S.mantissaBitsWithoutImplicit) :
    UnpackedFloat.round S s m e =
      .finite s (m * 2 ^ (S.mantissaBitsWithoutImplicit - m.log2))
        (e + m.log2 - S.mantissaBitsWithoutImplicit) (normal_of_log2_le hm hlog).pos := by
  have htarget : S.targetExponent (totalExponent m e) =
      e + m.log2 - S.mantissaBitsWithoutImplicit := by
    rw [Format.targetExponent, totalExponent, Format.mantissaBits]
    push_cast
    omega
  have hshift : (e - (e + m.log2 - S.mantissaBitsWithoutImplicit)).toNat =
      S.mantissaBitsWithoutImplicit - m.log2 := by omega
  have hexponent : e - ((S.mantissaBitsWithoutImplicit - m.log2 : Nat) : Int) =
      e + m.log2 - S.mantissaBitsWithoutImplicit := by omega
  have hround := roundWithAccuracy_normal (j := 0) (s := s) (normal_of_log2_le hm hlog)
    (e := e + m.log2 - S.mantissaBitsWithoutImplicit) (by simpa using he)
  rw [Nat.pow_zero, Nat.mul_one] at hround
  rw [UnpackedFloat.round, htarget, decreaseExponent, hshift, Nat.shiftLeft_eq, hexponent]
  simpa using hround

/-! ## Packing -/

theorem minExponent_eq (S : Format) :
    S.minExponent = 1 - S.exponentBias - S.mantissaBitsWithoutImplicit := by
  have hpos := Nat.two_pow_pos (S.exponentBits - 1)
  rw [Format.minExponent, Format.exponentBias, Format.mantissaBits]
  push_cast [Nat.cast_sub hpos]
  ring

theorem two_pow_exponentBits (S : Format) : 2 ^ S.exponentBits = 2 * S.exponentBias + 2 := by
  have hpos := Nat.two_pow_pos (S.exponentBits - 1)
  have hsucc : 2 ^ S.exponentBits = 2 * 2 ^ (S.exponentBits - 1) := by
    rw [← Nat.pow_succ', Nat.succ_eq_add_one, Nat.sub_add_cancel S.he]
  rw [Format.exponentBias]
  omega

theorem toNat_append_implicit {f : Nat} (x : BitVec f) : (1#1 ++ x).toNat = 2 ^ f + x.toNat := by
  rw [BitVec.toNat_append, ← Nat.shiftLeft_add_eq_or_of_lt x.isLt]
  simp [Nat.shiftLeft_eq]

/-- The implicit bit is put back. -/
theorem Normal.toNat_append (hm : Normal S m) :
    (1#1 ++ BitVec.ofNat S.mantissaBitsWithoutImplicit m).toNat = m := by
  have hmod : m % 2 ^ S.mantissaBitsWithoutImplicit = m - 2 ^ S.mantissaBitsWithoutImplicit := by
    have hlt := hm.lt
    rw [Nat.pow_succ] at hlt
    rw [Nat.mod_eq_sub_mod hm.le, Nat.mod_eq_of_lt (by omega)]
  have hle := hm.le
  rw [toNat_append_implicit, BitVec.toNat_ofNat, hmod]
  omega

/-- A normal number is packed without loss if its exponent fits. -/
theorem unpack_pack_normal (hm : Normal S m) (hlo : S.minExponent ≤ e)
    (hhi : e ≤ S.exponentBias - S.mantissaBitsWithoutImplicit) :
    UnpackedFloat.unpack S (UnpackedFloat.pack S (.finite s m e hm.pos)) =
      .finite s m e hm.pos := by
  have hcapacity := two_pow_exponentBits S
  rw [minExponent_eq] at hlo
  obtain ⟨b, hb⟩ := Int.eq_ofNat_of_zero_le
    (show 0 ≤ e + S.exponentBias + S.mantissaBitsWithoutImplicit by omega)
  have hbits : (BitVec.ofNat S.exponentBits b).toNat = b := by
    rw [BitVec.toNat_ofNat, Nat.mod_eq_of_lt (by omega)]
  have hzero : BitVec.ofNat S.exponentBits b ≠ 0#S.exponentBits := by
    intro h
    have hnat := congrArg BitVec.toNat h
    rw [hbits, BitVec.toNat_zero] at hnat
    omega
  have hones : BitVec.ofNat S.exponentBits b ≠ -1#S.exponentBits := by
    intro h
    have hnat := congrArg BitVec.toNat h
    rw [hbits, BitVec.neg_one_eq_allOnes, BitVec.toNat_allOnes] at hnat
    omega
  have hfits : ¬2 ^ S.exponentBits ≤ b + 1 := by omega
  have hlog : m.log2 + 1 = S.mantissaBits := by
    rw [hm.log2, Format.mantissaBits]
    omega
  unfold UnpackedFloat.pack
  simp only [hb, Int.toNat_natCast, if_neg hfits, if_pos hlog]
  unfold UnpackedFloat.unpack
  simp only [unpackMantissa_packComponents, unpackExponent_packComponents,
    unpackSign_packComponents, Sign.ofBitVec_toBitVec, if_neg hones, if_neg hzero, hbits,
    hm.toNat_append]
  congr 1
  omega

theorem unpack_packedInfinity (s : Sign) :
    UnpackedFloat.unpack S (packedInfinity S s) = .infinity s := by
  unfold UnpackedFloat.unpack packedInfinity
  simp only [unpackMantissa_packComponents, unpackExponent_packComponents,
    unpackSign_packComponents, Sign.ofBitVec_toBitVec]
  rfl

/-- A number whose exponent does not fit is packed as infinity. -/
theorem unpack_pack_overflow (hm : 0 < m)
    (hhi : S.exponentBias - S.mantissaBitsWithoutImplicit < e) :
    UnpackedFloat.unpack S (UnpackedFloat.pack S (.finite s m e hm)) = .infinity s := by
  have hcapacity := two_pow_exponentBits S
  have hfull : 2 ^ S.exponentBits ≤
      (e + S.exponentBias + S.mantissaBitsWithoutImplicit).toNat + 1 := by omega
  unfold UnpackedFloat.pack
  simp only [if_pos hfull, unpack_packedInfinity]

end

/-! ## Integers times powers of two -/

/-- The power of two, or infinity. -/
def pow2 (k : Nat) : Float.Model := Float.Model.pack (UnpackedFloat.round .binary64 .positive 1 k)

/-- The conversion to a signed word of 64 bits: towards zero, and `-2 ^ 63` for everything that is
out of range. -/
def truncate (x : Float.Model) : Int :=
  match x.unpack with
  | .zero _ => 0
  | .finite s m e _ =>
    if -9223372036854775808 ≤ roundToInt s m e ∧ roundToInt s m e < 9223372036854775808 then
      roundToInt s m e
    else -9223372036854775808
  | .infinity _ | .notANumber => -9223372036854775808

/-- The number is `b * 2 ^ k`, with all bits of its significand used. -/
def Scaled (x : Float.Model) (b k : Nat) : Prop :=
  ∃ h, x.unpack = .finite .positive (b * 2 ^ (52 - b.log2)) ((b.log2 : Int) - 52 + k) h

section

variable {x y : Float.Model} {b k : Nat}

theorem log2_le_of_lt (hb : 0 < b) (hlt : b < 2 ^ 53) : b.log2 ≤ 52 :=
  Nat.le_of_lt_succ ((Nat.log2_lt hb.ne').mpr hlt)

theorem normal_scaled (hb : 0 < b) (hlog : b.log2 ≤ 52) :
    Normal .binary64 (b * 2 ^ (52 - b.log2)) := normal_of_log2_le hb hlog

theorem unpack_pack {m : Nat} {e : Int} (hm : Normal .binary64 m) (hlo : -1074 ≤ e) (hhi : e ≤ 971) :
    (Float.Model.pack (.finite .positive m e hm.pos)).unpack = .finite .positive m e hm.pos :=
  unpack_pack_normal hm hlo hhi

theorem unpack_pack_infinity {m : Nat} {e : Int} (hm : 0 < m) (hhi : 971 < e) :
    (Float.Model.pack (.finite .positive m e hm)).unpack = .infinity .positive :=
  unpack_pack_overflow hm hhi

theorem round_scaled (hb : 0 < b) (hlog : b.log2 ≤ 52) (k : Nat) :
    UnpackedFloat.round .binary64 .positive b k =
      .finite .positive (b * 2 ^ (52 - b.log2)) ((b.log2 : Int) - 52 + k)
        (normal_scaled hb hlog).pos := by
  have hmin : Format.binary64.minExponent = -1074 := by decide
  have hround := round_of_log2_le (S := .binary64) (e := k) (s := .positive) hb hlog
    (by rw [hmin]; dsimp only; omega)
  have hexponent : (k : Int) + b.log2 - 52 = (b.log2 : Int) - 52 + k := by omega
  simpa only [Nat.cast_ofNat, hexponent] using hround

theorem scaled_ofInt (hb : 0 < b) (hlt : b < 2 ^ 53) : Scaled (Float.Model.ofInt b) b 0 := by
  have hlog := log2_le_of_lt hb hlt
  have hcompare : compare (b : Int) 0 = .gt := Int.compare_eq_gt.mpr (by omega)
  have hnormalize : UnpackedFloat.ofInt .binary64 b =
      .finite .positive (b * 2 ^ (52 - b.log2)) ((b.log2 : Int) - 52 + (0 : Nat))
        (normal_scaled hb hlog).pos := by
    rw [UnpackedFloat.ofInt, UnpackedFloat.normalize, hcompare]
    exact round_scaled hb hlog 0
  refine ⟨(normal_scaled hb hlog).pos, ?_⟩
  rw [Float.Model.ofInt, hnormalize, unpack_pack (normal_scaled hb hlog) (by omega) (by omega)]

theorem round_one (k : Nat) :
    UnpackedFloat.round .binary64 .positive 1 k =
      .finite .positive (2 ^ 52) ((k : Int) - 52) (Nat.two_pow_pos 52) := by
  have hround := round_scaled Nat.one_pos (by decide) k
  have hexponent : ((Nat.log2 1 : Nat) : Int) - 52 + k = k - 52 := by
    have hlog : Nat.log2 1 = 0 := by decide
    rw [hlog]
    omega
  rw [hround, finite.injEq]
  exact ⟨rfl, by decide, hexponent⟩

theorem unpack_pow2 (hk : k ≤ 1023) :
    (pow2 k).unpack = .finite .positive (2 ^ 52) ((k : Int) - 52) (Nat.two_pow_pos 52) := by
  have hnormal : Normal .binary64 (2 ^ 52) := ⟨Nat.le_refl _, by decide⟩
  rw [pow2, round_one, unpack_pack hnormal (by omega) (by omega)]

theorem unpack_pow2_of_lt (hk : 1023 < k) : (pow2 k).unpack = .infinity .positive := by
  rw [pow2, round_one, unpack_pack_infinity _ (by omega)]

theorem mul_pow2_eq (hx : Scaled x b 0) (hb : 0 < b) (hlog : b.log2 ≤ 52) (hk : k ≤ 1023) :
    x * pow2 k = Float.Model.pack (.finite .positive (b * 2 ^ (52 - b.log2))
      ((b.log2 : Int) - 52 + k) (normal_scaled hb hlog).pos) := by
  obtain ⟨h, hx⟩ := hx
  have hmin : Format.binary64.minExponent = -1074 := by decide
  have hround := roundWithAccuracy_normal (s := .positive) (j := 52) (normal_scaled hb hlog)
    (e := (b.log2 : Int) - 52 + (0 : Nat) + (k - 52)) (by rw [hmin]; omega)
  have hexponent : (b.log2 : Int) - 52 + (0 : Nat) + (k - 52) + (52 : Nat) =
      (b.log2 : Int) - 52 + k := by omega
  change Float.Model.pack (UnpackedFloat.mul .binary64 x.unpack (pow2 k).unpack) = _
  rw [hx, unpack_pow2 hk, UnpackedFloat.mul]
  simp only [hexponent] at hround
  exact congrArg Float.Model.pack hround

theorem scaled_mul_pow2 (hx : Scaled x b 0) (hb : 0 < b) (hlog : b.log2 ≤ 52)
    (hk : b.log2 + k ≤ 1023) : Scaled (x * pow2 k) b k := by
  refine ⟨(normal_scaled hb hlog).pos, ?_⟩
  rw [mul_pow2_eq hx hb hlog (by omega), unpack_pack (normal_scaled hb hlog) (by omega) (by omega)]

theorem unpack_mul_pow2_of_lt (hx : Scaled x b 0) (hb : 0 < b) (hlog : b.log2 ≤ 52)
    (hk : 1023 < b.log2 + k) : (x * pow2 k).unpack = .infinity .positive := by
  by_cases hfinite : k ≤ 1023
  · rw [mul_pow2_eq hx hb hlog hfinite, unpack_pack_infinity _ (by omega)]
  · obtain ⟨h, hx⟩ := hx
    change (Float.Model.pack (UnpackedFloat.mul .binary64 x.unpack (pow2 k).unpack)).unpack = _
    rw [hx, unpack_pow2_of_lt (by omega), UnpackedFloat.mul]
    exact unpack_packedInfinity .positive

theorem roundToInt_scaled (hlog : b.log2 ≤ 52) (k : Nat) :
    roundToInt .positive (b * 2 ^ (52 - b.log2)) ((b.log2 : Int) - 52 + k) =
      ((b * 2 ^ k : Nat) : Int) := by
  obtain ⟨l, hl⟩ : ∃ l, b.log2 = l := ⟨_, rfl⟩
  rw [hl] at hlog ⊢
  have hmantissa : (b * 2 ^ (52 - l)) <<< ((l : Int) - 52 + k - 0).toNat =
      b * 2 ^ k * 2 ^ (0 - ((l : Int) - 52 + k - ((l : Int) - 52 + k - 0).toNat)).toNat := by
    simp only [Nat.shiftLeft_eq, Nat.mul_assoc, ← Nat.pow_add]
    congr 2
    omega
  unfold roundToInt decreaseExponent shiftToExponent
  dsimp only
  rw [hmantissa, shiftRight_mul_two_pow]
  rfl

theorem two_pow_le_mul (hb : 0 < b) {n : Nat} (h : n ≤ b.log2 + k) : 2 ^ n ≤ b * 2 ^ k :=
  calc 2 ^ n ≤ 2 ^ (b.log2 + k) := Nat.pow_le_pow_right (by decide) h
    _ = 2 ^ b.log2 * 2 ^ k := Nat.pow_add ..
    _ ≤ b * 2 ^ k := Nat.mul_le_mul_right _ (Nat.log2_self_le hb.ne')

/-- A product that is out of range becomes the least word. -/
theorem truncate_mul_pow2 (hb : 0 < b) (hlt : b < 2 ^ 53) (k : Nat) :
    truncate (Float.Model.ofInt b * pow2 k) =
      if b * 2 ^ k < 9223372036854775808 then ((b * 2 ^ k : Nat) : Int)
      else -9223372036854775808 := by
  have hlog := log2_le_of_lt hb hlt
  have hx := scaled_ofInt hb hlt
  by_cases hk : b.log2 + k ≤ 1023
  · obtain ⟨h, hscaled⟩ := scaled_mul_pow2 hx hb hlog hk
    rw [truncate, hscaled]
    dsimp only
    rw [roundToInt_scaled hlog]
    generalize b * 2 ^ k = product
    split
    next hrange => rw [if_pos (by omega)]
    next hrange => rw [if_neg (by omega)]
  · have hlarge := two_pow_le_mul (n := 63) hb (k := k) (by omega)
    rw [truncate, unpack_mul_pow2_of_lt hx hb hlog (by omega)]
    exact (if_neg (by omega)).symm

end

end PeerCompute.Data.Binary64
