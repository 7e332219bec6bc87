import Mathlib.Data.List.Infix
import PeerCompute.Agent.Reports

/-! The index that is read from a tunnel address, for any text. -/

namespace PeerCompute.Agent

/-- The value of a text of decimal digits, read on from `n`. -/
def valueFrom (n : Nat) (cs : List Char) : Option Nat :=
  cs.foldl (fun n c => if c.isDigit then n.map (fun n => 10 * n + (c.toNat - 48)) else none) (some n)

/-- Decimal digits of a value up to 255. -/
def isOctet (cs : List Char) : Bool := (digits cs).any (· ≤ 255)

/-- The four parts of a text with three dots. -/
def fourParts (ip : String) : Option (List Char × List Char × List Char × List Char) :=
  match ip.toList.splitOn '.' with
  | [a, b, c, d] => some (a, b, c, d)
  | _ => none

/-- Four octets with dots between them. -/
def isDottedQuad (ip : String) : Bool :=
  (fourParts ip).any (fun (a, b, c, d) => isOctet a && isOctet b && isOctet c && isOctet d)

/-- What the comment of `parseTunnelIndex` promises: the third octet, or 0. -/
def documentedIndex (ip : String) : Int :=
  if isDottedQuad ip then (((fourParts ip).bind (fun p => digits p.2.2.1)).getD 0 : Nat) else 0

/-- The integer that a decimal text with an optional sign denotes. -/
def literal : List Char → Option Int
  | '-' :: cs => (digits cs).map (fun n : Nat => -(n : Int))
  | '+' :: cs => (digits cs).map (fun n : Nat => (n : Int))
  | cs => (digits cs).map (fun n : Nat => (n : Int))

/-- The text without its sign. -/
def unsigned : List Char → List Char
  | '-' :: cs => cs
  | '+' :: cs => cs
  | cs => cs

/-- A text that begins, after its sign, with digits of a value that does not fit into 64 bits,
whatever comes after them. -/
def overlong (cs : List Char) : Bool :=
  (unsigned cs).inits.any (fun p => (digits p).any (maxUint < ·))

/-- The nearest `int`. -/
def saturate (v : Int) : Int := max (-(maxInt + 1)) (min maxInt v)

/-- The integer that stands in the third place of four. -/
def thirdLiteral (ip : String) : Option Int := (fourParts ip).bind (fun p => literal p.2.2.1)

/-- What stands there is too long for any integer type. -/
def thirdOverlong (ip : String) : Bool := (fourParts ip).any (fun p => overlong p.2.2.1)

/-! ## Literals -/

theorem valueFrom_cons (n : Nat) (c : Char) (cs : List Char) :
    valueFrom n (c :: cs) =
      if c.isDigit then valueFrom (10 * n + (c.toNat - 48)) cs else none := by
  have hnone : ∀ cs : List Char, cs.foldl (fun n c =>
      if c.isDigit then n.map (fun n => 10 * n + (c.toNat - 48)) else none)
      (none : Option Nat) = none := by
    intro cs
    induction cs with
    | nil => rfl
    | cons c cs ih =>
      rw [List.foldl_cons]
      split <;> exact ih
  unfold valueFrom
  rw [List.foldl_cons]
  split
  · rfl
  · exact hnone cs

theorem le_of_valueFrom {n m : Nat} {cs : List Char} (h : valueFrom n cs = some m) : n ≤ m := by
  induction cs generalizing n with
  | nil => exact (Option.some.inj h).le
  | cons c cs ih =>
    rw [valueFrom_cons] at h
    split at h
    · have := ih h
      omega
    · cases h

/-- A prefix of digits has a value too, and no larger one. -/
theorem valueFrom_append {n m : Nat} {p q : List Char} (h : valueFrom n (p ++ q) = some m) :
    ∃ k, valueFrom n p = some k ∧ k ≤ m := by
  induction p generalizing n with
  | nil => exact ⟨n, rfl, le_of_valueFrom h⟩
  | cons c p ih =>
    rw [List.cons_append, valueFrom_cons] at h
    rw [valueFrom_cons]
    split at h
    · rw [if_pos (by assumption)]
      exact ih h
    · cases h

theorem digits_eq_valueFrom {cs : List Char} (h : cs ≠ []) : digits cs = valueFrom 0 cs := if_neg h

/-- A text of digits has no sign. -/
theorem isDigit_of_digits {c : Char} {cs : List Char} {n : Nat} (h : digits (c :: cs) = some n) :
    c.isDigit = true := by
  by_contra hc
  rw [digits_eq_valueFrom (by simp), valueFrom_cons, if_neg hc] at h
  cases h

theorem literal_of_digits {cs : List Char} {n : Nat} (h : digits cs = some n) :
    literal cs = some (n : Int) := by
  unfold literal
  split
  · exact absurd (isDigit_of_digits h) (by decide)
  · exact absurd (isDigit_of_digits h) (by decide)
  · rw [h, Option.map_some]

/-- The loop stops at the first prefix that is too large, and otherwise reads all of the text. -/
theorem parseUintLoop_eq {n : Nat} (hn : n ≤ maxUint) (cs : List Char) :
    parseUintLoop n cs =
      if cs.inits.any (fun p => (valueFrom n p).any (maxUint < ·)) then some maxUint
      else valueFrom n cs := by
  induction cs generalizing n with
  | nil =>
    have hfits : ¬maxUint < n := Nat.not_lt.mpr hn
    simp [parseUintLoop, valueFrom, hfits]
  | cons c cs ih =>
    have hfits : ¬maxUint < n := Nat.not_lt.mpr hn
    simp only [parseUintLoop, List.inits_cons, List.any_cons, List.any_map, Function.comp_def,
      valueFrom_cons]
    by_cases hc : c.isDigit
    · simp only [hc, if_true]
      by_cases hlarge : maxUint < 10 * n + (c.toNat - 48)
      · have hfirst : cs.inits.any (fun p =>
            (valueFrom (10 * n + (c.toNat - 48)) p).any (maxUint < ·)) = true := by
          refine List.any_eq_true.mpr ⟨[], by simp, ?_⟩
          exact decide_eq_true hlarge
        rw [if_pos hlarge, hfirst, Bool.or_true, if_pos rfl]
      · have hnil : (valueFrom n []).any (maxUint < ·) = false := decide_eq_false hfits
        rw [if_neg hlarge, ih (Nat.not_lt.mp hlarge), hnil, Bool.false_or]
    · simp [hc, valueFrom, hfits]

theorem parseUint_cases (cs : List Char) :
    cs.inits.any (fun p => (digits p).any (maxUint < ·)) = true ∧ parseUint cs = some maxUint ∨
      cs.inits.any (fun p => (digits p).any (maxUint < ·)) = false ∧ parseUint cs = digits cs := by
  have hinits : cs.inits.any (fun p => (digits p).any (maxUint < ·)) =
      cs.inits.any (fun p => (valueFrom 0 p).any (maxUint < ·)) := by
    refine congrArg cs.inits.any (funext fun p => ?_)
    cases p with
    | nil => rfl
    | cons c p => rw [digits_eq_valueFrom (by simp)]
  by_cases hempty : cs = []
  · subst hempty
    exact .inr ⟨rfl, rfl⟩
  · rw [hinits, parseUint, if_neg hempty, parseUintLoop_eq (Nat.zero_le _), digits_eq_valueFrom hempty]
    cases cs.inits.any (fun p => (valueFrom 0 p).any (maxUint < ·)) with
    | true => exact .inl ⟨rfl, rfl⟩
    | false => exact .inr ⟨rfl, rfl⟩

theorem saturate_natCast (n : Nat) : saturate n = min maxInt n := by
  unfold saturate maxInt
  omega

theorem saturate_neg_natCast (n : Nat) : saturate (-n) = max (-(maxInt + 1)) (-n) := by
  unfold saturate maxInt
  omega

theorem unsigned_of_digits {cs : List Char} (hminus : ∀ ds, cs ≠ '-' :: ds)
    (hplus : ∀ ds, cs ≠ '+' :: ds) :
    unsigned cs = cs ∧ literal cs = (digits cs).map (fun n : Nat => (n : Int)) := by
  unfold unsigned literal
  split
  next ds => exact absurd rfl (hminus ds)
  next ds => exact absurd rfl (hplus ds)
  next => exact ⟨rfl, rfl⟩

/-- A value that is out of range before the text has ended, or a literal. -/
theorem atoi_cases (cs : List Char) :
    overlong cs = true ∧ (atoi cs = maxInt ∨ atoi cs = -(maxInt + 1)) ∨
      overlong cs = false ∧ atoi cs = saturate ((literal cs).getD 0) := by
  unfold atoi overlong
  split
  next ds =>
    change ds.inits.any _ = true ∧ _ ∨ ds.inits.any _ = false ∧
      _ = saturate (((digits ds).map (fun n : Nat => -(n : Int))).getD 0)
    obtain ⟨hlong, hvalue⟩ | ⟨hfits, hvalue⟩ := parseUint_cases ds
    · rw [hvalue]
      exact .inl ⟨hlong, .inr (by decide)⟩
    · rw [hvalue]
      refine .inr ⟨hfits, ?_⟩
      cases digits ds with
      | none => rfl
      | some n => exact (saturate_neg_natCast n).symm
  next ds =>
    change ds.inits.any _ = true ∧ _ ∨ ds.inits.any _ = false ∧
      _ = saturate (((digits ds).map (fun n : Nat => (n : Int))).getD 0)
    obtain ⟨hlong, hvalue⟩ | ⟨hfits, hvalue⟩ := parseUint_cases ds
    · rw [hvalue]
      exact .inl ⟨hlong, .inl (by decide)⟩
    · rw [hvalue]
      refine .inr ⟨hfits, ?_⟩
      cases digits ds with
      | none => rfl
      | some n => exact (saturate_natCast n).symm
  next hminus hplus =>
    obtain ⟨hunsigned, hliteral⟩ := unsigned_of_digits (fun ds h => hminus ds h) (fun ds h => hplus ds h)
    rw [hunsigned, hliteral]
    obtain ⟨hlong, hvalue⟩ | ⟨hfits, hvalue⟩ := parseUint_cases cs
    · rw [hvalue]
      exact .inl ⟨hlong, .inl (by decide)⟩
    · rw [hvalue]
      refine .inr ⟨hfits, ?_⟩
      cases digits cs with
      | none => rfl
      | some n => exact (saturate_natCast n).symm

theorem parseTunnelIndex_fourParts (ip : String) :
    parseTunnelIndex ip = (fourParts ip).elim 0 (fun p => atoi p.2.2.1) := by
  unfold parseTunnelIndex fourParts
  generalize ip.toList.splitOn '.' = parts
  rcases parts with _ | ⟨a, _ | ⟨b, _ | ⟨c, _ | ⟨d, _ | ⟨e, rest⟩⟩⟩⟩⟩ <;> rfl

theorem parseTunnelIndex_cases (ip : String) :
    thirdOverlong ip = true ∧ (parseTunnelIndex ip = maxInt ∨ parseTunnelIndex ip = -(maxInt + 1)) ∨
      thirdOverlong ip = false ∧ parseTunnelIndex ip = saturate ((thirdLiteral ip).getD 0) := by
  rw [parseTunnelIndex_fourParts, thirdLiteral, thirdOverlong]
  cases fourParts ip with
  | none => exact .inr ⟨rfl, rfl⟩
  | some p => exact atoi_cases p.2.2.1

/-! ## The documented index -/

section

variable {ip : String}

/-- Digits of a value that fits are not too many. -/
theorem not_overlong_of_digits {cs : List Char} {n : Nat} (h : digits cs = some n)
    (hn : n ≤ maxUint) : overlong cs = false := by
  have hunsigned : unsigned cs = cs := by
    refine (unsigned_of_digits ?_ ?_).1
    all_goals
      rintro ds rfl
      exact absurd (isDigit_of_digits h) (by decide)
  have hempty : cs ≠ [] := by
    rintro rfl
    cases h
  rw [digits_eq_valueFrom hempty] at h
  refine List.any_eq_false.mpr fun p hp => ?_
  rw [hunsigned, List.mem_inits] at hp
  cases p with
  | nil => simp [digits]
  | cons c p =>
    obtain ⟨q, rfl⟩ := hp
    obtain ⟨k, hk, hle⟩ := valueFrom_append h
    rw [digits_eq_valueFrom (by simp), hk]
    simp only [Option.any_some, decide_eq_true_eq]
    omega

theorem documentedIndex_of_quad (h : isDottedQuad ip = true) :
    ∃ n : Nat, n ≤ 255 ∧ thirdLiteral ip = some (n : Int) ∧ thirdOverlong ip = false ∧
      documentedIndex ip = n := by
  obtain ⟨⟨a, b, c, d⟩, hparts, hoctets⟩ := (Option.any_eq_true _ _).mp h
  simp only [Bool.and_eq_true] at hoctets
  obtain ⟨n, hn, hle⟩ := (Option.any_eq_true _ _).mp hoctets.1.2
  have hle : n ≤ 255 := of_decide_eq_true hle
  refine ⟨n, hle, ?_, ?_, ?_⟩
  · rw [thirdLiteral, hparts]
    exact literal_of_digits hn
  · rw [thirdOverlong, hparts]
    exact not_overlong_of_digits hn (by unfold maxUint; omega)
  · rw [documentedIndex, if_pos h, hparts, Option.bind_some, hn, Option.getD_some]

theorem saturate_eq_zero_iff {v : Int} : saturate v = 0 ↔ v = 0 := by
  unfold saturate maxInt
  omega

theorem parseTunnelIndex_eq_documented_iff :
    parseTunnelIndex ip = documentedIndex ip ↔
      isDottedQuad ip = true ∨
        thirdOverlong ip = false ∧ ∀ v, thirdLiteral ip = some v → v = 0 := by
  cases hquad : isDottedQuad ip with
  | true =>
    obtain ⟨n, hle, hliteral, hfits, hdocumented⟩ := documentedIndex_of_quad hquad
    obtain ⟨hlong, -⟩ | ⟨-, hindex⟩ := parseTunnelIndex_cases ip
    · rw [hfits] at hlong
      cases hlong
    rw [hindex, hliteral, hdocumented, Option.getD_some, saturate_natCast]
    refine ⟨fun _ => .inl rfl, fun _ => ?_⟩
    unfold maxInt
    omega
  | false =>
    rw [documentedIndex, hquad, if_neg Bool.false_ne_true]
    obtain ⟨hlong, hindex⟩ | ⟨hfits, hindex⟩ := parseTunnelIndex_cases ip
    · rw [hlong]
      unfold maxInt at hindex
      constructor
      · omega
      · rintro (h | ⟨h, -⟩)
        · cases h
        · cases h
    · rw [hindex, hfits, saturate_eq_zero_iff]
      cases thirdLiteral ip with
      | none => simp
      | some v => simp

theorem saturate_octet_iff {v : Int} :
    0 ≤ saturate v ∧ saturate v ≤ 255 ↔ 0 ≤ v ∧ v ≤ 255 := by
  unfold saturate maxInt
  omega

/-- A sum of two `int`s that wraps around does not come back into the interval. -/
theorem wrap_between_iff {base v : Int} (hlo : -(maxInt + 1) ≤ base) (hhi : base + 255 ≤ maxInt)
    (hv : -(maxInt + 1) ≤ v) (hv' : v ≤ maxInt) :
    base ≤ wrap (base + v) ∧ wrap (base + v) ≤ base + 255 ↔ 0 ≤ v ∧ v ≤ 255 := by
  unfold maxInt at hlo hhi hv hv'
  rw [wrap, Int.bmod_def]
  split <;> omega

theorem sessionPort_between_iff {cfg : Config} {sess : PolledSession}
    (hlo : -(maxInt + 1) ≤ cfg.wgListenPort) (hhi : cfg.wgListenPort + 255 ≤ maxInt) :
    (cfg.wgListenPort ≤ sessionPort cfg sess ∧ sessionPort cfg sess ≤ cfg.wgListenPort + 255) ↔
      thirdOverlong sess.wgProviderIP = false ∧
        ∀ v, thirdLiteral sess.wgProviderIP = some v → 0 ≤ v ∧ v ≤ 255 := by
  obtain ⟨hlong, hindex⟩ | ⟨hfits, hindex⟩ := parseTunnelIndex_cases sess.wgProviderIP
  · have hrange : -(maxInt + 1) ≤ parseTunnelIndex sess.wgProviderIP ∧
        parseTunnelIndex sess.wgProviderIP ≤ maxInt := by
      unfold maxInt at hindex ⊢
      omega
    rw [sessionPort, wrap_between_iff hlo hhi hrange.1 hrange.2, hlong]
    unfold maxInt at hindex
    simp only [Bool.true_eq_false, false_and, iff_false]
    omega
  · have hrange : ∀ v, -(maxInt + 1) ≤ saturate v ∧ saturate v ≤ maxInt := by
      intro v
      unfold saturate maxInt
      omega
    rw [sessionPort, hindex, wrap_between_iff hlo hhi (hrange _).1 (hrange _).2, saturate_octet_iff,
      hfits]
    cases thirdLiteral sess.wgProviderIP with
    | none => simp
    | some v => simp

end

/-- The index is the documented one, and the port in its interval, exactly if no literal stands in the
third place that is another number, and no digits that are too many: other parts of a malformed
address are not looked at, signs and large values are taken, and so is the value that comes with a
range error. -/
theorem tunnelIndex_iff (ip : String) :
    (parseTunnelIndex ip = documentedIndex ip ↔
      isDottedQuad ip = true ∨
        thirdOverlong ip = false ∧ ∀ v, thirdLiteral ip = some v → v = 0) ∧
    ∀ (cfg : Config) (sess : PolledSession), sess.wgProviderIP = ip →
      -(maxInt + 1) ≤ cfg.wgListenPort → cfg.wgListenPort + 255 ≤ maxInt →
      ((cfg.wgListenPort ≤ sessionPort cfg sess ∧
          sessionPort cfg sess ≤ cfg.wgListenPort + 255) ↔
        thirdOverlong ip = false ∧ ∀ v, thirdLiteral ip = some v → 0 ≤ v ∧ v ≤ 255) := by
  refine ⟨parseTunnelIndex_eq_documented_iff, fun cfg sess hip hlo hhi => ?_⟩
  subst hip
  exact sessionPort_between_iff hlo hhi

/-- A session with another address. -/
def sessionAt (wgProviderIP : String) : PolledSession :=
  { aSession with wgProviderIP := wgProviderIP }

theorem tunnelIndex_third :
    parseTunnelIndex "10.99.3.1" = documentedIndex "10.99.3.1" ∧
      aConfig.wgListenPort ≤ sessionPort aConfig (sessionAt "10.99.3.1") ∧
      sessionPort aConfig (sessionAt "10.99.3.1") ≤ aConfig.wgListenPort + 255 := by
  have hiff := tunnelIndex_iff "10.99.3.1"
  have hliteral : thirdLiteral "10.99.3.1" = some 3 := by decide +kernel
  refine ⟨hiff.1.mpr (.inl (by decide +kernel)),
    (hiff.2 aConfig (sessionAt "10.99.3.1") rfl (by decide) (by decide)).mpr
      ⟨by decide +kernel, fun v hv => ?_⟩⟩
  rw [hliteral] at hv
  cases hv
  decide

/-- A sign, a value that is no octet, and values out of range, the last one before a character that is
no digit. -/
theorem tunnelIndex_malformed :
    isDottedQuad "10.99.-5.1" = false ∧ parseTunnelIndex "10.99.-5.1" = -5 ∧
      sessionPort aConfig (sessionAt "10.99.-5.1") = 51815 ∧
      isDottedQuad "x.y.300.z" = false ∧ parseTunnelIndex "x.y.300.z" = 300 ∧
      sessionPort aConfig (sessionAt "x.y.300.z") = 52120 ∧
      isDottedQuad "..99999999999999999999." = false ∧
      parseTunnelIndex "..99999999999999999999." = maxInt ∧
      isDottedQuad "10.99.99999999999999999999x.1" = false ∧
      parseTunnelIndex "10.99.99999999999999999999x.1" = maxInt := by
  decide +kernel

end PeerCompute.Agent
