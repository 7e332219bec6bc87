import PeerCompute.Agent.EndpointLaws

/-! IP addresses, their texts, and what `net.ResolveUDPAddr` makes of a text. -/

namespace PeerCompute.NAT

open PeerCompute.Data PeerCompute.Agent

/-- A `net.IP`: an IPv4 address has 4 bytes or is embedded in 16. -/
structure IP where
  bytes : List UInt8
  length_eq : bytes.length = 4 ∨ bytes.length = 16
  deriving DecidableEq

/-- The first 12 bytes of an IPv4 address in 16-byte form. -/
def v4InV6 : List UInt8 := List.replicate 10 0 ++ [0xff, 0xff]

namespace IP

def to4 (ip : IP) : Option (List UInt8) :=
  if ip.bytes.length = 4 then some ip.bytes
  else if ip.bytes.take 12 = v4InV6 then some (ip.bytes.drop 12)
  else none

/-- The 16-byte form, which is the same for equal addresses. -/
def to16 (ip : IP) : IP :=
  if h : ip.bytes.length = 4 then ⟨v4InV6 ++ ip.bytes, .inr (by rw [List.length_append, h]; rfl)⟩
  else ip

def isLoopback (ip : IP) : Bool :=
  match ip.to4 with
  | some p4 => p4[0]? = some 127
  | none => ip.bytes = List.replicate 15 0 ++ [1]

def isLinkLocalUnicast (ip : IP) : Bool :=
  match ip.to4 with
  | some p4 => p4.take 2 = [169, 254]
  | none => ip.bytes[0]? = some 0xfe && ip.bytes[1]?.map (· &&& 0xc0) = some 0x80

def isLinkLocalMulticast (ip : IP) : Bool :=
  match ip.to4 with
  | some p4 => p4.take 3 = [224, 0, 0]
  | none => ip.bytes[0]? = some 0xff && ip.bytes[1]?.map (· &&& 0x0f) = some 0x02

/-- Dotted decimal notation. -/
def string4 (p4 : List UInt8) : List Char :=
  ['.'].intercalate (p4.map (fun b => b.toNat.repr.toList))

/-- The eight 16-bit groups. -/
def groups (ip : IP) : List Nat :=
  (List.range 8).map (fun i =>
    256 * (ip.bytes.getD (2 * i) 0).toNat + (ip.bytes.getD (2 * i + 1) 0).toNat)

/-- Start and end of the longest run of two or more zero groups, of the first if there are several. -/
def zeroRun (groups : List Nat) : Option (Nat × Nat) :=
  (List.range 8).foldl (fun best i =>
    let l := ((groups.drop i).takeWhile (· = 0)).length
    if 2 ≤ l ∧ best.elim 0 (fun run => run.2 - run.1) < l then some (i, i + l) else best) none

def joinGroups (groups : List Nat) : List Char := [':'].intercalate (groups.map (Nat.toDigits 16))

/-- Groups in hexadecimal, the longest run of zeros left out. -/
def string6 (ip : IP) : List Char :=
  match zeroRun ip.groups with
  | none => joinGroups ip.groups
  | some (i, j) => joinGroups (ip.groups.take i) ++ ':' :: ':' :: joinGroups (ip.groups.drop j)

def string (ip : IP) : List Char :=
  match ip.to4 with
  | some p4 => string4 p4
  | none => ip.string6

end IP

example : (IP.mk [0x20, 1, 0xd, 0xb8, 0, 0, 0, 0, 0, 0, 0, 0, 0, 0, 0, 1] (by decide)).string =
    "2001:db8::1".toList := by decide +kernel

/-- A `net.UDPAddr`; the address `:5000` has no IP. -/
structure UDPAddr where
  ip : Option IP
  port : Nat
  zone : String := ""
  deriving DecidableEq

def UDPAddr.string (a : UDPAddr) : String :=
  let host := a.ip.elim [] IP.string
  let host := if a.zone = "" then host else host ++ '%' :: a.zone.toList
  String.ofList (joinHostPort host a.port.repr.toList)

/-! ## Resolution -/

/-- What the system knows of ports that are not numbers, and of hosts that are not IPv4 addresses:
IPv6 literals and names. -/
structure Resolver where
  lookupService : List Char → Option Nat
  lookupIPAddr : List Char → Option (IP × String)

/-- At most three digits, and no leading zero. -/
def parseOctet (cs : List Char) : Option UInt8 :=
  match digits cs with
  | some n => if n ≤ 255 ∧ (cs.length = 1 ∨ cs.head? ≠ some '0') then some (UInt8.ofNat n) else none
  | none => none

/-- The 16-byte form of an IPv4 literal. -/
def parseIPv4 (host : List Char) : Option IP :=
  match host.splitOn '.' with
  | [a, b, c, d] => match parseOctet a, parseOctet b, parseOctet c, parseOctet d with
    | some a, some b, some c, some d => some ⟨v4InV6 ++ [a, b, c, d], .inr rfl⟩
    | _, _, _, _ => none
  | _ => none

/-- `1 << 30`. -/
def portCutoff : UInt32 := 1073741824

/-- The loop of `net.parsePort`, which computes in `uint32`; `none` is a character that is no digit,
and a value that it takes for too large ends it. -/
def parsePortLoop (n : UInt32) : List Char → Option UInt32
  | [] => some n
  | d :: cs =>
    if d.isDigit then
      if portCutoff ≤ n then some 4294967295
      else
        let nn := n * 10 + UInt32.ofNat (d.toNat - 48)
        if nn < n * 10 then some 4294967295 else parsePortLoop nn cs
    else none

/-- `net.parsePort`; `none` is a service that has to be looked up. -/
def parsePort : List Char → Option Int
  | [] => some 0
  | '-' :: cs => (parsePortLoop 0 cs).map (fun n => -((min n portCutoff).toNat : Int))
  | '+' :: cs => (parsePortLoop 0 cs).map (fun n => ((min n (portCutoff - 1)).toNat : Int))
  | cs => (parsePortLoop 0 cs).map (fun n => ((min n (portCutoff - 1)).toNat : Int))

namespace Resolver

def lookupPort (R : Resolver) (port : List Char) : Option Nat :=
  match parsePort port with
  | some n => if 0 ≤ n ∧ n ≤ 65535 then some n.toNat else none
  | none => (R.lookupService port).filter (· ≤ 65535)

def lookupHost (R : Resolver) (host : List Char) : Option (IP × String) :=
  match parseIPv4 host with
  | some ip => some (ip, "")
  | none => R.lookupIPAddr host

/-- `net.ResolveUDPAddr("udp", address)`. -/
def resolveUDPAddr (R : Resolver) (address : String) : Option UDPAddr :=
  match splitHostPort address.toList with
  | none => none
  | some (host, port) => match R.lookupPort port with
    | none => none
    | some n =>
      if host = [] then some ⟨none, n, ""⟩
      else (R.lookupHost host).map (fun x => ⟨some x.1, n, x.2⟩)

end Resolver

/-! ## Reading numbers back -/

theorem parseOctet_repr (b : UInt8) : parseOctet b.toNat.repr.toList = some b := by
  have hall : ∀ n < 256, parseOctet (Nat.repr n).toList = some (UInt8.ofNat n) := by
    decide +kernel
  rw [hall b.toNat b.toNat_lt, UInt8.ofNat_toNat]

theorem le_ofDigitChars (cs : List Char) (n : Nat) : n ≤ Nat.ofDigitChars 10 cs n := by
  induction cs generalizing n with
  | nil => exact le_refl n
  | cons c cs ih =>
    have hcons := ih (10 * n + (c.toNat - 48))
    refine le_trans ?_ hcons
    omega

/-- Digits of a value below the cutoff are read as they are. -/
theorem parsePortLoop_eq {cs : List Char} (hdigits : ∀ c ∈ cs, c.isDigit = true) {n : UInt32}
    (hlt : Nat.ofDigitChars 10 cs n.toNat < 1073741824) :
    (parsePortLoop n cs).map UInt32.toNat = some (Nat.ofDigitChars 10 cs n.toNat) := by
  induction cs generalizing n with
  | nil => rfl
  | cons c cs ih =>
    have hle := le_ofDigitChars cs (10 * n.toNat + (c.toNat - 48))
    change Nat.ofDigitChars 10 cs (10 * n.toNat + (c.toNat - 48)) < _ at hlt
    have hmul : (n * 10).toNat = 10 * n.toNat := by
      rw [UInt32.toNat_mul]
      change n.toNat * 10 % 2 ^ 32 = _
      omega
    have hadd : (n * 10 + UInt32.ofNat (c.toNat - 48)).toNat = 10 * n.toNat + (c.toNat - 48) := by
      rw [UInt32.toNat_add, hmul, UInt32.toNat_ofNat']
      omega
    have hcutoff : ¬portCutoff ≤ n := by
      rw [UInt32.le_iff_toNat_le]
      change ¬1073741824 ≤ n.toNat
      omega
    have hwrap : ¬n * 10 + UInt32.ofNat (c.toNat - 48) < n * 10 := by
      rw [UInt32.lt_iff_toNat_lt, hadd, hmul]
      omega
    rw [parsePortLoop, if_pos (hdigits c (.head _)), if_neg hcutoff]
    dsimp only
    rw [if_neg hwrap]
    have htail := ih (fun c' hc' => hdigits c' (.tail _ hc')) (n := n * 10 + UInt32.ofNat (c.toNat - 48))
    rw [hadd] at htail
    exact htail hlt

theorem parsePort_repr {port : Nat} (h : port < 65536) :
    parsePort port.repr.toList = some (port : Int) := by
  have hdigits : ∀ c ∈ port.repr.toList, c.isDigit = true := by
    rw [Nat.toList_repr]
    exact fun c hc => Nat.isDigit_of_mem_toDigits (by omega) (by omega) hc
  have hvalue : Nat.ofDigitChars 10 port.repr.toList 0 = port := by
    rw [Nat.toList_repr, Nat.ofDigitChars_ten_toDigits]
  have hloop := parsePortLoop_eq hdigits (n := 0) (by
    change Nat.ofDigitChars 10 port.repr.toList 0 < _
    omega)
  change _ = some (Nat.ofDigitChars 10 port.repr.toList 0) at hloop
  rw [hvalue] at hloop
  obtain ⟨n, hn, hport⟩ := Option.map_eq_some_iff.mp hloop
  unfold parsePort
  split
  next hnil =>
    rw [hnil] at hvalue
    exact congrArg (fun n : Nat => some (n : Int)) hvalue
  next cs hcons => exact absurd (hdigits '-' (hcons ▸ .head _)) (by decide)
  next cs hcons => exact absurd (hdigits '+' (hcons ▸ .head _)) (by decide)
  next =>
    rw [hn, Option.map_some]
    have hle : n ≤ portCutoff - 1 := by
      rw [UInt32.le_iff_toNat_le, hport]
      change port ≤ 1073741823
      omega
    have hmin : min n (portCutoff - 1) = n := if_pos hle
    rw [hmin, hport]

theorem lookupPort_repr (R : Resolver) {port : Nat} (h : port < 65536) :
    R.lookupPort port.repr.toList = some port := by
  rw [Resolver.lookupPort, parsePort_repr h]
  exact if_pos (by omega)

example : parsePort "4294967300".toList = some 4 := by decide

/-! ## Texts of addresses -/

namespace IP

variable {ip : IP} {p4 : List UInt8}

theorem length_of_to4 (h : ip.to4 = some p4) : p4.length = 4 := by
  have hlength := ip.length_eq
  unfold to4 at h
  split at h
  next hfour =>
    cases h
    exact hfour
  split at h
  · cases h
    rw [List.length_drop]
    omega
  · cases h

theorem to16_of_to4 (h : ip.to4 = some p4) : ip.to16.bytes = v4InV6 ++ p4 := by
  unfold to4 at h
  unfold to16
  split at h
  next hfour =>
    cases h
    rw [dif_pos hfour]
  next hfour =>
    rw [dif_neg hfour]
    split at h
    next hin =>
      cases h
      rw [← hin, List.take_append_drop]
    · cases h

theorem parseIPv4_string4 (h : ip.to4 = some p4) : parseIPv4 (string4 p4) = some ip.to16 := by
  have hdots : ∀ l ∈ p4.map (fun b : UInt8 => b.toNat.repr.toList), '.' ∉ l := by
    intro l hl
    obtain ⟨b, -, rfl⟩ := List.mem_map.mp hl
    exact notMem_repr (by decide) _
  have hto16 := to16_of_to4 h
  obtain ⟨a, b, c, d, rfl⟩ : ∃ a b c d, p4 = [a, b, c, d] := by
    match p4, length_of_to4 h with
    | [a, b, c, d], _ => exact ⟨a, b, c, d, rfl⟩
  unfold parseIPv4 string4
  rw [List.splitOn_intercalate '.' hdots (by simp)]
  simp only [List.map_cons, List.map_nil, parseOctet_repr]
  refine congrArg some ?_
  cases hip : ip.to16
  rw [hip] at hto16
  subst hto16
  rfl

theorem bare_string4 (p4 : List UInt8) : Bare (string4 p4) := by
  have hnot : ∀ c : Char, c.isDigit = false → c ≠ '.' → c ∉ string4 p4 := by
    intro c hdigit hdot
    refine notMem_intercalate hdot (fun l hl => ?_)
    obtain ⟨b, -, rfl⟩ := List.mem_map.mp hl
    exact notMem_repr hdigit _
  exact ⟨hnot _ (by decide) (by decide), hnot _ (by decide) (by decide),
    hnot _ (by decide) (by decide)⟩

theorem opening_notMem_hex (n : Nat) : '[' ∉ Nat.toDigits 16 n := by
  have hdigit : ∀ d < 16, '[' ≠ Nat.digitChar d := by decide
  induction n using Nat.strongRecOn with
  | ind n ih =>
    rw [Nat.toDigits_eq_if (by omega)]
    split
    next hlt => exact fun h => hdigit n hlt (List.mem_singleton.mp h)
    next hge =>
      intro h
      obtain h | h := List.mem_append.mp h
      · exact ih (n / 16) (by omega) h
      · exact hdigit _ (Nat.mod_lt _ (by omega)) (List.mem_singleton.mp h)

theorem opening_notMem_joinGroups (groups : List Nat) : '[' ∉ joinGroups groups := by
  refine notMem_intercalate (by decide) (fun l hl => ?_)
  obtain ⟨n, -, rfl⟩ := List.mem_map.mp hl
  exact opening_notMem_hex n

theorem opening_notMem_string6 (ip : IP) : '[' ∉ ip.string6 := by
  unfold string6
  split
  · exact opening_notMem_joinGroups _
  · simp [opening_notMem_joinGroups]

/-- However many groups are left out, a colon remains. -/
theorem colon_mem_string6 (ip : IP) : ':' ∈ ip.string6 := by
  unfold string6
  split
  · simp [joinGroups, groups, List.range_succ, List.intercalate_cons_cons]
  · simp

end IP

/-- An IPv4 address and a port resolve to themselves, without any lookup. -/
theorem resolveUDPAddr_of_to4 (R : Resolver) {ip : IP} {port : Nat} (hip : ip.to4.isSome)
    (hport : port < 65536) :
    R.resolveUDPAddr (String.ofList (ip.string ++ ':' :: port.repr.toList)) =
      some ⟨some ip.to16, port, ""⟩ := by
  obtain ⟨p4, hp4⟩ := Option.isSome_iff_exists.mp hip
  have hstring : ip.string = IP.string4 p4 := by simp only [IP.string, hp4]
  have hparse := IP.parseIPv4_string4 hp4
  have hne : IP.string4 p4 ≠ [] := by
    intro hnil
    rw [hnil] at hparse
    cases hparse
  simp only [Resolver.resolveUDPAddr, String.toList_ofList, hstring,
    splitHostPort_of_bare (IP.bare_string4 p4) (bare_repr port), lookupPort_repr R hport,
    Resolver.lookupHost, hparse, if_neg hne, Option.map_some]

/-- An IPv6 address without brackets has too many colons. -/
theorem resolveUDPAddr_of_not_to4 (R : Resolver) {ip : IP} (port : Nat) (hip : ip.to4 = none) :
    R.resolveUDPAddr (String.ofList (ip.string ++ ':' :: port.repr.toList)) = none := by
  have hstring : ip.string = ip.string6 := by simp only [IP.string, hip]
  simp only [Resolver.resolveUDPAddr, String.toList_ofList, hstring,
    splitHostPort_of_colon ip.colon_mem_string6 ip.opening_notMem_string6 (bare_repr port).colon]

end PeerCompute.NAT
