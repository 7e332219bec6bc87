import Mathlib.Data.Int.Basic

/-! The addresses and ports that the agent derives from text. -/

namespace PeerCompute.Agent

/-- `math.MaxInt64`. -/
def maxInt : Int := 9223372036854775807

/-- A sum of type `int`. -/
def wrap (n : Int) : Int := Int.bmod n 18446744073709551616

/-- The value of a string of decimal digits. -/
def digits (cs : List Char) : Option Nat :=
  if cs = [] then none
  else cs.foldl (fun n c => if c.isDigit then n.map (fun n => 10 * n + (c.toNat - 48)) else none)
    (some 0)

/-- `math.MaxUint64`. -/
def maxUint : Nat := 18446744073709551615

/-- The loop of `strconv.ParseUint`, with the value so far.  A character that is no digit is a syntax
error, but a value out of range ends the loop before the next character is looked at. -/
def parseUintLoop (n : Nat) : List Char → Option Nat
  | [] => some n
  | c :: cs =>
    if c.isDigit then
      if maxUint < 10 * n + (c.toNat - 48) then some maxUint
      else parseUintLoop (10 * n + (c.toNat - 48)) cs
    else none

def parseUint (cs : List Char) : Option Nat := if cs = [] then none else parseUintLoop 0 cs

/-- `strconv.Atoi` when its error is dropped: 0 for a syntax error, the nearest `int` for a value
out of range. -/
def atoi (cs : List Char) : Int :=
  match cs with
  | '-' :: cs => match parseUint cs with
    | none => 0
    | some n => max (-(maxInt + 1)) (-n)
  | '+' :: cs => match parseUint cs with
    | none => 0
    | some n => min maxInt n
  | cs => match parseUint cs with
    | none => 0
    | some n => min maxInt n

/-- The third octet of a tunnel IP. -/
def parseTunnelIndex (ip : String) : Int :=
  match ip.toList.splitOn '.' with
  | [_, _, part, _] => atoi part
  | _ => 0

/-- `unicode.IsSpace`. -/
def isSpace (c : Char) : Bool :=
  c.toNat ∈ [9, 10, 11, 12, 13, 32, 133, 160, 5760, 8232, 8233, 8239, 8287, 12288] ||
    (8192 ≤ c.toNat && c.toNat ≤ 8202)

def trimSpace (cs : List Char) : List Char :=
  ((cs.dropWhile isSpace).reverse.dropWhile isSpace).reverse

/-- `net.SplitHostPort`, without the texts of its errors. -/
def splitHostPort (hostport : List Char) : Option (List Char × List Char) :=
  -- the port starts after the last colon
  let port := (hostport.reverse.takeWhile (· ≠ ':')).reverse
  let before := hostport.take (hostport.length - port.length - 1)
  if ':' ∉ hostport then none
  else match before with
    | '[' :: host =>
      -- the first closing bracket stands just before that colon
      if host.getLast? = some ']' ∧ ']' ∉ host.dropLast ∧ '[' ∉ host ∧ '[' ∉ port ∧ ']' ∉ port then
        some (host.dropLast, port)
      else none
    | host =>
      if ':' ∉ host ∧ '[' ∉ host ∧ ']' ∉ host ∧ '[' ∉ port ∧ ']' ∉ port then some (host, port)
      else none

/-- `net.JoinHostPort`. -/
def joinHostPort (host port : List Char) : List Char :=
  if ':' ∈ host then '[' :: host ++ ']' :: ':' :: port else host ++ ':' :: port

def buildSSHEndpoint (advertisedAddr sshPort : String) : String :=
  if sshPort = "" then ""
  else
    let trimmed := trimSpace advertisedAddr.toList
    let host := match splitHostPort trimmed with
      | some (h, _) => if h ≠ [] then h else trimmed
      | none => trimmed
    if host = [] then "" else String.ofList (joinHostPort host sshPort.toList)

example : parseTunnelIndex "10.99.3.1" = 3 ∧ parseTunnelIndex "10.99.3" = 0 := by decide +kernel

example : buildSSHEndpoint "[2001:db8::1]:50051" "2222" = "[2001:db8::1]:2222" := by
  decide +kernel

end PeerCompute.Agent
