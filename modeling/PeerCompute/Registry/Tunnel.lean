import PeerCompute.Data.CyclicScan
import PeerCompute.Data.Map

namespace PeerCompute.Registry

open PeerCompute.Data

/-- A two-octet tunnel address: `10.{major}.{minor}.{role}`. -/
structure TunnelIndex where
  major : UInt8
  minor : UInt8
  deriving DecidableEq

def tunnelMajorMin : UInt8 := 99
def tunnelMajorMax : UInt8 := 126
def tunnelMinorMin : UInt8 := 1
def tunnelMinorMax : UInt8 := 254

def maxTunnelSlots : Nat :=
  (tunnelMajorMax - tunnelMajorMin + 1).toNat * (tunnelMinorMax - tunnelMinorMin + 1).toNat

/-- The allocator part of the server: the scan hint and the two directions of the slot map. -/
structure Tunnels where
  nextTunnelHint : TunnelIndex
  usedTunnelIdxs : Map String TunnelIndex
  usedTunnelSet : Map TunnelIndex String

def newTunnels : Tunnels where
  nextTunnelHint := ⟨tunnelMajorMin, tunnelMinorMin⟩
  usedTunnelIdxs := ∅
  usedTunnelSet := ∅

def advanceTunnel (idx : TunnelIndex) : TunnelIndex :=
  let minor := idx.minor + 1
  if minor > tunnelMinorMax then
    let major := idx.major + 1
    if major > tunnelMajorMax then
      { major := tunnelMajorMin, minor := tunnelMinorMin }
    else
      { major := major, minor := tunnelMinorMin }
  else
    { major := idx.major, minor := minor }

/-- The scan loop of `allocateTunnelIPs`.  The source's loop has no counter: there are `2 ^ 16`
indices, so a scan that has looked at as many without finding a free one does not end. -/
def scanTunnel (used : Map TunnelIndex String) (candidate : TunnelIndex) : Option TunnelIndex :=
  firstFree advanceTunnel (fun c => (used.lookup c).isSome) (2 ^ 16) candidate

def providerIP (idx : TunnelIndex) : String :=
  "10." ++ idx.major.toNat.repr ++ "." ++ idx.minor.toNat.repr ++ ".1"

def renterIP (idx : TunnelIndex) : String :=
  "10." ++ idx.major.toNat.repr ++ "." ++ idx.minor.toNat.repr ++ ".2"

/-- `ErrTunnelExhausted`. -/
inductive TunnelError
  | tunnelExhausted
  deriving DecidableEq

def TunnelError.text : TunnelError → String
  | .tunnelExhausted => "tunnel IP address space exhausted (all 7112 slots in use)"

/-- `none` is a call that does not return. -/
def Tunnels.allocateTunnelIPs (T : Tunnels) (sessionID : String) :
    Option (Except TunnelError (String × String) × Tunnels) :=
  if T.usedTunnelSet.keys.length ≥ maxTunnelSlots then
    some (.error .tunnelExhausted, T)
  else
    match scanTunnel T.usedTunnelSet T.nextTunnelHint with
    | none => none
    | some candidate =>
      some (.ok (providerIP candidate, renterIP candidate),
        { nextTunnelHint := advanceTunnel candidate
          usedTunnelIdxs := T.usedTunnelIdxs.insert sessionID candidate
          usedTunnelSet := T.usedTunnelSet.insert candidate sessionID })

def Tunnels.reclaimTunnelIndex (T : Tunnels) (sessionID : String) : Tunnels :=
  match T.usedTunnelIdxs.lookup sessionID with
  | none => T
  | some idx =>
    { T with
      usedTunnelSet := T.usedTunnelSet.erase idx
      usedTunnelIdxs := T.usedTunnelIdxs.erase sessionID }

end PeerCompute.Registry
