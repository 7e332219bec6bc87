import Mathlib.Logic.Basic

namespace PeerCompute.Plugin

structure ProviderRecord where
  id : String := ""
  name : String := ""
  address : String := ""
  publicAddress : String := ""
  status : String := ""
  cpuCores : UInt32 := 0
  memoryMB : UInt64 := 0
  diskGB : UInt64 := 0
  gpuCount : UInt32 := 0
  gpuModel : String := ""
  availCPU : UInt32 := 0
  availMemoryMB : UInt64 := 0
  availGPU : UInt32 := 0
  registeredAt : Int := 0
  lastHeartbeat : Int := 0
  deriving DecidableEq, Inhabited

structure ProviderFilter where
  minCPU : UInt32 := 0
  minMemory : UInt64 := 0
  minGPU : UInt32 := 0
  status : String := ""

structure SessionRecord where
  id : String := ""
  providerID : String := ""
  renterID : String := ""
  image : String := ""
  status : String := ""
  containerID : String := ""
  sshEndpoint : String := ""
  connectionMode : String := ""
  relayToken : String := ""
  wgPublicKey : String := ""
  wgEndpoint : String := ""
  wgProviderIP : String := ""
  wgRenterIP : String := ""
  cpuCores : UInt32 := 0
  memoryMB : UInt64 := 0
  createdAt : Int := 0
  terminatedAt : Int := 0
  deriving DecidableEq, Inhabited

structure SessionFilter where
  providerID : String := ""
  renterID : String := ""
  status : String := ""

/-- The errors of a store: `ErrNotFound`, `ErrAmbiguousPrefix`, or one of the backend. -/
inductive StoreError
  | notFound
  | ambiguousPrefix
  | other (message : String)
  deriving DecidableEq

/-- The assignments `rec.F = v` that the handlers make to a provider record. -/
inductive ProviderAssign
  | name (v : String)
  | address (v : String)
  | status (v : String)
  | cpuCores (v : UInt32)
  | memoryMB (v : UInt64)
  | diskGB (v : UInt64)
  | gpuCount (v : UInt32)
  | gpuModel (v : String)
  | availCPU (v : UInt32)
  | availMemoryMB (v : UInt64)
  | availGPU (v : UInt32)
  | lastHeartbeat (v : Int)
  deriving DecidableEq

def ProviderAssign.apply (r : ProviderRecord) : ProviderAssign → ProviderRecord
  | .name v => { r with name := v }
  | .address v => { r with address := v }
  | .status v => { r with status := v }
  | .cpuCores v => { r with cpuCores := v }
  | .memoryMB v => { r with memoryMB := v }
  | .diskGB v => { r with diskGB := v }
  | .gpuCount v => { r with gpuCount := v }
  | .gpuModel v => { r with gpuModel := v }
  | .availCPU v => { r with availCPU := v }
  | .availMemoryMB v => { r with availMemoryMB := v }
  | .availGPU v => { r with availGPU := v }
  | .lastHeartbeat v => { r with lastHeartbeat := v }

/-- The assignments `rec.F = v` that the handlers make to a session record. -/
inductive SessionAssign
  | status (v : String)
  | containerID (v : String)
  | sshEndpoint (v : String)
  | connectionMode (v : String)
  | wgPublicKey (v : String)
  | wgEndpoint (v : String)
  | terminatedAt (v : Int)
  deriving DecidableEq

def SessionAssign.apply (r : SessionRecord) : SessionAssign → SessionRecord
  | .status v => { r with status := v }
  | .containerID v => { r with containerID := v }
  | .sshEndpoint v => { r with sshEndpoint := v }
  | .connectionMode v => { r with connectionMode := v }
  | .wgPublicKey v => { r with wgPublicKey := v }
  | .wgEndpoint v => { r with wgEndpoint := v }
  | .terminatedAt v => { r with terminatedAt := v }

@[simp] theorem ProviderAssign.id_apply (a : ProviderAssign) (r : ProviderRecord) :
    (a.apply r).id = r.id := by cases a <;> rfl

@[simp] theorem SessionAssign.id_apply (a : SessionAssign) (r : SessionRecord) :
    (a.apply r).id = r.id := by cases a <;> rfl

/-- The record without the fields that are assigned after a session's creation. -/
def SessionRecord.origin (r : SessionRecord) : SessionRecord :=
  { r with
    status := "", containerID := "", sshEndpoint := "", connectionMode := "",
    wgPublicKey := "", wgEndpoint := "", terminatedAt := 0 }

@[simp] theorem SessionAssign.origin_apply (a : SessionAssign) (r : SessionRecord) :
    (a.apply r).origin = r.origin := by cases a <;> rfl

theorem SessionRecord.id_of_origin {r r' : SessionRecord} (h : r'.origin = r.origin) :
    r'.id = r.id := by
  have h' := congrArg SessionRecord.id h
  exact h'

theorem SessionRecord.relayToken_of_origin {r r' : SessionRecord} (h : r'.origin = r.origin) :
    r'.relayToken = r.relayToken := by
  have h' := congrArg SessionRecord.relayToken h
  exact h'

theorem SessionRecord.ips_of_origin {r r' : SessionRecord} (h : r'.origin = r.origin) :
    r'.wgProviderIP = r.wgProviderIP ∧ r'.wgRenterIP = r.wgRenterIP := by
  have hp := congrArg SessionRecord.wgProviderIP h
  have hr := congrArg SessionRecord.wgRenterIP h
  exact ⟨hp, hr⟩

/-- A `*Record` a handler holds: a record of its own, or the one the store keeps under `id`. -/
inductive Ref (R : Type)
  | own (rec : R)
  | stored (id : String)
  deriving DecidableEq

end PeerCompute.Plugin
