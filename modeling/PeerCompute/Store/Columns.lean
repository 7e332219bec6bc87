import PeerCompute.Plugin.Store

/-! The columns of the tables, and the lists of columns, arguments and destinations of the
statements, each as it stands in the source. -/

namespace PeerCompute.PostgresStore

open PeerCompute.Plugin

/-- What a column holds: a `TEXT`, or an `INT` or `BIGINT`. -/
inductive Value
  | null
  | text (v : String)
  | int (v : Int)
  deriving DecidableEq

abbrev Row (C : Type) := C → Value

section Statements

variable {C : Type} [DecidableEq C]

/-- `INSERT INTO … (columns) VALUES (args)`. -/
def insertRow (defaults : Row C) (columns : List C) (args : List Value) : Row C :=
  fun c => ((columns.zip args).lookup c).getD (defaults c)

/-- `ON CONFLICT (id) DO UPDATE SET c=EXCLUDED.c, …`. -/
def updateRow (columns : List C) (old excluded : Row C) : Row C :=
  fun c => if c ∈ columns then excluded c else old c

/-- `SELECT columns`. -/
def selectRow (columns : List C) (row : Row C) : List Value := columns.map row

/-- A `SELECT` of the inserted columns, in their order, returns the arguments. -/
theorem selectRow_insertRow (defaults : Row C) {columns : List C} {args : List Value}
    (hnodup : columns.Nodup) (hlen : columns.length = args.length) :
    selectRow columns (insertRow defaults columns args) = args := by
  unfold selectRow
  induction columns generalizing args with
  | nil => exact (List.length_eq_zero_iff.mp hlen.symm).symm
  | cons c columns ih =>
    cases args with
    | nil => cases hlen
    | cons v args =>
      obtain ⟨hc, hnodup⟩ := List.nodup_cons.mp hnodup
      refine List.cons_eq_cons.mpr ⟨by simp [insertRow], ?_⟩
      refine Eq.trans (List.map_congr_left (fun c' hc' => ?_)) (ih hnodup (Nat.succ.inj hlen))
      have hne : (c' == c) = false := beq_false_of_ne (fun heq => hc (heq ▸ hc'))
      simp [insertRow, List.lookup_cons, hne]

end Statements

/-- A destination of `Scan`: a pointer to a field of the record. -/
abbrev Dest (R : Type) := Value → R → Option R

namespace Dest

variable {R : Type}

def text (set : R → String → R) : Dest R
  | .text v, r => some (set r v)
  | _, _ => none

def uint32 (set : R → UInt32 → R) : Dest R
  | .int v, r => if 0 ≤ v ∧ v < 4294967296 then some (set r (UInt32.ofNat v.toNat)) else none
  | _, _ => none

def uint64 (set : R → UInt64 → R) : Dest R
  | .int v, r =>
    if 0 ≤ v ∧ v < 18446744073709551616 then some (set r (UInt64.ofNat v.toNat)) else none
  | _, _ => none

def int64 (set : R → Int → R) : Dest R
  | .int v, r => some (set r v)
  | _, _ => none

@[simp] theorem text_text (set : R → String → R) (v : String) (r : R) :
    text set (.text v) r = some (set r v) := rfl

@[simp] theorem int64_int (set : R → Int → R) (v : Int) (r : R) :
    int64 set (.int v) r = some (set r v) := rfl

@[simp] theorem uint32_int (set : R → UInt32 → R) (v : UInt32) (r : R) :
    uint32 set (.int v.toNat) r = some (set r v) := by
  have hlt := v.toNat_lt
  rw [uint32, if_pos (by omega), Int.toNat_natCast, UInt32.ofNat_toNat]

@[simp] theorem uint64_int (set : R → UInt64 → R) (v : UInt64) (r : R) :
    uint64 set (.int v.toNat) r = some (set r v) := by
  have hlt := v.toNat_lt
  rw [uint64, if_pos (by omega), Int.toNat_natCast, UInt64.ofNat_toNat]

end Dest

/-- `Scan` wants as many destinations as there are values. -/
def scan {R : Type} : List (Dest R) → List Value → R → Option R
  | [], [], r => some r
  | d :: ds, v :: vs, r => (d v r).bind (scan ds vs)
  | _, _, _ => none

/-! ## `providers` -/

inductive ProviderColumn
  | id | name | address | publicAddress | status
  | cpuCores | memoryMB | diskGB | gpuCount | gpuModel
  | availCPU | availMemoryMB | availGPU
  | registeredAt | lastHeartbeat
  deriving DecidableEq

def providerDefaults : Row ProviderColumn
  | .id | .name | .address | .registeredAt | .lastHeartbeat => .null
  | .publicAddress | .gpuModel => .text ""
  | .status => .text "offline"
  | .cpuCores | .memoryMB | .diskGB | .gpuCount | .availCPU | .availMemoryMB | .availGPU => .int 0

def putProviderColumns : List ProviderColumn :=
  [.id, .name, .address, .publicAddress, .status,
   .cpuCores, .memoryMB, .diskGB, .gpuCount, .gpuModel,
   .availCPU, .availMemoryMB, .availGPU,
   .registeredAt, .lastHeartbeat]

def putProviderUpdates : List ProviderColumn :=
  [.name, .address, .publicAddress,
   .status, .cpuCores, .memoryMB,
   .diskGB, .gpuCount, .gpuModel,
   .availCPU, .availMemoryMB,
   .availGPU, .lastHeartbeat]

def putProviderArgs (p : ProviderRecord) : List Value :=
  [.text p.id, .text p.name, .text p.address, .text p.publicAddress, .text p.status,
   .int p.cpuCores.toNat, .int p.memoryMB.toNat, .int p.diskGB.toNat, .int p.gpuCount.toNat,
   .text p.gpuModel,
   .int p.availCPU.toNat, .int p.availMemoryMB.toNat, .int p.availGPU.toNat,
   .int p.registeredAt, .int p.lastHeartbeat]

def getProviderColumns : List ProviderColumn :=
  [.id, .name, .address, .publicAddress, .status,
   .cpuCores, .memoryMB, .diskGB, .gpuCount, .gpuModel,
   .availCPU, .availMemoryMB, .availGPU,
   .registeredAt, .lastHeartbeat]

def getProviderByPrefixColumns : List ProviderColumn :=
  [.id, .name, .address, .publicAddress, .status,
   .cpuCores, .memoryMB, .diskGB, .gpuCount, .gpuModel,
   .availCPU, .availMemoryMB, .availGPU,
   .registeredAt, .lastHeartbeat]

def listProvidersColumns : List ProviderColumn :=
  [.id, .name, .address, .publicAddress, .status, .cpuCores, .memoryMB, .diskGB, .gpuCount,
   .gpuModel, .availCPU, .availMemoryMB, .availGPU, .registeredAt, .lastHeartbeat]

def scanProvider : List (Dest ProviderRecord) :=
  [.text fun p v => { p with id := v }, .text fun p v => { p with name := v },
   .text fun p v => { p with address := v }, .text fun p v => { p with publicAddress := v },
   .text fun p v => { p with status := v },
   .uint32 fun p v => { p with cpuCores := v }, .uint64 fun p v => { p with memoryMB := v },
   .uint64 fun p v => { p with diskGB := v }, .uint32 fun p v => { p with gpuCount := v },
   .text fun p v => { p with gpuModel := v },
   .uint32 fun p v => { p with availCPU := v }, .uint64 fun p v => { p with availMemoryMB := v },
   .uint32 fun p v => { p with availGPU := v },
   .int64 fun p v => { p with registeredAt := v }, .int64 fun p v => { p with lastHeartbeat := v }]

def scanProviderRow : List (Dest ProviderRecord) :=
  [.text fun p v => { p with id := v }, .text fun p v => { p with name := v },
   .text fun p v => { p with address := v }, .text fun p v => { p with publicAddress := v },
   .text fun p v => { p with status := v },
   .uint32 fun p v => { p with cpuCores := v }, .uint64 fun p v => { p with memoryMB := v },
   .uint64 fun p v => { p with diskGB := v }, .uint32 fun p v => { p with gpuCount := v },
   .text fun p v => { p with gpuModel := v },
   .uint32 fun p v => { p with availCPU := v }, .uint64 fun p v => { p with availMemoryMB := v },
   .uint32 fun p v => { p with availGPU := v },
   .int64 fun p v => { p with registeredAt := v }, .int64 fun p v => { p with lastHeartbeat := v }]

/-- The row that `PutProvider` inserts. -/
def providerRow (p : ProviderRecord) : Row ProviderColumn :=
  insertRow providerDefaults putProviderColumns (putProviderArgs p)

theorem selectRow_providerRow (p : ProviderRecord) :
    selectRow putProviderColumns (providerRow p) = putProviderArgs p :=
  selectRow_insertRow _ (by decide) rfl

/-- What is inserted is read back, by both `Scan`s and from each of the `SELECT`s. -/
theorem scan_providerRow (p : ProviderRecord) :
    scan scanProvider (selectRow getProviderColumns (providerRow p)) {} = some p ∧
    scan scanProviderRow (selectRow getProviderByPrefixColumns (providerRow p)) {} = some p ∧
    scan scanProviderRow (selectRow listProvidersColumns (providerRow p)) {} = some p := by
  have hscan : scan scanProvider (putProviderArgs p) {} = some p := by
    simp [scan, scanProvider, putProviderArgs]
  rw [← selectRow_providerRow] at hscan
  exact ⟨hscan, hscan, hscan⟩

/-- `ON CONFLICT`: the time of the registration stays. -/
theorem updateRow_providerRow (old new : ProviderRecord) (hid : new.id = old.id) :
    updateRow putProviderUpdates (providerRow old) (providerRow new) =
      providerRow { new with registeredAt := old.registeredAt } := by
  funext c
  cases c with
  | id => exact congrArg Value.text hid.symm
  | _ => rfl

/-- The columns that the upsert leaves out. -/
theorem providerRow_of_registeredAt {p p' : ProviderRecord} (hid : p'.id = p.id)
    (htime : p'.registeredAt = p.registeredAt) {c : ProviderColumn} (hc : c ∉ putProviderUpdates) :
    providerRow p' c = providerRow p c := by
  cases c with
  | id => exact congrArg Value.text hid
  | registeredAt => exact congrArg Value.int htime
  | _ => exact absurd (by decide) hc

/-! ## `sessions` -/

inductive SessionColumn
  | id | providerID | renterID | image | status
  | containerID | sshEndpoint | connectionMode | relayToken
  | wgPublicKey | wgEndpoint | wgProviderIP | wgRenterIP
  | cpuCores | memoryMB
  | createdAt | terminatedAt
  deriving DecidableEq

def sessionDefaults : Row SessionColumn
  | .id | .providerID | .renterID | .image | .createdAt => .null
  | .status => .text "pending"
  | .containerID | .sshEndpoint | .connectionMode | .relayToken | .wgPublicKey | .wgEndpoint
  | .wgProviderIP | .wgRenterIP => .text ""
  | .cpuCores | .memoryMB | .terminatedAt => .int 0

def putSessionColumns : List SessionColumn :=
  [.id, .providerID, .renterID, .image, .status,
   .containerID, .sshEndpoint, .connectionMode, .relayToken,
   .wgPublicKey, .wgEndpoint, .wgProviderIP, .wgRenterIP,
   .cpuCores, .memoryMB,
   .createdAt, .terminatedAt]

def putSessionUpdates : List SessionColumn :=
  [.status, .containerID,
   .sshEndpoint, .connectionMode,
   .wgPublicKey, .wgEndpoint,
   .wgProviderIP, .wgRenterIP,
   .terminatedAt]

def putSessionArgs (s : SessionRecord) : List Value :=
  [.text s.id, .text s.providerID, .text s.renterID, .text s.image, .text s.status,
   .text s.containerID, .text s.sshEndpoint, .text s.connectionMode, .text s.relayToken,
   .text s.wgPublicKey, .text s.wgEndpoint, .text s.wgProviderIP, .text s.wgRenterIP,
   .int s.cpuCores.toNat, .int s.memoryMB.toNat,
   .int s.createdAt, .int s.terminatedAt]

def getSessionColumns : List SessionColumn :=
  [.id, .providerID, .renterID, .image, .status,
   .containerID, .sshEndpoint, .connectionMode, .relayToken,
   .wgPublicKey, .wgEndpoint, .wgProviderIP, .wgRenterIP,
   .cpuCores, .memoryMB,
   .createdAt, .terminatedAt]

def getSessionByPrefixColumns : List SessionColumn :=
  [.id, .providerID, .renterID, .image, .status,
   .containerID, .sshEndpoint, .connectionMode, .relayToken,
   .wgPublicKey, .wgEndpoint, .wgProviderIP, .wgRenterIP,
   .cpuCores, .memoryMB,
   .createdAt, .terminatedAt]

def listSessionsColumns : List SessionColumn :=
  [.id, .providerID, .renterID, .image, .status, .containerID, .sshEndpoint, .connectionMode,
   .relayToken, .wgPublicKey, .wgEndpoint, .wgProviderIP, .wgRenterIP, .cpuCores, .memoryMB,
   .createdAt, .terminatedAt]

def scanSession : List (Dest SessionRecord) :=
  [.text fun s v => { s with id := v }, .text fun s v => { s with providerID := v },
   .text fun s v => { s with renterID := v }, .text fun s v => { s with image := v },
   .text fun s v => { s with status := v },
   .text fun s v => { s with containerID := v }, .text fun s v => { s with sshEndpoint := v },
   .text fun s v => { s with connectionMode := v }, .text fun s v => { s with relayToken := v },
   .text fun s v => { s with wgPublicKey := v }, .text fun s v => { s with wgEndpoint := v },
   .text fun s v => { s with wgProviderIP := v }, .text fun s v => { s with wgRenterIP := v },
   .uint32 fun s v => { s with cpuCores := v }, .uint64 fun s v => { s with memoryMB := v },
   .int64 fun s v => { s with createdAt := v }, .int64 fun s v => { s with terminatedAt := v }]

def scanSessionRow : List (Dest SessionRecord) :=
  [.text fun s v => { s with id := v }, .text fun s v => { s with providerID := v },
   .text fun s v => { s with renterID := v }, .text fun s v => { s with image := v },
   .text fun s v => { s with status := v },
   .text fun s v => { s with containerID := v }, .text fun s v => { s with sshEndpoint := v },
   .text fun s v => { s with connectionMode := v }, .text fun s v => { s with relayToken := v },
   .text fun s v => { s with wgPublicKey := v }, .text fun s v => { s with wgEndpoint := v },
   .text fun s v => { s with wgProviderIP := v }, .text fun s v => { s with wgRenterIP := v },
   .uint32 fun s v => { s with cpuCores := v }, .uint64 fun s v => { s with memoryMB := v },
   .int64 fun s v => { s with createdAt := v }, .int64 fun s v => { s with terminatedAt := v }]

/-- The row that `PutSession` inserts. -/
def sessionRow (s : SessionRecord) : Row SessionColumn :=
  insertRow sessionDefaults putSessionColumns (putSessionArgs s)

theorem selectRow_sessionRow (s : SessionRecord) :
    selectRow putSessionColumns (sessionRow s) = putSessionArgs s :=
  selectRow_insertRow _ (by decide) rfl

theorem scan_sessionRow (s : SessionRecord) :
    scan scanSession (selectRow getSessionColumns (sessionRow s)) {} = some s ∧
    scan scanSessionRow (selectRow getSessionByPrefixColumns (sessionRow s)) {} = some s ∧
    scan scanSessionRow (selectRow listSessionsColumns (sessionRow s)) {} = some s := by
  have hscan : scan scanSession (putSessionArgs s) {} = some s := by
    simp [scan, scanSession, putSessionArgs]
  rw [← selectRow_sessionRow] at hscan
  exact ⟨hscan, hscan, hscan⟩

/-- `ON CONFLICT`: what the statement does not name stays. -/
theorem updateRow_sessionRow (old new : SessionRecord) :
    updateRow putSessionUpdates (sessionRow old) (sessionRow new) =
      sessionRow (old.overwrite new) := by
  funext c
  cases c <;> rfl

theorem sessionRow_of_origin {s s' : SessionRecord} (h : s'.origin = s.origin) {c : SessionColumn}
    (hc : c ∉ putSessionUpdates) : sessionRow s' c = sessionRow s c := by
  have hrow : sessionRow s'.origin c = sessionRow s.origin c := congrArg (sessionRow · c) h
  cases c with
  | id | providerID | renterID | image | relayToken | cpuCores | memoryMB | createdAt => exact hrow
  | _ => exact absurd (by decide) hc

end PeerCompute.PostgresStore
