import PeerCompute.CLI.Uses
import PeerCompute.Store.Resolution

/-! The argument of `peerctl session connect`, which the registry takes for a prefix and
`WriteConfig` for an ID. -/

namespace PeerCompute.CLI

open PeerCompute.Agent (WGConfig WGKeyPair Exchange Link)
open PeerCompute.Data PeerCompute.Interleaving PeerCompute.Plugin PeerCompute.PostgresStore
open PeerCompute.Computev1 Prog

theorem bytes_append (s t : String) : bytes (s ++ t) = bytes s ++ bytes t := by
  simp only [bytes, String.toByteArray_append, ByteArray.data_append, Array.toList_append]

theorem bytes_starts {s t : String} (h : s.toList <+: t.toList) : bytes s <+: bytes t := by
  obtain ⟨l, hl⟩ := h
  have ht : t = s ++ String.ofList l := by
    rw [← String.toList_inj, String.toList_append, String.toList_ofList, hl]
  rw [ht, bytes_append]
  exact List.prefix_append _ _

/-- The registry takes the argument for the session: it is the ID or a prefix of it, and
`GetSessionByPrefix` resolves it. -/
inductive Accepted (m : Tables) (sessionID : String) (r : SessionRecord) : Prop
  | memory {order : Nat → Order String} {t : Nat}
      (hfound : foundSession (memoryStore order) t m sessionID = .ok r)
  -- a pattern of the database that is no prefix is not meant
  | database {B : Backend} {t : Nat} (hfound : foundSession (tableStore B) t m sessionID = .ok r)
      (hstarts : sessionID.toList <+: r.id.toList)

theorem Accepted.starts {m : Tables} {sessionID : String} {r : SessionRecord}
    (h : Accepted m sessionID r) : sessionID.toList <+: r.id.toList := by
  cases h with
  | @memory order t hfound =>
    have hresolves := resolves_memoryLookup (order t) m.sessions sessionID {}
    rw [← foundSession_memoryStore, hfound] at hresolves
    cases hresolves with
    | whole hlookup =>
      rw [m.session_id hlookup]
    | only _ hlookup hstarts _ =>
      rw [m.session_id hlookup]
      exact hstarts
  | database _ hstarts => exact hstarts

/-- The path of a session's config. -/
def sessionPath (id : String) : Path := configPath ((bytes id).take 12)

theorem slice_of_starts {s id : String} (h : s.toList <+: id.toList) {p : List UInt8}
    (hp : slice s 12 = some p) : p = (bytes id).take 12 := by
  unfold slice at hp
  split at hp
  next hlength =>
    cases hp
    obtain ⟨l, hl⟩ := bytes_starts h
    rw [← hl, List.take_append_of_le_length]
    exact hlength
  next => cases hp

/-- No other config is created. -/
def OnPath (path : Path) : Action → Prop
  | .createFile p _ => p = path
  | _ => True

theorem onPath_of_early {path : Path} {a : Action} (ha : Early path a) : OnPath path a := by
  obtain ha | ⟨req, rfl⟩ := ha
  · cases a with
    | createFile => cases ha
    | _ => trivial
  · trivial

theorem uses_writeConfig {sessionID id : String} (h : sessionID.toList <+: id.toList)
    (config : WGConfig) : (writeConfig sessionID config).Uses (OnPath (sessionPath id)) := by
  refine ⟨trivial, fun made => ?_⟩
  cases made with
  | false => trivial
  | true =>
    change (createConfig config (slice sessionID 12)).Uses _
    cases hp : slice sessionID 12 with
    | none => exact ⟨trivial, fun r => r.elim⟩
    | some p =>
      refine ⟨congrArg configPath (slice_of_starts h hp), fun created => ?_⟩
      cases created <;> trivial

theorem uses_bringUp {sessionID id : String} (h : sessionID.toList <+: id.toList) (kp : WGKeyPair)
    (peerWGKey : String) (link : Link) (ips : TunnelIPs) :
    (bringUp sessionID kp peerWGKey link ips).Uses (OnPath (sessionPath id)) := by
  refine (uses_writeConfig h _).bind (fun path => ?_)
  cases path with
  | none => trivial
  | some path =>
    refine ⟨trivial, fun _ => (uses_keepUp link.connMode path).mono (fun a ha => ?_)⟩
    cases a with
    | createFile => cases ha
    | _ => trivial

/-- The config of a session has one path. -/
theorem uses_doConnect {sessionID id : String} (h : sessionID.toList <+: id.toList)
    (stunAddr : String) (kp : WGKeyPair) :
    (doConnect stunAddr sessionID kp).Uses (OnPath (sessionPath id)) :=
  doConnect_induct (P := Uses (OnPath (sessionPath id))) (sessionPath id) (fun hp hf => hp.bind hf)
    (fun hp => hp.mono (fun _ ha => onPath_of_early ha)) stunAddr (uses_bringUp h kp)

/-- The actions outside of `WriteConfig` up to its slice. -/
def Outside : Action → Prop
  | .mkdirAll | .panic => False
  | _ => True

theorem outside_of_early {path : Path} {a : Action} (ha : Early path a) : Outside a := by
  obtain ha | ⟨req, rfl⟩ := ha
  · cases a with
    | mkdirAll | panic => cases ha
    | _ => trivial
  · trivial

/-- The program panics exactly if the argument is too short when the directory is there. -/
def Panics (sessionID : String) {α : Type} (p : Prog signature α) : Prop :=
  ∀ ⦃σ : Type⦄ (exec : Exec signature σ) (s : σ), (.panic : signature.Act) ∈ p.reached exec s ↔
    sessionID.utf8ByteSize < 12 ∧ ⟨Action.mkdirAll, true⟩ ∈ p.journal exec s

section

variable {sessionID : String} {α β : Type}

theorem Panics.bind {p : Prog signature α} {f : α → Prog signature β} (hp : Panics sessionID p)
    (hf : ∀ x, Panics sessionID (f x)) : Panics sessionID (p >>= f) := by
  intro σ exec s
  constructor
  · intro hpanic
    obtain hpanic | ⟨x, s', hrun, hpanic⟩ := mem_reached_bind.mp hpanic
    · obtain ⟨hshort, hmade⟩ := (hp exec s).mp hpanic
      exact ⟨hshort, mem_journal_bind.mpr (.inl hmade)⟩
    · obtain ⟨hshort, hmade⟩ := (hf x exec s').mp hpanic
      exact ⟨hshort, mem_journal_bind.mpr (.inr ⟨x, s', hrun, hmade⟩)⟩
  · rintro ⟨hshort, hmade⟩
    obtain hmade | ⟨x, s', hrun, hmade⟩ := mem_journal_bind.mp hmade
    · exact mem_reached_bind.mpr (.inl ((hp exec s).mpr ⟨hshort, hmade⟩))
    · exact mem_reached_bind.mpr (.inr ⟨x, s', hrun, (hf x exec s').mpr ⟨hshort, hmade⟩⟩)

theorem panics_of_uses {p : Prog signature α} (hp : p.Uses Outside) : Panics sessionID p := by
  intro σ exec s
  constructor
  · intro hpanic
    exact absurd (hp.reached s _ hpanic) id
  · rintro ⟨-, hmade⟩
    exact absurd (hp.journal s _ hmade) id

theorem slice_eq_none_iff {s : String} {n : Nat} : slice s n = none ↔ s.utf8ByteSize < n := by
  unfold slice
  split
  next h => simpa using h
  next h => simpa using h

/-- What follows when the directory is there. -/
theorem panics_createConfig (config : WGConfig) {σ : Type} (exec : Exec signature σ) (s : σ) :
    (.panic : signature.Act) ∈ (createConfig config (slice sessionID 12)).reached exec s ↔
      sessionID.utf8ByteSize < 12 := by
  rw [← slice_eq_none_iff]
  cases slice sessionID 12 with
  | none => exact ⟨fun _ => rfl, fun _ => mem_reached_act.mpr (.inl rfl)⟩
  | some p =>
    have huses : (createConfig config (some p)).Uses (fun a : Action => a ≠ .panic) := by
      refine ⟨fun h => ?_, fun created => ?_⟩
      · cases h
      · cases created <;> trivial
    exact ⟨fun hpanic => absurd rfl (huses.reached s _ hpanic), fun h => by cases h⟩

theorem panics_writeConfig (config : WGConfig) : Panics sessionID (writeConfig sessionID config) := by
  intro σ exec s
  have hcreate (s' : σ) : (.panic : signature.Act) ∈
      (createConfig config (slice sessionID 12)).reached exec s' ↔ sessionID.utf8ByteSize < 12 :=
    panics_createConfig config exec s'
  constructor
  · intro hpanic
    obtain h | ⟨made, s', hexec, hpanic⟩ := mem_reached_act.mp hpanic
    · cases h
    cases made with
    | false => cases hpanic
    | true => exact ⟨(hcreate s').mp hpanic, mem_journal_act.mpr ⟨true, s', hexec, .inl rfl⟩⟩
  · rintro ⟨hshort, hmade⟩
    obtain ⟨made, s', hexec, hmade⟩ := mem_journal_act.mp hmade
    cases made with
    | true => exact mem_reached_act.mpr (.inr ⟨true, s', hexec, (hcreate s').mpr hshort⟩)
    | false =>
      obtain h | h := hmade
      · cases h
      · cases h

theorem panics_bringUp (kp : WGKeyPair) (peerWGKey : String) (link : Link) (ips : TunnelIPs) :
    Panics sessionID (bringUp sessionID kp peerWGKey link ips) := by
  refine (panics_writeConfig _).bind (fun path => panics_of_uses ?_)
  cases path with
  | none => trivial
  | some path =>
    exact ⟨trivial, fun _ =>
      (uses_keepUp link.connMode path).mono (fun a ha => outside_of_early (.inl ha))⟩

theorem panics_doConnect (stunAddr : String) (kp : WGKeyPair) :
    Panics sessionID (doConnect stunAddr sessionID kp) :=
  doConnect_induct (P := Panics sessionID) [] (fun hp hf => hp.bind hf)
    (fun hp => panics_of_uses (hp.mono (fun _ ha => outside_of_early ha))) stunAddr
    (panics_bringUp kp)

end

/-- An argument that the registry accepts is sliced within its bounds exactly if it has twelve bytes,
or if the config is not written at all; those that stand for one session write one file. -/
theorem connect_in_bounds_iff {m₁ m₂ : Tables} {arg₁ arg₂ : String} {r₁ r₂ : SessionRecord}
    (h₁ : Accepted m₁ arg₁ r₁) (h₂ : Accepted m₂ arg₂ r₂) (hid : r₁.id = r₂.id) {σ τ : Type}
    (exec₁ : Exec signature σ) (exec₂ : Exec signature τ) (stun₁ stun₂ : String)
    (kp₁ kp₂ : WGKeyPair) (s₁ : σ) (s₂ : τ) :
    (Action.panic ∉ (doConnect stun₁ arg₁ kp₁).reached exec₁ s₁ ↔
      (⟨Action.mkdirAll, true⟩ ∈ (doConnect stun₁ arg₁ kp₁).journal exec₁ s₁ →
        12 ≤ arg₁.utf8ByteSize)) ∧
    ∀ path₁ config₁ path₂ config₂,
      Action.createFile path₁ config₁ ∈ (doConnect stun₁ arg₁ kp₁).reached exec₁ s₁ →
      Action.createFile path₂ config₂ ∈ (doConnect stun₂ arg₂ kp₂).reached exec₂ s₂ →
      path₁ = path₂ := by
  have hpanics : Panics arg₁ (doConnect stun₁ arg₁ kp₁) := panics_doConnect stun₁ kp₁
  refine ⟨?_, fun path₁ config₁ path₂ config₂ hcreate₁ hcreate₂ => ?_⟩
  · constructor
    · intro hsafe hmade
      exact Nat.le_of_not_lt (fun hshort => hsafe ((hpanics exec₁ s₁).mpr ⟨hshort, hmade⟩))
    · intro hlong hpanic
      obtain ⟨hshort, hmade⟩ := (hpanics exec₁ s₁).mp hpanic
      exact absurd hshort (Nat.not_lt.mpr (hlong hmade))
  · have hpath₁ : path₁ = sessionPath r₁.id :=
      (uses_doConnect h₁.starts stun₁ kp₁).reached s₁ _ hcreate₁
    have hpath₂ : path₂ = sessionPath r₂.id :=
      (uses_doConnect h₂.starts stun₂ kp₂).reached s₂ _ hcreate₂
    rw [hpath₁, hpath₂, hid]

/-- The session of `rented`. -/
def rentedSession : SessionRecord := { id := aUUID, providerID := "p", renterID := "cli-user" }

theorem accepted_of_found {sessionID : String}
    (h : foundSession (memoryStore (fun _ => Order.id)) 0 rented.store sessionID =
      .ok rentedSession) : Accepted rented.store sessionID rentedSession := .memory h

/-- The path of a config that is created. -/
def createdPath : Action → Option Path
  | .createFile path _ => some path
  | _ => none

theorem exists_createFile {l : List Action} (h : (l.findSome? createdPath).isSome = true) :
    ∃ path config, .createFile path config ∈ l := by
  obtain ⟨path, hpath⟩ := Option.isSome_iff_exists.mp h
  obtain ⟨a, ha, hcreated⟩ := List.exists_of_findSome?_eq_some hpath
  cases a with
  | createFile path config => exact ⟨path, config, ha⟩
  | _ => cases hcreated

/-- The first twelve characters of the ID will do. -/
theorem connect_in_bounds_twelve :
    ∃ path config₁ config₂,
      Action.createFile path config₁ ∈ (connectAs "5f0c2b9e-7a4").reached aMachine rented ∧
      Action.createFile path config₂ ∈ (connectAs aUUID).reached aMachine rented ∧
      Action.panic ∉ (connectAs "5f0c2b9e-7a4").reached aMachine rented := by
  have h₁ : Accepted rented.store "5f0c2b9e-7a4" rentedSession :=
    accepted_of_found (by decide +kernel)
  have h₂ : Accepted rented.store aUUID rentedSession := accepted_of_found (by decide +kernel)
  obtain ⟨path₁, config₁, hcreate₁⟩ : ∃ path config, Action.createFile path config ∈
      (connectAs "5f0c2b9e-7a4").reached aMachine rented := exists_createFile (by decide +kernel)
  obtain ⟨path₂, config₂, hcreate₂⟩ : ∃ path config, Action.createFile path config ∈
      (connectAs aUUID).reached aMachine rented := exists_createFile (by decide +kernel)
  obtain ⟨hsafe, hpath⟩ := connect_in_bounds_iff h₁ h₂ rfl aMachine aMachine "localhost:3478"
    "localhost:3478" ⟨"renter private key", "renter key"⟩ ⟨"renter private key", "renter key"⟩ rented
    rented
  obtain rfl := hpath _ _ _ _ hcreate₁ hcreate₂
  exact ⟨path₁, config₁, config₂, hcreate₁, hcreate₂, hsafe.mpr (fun _ => by decide)⟩

def isPanic : Action → Bool
  | .panic => true
  | _ => false

/-- Four characters stand for the session as well, and the renter panics. -/
theorem short_argument_panics :
    Accepted rented.store "5f0c" rentedSession ∧
      Action.panic ∈ (connectAs "5f0c").reached aMachine rented := by
  refine ⟨accepted_of_found (by decide +kernel), ?_⟩
  have hpanics : ((connectAs "5f0c").reached aMachine rented).any isPanic = true := by
    decide +kernel
  obtain ⟨a, ha, hpanic⟩ := List.any_eq_true.mp hpanics
  cases a with
  | panic => exact ha
  | _ => cases hpanic

end PeerCompute.CLI
