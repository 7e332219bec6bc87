import PeerCompute.Agent.Uses
import PeerCompute.Interleaving.Journal
import PeerCompute.Registry.Allocation

/-! The limits with which Docker is asked to create the container of a session. -/

namespace PeerCompute.Agent

open PeerCompute.Data PeerCompute.Interleaving PeerCompute.Plugin PeerCompute.Computev1 Prog

theorem wrap_eq_self_iff {n : Int} (hn : 0 ≤ n) : wrap n = n ↔ n ≤ maxInt := by
  unfold wrap maxInt Int.bmod
  simp only []
  split
  · omega
  · omega

/-- The cores of a container are exact, and its memory is if the number of bytes fits in 63 bits. -/
def Limited (requested : Resources) : Action → Prop
  | .containerCreate _ _ config =>
    config.nanoCPUs = requested.cpuCores.toNat * 1000000000 ∧
      (config.memory = requested.memoryMB.toNat * 1048576 ↔ requested.memoryMB.toNat < 8796093022208)
  | _ => True

theorem limited_of_plain {requested : Resources} {a : Action} (ha : Plain a) :
    Limited requested a := by
  cases a with
  | containerCreate => cases ha
  | _ => trivial

theorem limited_containerConfig {opts : StartContainerOpts} {requested : Resources}
    (hcpu : opts.resources.cpuCores = requested.cpuCores)
    (hmemory : opts.resources.memoryMB = requested.memoryMB) (n : Nat) (name : String) :
    Limited requested (.containerCreate n name (containerConfig opts)) := by
  have hcores := requested.cpuCores.toNat_lt
  refine ⟨?_, ?_⟩
  · simp only [containerConfig, hcpu]
    exact (wrap_eq_self_iff (by omega)).mpr (by unfold maxInt; omega)
  · simp only [containerConfig, hmemory]
    rw [wrap_eq_self_iff (by omega)]
    unfold maxInt
    omega

/-- The limits of a session are those that its renter has asked for exactly if less than 2^43 MB were
asked for: no conversion on the way checks a bound. -/
theorem docker_limits_iff {σ : Type} {E : Registry.Env} {S : Store σ} (hS : S.Lawful)
    (hlists : S.Lists) {s s₁ s₂ s₃ : Registry.Server σ} (hf : Registry.Fresh E S s)
    {ctx : Registry.Metadata} {req : CreateSessionRequest} {sess : Session}
    (hcreate : (Registry.createSession ctx req).run (Registry.exec E S) s =
      some (.ok (.createSession sess), s₁))
    {es : List Registry.Event} (hrun : Step.run (Registry.step E S) es s₁ = some s₂)
    {poll : ListProviderSessionsRequest} {sessions : List Session}
    (hpoll : (Registry.listProviderSessions poll).run (Registry.exec E S) s₂ =
      some (.ok (.listProviderSessions sessions), s₃))
    {polled : PolledSession} (hpolled : polled.toSession ∈ sessions) (hid : polled.id = sess.id)
    (n : Nat) (cfg : Config) :
    (startSession n cfg polled).Uses (Limited (req.requested.getD {})) := by
  obtain ⟨hcpu, hmemory, -⟩ :=
    Registry.allocated_of_created hS hlists hf hcreate hrun hpoll hpolled hid
  exact uses_startSession (fun _ => limited_of_plain) (fun _ => trivial)
    (limited_containerConfig hcpu hmemory n _) (fun _ _ => trivial)

/-- UUIDs of the length that session IDs have. -/
def longEnv : Registry.Env :=
  { Registry.countingEnv with uuid := fun t => "5f0c2b9e-7a41-4c57-9d3f-" ++ t.repr }

theorem longEnv_fresh : Registry.Fresh longEnv (memoryStore fun _ => Order.id)
    Registry.oneProvider where
  injective m n h := by
    have hl := congrArg String.toList h
    simp only [longEnv, String.toList_append] at hl
    exact repr_inj (List.append_cancel_left hl)
  session _ _ := rfl
  slot _ _ := rfl

/-- The session of a renter who asks for this memory. -/
def sessionWith (memoryMB : UInt64) : PolledSession where
  toSession := Registry.sessionToProto
    { id := "5f0c2b9e-7a41-4c57-9d3f-4", providerID := "p", renterID := "r", image := "alpine"
      status := "pending", relayToken := "5f0c2b9e-7a41-4c57-9d3f-3", createdAt := 6
      wgProviderIP := "10.99.1.1", wgRenterIP := "10.99.1.2", cpuCores := 2, memoryMB := memoryMB }
  long := show 12 ≤ "5f0c2b9e-7a41-4c57-9d3f-4".toList.length by decide

/-- What the renter and the provider are answered. -/
def Allocates (memoryMB : UInt64) : Prop :=
  Registry.createAndPoll longEnv (memoryStore fun _ => Order.id)
      (Registry.requestFor { cpuCores := 2, memoryMB := memoryMB }) =
    some (.ok (.createSession (sessionWith memoryMB).toSession),
      .ok (.listProviderSessions [(sessionWith memoryMB).toSession]))

/-- The actions and answers of the session's `startSession`. -/
def sessionJournal (memoryMB : UInt64) : Prog.Journal signature :=
  (startSession 0 aConfig (sessionWith memoryMB)).journal (exec quietEnv) {}

theorem docker_limits_small :
    Allocates 512 ∧ ∃ name config r,
      ⟨Action.containerCreate 0 name config, r⟩ ∈ sessionJournal 512 ∧
      config.nanoCPUs = 2 * 1000000000 ∧ config.memory = 512 * 1048576 := by
  have hallocates : Allocates 512 := by
    unfold Allocates
    decide +kernel
  obtain ⟨s₁, s₂, hcreate, hrun, hpoll⟩ := Registry.createAndPoll_eq_some hallocates
  have hpolled : (sessionWith 512).toSession ∈ [(sessionWith 512).toSession] := .head _
  have huses := docker_limits_iff (memoryStore_lawful _) (memoryStore_exact _).lists longEnv_fresh
    hcreate hrun hpoll hpolled rfl 0 aConfig
  obtain ⟨name, config, r, hx⟩ : ∃ name config r, (sessionJournal 512)[5]? =
      some ⟨Action.containerCreate 0 name config, r⟩ := ⟨_, _, _, rfl⟩
  have hmem := List.mem_of_getElem? hx
  obtain ⟨hcores, hmemory⟩ := huses.journal _ _ hmem
  exact ⟨hallocates, name, config, r, hmem, hcores, hmemory.mpr (by decide)⟩

/-- With 2^43 MB the limit is negative, and with 2^44 MB there is none. -/
theorem memory_limit_wraps :
    Allocates 8796093022208 ∧ Allocates 17592186044416 ∧
      (∃ name config r,
        ⟨Action.containerCreate 0 name config, r⟩ ∈ sessionJournal 8796093022208 ∧
          config.memory = -9223372036854775808) ∧
      ∃ name config r,
        ⟨Action.containerCreate 0 name config, r⟩ ∈ sessionJournal 17592186044416 ∧
          config.memory = 0 := by
  refine ⟨?_, ?_, ?_, ?_⟩
  · unfold Allocates
    decide +kernel
  · unfold Allocates
    decide +kernel
  · obtain ⟨name, config, r, hx, hmemory⟩ : ∃ name config r, (sessionJournal 8796093022208)[5]? =
        some ⟨Action.containerCreate 0 name config, r⟩ ∧ config.memory = -9223372036854775808 :=
      ⟨_, _, _, rfl, by decide +kernel⟩
    exact ⟨name, config, r, List.mem_of_getElem? hx, hmemory⟩
  · obtain ⟨name, config, r, hx, hmemory⟩ : ∃ name config r, (sessionJournal 17592186044416)[5]? =
        some ⟨Action.containerCreate 0 name config, r⟩ ∧ config.memory = 0 :=
      ⟨_, _, _, rfl, by decide +kernel⟩
    exact ⟨name, config, r, List.mem_of_getElem? hx, hmemory⟩

end PeerCompute.Agent
