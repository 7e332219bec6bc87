import PeerCompute.Registry.Effects
import PeerCompute.Store.Postgres

/-! The resources of a session on their way from the renter's request to the provider's poll. -/

namespace PeerCompute.Registry

open PeerCompute.Data PeerCompute.Interleaving PeerCompute.Plugin PeerCompute.Computev1 Prog

section

variable {σ : Type} {E : Env} {S : Store σ} {s s' : Server σ}

/-- A stored session keeps its origin in every step. -/
theorem origin_step (hS : S.Lawful) (hf : Fresh E S s) {e : Event} (h : step E S s e = some s')
    {id : String} {r : SessionRecord} (hr : S.session s.store id = some r) :
    ∃ r', S.session s'.store id = some r' ∧ r'.origin = r.origin := by
  cases step_view hS hf h with
  | same hsame => exact ⟨r, by rw [hsame, hr], rfl⟩
  | @changed q q' hq hst hid =>
    by_cases heq : id = q.id
    · subst heq
      obtain rfl := Option.some.inj (hr.symm.trans hq)
      exact ⟨q', stores_self hst hid, hid⟩
    · exact ⟨r, by rw [stores_other hst hid heq, hr], rfl⟩
  | new hnew _ hst =>
    refine ⟨r, ?_, rfl⟩
    rw [hst id, if_neg, hr]
    rintro rfl
    have hnone : S.session s.store (E.uuid (s.clock + 4)) = none := hnew
    rw [show S.session s.store (E.uuid (s.clock + 4)) = some r from hr] at hnone
    cases hnone

/-- And so in every run. -/
theorem origin_run (hS : S.Lawful) (hf : Fresh E S s) {es : List Event}
    (h : Step.run (step E S) es s = some s') {id : String} {r : SessionRecord}
    (hr : S.session s.store id = some r) :
    ∃ r', S.session s'.store id = some r' ∧ r'.origin = r.origin := by
  refine (Step.run_induct (I := fun s => Fresh E S s ∧ ∃ r', S.session s.store id = some r' ∧
    r'.origin = r.origin) ?_ (Step.along_true es s) ⟨hf, r, hr, rfl⟩ h).2
  rintro s s' e - ⟨hf, r', hr', horigin⟩ hstep
  obtain ⟨r'', hr'', horigin'⟩ := origin_step hS hf hstep hr'
  exact ⟨hf.step hS hstep, r'', hr'', horigin'.trans horigin⟩

theorem loadSessions_leads {refs : List (Ref SessionRecord)}
    (hrefs : ∀ ref ∈ refs, ∃ r, S.session s.store r.id = some r ∧ ref = S.handle r) :
    Leads (exec E S) (loadSessions refs) s (fun out _ =>
      ∀ x ∈ out, ∃ r, S.session s.store r.id = some r ∧ x = sessionToProto r) := by
  induction refs generalizing s with
  | nil => exact leads_ret.mpr (fun _ hx => by cases hx)
  | cons ref refs ih =>
    obtain ⟨r, hr, rfl⟩ := hrefs ref (.head _)
    refine leads_loadSession.mpr (Leads.bind ?_)
    refine (ih (s := s.tick) (fun ref href => hrefs ref (.tail _ href))).mono (fun out _ h => ?_)
    refine leads_ret.mpr (fun x hx => ?_)
    obtain rfl | hx := List.mem_cons.mp hx
    · exact ⟨r, hr, by rw [S.load_handle hr]⟩
    · exact h x hx

/-- A poll shows stored sessions as they are. -/
theorem listProviderSessions_leads (hlists : S.Lists) (req : ListProviderSessionsRequest) :
    Leads (exec E S) (listProviderSessions req) s (fun resp _ => ∀ sessions,
      resp = .ok (.listProviderSessions sessions) →
      ∀ x ∈ sessions, ∃ r, S.session s.store r.id = some r ∧ x = sessionToProto r) := by
  have hlist : exec E S (.listSessions { providerID := req.providerID, status := req.statusFilter })
      s = some (S.listSessions s.clock s.store
        { providerID := req.providerID, status := req.statusFilter }, s.tick) := rfl
  refine (leads_perform hlist).mpr ?_
  cases href : S.listSessions s.clock s.store
      { providerID := req.providerID, status := req.statusFilter } with
  | error e => exact leads_ret.mpr (fun _ h => by cases h)
  | ok refs =>
    refine Leads.bind ((loadSessions_leads (s := s.tick) (hlists _ _ _ _ href)).mono
      (fun out _ h => leads_ret.mpr (fun sessions hsessions => ?_)))
    cases hsessions
    exact h

/-- The record that a successful `CreateSession` has stored. -/
theorem createSession_stored (hS : S.Lawful) (hf : Fresh E S s) {ctx : Metadata}
    {req : CreateSessionRequest} {sess : Session}
    (h : (createSession ctx req).run (exec E S) s = some (.ok (.createSession sess), s')) :
    Fresh E S s' ∧ ∃ r, S.session s'.store sess.id = some r ∧
      r.cpuCores = (req.requested.getD {}).cpuCores ∧
      r.memoryMB = (req.requested.getD {}).memoryMB := by
  have hstep : step E S s (.rpc (.createSession ctx req)) = some s' := by
    have hrun : (Rpc.createSession ctx req).handler.run (exec E S) s =
      some (.ok (.createSession sess), s') := h
    simp only [step, hrun, Option.map_some]
  refine ⟨hf.step hS hstep, ?_⟩
  obtain ⟨⟨e, he⟩, -⟩ | ⟨providerID, ips, T, -, -, hcreated⟩ :=
    leads_iff.mp (createSession_leads ctx req) _ _ h
  · cases he
  · obtain ⟨e, -, hresp, -⟩ | ⟨x, hput, hresp, hstore, -⟩ := hcreated.stores
    · cases hresp
    · have hnone : S.session s.store (newSession E s.clock req providerID ips).id = none :=
        hf.session _ (Nat.le_add_right _ _)
      obtain ⟨href, hview⟩ := hS.put_own hput
      have hr := hview (newSession E s.clock req providerID ips).id
      rw [if_pos rfl, hnone] at hr
      have hload : S.loadSession x.2 x.1 = newSession E s.clock req providerID ips := by
        rw [href]
        exact S.load_handle hr
      rw [hload] at hresp
      cases hresp
      exact ⟨_, hstore ▸ hr, rfl, rfl⟩

section

variable {ctx : Metadata} {req : CreateSessionRequest} {sess : Session} {s₁ s₂ s₃ : Server σ}
  {es : List Event} {poll : ListProviderSessionsRequest} {sessions : List Session}

/-- What a provider gets that polls for the session. -/
theorem allocated_of_created (hS : S.Lawful) (hlists : S.Lists) (hf : Fresh E S s)
    (hcreate : (createSession ctx req).run (exec E S) s = some (.ok (.createSession sess), s₁))
    (hrun : Step.run (step E S) es s₁ = some s₂)
    (hpoll : (listProviderSessions poll).run (exec E S) s₂ =
      some (.ok (.listProviderSessions sessions), s₃))
    {polled : Session} (hpolled : polled ∈ sessions) (hid : polled.id = sess.id) :
    polled.allocated.cpuCores = (req.requested.getD {}).cpuCores ∧
      polled.allocated.memoryMB = (req.requested.getD {}).memoryMB ∧
      polled.allocated.gpuCount = 0 := by
  obtain ⟨hf₁, r, hr, hcpu, hmemory⟩ := createSession_stored hS hf hcreate
  obtain ⟨r₂, hr₂, horigin⟩ := origin_run hS hf₁ hrun hr
  obtain ⟨q, hq, rfl⟩ := leads_iff.mp (listProviderSessions_leads hlists poll) _ _ hpoll sessions rfl
    polled hpolled
  have hqid : q.id = sess.id := hid
  rw [hqid, hr₂] at hq
  cases hq
  refine ⟨?_, ?_, rfl⟩
  · exact (congrArg SessionRecord.cpuCores horigin).trans hcpu
  · exact (congrArg SessionRecord.memoryMB horigin).trans hmemory

/-- Of the resources that a renter has asked for, the provider gets the CPU cores and the memory, and
the GPUs exactly if none were asked for: a session record has no field for them. -/
theorem allocated_carries_iff (hS : S.Lawful) (hlists : S.Lists) (hf : Fresh E S s)
    (hcreate : (createSession ctx req).run (exec E S) s = some (.ok (.createSession sess), s₁))
    (hrun : Step.run (step E S) es s₁ = some s₂)
    (hpoll : (listProviderSessions poll).run (exec E S) s₂ =
      some (.ok (.listProviderSessions sessions), s₃))
    {polled : Session} (hpolled : polled ∈ sessions) (hid : polled.id = sess.id) :
    polled.allocated.cpuCores = (req.requested.getD {}).cpuCores ∧
      polled.allocated.memoryMB = (req.requested.getD {}).memoryMB ∧
      (polled.allocated.gpuCount = (req.requested.getD {}).gpuCount ↔
        (req.requested.getD {}).gpuCount = 0) := by
  obtain ⟨hcpu, hmemory, hgpu⟩ := allocated_of_created hS hlists hf hcreate hrun hpoll hpolled hid
  refine ⟨hcpu, hmemory, ?_⟩
  rw [hgpu]
  exact eq_comm

end

end

/-- A renter asks the only provider for these resources. -/
def requestFor (resources : Resources) : CreateSessionRequest where
  providerID := "p"
  renterID := "r"
  requested := some resources
  image := "alpine"
  wgPublicKey := "key"

/-- A session with two cores and 512 MB. -/
def smallSession : Session := sessionToProto
  { id := "session-4", providerID := "p", renterID := "r", image := "alpine", status := "pending"
    relayToken := "session-3", createdAt := 6, wgProviderIP := "10.99.1.1"
    wgRenterIP := "10.99.1.2", cpuCores := 2, memoryMB := 512 }

def pollPending : ListProviderSessionsRequest := { providerID := "p", statusFilter := "pending" }

/-- The answers to a creation and to the poll that follows. -/
def createAndPoll (E : Env) (S : Store Tables) (req : CreateSessionRequest) :
    Option (Except Status Response × Except Status Response) :=
  ((createSession none req).run (exec E S) oneProvider).bind (fun x =>
    ((listProviderSessions pollPending).run (exec E S) x.2).map (fun y => (x.1, y.1)))

theorem createAndPoll_eq_some {E : Env} {S : Store Tables} {req : CreateSessionRequest}
    {x y : Except Status Response} (h : createAndPoll E S req = some (x, y)) :
    ∃ s₁ s₂, (createSession none req).run (exec E S) oneProvider = some (x, s₁) ∧
      Step.run (step E S) [] s₁ = some s₁ ∧
      (listProviderSessions pollPending).run (exec E S) s₁ = some (y, s₂) := by
  obtain ⟨⟨x', s₁⟩, hcreate, h⟩ := Option.bind_eq_some_iff.mp h
  obtain ⟨⟨y', s₂⟩, hpoll, h⟩ := Option.map_eq_some_iff.mp h
  cases h
  exact ⟨s₁, s₂, hcreate, rfl, hpoll⟩

def aDatabase : Store Tables :=
  PostgresStore.tableStore (PostgresStore.faultless fun _ => Order.id)

theorem allocated_carries_small :
    createAndPoll countingEnv aDatabase (requestFor { cpuCores := 2, memoryMB := 512 }) =
        some (.ok (.createSession smallSession), .ok (.listProviderSessions [smallSession])) ∧
      smallSession.allocated.cpuCores = 2 ∧ smallSession.allocated.memoryMB = 512 ∧
      smallSession.allocated.gpuCount = 0 := by
  have hview : createAndPoll countingEnv aDatabase
      (requestFor { cpuCores := 2, memoryMB := 512 }) =
      some (.ok (.createSession smallSession), .ok (.listProviderSessions [smallSession])) := by
    decide +kernel
  obtain ⟨s₁, s₂, hcreate, hrun, hpoll⟩ := createAndPoll_eq_some hview
  obtain ⟨hcpu, hmemory, hgpu⟩ := allocated_carries_iff (PostgresStore.tableStore_lawful _)
    (PostgresStore.tableStore_lists _) (Fresh.counting rfl rfl) hcreate hrun hpoll (.head _) rfl
  exact ⟨hview, hcpu, hmemory, hgpu.mpr rfl⟩

/-- One GPU was asked for, and none is allocated. -/
theorem gpus_not_allocated :
    createAndPoll countingEnv (memoryStore (fun _ => Order.id))
        (requestFor { cpuCores := 2, memoryMB := 512, gpuCount := 1 }) =
      some (.ok (.createSession smallSession), .ok (.listProviderSessions [smallSession])) ∧
    smallSession.allocated.gpuCount = 0 := by
  decide +kernel

end PeerCompute.Registry
