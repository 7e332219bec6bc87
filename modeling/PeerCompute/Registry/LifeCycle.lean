import PeerCompute.Registry.Effects

namespace PeerCompute.Registry

open PeerCompute.Data PeerCompute.Interleaving PeerCompute.Plugin PeerCompute.Computev1
  PeerCompute.Relay Prog

/-- The statuses of a session. -/
def IsStatus (status : String) : Prop :=
  status = "pending" ∨ status = "running" ∨ status = "terminated"

/-- A step of the life cycle: pending, running, terminated, where running may be skipped and a
status may be repeated. -/
def LifeCycle (a b : String) : Prop :=
  IsStatus a ∧ IsStatus b ∧ (a = b ∨ a = "pending" ∨ a = "running" ∧ b = "terminated")

theorem LifeCycle.refl {a : String} (h : IsStatus a) : LifeCycle a a := ⟨h, h, .inl rfl⟩

theorem LifeCycle.terminated {a : String} (h : IsStatus a) : LifeCycle a "terminated" := by
  refine ⟨h, .inr (.inr rfl), ?_⟩
  obtain rfl | rfl | rfl := h
  · exact .inr (.inl rfl)
  · exact .inr (.inr ⟨rfl, rfl⟩)
  · exact .inl rfl

variable {σ : Type} {E : Env} {S : Store σ} {s s' : Server σ}

/-- An `UpdateSessionStatus` asks for a status the session may go to, unless it is rejected
without a trace. -/
def ReportsInOrder (S : Store σ) (s : Server σ) (e : Event) : Prop :=
  ∀ req r, e = .rpc (.updateSessionStatus req) → Names S s req.sessionID r →
    (¬Rejected req ∨ S.shared = true) → LifeCycle r.status req.status

/-- Every stored session has one of the statuses. -/
def StatusesOk (S : Store σ) (s : Server σ) : Prop :=
  ∀ id r, S.session s.store id = some r → IsStatus r.status

/-- How the status of one session may change in a step. -/
def MovesOn (S : Store σ) (s s' : Server σ) (id : String) : Prop :=
  (∀ a, (S.session s.store id).map (·.status) = some a →
    ∃ b, (S.session s'.store id).map (·.status) = some b ∧ LifeCycle a b) ∧
  (S.session s.store id = none → ∀ r, S.session s'.store id = some r → r.status = "pending")

theorem MovesOn.of_eq (hst : StatusesOk S s) {id : String}
    (h : S.session s'.store id = S.session s.store id) : MovesOn S s s' id := by
  refine ⟨fun a ha => ⟨a, h ▸ ha, ?_⟩, fun hnone r hr => ?_⟩
  · obtain ⟨r, hr, rfl⟩ := Option.map_eq_some_iff.mp ha
    exact .refl (hst id r hr)
  · rw [h, hnone] at hr
    cases hr

theorem MovesOn.of_stores (hst : StatusesOk S s) {r r' : SessionRecord}
    (hr : S.session s.store r.id = some r) (h : S.Stores s.store r' s'.store)
    (hid : r'.origin = r.origin) (hc : LifeCycle r.status r'.status) (id : String) :
    MovesOn S s s' id := by
  by_cases heq : id = r.id
  · subst heq
    refine ⟨fun a ha => ⟨r'.status, ?_, ?_⟩, fun hnone => ?_⟩
    · rw [stores_self h hid]
      rfl
    · rw [hr] at ha
      cases ha
      exact hc
    · rw [hr] at hnone
      cases hnone
  · exact .of_eq hst (stores_other h hid heq)

theorem movesOn_step (hS : S.Lawful) (hf : Fresh E S s) (hst : StatusesOk S s) {e : Event}
    (hok : ReportsInOrder S s e) (h : step E S s e = some s') (id : String) :
    MovesOn S s s' id := by
  cases step_view hS hf h with
  | same hsame => exact .of_eq hst (congrFun hsame id)
  | @changed r r' hr hstores hid hstatus =>
    apply MovesOn.of_stores hst hr hstores hid
    obtain heq | heq | ⟨req, he, hn, heff, heq⟩ := hstatus
    · rw [heq]
      exact .refl (hst r.id r hr)
    · rw [heq]
      exact .terminated (hst r.id r hr)
    · rw [heq]
      exact hok req r he hn heff
  | @new req providerID ips hnew hclock hstores =>
    have hid := hstores id
    split at hid
    next heq =>
      subst heq
      refine ⟨fun a ha => ?_, fun _ r hr => ?_⟩
      · rw [show S.session s.store (newSession E s.clock req providerID ips).id = none from hnew] at ha
        cases ha
      · rw [hid] at hr
        cases hr
        rfl
    next => exact .of_eq hst hid

theorem StatusesOk.step (h : ∀ id, MovesOn S s s' id) : StatusesOk S s' := by
  intro id r hr
  cases hold : S.session s.store id with
  | none =>
    rw [(h id).2 hold r hr]
    exact .inl rfl
  | some r₀ =>
    obtain ⟨b, hb, hc⟩ := (h id).1 r₀.status (congrArg (Option.map _) hold)
    rw [hr] at hb
    cases hb
    exact hc.2.1

def Regular (E : Env) (S : Store σ) (s : Server σ) : Prop := Fresh E S s ∧ StatusesOk S s

theorem Regular.step (hS : S.Lawful) (hs : Regular E S s) {e : Event}
    (hok : ReportsInOrder S s e) (h : step E S s e = some s') : Regular E S s' :=
  ⟨hs.1.step hS h, .step (movesOn_step hS hs.1 hs.2 hok h)⟩

/-- The statuses a session is stored with, in the order in which a run stores them. -/
def statuses (E : Env) (S : Store σ) (es : List Event) (s : Server σ) (id : String) :
    List String :=
  (Step.trace (step E S) es s).filterMap (fun s => (S.session s.store id).map (·.status))

/-- In a run in which every `UpdateSessionStatus` asks for a status its session may go to, the
statuses of every session are a path of the life cycle, which begins at `"pending"` for the
sessions made in the run. -/
theorem statuses_follow_lifeCycle (hS : S.Lawful) (es : List Event) (hf : Fresh E S s)
    (hst : StatusesOk S s) (hok : Step.Along (step E S) (ReportsInOrder S) es s) (id : String) :
    (statuses E S es s id).IsChain LifeCycle ∧ (∀ a ∈ statuses E S es s id, IsStatus a) ∧
      (S.session s.store id = none → ∀ a ∈ (statuses E S es s id).head?, a = "pending") := by
  have hs : Regular E S s := ⟨hf, hst⟩
  refine ⟨?_, ?_, ?_⟩
  · apply Step.isChain_trace (I := Regular E S) _ hok hs
    intro s s' e hok hs h
    exact ⟨hs.step hS hok h, (movesOn_step hS hs.1 hs.2 hok h id).1⟩
  · intro a ha
    obtain ⟨t, ht, hta⟩ := List.mem_filterMap.mp ha
    obtain ⟨r, hr, rfl⟩ := Option.map_eq_some_iff.mp hta
    have hall := Step.forall_mem_trace (I := Regular E S) (fun hok hs h => hs.step hS hok h) hok hs
    exact (hall t ht).2 id r hr
  · intro hnone
    apply Step.head_trace (I := Regular E S) (P := (· = "pending")) _ hok hs
    · rw [hnone]
      rfl
    intro s s' e hok hs h
    refine ⟨hs.step hS hok h, fun hn a ha => ?_⟩
    obtain ⟨r, hr, rfl⟩ := Option.map_eq_some_iff.mp ha
    exact (movesOn_step hS hs.1 hs.2 hok h id).2 (Option.map_eq_none_iff.mp hn) r hr

def reportRunning : Event := .rpc (.updateSessionStatus
  { sessionID := "session-4", status := "running", wgEndpoint := "192.0.2.1:51820" })

theorem reportRunning_inOrder {s : Server Tables}
    (h : step countingEnv (memoryStore (fun _ => Order.id)) oneProvider createOne = some s) :
    ReportsInOrder (memoryStore (fun _ => Order.id)) s reportRunning := by
  have hstored : (step countingEnv (memoryStore (fun _ => Order.id)) oneProvider createOne).map
      (fun s => ((memoryStore (fun _ => Order.id)).getSessionByPrefix s.clock s.store "session-4",
        (s.store.sessions.lookup "session-4").map (·.status))) =
      some (.ok (.stored "session-4"), some "pending") := by decide +kernel
  rw [h] at hstored
  simp only [Option.map_some, Option.some.injEq, Prod.mk.injEq] at hstored
  rintro req r heq hn -
  cases heq
  rw [hn.status hstored.1 hstored.2]
  exact ⟨.inl rfl, .inr (.inl rfl), .inr (.inl rfl)⟩

theorem statuses_follow_lifeCycle_full :
    statuses countingEnv (memoryStore (fun _ => Order.id)) [createOne, reportRunning, terminateOne]
      oneProvider "session-4" = ["pending", "running", "terminated"] ∧
    (statuses countingEnv (memoryStore (fun _ => Order.id))
      [createOne, reportRunning, terminateOne] oneProvider "session-4").IsChain LifeCycle := by
  refine ⟨by decide +kernel, (statuses_follow_lifeCycle (memoryStore_lawful _) _
    (Fresh.counting rfl rfl) (fun _ _ h => by cases h) ?_ "session-4").1⟩
  refine ⟨by rintro req r ⟨⟩, fun s hs => ⟨reportRunning_inOrder hs, fun s' _ => ?_⟩⟩
  exact ⟨by rintro req r ⟨⟩, fun _ _ => trivial⟩

/-- A provider that reports `"running"` for a session the renter has terminated revives it. -/
theorem terminated_session_revived :
    statuses countingEnv (memoryStore (fun _ => Order.id))
      [createOne, terminateOne, reportRunning] oneProvider "session-4" =
        ["pending", "terminated", "running"] ∧
    ¬["pending", "terminated", "running"].IsChain LifeCycle := by
  refine ⟨by decide +kernel, fun h => ?_⟩
  have hstep : LifeCycle "terminated" "running" := by
    simpa using (List.isChain_cons_cons.mp (List.isChain_cons_cons.mp h).2).1
  simpa [LifeCycle] using hstep.2.2

end PeerCompute.Registry
