import PeerCompute.Deployment.Answers

/-! What the agent reports to the registry, and what the registry has told it before. -/

namespace PeerCompute.Deployment

open PeerCompute.Interleaving PeerCompute.Plugin PeerCompute.Computev1 Prog
open PeerCompute.Agent (PolledSession terminatedReport)

variable {σ : Type} {D : Setting σ} {s s' : State σ}

/-- The registry holds the session for this provider, as pending. -/
def Pending (D : Setting σ) (s : State σ) (id : String) : Prop :=
  ∃ r, D.store.session s.server.store id = some r ∧ r.providerID = D.cfg.provider ∧
    r.status = "pending"

def Terminated (D : Setting σ) (s : State σ) (id : String) : Prop :=
  ∃ r, D.store.session s.server.store id = some r ∧ r.status = "terminated"

theorem pending_of_admits {r : SessionRecord} (hprovider : D.cfg.provider ≠ "")
    (hr : D.store.session s.server.store r.id = some r)
    (h : SessionFilter.admits { providerID := D.cfg.provider, status := "pending" } r = true) :
    Pending D s r.id := by
  simp only [SessionFilter.admits, hprovider, Bool.and_eq_true, decide_false, Bool.false_or,
    decide_eq_true_eq] at h
  exact ⟨r, hr, h.1.1, by simpa using h.2⟩

/-! ## What has been looked up -/

section

variable {P P' : Parties σ} {turns : List Turn} {j : Nat} {l : Journal Registry.signature}

/-- A session that is shown has been pending when the sessions were listed. -/
theorem pending_of_read (hS : D.store.Lawful) (hq : D.store.Queries) (hprovider : D.cfg.provider ≠ "")
    (hrun : Step.run (next D) turns P = some P')
    (hl : l.map liftRegistry <:+: ofThread j (Entry.deeds (history D turns P))) {sess : Session}
    (hread : Registry.ReadBy
      (Registry.Listed { providerID := D.cfg.provider, status := "pending" }) l sess) :
    ∃ x ∈ chronicle D turns P, Pending D x.1 sess.id := by
  obtain ⟨l₁, ref, r, l₂, hsplit, ⟨refs, hlisted, href⟩, rfl⟩ := hread
  obtain ⟨turns₁, turns₂, Q, t, hrun₁, hl₁, hload, -, hchronicle⟩ := executed_at hrun hl hsplit
  obtain ⟨turns₃, turns₄, R, u, -, hlookup, hrun₄, e, he⟩ := looked_up_at hrun₁ hl₁ hlisted
  obtain ⟨r₀, hr₀, rfl, hadmits⟩ :=
    hq.list_sessions (congrArg Prod.fst (Option.some.inj hlookup)) ref href
  have hid : r.id = r₀.id := by
    obtain ⟨r₁, hr₁⟩ := Option.isSome_iff_exists.mp
      (stored_run hS hrun₄ (Option.isSome_iff_exists.mpr ⟨r₀, hr₀⟩))
    obtain rfl | rfl := load_exec hr₁ hload
    · exact hS.session_id hr₁
    · rfl
  refine ⟨_, hchronicle.subset (List.mem_append_left _ he), ?_⟩
  change Pending D R.state r.id
  rw [hid]
  exact pending_of_admits hprovider hr₀ hadmits

theorem terminated_of_ended (hq : D.store.Queries) (hrun : Step.run (next D) turns P = some P')
    (hl : l.map liftRegistry <:+: ofThread j (Entry.deeds (history D turns P))) {id : String}
    (hended : Registry.Ended l id) : ∃ x ∈ chronicle D turns P, Terminated D x.1 id := by
  obtain ⟨ids, providerID, out, hmem, hid⟩ := hended
  obtain ⟨-, -, Q, t, -, hlookup, -, e, he⟩ := looked_up_at hrun hl hmem
  exact ⟨_, he, hq.terminated (congrArg Prod.fst (Option.some.inj hlookup)) id hid⟩

end

/-! ## The reports -/

def update? : Registry.Rpc → Option UpdateSessionStatusRequest
  | .updateSessionStatus req => some req
  | _ => none

/-- The reports that a thread has sent, those that have been repeated included. -/
def reported (i : Nat) (h : List (Entry signature Party)) : List UpdateSessionStatusRequest :=
  (sends (ofThread i (Entry.deeds h))).filterMap update?

theorem action_of_update {cfg : Agent.Config} {available : Option Resources} {a : ClientAction}
    {q : Request a.Res} (hq : request? cfg available a = some q) {req : UpdateSessionStatusRequest}
    (hreq : q.rpc = .updateSessionStatus req) : a = .provider (.updateSessionStatus req) := by
  cases a with
  | provider a =>
    cases a with
    | updateSessionStatus req' =>
      cases hq
      cases hreq
      rfl
    | exchangeCandidates | reportConnectionResult | listPending | heartbeat =>
      cases hq
      cases hreq
    | _ => cases hq
  | renter a =>
    cases a with
    | exchangeCandidates | reportConnectionResult | getSession =>
      cases hq
      cases hreq
    | _ => cases hq

/-- A program that has reported nothing has sent no report. -/
theorem reports_of_expands {l : Journal Agent.signature} {L : Journal signature}
    (hexpands : Expands (S := clients) (serve D.cfg D.available) (l.map liftProvider) L)
    (hnone : Agent.NoneReported l) : (sends L).filterMap update? = [] := by
  refine List.filterMap_eq_nil_iff.mpr (fun c hc => ?_)
  cases c with
  | updateSessionStatus req =>
    obtain ⟨ok, hmem⟩ := mem_sends hc
    obtain ⟨y, hy, L', q, hq, hrpc, -⟩ := serves_of_expands hexpands hmem
    obtain ⟨⟨b, rb⟩, hb, rfl⟩ := List.mem_map.mp hy
    cases action_of_update hq hrpc.symm
    exact absurd hb (hnone req rb)
  | _ => rfl

/-- The report `req` of the `i`-th thread: it is made by the shutdown, by a stop of a session that the
registry has held as terminated, or by a start of a session that it has held as pending for this
provider.  A start makes one report, and sends it three times at most. -/
def Sanctioned (D : Setting σ) (before : List (State σ × Entry signature Party)) (i : Nat)
    (req : UpdateSessionStatusRequest) : Prop :=
  ∃ q, (Entry.roles (before.map Prod.snd))[i]? = some (.client q) ∧
    (q = .shutdown ∧ (∃ id, req = terminatedReport id) ∨
      (∃ id, q = .goroutine (.stopSession id) ∧ req = terminatedReport id ∧
        ∃ x ∈ before, Terminated D x.1 id) ∨
      ∃ sess, q = .goroutine (.startSession sess) ∧ req.sessionID = sess.id ∧
        (∃ x ∈ before, Pending D x.1 sess.id) ∧
        ∃ n < 3, reported i (before.map Prod.snd) = .replicate n req)

/-- The agent reports nothing that the registry has not called for. -/
theorem reports_sanctioned (hS : D.store.Lawful) (hq : D.store.Queries)
    (hprovider : D.cfg.provider ≠ "") (hspawned : s.host.spawned = []) {turns : List Turn}
    {P : Parties σ} (hrun : Step.run (next D) turns ⟨s, []⟩ = some P)
    {before after : List (State σ × Entry signature Party)} {i : Nat}
    {req : UpdateSessionStatusRequest} {answered : Bool}
    (hsplit : chronicle D turns ⟨s, []⟩ =
      before ++ (s', .does (i, ⟨.send (.updateSessionStatus req), answered⟩)) :: after) :
    Sanctioned D before i req := by
  obtain ⟨turns₁, -, Q, -, hrun₁, rfl, -⟩ := chronicle_split hrun hsplit
  have hhistory : history D turns ⟨s, []⟩ = history D turns₁ ⟨s, []⟩ ++
      .does (i, ⟨.send (.updateSessionStatus req), answered⟩) :: after.map Prod.snd := by
    rw [← map_chronicle, hsplit, List.map_append, map_chronicle]
    rfl
  obtain ⟨q, l, a, hrole, hdoes, L₀, L₁, hL, hexpands, rq, hrq, hrpc, n, hn, hsends⟩ :=
    client_history (staffed_history hrun) hhistory (fun _ h => by cases h)
  obtain rfl := action_of_update hrq hrpc.symm
  obtain ⟨l, rfl, hprovides⟩ := hdoes.provider
  rw [Sanctioned, map_chronicle]
  refine ⟨q, hrole, ?_⟩
  cases q with
  | poll => cases hprovides.2
  | heartbeat => cases hprovides.2
  | shutdown => exact .inl ⟨rfl, hprovides⟩
  | goroutine g =>
    obtain ⟨j, hgo⟩ := launched_history hspawned hrun₁ g (.inr (List.mem_of_getElem? hrole))
    cases g with
    | startSession sess =>
      obtain ⟨hid, hnone⟩ := hprovides
      obtain ⟨-, -, -, l', hl', hread⟩ := listed_history (staffed_history hrun₁) hgo
      refine .inr (.inr ⟨sess, rfl, hid, pending_of_read hS hq hprovider hrun₁ hl' hread, n, hn, ?_⟩)
      rw [reported, hL, sends_append, List.filterMap_append, reports_of_expands hexpands hnone, hsends,
        ← hrpc, List.nil_append]
      exact List.filterMap_replicate_of_some rfl
    | stopSession id =>
      obtain ⟨l', hl', hended⟩ := asked_history (staffed_history hrun₁) hgo
      exact .inr (.inl ⟨id, rfl, hprovides, terminated_of_ended hq hrun₁ hl' hended⟩)
  | renter => cases hprovides

/-- The agent is cut off when it sends its first report. -/
def cutOff : Setting Tables := { aSetting with answered := fun t => t ≠ 31 }

/-- A session is listed, started, and reported to be running, for the second time. -/
def listedThenRunning : List Turn :=
  .poll :: (List.replicate 6 (.step 0)).append (.begin 0 :: .replicate 29 (.step 1))

theorem reports_sanctioned_running :
    ∃ (before after : List (State Tables × Entry signature Party)) (s' : State Tables)
      (req : UpdateSessionStatusRequest) (sess : PolledSession),
      chronicle cutOff listedThenRunning ⟨secondTunnel, []⟩ =
        before ++ (s', .does (1, ⟨.send (.updateSessionStatus req), true⟩)) :: after ∧
      req.status = "running" ∧ req.sessionID = sess.id ∧
      (∃ x ∈ before, Pending cutOff x.1 sess.id) ∧ reported 1 (before.map Prod.snd) = [req] := by
  obtain ⟨P, hP⟩ := Option.isSome_iff_exists.mp
    (show (Step.run (next cutOff) listedThenRunning ⟨secondTunnel, []⟩).isSome = true by
      decide +kernel)
  have hreport : ∃ s' req, (chronicle cutOff listedThenRunning ⟨secondTunnel, []⟩)[36]? =
      some (s', .does (1, ⟨.send (.updateSessionStatus req), true⟩)) ∧ req.status = "running" :=
    ⟨_, _, rfl, rfl⟩
  have honce : (reported 1 (((chronicle cutOff listedThenRunning ⟨secondTunnel, []⟩).take 36).map
      Prod.snd)).length = 1 := by
    decide +kernel
  obtain ⟨s', req, hreport, hrunning⟩ := hreport
  obtain ⟨hlt, hget⟩ := List.getElem?_eq_some_iff.mp hreport
  have hsplit := (List.take_append_drop 36 (chronicle cutOff listedThenRunning
    ⟨secondTunnel, []⟩)).symm
  rw [List.drop_eq_getElem_cons hlt, hget] at hsplit
  have hne : ∀ id, req ≠ terminatedReport id := by
    rintro id rfl
    exact absurd hrunning (by decide : "terminated" ≠ "running")
  obtain ⟨q, -, ⟨-, id, hid⟩ | ⟨id, -, hid, -⟩ | ⟨sess, -, hsess, hpending, n, -, hreported⟩⟩ :=
    reports_sanctioned (memoryStore_lawful _) (memoryStore_queries _) (by decide) rfl hP hsplit
  · exact absurd hid (hne id)
  · exact absurd hid (hne id)
  · obtain rfl : n = 1 := by
      rw [hreported, List.length_replicate] at honce
      exact honce
    exact ⟨_, _, s', req, sess, hsplit, hrunning, hsess, hpending, hreported⟩

end PeerCompute.Deployment
