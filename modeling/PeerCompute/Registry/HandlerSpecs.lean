import PeerCompute.Registry.HandlerLaws

namespace PeerCompute.Registry

open PeerCompute.Data PeerCompute.Interleaving PeerCompute.Plugin PeerCompute.Computev1
  PeerCompute.Relay Prog

variable {σ : Type} {E : Env} {S : Store σ} {s : Server σ}

/-- What `TerminateSession` has done when it succeeds. -/
structure Terminated (S : Store σ) (r : SessionRecord) (s s' : Server σ) : Prop where
  stores : ∃ t, S.Stores s.store { r with status := "terminated", terminatedAt := t } s'.store
  candidates : s'.candidates = s.candidates.erase r.id
  tunnels : s'.tunnels = s.tunnels.reclaimTunnelIndex r.id
  relay : s'.relay = if r.relayToken ≠ "" then
    s.relay.map (fun rs => rs.invalidateSession r.relayToken) else s.relay

theorem cleanUp_leads {r : SessionRecord} {Q : Except Status Response → Server σ → Prop}
    (h : ∀ s' : Server σ, s'.store = s.store → s'.candidates = s.candidates.erase r.id →
      s'.tunnels = s.tunnels.reclaimTunnelIndex r.id →
      s'.relay = (if r.relayToken ≠ "" then
        s.relay.map (fun rs => rs.invalidateSession r.relayToken) else s.relay) →
      s'.outcomes = (r.id, true) :: s.outcomes → Q (.ok (.terminateSession true)) s') :
    Leads (exec E S) (cleanUp r) s Q := by
  unfold cleanUp
  rw [leads_recordOutcome]
  split
  next ht =>
    simp only [leads_invalidateRelay, leads_deleteCandidates, leads_reclaimTunnelIndex, pure_eq,
      leads_ret]
    exact h _ rfl rfl rfl (if_pos ht).symm rfl
  next ht =>
    simp only [leads_deleteCandidates, leads_reclaimTunnelIndex, pure_eq, leads_ret]
    exact h _ rfl rfl rfl (if_neg ht).symm rfl

theorem terminateSession_leads (hS : S.Lawful) (req : TerminateSessionRequest) :
    Leads (exec E S) (terminateSession req) s (fun resp s' =>
      ((∃ e, resp = .error e) ∧ Untouched S s s' ∧ s'.outcomes = s.outcomes ∧
        (S.NeverFails → ∀ r, ¬Names S s req.sessionID r)) ∨
      (resp = .ok (.terminateSession true) ∧
        ∃ r, Names S s req.sessionID r ∧ Terminated S r s s' ∧
          s'.outcomes = (r.id, true) :: s.outcomes)) := by
  apply Held.get hS
  · intro e s' hmiss h hO
    exact leads_ret.mpr (.inl ⟨⟨_, rfl⟩, h, hO, fun _ => hmiss⟩)
  intro r ref s' hn h
  apply h.set hS
  intro ref s' h
  apply h.now
  intro t s' h
  apply h.set hS
  intro ref s' h
  apply h.put hS
  · intro e s' hfails _ hst hc hT hR hO
    exact leads_ret.mpr (.inl ⟨⟨_, rfl⟩, ⟨hst, hc, hT, hR⟩, hO, fun hfail => absurd hfail hfails⟩)
  intro ref s' hst hload hc hT hR hO
  rw [leads_loadSession, hload]
  apply cleanUp_leads
  intro s'' hst' hc' hT' hR' hO'
  refine .inr ⟨rfl, r, hn, ⟨⟨t, hst' ▸ hst⟩, ?_, ?_, ?_⟩, ?_⟩
  · exact hc'.trans (congrArg _ hc)
  · exact hT'.trans (congrArg (fun T => T.reclaimTunnelIndex r.id) hT)
  · exact hR'.trans (by rw [← hR]; rfl)
  · exact hO'.trans (congrArg _ hO)

def setIf (v : String) (g : String → SessionAssign) (r : SessionRecord) : SessionRecord :=
  if v ≠ "" then (g v).apply r else r

/-- The request asks for what `UpdateSessionStatus` refuses. -/
def Rejected (req : UpdateSessionStatusRequest) : Prop :=
  req.status = "running" ∧ req.wgEndpoint = ""

/-- The step into `"terminated"`, on which the slot is given back. -/
def Closes (req : UpdateSessionStatusRequest) (r : SessionRecord) : Prop :=
  req.status = "terminated" ∧ r.status ≠ "terminated"

instance (req : UpdateSessionStatusRequest) (r : SessionRecord) : Decidable (Closes req r) :=
  inferInstanceAs (Decidable (_ ∧ _))

/-- The record once `UpdateSessionStatus` has copied the fields of the request. -/
def assigned (req : UpdateSessionStatusRequest) (t : Int) (r : SessionRecord) : SessionRecord :=
  setIf req.wgEndpoint .wgEndpoint (setIf req.wgPublicKey .wgPublicKey
    (setIf req.sshEndpoint .sshEndpoint (setIf req.containerID .containerID
      (if Closes req r then { r with status := req.status, terminatedAt := t }
       else { r with status := req.status }))))

/-- The record `UpdateSessionStatus` stores. -/
def updateRecord (req : UpdateSessionStatusRequest) (t : Int) (r : SessionRecord) :
    SessionRecord :=
  if req.status = "running" ∧ (assigned req t r).connectionMode = "" then
    { assigned req t r with connectionMode := "direct" }
  else assigned req t r

@[simp] theorem origin_setIf (v : String) (g : String → SessionAssign) (r : SessionRecord) :
    (setIf v g r).origin = r.origin := by
  unfold setIf
  split
  · exact (g v).origin_apply r
  · rfl

theorem status_setIf {v : String} {g : String → SessionAssign} (r : SessionRecord)
    (hg : ((g v).apply r).status = r.status) : (setIf v g r).status = r.status := by
  unfold setIf
  split
  · exact hg
  · rfl

@[simp] theorem origin_assigned (req : UpdateSessionStatusRequest) (t : Int) (r : SessionRecord) :
    (assigned req t r).origin = r.origin := by
  simp only [assigned, origin_setIf]
  split <;> rfl

@[simp] theorem status_assigned (req : UpdateSessionStatusRequest) (t : Int) (r : SessionRecord) :
    (assigned req t r).status = req.status := by
  simp only [assigned]
  rw [status_setIf _ rfl, status_setIf _ rfl, status_setIf _ rfl, status_setIf _ rfl]
  split <;> rfl

@[simp] theorem origin_updateRecord (req : UpdateSessionStatusRequest) (t : Int)
    (r : SessionRecord) : (updateRecord req t r).origin = r.origin := by
  unfold updateRecord
  split
  · exact origin_assigned req t r
  · exact origin_assigned req t r

@[simp] theorem status_updateRecord (req : UpdateSessionStatusRequest) (t : Int)
    (r : SessionRecord) : (updateRecord req t r).status = req.status := by
  unfold updateRecord
  split
  · exact status_assigned req t r
  · exact status_assigned req t r

/-- What `UpdateSessionStatus` has done for the session it found. -/
structure Updated (S : Store σ) (req : UpdateSessionStatusRequest) (r : SessionRecord)
    (resp : Except Status Response) (s s' : Server σ) : Prop where
  stores : ((∃ e, resp = .error e) ∧ S.shared = false ∧
      S.session s'.store = S.session s.store) ∨
    ((∃ e, resp = .error e) ∧ Rejected req ∧ S.shared = true ∧
      ∃ t, S.Stores s.store (assigned req t r) s'.store) ∨
    (resp = .ok (.updateSessionStatus true) ∧ ¬Rejected req ∧
      ∃ t, S.Stores s.store (updateRecord req t r) s'.store)
  refused : (∃ e, resp = .error e) → Rejected req ∨ ¬S.NeverFails
  candidates : s'.candidates = s.candidates
  tunnels : s'.tunnels =
    if Closes req r then s.tunnels.reclaimTunnelIndex r.id else s.tunnels
  relay : s'.relay = s.relay

section

variable {st₀ : σ} {c : Map String (Map String CandidateSet)} {T : Tunnels}
  {R : Option RelayServer} {O : List (String × Bool)} {r₀ r : SessionRecord}
  {ref : Ref SessionRecord} {α : Type} {Q : α → Server σ → Prop}

theorem Held.closeOut (hS : S.Lawful) (h : Held S st₀ c T R O r₀ r ref s) {id : String}
    {f : Ref SessionRecord → Prog signature α}
    (hnext : ∀ t ref' s', Held S st₀ c (T.reclaimTunnelIndex id) R ((id, true) :: O) r₀
      { r with terminatedAt := t } ref' s' → Leads (exec E S) (f ref') s' Q) :
    Leads (exec E S) (Registry.closeOut id ref >>= f) s Q := by
  rw [Registry.closeOut, bind_assoc]
  apply h.recordOutcome
  intro s' h
  rw [bind_assoc]
  apply h.now
  intro t s' h
  rw [bind_assoc]
  apply h.set hS
  intro ref s' h
  rw [bind_assoc]
  apply h.reclaim
  intro s' h
  exact hnext t ref s' h

theorem Held.setNonempty (hS : S.Lawful) (h : Held S st₀ c T R O r₀ r ref s) {v : String}
    {g : String → SessionAssign} {f : Ref SessionRecord → Prog signature α}
    (hnext : ∀ ref' s', Held S st₀ c T R O r₀ (setIf v g r) ref' s' →
      Leads (exec E S) (f ref') s' Q) :
    Leads (exec E S) (Registry.setNonempty v g ref >>= f) s Q := by
  unfold Registry.setNonempty
  split
  next hv =>
    apply h.set hS
    intro ref s' h
    exact hnext ref s' (by rwa [setIf, if_pos hv])
  next hv => exact hnext ref s (by rwa [setIf, if_neg hv])

theorem Held.setReported (hS : S.Lawful) (h : Held S st₀ c T R O r₀ r ref s)
    {req : UpdateSessionStatusRequest} {f : Ref SessionRecord → Prog signature α}
    (hnext : ∀ ref' s', Held S st₀ c T R O r₀ (setIf req.wgEndpoint .wgEndpoint
      (setIf req.wgPublicKey .wgPublicKey (setIf req.sshEndpoint .sshEndpoint
        (setIf req.containerID .containerID r)))) ref' s' → Leads (exec E S) (f ref') s' Q) :
    Leads (exec E S) (Registry.setReported req ref >>= f) s Q := by
  rw [Registry.setReported, bind_assoc]
  apply h.setNonempty hS
  intro ref s' h
  rw [bind_assoc]
  apply h.setNonempty hS
  intro ref s' h
  rw [bind_assoc]
  apply h.setNonempty hS
  intro ref s' h
  apply h.setNonempty hS
  intro ref s' h
  exact hnext ref s' h

/-- The write at the end of a handler, when the record it stores is `r`. -/
theorem Held.putSessionAnd (hS : S.Lawful) (h : Held S st₀ c T R O r₀ r ref s) {resp : Response}
    {Q : Except Status Response → Server σ → Prop}
    (herr : ∀ e s', ¬S.NeverFails → S.shared = false → S.session s'.store = S.session st₀ →
      s'.candidates = c → s'.tunnels = T → s'.relay = R → s'.outcomes = O → Q (.error e) s')
    (hok : ∀ s', S.Stores st₀ r s'.store → s'.candidates = c → s'.tunnels = T → s'.relay = R →
      s'.outcomes = O → Q (.ok resp) s') :
    Leads (exec E S) (Registry.putSessionAnd ref resp) s Q := by
  apply h.put hS
  · intro e s' hfails hs hst hc hT hR hO
    exact leads_ret.mpr (herr _ s' hfails hs hst hc hT hR hO)
  · intro ref s' hst _ hc hT hR hO
    exact leads_ret.mpr (hok s' hst hc hT hR hO)

end

theorem finishUpdate_leads (hS : S.Lawful) {req : UpdateSessionStatusRequest} {s₀ : Server σ}
    {T : Tunnels} {O : List (String × Bool)} {r : SessionRecord} {t : Int}
    {ref : Ref SessionRecord}
    (h : Held S s₀.store s₀.candidates T s₀.relay O r (assigned req t r) ref s)
    (hT : T = if Closes req r then s₀.tunnels.reclaimTunnelIndex r.id else s₀.tunnels) :
    Leads (exec E S) (finishUpdate req ref) s (fun resp s' =>
      Updated S req r resp s₀ s' ∧ s'.outcomes = O) := by
  have hput : ∀ {s : Server σ} {ref}, ¬Rejected req →
      Held S s₀.store s₀.candidates T s₀.relay O r (updateRecord req t r) ref s →
      Leads (exec E S) (putSessionAnd ref (.updateSessionStatus true)) s
        (fun resp s' => Updated S req r resp s₀ s' ∧ s'.outcomes = O) := by
    intro s ref hrej h
    apply h.putSessionAnd hS
    · intro e s' hfails hs hst hc hT' hR hO
      exact ⟨⟨.inl ⟨⟨e, rfl⟩, hs, hst⟩, fun _ => .inr hfails, hc, hT'.trans hT, hR⟩, hO⟩
    · intro s' hst hc hT' hR hO
      refine ⟨⟨.inr (.inr ⟨rfl, hrej, t, hst⟩), ?_, hc, hT'.trans hT, hR⟩, hO⟩
      rintro ⟨e, he⟩
      cases he
  unfold finishUpdate
  split
  next hrun =>
    split
    next hwg =>
      refine leads_ret.mpr ⟨⟨?_, fun _ => .inl ⟨hrun, hwg⟩, h.candidates, h.tunnels.trans hT, h.relay⟩,
        h.outcomes⟩
      cases hs : S.shared with
      | false => exact .inl ⟨⟨_, rfl⟩, rfl, h.editing.view_of_not_shared hs⟩
      | true =>
        refine .inr (.inl ⟨⟨_, rfl⟩, ⟨hrun, hwg⟩, rfl, t, fun id => ?_⟩)
        rw [h.editing.view id, h.editing.id_eq]
        simp [hs]
    next hwg =>
      have hrej : ¬Rejected req := fun hr => hwg hr.2
      apply h.load
      intro s' h
      split
      next hmode =>
        apply h.set hS
        intro ref s' h
        refine hput hrej ?_
        rwa [updateRecord, if_pos ⟨hrun, hmode⟩]
      next hmode =>
        refine hput hrej ?_
        rwa [updateRecord, if_neg (fun hm => hmode hm.2)]
  next hrun =>
    refine hput (fun hr => hrun hr.1) ?_
    rwa [updateRecord, if_neg (fun hm => hrun hm.1)]

theorem updateSessionStatus_leads (hS : S.Lawful) (req : UpdateSessionStatusRequest) :
    Leads (exec E S) (updateSessionStatus req) s (fun resp s' =>
      ((∃ e, resp = .error e) ∧ Untouched S s s' ∧ s'.outcomes = s.outcomes ∧
        ∀ r, ¬Names S s req.sessionID r) ∨
      ∃ r, Names S s req.sessionID r ∧ Updated S req r resp s s' ∧
        s'.outcomes = if Closes req r then (r.id, true) :: s.outcomes else s.outcomes) := by
  apply Held.get hS
  · intro e s' hmiss h hO
    exact leads_ret.mpr (.inl ⟨⟨_, rfl⟩, h, hO, hmiss⟩)
  intro r ref s' hn h
  have hfinish : ∀ {t ref s' T O},
      Held S s.store s.candidates T s.relay O r (assigned req t r) ref s' →
      T = (if Closes req r then s.tunnels.reclaimTunnelIndex r.id else s.tunnels) →
      O = (if Closes req r then (r.id, true) :: s.outcomes else s.outcomes) →
      Leads (exec E S) (finishUpdate req ref) s' (fun resp s' =>
        ((∃ e, resp = .error e) ∧ Untouched S s s' ∧ s'.outcomes = s.outcomes ∧
          ∀ r, ¬Names S s req.sessionID r) ∨
        ∃ r, Names S s req.sessionID r ∧ Updated S req r resp s s' ∧
          s'.outcomes = if Closes req r then (r.id, true) :: s.outcomes else s.outcomes) := by
    intro t ref s' T O h hT hO
    refine (finishUpdate_leads hS h hT).mono (fun _ _ hu => .inr ⟨r, hn, hu.1, ?_⟩)
    exact hu.2.trans hO
  apply h.load
  intro s' h
  apply h.set hS
  intro ref s' h
  split
  next hclose =>
    apply h.closeOut hS
    intro t ref s' h
    apply h.setReported hS
    intro ref s' h
    have hcloses : Closes req r := hclose
    refine hfinish (t := t) ?_ (if_pos hcloses).symm (if_pos hcloses).symm
    rwa [assigned, if_pos hcloses]
  next hclose =>
    apply h.setReported hS
    intro ref s' h
    have hcloses : ¬Closes req r := hclose
    refine hfinish (t := 0) ?_ (if_neg hcloses).symm (if_neg hcloses).symm
    rwa [assigned, if_neg hcloses]

section

variable {req : UpdateSessionStatusRequest} {r : SessionRecord}

/-- How many of the optional fields the request carries. -/
def reportedFields (req : UpdateSessionStatusRequest) : Nat :=
  (if req.containerID ≠ "" then 1 else 0) + (if req.sshEndpoint ≠ "" then 1 else 0) +
    (if req.wgPublicKey ≠ "" then 1 else 0) + (if req.wgEndpoint ≠ "" then 1 else 0)

theorem leads_setNonempty_own {α : Type} {v : String} {g : String → SessionAssign}
    {f : Ref SessionRecord → Prog signature α} {Q : α → Server σ → Prop} :
    Leads (exec E S) (setNonempty v g (.own r) >>= f) s Q ↔
      Leads (exec E S) (f (.own (setIf v g r)))
        { s with clock := s.clock + if v ≠ "" then 1 else 0 } Q := by
  unfold setNonempty setIf
  split
  next => exact leads_setSession
  next => rfl

/-- A copying store accepts the record it is given on the step into `"terminated"`. -/
def CloseAccepted (E : Env) (S : Store σ) (s : Server σ) (req : UpdateSessionStatusRequest)
    (r : SessionRecord) : Prop :=
  S.shared = false → ∃ x, S.putSession (s.clock + 7 + reportedFields req) s.store
    (.own (updateRecord req (E.now (s.clock + 4)) r)) = .ok x

/-- The last action of a closing `UpdateSessionStatus` on a copying store. -/
theorem leads_closing (hcopy : S.shared = false) (hn : Names S s req.sessionID r)
    (hc : Closes req r) {Q : Server σ → Prop} :
    Leads (exec E S) (updateSessionStatus req) s (fun _ s' => Q s') ↔
      Leads (exec E S) (putSessionAnd (.own (updateRecord req (E.now (s.clock + 4)) r))
        (.updateSessionStatus true))
        { s with
          tunnels := s.tunnels.reclaimTunnelIndex r.id, outcomes := (r.id, true) :: s.outcomes
          clock := s.clock + 7 + reportedFields req } (fun _ s' => Q s') := by
  have hrun : req.status ≠ "running" := by
    rw [hc.1]
    decide
  have hown : S.handle r = .own r := by simp [Store.handle, hcopy]
  have hclose : req.status = "terminated" ∧
      (S.loadSession s.tick.store (.own r)).status ≠ "terminated" := hc
  rw [updateRecord, if_neg (fun h => hrun h.1), assigned, if_pos hc]
  unfold updateSessionStatus
  rw [leads_getSessionByPrefix, hn.1, hown]
  dsimp only
  rw [leads_loadSession, leads_setSession, if_pos hclose]
  simp only [closeOut, setReported, bind_assoc]
  rw [leads_recordOutcome, leads_now, leads_setSession, leads_reclaimTunnelIndex]
  simp only [Store.setSession, Store.loadSession, pure_eq, ret_bind, leads_setNonempty_own]
  rw [finishUpdate, if_neg hrun]
  simp only [Server.tick, Nat.add_assoc, Nat.reduceAdd, reportedFields]
  rfl

theorem closeAccepted_leads (hS : S.Lawful) (hcopy : S.shared = false)
    (hn : Names S s req.sessionID r) (hc : Closes req r) (hacc : CloseAccepted E S s req r) :
    Leads (exec E S) (updateSessionStatus req) s (fun _ s' =>
      S.Stores s.store (updateRecord req (E.now (s.clock + 4)) r) s'.store) := by
  obtain ⟨⟨ref, st⟩, hput⟩ := hacc hcopy
  have horigin := origin_updateRecord req (E.now (s.clock + 4)) r
  have hstores : S.Stores s.store (updateRecord req (E.now (s.clock + 4)) r) st := by
    intro id
    rw [(hS.put_own hput).2 id, SessionRecord.id_of_origin horigin, hn.2,
      S.merge_of_origin horigin]
  rw [leads_closing hcopy hn hc, putSessionAnd, leads_putSession, hput]
  exact leads_ret.mpr hstores

theorem closeRefused_leads (hn : Names S s req.sessionID r) (hc : Closes req r)
    (href : ¬CloseAccepted E S s req r) :
    Leads (exec E S) (updateSessionStatus req) s (fun _ s' =>
      S.session s'.store = S.session s.store) := by
  have hcopy : S.shared = false := by
    by_contra hs
    exact href (fun h => absurd h hs)
  rw [leads_closing hcopy hn hc, putSessionAnd, leads_putSession]
  cases hput : S.putSession (s.clock + 7 + reportedFields req) s.store
      (.own (updateRecord req (E.now (s.clock + 4)) r)) with
  | error e => exact leads_ret.mpr rfl
  | ok x => exact absurd (fun _ => ⟨x, hput⟩) href

end

/-- The record `ReportConnectionResult` stores. -/
def reportRecord (req : ReportConnectionResultRequest) (r : SessionRecord) : SessionRecord :=
  { r with connectionMode := if req.useRelay then "relay" else "holepunch" }

/-- What `ReportConnectionResult` has done for the session it found.  The relay entry is made
before the record is stored, and stays when the write is refused. -/
structure Reported (S : Store σ) (req : ReportConnectionResultRequest) (r : SessionRecord)
    (resp : Except Status Response) (s s' : Server σ) : Prop where
  stores : ((∃ e, resp = .error e) ∧ S.session s'.store = S.session s.store) ∨
    (resp = .ok (.reportConnectionResult true) ∧ S.Stores s.store (reportRecord req r) s'.store)
  candidates : s'.candidates = s.candidates
  tunnels : s'.tunnels = s.tunnels
  relay : if req.useRelay then Registered r.relayToken r.id s.relay s'.relay
    else s'.relay = s.relay

theorem reportConnectionResult_leads (hS : S.Lawful) (req : ReportConnectionResultRequest) :
    Leads (exec E S) (reportConnectionResult req) s (fun resp s' =>
      ((∃ e, resp = .error e) ∧ Untouched S s s') ∨
      ∃ r, Names S s req.sessionID r ∧ Reported S req r resp s s') := by
  apply Held.get hS
  · intro e s' _ h _
    exact leads_ret.mpr (.inl ⟨⟨_, rfl⟩, h⟩)
  intro r ref s' hn h
  have hput : ∀ {ref s' R},
      Held S s.store s.candidates s.tunnels R s.outcomes r (reportRecord req r) ref s' →
      (if req.useRelay then Registered r.relayToken r.id s.relay R else R = s.relay) →
      Leads (exec E S) (putSessionAnd ref (.reportConnectionResult true)) s' (fun resp s' =>
        ((∃ e, resp = .error e) ∧ Untouched S s s') ∨
        ∃ r, Names S s req.sessionID r ∧ Reported S req r resp s s') := by
    intro ref s' R h hR
    apply h.putSessionAnd hS
    · intro e s' _ _ hst hc hT hR' _
      exact .inr ⟨r, hn, .inl ⟨⟨e, rfl⟩, hst⟩, hc, hT, hR'.symm ▸ hR⟩
    · intro s' hst hc hT hR' _
      exact .inr ⟨r, hn, .inr ⟨rfl, hst⟩, hc, hT, hR'.symm ▸ hR⟩
  dsimp only
  split
  next hrelay =>
    apply h.set hS
    intro ref s' h
    apply h.load
    intro s' h
    apply h.registerRelay
    intro R s' hR h
    refine hput (R := R) ?_ (by rwa [if_pos hrelay])
    rwa [reportRecord, if_pos hrelay]
  next hrelay =>
    apply h.set hS
    intro ref s' h
    refine hput ?_ (by rw [if_neg hrelay])
    rwa [reportRecord, if_neg hrelay]

/-- What `ExchangeCandidates` has done for the session it found. -/
structure Exchanged (S : Store σ) (req : ExchangeCandidatesRequest) (r : SessionRecord)
    (s s' : Server σ) : Prop where
  session : S.session s'.store = S.session s.store
  candidates : s'.candidates = (s.putCandidates r.id req.peerID
    { candidates := req.candidates, wgPublicKey := req.wgPublicKey }).candidates
  tunnels : s'.tunnels = s.tunnels
  relay : s'.relay = s.relay

theorem exchangeCandidates_leads (hS : S.Lawful) (req : ExchangeCandidatesRequest) :
    Leads (exec E S) (exchangeCandidates req) s (fun resp s' =>
      ((∃ e, resp = .error e) ∧ Untouched S s s') ∨
      ∃ r, Names S s req.sessionID r ∧ Exchanged S req r s s') := by
  apply Held.get hS
  · intro e s' _ h _
    exact leads_ret.mpr (.inl ⟨⟨_, rfl⟩, h⟩)
  intro r ref s' hn h
  apply h.load
  intro s' h
  rw [leads_relayAddr, leads_exchangeCandidates]
  have hex : Exchanged S req r s (s'.tick.putCandidates r.id req.peerID
      { candidates := req.candidates, wgPublicKey := req.wgPublicKey }).tick := by
    refine ⟨?_, ?_, h.tunnels, h.relay⟩
    · funext id
      have hview := h.editing.view id
      split at hview
      next hid => exact hview.trans (by rw [hid.2, h.editing.before])
      next => exact hview
    · simp only [Server.putCandidates, Server.tick, h.candidates]
  split
  next => exact leads_ret.mpr (.inr ⟨r, hn, hex⟩)
  next => exact leads_ret.mpr (.inr ⟨r, hn, hex⟩)

/-- The record `CreateSession` makes, for a call whose first action is taken at `t`. -/
def newSession (E : Env) (t : Nat) (req : CreateSessionRequest) (providerID : String)
    (ips : String × String) : SessionRecord :=
  { id := E.uuid (t + 4), providerID := providerID, renterID := req.renterID, image := req.image
    status := "pending", relayToken := E.uuid (t + 3), wgProviderIP := ips.1
    wgRenterIP := ips.2, createdAt := E.now (t + 6)
    cpuCores := (req.requested.getD {}).cpuCores, memoryMB := (req.requested.getD {}).memoryMB }

/-- Every check of `CreateSession` passes, for the provider `providerID`. -/
def Admitted (E : Env) (S : Store σ) (s : Server σ) (ctx : Metadata) (req : CreateSessionRequest)
    (providerID : String) : Prop :=
  ¬((sessionPolicyFromMetadata ctx).2 = "wireguard_required" ∧ req.wgPublicKey = "") ∧
  ∃ ref, S.getProviderByPrefix s.clock s.store req.providerID = .ok ref ∧
    (S.loadProvider s.store ref).id = providerID ∧
    (S.loadProvider s.store ref).status = "online" ∧
    E.meetsMinimum (s.clock + 2) providerID 50 = .ok true

/-- The candidates after a successful `CreateSession`. -/
def keptKey (s : Server σ) (req : CreateSessionRequest) (id : String) :
    Map String (Map String CandidateSet) :=
  if req.wgPublicKey ≠ "" then
    (s.putCandidates id req.renterID { wgPublicKey := req.wgPublicKey }).candidates
  else s.candidates

/-- What `CreateSession` has done once a slot was allocated: the slot stays when the store
refuses the record. -/
structure Created (E : Env) (S : Store σ) (req : CreateSessionRequest) (r : SessionRecord)
    (T : Tunnels) (resp : Except Status Response) (s s' : Server σ) : Prop where
  stores : (∃ e, S.putSession (s.clock + 7) s.store (.own r) = .error e ∧
      resp = .error (storeErr e) ∧ s'.store = s.store ∧ s'.candidates = s.candidates) ∨
    (∃ x, S.putSession (s.clock + 7) s.store (.own r) = .ok x ∧
      resp = .ok (.createSession (sessionToProto (S.loadSession x.2 x.1))) ∧ s'.store = x.2 ∧
      s'.candidates = keptKey s req r.id)
  tunnels : s'.tunnels = T
  relay : s'.relay = s.relay
  clock : s.clock + 8 ≤ s'.clock

theorem finishCreateSession_leads (req : CreateSessionRequest) (r : SessionRecord)
    (s₀ : Server σ) (T : Tunnels) :
    Leads (exec E S) (finishCreateSession req r)
      { s₀ with tunnels := T, clock := s₀.clock + 7 }
      (fun resp s' => Created E S req r T resp s₀ s') := by
  unfold finishCreateSession
  rw [leads_putSession]
  cases hput : S.putSession (s₀.clock + 7) s₀.store (.own r) with
  | error e => exact leads_ret.mpr ⟨.inl ⟨e, hput, rfl, rfl, rfl⟩, rfl, rfl, le_refl _⟩
  | ok x =>
    simp only [Server.stored]
    split
    next hkey =>
      rw [leads_putCandidates, leads_loadSession]
      exact leads_ret.mpr ⟨.inr ⟨x, hput, rfl, rfl, (if_pos hkey).symm⟩, rfl, rfl,
        Nat.le_add_right (s₀.clock + 8) 2⟩
    next hkey =>
      rw [leads_loadSession]
      exact leads_ret.mpr ⟨.inr ⟨x, hput, rfl, rfl, (if_neg hkey).symm⟩, rfl, rfl,
        Nat.le_add_right (s₀.clock + 8) 1⟩

theorem createSession_leads (ctx : Metadata) (req : CreateSessionRequest) :
    Leads (exec E S) (createSession ctx req) s (fun resp s' =>
      ((∃ e, resp = .error e) ∧ s'.store = s.store ∧ Untouched S s s') ∨
      ∃ providerID ips T, Admitted E S s ctx req providerID ∧
        s.tunnels.allocateTunnelIPs (E.uuid (s.clock + 4)) = some (.ok ips, T) ∧
        Created E S req (newSession E s.clock req providerID ips) T resp s s') := by
  unfold createSession
  dsimp only
  split
  next => exact leads_ret.mpr (.inl ⟨⟨_, rfl⟩, rfl, .refl s⟩)
  next hpolicy =>
    rw [leads_getProviderByPrefix]
    cases hget : S.getProviderByPrefix s.clock s.store req.providerID with
    | error e => exact leads_ret.mpr (.inl ⟨⟨_, rfl⟩, rfl, rfl, rfl, rfl, rfl⟩)
    | ok ref =>
      rw [leads_loadProvider]
      split
      next => exact leads_ret.mpr (.inl ⟨⟨_, rfl⟩, rfl, rfl, rfl, rfl, rfl⟩)
      next honline =>
        rw [leads_meetsMinimum]
        split
        next hmeets =>
          rw [leads_newUUID, leads_newUUID, leads_allocateTunnelIPs]
          simp only [Server.tick, Nat.add_assoc, Nat.reduceAdd]
          intro res T hT
          cases res with
          | error e =>
            obtain ⟨-, rfl⟩ | ⟨_, _, -, hres, -⟩ := Tunnels.allocateTunnelIPs_cases hT
            · exact leads_ret.mpr (.inl ⟨⟨_, rfl⟩, rfl, rfl, rfl, rfl, rfl⟩)
            · cases hres
          | ok ips =>
            have hadm : Admitted E S s ctx req (S.loadProvider s.store ref).id :=
              ⟨hpolicy, ref, hget, rfl, not_not.mp honline, hmeets⟩
            rw [leads_now]
            simp only [Server.tick, Nat.add_assoc, Nat.reduceAdd]
            have hfinish := finishCreateSession_leads (E := E) (S := S) req
              (newSession E s.clock req (S.loadProvider s.store ref).id ips) s T
            exact hfinish.mono (fun _ _ h => .inr ⟨_, ips, T, hadm, hT, h⟩)
        next => exact leads_ret.mpr (.inl ⟨⟨_, rfl⟩, rfl, rfl, rfl, rfl, rfl⟩)

/-- The actions that touch nothing a session owns. -/
def Harmless : Action → Prop
  | .putSession _ | .setSession _ _ | .allocateTunnelIPs _ | .reclaimTunnelIndex _
  | .putCandidates _ _ _ | .exchangeCandidates _ _ _ | .deleteCandidates _ | .registerRelay _ _
  | .invalidateRelay _ => False
  | _ => True

theorem Untouched.trans {s s' s'' : Server σ} (h : Untouched S s s') (h' : Untouched S s' s'') :
    Untouched S s s'' :=
  ⟨h'.session.trans h.session, h'.candidates.trans h.candidates, h'.tunnels.trans h.tunnels,
    h'.relay.trans h.relay⟩

theorem Untouched.of_store {s : Server σ} {st : σ} (h : S.session st = S.session s.store)
    (clock : Nat) : Untouched S s { s with store := st, clock := clock } := ⟨h, rfl, rfl, rfl⟩

theorem session_setProvider (hS : S.Lawful) (st : σ) (a : ProviderAssign)
    (ref : Ref ProviderRecord) : S.session (S.setProvider st a ref).2 = S.session st := by
  cases ref with
  | own r => rfl
  | stored id => exact hS.assign_provider

theorem harmless_untouched (hS : S.Lawful) {a : Action} (ha : Harmless a) {x : a.Res}
    {s' : Server σ} (h : exec E S a s = some (x, s')) : Untouched S s s' := by
  cases a with
  | putProvider ref =>
    cases hput : S.putProvider s.clock s.store ref with
    | error e =>
      simp only [exec, Server.act, hput] at h
      cases h
      exact ⟨rfl, rfl, rfl, rfl⟩
    | ok y =>
      simp only [exec, Server.act, hput] at h
      cases h
      exact .of_store (hS.put_provider hput) _
  | updateHeartbeat id t =>
    cases hput : S.updateHeartbeat s.clock s.store id t with
    | error e =>
      simp only [exec, Server.act, hput] at h
      cases h
      exact ⟨rfl, rfl, rfl, rfl⟩
    | ok st =>
      simp only [exec, Server.act, hput] at h
      cases h
      exact .of_store (hS.update_heartbeat hput) _
  | setProvider ref a =>
    cases h
    exact .of_store (session_setProvider hS s.store a ref) _
  | putSession | setSession | allocateTunnelIPs | reclaimTunnelIndex | putCandidates |
    exchangeCandidates | deleteCandidates | registerRelay | invalidateRelay => exact ha.elim
  | _ =>
    cases h
    exact ⟨rfl, rfl, rfl, rfl⟩

theorem harmless_leads (hS : S.Lawful) {α : Type} {p : Prog signature α} (hp : p.Uses Harmless) :
    Leads (exec E S) p s (fun _ s' => Untouched S s s') :=
  hp.leads Untouched.refl (fun h h' => h.trans h') (fun _ ha _ _ _ h => harmless_untouched hS ha h) s

/-- The harmless actions that report no outcome. -/
def Silent : Action → Prop
  | .recordOutcome _ _ => False
  | a => Harmless a

theorem Silent.harmless {a : Action} (h : Silent a) : Harmless a := by
  cases a with
  | recordOutcome => exact h.elim
  | _ => exact h

theorem uses_setProviders (as : List ProviderAssign) (ref : Ref ProviderRecord) :
    (setProviders as ref).Uses Silent := by
  induction as generalizing ref with
  | nil => trivial
  | cons a as ih => exact ⟨trivial, fun ref => ih ref⟩

section

variable {allowed : Action → Prop}

/-- What `RegisterProvider` does when the record is stored. -/
theorem uses_registered (ref : Ref ProviderRecord) {id : String}
    {k : Except StoreError (Ref ProviderRecord) → Handler}
    (hk : finishRegistration ref id = .act (.putProvider ref) k)
    (hhook : allowed (.onProviderRegistered id)) (hload : ∀ ref, allowed (.loadProvider ref))
    (res : Except StoreError (Ref ProviderRecord)) : (k res).Uses (S := signature) allowed := by
  cases hk
  cases res with
  | error e => trivial
  | ok ref =>
    refine ⟨hhook, fun x => ?_⟩
    cases x with
    | error e => trivial
    | ok u => exact ⟨hload ref, fun _ => trivial⟩

theorem uses_finishHeartbeat (req : HeartbeatRequest) (id : String)
    (h : allowed (.getTerminatedSessionIDs req.activeSessions id)) :
    (finishHeartbeat req id).Uses (S := signature) allowed := by
  unfold finishHeartbeat
  split
  · trivial
  · refine ⟨h, fun x => ?_⟩
    cases x <;> trivial

end

theorem uses_finishRegistration (ref : Ref ProviderRecord) (id : String) :
    (finishRegistration ref id).Uses Silent :=
  ⟨trivial, uses_registered ref rfl trivial (fun _ => trivial)⟩

theorem uses_registerProvider (ctx : Metadata) (req : RegisterProviderRequest) :
    (registerProvider ctx req).Uses Silent := by
  have hnew : ∀ now, (registerNewProvider req now).Uses Silent :=
    fun now => ⟨trivial, fun id => uses_finishRegistration _ id⟩
  refine ⟨trivial, fun now => ?_⟩
  dsimp only
  split
  · exact hnew now
  · refine ⟨trivial, fun x => ?_⟩
    cases x with
    | ok ref => exact (uses_setProviders _ ref).bind (fun ref => uses_finishRegistration ref _)
    | error e =>
      cases e with
      | notFound => exact hnew now
      | ambiguousPrefix => trivial
      | other message => trivial

theorem uses_heartbeat (req : HeartbeatRequest) : (heartbeat req).Uses Silent := by
  refine ⟨trivial, fun x => ?_⟩
  cases x with
  | error e => trivial
  | ok ref =>
    refine ⟨trivial, fun r => ⟨trivial, fun now => ?_⟩⟩
    dsimp only
    split
    · refine (uses_setProviders _ ref).bind (fun ref => ⟨trivial, fun x => ?_⟩)
      cases x with
      | error e => trivial
      | ok y => exact uses_finishHeartbeat req _ trivial
    · refine ⟨trivial, fun x => ?_⟩
      cases x with
      | error e => trivial
      | ok y => exact uses_finishHeartbeat req _ trivial

theorem uses_onlineProviders (stale : Int) (refs : List (Ref ProviderRecord)) :
    (onlineProviders stale refs).Uses Silent := by
  induction refs with
  | nil => trivial
  | cons ref refs ih =>
    refine ⟨trivial, fun r => ?_⟩
    dsimp only [Prog.bind]
    split
    · exact ⟨trivial, fun ref => ⟨trivial, fun _ => ih⟩⟩
    · split
      · exact ih
      · exact ih.bind (fun _ => trivial)

theorem uses_listProviders (req : ListProvidersRequest) : (listProviders req).Uses Silent := by
  refine ⟨trivial, fun x => ?_⟩
  cases x with
  | error e => trivial
  | ok refs => exact ⟨trivial, fun now => (uses_onlineProviders _ refs).bind (fun _ => trivial)⟩

section

variable {allowed : Action → Prop}

theorem uses_getSession (req : GetSessionRequest)
    (hget : allowed (.getSessionByPrefix req.sessionID)) (hload : ∀ ref, allowed (.loadSession ref)) :
    (getSession req).Uses (S := signature) allowed := by
  refine ⟨hget, fun x => ?_⟩
  cases x with
  | error e => trivial
  | ok ref => exact ⟨hload ref, fun _ => trivial⟩

theorem uses_loadSessions (refs : List (Ref SessionRecord))
    (hload : ∀ ref, allowed (.loadSession ref)) :
    (loadSessions refs).Uses (S := signature) allowed := by
  induction refs with
  | nil => trivial
  | cons ref refs ih => exact ⟨hload ref, fun r => ih.bind (fun _ => trivial)⟩

theorem uses_listProviderSessions (req : ListProviderSessionsRequest)
    (hlist : ∀ filter, allowed (.listSessions filter)) (hload : ∀ ref, allowed (.loadSession ref)) :
    (listProviderSessions req).Uses (S := signature) allowed := by
  refine ⟨hlist _, fun x => ?_⟩
  cases x with
  | error e => trivial
  | ok refs => exact (uses_loadSessions refs hload).bind (fun _ => trivial)

theorem uses_exchangeCandidates (req : ExchangeCandidatesRequest)
    (hget : allowed (.getSessionByPrefix req.sessionID)) (hload : ∀ ref, allowed (.loadSession ref))
    (haddr : allowed .relayAddr)
    (hexchange : ∀ id cs, allowed (.exchangeCandidates id req.peerID cs)) :
    (exchangeCandidates req).Uses (S := signature) allowed := by
  refine ⟨hget, fun res => ?_⟩
  cases res with
  | error e => trivial
  | ok ref =>
    refine ⟨hload ref, fun r => ⟨haddr, fun addr => ⟨hexchange _ _, fun other => ?_⟩⟩⟩
    cases other with
    | none => trivial
    | some cs => trivial

theorem uses_cleanUp (r : SessionRecord)
    (hout : allowed (.recordOutcome r.id true)) (hinv : allowed (.invalidateRelay r.relayToken))
    (hdel : allowed (.deleteCandidates r.id)) (hrec : allowed (.reclaimTunnelIndex r.id)) :
    (cleanUp r).Uses (S := signature) allowed := by
  refine ⟨hout, fun _ => ?_⟩
  split
  · exact ⟨hinv, fun _ => ⟨hdel, fun _ => ⟨hrec, fun _ => trivial⟩⟩⟩
  · exact ⟨hdel, fun _ => ⟨hrec, fun _ => trivial⟩⟩

theorem uses_putSessionAnd (ref : Ref SessionRecord) (resp : Response)
    (hput : allowed (.putSession ref)) :
    (putSessionAnd ref resp).Uses (S := signature) allowed := by
  refine ⟨hput, fun res => ?_⟩
  cases res with
  | error e => trivial
  | ok ref => trivial

end

end PeerCompute.Registry
