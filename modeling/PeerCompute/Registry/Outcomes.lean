import PeerCompute.Registry.Effects

/-! The outcomes passed to `Reputation.RecordOutcome` and the times at which sessions end. -/

namespace PeerCompute.Registry

open PeerCompute.Data PeerCompute.Interleaving PeerCompute.Plugin PeerCompute.Computev1
  PeerCompute.Relay Prog

variable {σ : Type} {E : Env} {S : Store σ} {s s' : Server σ}

/-- The call reports an outcome of the session `r` and sets the time of its end.
`UpdateSessionStatus` does so only on the step into `"terminated"`, `TerminateSession` for every
session it finds. -/
inductive Ends (S : Store σ) (s : Server σ) (r : SessionRecord) : Event → Prop
  | terminate {req : TerminateSessionRequest} (hn : Names S s req.sessionID r) :
      Ends S s r (.rpc (.terminateSession req))
  | update {req : UpdateSessionStatusRequest} (hn : Names S s req.sessionID r)
      (hc : Closes req r) : Ends S s r (.rpc (.updateSessionStatus req))

theorem Ends.unique {e : Event} {r r' : SessionRecord} (h : Ends S s r e) (h' : Ends S s r' e) :
    r' = r := by
  cases h with
  | terminate hn =>
    cases h' with
    | terminate hn' => exact hn.unique hn'
  | update hn hc =>
    cases h' with
    | update hn' hc' => exact hn.unique hn'

/-- The actions that report no outcome. -/
def Unscored : Action → Prop
  | .recordOutcome _ _ => False
  | _ => True

theorem Silent.unscored {a : Action} (h : Silent a) : Unscored a := by
  cases a with
  | recordOutcome => exact h
  | _ => trivial

theorem outcomes_stored {α : Type} (x : Except StoreError (α × σ)) :
    (s.stored x).2.outcomes = s.outcomes := by
  cases x with
  | error e => rfl
  | ok y => rfl

theorem outcomes_exec {a : Action} {res : a.Res} (ha : Unscored a)
    (h : exec E S a s = some (res, s')) : s'.outcomes = s.outcomes := by
  cases a with
  | recordOutcome => exact ha.elim
  | putProvider | updateHeartbeat | putSession =>
    cases h
    exact outcomes_stored _
  | allocateTunnelIPs id =>
    simp only [exec, Server.act, Option.map_map] at h
    obtain ⟨x, -, heq⟩ := Option.map_eq_some_iff.mp h
    cases heq
    rfl
  | registerRelay token id =>
    simp only [exec, Server.act] at h
    split at h
    · cases h
      rfl
    · obtain ⟨x, hx, heq⟩ := Option.map_eq_some_iff.mp h
      obtain ⟨rs', -, hx⟩ := Option.map_eq_some_iff.mp hx
      cases heq
      cases hx
      rfl
  | _ =>
    cases h
    rfl

theorem unscored_leads {p : Handler} (hp : p.Uses Unscored) :
    Leads (exec E S) p s (fun _ s' => s'.outcomes = s.outcomes) :=
  hp.leads (R := fun s s' : Server σ => s'.outcomes = s.outcomes) (fun _ => rfl)
    (fun h h' => h'.trans h) (fun _ ha _ _ _ h => outcomes_exec ha h) s

theorem uses_createSession (ctx : Metadata) (req : CreateSessionRequest) :
    (createSession ctx req).Uses Unscored := by
  unfold createSession
  dsimp only
  split
  · trivial
  refine ⟨trivial, fun res => ?_⟩
  cases res with
  | error e => trivial
  | ok ref =>
    refine ⟨trivial, fun p => ?_⟩
    dsimp only [Prog.bind]
    split
    · trivial
    refine ⟨trivial, fun ok => ?_⟩
    match ok with
    | .error e => trivial
    | .ok false => trivial
    | .ok true =>
      refine ⟨trivial, fun token => ⟨trivial, fun id => ⟨trivial, fun res => ?_⟩⟩⟩
      cases res with
      | error e => trivial
      | ok ips =>
        refine ⟨trivial, fun now => ⟨trivial, fun res => ?_⟩⟩
        cases res with
        | error e => trivial
        | ok ref =>
          dsimp only [Prog.bind]
          split
          · exact ⟨trivial, fun _ => ⟨trivial, fun _ => trivial⟩⟩
          · exact ⟨trivial, fun _ => trivial⟩

theorem uses_reportConnectionResult (req : ReportConnectionResultRequest) :
    (reportConnectionResult req).Uses Unscored := by
  refine ⟨trivial, fun res => ?_⟩
  cases res with
  | error e => trivial
  | ok ref =>
    dsimp only [Prog.bind]
    split
    · exact ⟨trivial, fun ref => ⟨trivial, fun r => ⟨trivial, fun _ =>
        uses_putSessionAnd ref _ trivial⟩⟩⟩
    · exact ⟨trivial, fun ref => uses_putSessionAnd ref _ trivial⟩

/-- The session is stored as terminated. -/
def HasEnded (S : Store σ) (id : String) (s : Server σ) : Prop :=
  (S.session s.store id).map (·.status) = some "terminated"

theorem HasEnded.of_eq {id : String} (h : S.session s'.store id = S.session s.store id)
    (hs' : HasEnded S id s') : HasEnded S id s := by
  unfold HasEnded at *
  rwa [← h]

theorem hasEnded_stores {r r' : SessionRecord} (h : S.Stores s.store r' s'.store)
    (hid : r'.origin = r.origin) : HasEnded S r.id s' ↔ r'.status = "terminated" := by
  rw [HasEnded, stores_self h hid, Option.map_some, Option.some.injEq]

theorem Updated.stores_of_closes {req : UpdateSessionStatusRequest} {r : SessionRecord}
    {resp : Except Status Response} (h : Updated S req r resp s s') (hfail : S.NeverFails)
    (hc : Closes req r) : ∃ t, S.Stores s.store (updateRecord req t r) s'.store := by
  have haccepted : ¬Rejected req := by
    intro hrej
    have hstatus := hrej.1.symm.trans hc.1
    exact absurd hstatus (by decide)
  obtain ⟨he, -⟩ | ⟨-, hrej, -⟩ | ⟨-, -, hst⟩ := h.stores
  · obtain hrej | hfails := h.refused he
    · exact absurd hrej haccepted
    · exact absurd hfail hfails
  · exact absurd hrej haccepted
  · exact hst

/-- What a call has done that ends the session it names, if any. -/
def Scores (S : Store σ) (s : Server σ) (e : Event) (s' : Server σ) : Prop :=
  (∀ r, ¬Ends S s r e) ∧ s'.outcomes = s.outcomes ∨
    ∃ r, Ends S s r e ∧ s'.outcomes = (r.id, true) :: s.outcomes ∧ HasEnded S r.id s'

/-- A call reports the outcome of the session it ends, and no other. -/
theorem rpc_outcomes (hS : S.Lawful) (hfail : S.NeverFails) (c : Rpc) :
    Leads (exec E S) c.handler s (fun _ s' => Scores S s (.rpc c) s') := by
  have unscored : ∀ {p : Handler}, p.Uses Unscored → (∀ r, ¬Ends S s r (.rpc c)) →
      Leads (exec E S) p s (fun _ s' => Scores S s (.rpc c) s') :=
    fun hp hno => (unscored_leads hp).mono (fun _ _ h => .inl ⟨hno, h⟩)
  have silent : ∀ {p : Handler}, p.Uses Silent → p.Uses Unscored :=
    fun hp => hp.mono (fun _ => Silent.unscored)
  cases c with
  | terminateSession req =>
    refine (terminateSession_leads hS req).mono (fun _ s' h => ?_)
    obtain ⟨-, -, hO, hmiss⟩ | ⟨-, r, hn, ht, hO⟩ := h
    · refine .inl ⟨?_, hO⟩
      rintro r ⟨hn⟩
      exact hmiss hfail r hn
    · obtain ⟨t, hst⟩ := ht.stores
      exact .inr ⟨r, .terminate hn, hO, (hasEnded_stores (r := r) hst rfl).mpr rfl⟩
  | updateSessionStatus req =>
    refine (updateSessionStatus_leads hS req).mono (fun _ s' h => ?_)
    obtain ⟨-, -, hO, hmiss⟩ | ⟨r, hn, hu, hO⟩ := h
    · refine .inl ⟨?_, hO⟩
      rintro r (_ | ⟨hn, -⟩)
      exact hmiss r hn
    · by_cases hc : Closes req r
      · rw [if_pos hc] at hO
        obtain ⟨t, hst⟩ := hu.stores_of_closes hfail hc
        refine .inr ⟨r, .update hn hc, hO, (hasEnded_stores hst (origin_updateRecord req t r)).mpr ?_⟩
        rw [status_updateRecord, hc.1]
      · rw [if_neg hc] at hO
        refine .inl ⟨?_, hO⟩
        rintro r' (_ | ⟨hn', hc'⟩)
        exact hc (hn.unique hn' ▸ hc')
  | registerProvider ctx req =>
    exact unscored (silent (uses_registerProvider ctx req)) (fun _ h => by cases h)
  | heartbeat req => exact unscored (silent (uses_heartbeat req)) (fun _ h => by cases h)
  | listProviders req => exact unscored (silent (uses_listProviders req)) (fun _ h => by cases h)
  | getSession req =>
    exact unscored (uses_getSession req trivial (fun _ => trivial)) (fun _ h => by cases h)
  | listProviderSessions req =>
    exact unscored (uses_listProviderSessions req (fun _ => trivial) (fun _ => trivial))
      (fun _ h => by cases h)
  | createSession ctx req => exact unscored (uses_createSession ctx req) (fun _ h => by cases h)
  | exchangeCandidates req =>
    exact unscored (uses_exchangeCandidates req trivial (fun _ => trivial) trivial
      (fun _ _ => trivial)) (fun _ h => by cases h)
  | reportConnectionResult req =>
    exact unscored (uses_reportConnectionResult req) (fun _ h => by cases h)

theorem step_outcomes (hS : S.Lawful) (hfail : S.NeverFails) {e : Event}
    (h : step E S s e = some s') : Scores S s e s' := by
  cases e with
  | rpc c =>
    obtain ⟨⟨resp, t⟩, hrun, rfl⟩ := Option.map_eq_some_iff.mp h
    exact leads_iff.mp (rpc_outcomes hS hfail c) resp t hrun
  | restart relayAddr =>
    cases h
    refine .inl ⟨fun r hr => ?_, rfl⟩
    cases hr
  | relay e he =>
    refine .inl ⟨fun r hr => (by cases hr), ?_⟩
    simp only [step] at h
    split at h
    next =>
      cases h
      rfl
    next =>
      obtain ⟨rs', -, rfl⟩ := Option.map_eq_some_iff.mp h
      rfl

/-- A session is stored as terminated if it was before or the event ends it. -/
theorem hasEnded_step (hS : S.Lawful) (hf : Fresh E S s) {e : Event} (h : step E S s e = some s')
    {id : String} (hs' : HasEnded S id s') : HasEnded S id s ∨ ∃ r, Ends S s r e ∧ r.id = id := by
  cases step_effect hS h with
  | restart relayAddr => exact .inl hs'
  | noRelay => exact .inl hs'
  | relay hrelay hnext => exact .inl hs'
  | untouched h => exact .inl (hs'.of_eq (congrFun h.session id))
  | exchanged hn h => exact .inl (hs'.of_eq (congrFun h.session id))
  | @terminated req r _ hn h =>
    obtain ⟨t, hst⟩ := h.stores
    by_cases hid : id = r.id
    · exact .inr ⟨r, .terminate hn, hid.symm⟩
    · exact .inl (hs'.of_eq (stores_other (r := r) hst rfl hid))
  | @updated req r resp _ hn h =>
    obtain ⟨-, -, hst⟩ | ⟨-, hrej, -, t, hst⟩ | ⟨-, -, t, hst⟩ := h.stores
    · exact .inl (hs'.of_eq (congrFun hst id))
    · by_cases hid : id = r.id
      · subst hid
        rw [hasEnded_stores hst (origin_assigned req t r), status_assigned, hrej.1] at hs'
        exact absurd hs' (by decide)
      · exact .inl (hs'.of_eq (stores_other hst (origin_assigned req t r) hid))
    · by_cases hid : id = r.id
      · subst hid
        rw [hasEnded_stores hst (origin_updateRecord req t r), status_updateRecord] at hs'
        by_cases hstatus : r.status = "terminated"
        · refine .inl ?_
          rw [HasEnded, hn.2, Option.map_some, hstatus]
        · exact .inr ⟨r, .update hn ⟨hs', hstatus⟩, rfl⟩
      · exact .inl (hs'.of_eq (stores_other hst (origin_updateRecord req t r) hid))
  | @reported req r resp _ hn h =>
    obtain ⟨-, hst⟩ | ⟨-, hst⟩ := h.stores
    · exact .inl (hs'.of_eq (congrFun hst id))
    · by_cases hid : id = r.id
      · subst hid
        refine .inl ?_
        rw [HasEnded, hn.2, Option.map_some]
        exact congrArg some ((hasEnded_stores (r := r) hst rfl).mp hs')
      · exact .inl (hs'.of_eq (stores_other (r := r) hst rfl hid))
  | @created ctx req providerID ips T resp _ halloc h =>
    have hnew := hf.session (s.clock + 4) (Nat.le_add_right _ _)
    obtain ⟨hst, -⟩ | ⟨hst, -⟩ := h.session hS hnew
    · exact .inl (hs'.of_eq (congrFun hst id))
    · by_cases hid : id = E.uuid (s.clock + 4)
      · rw [HasEnded, (hst id).trans (if_pos hid), Option.map_some] at hs'
        have hpending : "pending" ≠ "terminated" := by decide
        exact absurd (Option.some.inj hs') hpending
      · exact .inl (hs'.of_eq ((hst id).trans (if_neg hid)))

/-- When the session ended, zero if it has not. -/
def endTime (S : Store σ) (id : String) (s : Server σ) : Option Int :=
  (S.session s.store id).map (·.terminatedAt)

theorem terminatedAt_setIf {v : String} {g : String → SessionAssign} (r : SessionRecord)
    (hg : ((g v).apply r).terminatedAt = r.terminatedAt) :
    (setIf v g r).terminatedAt = r.terminatedAt := by
  unfold setIf
  split
  · exact hg
  · rfl

theorem terminatedAt_assigned {req : UpdateSessionStatusRequest} {r : SessionRecord}
    (hc : ¬Closes req r) (t : Int) : (assigned req t r).terminatedAt = r.terminatedAt := by
  simp only [assigned]
  rw [terminatedAt_setIf _ rfl, terminatedAt_setIf _ rfl, terminatedAt_setIf _ rfl,
    terminatedAt_setIf _ rfl, if_neg hc]

theorem terminatedAt_updateRecord {req : UpdateSessionStatusRequest} {r : SessionRecord}
    (hc : ¬Closes req r) (t : Int) : (updateRecord req t r).terminatedAt = r.terminatedAt := by
  unfold updateRecord
  split
  · exact terminatedAt_assigned hc t
  · exact terminatedAt_assigned hc t

/-- What becomes of the end time of a session that the event does or does not end. -/
structure Timed (S : Store σ) (s s' : Server σ) (id : String) (ended : Prop) : Prop where
  stored : ∀ a, endTime S id s = some a → ∃ b, endTime S id s' = some b ∧ (¬ended → b = a)
  new : endTime S id s = none → ∀ b, endTime S id s' = some b → b = 0

theorem Timed.of_eq {id : String} {ended : Prop}
    (h : S.session s'.store id = S.session s.store id) : Timed S s s' id ended := by
  have htime : endTime S id s' = endTime S id s := congrArg (Option.map _) h
  refine ⟨fun a ha => ⟨a, htime.trans ha, fun _ => rfl⟩, fun hnone b hb => ?_⟩
  rw [htime, hnone] at hb
  cases hb

theorem Timed.of_stores {r r' : SessionRecord} (hr : S.session s.store r.id = some r)
    (h : S.Stores s.store r' s'.store) (hid : r'.origin = r.origin) {id : String} {ended : Prop}
    (hsame : id = r.id → ¬ended → r'.terminatedAt = r.terminatedAt) : Timed S s s' id ended := by
  by_cases heq : id = r.id
  · subst heq
    refine ⟨fun a ha => ⟨r'.terminatedAt, ?_, fun hnot => ?_⟩, fun hnone => ?_⟩
    · rw [endTime, stores_self h hid]
      rfl
    · rw [endTime, hr] at ha
      cases ha
      exact hsame rfl hnot
    · rw [endTime, hr] at hnone
      cases hnone
  · exact .of_eq (stores_other h hid heq)

theorem step_timed (hS : S.Lawful) (hf : Fresh E S s) {e : Event} (h : step E S s e = some s')
    (id : String) : Timed S s s' id (∃ r, Ends S s r e ∧ r.id = id) := by
  cases step_effect hS h with
  | restart relayAddr => exact .of_eq rfl
  | noRelay => exact .of_eq rfl
  | relay hrelay hnext => exact .of_eq rfl
  | untouched h => exact .of_eq (congrFun h.session id)
  | exchanged hn h => exact .of_eq (congrFun h.session id)
  | @terminated req r _ hn h =>
    obtain ⟨t, hst⟩ := h.stores
    refine .of_stores (r := r) hn.2 hst rfl (fun heq hnot => ?_)
    exact absurd ⟨r, .terminate hn, heq.symm⟩ hnot
  | @updated req r resp _ hn h =>
    have hopen : id = r.id → ¬(∃ r', Ends S s r' (.rpc (.updateSessionStatus req)) ∧ r'.id = id) →
        ¬Closes req r := fun heq hnot hc => hnot ⟨r, .update hn hc, heq.symm⟩
    obtain ⟨-, -, hst⟩ | ⟨-, -, -, t, hst⟩ | ⟨-, -, t, hst⟩ := h.stores
    · exact .of_eq (congrFun hst id)
    · exact .of_stores hn.2 hst (origin_assigned req t r)
        (fun heq hnot => terminatedAt_assigned (hopen heq hnot) t)
    · exact .of_stores hn.2 hst (origin_updateRecord req t r)
        (fun heq hnot => terminatedAt_updateRecord (hopen heq hnot) t)
  | @reported req r resp _ hn h =>
    obtain ⟨-, hst⟩ | ⟨-, hst⟩ := h.stores
    · exact .of_eq (congrFun hst id)
    · exact .of_stores (r := r) hn.2 hst rfl (fun _ _ => rfl)
  | @created ctx req providerID ips T resp _ halloc h =>
    have hnew := hf.session (s.clock + 4) (Nat.le_add_right _ _)
    obtain ⟨hst, -⟩ | ⟨hst, -⟩ := h.session hS hnew
    · exact .of_eq (congrFun hst id)
    · by_cases heq : id = E.uuid (s.clock + 4)
      · have hsession := (hst id).trans (if_pos heq)
        refine ⟨fun a ha => ?_, fun _ b hb => ?_⟩
        · rw [heq, endTime, hnew] at ha
          cases ha
        · rw [endTime, hsession] at hb
          cases hb
          rfl
      · exact .of_eq ((hst id).trans (if_neg heq))

/-- The sessions whose outcome has been reported, the latest first. -/
def Server.scored (s : Server σ) : List String := s.outcomes.map Prod.fst

/-- No call ends a session that is stored as terminated, or has been. -/
def EndsOnce (S : Store σ) (x : List (Server σ) × Server σ) (e : Event) : Prop :=
  ∀ r, Ends S x.2 r e → ∀ t ∈ x.2 :: x.1, ¬HasEnded S r.id t

/-- The sessions whose outcome has been reported are those that are stored as terminated, or have
been; a session with an end time is one of them. -/
structure Tallied (S : Store σ) (x : List (Server σ) × Server σ) : Prop where
  ended : ∀ id, id ∈ x.2.scored ↔ ∃ t ∈ x.2 :: x.1, HasEnded S id t
  timed : ∀ id a, endTime S id x.2 = some a → a ≠ 0 → id ∈ x.2.scored

theorem mem_scored_step (hS : S.Lawful) (hfail : S.NeverFails) {e : Event}
    (h : step E S s e = some s') {id : String} :
    id ∈ s'.scored ↔ id ∈ s.scored ∨ ∃ r, Ends S s r e ∧ r.id = id := by
  unfold Server.scored
  obtain ⟨hno, hO⟩ | ⟨r, hr, hO, -⟩ := step_outcomes hS hfail h
  · rw [hO, or_iff_left]
    rintro ⟨r, hr, -⟩
    exact hno r hr
  · rw [hO, List.map_cons, List.mem_cons, or_comm]
    refine or_congr_right ⟨fun hid => ⟨r, hr, hid.symm⟩, ?_⟩
    rintro ⟨r', hr', rfl⟩
    rw [hr.unique hr']

theorem hasEnded_of_ends (hS : S.Lawful) (hfail : S.NeverFails) {e : Event}
    (h : step E S s e = some s') {r : SessionRecord} (hr : Ends S s r e) : HasEnded S r.id s' := by
  obtain ⟨hno, -⟩ | ⟨r', hr', -, hended⟩ := step_outcomes hS hfail h
  · exact absurd hr (hno r)
  · rwa [hr'.unique hr]

theorem Tallied.step (hS : S.Lawful) (hfail : S.NeverFails) (hf : Fresh E S s)
    {past : List (Server σ)} (hs : Tallied S (past, s)) {e : Event}
    (h : step E S s e = some s') : Tallied S (s :: past, s') where
  ended id := by
    rw [mem_scored_step hS hfail h, hs.ended id]
    constructor
    · rintro (⟨t, ht, hended⟩ | ⟨r, hr, rfl⟩)
      · exact ⟨t, .tail _ ht, hended⟩
      · exact ⟨s', .head _, hasEnded_of_ends hS hfail h hr⟩
    · rintro ⟨t, ht, hended⟩
      obtain rfl | ht := List.mem_cons.mp ht
      · obtain hbefore | hends := hasEnded_step hS hf h hended
        · exact .inl ⟨s, .head _, hbefore⟩
        · exact .inr hends
      · exact .inl ⟨t, ht, hended⟩
  timed id b hb hne := by
    rw [mem_scored_step hS hfail h]
    have htimed := step_timed hS hf h id
    by_cases hended : ∃ r, Ends S s r e ∧ r.id = id
    · exact .inr hended
    · cases ha : endTime S id s with
      | none => exact absurd (htimed.new ha b hb) hne
      | some a =>
        obtain ⟨b', hb', heq⟩ := htimed.stored a ha
        rw [hb] at hb'
        cases hb'
        exact .inl (hs.timed id a ha (heq hended ▸ hne))

theorem nodup_scored_step (hS : S.Lawful) (hfail : S.NeverFails) {past : List (Server σ)}
    (hs : Tallied S (past, s)) {e : Event} (h : step E S s e = some s') :
    s'.scored.Nodup ↔ s.scored.Nodup ∧ EndsOnce S (past, s) e := by
  have hfirst : ∀ r : SessionRecord, r.id ∉ s.scored ↔ ∀ t ∈ s :: past, ¬HasEnded S r.id t := by
    intro r
    rw [hs.ended r.id, not_exists]
    exact forall_congr' (fun _ => not_and)
  unfold EndsOnce
  simp only [← hfirst]
  unfold Server.scored
  obtain ⟨hno, hO⟩ | ⟨r, hr, hO, -⟩ := step_outcomes hS hfail h
  · rw [hO]
    exact (and_iff_left (fun r hr => absurd hr (hno r))).symm
  · rw [hO, List.map_cons, List.nodup_cons, and_comm]
    refine and_congr_right (fun _ => ⟨fun hnot r' hr' => ?_, fun hall => hall r hr⟩)
    rw [hr.unique hr']
    exact hnot

/-- The end times a session is stored with along a run. -/
def endTimes (E : Env) (S : Store σ) (es : List Event) (s : Server σ) (id : String) : List Int :=
  (Step.trace (step E S) es s).filterMap (endTime S id)

/-- A run reports the outcome of no session twice and changes no end time once it is set, exactly
if none of its calls ends a session that is stored as terminated or has been: `TerminateSession`
does not find such a session, and `UpdateSessionStatus` does not move one that has got another
status since into `"terminated"` again. -/
theorem sessions_end_once_iff (hS : S.Lawful) (hfail : S.NeverFails) {es : List Event}
    {past : List (Server σ)} (hf : Fresh E S s) (hs : Tallied S (past, s)) (hnodup : s.scored.Nodup)
    (hrun : Step.run (step E S) es s = some s') :
    (s'.scored.Nodup ∧ ∀ id, (endTimes E S es s id).IsChain (fun a b => a ≠ 0 → b = a)) ↔
      Step.Along (Step.remember (step E S)) (EndsOnce S) es (past, s) := by
  have hinv : ∀ {x y : List (Server σ) × Server σ} {e : Event},
      Fresh E S x.2 ∧ Tallied S x → Step.remember (step E S) x e = some y →
        Fresh E S y.2 ∧ Tallied S y := by
    rintro ⟨past, s⟩ ⟨past', s'⟩ e ⟨hf, hs⟩ h
    obtain ⟨hnext, rfl⟩ := Step.remember_eq_some.mp h
    exact ⟨hf.step hS hnext, hs.step hS hfail hf hnext⟩
  have hiff : s'.scored.Nodup ↔
      s.scored.Nodup ∧ Step.Along (Step.remember (step E S)) (EndsOnce S) es (past, s) := by
    obtain ⟨past', hrun'⟩ := Step.run_remember past hrun
    refine Step.run_iff (I := fun x => Fresh E S x.2 ∧ Tallied S x)
      (J := fun x : List (Server σ) × Server σ => x.2.scored.Nodup) hinv ?_ ⟨hf, hs⟩ hrun'
    rintro ⟨past, s⟩ ⟨past', s'⟩ e ⟨-, hs⟩ h
    exact nodup_scored_step hS hfail hs (Step.remember_eq_some.mp h).1
  constructor
  · rintro ⟨h, -⟩
    exact (hiff.mp h).2
  · intro hok
    refine ⟨hiff.mpr ⟨hnodup, hok⟩, fun id => ?_⟩
    rw [endTimes, ← Step.map_trace_remember es past s, List.filterMap_map]
    apply Step.isChain_trace (I := fun x => Fresh E S x.2 ∧ Tallied S x) _ hok ⟨hf, hs⟩
    rintro ⟨past, s⟩ ⟨past', s'⟩ e honce ⟨hf, hs⟩ h
    refine ⟨hinv ⟨hf, hs⟩ h, fun a ha => ?_⟩
    obtain ⟨b, hb, heq⟩ := (step_timed hS hf (Step.remember_eq_some.mp h).1 id).stored a ha
    refine ⟨b, hb, fun hne => heq ?_⟩
    rintro ⟨r, hr, rfl⟩
    obtain ⟨t, ht, hended⟩ := (hs.ended r.id).mp (hs.timed r.id a ha hne)
    exact honce r hr t ht hended

def reportTerminated : Event := .rpc (.updateSessionStatus
  { sessionID := "session-4", status := "terminated" })

/-- The agent's report of a session that the renter has terminated ends nothing. -/
theorem reportTerminated_endsOnce {s s' : Server Tables} {past : List (Server Tables)}
    (h : step countingEnv (memoryStore (fun _ => Order.id)) oneProvider createOne = some s)
    (h' : step countingEnv (memoryStore (fun _ => Order.id)) s terminateOne = some s') :
    EndsOnce (memoryStore (fun _ => Order.id)) (past, s') reportTerminated := by
  have hstored : (Step.run (step countingEnv (memoryStore (fun _ => Order.id)))
      [createOne, terminateOne] oneProvider).map
      (fun s => ((memoryStore (fun _ => Order.id)).getSessionByPrefix s.clock s.store "session-4",
        (s.store.sessions.lookup "session-4").map (·.status))) =
      some (.ok (.stored "session-4"), some "terminated") := by decide +kernel
  simp only [Step.run, h, h', Option.bind_some, Option.map_some, Option.some.injEq,
    Prod.mk.injEq] at hstored
  rintro r (_ | ⟨hn, hc⟩)
  exact absurd (hn.status hstored.1 hstored.2) hc.2

/-- The renter terminates the session, and then the agent reports its end. -/
theorem sessions_end_once_both :
    ∃ s', Step.run (step countingEnv (memoryStore (fun _ => Order.id)))
        [createOne, terminateOne, reportTerminated] oneProvider = some s' ∧ s'.scored.Nodup ∧
      ∀ id, (endTimes countingEnv (memoryStore (fun _ => Order.id))
        [createOne, terminateOne, reportTerminated] oneProvider id).IsChain
          (fun a b => a ≠ 0 → b = a) := by
  have hruns : (Step.run (step countingEnv (memoryStore (fun _ => Order.id)))
      [createOne, terminateOne, reportTerminated] oneProvider).isSome = true := by decide +kernel
  obtain ⟨s', hrun⟩ := Option.isSome_iff_exists.mp hruns
  have hnodup : oneProvider.scored.Nodup := by decide
  have hfresh : Fresh countingEnv (memoryStore (fun _ => Order.id)) oneProvider :=
    Fresh.counting rfl rfl
  have htallied : Tallied (memoryStore (fun _ => Order.id)) ([], oneProvider) := by
    refine ⟨fun id => ⟨fun h => (by cases h), ?_⟩, fun _ _ h => by cases h⟩
    rintro ⟨t, ht, hended⟩
    rw [List.mem_singleton.mp ht] at hended
    cases hended
  refine ⟨s', hrun, (sessions_end_once_iff (memoryStore_lawful _) (memoryStore_neverFails _)
    hfresh htallied hnodup hrun).mpr ⟨fun r hr => (by cases hr), ?_⟩⟩
  rintro ⟨past, s⟩ hs
  obtain ⟨hcreated, rfl⟩ := Step.remember_eq_some.mp hs
  refine ⟨fun r _ t ht hended => ?_, ?_⟩
  · have hscored : (step countingEnv (memoryStore (fun _ => Order.id)) oneProvider createOne).map
        Server.scored = some [] := by decide +kernel
    rw [hcreated, Option.map_some, Option.some.injEq] at hscored
    have hmem := ((htallied.step (memoryStore_lawful _) (memoryStore_neverFails _) hfresh
      hcreated).ended r.id).mpr ⟨t, ht, hended⟩
    rw [hscored] at hmem
    cases hmem
  · rintro ⟨past, s''⟩ hs''
    exact ⟨reportTerminated_endsOnce hcreated (Step.remember_eq_some.mp hs'').1, fun _ _ => trivial⟩

/-- The agent reports the end of a session, and then the renter terminates it: its outcome is
reported twice and its end time changes. -/
theorem reported_end_repeated :
    (Step.run (step countingEnv (memoryStore (fun _ => Order.id)))
      [createOne, reportTerminated, terminateOne] oneProvider).map Server.scored =
        some ["session-4", "session-4"] ∧
    ¬["session-4", "session-4"].Nodup ∧
    endTimes countingEnv (memoryStore (fun _ => Order.id))
      [createOne, reportTerminated, terminateOne] oneProvider "session-4" = [0, 14, 20] ∧
    ¬([0, 14, 20] : List Int).IsChain (fun a b => a ≠ 0 → b = a) := by
  refine ⟨by decide +kernel, by decide, by decide +kernel, fun h => ?_⟩
  have hlast := (List.isChain_cons_cons.mp (List.isChain_cons_cons.mp h).2).1 (by decide)
  cases hlast

end PeerCompute.Registry
