import PeerCompute.Interleaving.History
import PeerCompute.Plugin.MemoryStore
import PeerCompute.Registry.HandlerSpecs
import PeerCompute.Store.Postgres

/-! What a provider learns about its sessions by a poll and by a heartbeat. -/

namespace PeerCompute.Plugin

open PeerCompute.Data

/-- A listing shows stored sessions that its filter admits, and the sessions that are said to have
been terminated have been. -/
structure Store.Queries {σ : Type} (S : Store σ) : Prop where
  list_sessions : ∀ {t s filter refs}, S.listSessions t s filter = .ok refs →
    ∀ ref ∈ refs, ∃ r, S.session s r.id = some r ∧ ref = S.handle r ∧ filter.admits r = true
  terminated : ∀ {t s ids providerID out}, S.getTerminatedSessionIDs t s ids providerID = .ok out →
    ∀ id ∈ out, ∃ r, S.session s id = some r ∧ r.status = "terminated"

theorem terminated_of_any {m : Tables} {id providerID : String}
    (h : (m.sessions.lookup id).any (fun s =>
      s.providerID = providerID && s.status = "terminated") = true) :
    ∃ r, m.sessions.lookup id = some r ∧ r.status = "terminated" := by
  obtain ⟨r, hr, hterminated⟩ := (Option.any_eq_true _ _).mp h
  exact ⟨r, hr, by simpa using (Bool.and_eq_true_iff.mp hterminated).2⟩

theorem memoryStore_queries (order : Nat → Order String) : (memoryStore order).Queries where
  list_sessions := by
    intro t s filter refs h ref href
    cases h
    obtain ⟨id, hid, rfl⟩ := List.mem_map.mp href
    obtain ⟨r, hr, hadmits⟩ := (Option.any_eq_true _ _).mp (List.mem_filter.mp hid).2
    obtain rfl := s.session_id hr
    exact ⟨r, hr, rfl, hadmits⟩
  terminated := by
    intro t s ids providerID out h id hid
    cases h
    exact terminated_of_any (List.mem_filter.mp hid).2

end PeerCompute.Plugin

namespace PeerCompute.PostgresStore

open PeerCompute.Data PeerCompute.Plugin

theorem tableStore_queries (B : Backend) : (tableStore B).Queries where
  list_sessions := by
    intro t s filter refs h ref href
    obtain ⟨rows, hrows, rfl⟩ := map_eq_ok (Backend.statement_eq_ok h)
    obtain rfl := Backend.allRows_eq_ok hrows
    obtain ⟨r, hr, rfl⟩ := List.mem_map.mp href
    obtain ⟨id, -, hid⟩ := List.mem_filterMap.mp hr
    obtain ⟨hlookup, hadmits⟩ := Option.filter_eq_some_iff.mp hid
    exact ⟨r, s.session_id hlookup ▸ hlookup, rfl, hadmits⟩
  terminated := by
    intro t s ids providerID out h id hid
    simp only [tableStore] at h
    split at h
    · cases h
      cases hid
    · obtain rfl := Backend.allRows_eq_ok (Backend.statement_eq_ok h)
      exact terminated_of_any (Bool.and_eq_true_iff.mp (List.mem_filter.mp hid).2).2

end PeerCompute.PostgresStore

namespace PeerCompute.Registry

open PeerCompute.Interleaving PeerCompute.Plugin PeerCompute.Computev1 Prog

/-- The session is shown as it has been read, by a reference that `given` holds of. -/
def ReadBy (given : Journal signature → Ref SessionRecord → Prop) (l : Journal signature)
    (sess : Session) : Prop :=
  ∃ l₁ ref r l₂, l = l₁ ++ ⟨.loadSession ref, r⟩ :: l₂ ∧ given l₁ ref ∧ sess = sessionToProto r

/-- The reference answers a lookup. -/
def Got (l : Journal signature) (ref : Ref SessionRecord) : Prop :=
  ∃ p, ⟨.getSessionByPrefix p, .ok ref⟩ ∈ l

/-- The reference is one of those that answer a query. -/
def Listed (filter : SessionFilter) (l : Journal signature) (ref : Ref SessionRecord) : Prop :=
  ∃ refs, ⟨.listSessions filter, .ok refs⟩ ∈ l ∧ ref ∈ refs

theorem along_getSession (req : GetSessionRequest) :
    (getSession req).Along (fun _ _ => True) (fun resp l => ∀ sess,
      resp = .ok (.getSession sess) → ReadBy Got l sess) [] := by
  refine ⟨trivial, fun res => ?_⟩
  cases res with
  | error e => exact fun _ h => by cases h
  | ok ref =>
    refine ⟨trivial, fun r sess h => ?_⟩
    cases h
    exact ⟨[⟨.getSessionByPrefix req.sessionID, .ok ref⟩], ref, r, [], rfl, ⟨_, .head _⟩, rfl⟩

theorem along_loadSessions {filter : SessionFilter} {l : Journal signature}
    {refs : List (Ref SessionRecord)} (hrefs : ∀ ref ∈ refs, Listed filter l ref) :
    (loadSessions refs).Along (fun _ _ => True) (fun out l' => l <+: l' ∧ ∀ sess ∈ out,
      ReadBy (Listed filter) l' sess) l := by
  induction refs generalizing l with
  | nil => exact ⟨List.prefix_rfl, fun _ h => by cases h⟩
  | cons ref refs ih =>
    have hlater : ∀ {ref} (y : Σ a : signature.Act, signature.Res a), Listed filter l ref →
        Listed filter (l ++ [y]) ref :=
      fun y ⟨refs, hmem, href⟩ => ⟨refs, List.mem_append_left _ hmem, href⟩
    refine ⟨trivial, fun r => ?_⟩
    change Along (S := signature) _ _ (loadSessions refs >>= _) _
    refine Along.bind ((ih (fun ref h => hlater _ (hrefs ref (.tail _ h)))).mono (fun out l' h => ?_))
    obtain ⟨⟨l₂, rfl⟩, hout⟩ := h
    rw [List.append_assoc, List.singleton_append] at hout ⊢
    refine ⟨List.prefix_append _ _, fun sess hsess => ?_⟩
    obtain rfl | hsess := List.mem_cons.mp hsess
    · exact ⟨l, ref, r, l₂, rfl, hrefs ref (.head _), rfl⟩
    · exact hout sess hsess

/-- A poll shows sessions that have been listed with the status that is asked for. -/
theorem along_listProviderSessions (req : ListProviderSessionsRequest) :
    (listProviderSessions req).Along (fun _ _ => True) (fun resp l => ∀ sessions,
      resp = .ok (.listProviderSessions sessions) → ∀ sess ∈ sessions,
        ReadBy (Listed { providerID := req.providerID, status := req.statusFilter }) l sess) [] := by
  refine ⟨trivial, fun res => ?_⟩
  cases res with
  | error e => exact fun _ h => by cases h
  | ok refs =>
    change Along (S := signature) _ _ (loadSessions refs >>= _) _
    refine Along.bind ((along_loadSessions (fun ref h => ⟨refs, .head _, h⟩)).mono
      (fun out l h sessions hsessions => ?_))
    cases hsessions
    exact h.2

/-- The session is one of those that the store has said to have been terminated. -/
def Ended (l : Journal signature) (id : String) : Prop :=
  ∃ ids providerID out, ⟨.getTerminatedSessionIDs ids providerID, .ok out⟩ ∈ l ∧ id ∈ out

/-- A heartbeat is answered with sessions that have been terminated. -/
theorem along_heartbeat (req : HeartbeatRequest) :
    (heartbeat req).Along (fun _ _ => True) (fun resp l => ∀ ack ids,
      resp = .ok (.heartbeat ack ids) → ∀ id ∈ ids, Ended l id) [] := by
  have hfinish : ∀ (providerID : String) (l : Journal signature),
      (finishHeartbeat req providerID).Along (fun _ _ => True) (fun resp l => ∀ ack ids,
        resp = .ok (.heartbeat ack ids) → ∀ id ∈ ids, Ended l id) l := by
    intro providerID l
    unfold finishHeartbeat
    split
    · intro ack ids h id hid
      cases h
      cases hid
    · refine ⟨trivial, fun res => ?_⟩
      cases res with
      | error e =>
        intro ack ids h id hid
        cases h
        cases hid
      | ok out =>
        intro ack ids h id hid
        cases h
        exact ⟨req.activeSessions, providerID, out, List.mem_append_right _ (.head _), hid⟩
  refine ⟨trivial, fun res => ?_⟩
  cases res with
  | error e => exact fun _ _ h => by cases h
  | ok ref =>
    refine ⟨trivial, fun r => ⟨trivial, fun now => ?_⟩⟩
    dsimp only
    split
    next =>
      have hset : ∀ {as} (l : Journal signature),
          (setProviders as ref).Along (fun _ _ => True) (fun _ _ => True) l :=
        ((uses_setProviders _ ref).mono (fun _ _ _ => trivial)).along_always
      change Along (S := signature) _ _ (setProviders _ ref >>= _) _
      refine Along.bind ((hset _).mono (fun ref l _ => ⟨trivial, fun res => ?_⟩))
      cases res with
      | error e => exact fun _ _ h => by cases h
      | ok _ => exact hfinish r.id _
    next =>
      refine ⟨trivial, fun res => ?_⟩
      cases res with
      | error e => exact fun _ _ h => by cases h
      | ok _ => exact hfinish r.id _

end PeerCompute.Registry
