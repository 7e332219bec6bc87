import PeerCompute.Relay.ServerLaws

namespace PeerCompute.Relay.RelayServer

open PeerCompute.Data PeerCompute.Interleaving

/-- A raw socket opened for `token` is open and served by the session object at `p`. -/
def ListensFor (rs : RelayServer) (token : String) (p : Nat) : Prop :=
  p ∈ rs.listeners ∧ ∃ sess, rs.heap[p]? = some sess ∧ sess.token = token

/-- Every open raw socket of `token` belongs to the session the token names now. -/
def Tied (token : String) (rs : RelayServer) : Prop :=
  ∀ p, rs.ListensFor token p → rs.sessions.lookup token = some p

/-- `RegisterSession(token)` is not called while a raw socket opened for the token is open. -/
def RegistersAnew (token : String) (rs : RelayServer) (e : Event) : Prop :=
  e.registers = some token → ∀ p, ¬rs.ListensFor token p

theorem Handles.listensFor {rs : RelayServer} {p q : Nat} {renter : Option UDPAddr}
    {x : RelayServer × List Sent} {token : String} (h : rs.Handles p renter x) :
    x.1.ListensFor token q ↔ rs.ListensFor token q := by
  unfold ListensFor
  rw [h.listeners]
  refine and_congr_right (fun _ => ⟨?_, ?_⟩)
  · rintro ⟨s', hs', ht⟩
    obtain ⟨s, hs, hsame⟩ := h.heap_of hs'
    exact ⟨s, hs, hsame.token.symm.trans ht⟩
  · rintro ⟨s, hs, ht⟩
    obtain ⟨s', hs', hsame⟩ := h.heap hs
    exact ⟨s', hs', hsame.token.trans ht⟩

theorem listensFor_dropSession {rs : RelayServer} {token token' : String} {p : Nat} :
    (rs.dropSession token').ListensFor token p ↔
      rs.ListensFor token p ∧ rs.sessions.lookup token' ≠ some p := by
  simp only [ListensFor, mem_listeners_dropSession, dropSession_heap]
  exact ⟨fun ⟨⟨hp, hne⟩, h⟩ => ⟨⟨hp, h⟩, hne⟩, fun ⟨⟨hp, h⟩, hne⟩ => ⟨⟨hp, hne⟩, h⟩⟩

/-- A registration opens at most one raw socket, that of the session it makes. -/
theorem listensFor_registerSession {rs rs' : RelayServer} (hw : rs.Wf) {now : Int} {free : Bool}
    {token token' sessionID : String} {p : Nat}
    (h : rs.registerSession now free token' sessionID = some rs') (hp : rs'.ListensFor token p) :
    rs.ListensFor token p ∨ (token' = token ∧ p = rs.heap.length) := by
  obtain ⟨sess, hr⟩ := registerSession_eq_some h
  obtain ⟨hmem, s, hs, hst⟩ := hp
  obtain hmem | ⟨rfl, -⟩ := hr.listens_cases hmem
  · rw [hr.heap_lt (hw.listener_lt hmem)] at hs
    exact .inl ⟨hmem, s, hs, hst⟩
  · rw [hr.heap_length] at hs
    cases hs
    exact .inr ⟨hr.token_eq.symm.trans hst, rfl⟩

theorem ListensFor.registerSession {rs rs' : RelayServer} {now : Int} {free : Bool}
    {token token' sessionID : String} {p : Nat} (hp : rs.ListensFor token p)
    (h : rs.registerSession now free token' sessionID = some rs') : rs'.ListensFor token p := by
  obtain ⟨sess, hr⟩ := registerSession_eq_some h
  obtain ⟨hmem, s, hs, hst⟩ := hp
  have hlt := (List.getElem?_eq_some_iff.mp hs).1
  exact ⟨hr.listens hmem, s, (hr.heap_lt hlt).trans hs, hst⟩

theorem lookup_registerSession {rs rs' : RelayServer} {now : Int} {free : Bool}
    {token token' sessionID : String} (h : rs.registerSession now free token' sessionID = some rs') :
    rs'.sessions.lookup token =
      if token = token' then some rs.heap.length else rs.sessions.lookup token := by
  obtain ⟨sess, hr⟩ := registerSession_eq_some h
  rw [hr.sessions, Map.lookup_insert]

/-- A raw socket that the map does not lead to stays open: no drop closes it. -/
theorem tied_dropSession {rs : RelayServer} (hw : rs.Wf) {token token' : String} :
    (rs.dropSession token').Tied token ↔ rs.Tied token := by
  constructor
  · intro h p hp
    by_contra hne
    have hne' : rs.sessions.lookup token' ≠ some p := by
      intro hp'
      obtain ⟨s, hs, ht, -⟩ := hw.session hp'
      obtain ⟨-, s', hs', ht'⟩ := hp
      rw [hs] at hs'
      cases hs'
      exact hne (ht' ▸ ht ▸ hp')
    have h' := h p (listensFor_dropSession.mpr ⟨hp, hne'⟩)
    rw [lookup_dropSession] at h'
    split at h'
    · cases h'
    · exact hne h'
  · intro h p hp
    obtain ⟨hp, hne⟩ := listensFor_dropSession.mp hp
    rw [lookup_dropSession]
    split
    next htt => exact absurd (h p hp) (htt ▸ hne)
    next => exact h p hp

theorem tied_registerSession {rs rs' : RelayServer} (hw : rs.Wf) {now : Int} {free : Bool}
    {token token' sessionID : String} (h : rs.registerSession now free token' sessionID = some rs') :
    rs'.Tied token ↔ rs.Tied token ∧ (token' = token → ∀ p, ¬rs.ListensFor token p) := by
  constructor
  · intro ht
    have hlook : ∀ {p}, rs.ListensFor token p → token' ≠ token ∧
        rs.sessions.lookup token = some p := by
      intro p hp
      have h' := ht p (hp.registerSession h)
      rw [lookup_registerSession h] at h'
      split at h'
      · cases h'
        exact absurd (hw.listener_lt hp.1) (lt_irrefl _)
      next hne => exact ⟨fun he => hne he.symm, h'⟩
    exact ⟨fun p hp => (hlook hp).2, fun htt p hp => (hlook hp).1 htt⟩
  · rintro ⟨ht, hanew⟩ p hp
    rw [lookup_registerSession h]
    obtain hp | ⟨rfl, rfl⟩ := listensFor_registerSession hw h hp
    · rw [if_neg (fun he => hanew he.symm p hp)]
      exact ht p hp
    · exact if_pos rfl

theorem tied_reapIdleSessions {rs : RelayServer} (hw : rs.Wf) {token : String} (now : Int) :
    (rs.reapIdleSessions now).Tied token ↔ rs.Tied token := by
  have h : (rs.reapIdleSessions now).Wf ∧
      ((rs.reapIdleSessions now).Tied token ↔ rs.Tied token) :=
    reapIdleSessions_induct (P := fun rs' => rs'.Wf ∧ (rs'.Tied token ↔ rs.Tied token))
      (fun _ token' h => ⟨h.1.dropSession token', (tied_dropSession h.1).trans h.2⟩)
      ⟨hw, Iff.rfl⟩ now
  exact h.2

theorem tied_next {rs rs' : RelayServer} (hw : rs.Wf) {token : String} {e : Event}
    (h : rs.next e = some rs') : rs'.Tied token ↔ rs.Tied token ∧ RegistersAnew token rs e := by
  obtain ⟨out, h⟩ := next_eq_some.mp h
  obtain ⟨token', id, now, free, rfl, hr, -⟩ | ⟨he, hx⟩ := step_cases h
  · rw [tied_registerSession hw hr]
    simp [RegistersAnew, Event.registers]
  · have hanew : RegistersAnew token rs e := fun h => by
      rw [he] at h
      cases h
    rw [and_iff_left hanew]
    obtain ⟨token', -, hx⟩ | ⟨now, -, hx⟩ | hx | ⟨p, renter, -, hh⟩ := hx
    · cases hx
      exact tied_dropSession hw
    · cases hx
      exact tied_reapIdleSessions hw now
    · cases hx
      exact Iff.rfl
    · unfold Tied
      rw [hh.sessions]
      exact forall_congr' (fun q => imp_congr_left hh.listensFor)

/-- The relay does nothing for `token` any more: no raw socket opened for it is open, and
whatever is read next on any socket, nothing is sent on its behalf. -/
def Silent (rs : RelayServer) (token : String) : Prop :=
  (∀ p, ¬rs.ListensFor token p) ∧
    ∀ e x, rs.step e = some x → ∀ sent ∈ x.2, sent.token ≠ token

theorem silent_iff_tied {rs : RelayServer} (hw : rs.Wf) {token : String}
    (hnone : rs.sessions.lookup token = none) : rs.Silent token ↔ rs.Tied token := by
  constructor
  · intro h p hp
    exact absurd hp (h.1 p)
  · intro h
    have hclosed : ∀ p, ¬rs.ListensFor token p := by
      intro p hp
      have hp' := h p hp
      rw [hnone] at hp'
      cases hp'
    refine ⟨hclosed, fun e x hx sent hsent htoken => ?_⟩
    obtain ⟨token', id, now, free, -, -, hout⟩ | ⟨-, ⟨token', -, rfl⟩ | ⟨now, -, rfl⟩ | rfl |
      ⟨p, renter, hp, hh⟩⟩ := step_cases hx
    · rw [hout] at hsent
      cases hsent
    · cases hsent
    · cases hsent
    · cases hsent
    · obtain ⟨sess, -, hsess, -, -, -, hout⟩ := hh
      have hst : sess.token = token := (hout sent hsent).symm.trans htoken
      obtain ⟨token', hp⟩ | hp := hp
      · obtain ⟨s, hs, ht, -⟩ := hw.session hp
        rw [hsess] at hs
        cases hs
        rw [← ht, hst, hnone] at hp
        cases hp
      · exact hclosed p ⟨hp, sess, hsess, hst⟩

/-- `InvalidateSession(token)`, `RemoveSession(token)`, or a sweep of the reaper after which the
token is gone. -/
def Removes (token : String) (rs : RelayServer) (e : Event) : Prop :=
  e = .invalidate token ∨ e = .remove token ∨
    ∃ now, e = .reap now ∧ (rs.reapIdleSessions now).sessions.lookup token = none

theorem Removes.lookup {token : String} {rs rs' : RelayServer} {e : Event}
    (h : Removes token rs e) (hnext : rs.next e = some rs') :
    rs'.sessions.lookup token = none ∧ e.registers = none := by
  have hdrop : (rs.dropSession token).sessions.lookup token = none := by
    rw [lookup_dropSession, if_pos rfl]
  obtain rfl | rfl | ⟨now, rfl, hnone⟩ := h
  · cases hnext
    exact ⟨hdrop, rfl⟩
  · cases hnext
    exact ⟨hdrop, rfl⟩
  · cases hnext
    exact ⟨hnone, rfl⟩

theorem lookup_eq_none_next {rs rs' : RelayServer} {token : String} {e : Event}
    (hreg : e.registers ≠ some token) (hnone : rs.sessions.lookup token = none)
    (h : rs.next e = some rs') : rs'.sessions.lookup token = none := by
  obtain ⟨out, h⟩ := next_eq_some.mp h
  obtain ⟨token', id, now, free, rfl, hr, -⟩ | ⟨-, ⟨token', -, hx⟩ | ⟨now, -, hx⟩ | hx |
    ⟨p, renter, -, hh⟩⟩ := step_cases h
  · rw [lookup_registerSession hr, if_neg (fun he => hreg (congrArg some he.symm)), hnone]
  · cases hx
    rw [lookup_dropSession, hnone, ite_self]
  · cases hx
    rw [lookup_reapIdleSessions, hnone, ite_self]
  · cases hx
    exact hnone
  · exact hh.sessions ▸ hnone

/-- After a token has been removed, and until it is registered again, the relay is silent about
it exactly when no earlier `RegisterSession` of the token found a raw socket of it open. -/
theorem silent_after_removal_iff (token addr : String) {before after : List Event} {e : Event}
    {rs rs' rs'' : RelayServer}
    (hbefore : Step.run RelayServer.next before (newRelayServer addr) = some rs)
    (hremoves : Removes token rs e) (he : rs.next e = some rs')
    (hafter : Step.run RelayServer.next after rs' = some rs'')
    (hreg : ∀ e ∈ after, e.registers ≠ some token) :
    rs''.Silent token ↔
      Step.Along RelayServer.next (RegistersAnew token) before (newRelayServer addr) := by
  have hw := (newRelayServer_wf addr).run hbefore
  obtain ⟨hnone, hnoreg⟩ := hremoves.lookup he
  have hnone' : rs''.sessions.lookup token = none :=
    Step.run_induct (fun hok hnone h => lookup_eq_none_next hok hnone h)
      (Step.along_of_forall (fun e he _ => hreg e he) rs') hnone hafter
  have htied : ∀ {es : List Event} {rs rs' : RelayServer}, rs.Wf →
      Step.run RelayServer.next es rs = some rs' →
      (rs'.Tied token ↔ rs.Tied token ∧ Step.Along RelayServer.next (RegistersAnew token) es rs) :=
    Step.run_iff (fun hw h => hw.next h) (fun hw h => tied_next hw h)
  have hstart : (newRelayServer addr).Tied token := by
    rintro p ⟨hp, -⟩
    cases hp
  have hanew : RegistersAnew token rs e := fun h => by
    rw [hnoreg] at h
    cases h
  rw [silent_iff_tied ((hw.next he).run hafter) hnone', htied (hw.next he) hafter,
    and_iff_left (Step.along_of_forall (fun e he _ h => absurd h (hreg e he)) rs'),
    tied_next hw he, and_iff_left hanew, htied (newRelayServer_wf addr) hbefore,
    and_iff_right hstart]

theorem silent_after_removal_registered_once :
    ∃ rs rs', Step.run RelayServer.next [.register "t" "session1" 0 true] (newRelayServer "") =
      some rs ∧ rs.next (.invalidate "t") = some rs' ∧ rs'.Silent "t" := by
  refine ⟨_, _, rfl, rfl, ?_⟩
  refine (silent_after_removal_iff "t" "" (rfl : Step.run RelayServer.next
    [.register "t" "session1" 0 true] (newRelayServer "") = some _) (.inl rfl) rfl
    (rfl : Step.run RelayServer.next [] _ = some _) (by simp)).mpr ⟨?_, fun _ _ => trivial⟩
  rintro - p ⟨hp, -⟩
  cases hp

/-- Both peers report relay use, so the token is registered twice; the second bind fails and the
first raw socket is orphaned.  After the invalidation it still forwards to the provider. -/
theorem reregistered_forwards_after_invalidation :
    ((Step.run RelayServer.next
      [.register "t" "session1" 0 true,
       .main 1 ⟨"provider"⟩ (header (tokenID "t")) Order.id Order.id,
       .register "t" "session1" 2 true, .invalidate "t"] (newRelayServer "")).bind
      (fun rs => rs.step (.raw (rawPortForToken "t") 3 ⟨"renter"⟩ [7]))).map Prod.snd =
    some [⟨"t", .main, ⟨"provider"⟩, header (tokenID "t") ++ [7]⟩] := by
  decide +kernel

end PeerCompute.Relay.RelayServer
