import Mathlib.Data.List.Find
import PeerCompute.Relay.Routing

namespace PeerCompute.Relay.RelayServer

open PeerCompute.Data PeerCompute.Interleaving

/-! ## What the relay has learned -/

/-- A renter address is known only of a session with a raw socket. -/
def Heard (rs : RelayServer) : Prop :=
  ∀ (p : Nat) (sess : RelaySession), rs.heap[p]? = some sess → sess.renterAddr ≠ none →
    sess.rawConn ≠ none

theorem Heard.handles {rs : RelayServer} (h : rs.Heard) {p : Nat} {renter : Option UDPAddr}
    {x : RelayServer × List Sent} (hx : rs.Handles p renter x)
    (hrenter : renter ≠ none → ∀ sess, rs.heap[p]? = some sess → sess.rawConn ≠ none) :
    x.1.Heard := by
  intro q s hs hne
  obtain ⟨sess, sess', hsess, hsame, hr, hx, -⟩ := hx
  rw [hx, update, List.getElem?_set] at hs
  split at hs
  next hpq =>
    split at hs
    · cases hs
      rw [hsame.rawConn]
      by_cases hnone : renter = none
      · rw [hr, hnone, Option.none_or] at hne
        exact h p sess hsess hne
      · exact hrenter hnone sess hsess
    · cases hs
  next => exact h q s hs hne

/-- The session object a registration makes knows nothing. -/
theorem Registers.blank {rs rs' : RelayServer} {now : Int} {free : Bool} {token sessionID : String}
    {sess : RelaySession} (hr : Registers rs rs' token sess)
    (h : rs.registerSession now free token sessionID = some rs') :
    sess.peerA = none ∧ sess.peerB = none ∧ sess.renterAddr = none := by
  have hheap := hr.heap
  unfold registerSession bindSession at h
  split at h
  · cases h
  · cases h
    have hsess := List.append_cancel_left hheap
    cases hsess
    exact ⟨rfl, rfl, rfl⟩

theorem Heard.next {rs rs' : RelayServer} (h : rs.Heard) {e : Event} (hnext : rs.next e = some rs') :
    rs'.Heard := by
  obtain ⟨out, hstep⟩ := next_eq_some.mp hnext
  have hheap : ∀ {rs₁ : RelayServer}, rs₁.heap = rs.heap → rs₁.Heard := by
    intro rs₁ heq p sess hsess
    rw [heq] at hsess
    exact h p sess hsess
  cases e with
  | register token sessionID now free =>
    obtain ⟨r, hreg, hx⟩ := Option.map_eq_some_iff.mp hstep
    cases hx
    obtain ⟨new, hr⟩ := registerSession_eq_some hreg
    intro p sess hsess hne
    rw [hr.heap, List.getElem?_append] at hsess
    split at hsess
    · exact h p sess hsess hne
    · have hmem := List.mem_singleton.mp (List.mem_of_getElem? hsess)
      subst hmem
      exact absurd (hr.blank hreg).2.2 hne
  | remove token =>
    cases hstep
    exact hheap (rs.dropSession_heap token)
  | invalidate token =>
    cases hstep
    exact hheap (rs.dropSession_heap token)
  | reap now =>
    cases hstep
    exact hheap (rs.heap_reapIdleSessions now)
  | main now raddr data order order' =>
    have hx : rs.serve order order' now raddr data = (rs', out) := Option.some.inj hstep
    obtain hserve | ⟨-, q, -, hh⟩ := rs.serve_cases order order' now raddr data
    · rw [hx] at hserve
      cases hserve
      exact h
    · rw [hx] at hh
      exact h.handles hh (fun hne => absurd rfl hne)
  | raw port now raddr data =>
    simp only [step] at hstep
    split at hstep
    next =>
      cases hstep
      exact h
    next q hq =>
      obtain ⟨-, s, hs, hport⟩ := listenerOn_eq_some hq
      have hh := serveRaw_handles hs now raddr data
      rw [Option.some.inj hstep] at hh
      refine h.handles hh (fun _ sess hsess => ?_)
      rw [hs] at hsess
      cases hsess
      simp [hport]

/-- What holds of the relay after every run of its events. -/
structure Reached (rs : RelayServer) : Prop where
  wf : rs.Wf
  heard : rs.Heard
  ordered : Threads.Ordered rs

theorem reached {addr : String} {es : List Event} {rs : RelayServer}
    (h : Step.run RelayServer.next es (newRelayServer addr) = some rs) : rs.Reached where
  wf := (newRelayServer_wf addr).run h
  heard := by
    refine Step.run_induct (I := Heard) (fun _ h hnext => h.next hnext) (Step.along_true es _) ?_ h
    intro p sess hsess
    simp [newRelayServer] at hsess
  ordered := by
    obtain ⟨turns, wire', ts', hplay, -⟩ := Threads.interleave_of_run h [] []
    exact (Threads.atWork (Threads.newRelayServer_ordered addr) hplay).ordered

/-! ## Where packets go -/

theorem findSessionByTokenID_first {rs : RelayServer} {token : String} {p : Nat}
    {sess : RelaySession} (hp : rs.sessions.lookup token = some p)
    (hsess : rs.heap[p]? = some sess) {id : List UInt8} (hid : sess.tokenID = id) :
    rs.findSessionByTokenID (Order.first token) id = some p := by
  have hmem : token ∈ rs.sessions.keys := Map.mem_keys_iff.mpr ⟨p, hp⟩
  simp [findSessionByTokenID, Order.first, hmem, hp, hsess, hid]

/-- A datagram that reaches the relay. -/
inductive Datagram
  | main (raddr : UDPAddr) (data : List UInt8)
  | raw (port : Nat) (raddr : UDPAddr) (data : List UInt8)

def Datagram.event (now : Int) (order order' : Order String) : Datagram → Event
  | .main raddr data => .main now raddr data order order'
  | .raw port raddr data => .raw port now raddr data

/-- The datagram is forwarded as `sent`, in some order in which the sessions may be searched. -/
def Forwards (rs : RelayServer) (d : Datagram) (sent : Sent) : Prop :=
  ∃ now order order' x, rs.step (d.event now order order') = some x ∧ sent ∈ x.2

/-- Where the switch of the main loop sends a packet does not depend on the time. -/
theorem slowRoute_route (sess : RelaySession) (now now' : Int) (raddr : UDPAddr) :
    (sess.slowRoute now raddr).2 = (sess.slowRoute now' raddr).2 := by
  unfold RelaySession.slowRoute
  split
  · rfl
  · split_ifs <;> rfl

theorem mem_serveSlow {rs : RelayServer} {order : Order String} {now : Int} {raddr : UDPAddr}
    {id payload : List UInt8} {sent : Sent}
    (h : sent ∈ (rs.serveSlow order now raddr id payload).2) : ∃ token p sess,
      rs.sessions.lookup token = some p ∧ rs.heap[p]? = some sess ∧ sess.tokenID = id ∧
      sent ∈ rs.forward p sess.token payload (sess.slowRoute now raddr).2 := by
  unfold serveSlow at h
  split at h
  next => cases h
  next p sess hfind =>
    obtain ⟨hsess, token, hp, hid⟩ := Threads.find_eq_some hfind
    exact ⟨token, p, sess, hp, hsess, hid, h⟩

theorem mem_serveFast {rs : RelayServer} {order : Order String} {now : Int} {raddr : UDPAddr}
    {id payload : List UInt8} {x : RelayServer × List Sent} {sent : Sent}
    (h : rs.serveFast order now raddr id payload = some x) (hsent : sent ∈ x.2) : ∃ token p sess,
      rs.sessions.lookup token = some p ∧ rs.heap[p]? = some sess ∧ sess.tokenID = id ∧
      sent ∈ rs.forward p sess.token payload (sess.slowRoute now raddr).2 := by
  unfold serveFast at h
  split at h
  next =>
    cases h
    cases hsent
  next p sess hfind =>
    obtain ⟨hsess, token, hp, hid⟩ := Threads.find_eq_some hfind
    split at h
    · cases h
    next hn =>
      cases h
      rw [← (RelaySession.slowRoute_of_not_needsWrite (by simpa using hn) now).1] at hsent
      exact ⟨token, p, sess, hp, hsess, hid, hsent⟩

/-- Searching the sessions with the packet's own token first. -/
theorem serve_first {rs : RelayServer} {token : String} {p : Nat} {sess : RelaySession}
    (hp : rs.sessions.lookup token = some p) (hsess : rs.heap[p]? = some sess)
    {data : List UInt8} (hpacket : IsPacket data) (hid : sess.tokenID = packetID data) (now : Int)
    (raddr : UDPAddr) :
    (rs.serve (Order.first token) (Order.first token) now raddr data).2 =
      rs.forward p sess.token (packetPayload data) (sess.slowRoute now raddr).2 := by
  have hfind := findSessionByTokenID_first hp hsess hid
  rw [serve_of_isPacket hpacket]
  cases hn : sess.needsWrite raddr with
  | true => simp [serveFast, serveSlow, hfind, hsess, hn]
  | false =>
    simp [serveFast, hfind, hsess, hn, (RelaySession.slowRoute_of_not_needsWrite hn now).1]

theorem forwards_main_iff {rs : RelayServer} {raddr : UDPAddr} {data : List UInt8} {sent : Sent} :
    rs.Forwards (.main raddr data) sent ↔ IsPacket data ∧ ∃ token p sess,
      rs.sessions.lookup token = some p ∧ rs.heap[p]? = some sess ∧
      sess.tokenID = packetID data ∧
      sent ∈ rs.forward p sess.token (packetPayload data) (sess.slowRoute 0 raddr).2 := by
  constructor
  · rintro ⟨now, order, order', x, hstep, hsent⟩
    rw [← Option.some.inj hstep] at hsent
    by_cases hpacket : IsPacket data
    · refine ⟨hpacket, ?_⟩
      simp only [slowRoute_route _ 0 now]
      rw [serve_of_isPacket hpacket] at hsent
      cases hfast : rs.serveFast order now raddr (packetID data) (packetPayload data) with
      | none =>
        rw [hfast] at hsent
        exact mem_serveSlow hsent
      | some y =>
        rw [hfast] at hsent
        exact mem_serveFast hfast hsent
    · rw [serve_of_not_isPacket hpacket] at hsent
      cases hsent
  · rintro ⟨hpacket, token, p, sess, hp, hsess, hid, hsent⟩
    refine ⟨0, Order.first token, Order.first token, _, rfl, ?_⟩
    rw [serve_first hp hsess hpacket hid]
    exact hsent

/-! ## A token registered again -/

/-- The session `token` names in `rs'` has the peers, the renter address and the raw socket of the
one it names in `rs`. -/
def Retains (token : String) (rs rs' : RelayServer) : Prop :=
  ∀ (p : Nat) (sess : RelaySession), rs.sessions.lookup token = some p →
    rs.heap[p]? = some sess → ∃ (p' : Nat) (sess' : RelaySession),
      rs'.sessions.lookup token = some p' ∧ rs'.heap[p']? = some sess' ∧
      sess'.peerA = sess.peerA ∧ sess'.peerB = sess.peerB ∧ sess'.renterAddr = sess.renterAddr ∧
      ∀ port, sess.rawConn = some port → sess'.rawConn = some port ∧ p' ∈ rs'.listeners

section

variable {rs rs' : RelayServer} {token : String} {p : Nat} {sess new : RelaySession}

/-- The port of the token is still bound by the session's own socket. -/
theorem Wf.rawConn_again (hw : rs.Wf) (hp : rs.sessions.lookup token = some p)
    (hsess : rs.heap[p]? = some sess) (hr : Registers rs rs' token new) {port : Nat}
    (hport : sess.rawConn = some port) : new.rawConn = none := by
  obtain ⟨s, hs, -, -, hopen⟩ := hw.session hp
  rw [hsess] at hs
  cases hs
  obtain ⟨rfl, hmem⟩ := hopen port hport
  obtain ⟨hnone, -⟩ | ⟨-, hb, -⟩ := hr.listeners
  · exact hnone
  · exact absurd (mem_boundPorts hmem hsess hport) hb

theorem Reached.retains_iff (h : rs.Reached) (hp : rs.sessions.lookup token = some p)
    (hsess : rs.heap[p]? = some sess) (hr : Registers rs rs' token new)
    (hblank : new.peerA = none ∧ new.peerB = none ∧ new.renterAddr = none) :
    Retains token rs rs' ↔ sess.peerA = none ∧ sess.rawConn = none := by
  have hp' : rs'.sessions.lookup token = some rs.heap.length := by
    rw [hr.sessions, Map.lookup_insert, if_pos rfl]
  constructor
  · intro hretains
    obtain ⟨q, s, hq, hs, hA, -, -, hraw⟩ := hretains p sess hp hsess
    rw [hp'] at hq
    cases hq
    rw [hr.heap_length] at hs
    cases hs
    refine ⟨hA.symm.trans hblank.1, ?_⟩
    cases hport : sess.rawConn with
    | none => rfl
    | some port =>
      have hnone := h.wf.rawConn_again hp hsess hr hport
      rw [(hraw port hport).1] at hnone
      cases hnone
  · rintro ⟨hA, hraw⟩ q s hq hs
    rw [hp] at hq
    cases hq
    rw [hsess] at hs
    cases hs
    have hB : sess.peerB = none := (h.ordered.object hsess).1.first hA
    have hrenter : sess.renterAddr = none := by
      by_contra hne
      exact h.heard p sess hsess hne hraw
    exact ⟨rs.heap.length, new, hp', hr.heap_length, hblank.1.trans hA.symm,
      hblank.2.1.trans hB.symm, hblank.2.2.trans hrenter.symm,
      fun port hport => by simp [hraw] at hport⟩

/-- A session with a first peer has a sender whose packets it forwards. -/
theorem Reached.exists_forwards (h : rs.Reached) (hp : rs.sessions.lookup token = some p)
    (hsess : rs.heap[p]? = some sess) {a : UDPAddr} (hA : sess.peerA = some a) :
    ∃ raddr sent, sent ∈ rs.forward p token [] (sess.slowRoute 0 raddr).2 := by
  have hwrite : ∀ (socket : Socket) (dst : UDPAddr),
      writeToUDP token socket [] dst = [⟨token, socket, dst, []⟩] :=
    fun _ _ => writeToUDP_of_le (Nat.zero_le _)
  cases hB : sess.peerB with
  | some b =>
    have hne : b ≠ a := fun hba => (h.ordered.object hsess).1.distinct hA (hba ▸ hB)
    refine ⟨b, ⟨token, .main, a, []⟩, ?_⟩
    simp [RelaySession.slowRoute, hA, hB, hne, forward, hwrite]
  | none =>
    cases hrenter : sess.renterAddr with
    | none =>
      have hne : (⟨a.string ++ "'"⟩ : UDPAddr) ≠ a := by
        intro he
        have hlen := congrArg (fun x : UDPAddr => x.string.length) he
        simp at hlen
      refine ⟨⟨a.string ++ "'"⟩, ⟨token, .main, a, []⟩, ?_⟩
      simp [RelaySession.slowRoute, hA, hB, hrenter, hne, forward, hwrite]
    | some r =>
      obtain ⟨port, hport⟩ := Option.ne_none_iff_exists'.mp
        (h.heard p sess hsess (by simp [hrenter]))
      obtain ⟨s, hs, -, -, hopen⟩ := h.wf.session hp
      rw [hsess] at hs
      cases hs
      have hmem := (hopen port hport).2
      refine ⟨a, ⟨token, .raw port, r, []⟩, ?_⟩
      simp [RelaySession.slowRoute, RelaySession.renterRoute, hA, hB, hrenter, hport, forward, hmem,
        hwrite]

theorem forward_subset (hlisten : ∀ q ∈ rs.listeners, q ∈ rs'.listeners) {payload : List UInt8}
    {route : Route} {sent : Sent} (h : sent ∈ rs.forward p token payload route) :
    sent ∈ rs'.forward p token payload route := by
  cases route with
  | none => cases h
  | main dst => exact h
  | raw port dst =>
    simp only [forward] at h ⊢
    split at h
    next hmem => rwa [if_pos (hlisten p hmem)]
    next => cases h

theorem slowRoute_of_peerA_none (hA : sess.peerA = none) (now : Int) (raddr : UDPAddr) :
    (sess.slowRoute now raddr).2 = .none := by
  simp [RelaySession.slowRoute, hA]

/-- A registration leaves the raw sockets that are open to the sessions they belong to. -/
theorem Wf.listenerOn_registers (hw : rs.Wf) (hr : Registers rs rs' token new) {port q : Nat}
    (hq : rs.listenerOn port = some q) : rs'.listenerOn port = some q := by
  obtain ⟨hmem, s, hs, hport⟩ := listenerOn_eq_some hq
  have hold : rs.listeners.find? (fun q => rs'.heap[q]?.any (fun s => s.rawConn = some port)) =
      some q := by
    rw [← hq, listenerOn]
    refine List.find?_congr (fun q' hq' => ?_)
    rw [hr.heap_lt (hw.listener_lt hq')]
  obtain ⟨-, hl⟩ | ⟨hraw, hb, hl⟩ := hr.listeners
  · rw [listenerOn, hl, hold]
  · have hne : rawPortForToken token ≠ port := by
      rintro rfl
      exact hb (mem_boundPorts hmem hs hport)
    rw [listenerOn, hl, List.find?_cons, hr.heap_length]
    simp [hraw, hne, hold]

theorem Registers.lookup (hr : Registers rs rs' token new) (token' : String) :
    rs'.sessions.lookup token' =
      if token' = token then some rs.heap.length else rs.sessions.lookup token' := by
  rw [hr.sessions, Map.lookup_insert]

/-- A packet of a sender that was served is for the new session now, which has no peer. -/
theorem Reached.exists_lost (h : rs.Reached) (hp : rs.sessions.lookup token = some p)
    (hsess : rs.heap[p]? = some sess) (hr : Registers rs rs' token new)
    (hblank : new.peerA = none) {a : UDPAddr} (hA : sess.peerA = some a) :
    ∃ d sent, rs.Forwards d sent ∧ ¬rs'.Forwards d sent := by
  obtain ⟨s, hs, htoken, -⟩ := h.wf.session hp
  rw [hsess] at hs
  cases hs
  obtain ⟨raddr, sent, hsent⟩ := h.exists_forwards hp hsess hA
  have hempty : ([] : List UInt8).length ≤ maxPayload := Nat.zero_le _
  obtain ⟨hpacket, hid, hpayload⟩ := isPacket_header token hempty
  refine ⟨.main raddr (header (tokenID token) ++ []), sent,
    forwards_main_iff.mpr ⟨hpacket, token, p, sess, hp, hsess, ?_, ?_⟩, fun hafter => ?_⟩
  · rw [hid, (h.ordered.object hsess).2, htoken]
  · rwa [hpayload, htoken]
  obtain ⟨-, token', q, s, hq, hs, -, hsent'⟩ := forwards_main_iff.mp hafter
  obtain ⟨s', hs', hst, -⟩ := (h.wf.registers hr).session hq
  rw [hs] at hs'
  cases hs'
  have htt : token' = token := by
    rw [← hst, ← token_of_mem_forward hsent', token_of_mem_forward hsent]
  rw [hr.lookup, if_pos htt] at hq
  cases hq
  rw [hr.heap_length] at hs
  cases hs
  rw [slowRoute_of_peerA_none hblank] at hsent'
  cases hsent'

theorem Reached.forwards_main (h : rs.Reached) (hp : rs.sessions.lookup token = some p)
    (hsess : rs.heap[p]? = some sess) (hr : Registers rs rs' token new) (hA : sess.peerA = none)
    {raddr : UDPAddr} {data : List UInt8} {sent : Sent} (hd : rs.Forwards (.main raddr data) sent) :
    rs'.Forwards (.main raddr data) sent := by
  obtain ⟨hpacket, token', q, s, hq, hs, hid, hsent⟩ := forwards_main_iff.mp hd
  by_cases htt : token' = token
  · -- the old session of the token has forwarded nothing
    subst htt
    rw [hp] at hq
    cases hq
    rw [hsess] at hs
    cases hs
    rw [slowRoute_of_peerA_none hA] at hsent
    cases hsent
  · refine forwards_main_iff.mpr ⟨hpacket, token', q, s, ?_, ?_, hid,
      forward_subset (fun _ => hr.listens) hsent⟩
    · rw [hr.lookup, if_neg htt, hq]
    · rw [hr.heap_lt (h.wf.lookup_lt hq), hs]

/-- A raw socket stays with its session. -/
theorem Reached.forwards_raw (h : rs.Reached) (hr : Registers rs rs' token new) {port : Nat}
    {raddr : UDPAddr} {data : List UInt8} {sent : Sent}
    (hd : rs.Forwards (.raw port raddr data) sent) : rs'.Forwards (.raw port raddr data) sent := by
  obtain ⟨now, order, order', x, hstep, hsent⟩ := hd
  simp only [Datagram.event, step] at hstep
  split at hstep
  next =>
    cases hstep
    cases hsent
  next q hq =>
    cases hstep
    obtain ⟨hmem, s, hs, -⟩ := listenerOn_eq_some hq
    have hs' := (hr.heap_lt (h.wf.listener_lt hmem)).trans hs
    refine ⟨now, order, order', rs'.serveRaw q now raddr data, ?_, ?_⟩
    · simp only [Datagram.event, step, h.wf.listenerOn_registers hr hq]
    · simp only [serveRaw, hs] at hsent
      simp only [serveRaw, hs']
      cases hA : s.peerA with
      | none =>
        rw [hA] at hsent
        cases hsent
      | some a =>
        rw [hA] at hsent
        exact hsent

theorem Reached.forwards_iff (h : rs.Reached) (hp : rs.sessions.lookup token = some p)
    (hsess : rs.heap[p]? = some sess) (hr : Registers rs rs' token new)
    (hblank : new.peerA = none) :
    (∀ d sent, rs.Forwards d sent → rs'.Forwards d sent) ↔ sess.peerA = none := by
  constructor
  · intro hkeep
    by_contra hA
    obtain ⟨a, hA⟩ := Option.ne_none_iff_exists'.mp hA
    obtain ⟨d, sent, hbefore, hafter⟩ := h.exists_lost hp hsess hr hblank hA
    exact hafter (hkeep d sent hbefore)
  · intro hA d sent hd
    cases d with
    | main raddr data => exact h.forwards_main hp hsess hr hA hd
    | raw port raddr data => exact h.forwards_raw hr hd

end

/-- Registering a token again keeps what its session has learned and its raw socket exactly when
there is neither a first peer nor a raw socket, and every datagram that was forwarded is still
forwarded exactly when there is no first peer: the new session takes the place of the old one and
knows nothing. -/
theorem registerSession_again_iff (addr : String) {es : List Event} {rs rs' : RelayServer}
    {token sessionID : String} {now : Int} {free : Bool} {p : Nat} {sess : RelaySession}
    (hrun : Step.run RelayServer.next es (newRelayServer addr) = some rs)
    (hp : rs.sessions.lookup token = some p) (hsess : rs.heap[p]? = some sess)
    (hreg : rs.registerSession now free token sessionID = some rs') :
    (Retains token rs rs' ↔ sess.peerA = none ∧ sess.rawConn = none) ∧
      ((∀ d sent, rs.Forwards d sent → rs'.Forwards d sent) ↔ sess.peerA = none) := by
  have h := reached hrun
  obtain ⟨new, hr⟩ := registerSession_eq_some hreg
  have hblank := hr.blank hreg
  exact ⟨h.retains_iff hp hsess hr hblank, h.forwards_iff hp hsess hr hblank.1⟩

theorem registerSession_again_unused :
    ∃ rs rs', Step.run RelayServer.next [.register "t" "session1" 0 false] (newRelayServer "") =
        some rs ∧
      rs.registerSession 1 true "t" "session1" = some rs' ∧ Retains "t" rs rs' ∧
      ∀ d sent, rs.Forwards d sent → rs'.Forwards d sent := by
  have hview : (Step.run RelayServer.next [.register "t" "session1" 0 false]
      (newRelayServer "")).map (fun rs => (rs.sessions.lookup "t", rs.heap,
        (rs.registerSession 1 true "t" "session1").isSome)) =
      some (some 0, [{ sessionID := "session1", token := "t", tokenID := tokenID "t", created := 0
                       lastActive := 0 }], true) := by
    decide +kernel
  obtain ⟨rs, hrun, hrs⟩ := Option.map_eq_some_iff.mp hview
  simp only [Prod.mk.injEq] at hrs
  obtain ⟨hp, hheap, hsome⟩ := hrs
  obtain ⟨rs', hreg⟩ := Option.isSome_iff_exists.mp hsome
  have h := registerSession_again_iff "" hrun hp (by rw [hheap]; rfl) hreg
  exact ⟨rs, rs', hrun, hreg, h.1.mpr ⟨rfl, rfl⟩, h.2.mpr rfl⟩

/-- The renter's packet is forwarded before the second registration and dropped after it. -/
theorem registered_again_drops :
    (Step.run RelayServer.next twoPeersEvents (newRelayServer "")).map (fun rs =>
      (rs.serve Order.id Order.id 4 ⟨"renter"⟩ (header (tokenID "t") ++ [1])).2) =
        some [⟨"t", .main, ⟨"provider"⟩, [1]⟩] ∧
    (Step.run RelayServer.next (twoPeersEvents ++ [.register "t" "session1" 3 true])
      (newRelayServer "")).map (fun rs =>
        (rs.serve Order.id Order.id 4 ⟨"renter"⟩ (header (tokenID "t") ++ [1])).2) = some [] := by
  decide +kernel

end PeerCompute.Relay.RelayServer
