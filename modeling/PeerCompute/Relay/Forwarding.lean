import PeerCompute.Relay.ServerLaws

namespace PeerCompute.Relay

open PeerCompute.Data PeerCompute.Interleaving

@[simp] theorem length_tokenID (token : String) : (tokenID token).length = tokenIDLen := by
  simp [tokenID, tokenIDLen]

/-- The largest payload that fits into a datagram with the relay's header. -/
def maxPayload : Nat := maxDatagram - headerLen

theorem writeToUDP_of_le {token : String} {socket : Socket} {data : List UInt8} {dst : UDPAddr}
    (h : data.length ≤ maxDatagram) :
    writeToUDP token socket data dst = [⟨token, socket, dst, data⟩] := if_pos h

namespace RelayServer

/-- No other registered token has the same 16-byte identifier. -/
def Unambiguous (rs : RelayServer) (token : String) : Prop :=
  ∀ token' p, rs.sessions.lookup token' = some p → tokenID token' = tokenID token → token' = token

theorem Wf.findSessionByTokenID {rs : RelayServer} (hw : rs.Wf) {token : String} {p : Nat}
    (hp : rs.sessions.lookup token = some p) (hu : rs.Unambiguous token) (order : Order String) :
    rs.findSessionByTokenID order (tokenID token) = some p := by
  obtain ⟨sess, hsess, -, hid, -⟩ := hw.session hp
  have hmem : token ∈ order.apply rs.sessions.keys :=
    (order.perm _).mem_iff.mpr (Map.mem_keys_iff.mpr ⟨p, hp⟩)
  cases hfind : rs.findSessionByTokenID order (tokenID token) with
  | none =>
    have h := List.findSome?_eq_none_iff.mp hfind token hmem
    simp [hp, hsess, hid] at h
  | some q =>
    obtain ⟨token', sess', hq, hsess', hid'⟩ := findSessionByTokenID_eq_some hfind
    obtain ⟨s, hs, -, hsid, -⟩ := hw.session hq
    rw [hsess'] at hs
    cases hs
    rw [hu token' q hq (hsid.symm.trans hid'), hp] at hq
    exact hq.symm

theorem serve_of_not_isPacket {rs : RelayServer} {order order' : Order String} {now : Int}
    {raddr : UDPAddr} {data : List UInt8} (h : ¬IsPacket data) :
    rs.serve order order' now raddr data = (rs, []) :=
  if_pos (not_not.mp h)

theorem serve_of_isPacket {rs : RelayServer} {order order' : Order String} {now : Int}
    {raddr : UDPAddr} {data : List UInt8} (h : IsPacket data) :
    rs.serve order order' now raddr data =
      (rs.serveFast order now raddr (packetID data) (packetPayload data)).getD
        (rs.serveSlow order' now raddr (packetID data) (packetPayload data)) := by
  refine (if_neg h).trans ?_
  simp only [packetID, packetPayload]
  cases rs.serveFast order now raddr (((data.take 65536).drop magicLen).take tokenIDLen)
    ((data.take 65536).drop headerLen) <;> rfl

end RelayServer

/-- What the main loop makes of a header followed by a payload. -/
theorem isPacket_header (token : String) {payload : List UInt8}
    (hlen : payload.length ≤ maxPayload) :
    IsPacket (header (tokenID token) ++ payload) ∧
      packetID (header (tokenID token) ++ payload) = tokenID token ∧
      packetPayload (header (tokenID token) ++ payload) = payload := by
  have hhdr : (header (tokenID token)).length = headerLen := by
    simp [header, relayMagic, headerLen, magicLen, tokenIDLen]
  have htake : (header (tokenID token) ++ payload).take 65536 = header (tokenID token) ++ payload := by
    apply List.take_of_length_le
    simp only [maxPayload, maxDatagram, headerLen, magicLen, tokenIDLen] at hlen hhdr
    rw [List.length_append, hhdr]
    omega
  have hmagic : (header (tokenID token) ++ payload).take magicLen = relayMagic := by
    simp [header, relayMagic, magicLen]
  refine ⟨?_, ?_, ?_⟩
  · rw [IsPacket, htake, hmagic, List.length_append, hhdr]
    simp
  · rw [packetID, htake]
    simp [header, relayMagic, magicLen]
  · rw [packetPayload, htake, ← hhdr, List.drop_left]

namespace RelayServer

/-- The main loop on a well-formed packet. -/
theorem serve_packet (rs : RelayServer) (order order' : Order String) (now : Int)
    (raddr : UDPAddr) (token : String) {payload : List UInt8} (hlen : payload.length ≤ maxPayload) :
    rs.serve order order' now raddr (header (tokenID token) ++ payload) =
      (rs.serveFast order now raddr (tokenID token) payload).getD
        (rs.serveSlow order' now raddr (tokenID token) payload) := by
  obtain ⟨hpacket, hid, hpayload⟩ := isPacket_header token hlen
  rw [serve_of_isPacket hpacket, hid, hpayload]

/-- What a well-formed packet for a registered session is answered with. -/
theorem Wf.serve_packet {rs : RelayServer} (hw : rs.Wf) {token : String} {p : Nat}
    {sess : RelaySession} (hp : rs.sessions.lookup token = some p)
    (hsess : rs.heap[p]? = some sess) (hu : rs.Unambiguous token) {payload : List UInt8}
    (hlen : payload.length ≤ maxPayload) (order order' : Order String) (now : Int)
    (raddr : UDPAddr) :
    (rs.serve order order' now raddr (header (tokenID token) ++ payload)).2 =
      rs.forward p token payload (sess.slowRoute now raddr).2 := by
  have htoken : sess.token = token := by
    obtain ⟨s, hs, ht, -⟩ := hw.session hp
    rw [hsess] at hs
    cases hs
    exact ht
  have hfast := hw.findSessionByTokenID hp hu order
  have hslow := hw.findSessionByTokenID hp hu order'
  rw [RelayServer.serve_packet rs order order' now raddr token hlen]
  cases hn : sess.needsWrite raddr with
  | true => simp [serveFast, serveSlow, hfast, hslow, hsess, hn, htoken]
  | false =>
    simp [serveFast, hfast, hsess, hn, htoken, (RelaySession.slowRoute_of_not_needsWrite hn now).1]

/-- A session whose two peers are assigned, with its raw socket and renter address. -/
structure Established (token : String) (p : Nat) (a b : UDPAddr) (raw : Option Nat)
    (renter : Option UDPAddr) (rs : RelayServer) (sess : RelaySession) : Prop where
  lookup : rs.sessions.lookup token = some p
  heap : rs.heap[p]? = some sess
  peerA : sess.peerA = some a
  peerB : sess.peerB = some b
  rawConn : sess.rawConn = raw
  renterAddr : sess.renterAddr = renter

/-- The renter address after an event: the sender of the last datagram on the raw socket. -/
def rawSender (raw : Option Nat) (renter : Option UDPAddr) : Event → Option UDPAddr
  | .raw port _ raddr _ => if raw = some port then some raddr else renter
  | _ => renter

/-- The event neither removes the token nor registers it again. -/
def Keeps (token : String) (rs : RelayServer) (e : Event) : Prop :=
  ∀ rs', rs.next e = some rs' → rs'.sessions.lookup token = rs.sessions.lookup token

section

variable {token : String} {p : Nat} {a b : UDPAddr} {raw : Option Nat} {renter : Option UDPAddr}
  {rs rs' : RelayServer} {sess : RelaySession}

theorem Established.of_heap (h : Established token p a b raw renter rs sess)
    (hlook : rs'.sessions.lookup token = some p) (hheap : rs'.heap[p]? = rs.heap[p]?) :
    Established token p a b raw renter rs' sess :=
  { h with lookup := hlook, heap := hheap.trans h.heap }

theorem Established.handles (h : Established token p a b raw renter rs sess) {q : Nat}
    {new : Option UDPAddr} {x : RelayServer × List Sent} (hx : rs.Handles q new x) :
    ∃ sess', Established token p a b raw (if q = p then new.or renter else renter) x.1 sess' := by
  have hlook : x.1.sessions.lookup token = some p := by rw [hx.sessions, h.lookup]
  obtain ⟨s, s', hs, hsame, hrenter, hx, -⟩ := hx
  have hheap : x.1.heap[p]? = if q = p then some s' else rs.heap[p]? := by
    rw [hx]
    simp only [update, List.getElem?_set]
    split
    next hqp =>
      have hlt := (List.getElem?_eq_some_iff.mp hs).1
      rw [if_pos hlt]
    next => rfl
  by_cases hqp : q = p
  · subst hqp
    rw [h.heap] at hs
    cases hs
    rw [if_pos rfl] at hheap ⊢
    exact ⟨s', hlook, hheap, hsame.peerA h.peerA, hsame.peerB h.peerB,
      hsame.rawConn.trans h.rawConn, by rw [hrenter, h.renterAddr]⟩
  · rw [if_neg hqp] at hheap ⊢
    exact ⟨sess, h.of_heap hlook hheap⟩

theorem heap_reapIdleSessions (rs : RelayServer) (now : Int) :
    (rs.reapIdleSessions now).heap = rs.heap :=
  reapIdleSessions_induct (P := fun rs' => rs'.heap = rs.heap)
    (fun rs' token h => (rs'.dropSession_heap token).trans h) rfl now

/-- A datagram on a raw port reaches the session exactly when the port is the session's. -/
theorem Wf.listenerOn_iff (hw : rs.Wf) (h : Established token p a b raw renter rs sess)
    {port q : Nat} (hq : rs.listenerOn port = some q) : q = p ↔ raw = some port := by
  obtain ⟨hmem, s, hs, hport⟩ := listenerOn_eq_some hq
  constructor
  · rintro rfl
    rw [h.heap] at hs
    cases hs
    exact h.rawConn.symm.trans hport
  · intro hraw
    obtain ⟨s', hs', -, -, hopen⟩ := hw.session h.lookup
    have hp' : s'.rawConn = some port := by
      rw [h.heap] at hs'
      cases hs'
      exact h.rawConn.trans hraw
    exact hw.port hmem (hopen port hp').2 hs hs' hport hp'

theorem Wf.listenerOn_isSome (hw : rs.Wf) (h : Established token p a b raw renter rs sess)
    {port : Nat} (hnone : rs.listenerOn port = none) : raw ≠ some port := by
  intro hraw
  have hp' : sess.rawConn = some port := h.rawConn.trans hraw
  obtain ⟨s, hs, -, -, hopen⟩ := hw.session h.lookup
  rw [h.heap] at hs
  cases hs
  have hany := List.find?_eq_none.mp hnone p (hopen port hp').2
  simp [h.heap, hp'] at hany

theorem Established.next (hw : rs.Wf) (h : Established token p a b raw renter rs sess) {e : Event}
    (hkeep : Keeps token rs e) (hnext : rs.next e = some rs') :
    ∃ sess', Established token p a b raw (rawSender raw renter e) rs' sess' := by
  have hlook : rs'.sessions.lookup token = some p := (hkeep rs' hnext).trans h.lookup
  have hlt := (List.getElem?_eq_some_iff.mp h.heap).1
  obtain ⟨out, hstep⟩ := next_eq_some.mp hnext
  cases e with
  | register token' sessionID now free =>
    obtain ⟨r, hr, hx⟩ := Option.map_eq_some_iff.mp hstep
    cases hx
    obtain ⟨s, hr⟩ := registerSession_eq_some hr
    exact ⟨sess, h.of_heap hlook (hr.heap_lt hlt)⟩
  | remove token' =>
    cases hstep
    exact ⟨sess, h.of_heap hlook (by rw [removeSession, dropSession_heap])⟩
  | invalidate token' =>
    cases hstep
    exact ⟨sess, h.of_heap hlook (by rw [invalidateSession, dropSession_heap])⟩
  | reap now =>
    cases hstep
    exact ⟨sess, h.of_heap hlook (by rw [heap_reapIdleSessions])⟩
  | main now raddr data order order' =>
    have hx : rs.serve order order' now raddr data = (rs', out) := Option.some.inj hstep
    obtain hserve | ⟨-, q, -, hh⟩ := rs.serve_cases order order' now raddr data
    · rw [hx] at hserve
      cases hserve
      exact ⟨sess, h⟩
    · rw [hx] at hh
      obtain ⟨sess', h'⟩ := h.handles hh
      exact ⟨sess', by simpa [rawSender] using h'⟩
  | raw port now raddr data =>
    simp only [step] at hstep
    split at hstep
    next hnone =>
      cases hstep
      exact ⟨sess, by simpa [rawSender, hw.listenerOn_isSome h hnone] using h⟩
    next q hq =>
      obtain ⟨-, s, hs, -⟩ := listenerOn_eq_some hq
      have hh := serveRaw_handles hs now raddr data
      rw [Option.some.inj hstep] at hh
      obtain ⟨sess', h'⟩ := h.handles hh
      refine ⟨sess', ?_⟩
      simpa only [rawSender, hw.listenerOn_iff h hq, Option.some_or] using h'

theorem Established.run (hw : rs.Wf) (h : Established token p a b raw renter rs sess)
    {es : List Event} (hkeep : Step.Along RelayServer.next (Keeps token) es rs)
    (hrun : Step.run RelayServer.next es rs = some rs') :
    ∃ sess', Established token p a b raw (es.foldl (rawSender raw) renter) rs' sess' := by
  induction es generalizing rs sess renter with
  | nil =>
    cases hrun
    exact ⟨sess, h⟩
  | cons e es ih =>
    obtain ⟨t, ht, hrun⟩ := Option.bind_eq_some_iff.mp hrun
    obtain ⟨sess', h'⟩ := h.next hw hkeep.1 ht
    exact ih (hw.next ht) h' (hkeep.2 t ht) hrun

/-- Where a packet of the provider goes on an established path. -/
def renterSide (token : String) (payload : List UInt8) (b : UDPAddr) (raw : Option Nat)
    (renter : Option UDPAddr) : Sent :=
  match raw, renter with
  | some port, some r => ⟨token, .raw port, r, payload⟩
  | _, _ => ⟨token, .main, b, payload⟩

theorem Established.serve_packet (hw : rs.Wf) (h : Established token p a b raw renter rs sess)
    (hab : a ≠ b) (hu : rs.Unambiguous token) {payload : List UInt8}
    (hlen : payload.length ≤ maxPayload) (order order' : Order String) (now : Int) :
    (rs.serve order order' now b (header (tokenID token) ++ payload)).2 =
        [⟨token, .main, a, payload⟩] ∧
      (rs.serve order order' now a (header (tokenID token) ++ payload)).2 =
        [renterSide token payload b raw renter] := by
  have hdata : payload.length ≤ maxDatagram := le_trans hlen (Nat.sub_le _ _)
  rw [hw.serve_packet h.lookup h.heap hu hlen, hw.serve_packet h.lookup h.heap hu hlen]
  constructor
  · have hroute : (sess.slowRoute now b).2 = .main a := by
      simp [RelaySession.slowRoute, h.peerA, h.peerB, hab.symm]
    rw [hroute]
    exact writeToUDP_of_le hdata
  · have hroute : (sess.slowRoute now a).2 = sess.renterRoute := by
      simp [RelaySession.slowRoute, h.peerA]
    rw [hroute]
    unfold RelaySession.renterRoute renterSide
    rw [h.rawConn, h.renterAddr, h.peerB]
    cases raw with
    | none => exact writeToUDP_of_le hdata
    | some port =>
      cases renter with
      | none => exact writeToUDP_of_le hdata
      | some r =>
        obtain ⟨s, hs, -, -, hopen⟩ := hw.session h.lookup
        rw [h.heap] at hs
        cases hs
        simp only [forward, if_pos (hopen port h.rawConn).2]
        exact writeToUDP_of_le hdata

end

/-- Once both peers of a session are assigned, and for as long as the session is neither removed
nor registered again, a packet of the second peer goes to the first, and one of the first peer
goes to the second unless a datagram has come in on the session's raw port: then it goes to the
sender of the last of those. -/
theorem established_forwards (token addr : String) {before later : List Event}
    {rs rs' : RelayServer} {p : Nat} {sess : RelaySession} {a b : UDPAddr}
    (hbefore : Step.run RelayServer.next before (newRelayServer addr) = some rs)
    (hp : rs.sessions.lookup token = some p) (hsess : rs.heap[p]? = some sess)
    (ha : sess.peerA = some a) (hb : sess.peerB = some b) (hab : a ≠ b)
    (hkeep : Step.Along RelayServer.next (Keeps token) later rs)
    (hlater : Step.run RelayServer.next later rs = some rs') (hu : rs'.Unambiguous token)
    (payload : List UInt8) (hlen : payload.length ≤ maxPayload) (order order' : Order String)
    (now : Int) :
    (rs'.serve order order' now b (header (tokenID token) ++ payload)).2 =
        [⟨token, .main, a, payload⟩] ∧
      (rs'.serve order order' now a (header (tokenID token) ++ payload)).2 =
        [renterSide token payload b sess.rawConn
          (later.foldl (rawSender sess.rawConn) sess.renterAddr)] := by
  have hw := (newRelayServer_wf addr).run hbefore
  have h : Established token p a b sess.rawConn sess.renterAddr rs sess :=
    ⟨hp, hsess, ha, hb, rfl, rfl⟩
  obtain ⟨sess', h'⟩ := h.run hw hkeep hlater
  exact h'.serve_packet (hw.run hlater) hab hu hlen order order' now

/-- A session `"t"` between two relay clients. -/
def twoPeersEvents : List Event :=
  [.register "t" "session1" 0 true,
   .main 1 ⟨"provider"⟩ (header (tokenID "t")) Order.id Order.id,
   .main 2 ⟨"renter"⟩ (header (tokenID "t")) Order.id Order.id]

def strayDatagram : Event := .raw (rawPortForToken "t") 3 ⟨"stranger"⟩ [7]

theorem established_forwards_stray :
    ∃ rs rs', Step.run RelayServer.next twoPeersEvents (newRelayServer "") = some rs ∧
      Step.run RelayServer.next [strayDatagram] rs = some rs' ∧
      (rs'.serve Order.id Order.id 4 ⟨"renter"⟩ (header (tokenID "t") ++ [1])).2 =
        [⟨"t", .main, ⟨"provider"⟩, [1]⟩] ∧
      (rs'.serve Order.id Order.id 4 ⟨"provider"⟩ (header (tokenID "t") ++ [1])).2 =
        [⟨"t", .raw (rawPortForToken "t"), ⟨"stranger"⟩, [1]⟩] := by
  have hview : (Step.run RelayServer.next twoPeersEvents (newRelayServer "")).map (fun rs =>
      (rs.sessions.lookup "t", rs.heap)) = some (some 0,
        [{ sessionID := "session1", token := "t", tokenID := tokenID "t"
           peerA := some ⟨"provider"⟩, peerB := some ⟨"renter"⟩
           rawConn := some (rawPortForToken "t"), created := 0, lastActive := 2 }]) := by
    decide +kernel
  have hview' : (Step.run RelayServer.next (twoPeersEvents ++ [strayDatagram])
      (newRelayServer "")).map (fun rs => (rs.sessions.lookup "t", rs.sessions.keys)) =
        some (some 0, ["t"]) := by
    decide +kernel
  obtain ⟨rs', hrun, hrs'⟩ := Option.map_eq_some_iff.mp hview'
  obtain ⟨rs, hbefore, hlater⟩ := Step.run_append.mp hrun
  rw [hbefore, Option.map_some, Option.some.injEq, Prod.mk.injEq] at hview
  obtain ⟨hlook, hheap⟩ := hview
  obtain ⟨hlook', hkeys⟩ := Prod.mk.inj hrs'
  have hkeep : Step.Along RelayServer.next (Keeps "t") [strayDatagram] rs := by
    refine ⟨fun t ht => ?_, fun _ _ => trivial⟩
    rw [Step.run, ht] at hlater
    cases hlater
    rw [hlook, hlook']
  have hu : rs'.Unambiguous "t" := by
    intro token' p hp _
    have hmem := Map.mem_keys_iff.mpr ⟨p, hp⟩
    rw [hkeys] at hmem
    exact List.mem_singleton.mp hmem
  have h := established_forwards "t" "" hbefore hlook (by rw [hheap]; rfl) rfl rfl (by decide)
    hkeep hlater hu [1] (by decide) Order.id Order.id 4
  refine ⟨rs, rs', hbefore, hlater, h.1, h.2.trans ?_⟩
  simp [strayDatagram, rawSender, renterSide]

/-- A stray datagram on the raw port diverts an established path: the provider's packet goes to
the stranger and not to the second peer. -/
theorem stray_datagram_diverts :
    (Step.run RelayServer.next (twoPeersEvents ++ [strayDatagram]) (newRelayServer "")).map
      (fun rs => (rs.serve Order.id Order.id 4 ⟨"provider"⟩ (header (tokenID "t") ++ [1])).2) =
    some [⟨"t", .raw (rawPortForToken "t"), ⟨"stranger"⟩, [1]⟩] := by
  decide +kernel

end RelayServer

end PeerCompute.Relay
