import PeerCompute.Relay.Forwarding

namespace PeerCompute.Relay

open PeerCompute.Data PeerCompute.Interleaving

/-- A running relay client.  `wgPeer` is where WireGuard was last heard from. -/
structure RelayClient where
  relayAddr : UDPAddr
  tokenID : List UInt8
  proxyPort : Nat
  wgPort : Nat
  wgPeer : Option UDPAddr := none

def newRelayClient (relayAddr : UDPAddr) (token : String) (proxyPort wgPort : Nat) : RelayClient :=
  { relayAddr := relayAddr, tokenID := tokenID token, proxyPort := proxyPort, wgPort := wgPort }

/-- What leaves a socket for one write of `data`. -/
def writeDatagram (data : List UInt8) : List (List UInt8) :=
  if data.length ≤ maxDatagram then [data] else []

namespace RelayClient

/-- WireGuard to relay: one datagram read from the proxy socket. -/
def outbound (rc : RelayClient) (raddr : UDPAddr) (data : List UInt8) :
    RelayClient × List (List UInt8) :=
  ({ rc with wgPeer := some raddr }, writeDatagram (header rc.tokenID ++ data.take 65536))

/-- Relay to WireGuard: one datagram read from the relay connection. -/
def inbound (rc : RelayClient) (data : List UInt8) : List (List UInt8) :=
  match rc.wgPeer with
  | none => []
  | some _ => writeDatagram (data.take 65536)

end RelayClient

/-- How the renter reaches the relay: through a relay client of its own, or with plain WireGuard
on the session's raw port. -/
inductive Path
  | client
  | raw
  deriving DecidableEq

inductive Direction
  | toProvider
  | toRenter
  deriving DecidableEq

/-- The two ends of a session: clients that were given its token, with the addresses the relay knows
their sockets by. -/
structure Ends (token : String) where
  provider : RelayClient
  renter : RelayClient
  provider_tokenID : provider.tokenID = tokenID token
  renter_tokenID : renter.tokenID = tokenID token
  providerAddr : UDPAddr
  renterAddr : UDPAddr
  addr_ne : renterAddr ≠ providerAddr
  /-- Where a renter without a relay client sends from. -/
  rawAddr : UDPAddr

/-- The socket a packet leaves through, and where it goes. -/
def Route.target : Route → Option (Socket × UDPAddr)
  | .none => Option.none
  | .main target => some (.main, target)
  | .raw port dst => some (.raw port, dst)

/-- What arrives at `addr` from the relay's socket `socket`. -/
def received (socket : Socket) (addr : UDPAddr) (out : List Sent) : List (List UInt8) :=
  (out.filter (fun sent => sent.socket = socket ∧ sent.dst = addr)).map Sent.data

namespace RelayServer

/-- What the WireGuard at the far end is handed when the one at the near end sends `payload`. -/
def delivered {token : String} (rs : RelayServer) (E : Ends token) (order order' : Order String)
    (now : Int) (wg : UDPAddr) (payload : List UInt8) : Path → Direction → List (List UInt8)
  | .client, .toProvider =>
    (E.renter.outbound wg payload).2.flatMap (fun pkt =>
      (received .main E.providerAddr (rs.serve order order' now E.renterAddr pkt).2).flatMap
        E.provider.inbound)
  | .raw, .toProvider =>
    match rs.step (.raw (rawPortForToken token) now E.rawAddr payload) with
    | none => []
    | some x => (received .main E.providerAddr x.2).flatMap E.provider.inbound
  | .client, .toRenter =>
    (E.provider.outbound wg payload).2.flatMap (fun pkt =>
      (received .main E.renterAddr (rs.serve order order' now E.providerAddr pkt).2).flatMap
        E.renter.inbound)
  | .raw, .toRenter =>
    (E.provider.outbound wg payload).2.flatMap (fun pkt =>
      received (.raw (rawPortForToken token)) E.rawAddr
        (rs.serve order order' now E.providerAddr pkt).2)

/-- The session at `p` has its provider connected: the first peer is the provider's client. -/
structure ProviderJoined {token : String} (rs : RelayServer) (E : Ends token) (p : Nat)
    (sess : RelaySession) : Prop where
  lookup : rs.sessions.lookup token = some p
  heap : rs.heap[p]? = some sess
  unambiguous : rs.Unambiguous token
  peerA : sess.peerA = some E.providerAddr
  wgPeer : E.provider.wgPeer ≠ none

/-- The renter is the session's other party on this path: the one whose packets the relay takes,
or the one it would answer. -/
def RenterJoined {token : String} (E : Ends token) (sess : RelaySession) : Path → Direction → Prop
  | .client, .toProvider =>
    sess.peerB = some E.renterAddr ∨ sess.peerB = none ∧ sess.renterAddr = none
  | .raw, .toProvider => sess.rawConn ≠ none
  | .client, .toRenter => E.renter.wgPeer ≠ none ∧ sess.peerB = some E.renterAddr ∧
    (sess.rawConn = none ∨ sess.renterAddr = none)
  | .raw, .toRenter => sess.rawConn ≠ none ∧ sess.renterAddr = some E.rawAddr

end RelayServer

theorem writeDatagram_of_le {data : List UInt8} (h : data.length ≤ maxDatagram) :
    writeDatagram data = [data] := if_pos h

theorem take_of_le_maxDatagram {data : List UInt8} (h : data.length ≤ maxDatagram) :
    data.take 65536 = data :=
  List.take_of_length_le (le_trans h (by decide))

theorem length_header_append (token : String) {payload : List UInt8}
    (h : payload.length ≤ maxPayload) :
    (header (tokenID token) ++ payload).length ≤ maxDatagram := by
  simp only [maxPayload, maxDatagram, headerLen, magicLen, tokenIDLen] at h ⊢
  simp [header, relayMagic, tokenIDLen]
  omega

theorem outbound_of_le {rc : RelayClient} {token : String}
    (hid : rc.tokenID = tokenID token) (wg : UDPAddr) {payload : List UInt8}
    (h : payload.length ≤ maxPayload) :
    (rc.outbound wg payload).2 = [header (tokenID token) ++ payload] := by
  simp only [RelayClient.outbound, hid, take_of_le_maxDatagram (le_trans h (Nat.sub_le _ _)),
    writeDatagram_of_le (length_header_append token h)]

/-- The client hands WireGuard what the relay sent it, byte for byte. -/
theorem inbound_of_le {rc : RelayClient} (hwg : rc.wgPeer ≠ none) {data : List UInt8}
    (h : data.length ≤ maxDatagram) : rc.inbound data = [data] := by
  unfold RelayClient.inbound
  split
  next hnone => exact absurd hnone hwg
  next =>
    rw [take_of_le_maxDatagram h]
    exact writeDatagram_of_le h

theorem eq_of_mem_inbound {rc : RelayClient} {data data' : List UInt8}
    (h : data.length ≤ maxDatagram) (hmem : data' ∈ rc.inbound data) : data' = data := by
  by_cases hwg : rc.wgPeer = none
  · simp [RelayClient.inbound, hwg] at hmem
  · rw [inbound_of_le hwg h] at hmem
    exact List.mem_singleton.mp hmem

theorem mem_received {socket : Socket} {addr : UDPAddr} {out : List Sent} {data : List UInt8} :
    data ∈ received socket addr out ↔
      ∃ sent ∈ out, sent.socket = socket ∧ sent.dst = addr ∧ sent.data = data := by
  simp [received, and_assoc]

theorem received_singleton (token : String) (socket socket' : Socket) (addr addr' : UDPAddr)
    (data : List UInt8) :
    received socket addr [⟨token, socket', addr', data⟩] =
      if socket' = socket ∧ addr' = addr then [data] else [] := by
  unfold received
  split
  next h => simp [h]
  next h => simp [h]

namespace RelayServer

section

variable {rs : RelayServer} {token : String} {E : Ends token} {p : Nat} {sess : RelaySession}
  {order order' : Order String} {now : Int} {wg : UDPAddr} {payload : List UInt8}

/-! ## What is handed over -/

theorem data_of_mem_writeToUDP {socket : Socket} {data : List UInt8} {dst : UDPAddr} {sent : Sent}
    (h : sent ∈ writeToUDP token socket data dst) :
    sent.data = data ∧ data.length ≤ maxDatagram := by
  unfold writeToUDP at h
  split at h
  next hle =>
    rw [List.mem_singleton.mp h]
    exact ⟨rfl, hle⟩
  next => cases h

theorem data_of_mem_forward {route : Route} {sent : Sent}
    (h : sent ∈ rs.forward p token payload route) : sent.data = payload := by
  cases route with
  | none => cases h
  | main target => exact (data_of_mem_writeToUDP h).1
  | raw port dst =>
    simp only [forward] at h
    split at h
    · exact (data_of_mem_writeToUDP h).1
    · cases h

/-- The main loop forwards what follows the header, whichever session it finds. -/
theorem data_of_mem_serve (hlen : payload.length ≤ maxPayload) {raddr : UDPAddr} {sent : Sent}
    (h : sent ∈ (rs.serve order order' now raddr (header (tokenID token) ++ payload)).2) :
    sent.data = payload := by
  rw [serve_packet rs order order' now raddr token hlen] at h
  cases hfast : rs.serveFast order now raddr (tokenID token) payload with
  | some x =>
    rw [hfast, Option.getD_some] at h
    unfold serveFast at hfast
    split at hfast
    · cases hfast
      cases h
    · split at hfast
      · cases hfast
      · cases hfast
        exact data_of_mem_forward h
  | none =>
    rw [hfast, Option.getD_none] at h
    unfold serveSlow at h
    split at h
    · cases h
    · exact data_of_mem_forward h

theorem ne_of_header_append (id data : List UInt8) : header id ++ data ≠ data := by
  intro h
  have hl := congrArg List.length h
  simp only [header, relayMagic, List.length_append, List.length_cons] at hl
  omega

/-- A raw datagram goes to the provider with a header in front. -/
theorem data_of_mem_serveRaw (hlen : payload.length ≤ maxPayload) {raddr : UDPAddr} {sent : Sent}
    (h : sent ∈ (rs.serveRaw p now raddr payload).2) :
    sent.data ≠ payload ∧ sent.data.length ≤ maxDatagram := by
  unfold serveRaw at h
  split at h
  · cases h
  · dsimp only at h
    split at h
    · cases h
    · obtain ⟨hdata, hle⟩ := data_of_mem_writeToUDP h
      rw [take_of_le_maxDatagram (le_trans hlen (Nat.sub_le _ _))] at hdata hle
      rw [hdata]
      exact ⟨ne_of_header_append _ _, hle⟩

/-- Whatever the relay's state is, what is handed over is what was sent, unless it comes from a
renter without a relay client. -/
theorem mem_delivered (hlen : payload.length ≤ maxPayload) {path : Path} {dir : Direction}
    {data : List UInt8} (h : data ∈ rs.delivered E order order' now wg payload path dir) :
    data = payload ↔ ¬(path = .raw ∧ dir = .toProvider) := by
  have hdata : payload.length ≤ maxDatagram := le_trans hlen (Nat.sub_le _ _)
  -- the two ends' packets carry this session's header
  have hrelayed : ∀ {rc : RelayClient} {raddr : UDPAddr} {socket : Socket} {addr : UDPAddr}
      {data : List UInt8}, rc.tokenID = tokenID token → ∀ {pkt}, pkt ∈ (rc.outbound wg payload).2 →
      data ∈ received socket addr (rs.serve order order' now raddr pkt).2 → data = payload := by
    intro rc raddr socket addr data hid pkt hpkt hmem
    rw [outbound_of_le hid wg hlen] at hpkt
    obtain rfl := List.mem_singleton.mp hpkt
    obtain ⟨sent, hsent, -, -, rfl⟩ := mem_received.mp hmem
    exact data_of_mem_serve hlen hsent
  cases path with
  | client => cases dir with
    | toProvider =>
      obtain ⟨pkt, hpkt, hmem⟩ := List.mem_flatMap.mp h
      obtain ⟨data', hdata', hmem⟩ := List.mem_flatMap.mp hmem
      obtain rfl := hrelayed E.renter_tokenID hpkt hdata'
      simp [eq_of_mem_inbound hdata hmem]
    | toRenter =>
      obtain ⟨pkt, hpkt, hmem⟩ := List.mem_flatMap.mp h
      obtain ⟨data', hdata', hmem⟩ := List.mem_flatMap.mp hmem
      obtain rfl := hrelayed E.provider_tokenID hpkt hdata'
      simp [eq_of_mem_inbound hdata hmem]
  | raw => cases dir with
    | toProvider =>
      simp only [delivered, step] at h
      split at h
      · cases h
      next x hx =>
        obtain ⟨data', hdata', hmem⟩ := List.mem_flatMap.mp h
        obtain ⟨sent, hsent, -, -, rfl⟩ := mem_received.mp hdata'
        split at hx
        · cases hx
          cases hsent
        · cases hx
          obtain ⟨hne, hle⟩ := data_of_mem_serveRaw hlen hsent
          rw [eq_of_mem_inbound hle hmem]
          simp [hne]
    | toRenter =>
      obtain ⟨pkt, hpkt, hmem⟩ := List.mem_flatMap.mp h
      simp [hrelayed E.provider_tokenID hpkt hmem]

/-! ## When it is handed over -/

theorem ProviderJoined.rawConn (hw : rs.Wf) (h : rs.ProviderJoined E p sess) {port : Nat}
    (hport : sess.rawConn = some port) : port = rawPortForToken token ∧ p ∈ rs.listeners := by
  obtain ⟨s, hs, -, -, hopen⟩ := hw.session h.lookup
  rw [h.heap] at hs
  cases hs
  exact hopen port hport

theorem ProviderJoined.open_of_raw (hw : rs.Wf) (h : rs.ProviderJoined E p sess) {raddr dst : UDPAddr}
    {port : Nat} (hroute : (sess.slowRoute now raddr).2 = .raw port dst) : p ∈ rs.listeners := by
  have hrenter : sess.renterRoute = .raw port dst := by
    simp only [RelaySession.slowRoute, h.peerA] at hroute
    split at hroute
    · cases hroute
    split at hroute
    · exact hroute
    split at hroute
    · cases hroute
    · cases hroute
  unfold RelaySession.renterRoute at hrenter
  split at hrenter
  next port' dst' hport _ => exact (h.rawConn hw hport).2
  next =>
    split at hrenter
    · cases hrenter
    · cases hrenter

/-- A packet with the session's header arrives where its route leads. -/
theorem ProviderJoined.received_serve (hw : rs.Wf) (h : rs.ProviderJoined E p sess)
    (hlen : payload.length ≤ maxPayload) (raddr : UDPAddr) (socket : Socket) (addr : UDPAddr) :
    received socket addr (rs.serve order order' now raddr (header (tokenID token) ++ payload)).2 =
      if (sess.slowRoute now raddr).2.target = some (socket, addr) then [payload] else [] := by
  have hdata : payload.length ≤ maxDatagram := le_trans hlen (Nat.sub_le _ _)
  rw [hw.serve_packet h.lookup h.heap h.unambiguous hlen]
  cases hroute : (sess.slowRoute now raddr).2 with
  | none => rfl
  | main target =>
    rw [forward, writeToUDP_of_le hdata, received_singleton]
    simp [Route.target]
  | raw port dst =>
    rw [forward, if_pos (h.open_of_raw hw hroute), writeToUDP_of_le hdata, received_singleton]
    simp [Route.target]

theorem delivered_client_toProvider (hw : rs.Wf) (h : rs.ProviderJoined E p sess)
    (hlen : payload.length ≤ maxPayload) :
    rs.delivered E order order' now wg payload .client .toProvider = [payload] ↔
      RenterJoined E sess .client .toProvider := by
  have hdata : payload.length ≤ maxDatagram := le_trans hlen (Nat.sub_le _ _)
  have hroute : (sess.slowRoute now E.renterAddr).2.target = some (.main, E.providerAddr) ↔
      RenterJoined E sess .client .toProvider := by
    simp only [RelaySession.slowRoute, h.peerA, RenterJoined, ne_eq, E.addr_ne, not_false_eq_true,
      and_true, if_false]
    split
    next hfirst => simp [Route.target, hfirst]
    next hfirst =>
      by_cases hB : sess.peerB = some E.renterAddr
      · simp [Route.target, hB]
      · simp [Route.target, hB, hfirst]
  rw [delivered, outbound_of_le E.renter_tokenID wg hlen, List.flatMap_singleton,
    h.received_serve hw hlen, ← hroute]
  split
  next hto => simp [hto, inbound_of_le h.wgPeer hdata]
  next hto => simp [hto]

theorem slowRoute_provider (h : rs.ProviderJoined E p sess) :
    (sess.slowRoute now E.providerAddr).2 = sess.renterRoute := by
  simp [RelaySession.slowRoute, h.peerA]

theorem target_renterRoute_main {sess : RelaySession} {addr : UDPAddr} :
    sess.renterRoute.target = some (.main, addr) ↔
      sess.peerB = some addr ∧ (sess.rawConn = none ∨ sess.renterAddr = none) := by
  unfold RelaySession.renterRoute
  cases sess.rawConn <;> cases sess.renterAddr <;> cases sess.peerB <;> simp [Route.target]

theorem target_renterRoute_raw {sess : RelaySession} {port : Nat} {addr : UDPAddr} :
    sess.renterRoute.target = some (.raw port, addr) ↔
      sess.rawConn = some port ∧ sess.renterAddr = some addr := by
  unfold RelaySession.renterRoute
  cases sess.rawConn <;> cases sess.renterAddr <;> cases sess.peerB <;> simp [Route.target]

theorem delivered_client_toRenter (hw : rs.Wf) (h : rs.ProviderJoined E p sess)
    (hlen : payload.length ≤ maxPayload) :
    rs.delivered E order order' now wg payload .client .toRenter = [payload] ↔
      RenterJoined E sess .client .toRenter := by
  have hdata : payload.length ≤ maxDatagram := le_trans hlen (Nat.sub_le _ _)
  rw [delivered, outbound_of_le E.provider_tokenID wg hlen, List.flatMap_singleton,
    h.received_serve hw hlen, slowRoute_provider h, RenterJoined, ← target_renterRoute_main]
  split
  next hto =>
    by_cases hwg : E.renter.wgPeer = none
    · simp [hwg, RelayClient.inbound]
    · simp [hto, hwg, inbound_of_le hwg hdata]
  next hto => simp [hto]

theorem delivered_raw_toRenter (hw : rs.Wf) (h : rs.ProviderJoined E p sess)
    (hlen : payload.length ≤ maxPayload) :
    rs.delivered E order order' now wg payload .raw .toRenter = [payload] ↔
      RenterJoined E sess .raw .toRenter := by
  have hport : sess.rawConn = some (rawPortForToken token) ↔ sess.rawConn ≠ none := by
    cases hraw : sess.rawConn with
    | none => simp
    | some port => simp [(h.rawConn hw hraw).1]
  rw [delivered, outbound_of_le E.provider_tokenID wg hlen, List.flatMap_singleton,
    h.received_serve hw hlen, slowRoute_provider h, RenterJoined, ← hport, ← target_renterRoute_raw]
  split
  next hto => simp [hto]
  next hto => simp [hto]

end

/-- Whatever is handed over is what was sent, on every path and in every direction except from a
renter without a relay client to the provider; and it is handed over exactly if the renter is the
session's other party on that path. -/
theorem delivered_eq_sent_iff (token addr : String) {before : List Event} {rs : RelayServer}
    (hbefore : Step.run RelayServer.next before (newRelayServer addr) = some rs) (E : Ends token)
    {p : Nat} {sess : RelaySession} (hprovider : rs.ProviderJoined E p sess) (path : Path)
    (dir : Direction) (order order' : Order String) (now : Int) (wg : UDPAddr)
    (payload : List UInt8) (hlen : payload.length ≤ maxPayload) :
    (rs.delivered E order order' now wg payload path dir = [payload] ↔
      RenterJoined E sess path dir ∧ ¬(path = .raw ∧ dir = .toProvider)) ∧
    ∀ data ∈ rs.delivered E order order' now wg payload path dir,
      (data = payload ↔ ¬(path = .raw ∧ dir = .toProvider)) := by
  have hw := (newRelayServer_wf addr).run hbefore
  refine ⟨?_, fun data hmem => mem_delivered hlen hmem⟩
  cases path with
  | client => cases dir with
    | toProvider => simp [delivered_client_toProvider hw hprovider hlen]
    | toRenter => simp [delivered_client_toRenter hw hprovider hlen]
  | raw => cases dir with
    | toProvider =>
      refine ⟨fun h => ?_, fun h => absurd ⟨rfl, rfl⟩ h.2⟩
      have hpayload : payload ∈ rs.delivered E order order' now wg payload .raw .toProvider := by
        rw [h]
        exact .head _
      exact absurd ⟨rfl, rfl⟩ ((mem_delivered hlen hpayload).mp rfl)
    | toRenter => simp [delivered_raw_toRenter hw hprovider hlen]

/-- The provider's client is connected and nothing has come from the renter yet. -/
def providerEvents : List Event :=
  [.register "t" "session1" 0 true,
   .main 1 ⟨"provider"⟩ (header (tokenID "t")) Order.id Order.id]

def someEnds : Ends "t" where
  provider := { newRelayClient ⟨"relay"⟩ "t" 51900 51820 with wgPeer := some ⟨"wg"⟩ }
  renter := newRelayClient ⟨"relay"⟩ "t" 51901 51821
  provider_tokenID := rfl
  renter_tokenID := rfl
  providerAddr := ⟨"provider"⟩
  renterAddr := ⟨"renter"⟩
  addr_ne := by decide
  rawAddr := ⟨"laptop"⟩

theorem delivered_eq_sent_first_packet :
    ∃ rs, Step.run RelayServer.next providerEvents (newRelayServer "") = some rs ∧
      rs.delivered someEnds Order.id Order.id 2 ⟨"wg"⟩ [1] .client .toProvider = [[1]] := by
  have hview : (Step.run RelayServer.next providerEvents (newRelayServer "")).map (fun rs =>
      (rs.sessions.lookup "t", rs.sessions.keys, rs.heap)) = some (some 0, ["t"],
        [{ sessionID := "session1", token := "t", tokenID := tokenID "t"
           peerA := some ⟨"provider"⟩, rawConn := some (rawPortForToken "t")
           created := 0, lastActive := 1 }]) := by
    decide +kernel
  obtain ⟨rs, hrun, hview⟩ := Option.map_eq_some_iff.mp hview
  simp only [Prod.mk.injEq] at hview
  obtain ⟨hlook, hkeys, hheap⟩ := hview
  have hu : rs.Unambiguous "t" := by
    intro token' p hp _
    have hmem := Map.mem_keys_iff.mpr ⟨p, hp⟩
    rw [hkeys] at hmem
    exact List.mem_singleton.mp hmem
  have hjoined := ProviderJoined.mk (E := someEnds) hlook (by rw [hheap]; rfl) hu rfl (by decide)
  exact ⟨rs, hrun, (delivered_eq_sent_iff "t" "" hrun someEnds hjoined .client .toProvider
    Order.id Order.id 2 ⟨"wg"⟩ [1] (by decide)).1.mpr ⟨.inr ⟨rfl, rfl⟩, by decide⟩⟩

/-- The one byte a plain WireGuard renter sends arrives with twenty bytes in front of it. -/
theorem raw_datagram_arrives_with_header :
    (Step.run RelayServer.next providerEvents (newRelayServer "")).map (fun rs =>
      rs.delivered someEnds Order.id Order.id 2 ⟨"wg"⟩ [1] .raw .toProvider) =
      some [header (tokenID "t") ++ [1]] ∧ header (tokenID "t") ++ [1] ≠ [1] := by
  decide +kernel

end RelayServer

end PeerCompute.Relay
