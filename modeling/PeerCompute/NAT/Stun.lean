import PeerCompute.Data.Buffer
import PeerCompute.Relay.Server

/-! The STUN-like exchange by which a peer learns its public address. -/

namespace PeerCompute.NAT

open PeerCompute.Data

/-- `"PCST"`. -/
def stunRequestMagic : List UInt8 := [0x50, 0x43, 0x53, 0x54]

/-- `"PCSR"`. -/
def stunResponseMagic : List UInt8 := [0x50, 0x43, 0x53, 0x52]

/-- The size of both sides' buffers. -/
def stunBufferLen : Nat := 256

structure TxnID where
  bytes : List UInt8
  length_eq : bytes.length = 8

/-- Magic (4 bytes) and transaction ID (8 bytes). -/
def stunRequest (txnID : TxnID) : List UInt8 := stunRequestMagic ++ txnID.bytes

/-- What the network answers to the calls of `DiscoverEndpoint`. -/
structure StunEnv where
  resolveUDPAddr : String → Except String Relay.UDPAddr
  listenUDP : Int → Except String Unit
  writeToUDP : List UInt8 → Relay.UDPAddr → Except String Unit
  /-- The first datagram that arrives, from whomever. -/
  readFromUDP : Except String (List UInt8)

/-- Some byte of the response's transaction ID differs. -/
def txnIDDiffers (resp : List UInt8) (txnID : TxnID) : Bool :=
  (List.range 8).any (fun i => resp[4 + i]? != txnID.bytes[i]?)

/-- `buf[:n]` after a read into a new buffer. -/
def received (data : List UInt8) : List UInt8 :=
  let x := readInto (List.replicate stunBufferLen 0) data
  x.2.take x.1

/-- What `DiscoverEndpoint` makes of the datagram that arrives. -/
def checkResponse (txnID : TxnID) (data : List UInt8) : Except String (List UInt8) :=
  let resp := received data
  if resp.length < 12 ∨ resp.take 4 ≠ stunResponseMagic then .error "invalid stun response"
  else if txnIDDiffers resp txnID then .error "stun txn ID mismatch"
  else .ok (resp.drop 12)

/-- The context has a deadline or gets one, so that the read ends. -/
def discoverEndpoint (net : StunEnv) (txnID : TxnID) (stunAddr : String) (localPort : Int) :
    Except String (List UInt8) :=
  match net.resolveUDPAddr stunAddr with
  | .error e => .error ("resolve stun addr: " ++ e)
  | .ok raddr => match net.listenUDP localPort with
    | .error e => .error ("bind udp :" ++ toString localPort ++ ": " ++ e)
    | .ok () => match net.writeToUDP (stunRequest txnID) raddr with
      | .error e => .error ("send stun request: " ++ e)
      | .ok () => match net.readFromUDP with
        | .error e => .error ("read stun response: " ++ e)
        | .ok data => checkResponse txnID data

/-- The request has been sent. -/
def StunEnv.Requests (net : StunEnv) (txnID : TxnID) (stunAddr : String) (localPort : Int) : Prop :=
  ∃ raddr, net.resolveUDPAddr stunAddr = .ok raddr ∧ net.listenUDP localPort = .ok () ∧
    net.writeToUDP (stunRequest txnID) raddr = .ok ()

/-- `raddr.String()` as bytes. -/
def addrBytes (raddr : Relay.UDPAddr) : List UInt8 := raddr.string.toUTF8.toList

/-- The loop of `RunSTUNServer`, whose buffer keeps what earlier datagrams have left in it. -/
structure StunServer where
  buf : List UInt8
  length_eq : buf.length = stunBufferLen

inductive StunRead
  | datagram (raddr : Relay.UDPAddr) (data : List UInt8)
  | failed

structure Reply where
  dst : Relay.UDPAddr
  data : List UInt8

namespace StunServer

def new : StunServer := ⟨List.replicate stunBufferLen 0, List.length_replicate⟩

def read (s : StunServer) (data : List UInt8) : StunServer :=
  ⟨(readInto s.buf data).2, (length_readInto s.buf data).trans s.length_eq⟩

/-- Magic (4 bytes), transaction ID (8 bytes) and the observed address, if there are `n` bytes of a
request in the buffer. -/
def response (s : StunServer) (n : Nat) (raddr : Relay.UDPAddr) : List Reply :=
  if n < 12 ∨ s.buf.take 4 ≠ stunRequestMagic then []
  else
    let txnID := (s.buf.drop 4).take 8
    [⟨raddr, stunResponseMagic ++ txnID ++ addrBytes raddr⟩]

/-- One round of the loop. -/
def serve (s : StunServer) : StunRead → StunServer × List Reply
  | .datagram raddr data =>
    let n := (readInto s.buf data).1
    (s.read data, (s.read data).response n raddr)
  | .failed => (s, [])

/-- The replies to a sequence of reads. -/
def run (s : StunServer) : List StunRead → List Reply
  | [] => []
  | r :: rs => (s.serve r).2 ++ (s.serve r).1.run rs

end StunServer

/-! ## What is accepted -/

theorem append_of_take {α : Type} {l a b : List α} (h : l.take a.length = a)
    (h' : (l.drop a.length).take b.length = b) : l = a ++ b ++ l.drop (a.length + b.length) := by
  conv_lhs => rw [← List.take_append_drop a.length l, h,
    ← List.take_append_drop b.length (l.drop a.length), h', List.drop_drop]
  rw [List.append_assoc]

theorem txnIDDiffers_eq_false {resp : List UInt8} {txnID : TxnID} :
    txnIDDiffers resp txnID = false ↔ (resp.drop 4).take 8 = txnID.bytes := by
  simp only [txnIDDiffers, List.any_eq_false, List.mem_range, bne_iff_ne, ne_eq, Decidable.not_not]
  constructor
  · intro hall
    refine List.ext_getElem? (fun i => ?_)
    by_cases hi : i < 8
    · rw [List.getElem?_take_of_lt hi, List.getElem?_drop]
      exact hall i hi
    · rw [List.getElem?_eq_none (by rw [List.length_take]; omega),
        List.getElem?_eq_none (by rw [txnID.length_eq]; omega)]
  · intro heq i hi
    rw [← heq, List.getElem?_take_of_lt hi, List.getElem?_drop]

theorem received_eq (data : List UInt8) : received data = data.take stunBufferLen := by
  rw [received, take_readInto_self, List.length_replicate]

theorem checkResponse_eq_ok {txnID : TxnID} {data addr : List UInt8} :
    checkResponse txnID data = .ok addr ↔
      data.take stunBufferLen = stunResponseMagic ++ txnID.bytes ++ addr := by
  have hmagic : stunResponseMagic.length = 4 := rfl
  have htxn := txnID.length_eq
  simp only [checkResponse, received_eq]
  constructor
  · intro h
    split at h
    · cases h
    next hhead =>
      push Not at hhead
      split at h
      · cases h
      next hdiffers =>
        cases h
        have hid := txnIDDiffers_eq_false.mp (eq_false_of_ne_true hdiffers)
        have happend := append_of_take (a := stunResponseMagic) (b := txnID.bytes) hhead.2
          (by rw [htxn]; exact hid)
        rwa [hmagic, htxn] at happend
  · intro h
    have hlength : 12 ≤ (stunResponseMagic ++ txnID.bytes ++ addr).length := by
      simp only [List.length_append, hmagic, htxn]
      omega
    have hhead : (stunResponseMagic ++ txnID.bytes ++ addr).take 4 = stunResponseMagic := by
      rw [List.append_assoc, List.take_left' hmagic]
    have hid : ((stunResponseMagic ++ txnID.bytes ++ addr).drop 4).take 8 = txnID.bytes := by
      rw [List.append_assoc, List.drop_left' hmagic, List.take_left' htxn]
    rw [h, if_neg (by rw [hhead]; simp only [ne_eq, not_true, or_false]; omega),
      txnIDDiffers_eq_false.mpr hid, if_neg Bool.false_ne_true,
      List.drop_left' (by rw [List.length_append, hmagic, htxn])]

/-! ## What is answered -/

theorem take_read {s : StunServer} {data : List UInt8} {k : Nat} (hk : k ≤ data.length)
    (hk' : k ≤ stunBufferLen) : (s.read data).buf.take k = data.take k :=
  take_readInto (le_min hk (s.length_eq ▸ hk'))

/-- What the server replies to a read: a request has its magic and at least 12 bytes. -/
def StunRead.replies : StunRead → List Reply
  | .datagram raddr data =>
    if stunRequestMagic <+: data ∧ 12 ≤ data.length then
      [⟨raddr, stunResponseMagic ++ (data.drop 4).take 8 ++ addrBytes raddr⟩]
    else []
  | .failed => []

/-- Whatever earlier datagrams have left in the buffer, the reply is made of the last one. -/
theorem serve_eq_replies (s : StunServer) (r : StunRead) : (s.serve r).2 = r.replies := by
  cases r with
  | failed => rfl
  | datagram raddr data =>
    have hn : (readInto s.buf data).1 = min data.length stunBufferLen := by
      rw [← s.length_eq]
      rfl
    simp only [StunServer.serve, StunServer.response, StunRead.replies, hn]
    by_cases hlength : 12 ≤ data.length
    · have hfour : (s.read data).buf.take 4 = data.take 4 := take_read (by omega) (by decide)
      have hid : ((s.read data).buf.drop 4).take 8 = (data.drop 4).take 8 := by
        have htwelve := congrArg (List.drop 4) (take_read (s := s) hlength (by decide))
        rwa [List.drop_take, List.drop_take] at htwelve
      have hmin : ¬min data.length stunBufferLen < 12 := by
        simp only [stunBufferLen]
        omega
      rw [hfour, hid]
      simp only [hmin, false_or, hlength, and_true, List.prefix_iff_eq_take, ne_eq, ite_not]
      exact if_congr eq_comm rfl rfl
    · have hmin : min data.length stunBufferLen < 12 := by omega
      rw [if_pos (.inl hmin), if_neg (fun h => hlength h.2)]

theorem run_eq_flatMap (s : StunServer) (reads : List StunRead) :
    s.run reads = reads.flatMap StunRead.replies := by
  induction reads generalizing s with
  | nil => rfl
  | cons r reads ih => rw [StunServer.run, serve_eq_replies, ih, List.flatMap_cons]

theorem discoverEndpoint_eq_ok {net : StunEnv} {txnID : TxnID} {stunAddr : String}
    {localPort : Int} {addr : List UInt8} :
    discoverEndpoint net txnID stunAddr localPort = .ok addr ↔
      net.Requests txnID stunAddr localPort ∧ ∃ data, net.readFromUDP = .ok data ∧
        data.take stunBufferLen = stunResponseMagic ++ txnID.bytes ++ addr := by
  simp only [discoverEndpoint, StunEnv.Requests]
  cases net.resolveUDPAddr stunAddr with
  | error e => simp
  | ok raddr => cases net.listenUDP localPort with
    | error e => simp
    | ok _ => cases hwrite : net.writeToUDP (stunRequest txnID) raddr with
      | error e => simp [hwrite]
      | ok _ => cases net.readFromUDP with
        | error e => simp [hwrite]
        | ok data => simp [hwrite, checkResponse_eq_ok]

/-- Of the datagrams that a server reads, the requests are answered and nothing else.  The answer to
a peer's request is accepted and tells it the observed address; besides, the peer accepts whatever
has the magic and its transaction ID. -/
theorem stun_codec (txnID : TxnID) (s : StunServer) (reads : List StunRead) :
    s.run reads = reads.flatMap StunRead.replies ∧
    (∀ raddr, (addrBytes raddr).length ≤ 244 → ∃ resp,
      s.run (reads ++ [.datagram raddr (stunRequest txnID)]) = s.run reads ++ [⟨raddr, resp⟩] ∧
      ∀ (net : StunEnv) stunAddr localPort, net.Requests txnID stunAddr localPort →
        net.readFromUDP = .ok resp →
        discoverEndpoint net txnID stunAddr localPort = .ok (addrBytes raddr)) ∧
    ∀ (net : StunEnv) stunAddr localPort addr,
      discoverEndpoint net txnID stunAddr localPort = .ok addr ↔
        net.Requests txnID stunAddr localPort ∧ ∃ data, net.readFromUDP = .ok data ∧
          data.take stunBufferLen = stunResponseMagic ++ txnID.bytes ++ addr := by
  have hmagic : stunRequestMagic.length = 4 := rfl
  have htxn := txnID.length_eq
  refine ⟨run_eq_flatMap s reads, fun raddr haddr => ?_, fun _ _ _ _ => discoverEndpoint_eq_ok⟩
  have hreplies : (StunRead.datagram raddr (stunRequest txnID)).replies =
      [⟨raddr, stunResponseMagic ++ txnID.bytes ++ addrBytes raddr⟩] := by
    rw [StunRead.replies, stunRequest, if_pos ⟨List.prefix_append _ _, by simp [hmagic, htxn]⟩,
      List.drop_left' hmagic, List.take_of_length_le (by omega)]
  refine ⟨stunResponseMagic ++ txnID.bytes ++ addrBytes raddr, ?_, fun net stunAddr localPort hnet
    hread => discoverEndpoint_eq_ok.mpr ⟨hnet, _, hread, ?_⟩⟩
  · rw [run_eq_flatMap, run_eq_flatMap, List.flatMap_append, List.flatMap_singleton, hreplies]
  · rw [List.take_of_length_le]
    simp only [List.length_append, htxn, stunBufferLen, stunResponseMagic, List.length_cons,
      List.length_nil]
    omega

end PeerCompute.NAT
