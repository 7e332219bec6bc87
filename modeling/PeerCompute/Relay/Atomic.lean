import PeerCompute.Interleaving.Commit
import PeerCompute.Relay.Routing

/-! The two lock sections of the main loop against a single one. -/

namespace PeerCompute.Relay

open PeerCompute.Data PeerCompute.Interleaving

/-- The relay without the times of the last activity. -/
def RelayServer.timeless (rs : RelayServer) : RelayServer :=
  { rs with heap := rs.heap.map (fun sess => { sess with lastActive := 0 }) }

theorem RelayServer.timeless_update (rs : RelayServer) (p : Nat) (sess : RelaySession)
    (active : Int) :
    (rs.update p { sess with lastActive := active }).timeless = (rs.update p sess).timeless := by
  simp only [RelayServer.timeless, RelayServer.update, List.map_set]

namespace Threads

/-- `d` and `rs'` are what the switch under the write lock decides and assigns in the state `rs`,
up to the time of the last activity. -/
structure Switched (rs rs' : RelayServer) (order : Order String) (now : Int) (raddr : UDPAddr)
    (id : List UInt8) (d : Decision) : Prop where
  decides : d = (assign rs order now raddr id).1
  assigns : rs'.timeless = (assign rs order now raddr id).2.timeless

theorem locate_cases (rs : RelayServer) (order : Order String) (now : Int) (raddr : UDPAddr)
    (id : List UInt8) :
    locate rs order now raddr id = (.upgrade, rs) ∨
      Switched rs (locate rs order now raddr id).2 order now raddr id
        (locate rs order now raddr id).1 := by
  unfold locate
  cases hfind : find rs order id with
  | none =>
    have hassign : assign rs order now raddr id = (.drop, rs) := by simp only [assign, hfind]
    refine .inr ⟨?_, ?_⟩
    · rw [hassign]
    · rw [hassign]
  | some x =>
    obtain ⟨p, sess⟩ := x
    cases hn : sess.needsWrite raddr with
    | true => exact .inl (if_pos hn)
    | false =>
      obtain ⟨hroute, active, hsess⟩ := RelaySession.slowRoute_of_not_needsWrite hn now
      have hassign : assign rs order now raddr id =
          (.send p sess.token (sess.fastRoute raddr),
            rs.update p { sess with lastActive := active }) := by
        simp only [assign, hfind, hroute, hsess]
      refine .inr ⟨?_, ?_⟩
      · rw [hassign]
        simp [hn]
      · rw [hassign]
        simp only [hn, Bool.false_eq_true, if_false]
        exact (rs.timeless_update p sess now).trans (rs.timeless_update p sess active).symm

/-- Under the write lock there is nothing left to upgrade to. -/
theorem finish_assign (rs : RelayServer) (order : Order String) (now : Int) (raddr : UDPAddr)
    (id payload : List UInt8) (upgrade : Thread) :
    finish payload upgrade (assign rs order now raddr id).1 =
      finish payload (return ()) (assign rs order now raddr id).1 := by
  unfold assign
  split <;> rfl

section

variable {raddr : UDPAddr} {data : List UInt8} {order order' : Order String} {now now' : Int}

/-- Thread `i` decides where the packet goes as one atomic step would, and has only the write left
to do. -/
def Decides (i : Nat) (raddr : UDPAddr) (data : List UInt8) (order : Order String) (now : Int)
    (P P' : Jobs) : Prop :=
  ∃ d, Switched P.state.server P'.state.server order now raddr (packetID data) d ∧
    P'.state.wire = P.state.wire ∧
    P'.threads[i]? = some (finish (packetPayload data) (return ()) d)

/-- One of its turns either changes nothing or is that step, under whichever lock. -/
theorem serve_step {P P' : Jobs} {i : Nat} {t : Thread}
    (ht : P.threads[i]? = some t)
    (hw : t = serve raddr data order order' now now' ∨
      t = serveSlow raddr order' now' (packetID data) (packetPayload data))
    (h : P.next exec (.step i) = some P') :
    (P'.state = P.state ∧ ∃ t', P'.threads[i]? = some t' ∧
      (t' = serve raddr data order order' now now' ∨
        t' = serveSlow raddr order' now' (packetID data) (packetPayload data))) ∨
      Decides i raddr data order now P P' ∨ Decides i raddr data order' now' P P' := by
  obtain ⟨a, k, r, s, hi, hexec, rfl⟩ := Pool.next_step h
  have hlt : i < P.threads.length := (List.getElem?_eq_some_iff.mp ht).1
  rw [ht] at hi
  obtain rfl | rfl := hw
  · obtain ⟨-, hact⟩ := serve_act (Option.some.inj hi)
    cases hact
    obtain ⟨rfl, rfl⟩ := exec_locate hexec
    obtain hupgrade | hswitched := locate_cases P.state.server order now raddr (packetID data)
    · left
      rw [hupgrade]
      exact ⟨rfl, _, List.getElem?_set_self hlt, .inr rfl⟩
    · refine .inr (.inl ⟨_, hswitched, rfl, ?_⟩)
      rw [List.getElem?_set_self hlt, hswitched.decides, finish_assign]
  · cases hi
    obtain ⟨rfl, rfl⟩ := exec_assign hexec
    exact .inr (.inr ⟨_, ⟨rfl, rfl⟩, rfl, List.getElem?_set_self hlt⟩)

/-- However the jobs of the relay are interleaved, a packet is routed and its sender made a peer in
one atomic step, by the switch under the write lock in the state of that moment; until then its
job changes nothing, and after it only the write is left. -/
theorem serve_atomic {i : Nat} {P P' : Jobs}
    (hserve : P.threads[i]? = some (serve raddr data order order' now now'))
    {es : List (Pool.Event signature Unit)} (hrun : Pool.play exec es P = some P') :
    (∀ sess : RelaySession, sess.needsWrite raddr = false →
      (sess.slowRoute now raddr).2 = sess.fastRoute raddr ∧
      (sess.slowRoute now raddr).1.peerA = sess.peerA ∧
      (sess.slowRoute now raddr).1.peerB = sess.peerB) ∧
    ((Pool.Passive exec i es P ∧ ∃ t, P'.threads[i]? = some t ∧
      (t = serve raddr data order order' now now' ∨
        t = serveSlow raddr order' now' (packetID data) (packetPayload data))) ∨
    Pool.Commits exec i (fun Q Q' =>
      Decides i raddr data order now Q Q' ∨ Decides i raddr data order' now' Q Q') es P P') := by
  refine ⟨?_, Pool.waits_or_commits serve_step hserve (.inl rfl) hrun⟩
  intro sess hsess
  obtain ⟨hroute, active, heq⟩ := RelaySession.slowRoute_of_not_needsWrite hsess now
  rw [heq]
  exact ⟨hroute, rfl, rfl⟩

end

/-- A session without peers, and a packet for it. -/
def unpaired : RelayServer where
  sessions := AList.insert "token" 0 ∅
  heap := [{ sessionID := "session-1", token := "token", tokenID := List.replicate 16 7
             created := 0, lastActive := 0 }]
  addr := ""

def firstPacket : List UInt8 := header (List.replicate 16 7) ++ [1, 2, 3]

/-- Both senders find that a peer has to be assigned; the second one takes the write lock first. -/
theorem serve_atomic_overtaken :
    let jobs : List Thread :=
      [serve ⟨"provider"⟩ firstPacket Order.id Order.id 1 3,
        serve ⟨"renter"⟩ firstPacket Order.id Order.id 2 4]
    ∃ P', Pool.play exec [.step 0, .step 1, .step 1, .step 0] ⟨{ server := unpaired }, jobs⟩ =
        some P' ∧
      Pool.Commits exec 0 (fun Q Q' =>
        Decides 0 ⟨"provider"⟩ firstPacket Order.id 1 Q Q' ∨
        Decides 0 ⟨"provider"⟩ firstPacket Order.id 3 Q Q')
        [.step 0, .step 1, .step 1, .step 0] ⟨{ server := unpaired }, jobs⟩ P' := by
  intro jobs
  obtain ⟨P', hrun, hwrite⟩ : ∃ P', Pool.play exec [.step 0, .step 1, .step 1, .step 0]
      ⟨{ server := unpaired }, jobs⟩ = some P' ∧
      P'.threads[0]? = some (Call.write 0 "token" (.main ⟨"renter"⟩) [1, 2, 3]) :=
    ⟨_, rfl, rfl⟩
  refine ⟨P', hrun, ?_⟩
  have hserve : jobs[0]? = some (serve ⟨"provider"⟩ firstPacket Order.id Order.id 1 3) := rfl
  obtain ⟨-, ⟨-, t, ht, hwaits⟩ | hcommits⟩ := serve_atomic hserve hrun
  · rw [hwrite] at ht
    obtain rfl | rfl := hwaits
    · cases ht
    · cases ht
  · exact hcommits

end Threads

end PeerCompute.Relay
