import PeerCompute.Relay.ThreadLaws

namespace PeerCompute.Relay.Threads

open PeerCompute.Data PeerCompute.Interleaving Prog

/-- Every session object has its peers in order and the identifier of its token, and every token
in the map names an object made for it. -/
structure Ordered (rs : RelayServer) : Prop where
  object : ∀ {p : Nat} {sess : RelaySession}, rs.heap[p]? = some sess →
    sess.Roles ∧ sess.tokenID = tokenID sess.token
  entry : ∀ {token p}, rs.sessions.lookup token = some p →
    ∃ sess, rs.heap[p]? = some sess ∧ sess.token = token

theorem newRelayServer_ordered (addr : String) : Ordered (newRelayServer addr) where
  object h := by simp [newRelayServer] at h
  entry h := by simp [newRelayServer] at h

section

variable {a : Action} {m m' : Machine} {r : a.Res}

theorem Changes.heap_eq {concerned : Nat → Prop} {rs rs' : RelayServer} {p q : Nat}
    {sess sess' : RelaySession} (h : Changes concerned rs rs' p sess sess') :
    rs'.heap[q]? = if q = p then some sess' else rs.heap[q]? := by
  rw [h.heap, List.getElem?_set]
  by_cases hqp : q = p
  · subst hqp
    simp [(List.getElem?_eq_some_iff.mp h.before).1]
  · rw [if_neg (fun he => hqp he.symm), if_neg hqp]

/-- Session objects stay, and keep their peers. -/
theorem exec_same (h : exec a m = some (r, m')) {p : Nat} {sess : RelaySession}
    (hsess : m.server.heap[p]? = some sess) :
    ∃ sess', m'.server.heap[p]? = some sess' ∧ sess.Same sess' := by
  obtain hheap | ⟨new, -, -, -, hheap⟩ | ⟨q, s, s', hc⟩ := exec_heap h
  · exact ⟨sess, hheap ▸ hsess, .refl sess⟩
  · have hlt := (List.getElem?_eq_some_iff.mp hsess).1
    exact ⟨sess, by rw [hheap, List.getElem?_append_left hlt, hsess], .refl sess⟩
  · rw [hc.heap_eq]
    by_cases hqp : p = q
    · subst hqp
      have hs := hc.before
      rw [hsess] at hs
      cases hs
      exact ⟨s', if_pos rfl, hc.same⟩
    · exact ⟨sess, by rw [if_neg hqp, hsess], .refl sess⟩

/-- An object there was before is changed only if the action concerns it, and only one is. -/
theorem exec_changed (h : exec a m = some (r, m')) {p : Nat} (hlt : p < m.server.heap.length)
    (hne : m'.server.heap[p]? ≠ m.server.heap[p]?) :
    a.Concerns m.server p ∧ ∀ q < m.server.heap.length,
      m'.server.heap[q]? ≠ m.server.heap[q]? → q = p := by
  obtain hheap | ⟨new, -, -, -, hheap⟩ | ⟨q, s, s', hc⟩ := exec_heap h
  · exact absurd (by rw [hheap]) hne
  · exact absurd (by rw [hheap, List.getElem?_append_left hlt]) hne
  · have honly : ∀ q', m'.server.heap[q']? ≠ m.server.heap[q']? → q' = q := by
      intro q' hq'
      by_contra hqq
      exact hq' (by rw [hc.heap_eq, if_neg hqq])
    have hpq := honly p hne
    subst hpq
    exact ⟨hc.concerned, fun q' _ hq' => honly q' hq'⟩

/-- A registration enters its token with the object it has made for it. -/
theorem Ordered.exec (ho : Ordered m.server) (h : exec a m = some (r, m'))
    (henter : ∀ {token p}, a = .enter token p →
      ∃ sess, m.server.heap[p]? = some sess ∧ sess.token = token) : Ordered m'.server where
  object := by
    intro p sess hsess
    obtain hheap | ⟨new, hA, hB, hid, hheap⟩ | ⟨q, s, s', hc⟩ := exec_heap h
    · exact ho.object (hheap ▸ hsess)
    · rw [hheap, List.getElem?_append] at hsess
      split at hsess
      · exact ho.object hsess
      · have hmem := List.mem_singleton.mp (List.mem_of_getElem? hsess)
        subst hmem
        exact ⟨⟨fun _ => hB, fun ha => by simp [hA] at ha⟩, hid⟩
    · rw [hc.heap_eq] at hsess
      split at hsess
      · cases hsess
        obtain ⟨hroles, hid⟩ := ho.object hc.before
        exact ⟨hc.roles hroles, by rw [hc.same.tokenID, hc.same.token, hid]⟩
      · exact ho.object hsess
  entry := by
    intro token p hp
    have hbefore : ∃ sess, m.server.heap[p]? = some sess ∧ sess.token = token := by
      obtain hp | ha := exec_sessions h hp
      · exact ho.entry hp
      · exact henter ha
    obtain ⟨sess, hsess, htoken⟩ := hbefore
    obtain ⟨sess', hsess', hsame⟩ := exec_same h hsess
    exact ⟨sess', hsess', hsame.token.trans htoken⟩

end

/-! ## The jobs on their way -/

/-- Earlier in the run the `i`-th job has chosen where a packet from `raddr` goes. -/
def Routed (rs₀ : RelayServer) (turns : List Turn) (i : Nat) (raddr : UDPAddr) (id : List UInt8)
    (p : Nat) (route : Route) : Prop :=
  ∃ before after Q Q', turns = before ++ .step i :: after ∧ interleave before rs₀ = some Q ∧
    Q.next exec (.step i) = some Q' ∧ Chosen Q.state.server Q'.state.server raddr id p route

theorem Routed.append {rs₀ : RelayServer} {turns : List Turn} {i : Nat} {raddr : UDPAddr}
    {id : List UInt8} {p : Nat} {route : Route} (h : Routed rs₀ turns i raddr id p route)
    (t : Turn) : Routed rs₀ (turns ++ [t]) i raddr id p route := by
  obtain ⟨before, after, Q, Q', rfl, hQ⟩ := h
  exact ⟨before, after ++ [t], Q, Q', by simp, hQ⟩

/-- The actions of a job other than a registration or a packet on the main socket. -/
def Action.Plain (p : Option Nat) : Action → Prop
  | .touch q _ | .recordRenter q _ => p = some q
  | .bind _ _ _ _ | .enter _ _ | .locate _ _ _ _ | .assign _ _ _ _ => False
  | _ => True

/-- What the `i`-th job can still have to do after the run `turns`. -/
def Stage (rs₀ : RelayServer) (turns : List Turn) (rs : RelayServer) (i : Nat) : Job → Thread → Prop
  | .register token sessionID now free, t =>
    t = registerSession token sessionID now free ∨ t = .ret () ∨
      ∃ p sess, t = Call.enter token p ∧ rs.heap[p]? = some sess ∧ sess.token = token
  | .main raddr data order order' now now', t =>
    t = serve raddr data order order' now now' ∨ t = .ret () ∨
      t = serveSlow raddr order' now' (packetID data) (packetPayload data) ∧ IsPacket data ∨
      ∃ p token route, t = Call.write p token route (packetPayload data) ∧ IsPacket data ∧
        Routed rs₀ turns i raddr (packetID data) p route
  | .raw p _ _ _, t => t.Uses (Action.Plain (some p))
  | .remove _, t | .invalidate _, t | .reap _, t => t.Uses (Action.Plain none)

theorem stage_thread (rs₀ : RelayServer) (turns : List Turn) (rs : RelayServer) (i : Nat)
    (j : Job) : Stage rs₀ turns rs i j j.thread := by
  have hdrop : ∀ token, (dropSession token).Uses (Action.Plain none) := by
    intro token
    refine ⟨trivial, fun r => ?_⟩
    cases r with
    | none => trivial
    | some p => exact ⟨trivial, fun _ => trivial⟩
  cases j with
  | register token sessionID now free => exact .inl rfl
  | remove token => exact hdrop token
  | invalidate token => exact hdrop token
  | reap now => exact ⟨trivial, fun _ => trivial⟩
  | main raddr data order order' now now' => exact .inl rfl
  | raw p raddr data now =>
    refine ⟨trivial, fun x => ⟨rfl, fun _ => ⟨rfl, fun _ => ⟨trivial, fun peerA => ?_⟩⟩⟩⟩
    cases peerA with
    | none => trivial
    | some a => exact ⟨trivial, fun _ => trivial⟩

theorem Stage.mono {rs₀ rs rs' : RelayServer} {turns : List Turn} {i : Nat} {j : Job} {t : Thread}
    (h : Stage rs₀ turns rs i j t)
    (hsame : ∀ {p : Nat} {sess : RelaySession}, rs.heap[p]? = some sess →
      ∃ sess', rs'.heap[p]? = some sess' ∧ sess.Same sess') (u : Turn) :
    Stage rs₀ (turns ++ [u]) rs' i j t := by
  cases j with
  | register token sessionID now free =>
    obtain h | h | ⟨p, sess, ht, hsess, htoken⟩ := h
    · exact .inl h
    · exact .inr (.inl h)
    · obtain ⟨sess', hsess', hs⟩ := hsame hsess
      exact .inr (.inr ⟨p, sess', ht, hsess', hs.token.trans htoken⟩)
  | main raddr data order order' now now' =>
    obtain h | h | h | ⟨p, token, route, ht, hpacket, hrouted⟩ := h
    · exact .inl h
    · exact .inr (.inl h)
    · exact .inr (.inr (.inl h))
    · exact .inr (.inr (.inr ⟨p, token, route, ht, hpacket, hrouted.append u⟩))
  | _ => exact h

theorem serve_act {raddr : UDPAddr} {data : List UInt8} {order order' : Order String}
    {now now' : Int} {a : Action} {k : a.Res → Thread}
    (h : serve raddr data order order' now now' = .act a k) : IsPacket data ∧
      (Prog.act (S := signature) (.locate order now raddr (packetID data))
        (finish (packetPayload data)
          (serveSlow raddr order' now' (packetID data) (packetPayload data))) : Thread) =
        .act a k := by
  by_cases hpacket : IsPacket data
  · exact ⟨hpacket, (if_neg hpacket).symm.trans h⟩
  · cases (if_pos (not_not.mp hpacket)).symm.trans h

/-- A job that is not a registration enters nothing. -/
theorem Stage.enter {rs₀ rs : RelayServer} {turns : List Turn} {i : Nat} {j : Job}
    {token : String} {p : Nat} {k : Unit → Thread}
    (h : Stage rs₀ turns rs i j (.act (.enter token p) k)) :
    ∃ sess, rs.heap[p]? = some sess ∧ sess.token = token := by
  cases j with
  | register token' sessionID now free =>
    obtain h | h | ⟨q, sess, ht, hsess, htoken⟩ := h
    · cases h
    · cases h
    · cases ht
      exact ⟨sess, hsess, htoken⟩
  | main raddr data order order' now now' =>
    obtain h | h | ⟨h, -⟩ | ⟨q, token', route, h, -⟩ := h
    · cases (serve_act h.symm).2
    · cases h
    · cases h
    · cases h
  | _ => exact h.1.elim

/-- What the main loop sends has been routed, and is the last thing it does for a packet. -/
theorem Stage.write {rs₀ rs : RelayServer} {turns : List Turn} {i : Nat} {raddr : UDPAddr}
    {data payload : List UInt8} {order order' : Order String} {now now' : Int} {p : Nat}
    {token : String} {route : Route} {k : Unit → Thread}
    (h : Stage rs₀ turns rs i (.main raddr data order order' now now')
      (.act (.write p token route payload) k)) :
    payload = packetPayload data ∧ IsPacket data ∧
      Routed rs₀ turns i raddr (packetID data) p route ∧ k = .ret := by
  obtain h | h | ⟨h, -⟩ | ⟨q, token', route', h, hpacket, hrouted⟩ := h
  · cases (serve_act h.symm).2
  · cases h
  · cases h
  · cases h
    exact ⟨rfl, hpacket, hrouted, rfl⟩

theorem bind_heap {rs rs' : RelayServer} {token sessionID : String} {now : Int} {free : Bool}
    (h : rs.bindSession now free token sessionID = some rs') :
    ∃ sess, rs'.heap[rs.heap.length]? = some sess ∧ sess.token = token := by
  unfold RelayServer.bindSession at h
  split at h
  · cases h
  · cases h
    exact ⟨_, List.getElem?_concat_length, rfl⟩

/-- One step of a job. -/
theorem Stage.step {rs₀ : RelayServer} {turns : List Turn} {P P' : Jobs} {i : Nat} {j : Job}
    {a : Action} {k : a.Res → Thread} {r : a.Res} {m' : Machine}
    (hrun : interleave turns rs₀ = some P) (hnext : P.next exec (.step i) = some P')
    (hact : exec a P.state = some (r, m')) (hm' : P'.state = m')
    (h : Stage rs₀ turns P.state.server i j (.act a k)) :
    Stage rs₀ (turns ++ [.step i]) m'.server i j (k r) := by
  have hrouted : ∀ {raddr id p route}, Chosen P.state.server m'.server raddr id p route →
      Routed rs₀ (turns ++ [.step i]) i raddr id p route :=
    fun hc => ⟨turns, [], P, P', rfl, hrun, hnext, hm' ▸ hc⟩
  cases j with
  | register token sessionID now free =>
    obtain h | h | ⟨p, sess, h, -⟩ := h
    · cases h
      obtain ⟨rs, hrs, hm⟩ := Option.map_eq_some_iff.mp hact
      cases hm
      obtain ⟨sess, hsess, htoken⟩ := bind_heap hrs
      exact .inr (.inr ⟨_, sess, rfl, hsess, htoken⟩)
    · cases h
    · cases h
      exact .inr (.inl rfl)
  | main raddr data order order' now now' =>
    obtain h | h | ⟨h, hpacket⟩ | ⟨p, token, route, h, -⟩ := h
    · obtain ⟨hpacket, h⟩ := serve_act h.symm
      cases h
      obtain ⟨hd, rfl⟩ := exec_locate hact
      cases r with
      | drop => exact .inr (.inl rfl)
      | upgrade => exact .inr (.inr (.inl ⟨rfl, hpacket⟩))
      | send p token route =>
        exact .inr (.inr (.inr ⟨p, token, route, rfl, hpacket, hrouted (locate_send hd)⟩))
    · cases h
    · cases h
      obtain ⟨hd, rfl⟩ := exec_assign hact
      cases r with
      | drop => exact .inr (.inl rfl)
      | upgrade => exact .inr (.inl rfl)
      | send p token route =>
        exact .inr (.inr (.inr ⟨p, token, route, rfl, hpacket, hrouted (assign_send hd)⟩))
    · cases h
      exact .inr (.inl rfl)
  | _ => exact h.2 r

/-- A relay at work, as the run `turns` has left it. -/
structure AtWork (rs₀ : RelayServer) (turns : List Turn) (P : Jobs) : Prop where
  ordered : Ordered P.state.server
  length : P.threads.length = (arrived turns).length
  stage : ∀ {i : Nat} {j : Job} {t : Thread}, (arrived turns)[i]? = some j →
    P.threads[i]? = some t → Stage rs₀ turns P.state.server i j t

section

variable {rs₀ : RelayServer} {turns : List Turn} {P P' : Jobs}

theorem arrived_concat (turns : List Turn) (t : Turn) :
    arrived (turns ++ [t]) = arrived turns ++ arrived [t] := List.filterMap_append

theorem AtWork.job (h : AtWork rs₀ turns P) (j : Job) :
    AtWork rs₀ (turns ++ [.job j]) { P with threads := P.threads ++ [j.thread] } where
  ordered := h.ordered
  length := by simp [arrived, h.length]
  stage := by
    intro i j' t hj ht
    rw [arrived_concat, List.getElem?_append] at hj
    rw [List.getElem?_append, h.length] at ht
    split at hj
    next hlt =>
      rw [if_pos hlt] at ht
      exact (h.stage hj ht).mono (fun hsess => ⟨_, hsess, .refl _⟩) _
    next hge =>
      rw [if_neg hge] at ht
      have hj' : j' = j := List.mem_singleton.mp (List.mem_of_getElem? hj)
      have ht' : t = j.thread := List.mem_singleton.mp (List.mem_of_getElem? ht)
      subst hj' ht'
      exact stage_thread _ _ _ _ _

theorem AtWork.step (h : AtWork rs₀ turns P) (hrun : interleave turns rs₀ = some P) {i : Nat}
    (hnext : P.next exec (.step i) = some P') : AtWork rs₀ (turns ++ [.step i]) P' := by
  obtain ⟨a, k, r, m', hi, hact, rfl⟩ := Pool.next_step hnext
  have harrived : arrived (turns ++ [.step i]) = arrived turns := by
    rw [arrived_concat]
    exact List.append_nil _
  have hlt : i < (arrived turns).length := h.length ▸ (List.getElem?_eq_some_iff.mp hi).1
  have hstage := h.stage (List.getElem?_eq_getElem hlt) hi
  refine ⟨h.ordered.exec hact ?_, ?_, ?_⟩
  · rintro token p rfl
    exact hstage.enter
  · rw [harrived, List.length_set, h.length]
  · intro i' j' t hj ht
    rw [harrived] at hj
    rw [List.getElem?_set] at ht
    split at ht
    next hii =>
      subst hii
      rw [if_pos (h.length ▸ hlt)] at ht
      cases ht
      rw [List.getElem?_eq_getElem hlt] at hj
      cases hj
      exact hstage.step hrun hnext hact rfl
    next => exact (h.stage hj ht).mono (exec_same hact) _

theorem atWork (h₀ : Ordered rs₀) (hrun : interleave turns rs₀ = some P) : AtWork rs₀ turns P := by
  refine Pool.play_history (I := AtWork rs₀) ⟨h₀, rfl, fun hj => by cases hj⟩ ?_ hrun
  intro turns t P P' hrun h hnext
  cases t with
  | job j =>
    cases hnext
    exact h.job j
  | step i => exact h.step hrun hnext

end

/-! ## Packets -/

theorem mem_forward_main {rs : RelayServer} {p : Nat} {token : String} {route : Route}
    {data : List UInt8} {sent : Sent} (h : sent ∈ rs.forward p token data route)
    (hmain : sent.socket = .main) :
    route = .main sent.dst ∧ sent.data = data ∧ data.length ≤ maxDatagram ∧
      rs.forward p token data route = [sent] := by
  have hwrite : ∀ {socket : Socket} {dst : UDPAddr}, sent ∈ writeToUDP token socket data dst →
      data.length ≤ maxDatagram ∧ sent = ⟨token, socket, dst, data⟩ ∧
        writeToUDP token socket data dst = [sent] := by
    intro socket dst h
    unfold writeToUDP at h ⊢
    split at h
    next hlen =>
      rw [if_pos hlen]
      have hsent := List.mem_singleton.mp h
      exact ⟨hlen, hsent, by rw [hsent]⟩
    next => cases h
  cases route with
  | none => cases h
  | main dst =>
    obtain ⟨hlen, rfl, hout⟩ := hwrite h
    exact ⟨rfl, rfl, hlen, hout⟩
  | raw port dst =>
    simp only [RelayServer.forward] at h
    split at h
    · obtain ⟨-, rfl, -⟩ := hwrite h
      cases hmain
    · cases h

/-- A packet whose payload fits into a datagram is read as a whole. -/
theorem take_of_length_packetPayload {data : List UInt8}
    (h : (packetPayload data).length ≤ maxDatagram) : data.take 65536 = data := by
  apply List.take_of_length_le
  unfold packetPayload at h
  simp only [List.length_drop, List.length_take, maxDatagram, headerLen, magicLen, tokenIDLen] at h
  omega

/-- Why a datagram was sent on the main socket by the `i`-th job, at work on `data` from `raddr`:
`data` is a packet for a session that was registered when the job chose the destination, between
whose peers it was passed on. -/
structure Caused (rs₀ : RelayServer) (turns : List Turn) (i : Nat) (raddr : UDPAddr)
    (data : List UInt8) (sent : Sent) : Prop where
  magic : data.take magicLen = relayMagic
  content : sent.data = data.drop headerLen
  chosen : ∃ before after Q Q' token p sess, turns = before ++ .step i :: after ∧
    interleave before rs₀ = some Q ∧ Q.next exec (.step i) = some Q' ∧
    Q.state.server.sessions.lookup token = some p ∧
    (data.drop magicLen).take tokenIDLen = tokenID token ∧
    Q'.state.server.heap[p]? = some sess ∧ sess.Between raddr sent.dst

/-- The session objects a job may change. -/
def Job.Concerns (rs : RelayServer) : Job → Nat → Prop
  | .main _ data _ _ _ _, p =>
    ∃ token, rs.sessions.lookup token = some p ∧ packetID data = tokenID token
  | .raw q _ _ _, p => p = q
  | _, _ => False

theorem Routed.caused {rs₀ : RelayServer} (h₀ : Ordered rs₀) {turns : List Turn} {i : Nat}
    {raddr : UDPAddr} {data : List UInt8} {p : Nat} {sent : Sent}
    (h : Routed rs₀ turns i raddr (packetID data) p (.main sent.dst)) (hpacket : IsPacket data)
    (hlen : (packetPayload data).length ≤ maxDatagram) (hdata : sent.data = packetPayload data) :
    Caused rs₀ turns i raddr data sent := by
  have htake := take_of_length_packetPayload hlen
  unfold IsPacket at hpacket
  rw [htake] at hpacket
  refine ⟨not_not.mp (fun hne => hpacket (.inr hne)), ?_, ?_⟩
  · rw [hdata, packetPayload, htake]
  · obtain ⟨before, after, Q, Q', hturns, hQ, hnext, token, sess, sess', htoken, hid, hsess, hsess',
      hbetween⟩ := h
    have ho := (atWork h₀ hQ).ordered
    obtain ⟨s, hs, hst⟩ := ho.entry htoken
    rw [hsess] at hs
    cases hs
    refine ⟨before, after, Q, Q', token, p, sess', hturns, hQ, hnext, htoken, ?_, hsess',
      hbetween _ rfl⟩
    rw [← hst, ← (ho.object hsess).2, hid, packetID, htake]

theorem Stage.concerns {rs₀ rs : RelayServer} (ho : Ordered rs) {turns : List Turn} {i : Nat}
    {j : Job} {a : Action} {k : a.Res → Thread} (h : Stage rs₀ turns rs i j (.act a k)) {p : Nat}
    (hp : a.Concerns rs p) : j.Concerns rs p := by
  have hfound : ∀ {id : List UInt8}, (∃ token sess, rs.sessions.lookup token = some p ∧
      rs.heap[p]? = some sess ∧ sess.tokenID = id) →
      ∃ token, rs.sessions.lookup token = some p ∧ id = tokenID token := by
    rintro id ⟨token, sess, htoken, hsess, rfl⟩
    obtain ⟨s, hs, rfl⟩ := ho.entry htoken
    rw [hsess] at hs
    cases hs
    exact ⟨_, htoken, (ho.object hsess).2⟩
  cases j with
  | register token sessionID now free =>
    obtain h | h | ⟨q, sess, h, -⟩ := h
    · cases h
      exact hp
    · cases h
    · cases h
      exact hp
  | main raddr data order order' now now' =>
    obtain h | h | ⟨h, -⟩ | ⟨q, token, route, h, -⟩ := h
    · cases (serve_act h.symm).2
      exact hfound hp
    · cases h
    · cases h
      exact hfound hp
    · cases h
      exact hp.elim
  | raw q raddr data now =>
    have hplain := h.1
    cases a with
    | touch q' now =>
      cases hplain
      exact hp
    | recordRenter q' raddr =>
      cases hplain
      exact hp
    | locate _ _ _ _ => exact hplain.elim
    | assign _ _ _ _ => exact hplain.elim
    | _ => exact hp.elim
  | _ =>
    have hplain := h.1
    cases a with
    | touch q' now => cases hplain
    | recordRenter q' raddr => cases hplain
    | locate _ _ _ _ => exact hplain.elim
    | assign _ _ _ _ => exact hplain.elim
    | _ => exact hp.elim

/-- Routing safety of the relay: however its jobs are interleaved, in every step a peer that is set
stays, the two peers of a session are different, what the main loop sends on the main socket is
caused by the packet it is at work on and ends that work, and at most one session changes, the one
the job is for. -/
theorem main_socket_routing (addr : String) {turns : List Turn} {t : Turn} {P P' : Jobs}
    (hrun : interleave turns (newRelayServer addr) = some P)
    (hnext : P.next exec t.event = some P') :
    (∀ (p : Nat) (sess : RelaySession), P.state.server.heap[p]? = some sess →
      ∃ sess', P'.state.server.heap[p]? = some sess' ∧
        (∀ a, sess.peerA = some a → sess'.peerA = some a) ∧
        ∀ b, sess.peerB = some b → sess'.peerB = some b) ∧
    (∀ (p : Nat) (sess : RelaySession) (a : UDPAddr), P'.state.server.heap[p]? = some sess →
      sess.peerA = some a → sess.peerB ≠ some a) ∧
    (∃ out, P'.state.wire = P.state.wire ++ out ∧ ∀ i raddr data order order' now now',
      t = .step i → (arrived turns)[i]? = some (.main raddr data order order' now now') →
      ∀ sent ∈ out, sent.socket = .main → out = [sent] ∧ P'.threads[i]? = some (.ret ()) ∧
        Caused (newRelayServer addr) turns i raddr data sent) ∧
    ∀ p < P.state.server.heap.length, P'.state.server.heap[p]? ≠ P.state.server.heap[p]? →
      (∃ i j, t = .step i ∧ (arrived turns)[i]? = some j ∧ j.Concerns P.state.server p) ∧
        ∀ q < P.state.server.heap.length,
          P'.state.server.heap[q]? ≠ P.state.server.heap[q]? → q = p := by
  have h₀ := newRelayServer_ordered addr
  have hwork := atWork h₀ hrun
  have hwork' : AtWork (newRelayServer addr) (turns ++ [t]) P' := by
    refine atWork h₀ ?_
    rw [interleave, List.map_append, List.map_singleton, Pool.play_concat]
    exact ⟨P, hrun, hnext⟩
  have hdistinct : ∀ (p : Nat) (sess : RelaySession) (a : UDPAddr),
      P'.state.server.heap[p]? = some sess → sess.peerA = some a → sess.peerB ≠ some a :=
    fun p sess a hsess ha => (hwork'.ordered.object hsess).1.distinct ha
  cases t with
  | job j =>
    cases hnext
    refine ⟨fun p sess hsess => ⟨sess, hsess, fun a ha => ha, fun b hb => hb⟩, hdistinct,
      ⟨[], (List.append_nil _).symm, fun _ _ _ _ _ _ _ _ _ sent hsent => by cases hsent⟩, ?_⟩
    exact fun p _ hne => absurd rfl hne
  | step i =>
    obtain ⟨a, k, r, m', hi, hact, rfl⟩ := Pool.next_step hnext
    have hlt : i < (arrived turns).length := hwork.length ▸ (List.getElem?_eq_some_iff.mp hi).1
    have hj := List.getElem?_eq_getElem hlt
    have hstage := hwork.stage hj hi
    refine ⟨fun p sess hsess => ?_, hdistinct, ?_, fun p hp hne => ?_⟩
    · obtain ⟨sess', hsess', hsame⟩ := exec_same hact hsess
      exact ⟨sess', hsess', fun a => hsame.peerA, fun b => hsame.peerB⟩
    · obtain hwire | ⟨p, token, route, payload, rfl, hwire⟩ := exec_wire hact
      · refine ⟨[], hwire.trans (List.append_nil _).symm, ?_⟩
        exact fun _ _ _ _ _ _ _ _ _ sent hsent => by cases hsent
      · refine ⟨_, hwire, ?_⟩
        rintro i' raddr data order order' now now' ⟨rfl⟩ hmain sent hsent hsocket
        obtain ⟨rfl, hpacket, hrouted, hk⟩ := (hwork.stage hmain hi).write
        obtain ⟨rfl, hdata, hlen, hout⟩ := mem_forward_main hsent hsocket
        refine ⟨hout, ?_, hrouted.caused h₀ hpacket hlen hdata⟩
        rw [List.getElem?_set_self (hwork.length ▸ hlt), hk]
        rfl
    · obtain ⟨hconcerns, honly⟩ := exec_changed hact hp hne
      exact ⟨⟨i, _, rfl, hj, hstage.concerns hwork.ordered hconcerns⟩, honly⟩

/-- A packet of the renter on its way: the session `"t"` is registered, the provider is its first
peer and the destination of the renter's packet is chosen. -/
def renterPacket : List Turn :=
  [.job (.register "t" "session1" 0 true), .step 0, .step 0,
   .job (.main ⟨"provider"⟩ (header (tokenID "t")) Order.id Order.id 1 1), .step 1, .step 1, .step 1,
   .job (.main ⟨"renter"⟩ (header (tokenID "t") ++ [1]) Order.id Order.id 2 2), .step 2, .step 2]

theorem main_socket_routing_renter :
    ∃ P P', interleave renterPacket (newRelayServer "") = some P ∧
      P.next exec (.step 2) = some P' ∧ P.state.wire = [] ∧
      P'.state.wire = [⟨"t", .main, ⟨"provider"⟩, [1]⟩] ∧
      Caused (newRelayServer "") renterPacket 2 ⟨"renter"⟩ (header (tokenID "t") ++ [1])
        ⟨"t", .main, ⟨"provider"⟩, [1]⟩ := by
  have hview : (interleave renterPacket (newRelayServer "")).map (fun P =>
      (P.state.wire, (P.next exec (.step 2)).map (fun P' => P'.state.wire))) =
      some ([], some [⟨"t", .main, ⟨"provider"⟩, [1]⟩]) := by
    decide +kernel
  obtain ⟨P, hrun, hP⟩ := Option.map_eq_some_iff.mp hview
  obtain ⟨hwire, hP'⟩ := Prod.mk.inj hP
  obtain ⟨P', hnext, hwire'⟩ := Option.map_eq_some_iff.mp hP'
  obtain ⟨-, -, ⟨out, hout, hcaused⟩, -⟩ :=
    main_socket_routing "" (t := .step 2) hrun hnext
  rw [hwire, hwire', List.nil_append] at hout
  refine ⟨P, P', hrun, hnext, hwire, hwire', ?_⟩
  exact (hcaused 2 _ _ _ _ _ _ rfl rfl _ (hout ▸ .head _) rfl).2.2

end PeerCompute.Relay.Threads
