import PeerCompute.Relay.Threads

namespace PeerCompute.Relay.Threads

open PeerCompute.Data PeerCompute.Interleaving Prog

/-! ## Jobs that run alone -/

theorem run_registerSession (token sessionID : String) (now : Int) (free : Bool) (m : Machine) :
    (registerSession token sessionID now free).run exec m =
      (m.server.registerSession now free token sessionID).map (fun rs =>
        ((), { m with server := rs })) := by
  have hrun : (registerSession token sessionID now free).run exec m =
      ((m.server.bindSession now free token sessionID).map (fun rs =>
        (m.server.heap.length, { m with server := rs }))).bind (fun x =>
          some ((), { x.2 with server := x.2.server.enterSession token x.1 })) := rfl
  rw [hrun, RelayServer.registerSession]
  cases m.server.bindSession now free token sessionID <;> rfl

theorem run_dropSession (token : String) (m : Machine) :
    (dropSession token).run exec m =
      some ((), { m with server := m.server.dropSession token }) := by
  refine (run_perform (S := signature) (a := .delete token) rfl _).trans ?_
  unfold RelayServer.dropSession
  cases h : m.server.sessions.lookup token with
  | none =>
    have herase : m.server.sessions.erase token = m.server.sessions := by
      apply AList.ext
      exact List.kerase_of_notMem_keys (AList.lookup_eq_none.mp h)
    simp [herase]
  | some p => rfl

theorem run_serveSlow (raddr : UDPAddr) (order : Order String) (now : Int)
    (id payload : List UInt8) (m : Machine) :
    (serveSlow raddr order now id payload).run exec m =
      some ((), ⟨(m.server.serveSlow order now raddr id payload).1,
        m.wire ++ (m.server.serveSlow order now raddr id payload).2⟩) := by
  have hrun : (serveSlow raddr order now id payload).run exec m =
      (finish payload (return ()) (assign m.server order now raddr id).1).run exec
        { m with server := (assign m.server order now raddr id).2 } := rfl
  rw [hrun]
  unfold assign RelayServer.serveSlow
  rw [← find]
  cases find m.server order id with
  | none => simp [finish]
  | some x => rfl

theorem run_serve (raddr : UDPAddr) (data : List UInt8) (order order' : Order String) (now : Int)
    (m : Machine) :
    (serve raddr data order order' now now).run exec m =
      some ((), ⟨(m.server.serve order order' now raddr data).1,
        m.wire ++ (m.server.serve order order' now raddr data).2⟩) := by
  simp only [serve, RelayServer.serve]
  split
  next => simp
  next =>
    generalize List.take tokenIDLen (List.drop magicLen (List.take 65536 data)) = id
    generalize List.drop headerLen (List.take 65536 data) = payload
    have hrun : ∀ f : Decision → Thread, (Call.locate order now raddr id >>= f).run exec m =
        (f (locate m.server order now raddr id).1).run exec
          { m with server := (locate m.server order now raddr id).2 } := fun _ => rfl
    rw [hrun]
    unfold locate RelayServer.serveFast
    rw [← find]
    cases find m.server order id with
    | none => simp [finish]
    | some x =>
      obtain ⟨p, sess⟩ := x
      by_cases hn : sess.needsWrite raddr = true
      · simp only [if_pos hn]
        exact run_serveSlow raddr order' now id payload m
      · simp only [if_neg hn]
        rfl

theorem modify_eq {rs : RelayServer} {p : Nat} {sess : RelaySession}
    (hsess : rs.heap[p]? = some sess) (f : RelaySession → RelaySession) :
    modify rs p f = rs.update p (f sess) := by
  simp only [modify, hsess]

theorem heap_update {rs : RelayServer} {p : Nat} {sess : RelaySession}
    (hsess : rs.heap[p]? = some sess) (sess' : RelaySession) :
    (rs.update p sess').heap[p]? = some sess' :=
  List.getElem?_set_self (List.getElem?_eq_some_iff.mp hsess).1

theorem update_update (rs : RelayServer) (p : Nat) (sess sess' : RelaySession) :
    (rs.update p sess).update p sess' = rs.update p sess' := by
  simp only [RelayServer.update, List.set_set]

theorem run_forwardRaw {p : Nat} {sess : RelaySession} {m : Machine}
    (hsess : m.server.heap[p]? = some sess) (raddr : UDPAddr) (buf : List UInt8) (now : Int)
    (token : String) (id : List UInt8) :
    (forwardRaw p raddr buf now token id).run exec m =
      some ((), ⟨m.server.update p { sess with lastActive := now, renterAddr := some raddr },
        m.wire ++ match sess.peerA with
          | none => []
          | some a => writeToUDP token .main (header id ++ buf) a⟩) := by
  let rs := modify (modify m.server p (fun s => { s with lastActive := now })) p
    (fun s => { s with renterAddr := some raddr })
  have hrs : rs = m.server.update p { sess with lastActive := now, renterAddr := some raddr } := by
    simp only [rs]
    rw [modify_eq hsess, modify_eq (heap_update hsess _), update_update]
  have hrun : (forwardRaw p raddr buf now token id).run exec m =
      ((match rs.heap[p]?.bind RelaySession.peerA with
        | none => return ()
        | some a => Call.write p token (.main a) (header id ++ buf) : Thread)).run exec
          { m with server := rs } := rfl
  rw [hrun, hrs, heap_update hsess, Option.bind_some]
  cases sess.peerA with
  | none => simp
  | some a => rfl

theorem run_serveRaw {p : Nat} {sess : RelaySession} {m : Machine} (hp : p ∈ m.server.listeners)
    (hsess : m.server.heap[p]? = some sess) (raddr : UDPAddr) (data : List UInt8) (now : Int) :
    (serveRaw p raddr data now).run exec m =
      some ((), ⟨(m.server.serveRaw p now raddr data).1,
        m.wire ++ (m.server.serveRaw p now raddr data).2⟩) := by
  have hread : exec (.readFromUDP p) m = some ((sess.token, sess.tokenID), m) := by
    unfold exec
    simp only [if_pos hp, hsess]
    rfl
  have hrun := run_perform (S := signature) (a := .readFromUDP p) hread (fun x =>
    forwardRaw p raddr (data.take 65536) now x.1 x.2)
  refine hrun.trans ((run_forwardRaw hsess raddr _ now _ _).trans ?_)
  simp only [RelayServer.serveRaw, hsess]
  cases sess.peerA with
  | none => rfl
  | some a => rfl

/-- The job an event of the relay sets to work; a datagram to a closed port is read by no one. -/
def eventJob (rs : RelayServer) : Event → Option Job
  | .register token sessionID now free => some (.register token sessionID now free)
  | .remove token => some (.remove token)
  | .invalidate token => some (.invalidate token)
  | .reap now => some (.reap now)
  | .main now raddr data order order' => some (.main raddr data order order' now now)
  | .raw port now raddr data => (rs.listenerOn port).map (fun p => .raw p raddr data now)

theorem run_eventJob {rs : RelayServer} {e : Event} {x : RelayServer × List Sent}
    (h : rs.step e = some x) (wire : List Sent) {j : Job} (hj : eventJob rs e = some j) :
    j.thread.run exec ⟨rs, wire⟩ = some ((), ⟨x.1, wire ++ x.2⟩) := by
  cases e with
  | register token sessionID now free =>
    cases hj
    obtain ⟨rs', hrs', rfl⟩ := Option.map_eq_some_iff.mp h
    refine (run_registerSession token sessionID now free ⟨rs, wire⟩).trans ?_
    rw [hrs', List.append_nil]
    rfl
  | remove token =>
    cases hj
    cases h
    rw [List.append_nil]
    exact run_dropSession token ⟨rs, wire⟩
  | invalidate token =>
    cases hj
    cases h
    rw [List.append_nil]
    exact run_dropSession token ⟨rs, wire⟩
  | reap now =>
    cases hj
    cases h
    rw [List.append_nil]
    rfl
  | main now raddr data order order' =>
    cases hj
    cases h
    exact run_serve raddr data order order' now ⟨rs, wire⟩
  | raw port now raddr data =>
    obtain ⟨p, hp, rfl⟩ := Option.map_eq_some_iff.mp hj
    simp only [RelayServer.step, hp] at h
    cases h
    obtain ⟨hmem, sess, hsess, -⟩ := RelayServer.listenerOn_eq_some hp
    exact run_serveRaw (m := ⟨rs, wire⟩) hmem hsess raddr data now

theorem step_of_eventJob_none {rs : RelayServer} {e : Event} {x : RelayServer × List Sent}
    (h : rs.step e = some x) (hj : eventJob rs e = none) : x.1 = rs := by
  cases e with
  | raw port now raddr data =>
    simp only [RelayServer.step, Option.map_eq_none_iff.mp hj] at h
    cases h
    rfl
  | _ => cases hj

/-- Every run of the relay's events is an interleaving of its jobs, one after the other. -/
theorem interleave_of_run {es : List Event} {rs rs' : RelayServer}
    (h : Step.run RelayServer.next es rs = some rs') (wire : List Sent) (ts : List Thread) :
    ∃ (turns : List Turn) (wire' : List Sent) (ts' : List Thread),
      Pool.play exec (turns.map Turn.event) ⟨⟨rs, wire⟩, ts⟩ = some ⟨⟨rs', wire'⟩, ts ++ ts'⟩ ∧
      ∀ t ∈ ts', t = .ret () := by
  induction es generalizing rs wire ts with
  | nil =>
    cases h
    exact ⟨[], wire, [], by simp [Pool.play], by simp⟩
  | cons e es ih =>
    obtain ⟨rs₁, hnext, hrest⟩ := Option.bind_eq_some_iff.mp h
    obtain ⟨out, hstep⟩ := RelayServer.next_eq_some.mp hnext
    cases hj : eventJob rs e with
    | none =>
      have hrs : rs₁ = rs := step_of_eventJob_none hstep hj
      subst hrs
      exact ih hrest wire ts
    | some j =>
      obtain ⟨n, hn⟩ := Pool.play_alone (run_eventJob hstep wire hj) ts
      obtain ⟨turns, wire', ts', hplay, hts'⟩ := ih hrest (wire ++ out) (ts ++ [.ret ()])
      refine ⟨.job j :: List.replicate n (.step ts.length) ++ turns, wire', .ret () :: ts', ?_, ?_⟩
      · rw [List.map_append, Pool.play_append]
        refine ⟨_, ?_, by rw [hplay, List.append_assoc]; rfl⟩
        rw [List.map_cons, List.map_replicate]
        exact hn
      · intro t ht
        obtain rfl | ht := List.mem_cons.mp ht
        · rfl
        · exact hts' t ht

/-! ## What an action changes -/

/-- The session objects an action may change. -/
def Action.Concerns (rs : RelayServer) : Action → Nat → Prop
  | .locate _ _ _ id, p | .assign _ _ _ id, p =>
    ∃ token sess, rs.sessions.lookup token = some p ∧ rs.heap[p]? = some sess ∧ sess.tokenID = id
  | .touch q _, p | .recordRenter q _, p => p = q
  | _, _ => False

/-- One of the concerned objects has changed, within its `Same`, and no other. -/
structure Changes (concerned : Nat → Prop) (rs rs' : RelayServer) (p : Nat)
    (sess sess' : RelaySession) : Prop where
  concerned : concerned p
  before : rs.heap[p]? = some sess
  same : sess.Same sess'
  roles : sess.Roles → sess'.Roles
  heap : rs'.heap = rs.heap.set p sess'

theorem find_eq_some {rs : RelayServer} {order : Order String} {id : List UInt8} {p : Nat}
    {sess : RelaySession} (h : find rs order id = some (p, sess)) :
    rs.heap[p]? = some sess ∧
      ∃ token, rs.sessions.lookup token = some p ∧ sess.tokenID = id := by
  obtain ⟨hfind, hsess⟩ := RelayServer.bind_map_heap h
  obtain ⟨token, sess', hp, hsess', hid⟩ := RelayServer.findSessionByTokenID_eq_some hfind
  rw [hsess] at hsess'
  cases hsess'
  exact ⟨hsess, token, hp, hid⟩

/-- The main loop has chosen the destination of a packet from `raddr`. -/
structure Chosen (rs rs' : RelayServer) (raddr : UDPAddr) (id : List UInt8) (p : Nat)
    (route : Route) : Prop where
  object : ∃ token sess sess', rs.sessions.lookup token = some p ∧ sess.tokenID = id ∧
    rs.heap[p]? = some sess ∧ rs'.heap[p]? = some sess' ∧
    ∀ dst, route = .main dst → sess'.Between raddr dst

theorem locate_send {rs : RelayServer} {order : Order String} {now : Int} {raddr : UDPAddr}
    {id : List UInt8} {p : Nat} {token : String} {route : Route}
    (h : (locate rs order now raddr id).1 = .send p token route) :
    Chosen rs (locate rs order now raddr id).2 raddr id p route := by
  unfold locate at h ⊢
  cases hfind : find rs order id with
  | none => simp [hfind] at h
  | some x =>
    obtain ⟨q, sess⟩ := x
    obtain ⟨hsess, token', htoken, hid⟩ := find_eq_some hfind
    by_cases hn : sess.needsWrite raddr = true
    · simp [hfind, hn] at h
    · simp only [hfind, if_neg hn, Decision.send.injEq] at h ⊢
      obtain ⟨rfl, -, rfl⟩ := h
      exact ⟨token', sess, _, htoken, hid, hsess, heap_update hsess _,
        fun dst hdst => RelaySession.fastRoute_between hdst⟩

theorem assign_send {rs : RelayServer} {order : Order String} {now : Int} {raddr : UDPAddr}
    {id : List UInt8} {p : Nat} {token : String} {route : Route}
    (h : (assign rs order now raddr id).1 = .send p token route) :
    Chosen rs (assign rs order now raddr id).2 raddr id p route := by
  unfold assign at h ⊢
  cases hfind : find rs order id with
  | none => simp [hfind] at h
  | some x =>
    obtain ⟨q, sess⟩ := x
    obtain ⟨hsess, token', htoken, hid⟩ := find_eq_some hfind
    simp only [hfind, Decision.send.injEq] at h ⊢
    obtain ⟨rfl, -, rfl⟩ := h
    exact ⟨token', sess, _, htoken, hid, hsess, heap_update hsess _,
      fun dst hdst => RelaySession.slowRoute_between hdst⟩

theorem locate_changes (rs : RelayServer) (order : Order String) (now : Int) (raddr : UDPAddr)
    (id : List UInt8) :
    (locate rs order now raddr id).2 = rs ∨ ∃ p sess sess',
      Changes (Action.Concerns rs (.locate order now raddr id)) rs
        (locate rs order now raddr id).2 p sess sess' := by
  unfold locate
  cases hfind : find rs order id with
  | none => exact .inl rfl
  | some x =>
    obtain ⟨p, sess⟩ := x
    obtain ⟨hsess, token, htoken, hid⟩ := find_eq_some hfind
    by_cases hn : sess.needsWrite raddr = true
    · exact .inl (by simp [hn])
    · refine .inr ⟨p, sess, { sess with lastActive := now }, ⟨token, sess, htoken, hsess, hid⟩, hsess,
        sess.same_touch now, fun h => ⟨h.first, h.distinct⟩, ?_⟩
      simp only [if_neg hn]
      rfl

theorem assign_changes (rs : RelayServer) (order : Order String) (now : Int) (raddr : UDPAddr)
    (id : List UInt8) :
    (assign rs order now raddr id).2 = rs ∨ ∃ p sess sess',
      Changes (Action.Concerns rs (.assign order now raddr id)) rs
        (assign rs order now raddr id).2 p sess sess' := by
  unfold assign
  cases hfind : find rs order id with
  | none => exact .inl rfl
  | some x =>
    obtain ⟨p, sess⟩ := x
    obtain ⟨hsess, token, htoken, hid⟩ := find_eq_some hfind
    exact .inr ⟨p, sess, (sess.slowRoute now raddr).1, ⟨token, sess, htoken, hsess, hid⟩, hsess,
      (sess.slowRoute_same now raddr).1, fun h => h.slowRoute now raddr, rfl⟩

theorem modify_changes (rs : RelayServer) (p : Nat) {f : RelaySession → RelaySession}
    (hsame : ∀ sess, RelaySession.Same sess (f sess))
    (hroles : ∀ sess, RelaySession.Roles sess → (f sess).Roles) :
    modify rs p f = rs ∨ ∃ q sess sess', Changes (fun q => q = p) rs (modify rs p f) q sess sess' := by
  cases hsess : rs.heap[p]? with
  | none => exact .inl (by simp only [modify, hsess])
  | some sess =>
    refine .inr ⟨p, sess, f sess, rfl, hsess, hsame sess, hroles sess, ?_⟩
    rw [modify_eq hsess]
    rfl

theorem exec_readFromUDP {p : Nat} {m m' : Machine} {r : String × List UInt8}
    (h : exec (.readFromUDP p) m = some (r, m')) : m' = m ∧ p ∈ m.server.listeners := by
  have hread : (if p ∈ m.server.listeners then
      m.server.heap[p]?.map (fun sess => ((sess.token, sess.tokenID), m)) else none) =
        some (r, m') := h
  split at hread
  next hp =>
    obtain ⟨sess, -, hm⟩ := Option.map_eq_some_iff.mp hread
    cases hm
    exact ⟨rfl, hp⟩
  next => cases hread

theorem exec_locate {order : Order String} {now : Int} {raddr : UDPAddr} {id : List UInt8}
    {m m' : Machine} {d : Decision} (h : exec (.locate order now raddr id) m = some (d, m')) :
    (locate m.server order now raddr id).1 = d ∧
      m' = { m with server := (locate m.server order now raddr id).2 } := by
  cases h
  exact ⟨rfl, rfl⟩

theorem exec_assign {order : Order String} {now : Int} {raddr : UDPAddr} {id : List UInt8}
    {m m' : Machine} {d : Decision} (h : exec (.assign order now raddr id) m = some (d, m')) :
    (assign m.server order now raddr id).1 = d ∧
      m' = { m with server := (assign m.server order now raddr id).2 } := by
  cases h
  exact ⟨rfl, rfl⟩

theorem locate_sessions (rs : RelayServer) (order : Order String) (now : Int) (raddr : UDPAddr)
    (id : List UInt8) : (locate rs order now raddr id).2.sessions = rs.sessions := by
  unfold locate
  split
  · rfl
  · split <;> rfl

theorem assign_sessions (rs : RelayServer) (order : Order String) (now : Int) (raddr : UDPAddr)
    (id : List UInt8) : (assign rs order now raddr id).2.sessions = rs.sessions := by
  unfold assign
  split <;> rfl

theorem modify_sessions (rs : RelayServer) (p : Nat) (f : RelaySession → RelaySession) :
    (modify rs p f).sessions = rs.sessions := by
  unfold modify
  split <;> rfl

/-- Only `enter` brings a token into the map. -/
theorem exec_sessions {a : Action} {m m' : Machine} {r : a.Res} (h : exec a m = some (r, m'))
    {token : String} {p : Nat} (hp : m'.server.sessions.lookup token = some p) :
    m.server.sessions.lookup token = some p ∨ a = .enter token p := by
  cases a with
  | bind token' sessionID now free =>
    obtain ⟨rs, hrs, hm⟩ := Option.map_eq_some_iff.mp h
    cases hm
    unfold RelayServer.bindSession at hrs
    split at hrs
    · cases hrs
    · cases hrs
      exact .inl hp
  | enter token' q =>
    cases h
    simp only [RelayServer.enterSession, Map.lookup_insert] at hp
    split at hp
    next ht =>
      cases hp
      subst ht
      exact .inr rfl
    next => exact .inl hp
  | delete token' =>
    cases h
    simp only [Map.lookup_erase] at hp
    split at hp
    · cases hp
    · exact .inl hp
  | close q =>
    cases h
    exact .inl hp
  | reap now =>
    cases h
    rw [RelayServer.lookup_reapIdleSessions] at hp
    split at hp
    next => cases hp
    next => exact .inl hp
  | locate order now raddr id =>
    cases h
    exact .inl (locate_sessions m.server order now raddr id ▸ hp)
  | assign order now raddr id =>
    cases h
    exact .inl (assign_sessions m.server order now raddr id ▸ hp)
  | readFromUDP q =>
    rw [(exec_readFromUDP h).1] at hp
    exact .inl hp
  | touch q now =>
    cases h
    exact .inl (modify_sessions m.server q _ ▸ hp)
  | recordRenter q raddr =>
    cases h
    exact .inl (modify_sessions m.server q _ ▸ hp)
  | readPeerA q =>
    cases h
    exact .inl hp
  | write q token' route data =>
    cases h
    exact .inl hp

/-- Only `write` sends something. -/
theorem exec_wire {a : Action} {m m' : Machine} {r : a.Res} (h : exec a m = some (r, m')) :
    m'.wire = m.wire ∨ ∃ p token route data, a = .write p token route data ∧
      m'.wire = m.wire ++ m.server.forward p token data route := by
  cases a with
  | bind token sessionID now free =>
    obtain ⟨rs, -, hm⟩ := Option.map_eq_some_iff.mp h
    cases hm
    exact .inl rfl
  | readFromUDP p =>
    rw [(exec_readFromUDP h).1]
    exact .inl rfl
  | write p token route data =>
    cases h
    exact .inr ⟨p, token, route, data, rfl, rfl⟩
  | _ =>
    cases h
    exact .inl rfl

/-- What an action can do to the session objects: nothing, make a blank one at the end of the
heap, or change one that it concerns. -/
theorem exec_heap {a : Action} {m m' : Machine} {r : a.Res} (h : exec a m = some (r, m')) :
    m'.server.heap = m.server.heap ∨
    (∃ sess : RelaySession, sess.peerA = none ∧ sess.peerB = none ∧
      sess.tokenID = tokenID sess.token ∧ m'.server.heap = m.server.heap ++ [sess]) ∨
    ∃ p sess sess', Changes (a.Concerns m.server) m.server m'.server p sess sess' := by
  have hserver : ∀ {rs : RelayServer} {concerned : Nat → Prop},
      (rs = m.server ∨ ∃ p sess sess', Changes concerned m.server rs p sess sess') →
      rs.heap = m.server.heap ∨ (∃ sess : RelaySession, sess.peerA = none ∧ sess.peerB = none ∧
        sess.tokenID = tokenID sess.token ∧ rs.heap = m.server.heap ++ [sess]) ∨
      ∃ p sess sess', Changes concerned m.server rs p sess sess' := by
    rintro rs concerned (rfl | hchanges)
    · exact .inl rfl
    · exact .inr (.inr hchanges)
  cases a with
  | bind token sessionID now free =>
    obtain ⟨rs, hrs, hm⟩ := Option.map_eq_some_iff.mp h
    cases hm
    unfold RelayServer.bindSession at hrs
    split at hrs
    · cases hrs
    · cases hrs
      exact .inr (.inl ⟨_, rfl, rfl, rfl, rfl⟩)
  | enter token p =>
    cases h
    exact .inl rfl
  | delete token =>
    cases h
    exact .inl rfl
  | close p =>
    cases h
    exact .inl rfl
  | reap now =>
    cases h
    exact .inl (RelayServer.heap_reapIdleSessions _ _)
  | locate order now raddr id =>
    cases h
    exact hserver (locate_changes m.server order now raddr id)
  | assign order now raddr id =>
    cases h
    exact hserver (assign_changes m.server order now raddr id)
  | readFromUDP p =>
    rw [(exec_readFromUDP h).1]
    exact .inl rfl
  | touch p now =>
    cases h
    exact hserver (modify_changes m.server p (fun sess => sess.same_touch now)
      (fun sess h => ⟨h.first, h.distinct⟩))
  | recordRenter p raddr =>
    cases h
    exact hserver (modify_changes m.server p (fun sess => ⟨rfl, rfl, rfl, id, id⟩)
      (fun sess h => ⟨h.first, h.distinct⟩))
  | readPeerA p =>
    cases h
    exact .inl rfl
  | write p token route data =>
    cases h
    exact .inl rfl

end PeerCompute.Relay.Threads
