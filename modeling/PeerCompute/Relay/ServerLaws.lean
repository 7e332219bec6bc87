import PeerCompute.Relay.Server

namespace PeerCompute.Relay

open PeerCompute.Data PeerCompute.Interleaving

/-- What a session object keeps for its whole life: a peer, once assigned, stays. -/
structure RelaySession.Same (sess sess' : RelaySession) : Prop where
  token : sess'.token = sess.token
  tokenID : sess'.tokenID = sess.tokenID
  rawConn : sess'.rawConn = sess.rawConn
  peerA : ∀ {a}, sess.peerA = some a → sess'.peerA = some a
  peerB : ∀ {b}, sess.peerB = some b → sess'.peerB = some b

theorem RelaySession.Same.refl (sess : RelaySession) : sess.Same sess := ⟨rfl, rfl, rfl, id, id⟩

theorem RelaySession.same_touch (sess : RelaySession) (now : Int) :
    sess.Same { sess with lastActive := now } := ⟨rfl, rfl, rfl, id, id⟩

theorem RelaySession.same_raw (sess : RelaySession) (now : Int) (raddr : UDPAddr) :
    sess.Same { sess with lastActive := now, renterAddr := some raddr } := ⟨rfl, rfl, rfl, id, id⟩

theorem RelaySession.slowRoute_same (sess : RelaySession) (now : Int) (raddr : UDPAddr) :
    sess.Same (sess.slowRoute now raddr).1 ∧
      (sess.slowRoute now raddr).1.renterAddr = sess.renterAddr := by
  unfold slowRoute
  split
  next hA => exact ⟨⟨rfl, rfl, rfl, fun h => by simp [hA] at h, id⟩, rfl⟩
  next =>
    split_ifs with hB
    · exact ⟨⟨rfl, rfl, rfl, id, fun h => by simp [hB.1] at h⟩, rfl⟩
    · exact ⟨sess.same_touch now, rfl⟩
    · exact ⟨sess.same_touch now, rfl⟩
    · exact ⟨.refl sess, rfl⟩

/-- The second peer is assigned after the first, and to another address. -/
structure RelaySession.Roles (sess : RelaySession) : Prop where
  first : sess.peerA = none → sess.peerB = none
  distinct : ∀ {a}, sess.peerA = some a → sess.peerB ≠ some a

theorem RelaySession.Roles.slowRoute {sess : RelaySession} (h : sess.Roles) (now : Int)
    (raddr : UDPAddr) : (sess.slowRoute now raddr).1.Roles := by
  unfold RelaySession.slowRoute
  split
  next hA =>
    refine ⟨fun hnone => absurd hnone (by simp), fun _ => ?_⟩
    simp [h.first hA]
  next a hA =>
    split_ifs with hB
    · refine ⟨fun hnone => by simp [hA] at hnone, fun {a'} ha' hb => ?_⟩
      rw [hA] at ha'
      cases ha'
      exact hB.2.2 (Option.some.inj hb)
    · exact ⟨h.first, h.distinct⟩
    · exact ⟨h.first, h.distinct⟩
    · exact h

/-- `raddr` is one peer of the session and `dst` the other. -/
def RelaySession.Between (sess : RelaySession) (raddr dst : UDPAddr) : Prop :=
  (sess.peerA = some raddr ∧ sess.peerB = some dst) ∨
    (sess.peerB = some raddr ∧ sess.peerA = some dst)

theorem RelaySession.renterRoute_eq_main {sess : RelaySession} {dst : UDPAddr}
    (h : sess.renterRoute = .main dst) : sess.peerB = some dst := by
  unfold renterRoute at h
  split at h
  · cases h
  · split at h
    next b hb =>
      cases h
      exact hb
    next => cases h

theorem RelaySession.fastRoute_between {sess : RelaySession} {raddr dst : UDPAddr}
    (h : sess.fastRoute raddr = .main dst) : sess.Between raddr dst := by
  unfold fastRoute at h
  split at h
  · cases h
  next a hA =>
    split_ifs at h with ha hB
    · subst ha
      exact .inl ⟨hA, renterRoute_eq_main h⟩
    · cases h
      exact .inr ⟨hB, hA⟩

/-- The peers are those after the assignment. -/
theorem RelaySession.slowRoute_between {sess : RelaySession} {now : Int} {raddr dst : UDPAddr}
    (h : (sess.slowRoute now raddr).2 = .main dst) :
    (sess.slowRoute now raddr).1.Between raddr dst := by
  unfold slowRoute at h ⊢
  split at h
  · cases h
  next a hA =>
    split_ifs at h ⊢ with hB ha hB'
    · cases h
      exact .inr ⟨rfl, hA⟩
    · subst ha
      exact .inl ⟨hA, renterRoute_eq_main h⟩
    · cases h
      exact .inr ⟨hB', hA⟩

theorem token_of_mem_writeToUDP {token : String} {socket : Socket} {data : List UInt8}
    {dst : UDPAddr} {x : Sent} (h : x ∈ writeToUDP token socket data dst) : x.token = token := by
  unfold writeToUDP at h
  split at h
  · rw [List.mem_singleton.mp h]
  · cases h

/-- A packet that the main loop looks at: long enough for a header, with the magic in front. -/
def IsPacket (data : List UInt8) : Prop :=
  ¬((data.take 65536).length < headerLen ∨ (data.take 65536).take magicLen ≠ relayMagic)

def packetID (data : List UInt8) : List UInt8 :=
  ((data.take 65536).drop magicLen).take tokenIDLen

def packetPayload (data : List UInt8) : List UInt8 := (data.take 65536).drop headerLen

/-- When no peer has to be assigned, the two switches choose the same destination, and the one
under the write lock would have assigned none either. -/
theorem RelaySession.slowRoute_of_not_needsWrite {sess : RelaySession} {raddr : UDPAddr}
    (h : sess.needsWrite raddr = false) (now : Int) :
    (sess.slowRoute now raddr).2 = sess.fastRoute raddr ∧
      ∃ active, (sess.slowRoute now raddr).1 = { sess with lastActive := active } := by
  cases ha : sess.peerA with
  | none => simp [RelaySession.needsWrite, ha] at h
  | some a =>
    have hassign : ¬(sess.peerB = none ∧ sess.renterAddr = none ∧ raddr ≠ a) := by
      rintro ⟨hb, hr, hne⟩
      have hne' : ¬a = raddr := fun h => hne h.symm
      simp [RelaySession.needsWrite, ha, hb, hr, hne'] at h
    simp only [RelaySession.slowRoute, RelaySession.fastRoute, ha, if_neg hassign]
    split
    next => exact ⟨rfl, now, rfl⟩
    next =>
      split
      next => exact ⟨rfl, now, rfl⟩
      next =>
        refine ⟨rfl, sess.lastActive, ?_⟩
        rw [← ha]

namespace RelayServer

theorem token_of_mem_forward {rs : RelayServer} {p : Nat} {token : String} {payload : List UInt8}
    {route : Route} {x : Sent} (h : x ∈ rs.forward p token payload route) : x.token = token := by
  cases route with
  | none => cases h
  | main target => exact token_of_mem_writeToUDP h
  | raw port dst =>
    simp only [forward] at h
    split at h
    · exact token_of_mem_writeToUDP h
    · cases h

/-- A datagram was handled for the session object at `p`: nothing but that object changed, its
renter address became `renter` if that was recorded, and what was sent was sent for its token. -/
def Handles (rs : RelayServer) (p : Nat) (renter : Option UDPAddr)
    (x : RelayServer × List Sent) : Prop :=
  ∃ sess sess', rs.heap[p]? = some sess ∧ sess.Same sess' ∧
    sess'.renterAddr = renter.or sess.renterAddr ∧ x.1 = rs.update p sess' ∧
    ∀ sent ∈ x.2, sent.token = sess.token

theorem findSessionByTokenID_eq_some {rs : RelayServer} {order : Order String} {id : List UInt8}
    {p : Nat} (h : rs.findSessionByTokenID order id = some p) :
    ∃ token sess, rs.sessions.lookup token = some p ∧ rs.heap[p]? = some sess ∧
      sess.tokenID = id := by
  obtain ⟨token, -, h⟩ := List.exists_of_findSome?_eq_some h
  obtain ⟨hp, h⟩ := Option.filter_eq_some_iff.mp h
  obtain ⟨sess, hsess, hid⟩ := (Option.any_eq_true _ _).mp h
  exact ⟨token, sess, hp, hsess, of_decide_eq_true hid⟩

theorem bind_map_heap {rs : RelayServer} {o : Option Nat} {p : Nat} {sess : RelaySession}
    (h : o.bind (fun p => rs.heap[p]?.map (fun s => (p, s))) = some (p, sess)) :
    o = some p ∧ rs.heap[p]? = some sess := by
  obtain ⟨q, hq, h⟩ := Option.bind_eq_some_iff.mp h
  obtain ⟨s, hs, h⟩ := Option.map_eq_some_iff.mp h
  cases h
  exact ⟨hq, hs⟩

theorem serveFast_cases {rs : RelayServer} {order : Order String} {now : Int} {raddr : UDPAddr}
    {id payload : List UInt8} {x : RelayServer × List Sent}
    (h : rs.serveFast order now raddr id payload = some x) :
    x = (rs, []) ∨ ∃ p, rs.findSessionByTokenID order id = some p ∧ rs.Handles p none x := by
  unfold serveFast at h
  split at h
  next => exact .inl (Option.some.inj h).symm
  next p sess hp =>
    obtain ⟨hfind, hsess⟩ := bind_map_heap hp
    split at h
    · cases h
    · cases h
      exact .inr ⟨p, hfind, sess, _, hsess, sess.same_touch now, rfl, rfl,
        fun _ => token_of_mem_forward⟩

theorem serveSlow_cases (rs : RelayServer) (order : Order String) (now : Int) (raddr : UDPAddr)
    (id payload : List UInt8) :
    rs.serveSlow order now raddr id payload = (rs, []) ∨
      ∃ p, rs.findSessionByTokenID order id = some p ∧
        rs.Handles p none (rs.serveSlow order now raddr id payload) := by
  unfold serveSlow
  split
  next => exact .inl rfl
  next p sess hp =>
    obtain ⟨hfind, hsess⟩ := bind_map_heap hp
    obtain ⟨hsame, hrenter⟩ := sess.slowRoute_same now raddr
    exact .inr ⟨p, hfind, sess, _, hsess, hsame, hrenter, rfl, fun _ => token_of_mem_forward⟩

/-- A datagram on the main socket is dropped or handled for a registered session. -/
theorem serve_cases (rs : RelayServer) (order order' : Order String) (now : Int)
    (raddr : UDPAddr) (data : List UInt8) :
    rs.serve order order' now raddr data = (rs, []) ∨
      ∃ token p, rs.sessions.lookup token = some p ∧
        rs.Handles p none (rs.serve order order' now raddr data) := by
  simp only [serve]
  split
  next => exact .inl rfl
  next =>
    split
    next x hfast =>
      obtain rfl | ⟨p, hfind, h⟩ := serveFast_cases hfast
      · exact .inl rfl
      · obtain ⟨token, -, htoken, -⟩ := findSessionByTokenID_eq_some hfind
        exact .inr ⟨token, p, htoken, h⟩
    next =>
      obtain h | ⟨p, hfind, h⟩ := rs.serveSlow_cases order' now raddr
        (List.take tokenIDLen (List.drop magicLen (List.take 65536 data)))
        (List.drop headerLen (List.take 65536 data))
      · exact .inl h
      · obtain ⟨token, -, htoken, -⟩ := findSessionByTokenID_eq_some hfind
        exact .inr ⟨token, p, htoken, h⟩

theorem serveRaw_handles {rs : RelayServer} {p : Nat} {sess : RelaySession}
    (hsess : rs.heap[p]? = some sess) (now : Int) (raddr : UDPAddr) (data : List UInt8) :
    rs.Handles p (some raddr) (rs.serveRaw p now raddr data) := by
  simp only [serveRaw, hsess]
  split
  next =>
    refine ⟨sess, _, hsess, sess.same_raw now raddr, rfl, rfl, fun x hx => ?_⟩
    cases hx
  next =>
    exact ⟨sess, _, hsess, sess.same_raw now raddr, rfl, rfl, fun _ => token_of_mem_writeToUDP⟩

theorem listenerOn_eq_some {rs : RelayServer} {port p : Nat} (h : rs.listenerOn port = some p) :
    p ∈ rs.listeners ∧ ∃ sess, rs.heap[p]? = some sess ∧ sess.rawConn = some port := by
  unfold listenerOn at h
  refine ⟨List.mem_of_find?_eq_some h, ?_⟩
  have hany := List.find?_some h
  obtain ⟨sess, hsess, hport⟩ := (Option.any_eq_true _ _).mp hany
  exact ⟨sess, hsess, of_decide_eq_true hport⟩

/-- Everything one event can do. -/
theorem step_cases {rs : RelayServer} {e : Event} {x : RelayServer × List Sent}
    (h : rs.step e = some x) :
    (∃ token sessionID now free, e = .register token sessionID now free ∧
      rs.registerSession now free token sessionID = some x.1 ∧ x.2 = []) ∨
    (e.registers = none ∧
      ((∃ token, (e = .remove token ∨ e = .invalidate token) ∧ x = (rs.dropSession token, [])) ∨
       (∃ now, e = .reap now ∧ x = (rs.reapIdleSessions now, [])) ∨
       x = (rs, []) ∨
       (∃ p renter, ((∃ token, rs.sessions.lookup token = some p) ∨ p ∈ rs.listeners) ∧
         rs.Handles p renter x))) := by
  cases e with
  | register token sessionID now free =>
    obtain ⟨rs', h', rfl⟩ := Option.map_eq_some_iff.mp h
    exact .inl ⟨token, sessionID, now, free, rfl, h', rfl⟩
  | remove token =>
    cases h
    exact .inr ⟨rfl, .inl ⟨token, .inl rfl, rfl⟩⟩
  | invalidate token =>
    cases h
    exact .inr ⟨rfl, .inl ⟨token, .inr rfl, rfl⟩⟩
  | reap now =>
    cases h
    exact .inr ⟨rfl, .inr (.inl ⟨now, rfl, rfl⟩)⟩
  | main now raddr data order order' =>
    cases h
    obtain h | ⟨token, p, hp, h⟩ := rs.serve_cases order order' now raddr data
    · exact .inr ⟨rfl, .inr (.inr (.inl h))⟩
    · exact .inr ⟨rfl, .inr (.inr (.inr ⟨p, none, .inl ⟨token, hp⟩, h⟩))⟩
  | raw port now raddr data =>
    simp only [step] at h
    split at h
    next => exact .inr ⟨rfl, .inr (.inr (.inl (Option.some.inj h).symm))⟩
    next p hp =>
      cases h
      obtain ⟨hmem, sess, hsess, -⟩ := listenerOn_eq_some hp
      exact .inr ⟨rfl, .inr (.inr (.inr
        ⟨p, some raddr, .inr hmem, serveRaw_handles hsess now raddr data⟩))⟩

theorem Handles.sessions {rs : RelayServer} {p : Nat} {renter : Option UDPAddr}
    {x : RelayServer × List Sent} (h : rs.Handles p renter x) : x.1.sessions = rs.sessions := by
  obtain ⟨_, _, -, -, -, hx, -⟩ := h
  rw [hx]
  rfl

theorem Handles.listeners {rs : RelayServer} {p : Nat} {renter : Option UDPAddr}
    {x : RelayServer × List Sent} (h : rs.Handles p renter x) : x.1.listeners = rs.listeners := by
  obtain ⟨_, _, -, -, -, hx, -⟩ := h
  rw [hx]
  rfl

theorem Handles.heap {rs : RelayServer} {p q : Nat} {renter : Option UDPAddr}
    {x : RelayServer × List Sent} (h : rs.Handles p renter x) {s : RelaySession}
    (hs : rs.heap[q]? = some s) :
    ∃ s', x.1.heap[q]? = some s' ∧ s.Same s' := by
  obtain ⟨sess, sess', hsess, hsame, -, hx, -⟩ := h
  rw [hx]
  simp only [update, List.getElem?_set]
  split
  next hpq =>
    subst hpq
    obtain ⟨hlt, -⟩ := List.getElem?_eq_some_iff.mp hs
    rw [hsess] at hs
    cases hs
    exact ⟨sess', by simp [hlt], hsame⟩
  next => exact ⟨s, hs, .refl s⟩

theorem Handles.heap_of {rs : RelayServer} {p q : Nat} {renter : Option UDPAddr}
    {x : RelayServer × List Sent} (h : rs.Handles p renter x) {s' : RelaySession}
    (hs : x.1.heap[q]? = some s') :
    ∃ s, rs.heap[q]? = some s ∧ s.Same s' := by
  have hlen : x.1.heap.length = rs.heap.length := by
    obtain ⟨_, _, -, -, -, hx, -⟩ := h
    rw [hx]
    exact List.length_set
  obtain ⟨hlt, -⟩ := List.getElem?_eq_some_iff.mp hs
  have hq : rs.heap[q]? = some (rs.heap[q]) := List.getElem?_eq_getElem (hlen ▸ hlt)
  obtain ⟨t, ht, hsame⟩ := h.heap hq
  rw [hs] at ht
  cases ht
  exact ⟨_, hq, hsame⟩

theorem lookup_dropSession (rs : RelayServer) (token token' : String) :
    (rs.dropSession token).sessions.lookup token' =
      if token' = token then none else rs.sessions.lookup token' := by
  unfold dropSession
  split
  next h =>
    split
    next ht => rw [ht, h]
    next => rfl
  next p h => exact Map.lookup_erase _ _ _

@[simp] theorem dropSession_heap (rs : RelayServer) (token : String) :
    (rs.dropSession token).heap = rs.heap := by
  unfold dropSession
  split <;> rfl

/-- Dropping a token closes the raw socket of the session it names, and no other. -/
theorem mem_listeners_dropSession {rs : RelayServer} {token : String} {p : Nat} :
    p ∈ (rs.dropSession token).listeners ↔
      p ∈ rs.listeners ∧ rs.sessions.lookup token ≠ some p := by
  unfold dropSession
  split
  next h => simp [h]
  next q h =>
    rw [List.mem_filter, decide_eq_true_eq, h]
    simp only [ne_eq, Option.some.injEq, eq_comm]

/-- What holds of a relay and survives every drop survives a sweep of the reaper. -/
theorem reapIdleSessions_induct {P : RelayServer → Prop}
    (hdrop : ∀ rs token, P rs → P (rs.dropSession token)) {rs : RelayServer} (h : P rs)
    (now : Int) : P (rs.reapIdleSessions now) := by
  have hfold : ∀ (tokens : List String) (rs : RelayServer), P rs →
      P (tokens.foldl (reapIdle now) rs) := by
    intro tokens
    induction tokens with
    | nil => exact fun _ h => h
    | cons token tokens ih =>
      intro rs h
      refine ih _ ?_
      unfold reapIdle
      split
      next => exact h
      next =>
        split
        · exact hdrop rs token h
        · exact h
  exact hfold rs.sessions.keys rs h

/-- The session of this token has not been active for more than the idle timeout. -/
def idle (rs : RelayServer) (now : Int) (token : String) : Bool :=
  ((rs.sessions.lookup token).bind (fun p => rs.heap[p]?)).any
    (fun sess => now - sess.lastActive > idleTimeout)

theorem reapIdle_eq (now : Int) (rs : RelayServer) (token : String) :
    reapIdle now rs token = if rs.idle now token then rs.dropSession token else rs := by
  unfold reapIdle idle
  split
  next hnone => rw [hnone, Option.any_none, if_neg Bool.false_ne_true]
  next sess hsess => simp only [hsess, Option.any_some, decide_eq_true_eq]

theorem idle_dropSession (rs : RelayServer) (now : Int) {token token' : String}
    (h : token' ≠ token) : (rs.dropSession token).idle now token' = rs.idle now token' := by
  rw [idle, idle, lookup_dropSession, if_neg h, dropSession_heap]

theorem lookup_foldl_reapIdle (now : Int) (tokens : List String) (rs : RelayServer)
    (token : String) :
    (tokens.foldl (reapIdle now) rs).sessions.lookup token =
      if token ∈ tokens ∧ rs.idle now token = true then none else rs.sessions.lookup token := by
  induction tokens generalizing rs with
  | nil => rw [if_neg (fun h => by cases h.1)]; rfl
  | cons token' tokens ih =>
    rw [List.foldl_cons, ih, reapIdle_eq]
    by_cases heq : token = token'
    · subst heq
      by_cases hidle : rs.idle now token = true
      · rw [if_pos hidle, lookup_dropSession, if_pos rfl, ite_self, if_pos ⟨.head _, hidle⟩]
      · rw [if_neg hidle, if_neg (fun h => hidle h.2), if_neg (fun h => hidle h.2)]
    · simp only [List.mem_cons, heq, false_or]
      by_cases hidle : rs.idle now token' = true
      · rw [if_pos hidle, lookup_dropSession, if_neg heq, idle_dropSession rs now heq]
      · rw [if_neg hidle]

theorem lookup_reapIdleSessions (now : Int) (rs : RelayServer) (token : String) :
    (rs.reapIdleSessions now).sessions.lookup token =
      if rs.idle now token = true then none else rs.sessions.lookup token := by
  rw [reapIdleSessions, lookup_foldl_reapIdle]
  cases hlookup : rs.sessions.lookup token with
  | none => rw [ite_self, ite_self]
  | some p => rw [if_congr (and_iff_right (Map.mem_keys_iff.mpr ⟨p, hlookup⟩)) rfl rfl]

/-- `rs'` is `rs` with the session object `sess` registered for `token`. -/
structure Registers (rs rs' : RelayServer) (token : String) (sess : RelaySession) : Prop where
  token_eq : sess.token = token
  tokenID_eq : sess.tokenID = tokenID token
  sessions : rs'.sessions = rs.sessions.insert token rs.heap.length
  heap : rs'.heap = rs.heap ++ [sess]
  listeners : (sess.rawConn = none ∧ rs'.listeners = rs.listeners) ∨
    (sess.rawConn = some (rawPortForToken token) ∧ rawPortForToken token ∉ rs.boundPorts ∧
      rs'.listeners = rs.heap.length :: rs.listeners)

/-- Everything a registration can do. -/
theorem registerSession_eq_some {rs rs' : RelayServer} {now : Int} {free : Bool}
    {token sessionID : String} (h : rs.registerSession now free token sessionID = some rs') :
    ∃ sess, Registers rs rs' token sess := by
  unfold registerSession bindSession at h
  split at h
  · cases h
  · cases h
    refine ⟨_, rfl, rfl, rfl, rfl, ?_⟩
    by_cases hb : (free && !rs.boundPorts.contains (rawPortForToken token)) = true
    · refine .inr ⟨if_pos hb, ?_, if_pos hb⟩
      simp only [Bool.and_eq_true, Bool.not_eq_true', List.contains_eq_mem,
        decide_eq_false_iff_not] at hb
      exact hb.2
    · exact .inl ⟨if_neg hb, if_neg hb⟩

section

variable {rs rs' : RelayServer} {token : String} {sess : RelaySession}

theorem Registers.heap_lt (h : Registers rs rs' token sess) {p : Nat} (hp : p < rs.heap.length) :
    rs'.heap[p]? = rs.heap[p]? := by
  rw [h.heap, List.getElem?_append_left hp]

theorem Registers.heap_length (h : Registers rs rs' token sess) :
    rs'.heap[rs.heap.length]? = some sess := by
  rw [h.heap, List.getElem?_concat_length]

theorem Registers.listens (h : Registers rs rs' token sess) {p : Nat} (hp : p ∈ rs.listeners) :
    p ∈ rs'.listeners := by
  obtain ⟨-, hl⟩ | ⟨-, -, hl⟩ := h.listeners
  · exact hl ▸ hp
  · exact hl ▸ .tail _ hp

/-- The only socket a registration opens is on a port that no raw socket had. -/
theorem Registers.listens_cases (h : Registers rs rs' token sess) {p : Nat}
    (hp : p ∈ rs'.listeners) : p ∈ rs.listeners ∨
      (p = rs.heap.length ∧ sess.rawConn = some (rawPortForToken token) ∧
        rawPortForToken token ∉ rs.boundPorts) := by
  obtain ⟨-, hl⟩ | ⟨hraw, hb, hl⟩ := h.listeners
  · exact .inl (hl ▸ hp)
  · rw [hl] at hp
    obtain rfl | hp := List.mem_cons.mp hp
    · exact .inr ⟨rfl, hraw, hb⟩
    · exact .inl hp

/-- The raw socket of the session made, where its bind succeeded, is on the token's port. -/
theorem Registers.rawConn (h : Registers rs rs' token sess) {port : Nat}
    (hport : sess.rawConn = some port) :
    port = rawPortForToken token ∧ rs.heap.length ∈ rs'.listeners := by
  obtain ⟨hraw, -⟩ | ⟨hraw, -, hl⟩ := h.listeners
  · rw [hraw] at hport
    cases hport
  · rw [hraw] at hport
    cases hport
    exact ⟨rfl, hl ▸ .head _⟩

end

/-- Every token names a session object made for it, whose raw socket is open on the token's port if
it has one, and no two open raw sockets share a port. -/
structure Wf (rs : RelayServer) : Prop where
  session : ∀ {token p}, rs.sessions.lookup token = some p → ∃ sess, rs.heap[p]? = some sess ∧
    sess.token = token ∧ sess.tokenID = tokenID token ∧
    ∀ port, sess.rawConn = some port → port = rawPortForToken token ∧ p ∈ rs.listeners
  listener : ∀ {p}, p ∈ rs.listeners → ∃ sess port, rs.heap[p]? = some sess ∧
    sess.rawConn = some port
  port : ∀ {p q s t port}, p ∈ rs.listeners → q ∈ rs.listeners → rs.heap[p]? = some s →
    rs.heap[q]? = some t → s.rawConn = some port → t.rawConn = some port → p = q

theorem newRelayServer_wf (addr : String) : (newRelayServer addr).Wf where
  session h := by simp [newRelayServer] at h
  listener h := by simp [newRelayServer] at h
  port h := by simp [newRelayServer] at h

theorem Wf.handles {rs : RelayServer} (hw : rs.Wf) {p : Nat} {renter : Option UDPAddr}
    {x : RelayServer × List Sent} (h : rs.Handles p renter x) : x.1.Wf where
  session := by
    intro token q hq
    rw [h.sessions] at hq
    obtain ⟨s, hs, ht, hid, hraw⟩ := hw.session hq
    obtain ⟨s', hs', hsame⟩ := h.heap hs
    refine ⟨s', hs', hsame.token.trans ht, hsame.tokenID.trans hid, fun port hport => ?_⟩
    rw [h.listeners]
    exact hraw port (hsame.rawConn.symm.trans hport)
  listener := by
    intro q hq
    rw [h.listeners] at hq
    obtain ⟨s, port, hs, hport⟩ := hw.listener hq
    obtain ⟨s', hs', hsame⟩ := h.heap hs
    exact ⟨s', port, hs', hsame.rawConn.trans hport⟩
  port := by
    intro q r s' t' port hq hr hs' ht' hsp htp
    rw [h.listeners] at hq hr
    obtain ⟨s, hs, hsame⟩ := h.heap_of hs'
    obtain ⟨t, ht, htame⟩ := h.heap_of ht'
    exact hw.port hq hr hs ht (hsame.rawConn.symm.trans hsp) (htame.rawConn.symm.trans htp)

theorem Wf.dropSession {rs : RelayServer} (hw : rs.Wf) (token : String) :
    (rs.dropSession token).Wf where
  session := by
    intro token' p hp
    rw [lookup_dropSession] at hp
    split at hp
    · cases hp
    next hne =>
      obtain ⟨s, hs, ht, hid, hraw⟩ := hw.session hp
      refine ⟨s, by simpa using hs, ht, hid, fun port hport => ?_⟩
      obtain ⟨hport, hmem⟩ := hraw port hport
      refine ⟨hport, mem_listeners_dropSession.mpr ⟨hmem, fun hp' => hne ?_⟩⟩
      obtain ⟨s', hs', ht', -⟩ := hw.session hp'
      rw [hs] at hs'
      cases hs'
      exact ht.symm.trans ht'
  listener := by
    intro p hp
    rw [dropSession_heap]
    exact hw.listener (mem_listeners_dropSession.mp hp).1
  port := by
    intro p q s t port hp hq hs ht hsp htp
    rw [dropSession_heap] at hs ht
    exact hw.port (mem_listeners_dropSession.mp hp).1 (mem_listeners_dropSession.mp hq).1 hs ht
      hsp htp

theorem Wf.lookup_lt {rs : RelayServer} (hw : rs.Wf) {token : String} {p : Nat}
    (hp : rs.sessions.lookup token = some p) : p < rs.heap.length := by
  obtain ⟨s, hs, -⟩ := hw.session hp
  exact (List.getElem?_eq_some_iff.mp hs).1

theorem Wf.listener_lt {rs : RelayServer} (hw : rs.Wf) {p : Nat} (hp : p ∈ rs.listeners) :
    p < rs.heap.length := by
  obtain ⟨s, port, hs, -⟩ := hw.listener hp
  exact (List.getElem?_eq_some_iff.mp hs).1

theorem mem_boundPorts {rs : RelayServer} {p port : Nat} {s : RelaySession}
    (hp : p ∈ rs.listeners) (hs : rs.heap[p]? = some s) (hport : s.rawConn = some port) :
    port ∈ rs.boundPorts :=
  List.mem_filterMap.mpr ⟨p, hp, by rw [hs]; exact hport⟩

/-- The bind of the new socket failed if an open raw socket had its port. -/
theorem Wf.registers_ne {rs rs' : RelayServer} (hw : rs.Wf) {token : String} {sess : RelaySession}
    (h : Registers rs rs' token sess) {p port : Nat} {s : RelaySession} (hp : p ∈ rs.listeners)
    (hs : rs'.heap[p]? = some s) (hport : s.rawConn = some port)
    (hb : rawPortForToken token ∉ rs.boundPorts) : sess.rawConn ≠ some port := by
  intro heq
  rw [h.heap_lt (hw.listener_lt hp)] at hs
  exact hb ((h.rawConn heq).1 ▸ mem_boundPorts hp hs hport)

theorem Wf.registers {rs rs' : RelayServer} (hw : rs.Wf) {token : String} {sess : RelaySession}
    (h : Registers rs rs' token sess) : rs'.Wf where
  session := by
    intro token' p hp
    rw [h.sessions, Map.lookup_insert] at hp
    split at hp
    next htt =>
      cases hp
      subst htt
      exact ⟨sess, h.heap_length, h.token_eq, h.tokenID_eq, fun port hport => h.rawConn hport⟩
    next =>
      obtain ⟨s, hs, hst, hsid, hraw⟩ := hw.session hp
      exact ⟨s, (h.heap_lt (hw.lookup_lt hp)).trans hs, hst, hsid,
        fun port hport => ⟨(hraw port hport).1, h.listens (hraw port hport).2⟩⟩
  listener := by
    intro p hp
    obtain hp | ⟨rfl, hraw, -⟩ := h.listens_cases hp
    · obtain ⟨s, port, hs, hport⟩ := hw.listener hp
      exact ⟨s, port, (h.heap_lt (hw.listener_lt hp)).trans hs, hport⟩
    · exact ⟨sess, _, h.heap_length, hraw⟩
  port := by
    intro p q s t port hp hq hs ht hsp htp
    obtain hp | ⟨rfl, -, hb⟩ := h.listens_cases hp
    · obtain hq | ⟨rfl, -, hb⟩ := h.listens_cases hq
      · rw [h.heap_lt (hw.listener_lt hp)] at hs
        rw [h.heap_lt (hw.listener_lt hq)] at ht
        exact hw.port hp hq hs ht hsp htp
      · rw [h.heap_length] at ht
        cases ht
        exact absurd htp (hw.registers_ne h hp hs hsp hb)
    · obtain hq | ⟨rfl, -⟩ := h.listens_cases hq
      · rw [h.heap_length] at hs
        cases hs
        exact absurd hsp (hw.registers_ne h hq ht htp hb)
      · rfl

theorem Wf.step {rs : RelayServer} (hw : rs.Wf) {e : Event} {x : RelayServer × List Sent}
    (h : rs.step e = some x) : x.1.Wf := by
  obtain ⟨token, id, now, free, -, hr, -⟩ | ⟨-, ⟨token, -, rfl⟩ | ⟨now, -, rfl⟩ | rfl |
    ⟨p, renter, -, hh⟩⟩ := step_cases h
  · obtain ⟨sess, hr⟩ := registerSession_eq_some hr
    exact hw.registers hr
  · exact hw.dropSession token
  · exact reapIdleSessions_induct (P := Wf) (fun _ token h => h.dropSession token) hw now
  · exact hw
  · exact hw.handles hh

theorem next_eq_some {rs rs' : RelayServer} {e : Event} :
    rs.next e = some rs' ↔ ∃ out, rs.step e = some (rs', out) := by
  simp [next]

theorem Wf.next {rs rs' : RelayServer} (hw : rs.Wf) {e : Event} (h : rs.next e = some rs') :
    rs'.Wf := by
  obtain ⟨out, h⟩ := next_eq_some.mp h
  exact hw.step h

theorem Wf.run {rs rs' : RelayServer} (hw : rs.Wf) {es : List Event}
    (h : Step.run RelayServer.next es rs = some rs') : rs'.Wf :=
  Step.run_induct (fun _ hw h => hw.next h) (Step.along_true es rs) hw h

/-- An event that registers no token brings none into the map. -/
theorem sessions_next {rs rs' : RelayServer} {e : Event} (he : e.registers = none)
    (h : rs.next e = some rs') {token : String} {p : Nat}
    (hp : rs'.sessions.lookup token = some p) : rs.sessions.lookup token = some p := by
  obtain ⟨out, h⟩ := next_eq_some.mp h
  obtain ⟨_, _, _, _, rfl, -⟩ | ⟨-, ⟨token', -, hx⟩ | ⟨now, -, hx⟩ | hx | ⟨q, renter, -, hh⟩⟩ :=
    step_cases h
  · cases he
  · cases hx
    rw [lookup_dropSession] at hp
    split at hp
    next => cases hp
    next => exact hp
  · cases hx
    rw [lookup_reapIdleSessions] at hp
    split at hp
    next => cases hp
    next => exact hp
  · cases hx
    exact hp
  · rwa [show rs'.sessions = rs.sessions from hh.sessions] at hp

end RelayServer

end PeerCompute.Relay
