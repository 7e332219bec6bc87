import PeerCompute.Relay.ServerLaws

/-! What keeps a session from being reaped. -/

namespace PeerCompute.Relay

open PeerCompute.Data PeerCompute.Interleaving

/-- The time of an event, as the clock has it. -/
def Event.now : Event → Option Int
  | .register _ _ now _ => some now
  | .reap now => some now
  | .main now _ _ _ _ => some now
  | .raw _ now _ _ => some now
  | .remove _ => none
  | .invalidate _ => none

/-- A datagram that was read for a session: whether something was sent on, and whether the session
was active then by its own record. -/
structure Handling where
  session : Nat
  time : Int
  forwarded : Bool
  touched : Bool
  deriving DecidableEq

namespace RelayServer

/-- The session that a datagram on the main socket is read for, by the second lookup if there is
one. -/
def packetSession (rs : RelayServer) (order order' : Order String) (raddr : UDPAddr)
    (data : List UInt8) : Option Nat :=
  if (data.take 65536).length < headerLen ∨ (data.take 65536).take magicLen ≠ relayMagic then none
  else match rs.findSessionByTokenID order (packetID data) with
    | none => none
    | some p =>
      if rs.heap[p]?.any (fun sess => sess.needsWrite raddr) then
        rs.findSessionByTokenID order' (packetID data)
      else some p

def handledBy (rs : RelayServer) : Event → Option Nat
  | .main _ raddr data order order' => rs.packetSession order order' raddr data
  | .raw port _ _ _ => rs.listenerOn port
  | _ => none

def handling (rs : RelayServer) (e : Event) : Option Handling :=
  match rs.handledBy e, e.now, rs.step e with
  | some p, some now, some (rs', sent) =>
    some ⟨p, now, sent ≠ [], rs'.heap[p]?.any (fun sess => sess.lastActive = now)⟩
  | _, _, _ => none

/-- The datagrams read along a run. -/
def handlings (rs : RelayServer) : List Event → List Handling
  | [] => []
  | e :: es => (rs.handling e).toList ++ match rs.next e with
    | none => []
    | some rs' => rs'.handlings es

theorem slowRoute_touches (sess : RelaySession) (now : Int) (raddr : UDPAddr) :
    (sess.slowRoute now raddr).1.created = sess.created ∧
      ((sess.slowRoute now raddr).1.lastActive = now ∨ sess.slowRoute now raddr = (sess, .none)) := by
  unfold RelaySession.slowRoute
  split
  · exact ⟨rfl, .inl rfl⟩
  split
  · exact ⟨rfl, .inl rfl⟩
  split
  · exact ⟨rfl, .inl rfl⟩
  split
  · exact ⟨rfl, .inl rfl⟩
  · exact ⟨rfl, .inr rfl⟩

theorem heap_of_find {rs : RelayServer} {order : Order String} {id : List UInt8} {p : Nat}
    (h : rs.findSessionByTokenID order id = some p) : ∃ sess, rs.heap[p]? = some sess := by
  obtain ⟨-, sess, -, hsess, -⟩ := findSessionByTokenID_eq_some h
  exact ⟨sess, hsess⟩

/-- A datagram on the main socket is read for no session, or it is recorded as activity of the
session it is read for, unless nothing is done with it. -/
theorem serve_handled {rs rs' : RelayServer} {order order' : Order String} {now : Int}
    {raddr : UDPAddr} {data : List UInt8} {sent : List Sent}
    (h : rs.serve order order' now raddr data = (rs', sent)) :
    (rs.packetSession order order' raddr data = none ∧ rs' = rs ∧ sent = []) ∨
    ∃ p sess sess', rs.packetSession order order' raddr data = some p ∧
      rs.heap[p]? = some sess ∧ rs'.heap = rs.heap.set p sess' ∧ sess'.created = sess.created ∧
      (sess'.lastActive = now ∨ sess' = sess ∧ sent = []) := by
  simp only [serve] at h
  unfold packetSession packetID
  split at h
  next hbad =>
    cases h
    exact .inl ⟨if_pos hbad, rfl, rfl⟩
  next hpacket =>
    rw [if_neg hpacket]
    unfold serveFast serveSlow at h
    cases hfast : rs.findSessionByTokenID order
        (((data.take 65536).drop magicLen).take tokenIDLen) with
    | none =>
      simp only [hfast, Option.bind_none] at h
      cases h
      exact .inl ⟨rfl, rfl, rfl⟩
    | some p =>
      obtain ⟨sess, hsess⟩ := heap_of_find hfast
      simp only [hfast, Option.bind_some, hsess, Option.map_some, Option.any_some] at h ⊢
      by_cases hw : sess.needsWrite raddr = true
      · simp only [if_pos hw] at h ⊢
        cases hslow : rs.findSessionByTokenID order'
            (((data.take 65536).drop magicLen).take tokenIDLen) with
        | none =>
          simp only [hslow, Option.bind_none] at h
          cases h
          exact .inl ⟨rfl, rfl, rfl⟩
        | some q =>
          obtain ⟨sess₂, hsess₂⟩ := heap_of_find hslow
          simp only [hslow, Option.bind_some, hsess₂, Option.map_some] at h
          cases h
          obtain ⟨hcreated, hactive⟩ := slowRoute_touches sess₂ now raddr
          refine .inr ⟨q, sess₂, _, rfl, hsess₂, rfl, hcreated, hactive.imp_right (fun hroute => ?_)⟩
          rw [hroute]
          exact ⟨rfl, rfl⟩
      · simp only [if_neg hw] at h ⊢
        cases h
        exact .inr ⟨p, sess, _, rfl, hsess, rfl, rfl, .inl rfl⟩

/-- What an event does to the session it is handled by, or to none. -/
theorem step_handled {rs rs' : RelayServer} {e : Event} {sent : List Sent}
    (h : rs.step e = some (rs', sent)) :
    (rs.handledBy e = none ∧ sent = [] ∧ (rs'.heap = rs.heap ∨ ∃ sess now, e.now = some now ∧
      rs'.heap = rs.heap ++ [sess] ∧ sess.created = now ∧ sess.lastActive = now)) ∨
    ∃ p sess sess' now, rs.handledBy e = some p ∧ e.now = some now ∧ rs.heap[p]? = some sess ∧
      rs'.heap = rs.heap.set p sess' ∧ sess'.created = sess.created ∧
      (sess'.lastActive = now ∨ sess' = sess ∧ sent = []) := by
  cases e with
  | register token sessionID now free =>
    simp only [step, Option.map_eq_some_iff, Prod.mk.injEq] at h
    obtain ⟨rs'', hreg, rfl, rfl⟩ := h
    unfold registerSession bindSession at hreg
    split at hreg
    · cases hreg
    · cases hreg
      exact .inl ⟨rfl, rfl, .inr ⟨_, now, rfl, rfl, rfl, rfl⟩⟩
  | remove token =>
    cases h
    exact .inl ⟨rfl, rfl, .inl (dropSession_heap rs token)⟩
  | invalidate token =>
    cases h
    exact .inl ⟨rfl, rfl, .inl (dropSession_heap rs token)⟩
  | reap now =>
    cases h
    exact .inl ⟨rfl, rfl, .inl (reapIdleSessions_induct (P := fun rs'' => rs''.heap = rs.heap)
      (fun rs'' token h => (dropSession_heap rs'' token).trans h) rfl now)⟩
  | main now raddr data order order' =>
    obtain ⟨hnone, rfl, hsent⟩ | ⟨p, sess, sess', hp, hsess, hheap, hcreated, hactive⟩ :=
      serve_handled (Option.some.inj h)
    · exact .inl ⟨hnone, hsent, .inl rfl⟩
    · exact .inr ⟨p, sess, sess', now, hp, rfl, hsess, hheap, hcreated, hactive⟩
  | raw port now raddr data =>
    simp only [step] at h
    split at h
    next hnone =>
      cases h
      exact .inl ⟨hnone, rfl, .inl rfl⟩
    next p hp =>
      obtain ⟨-, sess, hsess, -⟩ := listenerOn_eq_some hp
      simp only [serveRaw, hsess] at h
      split at h
      · cases h
        exact .inr ⟨p, sess, _, now, hp, rfl, hsess, rfl, rfl, .inl rfl⟩
      · cases h
        exact .inr ⟨p, sess, _, now, hp, rfl, hsess, rfl, rfl, .inl rfl⟩

/-- An event is handled by no session, or by one whose record it brings up to date. -/
theorem handling_cases {rs rs' : RelayServer} {e : Event} (h : rs.next e = some rs') :
    (rs.handling e = none ∧ (rs'.heap = rs.heap ∨ ∃ sess now, e.now = some now ∧
      rs'.heap = rs.heap ++ [sess] ∧ sess.created = now ∧ sess.lastActive = now)) ∨
    ∃ x sess sess', rs.handling e = some x ∧ e.now = some x.time ∧
      rs.heap[x.session]? = some sess ∧ rs'.heap = rs.heap.set x.session sess' ∧
      sess'.created = sess.created ∧ (x.forwarded = true → x.touched = true) ∧
      (x.touched = true ∧ sess'.lastActive = x.time ∨ x.touched = false ∧ sess' = sess) := by
  obtain ⟨⟨rs'', sent⟩, hstep, rfl⟩ := Option.map_eq_some_iff.mp h
  obtain ⟨hnone, -, hheap⟩ | ⟨p, sess, sess', now, hp, hnow, hsess, hheap, hcreated, hactive⟩ :=
    step_handled hstep
  · exact .inl ⟨by simp only [handling, hnone], hheap⟩
  · have hget : rs''.heap[p]? = some sess' := by
      rw [hheap, List.getElem?_set_self (List.getElem?_eq_some_iff.mp hsess).1]
    refine .inr ⟨⟨p, now, sent ≠ [], sess'.lastActive = now⟩, sess, sess', ?_, hnow, hsess, hheap,
      hcreated, fun hforwarded => ?_, ?_⟩
    · simp only [handling, hp, hnow, hstep, hget, Option.any_some]
    · obtain hactive | ⟨-, hsent⟩ := hactive
      · exact decide_eq_true hactive
      · exact absurd hsent (of_decide_eq_true hforwarded)
    · by_cases htouched : sess'.lastActive = now
      · exact .inl ⟨decide_eq_true htouched, htouched⟩
      · exact .inr ⟨decide_eq_false htouched, (hactive.resolve_left htouched).1⟩

/-- A session was last active when it was registered or when the last datagram that counted was read
for it, and the clock goes on from there. -/
structure Record (hist : List Handling) (later : List Int) (p : Nat) (sess : RelaySession) : Prop where
  created : sess.created ≤ sess.lastActive
  bound : ∀ x ∈ hist, x.session = p → x.touched = true → x.time ≤ sess.lastActive
  last : sess.lastActive = sess.created ∨
    ∃ x ∈ hist, x.session = p ∧ x.touched = true ∧ x.time = sess.lastActive
  clock : ∀ t ∈ later, sess.lastActive ≤ t

structure Recorded (rs : RelayServer) (hist : List Handling) (later : List Int) : Prop where
  known : ∀ x ∈ hist, x.session < rs.heap.length
  touched : ∀ x ∈ hist, x.forwarded = true → x.touched = true
  record : ∀ (p : Nat) (sess : RelaySession), rs.heap[p]? = some sess → Record hist later p sess

section

variable {rs rs' : RelayServer} {hist : List Handling} {later later' : List Int} {p : Nat}
  {sess sess' : RelaySession} {x : Handling}

theorem Record.subset (h : Record hist later p sess) (hlater : later' ⊆ later) :
    Record hist later' p sess :=
  ⟨h.created, h.bound, h.last, fun t ht => h.clock t (hlater ht)⟩

theorem Record.skip (h : Record hist later p sess) (hx : x.session ≠ p ∨ x.touched = false) :
    Record (hist ++ [x]) later p sess where
  created := h.created
  bound y hy hp htouched := by
    obtain hy | hy := List.mem_append.mp hy
    · exact h.bound y hy hp htouched
    · rw [List.mem_singleton.mp hy] at hp htouched
      obtain hx | hx := hx
      · exact absurd hp hx
      · exact absurd htouched (by rw [hx]; exact Bool.false_ne_true)
  last := h.last.imp_right (fun ⟨y, hy, hlast⟩ => ⟨y, List.mem_append_left _ hy, hlast⟩)
  clock := h.clock

theorem Record.touch (h : Record hist (x.time :: later) p sess) (hp : x.session = p)
    (htouched : x.touched = true) (hcreated : sess'.created = sess.created)
    (hactive : sess'.lastActive = x.time) (hclock : ∀ t ∈ later, x.time ≤ t) :
    Record (hist ++ [x]) later p sess' := by
  have hle : sess.lastActive ≤ sess'.lastActive := hactive ▸ h.clock _ (.head _)
  refine ⟨hcreated ▸ Int.le_trans h.created hle, fun y hy hyp hytouched => ?_, ?_, hactive ▸ hclock⟩
  · obtain hy | hy := List.mem_append.mp hy
    · exact Int.le_trans (h.bound y hy hyp hytouched) hle
    · obtain rfl := List.mem_singleton.mp hy
      exact Int.le_of_eq hactive.symm
  · exact .inr ⟨x, List.mem_append_right _ (.head _), hp, htouched, hactive.symm⟩

theorem recorded_new (addr : String) (later : List Int) :
    Recorded (newRelayServer addr) [] later where
  known _ h := by cases h
  touched _ h := by cases h
  record _ _ h := by cases h

theorem Recorded.subset (h : Recorded rs hist later) (hheap : rs'.heap = rs.heap)
    (hlater : later' ⊆ later) : Recorded rs' hist later' where
  known x hx := hheap ▸ h.known x hx
  touched := h.touched
  record p sess hsess := (h.record p sess (hheap ▸ hsess)).subset hlater

theorem Recorded.register {now : Int} (h : Recorded rs hist (now :: later))
    (hclock : ∀ t ∈ later, now ≤ t) (hheap : rs'.heap = rs.heap ++ [sess])
    (hcreated : sess.created = now) (hactive : sess.lastActive = now) :
    Recorded rs' hist later where
  known x hx := by
    rw [hheap, List.length_append]
    exact Nat.lt_add_right _ (h.known x hx)
  touched := h.touched
  record q s hs := by
    rw [hheap, List.getElem?_append] at hs
    split at hs
    · exact (h.record q s hs).subset (List.subset_cons_self _ _)
    next hge =>
      -- no datagram has been read for a session that was not there
      have hnew : ∀ x ∈ hist, x.session ≠ q := fun x hx hq => hge (hq ▸ h.known x hx)
      obtain rfl := List.mem_singleton.mp (List.mem_of_getElem? hs)
      exact ⟨Int.le_of_eq (hcreated.trans hactive.symm), fun x hx hq => absurd hq (hnew x hx),
        .inl (hactive.trans hcreated.symm), hactive ▸ hclock⟩

theorem Recorded.handle (h : Recorded rs hist (x.time :: later)) (hclock : ∀ t ∈ later, x.time ≤ t)
    (hsess : rs.heap[x.session]? = some sess) (hheap : rs'.heap = rs.heap.set x.session sess')
    (hcreated : sess'.created = sess.created) (hforwarded : x.forwarded = true → x.touched = true)
    (hactive : x.touched = true ∧ sess'.lastActive = x.time ∨ x.touched = false ∧ sess' = sess) :
    Recorded rs' (hist ++ [x]) later where
  known y hy := by
    rw [hheap, List.length_set]
    obtain hy | hy := List.mem_append.mp hy
    · exact h.known y hy
    · rw [List.mem_singleton.mp hy]
      exact (List.getElem?_eq_some_iff.mp hsess).1
  touched y hy := by
    obtain hy | hy := List.mem_append.mp hy
    · exact h.touched y hy
    · rw [List.mem_singleton.mp hy]
      exact hforwarded
  record q s hs := by
    rw [hheap, List.getElem?_set] at hs
    split at hs
    next hq =>
      subst hq
      rw [if_pos (List.getElem?_eq_some_iff.mp hsess).1] at hs
      obtain rfl := Option.some.inj hs
      have hrecord := h.record _ _ hsess
      obtain ⟨htouched, hactive⟩ | ⟨htouched, rfl⟩ := hactive
      · exact hrecord.touch rfl htouched hcreated hactive hclock
      · exact (hrecord.subset (List.subset_cons_self _ _)).skip (.inr htouched)
    next hq => exact ((h.record q s hs).subset (List.subset_cons_self _ _)).skip (.inl hq)

theorem Recorded.next {e : Event} (h : Recorded rs hist (e.now.toList ++ later))
    (hclock : (e.now.toList ++ later).Pairwise (· ≤ ·)) (hnext : rs.next e = some rs') :
    Recorded rs' (hist ++ (rs.handling e).toList) later := by
  obtain ⟨hnone, hheap | ⟨sess, now, hnow, hheap, hcreated, hactive⟩⟩ |
    ⟨x, sess, sess', hx, hnow, hsess, hheap, hcreated, hforwarded, hactive⟩ := handling_cases hnext
  · rw [hnone, Option.toList_none, List.append_nil]
    exact h.subset hheap (List.subset_append_right _ _)
  · rw [hnow] at h hclock
    rw [hnone, Option.toList_none, List.append_nil]
    exact h.register (List.pairwise_cons.mp hclock).1 hheap hcreated hactive
  · rw [hnow] at h hclock
    rw [hx]
    exact h.handle (List.pairwise_cons.mp hclock).1 hsess hheap hcreated hforwarded hactive

theorem Recorded.run {es : List Event} (h : Recorded rs hist (es.filterMap Event.now ++ later))
    (hclock : (es.filterMap Event.now ++ later).Pairwise (· ≤ ·))
    (hrun : Step.run RelayServer.next es rs = some rs') :
    Recorded rs' (hist ++ rs.handlings es) later := by
  induction es generalizing rs hist with
  | nil =>
    cases hrun
    rw [handlings, List.append_nil]
    exact h
  | cons e es ih =>
    obtain ⟨rs₁, hnext, hrun⟩ := Option.bind_eq_some_iff.mp hrun
    have htimes : (e :: es).filterMap Event.now ++ later =
        e.now.toList ++ (es.filterMap Event.now ++ later) := by
      cases hnow : e.now with
      | none => rw [List.filterMap_cons_none hnow]; rfl
      | some now => rw [List.filterMap_cons_some hnow]; rfl
    rw [htimes] at h hclock
    simp only [handlings, hnext]
    rw [← List.append_assoc]
    exact ih (h.next hclock hnext) (List.pairwise_append.mp hclock).2.1 hrun

end

/-! ## One sweep -/

/-- Registered, or with something forwarded, within the idle timeout. -/
def Active (rs : RelayServer) (hist : List Handling) (now : Int) (p : Nat) : Prop :=
  (∃ sess, rs.heap[p]? = some sess ∧ now - sess.created ≤ idleTimeout) ∨
    ∃ x ∈ hist, x.session = p ∧ x.forwarded = true ∧ now - x.time ≤ idleTimeout

/-- A datagram that was dropped, and yet counts as activity. -/
def KeptByDrop (hist : List Handling) (now : Int) (p : Nat) : Prop :=
  ∃ x ∈ hist, x.session = p ∧ x.forwarded = false ∧ x.touched = true ∧
    now - x.time ≤ idleTimeout

/-- What a sweep goes by. -/
theorem Recorded.idle_eq_false_iff {rs : RelayServer} {hist : List Handling} {later : List Int}
    (h : Recorded rs hist later) (hw : rs.Wf) {token : String} {p : Nat}
    (hp : rs.sessions.lookup token = some p) (now : Int) :
    rs.idle now token = false ↔ Active rs hist now p ∨ KeptByDrop hist now p := by
  obtain ⟨sess, hsess⟩ : ∃ sess, rs.heap[p]? = some sess :=
    ⟨_, List.getElem?_eq_getElem (hw.lookup_lt hp)⟩
  have hrecord := h.record p sess hsess
  have hidle : rs.idle now token = false ↔ now - sess.lastActive ≤ idleTimeout := by
    simp only [idle, hp, Option.bind_some, hsess, Option.any_some, decide_eq_false_iff_not,
      Int.not_lt, gt_iff_lt]
  rw [hidle]
  constructor
  · intro hrecent
    obtain hlast | ⟨x, hx, hxp, htouched, hlast⟩ := hrecord.last
    · exact .inl (.inl ⟨sess, hsess, hlast ▸ hrecent⟩)
    · cases hforwarded : x.forwarded with
      | true => exact .inl (.inr ⟨x, hx, hxp, hforwarded, hlast ▸ hrecent⟩)
      | false => exact .inr ⟨x, hx, hxp, hforwarded, htouched, hlast ▸ hrecent⟩
  · have hbound : ∀ x ∈ hist, x.session = p → x.touched = true → now - x.time ≤ idleTimeout →
        now - sess.lastActive ≤ idleTimeout := by
      intro x hx hxp htouched hrecent
      have := hrecord.bound x hx hxp htouched
      omega
    rintro ((⟨sess', hsess', hrecent⟩ | ⟨x, hx, hxp, hforwarded, hrecent⟩) |
      ⟨x, hx, hxp, -, htouched, hrecent⟩)
    · rw [hsess] at hsess'
      cases hsess'
      have := hrecord.created
      omega
    · exact hbound x hx hxp (h.touched x hx hforwarded) hrecent
    · exact hbound x hx hxp htouched hrecent

/-- A sweep never takes a session that was registered or has forwarded within the idle timeout.  It
takes all others exactly if none of them has had a packet read and dropped for it in that time. -/
theorem sweep_exact_iff (addr : String) {es : List Event} {rs : RelayServer} {now : Int}
    (hclock : ((es ++ [Event.reap now]).filterMap Event.now).Pairwise (· ≤ ·))
    (hrun : Step.run RelayServer.next es (newRelayServer addr) = some rs) :
    (∀ token p, rs.sessions.lookup token = some p →
      Active rs ((newRelayServer addr).handlings es) now p →
      (rs.reapIdleSessions now).sessions.lookup token = some p) ∧
    ((∀ token p, rs.sessions.lookup token = some p →
      ((rs.reapIdleSessions now).sessions.lookup token = none ↔
        ¬Active rs ((newRelayServer addr).handlings es) now p)) ↔
      ∀ token p, rs.sessions.lookup token = some p →
        KeptByDrop ((newRelayServer addr).handlings es) now p →
        Active rs ((newRelayServer addr).handlings es) now p) := by
  rw [List.filterMap_append] at hclock
  have hrecorded := (recorded_new addr _).run hclock hrun
  rw [List.nil_append] at hrecorded
  have hw : rs.Wf := (newRelayServer_wf addr).run hrun
  have hiff : ∀ token p, rs.sessions.lookup token = some p →
      (rs.idle now token = false ↔ Active rs ((newRelayServer addr).handlings es) now p ∨
        KeptByDrop ((newRelayServer addr).handlings es) now p) :=
    fun _ _ hp => hrecorded.idle_eq_false_iff hw hp now
  have hgone : ∀ token p, rs.sessions.lookup token = some p →
      ((rs.reapIdleSessions now).sessions.lookup token = none ↔ rs.idle now token = true) := by
    intro token p hp
    rw [lookup_reapIdleSessions, hp]
    split
    next hidle => exact ⟨fun _ => hidle, fun _ => rfl⟩
    next hidle => exact ⟨fun h => (by cases h), fun h => absurd h hidle⟩
  refine ⟨fun token p hp hactive => ?_, ?_, ?_⟩
  · have hidle := (hiff token p hp).mpr (.inl hactive)
    rw [lookup_reapIdleSessions, hidle, if_neg Bool.false_ne_true, hp]
  · intro hexact token p hp hdrop
    by_contra hactive
    have hidle := (hgone token p hp).mp ((hexact token p hp).mpr hactive)
    rw [(hiff token p hp).mpr (.inr hdrop)] at hidle
    cases hidle
  · intro hdrops token p hp
    rw [hgone token p hp, ← Bool.not_eq_false, hiff token p hp]
    exact not_congr ⟨fun h => h.elim id (hdrops token p hp), .inl⟩

/-- The provider's first packet, 50 seconds after the registration, is dropped. -/
def firstPacketEvents : List Event :=
  [.register "t" "session1" 0 false,
    .main 50000000000 ⟨"provider"⟩ (header (tokenID "t") ++ [1]) Order.id Order.id]

/-- A second later the renter's packet is forwarded to the provider. -/
def forwardingEvents : List Event :=
  firstPacketEvents ++ [.main 51000000000 ⟨"renter"⟩ (header (tokenID "t") ++ [2]) Order.id Order.id]

theorem sweep_exact_forwarding :
    ∃ rs, Step.run RelayServer.next forwardingEvents (newRelayServer "") = some rs ∧
      (rs.reapIdleSessions 90000000000).sessions.lookup "t" = some 0 ∧
      ∀ token p, rs.sessions.lookup token = some p →
        ((rs.reapIdleSessions 90000000000).sessions.lookup token = none ↔
          ¬Active rs ((newRelayServer "").handlings forwardingEvents) 90000000000 p) := by
  have hview : (Step.run RelayServer.next forwardingEvents (newRelayServer "")).map
      (fun rs => (rs.sessions.keys, rs.sessions.lookup "t")) = some (["t"], some 0) := by
    decide +kernel
  have hhist : (newRelayServer "").handlings forwardingEvents =
      [⟨0, 50000000000, false, true⟩, ⟨0, 51000000000, true, true⟩] := by decide +kernel
  obtain ⟨rs, hrun, hrs⟩ := Option.map_eq_some_iff.mp hview
  obtain ⟨hkeys, hp⟩ := Prod.mk.inj hrs
  have hactive : Active rs ((newRelayServer "").handlings forwardingEvents) 90000000000 0 := by
    rw [hhist]
    exact .inr ⟨_, .tail _ (.head _), rfl, rfl, by decide⟩
  have hclock : ((forwardingEvents ++ [Event.reap 90000000000]).filterMap Event.now).Pairwise
      (· ≤ ·) := by decide
  obtain ⟨hkept, hexact⟩ := sweep_exact_iff "" hclock hrun
  refine ⟨rs, hrun, hkept "t" 0 hp hactive, hexact.mpr (fun token p htoken _ => ?_)⟩
  have hmem := Map.mem_keys_iff.mpr ⟨p, htoken⟩
  rw [hkeys] at hmem
  obtain rfl := List.mem_singleton.mp hmem
  rw [hp] at htoken
  cases htoken
  exact hactive

/-- Ninety seconds after its registration, with nothing forwarded, the session is still there. -/
theorem dropped_packet_keeps_session :
    ∃ rs, Step.run RelayServer.next firstPacketEvents (newRelayServer "") = some rs ∧
      rs.sessions.lookup "t" = some 0 ∧
      ¬Active rs ((newRelayServer "").handlings firstPacketEvents) 90000000000 0 ∧
      (rs.reapIdleSessions 90000000000).sessions.lookup "t" = some 0 := by
  have hview : (Step.run RelayServer.next firstPacketEvents (newRelayServer "")).map
      (fun rs => (rs.sessions.lookup "t", rs.heap.map RelaySession.created,
        (rs.reapIdleSessions 90000000000).sessions.lookup "t")) = some (some 0, [0], some 0) := by
    decide +kernel
  have hhist : (newRelayServer "").handlings firstPacketEvents =
      [⟨0, 50000000000, false, true⟩] := by decide +kernel
  obtain ⟨rs, hrun, hrs⟩ := Option.map_eq_some_iff.mp hview
  simp only [Prod.mk.injEq] at hrs
  obtain ⟨hp, hcreated, hkept⟩ := hrs
  refine ⟨rs, hrun, hp, ?_, hkept⟩
  rintro (⟨sess, hsess, hrecent⟩ | ⟨x, hx, -, hforwarded, -⟩)
  · have hzero := List.mem_map_of_mem (f := RelaySession.created) (List.mem_of_getElem? hsess)
    rw [hcreated, List.mem_singleton] at hzero
    rw [hzero] at hrecent
    exact absurd hrecent (by decide)
  · rw [hhist] at hx
    obtain rfl := List.mem_singleton.mp hx
    cases hforwarded

end RelayServer

end PeerCompute.Relay
