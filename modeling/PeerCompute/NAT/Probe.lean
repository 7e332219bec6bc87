import PeerCompute.Data.Buffer
import PeerCompute.NAT.Address

/-! UDP hole punching: probes to all candidates of the peer, until one of them is heard. -/

namespace PeerCompute.NAT

open PeerCompute.Data

/-- A network endpoint that a peer can be reached at. -/
structure Candidate where
  address : String
  type : String
  priority : Int
  deriving DecidableEq

/-- `"PCPR"`. -/
def probeMagic : List UInt8 := [0x50, 0x43, 0x50, 0x52]

/-- `"PCPA"`. -/
def probeAckMagic : List UInt8 := [0x50, 0x43, 0x50, 0x41]

def errHolePunchFailed : String := "hole punch failed: no candidates reachable"

def probeBufferLen : Nat := 64

structure ProbeID where
  bytes : List UInt8
  length_eq : bytes.length = 8

/-- What is sent to an address, or received from it. -/
structure Datagram where
  addr : UDPAddr
  data : List UInt8
  deriving DecidableEq

/-- A call of `Probe`, with the probe ID it has drawn. -/
structure ProbeCall where
  resolver : Resolver
  localPort : Int
  remoteCandidates : List Candidate
  probeID : ProbeID

/-- The three goroutines of a call: the listener with its buffer, the sender, and the one that waits
for a result (a channel that holds one address) or for the end of the context. -/
structure Probing where
  buf : List UInt8
  length_eq : buf.length = probeBufferLen
  listening : Bool := true
  sending : Bool := true
  result : Option String := none
  done : Bool := false
  sent : List Datagram := []
  returned : Option (Except String String) := none

/-- The socket is open until the call returns.  `select` tells which case is taken if both are
ready. -/
inductive ProbeEvent
  | datagram (d : Datagram)
  | readTimeout
  | tick
  | senderDone
  | expire
  | select (preferResult : Bool)

namespace ProbeCall

/-- One probe to each candidate whose address can be resolved. -/
def sendProbes (c : ProbeCall) : List Datagram :=
  c.remoteCandidates.filterMap (fun cand =>
    (c.resolver.resolveUDPAddr cand.address).map (⟨·, probeMagic ++ c.probeID.bytes⟩))

end ProbeCall

namespace Probing

def start : Probing := { buf := List.replicate probeBufferLen 0, length_eq := List.length_replicate }

def read (s : Probing) (data : List UInt8) : Probing :=
  { s with
    buf := (readInto s.buf data).2
    length_eq := (length_readInto s.buf data).trans s.length_eq }

/-- A send that is dropped if the channel is full. -/
def offer (s : Probing) (addr : String) : Probing :=
  { s with result := s.result.or (some addr) }

def ack (s : Probing) (c : ProbeCall) (raddr : UDPAddr) : Probing :=
  { s with sent := s.sent ++ [⟨raddr, probeAckMagic ++ c.probeID.bytes⟩] }

/-- What the listener does with the `n` bytes it has read. -/
def react (s : Probing) (c : ProbeCall) (n : Nat) (raddr : UDPAddr) : Probing :=
  if 4 ≤ n then
    if s.buf.take 4 = probeMagic then (s.ack c raddr).offer raddr.string
    else if s.buf.take 4 = probeAckMagic then s.offer raddr.string
    else s
  else s

/-- Returning cancels the context and closes the socket. -/
def finish (s : Probing) (r : Except String String) : Probing :=
  { s with returned := some r, done := true }

/-- What the listener and the sender do while the socket is open. -/
def stepOpen (s : Probing) (c : ProbeCall) : ProbeEvent → Probing
  | .datagram d =>
    if s.listening then (s.read d.data).react c (readInto s.buf d.data).1 d.addr else s
  | .readTimeout => if s.done then { s with listening := false } else s
  | .tick => if s.sending then { s with sent := s.sent ++ c.sendProbes } else s
  | .senderDone => if s.done then { s with sending := false } else s
  | .expire => { s with done := true }
  | .select preferResult => match s.result, s.done with
    | some addr, false => { s with result := none }.finish (.ok addr)
    | some addr, true =>
      if preferResult then { s with result := none }.finish (.ok addr)
      else s.finish (.error errHolePunchFailed)
    | none, true => s.finish (.error errHolePunchFailed)
    | none, false => s

def step (c : ProbeCall) (s : Probing) (e : ProbeEvent) : Probing :=
  if s.returned = none then s.stepOpen c e else s

def run (c : ProbeCall) (s : Probing) (es : List ProbeEvent) : Probing := es.foldl (step c) s

end Probing

/-- What the call returns, if it does. -/
def ProbeCall.probe (c : ProbeCall) (listenUDP : Except String Unit) (es : List ProbeEvent) :
    Option (Except String String) :=
  if c.remoteCandidates = [] then some (.error errHolePunchFailed)
  else match listenUDP with
    | .error e => some (.error ("bind probe port " ++ toString c.localPort ++ ": " ++ e))
    | .ok () => (Probing.start.run c es).returned

/-! ## Whose address is returned -/

def ProbeEvent.arrival : ProbeEvent → List Datagram
  | .datagram d => [d]
  | _ => []

/-- The datagrams that arrive, in order. -/
def arrivals (es : List ProbeEvent) : List Datagram := es.flatMap ProbeEvent.arrival

/-- What the listener reads of an event: it reads until the call has returned, or until a read ends
after the context has. -/
def Probing.hears (s : Probing) (e : ProbeEvent) : List Datagram :=
  if s.returned = none ∧ s.listening = true then e.arrival else []

/-- The datagrams that the listener reads, in order. -/
def Probing.heard (c : ProbeCall) (s : Probing) : List ProbeEvent → List Datagram
  | [] => []
  | e :: es => s.hears e ++ (s.step c e).heard c es

/-- A probe or an ack by its first four bytes, whatever follows. -/
def Datagram.accepted (d : Datagram) : Bool :=
  4 ≤ d.data.length && (d.data.take 4 = probeMagic || d.data.take 4 = probeAckMagic)

def ProbeCall.IsCandidate (c : ProbeCall) (addr : String) : Prop :=
  ∃ cand ∈ c.remoteCandidates, ∃ raddr,
    c.resolver.resolveUDPAddr cand.address = some raddr ∧ raddr.string = addr

/-- An ack with this run's probe ID. -/
def ProbeCall.IsAck (c : ProbeCall) (d : Datagram) : Prop :=
  probeAckMagic ++ c.probeID.bytes <+: d.data

/-- An address of a candidate, or one that has sent an ack with this run's probe ID. -/
def ProbeCall.Legit (c : ProbeCall) (ds : List Datagram) (addr : String) : Prop :=
  c.IsCandidate addr ∨ ∃ d ∈ ds, d.addr.string = addr ∧ c.IsAck d

/-- The first datagram that is accepted decides, for as long as the listener listens: of the
datagrams `ds` that have arrived it is one of the `hs` that were read. -/
structure Decided (ds hs : List Datagram) (s : Probing) : Prop where
  result : ∀ addr, s.result = some addr ∨ s.returned = some (.ok addr) →
    ∃ d ∈ hs, ds.find? Datagram.accepted = some d ∧ d.addr.string = addr
  waiting : s.listening = true → s.result = none → s.returned = none →
    ds.find? Datagram.accepted = none

variable {c : ProbeCall} {s : Probing} {ds hs : List Datagram}

/-- The listener's reaction, by the datagram alone. -/
theorem react_read (s : Probing) (c : ProbeCall) (d : Datagram) {t : Probing}
    (ht : (s.read d.data).react c (readInto s.buf d.data).1 d.addr = t) :
    t.result = s.result.or (if d.accepted then some d.addr.string else none) ∧
      t.listening = s.listening ∧ t.returned = s.returned ∧ t.done = s.done := by
  have hn : (readInto s.buf d.data).1 = min d.data.length probeBufferLen := by
    rw [← s.length_eq]
    rfl
  have hlen : 4 ≤ min d.data.length probeBufferLen ↔ 4 ≤ d.data.length := by
    simp only [probeBufferLen]
    omega
  have hbuf : 4 ≤ d.data.length → (s.read d.data).buf.take 4 = d.data.take 4 :=
    fun h => take_readInto (hn ▸ hlen.mpr h)
  unfold Probing.react at ht
  simp only [hn, hlen] at ht
  unfold Datagram.accepted
  split at ht
  next h =>
    rw [hbuf h] at ht
    split at ht
    next hprobe =>
      subst ht
      rw [hprobe, decide_eq_true h]
      exact ⟨rfl, rfl, rfl, rfl⟩
    next hprobe =>
      split at ht
      next hack =>
        subst ht
        rw [hack, decide_eq_true h]
        exact ⟨rfl, rfl, rfl, rfl⟩
      next hack =>
        subst ht
        simp only [hprobe, hack, decide_false, Bool.or_false, Bool.and_false, Bool.false_eq_true,
          if_false, Option.or_none]
        exact ⟨rfl, rfl, rfl, rfl⟩
  next h =>
    subst ht
    simp only [h, decide_false, Bool.false_and, Bool.false_eq_true, if_false, Option.or_none]
    exact ⟨rfl, rfl, rfl, rfl⟩

theorem find?_concat (ds : List Datagram) (d : Datagram) :
    (ds ++ [d]).find? Datagram.accepted =
      (ds.find? Datagram.accepted).or (if d.accepted then some d else none) := by
  rw [List.find?_append, List.find?_singleton]

/-- A decision stands, whatever else arrives. -/
theorem Decided.weaken {t : Probing} (h : Decided ds hs s) (es fs : List Datagram)
    (hresult : ∀ addr, t.result = some addr ∨ t.returned = some (.ok addr) →
      s.result = some addr ∨ s.returned = some (.ok addr))
    (hwaiting : t.listening = true → t.result = none → t.returned = none →
      es = [] ∧ s.listening = true ∧ s.result = none ∧ s.returned = none) :
    Decided (ds ++ es) (hs ++ fs) t where
  result addr haddr := by
    obtain ⟨d, hmem, hd, hstring⟩ := h.result addr (hresult addr haddr)
    exact ⟨d, List.mem_append_left _ hmem, by rw [List.find?_append, hd, Option.some_or], hstring⟩
  waiting hl hr hret := by
    obtain ⟨rfl, hl, hr, hret⟩ := hwaiting hl hr hret
    rw [List.append_nil]
    exact h.waiting hl hr hret

theorem Decided.hear (h : Decided ds hs s) (hret : s.returned = none) (hl : s.listening = true)
    (d : Datagram) :
    Decided (ds ++ [d]) (hs ++ [d])
      ((s.read d.data).react c (readInto s.buf d.data).1 d.addr) := by
  obtain ⟨hresult, -, hreturned, -⟩ := react_read s c d rfl
  refine ⟨fun addr haddr => ?_, fun _ hnone _ => ?_⟩
  · rw [hresult, hreturned, hret] at haddr
    obtain haddr | haddr := haddr
    · cases hs' : s.result with
      | some addr' =>
        obtain ⟨d', hmem, hd', hstring⟩ := h.result addr' (.inl hs')
        rw [hs', Option.some_or] at haddr
        cases haddr
        exact ⟨d', List.mem_append_left _ hmem, by rw [find?_concat, hd', Option.some_or], hstring⟩
      | none =>
        rw [hs', Option.none_or] at haddr
        split at haddr
        next hacc =>
          cases haddr
          refine ⟨d, List.mem_append_right _ (.head _), ?_, rfl⟩
          rw [find?_concat, h.waiting hl hs' hret, if_pos hacc, Option.none_or]
        · cases haddr
    · cases haddr
  · rw [hresult, Option.or_eq_none_iff] at hnone
    obtain ⟨hs', hacc⟩ := hnone
    rw [find?_concat, h.waiting hl hs' hret, Option.none_or]
    split at hacc
    · cases hacc
    next hrejected => exact if_neg hrejected

theorem Decided.stepOpen (h : Decided ds hs s) (hret : s.returned = none) (e : ProbeEvent) :
    Decided (ds ++ e.arrival) (hs ++ s.hears e) (s.stepOpen c e) := by
  cases e with
  | datagram d =>
    simp only [Probing.stepOpen]
    split
    next hl =>
      rw [Probing.hears, if_pos ⟨hret, hl⟩]
      exact h.hear hret hl d
    next hl => exact h.weaken _ _ (fun _ haddr => haddr) (fun hl' => absurd hl' hl)
  | readTimeout =>
    simp only [Probing.stepOpen]
    split
    · exact h.weaken _ _ (fun _ haddr => haddr) (fun hl => by cases hl)
    · exact h.weaken _ _ (fun _ haddr => haddr) (fun hl hr hret => ⟨rfl, hl, hr, hret⟩)
  | tick =>
    simp only [Probing.stepOpen]
    split <;> exact h.weaken _ _ (fun _ haddr => haddr) (fun hl hr hret => ⟨rfl, hl, hr, hret⟩)
  | senderDone =>
    simp only [Probing.stepOpen]
    split <;> exact h.weaken _ _ (fun _ haddr => haddr) (fun hl hr hret => ⟨rfl, hl, hr, hret⟩)
  | expire => exact h.weaken _ _ (fun _ haddr => haddr) (fun hl hr hret => ⟨rfl, hl, hr, hret⟩)
  | select preferResult =>
    have hok : ∀ fs addr, s.result = some addr →
        Decided (ds ++ []) (hs ++ fs) ({ s with result := none }.finish (.ok addr)) := by
      intro fs addr hr
      refine h.weaken _ _ (fun addr' haddr' => ?_) (fun _ _ hret' => by cases hret')
      obtain haddr' | haddr' := haddr'
      · cases haddr'
      · cases haddr'
        exact .inl hr
    have hfailed : ∀ fs,
        Decided (ds ++ []) (hs ++ fs) (s.finish (.error errHolePunchFailed)) := by
      intro fs
      refine h.weaken _ _ (fun addr' haddr' => ?_) (fun _ _ hret' => by cases hret')
      obtain haddr' | haddr' := haddr'
      · exact .inl haddr'
      · cases haddr'
    simp only [Probing.stepOpen]
    split
    next hr _ => exact hok _ _ hr
    next hr _ =>
      split
      · exact hok _ _ hr
      · exact hfailed _
    · exact hfailed _
    · exact h.weaken _ _ (fun _ haddr => haddr) (fun hl hr hret => ⟨rfl, hl, hr, hret⟩)

theorem Decided.step (h : Decided ds hs s) (e : ProbeEvent) :
    Decided (ds ++ e.arrival) (hs ++ s.hears e) (s.step c e) := by
  unfold Probing.step
  split
  next hret => exact h.stepOpen hret e
  next hret => exact h.weaken _ _ (fun _ haddr => haddr) (fun _ _ hret' => absurd hret' hret)

theorem Decided.run (h : Decided ds hs s) (es : List ProbeEvent) :
    Decided (ds ++ arrivals es) (hs ++ s.heard c es) (s.run c es) := by
  induction es generalizing ds hs s with
  | nil =>
    rw [arrivals, List.flatMap_nil, Probing.heard, List.append_nil, List.append_nil]
    exact h
  | cons e es ih =>
    rw [arrivals, List.flatMap_cons, Probing.heard, ← List.append_assoc, ← List.append_assoc]
    exact ih (h.step e)

theorem decided_start : Decided [] [] Probing.start where
  result _ h := by
    obtain h | h := h
    · cases h
    · cases h
  waiting _ _ _ := rfl

/-- Nothing but datagrams has happened. -/
structure Hearing (s : Probing) : Prop where
  listening : s.listening = true
  returned : s.returned = none
  done : s.done = false

theorem Hearing.run (h : Hearing s) (ds : List Datagram) :
    Hearing (s.run c (ds.map .datagram)) := by
  induction ds generalizing s with
  | nil => exact h
  | cons d ds ih =>
    refine ih ?_
    obtain ⟨-, hlistening, hreturned, hdone⟩ := react_read s c d rfl
    simp only [Probing.step, if_pos h.returned, Probing.stepOpen, if_pos h.listening]
    exact ⟨hlistening.trans h.listening, hreturned.trans h.returned, hdone.trans h.done⟩

theorem Probing.heard_append (s : Probing) (es es' : List ProbeEvent) :
    s.heard c (es ++ es') = s.heard c es ++ (s.run c es).heard c es' := by
  induction es generalizing s with
  | nil => rfl
  | cons e es ih =>
    rw [List.cons_append, heard, heard, ih (s.step c e), List.append_assoc]
    rfl

/-- Nothing is read, and nothing changes, after the return. -/
theorem Probing.step_returned (hret : s.returned ≠ none) (e : ProbeEvent) : s.step c e = s :=
  if_neg hret

theorem Probing.run_returned (hret : s.returned ≠ none) (es : List ProbeEvent) : s.run c es = s := by
  induction es with
  | nil => rfl
  | cons e es ih => rwa [run, List.foldl_cons, step_returned hret]

theorem Probing.heard_returned (hret : s.returned ≠ none) (es : List ProbeEvent) :
    s.heard c es = [] := by
  induction es with
  | nil => rfl
  | cons e es ih =>
    rw [heard, step_returned hret, ih, hears, if_neg (fun h => hret h.1), List.append_nil]

theorem Hearing.heard (h : Hearing s) (ds : List Datagram) :
    s.heard c (ds.map .datagram) = ds := by
  induction ds generalizing s with
  | nil => rfl
  | cons d ds ih =>
    rw [List.map_cons, Probing.heard, Probing.hears, if_pos ⟨h.returned, h.listening⟩]
    exact congrArg (d :: ·) (ih (h.run [d]))

theorem arrivals_datagrams (ds : List Datagram) : arrivals (ds.map .datagram) = ds := by
  induction ds with
  | nil => rfl
  | cons d ds ih => exact congrArg (d :: ·) ih

/-- If the first accepted datagram comes before the timeout, its sender can be returned. -/
theorem returned_of_accepted {d : Datagram} (hd : ds.find? Datagram.accepted = some d) :
    (Probing.start.run c (ds.map .datagram ++ [.select true])).returned =
      some (.ok d.addr.string) := by
  have hhearing := Hearing.run (c := c) ⟨rfl, rfl, rfl⟩ ds (s := .start)
  have hdecided := decided_start.run (c := c) (ds.map .datagram)
  unfold Probing.run at hhearing hdecided ⊢
  rw [List.foldl_append]
  generalize List.foldl (Probing.step c) .start (ds.map .datagram) = t at hhearing hdecided
  rw [arrivals_datagrams, List.nil_append] at hdecided
  cases hresult : t.result with
  | none =>
    have hnone := hdecided.waiting hhearing.listening hresult hhearing.returned
    rw [hd] at hnone
    cases hnone
  | some addr =>
    obtain ⟨d', -, hd', rfl⟩ := hdecided.result addr (.inl hresult)
    rw [hd] at hd'
    cases hd'
    simp only [List.foldl_cons, List.foldl_nil, Probing.step, if_pos hhearing.returned,
      Probing.stepOpen, hresult, hhearing.done, Probing.finish]

/-- The run in which the call returns as soon as it has read `ds`, before `rest` arrives. -/
def promptRun (ds rest : List Datagram) : List ProbeEvent :=
  ds.map .datagram ++ [.select true] ++ rest.map .datagram

theorem arrivals_promptRun (ds rest : List Datagram) : arrivals (promptRun ds rest) = ds ++ rest := by
  have happend : ∀ es es', arrivals (es ++ es') = arrivals es ++ arrivals es' :=
    fun _ _ => List.flatMap_append
  rw [promptRun, happend, happend, arrivals_datagrams, arrivals_datagrams]
  exact congrArg (· ++ rest) (List.append_nil ds)

theorem returned_promptRun {d : Datagram} (hd : ds.find? Datagram.accepted = some d)
    (rest : List Datagram) :
    (Probing.start.run c (promptRun ds rest)).returned = some (.ok d.addr.string) ∧
      Probing.start.heard c (promptRun ds rest) = ds := by
  have hreturned := returned_of_accepted (c := c) hd
  have hclosed : (Probing.start.run c (ds.map .datagram ++ [.select true])).returned ≠ none := by
    rw [hreturned]
    nofun
  constructor
  · rw [promptRun, Probing.run, List.foldl_append]
    exact (congrArg Probing.returned (Probing.run_returned hclosed _)).trans hreturned
  · rw [promptRun, Probing.heard_append, Probing.heard_returned hclosed, List.append_nil,
      Probing.heard_append, Hearing.heard ⟨rfl, rfl, rfl⟩ ds, Probing.heard, Probing.hears]
    simp [ProbeEvent.arrival, Probing.heard]

theorem accepted_of_isAck {d : Datagram} (h : c.IsAck d) : d.accepted = true := by
  obtain ⟨rest, hrest⟩ := h
  have hlen : 4 ≤ d.data.length := by
    rw [← hrest, List.length_append, List.length_append]
    have : probeAckMagic.length = 4 := rfl
    omega
  have htake : d.data.take 4 = probeAckMagic := by
    rw [← hrest, List.append_assoc]
    rfl
  rw [Datagram.accepted, htake, decide_eq_true hlen]
  rfl

/-- What is returned is always the address of a candidate, or of somebody who sent an ack with this
run's probe ID before the return, if and only if the first datagram with one of the two magics is
from a candidate or is such an ack itself: neither the sender nor the probe ID is looked at. -/
theorem probe_legit_iff (c : ProbeCall) (listenUDP : Except String Unit) (ds : List Datagram) :
    (∀ es addr, arrivals es = ds → c.probe listenUDP es = some (.ok addr) →
        c.Legit (Probing.start.heard c es) addr) ↔
      (c.remoteCandidates ≠ [] → listenUDP = .ok () →
        ∀ d, ds.find? Datagram.accepted = some d → c.IsCandidate d.addr.string ∨ c.IsAck d) := by
  constructor
  · intro h hne hlisten d hd
    obtain ⟨hacc, before, rest, rfl, hbefore⟩ := List.find?_eq_some_iff_append.mp hd
    -- the call returns before anything after `d` arrives
    have hfirst : (before ++ [d]).find? Datagram.accepted = some d :=
      List.find?_eq_some_iff_append.mpr ⟨hacc, before, [], rfl, hbefore⟩
    obtain ⟨hreturned, hheard⟩ := returned_promptRun (c := c) hfirst rest
    have harrivals : arrivals (promptRun (before ++ [d]) rest) = before ++ d :: rest := by
      rw [arrivals_promptRun, List.append_assoc, List.singleton_append]
    subst hlisten
    have hlegit := h _ d.addr.string harrivals ((if_neg hne).trans hreturned)
    rw [hheard] at hlegit
    obtain hcandidate | ⟨d', hd', -, hack⟩ := hlegit
    · exact .inl hcandidate
    · obtain hd' | hd' := List.mem_append.mp hd'
      · have hrejected := hbefore d' hd'
        rw [accepted_of_isAck hack] at hrejected
        cases hrejected
      · rw [List.mem_singleton.mp hd'] at hack
        exact .inr hack
  · intro h es addr hes hprobe
    unfold ProbeCall.probe at hprobe
    split at hprobe
    · cases hprobe
    next hne =>
      split at hprobe
      · cases hprobe
      · obtain ⟨d, hmem, hd, rfl⟩ := (decided_start.run es).result addr (.inr hprobe)
        rw [hes, List.nil_append] at hd
        rw [List.nil_append] at hmem
        obtain hcandidate | hack := h hne rfl d hd
        · exact .inl hcandidate
        · exact .inr ⟨d, hmem, rfl, hack⟩

/-- A candidate at 192.0.2.1 that is never heard. -/
def aProbeCall : ProbeCall where
  resolver := ⟨fun _ => none, fun _ => none⟩
  localPort := 51820
  remoteCandidates := [⟨"192.0.2.1:9999", "host", 100⟩]
  probeID := ⟨[1, 2, 3, 4, 5, 6, 7, 8], rfl⟩

/-- Four bytes from 198.51.100.9. -/
def strangersProbe : Datagram :=
  ⟨⟨some ⟨[198, 51, 100, 9], .inl rfl⟩, 4444, ""⟩, probeMagic⟩

theorem stranger_is_returned :
    aProbeCall.probe (.ok ()) [.tick, .datagram strangersProbe, .select true] =
        some (.ok "198.51.100.9:4444") ∧
      ¬aProbeCall.Legit
        (Probing.start.heard aProbeCall [.tick, .datagram strangersProbe, .select true])
        "198.51.100.9:4444" := by
  refine ⟨by decide +kernel, ?_⟩
  rintro (⟨cand, hcand, raddr, hresolve, hstring⟩ | ⟨d, hd, -, hdata⟩)
  · obtain rfl := List.mem_singleton.mp hcand
    have hcandidate : aProbeCall.resolver.resolveUDPAddr "192.0.2.1:9999" =
        some ⟨some ⟨v4InV6 ++ [192, 0, 2, 1], .inr rfl⟩, 9999, ""⟩ := by decide +kernel
    obtain rfl := Option.some.inj (hcandidate.symm.trans hresolve)
    exact absurd hstring (by decide +kernel)
  · obtain rfl := List.mem_singleton.mp hd
    have hbare : ¬probeAckMagic ++ aProbeCall.probeID.bytes <+: strangersProbe.data := by decide
    exact hbare hdata

end PeerCompute.NAT
