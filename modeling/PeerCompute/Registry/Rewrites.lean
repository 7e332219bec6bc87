import PeerCompute.Registry.Effects
import PeerCompute.Registry.RewriteContract
import PeerCompute.Store.Postgres

namespace PeerCompute.Registry

open PeerCompute.Data PeerCompute.Interleaving PeerCompute.Plugin PeerCompute.Computev1
  PeerCompute.Relay PeerCompute.PostgresStore Prog Contract

variable {σ : Type} {E : Env} {S : Store σ}

namespace Contest

variable {K : Contest σ} {w : History} {g : Part} {α : Type} {r : SessionRecord}

theorem rewrite_of_rewritten {c : Rpc} {r' : SessionRecord} (h : Rewritten r c r') :
    untimed r' = c.rewrite (untimed r) := by
  cases h with
  | terminated t => rfl
  | @updated req hrej t =>
    rw [untimed_updateRecord, Rpc.rewrite, if_neg hrej]
    rfl
  | reported req => rfl

/-- The call `c` has a copy `x` of the record that it makes of `x₀`, until it has written it. -/
def Edits (K : Contest σ) (i : Nat) (c : Rpc) :
    EditRules.Phase → Part → SessionRecord → SessionRecord → Ref SessionRecord → Prop
  | .stored, g, _, x, ref => g.stage = .wrote ∧ ref = .own x
  | _, g, x₀, x, ref => g = ⟨i, c, .holds (untimed x₀)⟩ ∧ x.id = K.record.id ∧ ref = .own x

/-- A call reads the record, and writes back what it makes of it. -/
def editRules (K : Contest σ) {c : Rpc} {p : String} (hc : c.rewrites = some p)
    (hp : Resolves S K.server.store p K.record.id) (i : Nat) : EditRules (K.contract S) c where
  Before g := g = ⟨i, c, .unread⟩
  After g := g.stage = .wrote
  At k _ := K.Edits i c k
  Seen _ _ x r := r = x
  Copies := True
  at_mono h _ := h
  seen_mono h _ := h
  seen_eq _ h := h
  done h := .inl h
  rejected := by
    rintro w g x₀ x ref ⟨rfl, -⟩ hw
    exact .inr ⟨⟨_, rfl⟩, hw⟩
  aside {w g a res} ha := by
    apply Move.keep
    cases a with
    | now | recordOutcome | registerRelay | invalidateRelay | deleteCandidates => rfl
    | _ => exact ha.elim
  get := by
    rintro w g p' res hp' rfl hres
    cases hc.symm.trans hp'
    obtain ⟨r, rfl, hid, hr⟩ := hres hp
    exact ⟨_, _, .read rfl, .inr ⟨_, r, rfl, by rw [hr], hid, rfl⟩⟩
  load {k w g x₀ x ref r} hat hres := by
    obtain rfl : ref = .own x := by
      cases k with
      | stored => exact hat.2
      | _ => exact hat.2.2
    exact ⟨.keep rfl, hres⟩
  set {k w g x₀ x ref b ref'} hat _ hres := by
    cases k with
    | stored =>
      obtain ⟨hg, rfl⟩ := hat
      exact ⟨.keep rfl, hg, hres⟩
    | _ =>
      obtain ⟨hg, hid, rfl⟩ := hat
      exact ⟨.keep rfl, hg, (b.id_apply x).trans hid, hres⟩
  setStatus := by
    rintro w g x₀ x ref r v ref' ⟨hg, hid, rfl⟩ - - hres
    exact ⟨.keep rfl, hg, hid, hres⟩
  close := by
    rintro w g x₀ x ref v ref' ⟨hg, hid, rfl⟩ hres
    exact ⟨w, g, le_rfl, .keep rfl, hg, hid, hres⟩
  reclaim {w g x₀ x ref r} hat _ := ⟨w, g, .keep rfl, hat⟩
  put := by
    rintro w g x₀ x ref res ⟨rfl, hid, rfl⟩ hx hw hreg -
    refine ⟨_, _, .write rfl (rewrite_of_rewritten (hx trivial)) hw (fun h => ?_), rfl⟩
    obtain ⟨w', r, rfl, hr⟩ := hreg h
    exact hid ▸ hr
  putClosing := by
    rintro w g x₀ x ref res ⟨rfl, -, rfl⟩ hx hw hreg hres
    refine ⟨_, _, .write rfl (rewrite_of_rewritten (hx trivial)) hw (fun h => ?_),
      .inr ⟨.own x, hres, rfl, rfl⟩⟩
    cases hreg.symm.trans h
  reclaimStored {w g x₀ x ref r} hat _ := ⟨w, g, .keep rfl, hat.1⟩

theorem follows_handler {c : Rpc} {p : String} (hc : c.rewrites = some p) {i : Nat}
    (hp : Resolves S K.server.store p K.record.id) :
    (K.contract S).Follows w ⟨i, c, .unread⟩ c.handler :=
  (K.editRules hc hp i).follows_handler hc rfl

/-- The calls before they begin. -/
def parts (K : Contest σ) : List Part := K.calls.mapIdx (fun i c => ⟨i, c, .unread⟩)

theorem Inv.start (h : S.session K.server.store K.record.id = some K.record) :
    K.Inv S ⟨[]⟩ K.parts K.server := by
  refine ⟨⟨_, h, rfl⟩, rfl, fun _ => rfl, rfl, fun i g hg => ?_, List.length_mapIdx, nofun⟩
  obtain ⟨c, hc, rfl⟩ := Option.map_eq_some_iff.mp (List.getElem?_mapIdx.symm.trans hg)
  exact ⟨rfl, hc, rfl, nofun, nofun⟩

/-- A call that has returned has read once, and has written once unless it gave up.  If it
registers a token, then it has done so. -/
theorem Inv.returned {gs : List Part} {s : Server σ} (h : K.Inv S w gs s)
    (hdone : ∀ g ∈ gs, (K.contract S).Done g) {i : Nat} {c : Rpc} (hc : K.calls[i]? = some c) :
    Access.own i w.accesses = Cell.attempt c.writes ∧
      (c.registers = true → CanRegister K.server K.record.id) := by
  have hi : i < gs.length := h.length ▸ (List.getElem?_eq_some_iff.mp hc).1
  have hpart := h.part i gs[i] (List.getElem?_eq_getElem hi)
  obtain rfl : c = gs[i].call := Option.some.inj (hc.symm.trans hpart.call)
  rw [hpart.own]
  obtain hg | ⟨⟨v, hg⟩, hw⟩ := hdone gs[i] (List.getElem_mem hi)
  · obtain ⟨hw, hreg⟩ := hpart.wrote hg
    rw [hw, hg]
    exact ⟨rfl, hreg⟩
  · rw [hw, hg]
    refine ⟨rfl, fun hreg => ?_⟩
    cases hcall : gs[i].call with
    | reportConnectionResult req =>
      rw [hcall] at hw
      cases hw
    | _ =>
      rw [hcall] at hreg
      cases hreg

end Contest

section

variable {s : Server σ} {c : Rpc} {p : String} {r : SessionRecord}

theorem SameIDs.trans {st st' st'' : σ} (h : SameIDs S st st') (h' : SameIDs S st' st'') :
    SameIDs S st st'' := fun id => (h' id).trans (h id)

theorem Resolves.mono {st st' : σ} {id : String} (hp : Resolves S st p id)
    (h : SameIDs S st st') : Resolves S st' p id := fun t st'' h' => hp t st'' (h.trans h')

/-- What a call that runs alone makes of the record. -/
theorem rewrite_leads (hS : S.Lawful) (hcopy : S.shared = false) (hfail : S.NeverFails)
    (hc : c.rewrites = some p) (hp : Resolves S s.store p r.id)
    (hr : S.session s.store r.id = some r) :
    Leads (exec E S) c.handler s (fun _ s' => SameIDs S s.store s'.store ∧
      s'.relay.isSome = s.relay.isSome ∧
      ∃ r', S.session s'.store r.id = some r' ∧ untimed r' = c.rewrite (untimed r)) := by
  let K : Contest σ := ⟨s, r, [c]⟩
  have hstart : K.Inv S ⟨[]⟩ [⟨0, c, .unread⟩] s := Contest.Inv.start hr
  have hfollows : (K.contract S).Follows ⟨[]⟩ ⟨0, c, .unread⟩ c.handler :=
    Contest.follows_handler hc hp
  refine (hfollows.leads (Contest.contract_sound hS hcopy hfail) hstart).mono ?_
  rintro _ s' ⟨w, g, hInv, hdone⟩
  refine ⟨hInv.ids, hInv.relay, ?_⟩
  obtain ⟨r', hr', hcell⟩ := hInv.record
  refine ⟨r', hr', hcell.trans ?_⟩
  have hown := (hInv.returned (List.forall_mem_singleton.mpr hdone) (i := 0) rfl).1
  apply Cell.value_alone (i := 0) _ _ hown
  · exact fun hw => Rpc.rewrite_of_not_writes hw _
  · exact fun e he => Nat.lt_one_iff.mp (hInv.known e he)

/-! The calls return, unless the relay panics. -/

theorem uses_terminateSession (req : TerminateSessionRequest) :
    (terminateSession req).Uses (fun a => total a = true) := by
  refine ⟨rfl, fun res => ?_⟩
  cases res with
  | error e => trivial
  | ok ref =>
    refine ⟨rfl, fun ref => ⟨rfl, fun now => ⟨rfl, fun ref => ⟨rfl, fun res => ?_⟩⟩⟩⟩
    cases res with
    | error e => trivial
    | ok ref => exact ⟨rfl, fun r => uses_cleanUp _ rfl rfl rfl rfl⟩

theorem uses_setNonempty (v : String) (b : String → SessionAssign) (ref : Ref SessionRecord) :
    (setNonempty v b ref).Uses (fun a => total a = true) := by
  unfold setNonempty
  split
  · exact ⟨rfl, fun _ => trivial⟩
  · trivial

theorem uses_finishUpdate (req : UpdateSessionStatusRequest) (ref : Ref SessionRecord) :
    (finishUpdate req ref).Uses (fun a => total a = true) := by
  unfold finishUpdate
  split
  · split
    · trivial
    · refine uses_perform.mpr ⟨rfl, fun r => ?_⟩
      split
      · exact ⟨rfl, fun ref => uses_putSessionAnd ref _ rfl⟩
      · exact uses_putSessionAnd ref _ rfl
  · exact uses_putSessionAnd ref _ rfl

theorem uses_updateSessionStatus (req : UpdateSessionStatusRequest) :
    (updateSessionStatus req).Uses (fun a => total a = true) := by
  have hreported : ∀ ref, (setReported req ref >>= finishUpdate req).Uses
      (fun a => total a = true) := by
    intro ref
    unfold setReported
    simp only [bind_assoc]
    refine (uses_setNonempty _ _ _).bind (fun ref => ?_)
    refine (uses_setNonempty _ _ _).bind (fun ref => ?_)
    refine (uses_setNonempty _ _ _).bind (fun ref => ?_)
    exact (uses_setNonempty _ _ _).bind (fun ref => uses_finishUpdate req ref)
  refine ⟨rfl, fun res => ?_⟩
  cases res with
  | error e => trivial
  | ok ref =>
    refine ⟨rfl, fun r => ⟨rfl, fun ref => ?_⟩⟩
    dsimp only
    split
    · exact ⟨rfl, fun _ => ⟨rfl, fun now => ⟨rfl, fun ref => ⟨rfl, fun _ => hreported ref⟩⟩⟩⟩
    · exact hreported ref

theorem exec_registerRelay_of (h : CanRegister s r.id) (token : String) :
    ∃ s', exec E S (.registerRelay token r.id) s = some ((), s') := by
  simp only [exec, Server.act]
  cases hrelay : s.relay with
  | none => exact ⟨_, rfl⟩
  | some rs =>
    have hlen : ¬r.id.utf8ByteSize < 8 := Nat.not_lt.mpr (h (by rw [hrelay]; rfl))
    simp only [RelayServer.registerSession, RelayServer.bindSession, if_neg hlen]
    exact ⟨_, rfl⟩

theorem reportConnectionResult_returns {req : ReportConnectionResultRequest}
    (hget : S.getSessionByPrefix s.clock s.store req.sessionID = .ok (.own r))
    (hreg : req.useRelay = true → CanRegister s r.id) :
    ∃ x, (reportConnectionResult req).run (exec E S) s = some x := by
  have htotal : ∀ ref s, ∃ x, (putSessionAnd ref (.reportConnectionResult true)).run
      (exec E S) s = some x := by
    intro ref s
    have huses : (putSessionAnd ref (.reportConnectionResult true)).Uses
        (fun a => total a = true) := uses_putSessionAnd ref _ rfl
    exact huses.returns (fun _ ha s => exec_total ha s) s
  have hx : exec E S (.getSessionByPrefix req.sessionID) s = some (.ok (.own r), s.tick) := by
    simp only [exec, Server.act, hget]
    rfl
  apply returns_perform hx
  dsimp only
  split
  next hrelay =>
    have hreg' : CanRegister s.tick.tick.tick r.id := hreg hrelay
    obtain ⟨s', hs'⟩ := exec_registerRelay_of (E := E) (S := S) hreg' r.relayToken
    apply returns_perform
    · exact rfl
    apply returns_perform
    · exact rfl
    apply returns_perform hs'
    exact htotal _ s'
  next hrelay =>
    apply returns_perform
    · exact rfl
    exact htotal _ _

theorem handler_returns (hS : S.Lawful) (hc : c.rewrites = some p) (hp : Resolves S s.store p r.id)
    (hreg : c.registers = true → CanRegister s r.id) :
    ∃ x, c.handler.run (exec E S) s = some x := by
  cases c with
  | terminateSession req =>
    exact (uses_terminateSession req).returns (fun _ ha s => exec_total ha s) s
  | updateSessionStatus req =>
    exact (uses_updateSessionStatus req).returns (fun _ ha s => exec_total ha s) s
  | reportConnectionResult req =>
    cases hc
    obtain ⟨r', hr', hget⟩ := hp s.clock s.store (fun _ => rfl)
    refine reportConnectionResult_returns hget (fun hrelay => ?_)
    rw [hS.session_id hr']
    exact hreg hrelay
  | _ => cases hc

/-- Calls that are made one after the other rewrite the record one after the other. -/
theorem run_rewrites (hS : S.Lawful) (hcopy : S.shared = false) (hfail : S.NeverFails)
    {id : String} {calls : List Rpc}
    (hcalls : ∀ c ∈ calls, ∃ p, c.rewrites = some p ∧ Resolves S s.store p id ∧
      (c.registers = true → CanRegister s id))
    (hr : S.session s.store id = some r) :
    ∃ s' y, Step.run (step E S) (calls.map .rpc) s = some s' ∧ S.session s'.store id = some y ∧
      untimed y = calls.foldl (fun r c => c.rewrite r) (untimed r) := by
  induction calls generalizing s r with
  | nil => exact ⟨s, r, rfl, hr, rfl⟩
  | cons c calls ih =>
    obtain rfl := hS.session_id hr
    obtain ⟨p, hc, hp, hreg⟩ := hcalls c (.head _)
    obtain ⟨⟨resp, s₁⟩, hrun⟩ := handler_returns (E := E) hS hc hp hreg
    obtain ⟨hids, hrelay, r₁, hr₁, heq⟩ :=
      leads_iff.mp (rewrite_leads hS hcopy hfail hc hp hr) resp s₁ hrun
    have hcalls₁ : ∀ c ∈ calls, ∃ p, c.rewrites = some p ∧ Resolves S s₁.store p r.id ∧
        (c.registers = true → CanRegister s₁ r.id) := by
      intro c' hc'
      obtain ⟨p', hp', hres, hreg'⟩ := hcalls c' (.tail _ hc')
      exact ⟨p', hp', hres.mono hids, fun h hs => hreg' h (hrelay ▸ hs)⟩
    obtain ⟨s', y, hrest, hy, hfold⟩ := ih hcalls₁ hr₁
    refine ⟨s', y, ?_, hy, by rw [hfold, heq, List.foldl_cons]⟩
    have hstep : step E S s (.rpc c) = some s₁ := by simp only [step, hrun, Option.map_some]
    rw [List.map_cons, Step.run, hstep, Option.bind_some, hrest]

/-- Made one after the other, the calls leave the record `x`, the time of a termination aside. -/
def Leaves (E : Env) (S : Store σ) (s : Server σ) (calls : List Rpc) (id : String)
    (x : SessionRecord) : Prop :=
  ∃ s' y, Step.run (step E S) (calls.map .rpc) s = some s' ∧ S.session s'.store id = some y ∧
    untimed y = untimed x

end

/-- An access to a session's record in the store. -/
def access : Action → Option Access
  | .getSessionByPrefix _ => some .read
  | .putSession _ => some .write
  | _ => none

/-- The accesses of interleaved calls, each with the number of the call that makes it. -/
def accesses (E : Env) (S : Store σ) (turns : List Turn) (s : Server σ) : List (Nat × Access) :=
  Pool.log access (exec E S) (turns.map Turn.event) (⟨s, []⟩ : Calls σ)

theorem Contest.history_move {K : Contest σ} {w w' : History} {gs : List Contest.Part}
    {s : Server σ} {i : Nat} {g g' : Contest.Part} {a : Action} {res : a.Res}
    (h : K.Inv S w gs s) (hg : gs[i]? = some g) (hm : (K.contract S).Move w g a res w' g') :
    w'.accesses = w.accesses ++ Pool.note (S := signature) access i a := by
  obtain rfl := (h.part i g hg).index
  cases hm with
  | keep ha =>
    have hnone : access a = none := by
      cases a with
      | getSessionByPrefix | putSession => cases ha
      | _ => rfl
    simp [Pool.note, hnone]
  | read => rfl
  | write => rfl

/-- Calls that rewrite the session `id`, whatever their number, have left the record that their
accesses make of `r`: each has read once, and written once unless it gave up. -/
structure Replayed (S : Store σ) (s s' : Server σ) (r : SessionRecord) (calls : List Rpc)
    (h : List (Nat × Access)) : Prop where
  record : ∃ x, S.session s'.store r.id = some x ∧
    untimed x = (Cell.replay (Contest.rewrite ⟨s, r, calls⟩) (untimed r) h).value
  own : ∀ i c, calls[i]? = some c → Access.own i h = Cell.attempt c.writes
  known : ∀ e ∈ h, e.1 < calls.length
  canRegister : ∀ c ∈ calls, c.registers = true → CanRegister s r.id

theorem interleave_replayed (hS : S.Lawful) (hcopy : S.shared = false) (hfail : S.NeverFails)
    {s : Server σ} {r : SessionRecord} (hr : S.session s.store r.id = some r) {calls : List Rpc}
    (hcalls : ∀ c ∈ calls, ∃ p, c.rewrites = some p ∧ Resolves S s.store p r.id)
    {schedule : List Nat} {P : Calls σ}
    (hplay : interleave E S (calls.map .call ++ schedule.map .step) s = some P)
    (hidle : P.Idle) :
    Replayed S s P.state r calls (accesses E S (calls.map .call ++ schedule.map .step) s) := by
  let K : Contest σ := ⟨s, r, calls⟩
  have hevents : (calls.map Turn.call ++ schedule.map Turn.step).map Turn.event =
      (calls.map Rpc.handler).map .start ++ schedule.map .step := by
    simp [Function.comp_def, Turn.event]
  rw [interleave, hevents, Pool.play_starts] at hplay
  have hacc : accesses E S (calls.map .call ++ schedule.map .step) s =
      Pool.log access (exec E S) (schedule.map .step) (⟨s, calls.map Rpc.handler⟩ : Calls σ) := by
    unfold accesses
    rw [hevents]
    exact Pool.log_starts (exec E S) (calls.map Rpc.handler) (schedule.map .step) ⟨s, []⟩
  have hstart : (K.contract S).GovernedIn (K.Inv S) ⟨[]⟩
      (⟨s, calls.map Rpc.handler⟩ : Calls σ) := by
    refine ⟨K.parts, .start hr, List.forall₂_iff_get.mpr ⟨by simp [Contest.parts, K], ?_⟩⟩
    intro i hi hi'
    have hi : i < calls.length := by simpa [Contest.parts, K] using hi
    obtain ⟨p, hp, hres⟩ := hcalls calls[i] (List.getElem_mem hi)
    simpa [Contest.parts, K] using Contest.follows_handler (K := K) (i := i) hp hres
  obtain ⟨w, hgov, hlog⟩ := hstart.play_log (Contest.contract_sound hS hcopy hfail)
    Contest.history_move hplay
  obtain ⟨gs, hInv, hdone⟩ := hgov.idle hidle
  have hw : accesses E S (calls.map .call ++ schedule.map .step) s = w.accesses :=
    hacc.trans hlog.symm
  rw [hw]
  refine ⟨hInv.record, fun i c hc => (hInv.returned hdone hc).1, hInv.known, fun c hc => ?_⟩
  obtain ⟨i, hi⟩ := List.getElem?_of_mem hc
  exact (hInv.returned hdone hi).2

/-- Two calls that rewrite one session, over a store that hands out copies: unless both read the
record before either writes it, they leave what they leave one after the other in one of the two
orders.  Otherwise the first write is lost: they leave what the last writer leaves alone. -/
theorem concurrent_rewrites (hS : S.Lawful) (hcopy : S.shared = false) (hfail : S.NeverFails)
    {a b : Rpc} {p q id : String} (ha : a.rewrites = some p) (hb : b.rewrites = some q)
    {s : Server σ} (hp : Resolves S s.store p id) (hq : Resolves S s.store q id)
    {schedule : List Nat} {P : Calls σ}
    (hplay : interleave E S (.call a :: .call b :: schedule.map .step) s = some P)
    (hidle : P.Idle) :
    ∃ x, S.session P.state.store id = some x ∧
      ((∀ l, ¬Cell.Overlap (accesses E S (.call a :: .call b :: schedule.map .step) s) l) →
        Leaves E S s [a, b] id x ∨ Leaves E S s [b, a] id x) ∧
      ∀ l c, Cell.Overlap (accesses E S (.call a :: .call b :: schedule.map .step) s) l →
        [a, b][l]? = some c → Leaves E S s [c] id x := by
  obtain ⟨r, hr, -⟩ := hp 0 s.store (fun _ => rfl)
  obtain rfl := hS.session_id hr
  have hcalls : ∀ c ∈ [a, b], ∃ p, c.rewrites = some p ∧ Resolves S s.store p r.id := by
    intro c hc
    obtain rfl | rfl : c = a ∨ c = b := by simpa using hc
    · exact ⟨p, ha, hp⟩
    · exact ⟨q, hb, hq⟩
  have h := interleave_replayed hS hcopy hfail hr hcalls hplay hidle
  obtain ⟨x, hx, hcell⟩ := h.record
  have hserial : ∀ calls : List Rpc, (∀ c ∈ calls, c ∈ [a, b]) →
      untimed x = calls.foldl (fun r c => c.rewrite r) (untimed r) →
      Leaves E S s calls r.id x := by
    intro calls hsub heq
    have hall : ∀ c ∈ calls, ∃ p, c.rewrites = some p ∧ Resolves S s.store p r.id ∧
        (c.registers = true → CanRegister s r.id) := by
      intro c hc
      obtain ⟨p, hp, hres⟩ := hcalls c (hsub c hc)
      exact ⟨p, hp, hres, h.canRegister c (hsub c hc)⟩
    obtain ⟨s', y, hrun, hy, hfold⟩ := run_rewrites (E := E) hS hcopy hfail hall hr
    exact ⟨s', y, hrun, hy, hfold.trans heq.symm⟩
  refine ⟨x, hx, fun hover => ?_, fun l c hover hc => ?_⟩
  · have hmem : ∀ e ∈ accesses E S (.call a :: .call b :: schedule.map .step) s,
        e.1 = 0 ∨ e.1 = 1 := by
      intro e he
      have hlt : e.1 < 2 := h.known e he
      omega
    obtain hvalue | hvalue := Cell.value_serial (f := Contest.rewrite ⟨s, r, [a, b]⟩)
      (x := untimed r) Nat.zero_ne_one hmem (h.own 0 a rfl) (h.own 1 b rfl)
      Rpc.rewrite_of_not_writes Rpc.rewrite_of_not_writes hover
    · exact .inl (hserial [a, b] (fun _ hc => hc) (hcell.trans hvalue))
    · exact .inr (hserial [b, a] (by simp) (hcell.trans hvalue))
  · apply hserial [c]
    · intro c' hc'
      rw [List.mem_singleton.mp hc']
      exact List.mem_of_getElem? hc
    · refine (hcell.trans (Cell.value_of_overlap hover)).trans ?_
      simp only [Contest.rewrite, hc]
      rfl

/-- Calls made one after the other do not leave a record with another status than theirs. -/
theorem not_leaves_of_status {B : Backend} {s : Server Tables} {calls : List Rpc}
    {id status : String} {x : SessionRecord}
    (hrun : (Step.run (step E (tableStore B)) (calls.map .rpc) s).map
      (fun s' => (s'.store.sessions.lookup id).map (·.status)) = some (some status))
    (hx : x.status ≠ status) : ¬Leaves E (tableStore B) s calls id x := by
  rintro ⟨s', y, hs', hy, heq⟩
  have hy' : s'.store.sessions.lookup id = some y := hy
  rw [hs', Option.map_some, hy', Option.map_some] at hrun
  have huntimed := congrArg SessionRecord.status heq
  have hst : y.status = x.status := huntimed
  exact hx (hst.symm.trans (Option.some.inj (Option.some.inj hrun)))

/-- A full session ID names its session. -/
theorem tableStore_resolves (order : Nat → Order String) {m : Tables} {id : String}
    (h : (m.sessions.lookup id).isSome = true) :
    Resolves (tableStore (faultless order)) m id id := by
  intro t m' hids
  obtain ⟨r, hr⟩ := Option.isSome_iff_exists.mp ((hids id).trans h)
  exact ⟨r, hr, (tableStore_exact order).get_session hr⟩

def onePending : Server Tables :=
  { relay := none
    store := oneProvider.store.insertSession
      { id := "session-4", providerID := "p", renterID := "r", status := "pending" } }

def terminatePending : Rpc := .terminateSession { sessionID := "session-4" }

def reportPending : Rpc := .reportConnectionResult
  { sessionID := "session-4", peerID := "r", selectedEndpoint := "", useRelay := false }

/-- Both calls read, the session is terminated, and then the connection is reported. -/
def lateReport : List Nat := [0, 1, 0, 0, 0, 0, 0, 0, 0, 0, 1, 1]

theorem concurrent_rewrites_late :
    ∃ P, interleave countingEnv (tableStore (faultless (fun _ => Order.id)))
        (.call terminatePending :: .call reportPending :: lateReport.map .step) onePending = some P ∧
      ∃ x, P.state.store.sessions.lookup "session-4" = some x ∧
        Leaves countingEnv (tableStore (faultless (fun _ => Order.id))) onePending [reportPending]
          "session-4" x := by
  have hplay : (interleave countingEnv (tableStore (faultless (fun _ => Order.id)))
      (.call terminatePending :: .call reportPending :: lateReport.map .step) onePending).map
      (fun P => decide P.Idle) = some true := by decide +kernel
  obtain ⟨P, hP, hidle⟩ := Option.map_eq_some_iff.mp hplay
  have hresolves : Resolves (tableStore (faultless (fun _ => Order.id))) onePending.store
      "session-4" "session-4" := tableStore_resolves _ (by decide +kernel)
  obtain ⟨x, hx, -, hover⟩ := concurrent_rewrites (tableStore_lawful _) rfl
    (tableStore_neverFails _) rfl rfl hresolves hresolves hP (of_decide_eq_true hidle)
  exact ⟨P, hP, x, hx, hover 1 reportPending ⟨0, Nat.zero_ne_one, .inl (by decide +kernel)⟩ rfl⟩

/-- `TerminateSession` has returned with success, and the session is pending again: both orders
of the two calls leave it terminated. -/
theorem termination_lost :
    ∃ P, interleave countingEnv (tableStore (faultless (fun _ => Order.id)))
        (.call terminatePending :: .call reportPending :: lateReport.map .step) onePending = some P ∧
      P.threads.map Pool.answer = [some (.ok (.terminateSession true)),
        some (.ok (.reportConnectionResult true))] ∧
      ∃ x, P.state.store.sessions.lookup "session-4" = some x ∧ x.status = "pending" ∧
        ¬Leaves countingEnv (tableStore (faultless (fun _ => Order.id))) onePending
          [terminatePending, reportPending] "session-4" x ∧
        ¬Leaves countingEnv (tableStore (faultless (fun _ => Order.id))) onePending
          [reportPending, terminatePending] "session-4" x := by
  have hplay : (interleave countingEnv (tableStore (faultless (fun _ => Order.id)))
      (.call terminatePending :: .call reportPending :: lateReport.map .step) onePending).map
      (fun P => (P.threads.map Pool.answer,
        (P.state.store.sessions.lookup "session-4").map (·.status))) =
      some ([some (.ok (.terminateSession true)), some (.ok (.reportConnectionResult true))],
        some "pending") := by decide +kernel
  obtain ⟨P, hP, heq⟩ := Option.map_eq_some_iff.mp hplay
  simp only [Prod.mk.injEq] at heq
  obtain ⟨x, hx, hst⟩ := Option.map_eq_some_iff.mp heq.2
  have hne : x.status ≠ "terminated" := by
    rw [hst]
    decide
  exact ⟨P, hP, heq.1, x, hx, hst, not_leaves_of_status (by decide +kernel) hne,
    not_leaves_of_status (by decide +kernel) hne⟩

end PeerCompute.Registry
