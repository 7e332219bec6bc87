import PeerCompute.Plugin.MemoryStore
import PeerCompute.Registry.Rules
import PeerCompute.Registry.SlotContract

namespace PeerCompute.Registry

open PeerCompute.Data PeerCompute.Interleaving PeerCompute.Plugin PeerCompute.Computev1
  PeerCompute.Relay Prog Contract

variable {σ : Type} {S : Store σ} {w w' : Ledger} {g : Duty} {α : Type} {id : String}
  {ref : Ref SessionRecord}

theorem known_mono (h : w.ips id ≠ none) (hw : w ≤ w') : w'.ips id ≠ none := by
  obtain ⟨x, hx⟩ := Option.ne_none_iff_exists'.mp h
  rw [hw.2 _ _ hx]
  nofun

theorem Cursor.mono (h : Cursor w id ref) (hw : w ≤ w') : Cursor w' id ref := by
  cases ref with
  | own r => exact ⟨h.1, hw.2 _ _ h.2⟩
  | stored id' => exact ⟨h.1, known_mono h.2 hw⟩

theorem Cursor.known (h : Cursor w id ref) : w.ips id ≠ none := by
  cases ref with
  | own r =>
    rw [h.2]
    nofun
  | stored id' => exact h.2

theorem Cursor.handle {r : SessionRecord} (h : Cursor w id (.own r)) : Cursor w id (S.handle r) := by
  unfold Store.handle
  split
  · exact ⟨h.1, h.known⟩
  · exact h

theorem Fair.mono (h : Fair w ref) (hw : w ≤ w') : Fair w' ref := by
  cases ref with
  | own r => exact fun ht => hw.1 _ (h ht)
  | stored id' => trivial

/-! The rules of the contract for the calls that the handlers make. -/

/-- The actions that store no session as terminated, put no record of the call's own and take
no slot. -/
def quiet : Action → Bool
  | .putSession (.own _) | .setSession (.stored _) (.status _) | .allocateTunnelIPs _ => false
  | _ => true

theorem quiet_move {a : Action} (ha : quiet a = true) (res : a.Res) : Move w g a res w g := by
  apply Move.keep
  · intro id hid
    unfold terminates at hid
    split at hid
    · cases ha
    · cases ha
    · cases hid
  · rintro r rfl
    cases ha
  · rintro id rfl
    cases ha

theorem quiet_of_harmless {a : Action} (ha : Harmless a) : quiet a = true := by
  cases a with
  | putSession | setSession | allocateTunnelIPs => exact ha.elim
  | _ => rfl

theorem follows_quietly {p : Handler} (hp : p.Uses (fun a => quiet a = true)) :
    (slotContract S).Follows w Duty.idle p := by
  apply follows_of_uses _ _ hp
  · exact fun w a res ha _ => quiet_move ha res
  · exact ⟨rfl, nofun⟩

theorem follows_silent {p : Handler} (hp : p.Uses Silent) :
    (slotContract S).Follows w Duty.idle p :=
  follows_quietly (hp.mono (fun _ ha => quiet_of_harmless ha.harmless))

/-- What is loaded is the record of the session the cursor is at. -/
theorem Cursor.load {r : SessionRecord} (hc : Cursor w id ref)
    (hr : Answers S w (.loadSession ref) r) :
    r.id = id ∧ (Fair w ref → r.status = "terminated" → w.settled id) := by
  cases ref with
  | own r' =>
    obtain rfl : r = r' := hr
    exact ⟨hc.1, fun hf ht => hc.1 ▸ hf ht⟩
  | stored id' =>
    obtain ⟨rfl, hknown⟩ := hc
    obtain ⟨hid, hst⟩ := hr hknown
    exact ⟨hid, fun _ => hst⟩

theorem Cursor.set {b : SessionAssign} {ref' : Ref SessionRecord} (hc : Cursor w id ref)
    (href : Answers S w (.setSession ref b) ref') : Cursor w id ref' := by
  cases ref with
  | own r =>
    obtain rfl : ref' = .own (b.apply r) := href
    exact ⟨(b.id_apply r).trans hc.1, by rw [ips_apply]; exact hc.2⟩
  | stored id' =>
    obtain rfl : ref' = .stored id' := href
    exact hc

/-- An assignment of another field than the status. -/
theorem Fair.set {b : SessionAssign} {ref' : Ref SessionRecord} (hf : Fair w ref)
    (hb : ∀ v, b ≠ .status v) (href : Answers S w (.setSession ref b) ref') : Fair w ref' := by
  cases ref with
  | own r =>
    obtain rfl : ref' = .own (b.apply r) := href
    intro ht
    rw [b.id_apply r]
    refine hf ?_
    cases b with
    | status v => exact absurd rfl (hb v)
    | _ => exact ht
  | stored id' =>
    obtain rfl : ref' = .stored id' := href
    trivial

theorem quiet_set {b : SessionAssign} (hb : ∀ v, b ≠ .status v) :
    quiet (.setSession ref b) = true := by
  cases ref with
  | own r => rfl
  | stored id' =>
    cases b with
    | status v => exact absurd rfl (hb v)
    | _ => rfl

/-- An assignment of the status stores as terminated no session but that of the cursor. -/
theorem Cursor.terminates_set {v id' : String} (hc : Cursor w id ref)
    (h : terminates (.setSession ref (.status v)) = some id') : v = "terminated" ∧ id' = id := by
  cases ref with
  | own r => cases h
  | stored id'' =>
    simp only [terminates] at h
    split at h
    next hv =>
      cases h
      exact ⟨hv, hc.1⟩
    next => cases h

theorem Cursor.terminates_put {id' : String} (hc : Cursor w id ref)
    (h : terminates (.putSession ref) = some id') : id' = id := by
  cases ref with
  | own r =>
    simp only [terminates] at h
    split at h
    · cases h
      exact hc.1
    · cases h
  | stored id'' => cases h

theorem Fair.terminates_put (hf : Fair w ref) {id' : String}
    (h : terminates (.putSession ref) = some id') : w.settled id' := by
  cases ref with
  | own r =>
    simp only [terminates] at h
    split at h
    next ht =>
      cases h
      exact hf ht
    next => cases h
  | stored id'' => cases h

/-- After the slot is given back the session is settled, so that its record may be stored. -/
theorem Fair.of_settled (hc : Cursor w id ref) (hs : w.settled id) : Fair w ref := by
  cases ref with
  | own r => exact fun _ => hc.1 ▸ hs
  | stored id' => trivial

/-- A status that is known to leave the session settled. -/
theorem Fair.setStatus {v : String} {ref' : Ref SessionRecord} (hc : Cursor w id ref)
    (hv : v = "terminated" → w.settled id) (href : Answers S w (.setSession ref (.status v)) ref') :
    Fair w ref' := by
  cases ref with
  | own r =>
    obtain rfl : ref' = .own { r with status := v } := href
    exact fun ht => hc.1 ▸ hv ht
  | stored id' =>
    obtain rfl : ref' = .stored id' := href
    trivial

def Duty.owing (id : String) : Duty := { owes := some id }

/-- The call owes at most the slot of `id`. -/
def Near (id : String) (g : Duty) : Prop := g = .idle ∨ g = .owing id

theorem Near.owes {g : Duty} (h : Near id g) : g.owes = none ∨ g.owes = some id := by
  obtain rfl | rfl := h
  · exact .inl rfl
  · exact .inr rfl

theorem Near.owe {g : Duty} (h : Near id g) : { g with owes := some id } = Duty.owing id := by
  obtain rfl | rfl := h
  · rfl
  · rfl

/-- A move that may store `id` as terminated: the slot is owed, unless someone settles it. -/
theorem Near.move (a : Action) (res : a.Res) (hg : Near id g) (hknown : w.ips id ≠ none)
    (hterm : ∀ id', terminates a = some id' → id' = id) (hput : PutsKnown w a)
    (halloc : ∀ id, a ≠ .allocateTunnelIPs id) :
    ∃ w' g', w ≤ w' ∧ Near id g' ∧ Move w g a res w' g' := by
  by_cases hs : ∀ id', terminates a = some id' → w.settled id'
  · exact ⟨w, g, le_rfl, hg, .keep hs hput halloc⟩
  · cases ht : terminates a with
    | none =>
      rw [ht] at hs
      exact absurd nofun hs
    | some id' =>
      obtain rfl := hterm id' ht
      exact ⟨w.settle id', .owing id', le_settle w id', .inr rfl,
        hg.owe ▸ .owe ht hput hknown hg.owes⟩

theorem cursor_put {res : Except StoreError (Ref SessionRecord)} (hc : Cursor w id ref)
    (hres : Answers S w (.putSession ref) res) : ∃ ref', res = .ok ref' ∧ Cursor w id ref' := by
  cases ref with
  | own r => exact ⟨_, hres, hc.handle⟩
  | stored id' => exact ⟨_, hres, hc⟩

theorem Cursor.putsKnown (hc : Cursor w id ref) : PutsKnown w (.putSession ref) := by
  intro r heq
  cases heq
  exact hc.1 ▸ hc.2

theorem Near.reclaim (hg : Near id g) :
    { g with owes := if g.owes = some id then none else g.owes } = Duty.idle := by
  obtain rfl | rfl := hg
  · rfl
  · simp [Duty.owing, Duty.idle]

/-- A call that edits a session holds a reference to it.  From when it closes the session until it has
given the slot back, it may owe the slot. -/
def Edits : EditRules.Phase → Ledger → Duty → SessionRecord → SessionRecord →
    Ref SessionRecord → Prop
  | .draft, w, g, x₀, x, ref => g = .idle ∧ x.id = x₀.id ∧ Cursor w x.id ref ∧ Fair w ref
  | _, w, g, x₀, x, ref => Near x.id g ∧ x.id = x₀.id ∧ Cursor w x.id ref

theorem Edits.cursor {k : EditRules.Phase} {x₀ x : SessionRecord} (h : Edits k w g x₀ x ref) :
    Cursor w x.id ref := by
  cases k with
  | draft => exact h.2.2.1
  | _ => exact h.2.2

def editRules (S : Store σ) (c : Rpc) : EditRules (slotContract S) c where
  Before g := g = .idle
  After g := g = .idle
  At := Edits
  Seen k w x r := r.id = x.id ∧ (k = .draft → r.status = "terminated" → w.settled x.id)
  Copies := False
  at_mono {k w w' g x₀ x ref} h hw := by
    cases k with
    | draft => exact ⟨h.1, h.2.1, h.2.2.1.mono hw, h.2.2.2.mono hw⟩
    | _ => exact ⟨h.1, h.2.1, h.2.2.mono hw⟩
  seen_mono h hw := ⟨h.1, fun hk ht => hw.1 _ (h.2 hk ht)⟩
  seen_eq h := h.elim
  done := by
    rintro g rfl
    exact ⟨rfl, nofun⟩
  rejected := by
    rintro w g x₀ x ref ⟨rfl, -⟩ -
    exact ⟨rfl, nofun⟩
  aside {w g a res} ha := by
    refine quiet_move ?_ res
    cases a with
    | now | recordOutcome | registerRelay | invalidateRelay | deleteCandidates => rfl
    | _ => exact ha.elim
  get := by
    rintro w g p res - rfl hres
    refine ⟨w, .idle, quiet_move rfl _, ?_⟩
    cases res with
    | error e => exact .inl ⟨⟨e, rfl⟩, rfl⟩
    | ok ref =>
      obtain ⟨id, hc, hf⟩ := hres ref rfl
      exact .inr ⟨ref, { (default : SessionRecord) with id := id }, rfl, rfl, rfl, hc, hf⟩
  load {k w g x₀ x ref r} h hres := by
    obtain ⟨hid, hst⟩ := h.cursor.load hres
    refine ⟨quiet_move rfl _, hid, ?_⟩
    rintro rfl
    exact hst h.2.2.2
  set {k w g x₀ x ref b ref'} h hb hres := by
    refine ⟨quiet_move (quiet_set hb) _, ?_⟩
    have hid := b.id_apply x
    cases k with
    | draft =>
      exact ⟨h.1, hid.trans h.2.1, hid.symm ▸ h.2.2.1.set hres, h.2.2.2.set hb hres⟩
    | _ => exact ⟨hid.symm ▸ h.1, hid.trans h.2.1, hid.symm ▸ h.2.2.set hres⟩
  setStatus := by
    rintro w g x₀ x ref r v ref' ⟨hg, hid, hc, hf⟩ ⟨-, hst⟩ hv hres
    have hsettled : v = "terminated" → w.settled x.id := fun ht => hst rfl (hv ht)
    refine ⟨.keep (fun id' h => ?_) (fun _ h => by cases h) (fun _ h => by cases h),
      hg, hid, hc.set hres, .setStatus hc hsettled hres⟩
    obtain ⟨ht, rfl⟩ := hc.terminates_set h
    exact hsettled ht
  close := by
    rintro w g x₀ x ref v ref' ⟨rfl, hid, hc, -⟩ hres
    obtain ⟨w', g', hw, hg, hm⟩ := Near.move (.setSession ref (.status v)) ref' (.inl rfl)
      hc.known (fun _ h => (hc.terminates_set h).2) (fun _ h => by cases h) (fun _ h => by cases h)
    exact ⟨w', g', hw, hm, hg, hid, (hc.set hres).mono hw⟩
  reclaim := by
    rintro w g x₀ x ref r ⟨hg, hid, hc⟩ ⟨hr, -⟩
    rw [hr, ← hid]
    have hc' := hc.mono (le_settle w x.id)
    exact ⟨w.settle x.id, .idle, hg.reclaim ▸ .reclaim hc.known, rfl, hid, hc',
      .of_settled hc' (.inl rfl)⟩
  put := by
    rintro w g x₀ x ref res ⟨rfl, -, hc, hf⟩ - - - -
    exact ⟨w, .idle, .keep (fun _ h => hf.terminates_put h) hc.putsKnown (fun _ h => by cases h), rfl⟩
  putClosing := by
    rintro w g x₀ x ref res ⟨hg, hid, hc⟩ - - - hres
    obtain ⟨ref', rfl, hc'⟩ := cursor_put hc hres
    obtain ⟨w', g', hw, hg', hm⟩ := hg.move (.putSession ref) (.ok ref') hc.known
      (fun _ h => hc.terminates_put h) hc.putsKnown (fun _ h => by cases h)
    exact ⟨w', g', hm, .inr ⟨ref', rfl, hg', hid, hc'.mono hw⟩⟩
  reclaimStored := by
    rintro w g x₀ x ref r ⟨hg, -, hc⟩ ⟨hr, -⟩
    rw [hr]
    exact ⟨w.settle x.id, .idle, hg.reclaim ▸ .reclaim hc.known, rfl⟩

/-- A call that has a slot stores the session it is for. -/
def createRules (S : Store σ) : CreateRules (slotContract S) where
  Before g := g = .idle
  Drawn g id := g = { stage := .drawn id }
  Holds g id ips := g = { stage := .holds id ips }
  Known _ _ := True
  known_mono _ _ := trivial
  done := by
    rintro g rfl
    exact ⟨rfl, nofun⟩
  aside {w g a res} ha := by
    refine quiet_move ?_ res
    cases a with
    | now | getProviderByPrefix | loadProvider | meetsMinimum | putCandidates | loadSession => rfl
    | _ => exact ha.elim
  provider _ _ _ := trivial
  draw := by
    rintro w g id (rfl | ⟨id', rfl⟩)
    · exact ⟨_, .draw nofun, rfl⟩
    · exact ⟨_, .draw nofun, rfl⟩
  exhausted := by
    rintro w g id e rfl
    exact ⟨_, .exhausted, rfl, nofun⟩
  allocate := by
    rintro w g id ips rfl
    exact ⟨_, .allocate rfl, rfl⟩
  create := by
    rintro w g r p res rfl hstatus - - -
    refine ⟨_, _, .create rfl ?_, rfl, nofun⟩
    rw [hstatus]
    decide

theorem follows_handler (r : Rpc) : (slotContract S).Follows w .idle r.handler := by
  cases r with
  | registerProvider ctx req => exact follows_silent (uses_registerProvider ctx req)
  | heartbeat req => exact follows_silent (uses_heartbeat req)
  | listProviders req => exact follows_silent (uses_listProviders req)
  | createSession ctx req => exact (createRules S).follows_createSession rfl ctx req
  | getSession req => exact follows_silent (uses_getSession req trivial (fun _ => trivial))
  | terminateSession req => exact (editRules S _).follows_terminateSession rfl
  | listProviderSessions req =>
    exact follows_silent (uses_listProviderSessions req (fun _ => trivial) (fun _ => trivial))
  | updateSessionStatus req => exact (editRules S _).follows_updateSessionStatus rfl
  | exchangeCandidates req =>
    exact follows_quietly (uses_exchangeCandidates req rfl (fun _ => rfl) rfl (fun _ _ => rfl))
  | reportConnectionResult req => exact (editRules S _).follows_reportConnectionResult rfl

variable {E : Env} {s : Server σ}

/-- The ledger of a new server, which owes no slot to anyone. -/
def newLedger (S : Store σ) (s : Server σ) : Ledger where
  settled id := ∃ r, S.session s.store id = some r
  ips id := (S.session s.store id).map ips

theorem newLedger_balanced (hf : Fresh E S s) (hnew : s.tunnels = newTunnels) :
    Balanced E S (newLedger S s) [] s := by
  have hnone : ∀ id, s.tunnels.usedTunnelIdxs.lookup id = none := by
    intro id
    rw [hnew]
    rfl
  refine ⟨⟨fun _ => rfl, fun id r hr _ => ⟨r, hr⟩, ?_⟩, hnew ▸ Tunnels.newTunnels_wf, ?_, ?_,
    (fun i g id hg => by cases hg), (fun i g id hg => by cases hg),
    (fun i j g g' id hg => by cases hg), ?_⟩
  · rintro id ⟨r, hr⟩ hn
    simp only [newLedger, hr] at hn
    cases hn
  · intro id idx hl
    rw [hnone] at hl
    cases hl
  · intro id idx _ hl
    rw [hnone] at hl
    cases hl
  · intro t ht
    refine ⟨?_, hnone _⟩
    simp only [newLedger, hf.session t ht]
    rfl

/-- However the calls of a new server are interleaved: when none is in progress, every session
that holds a slot is stored, is not terminated and has the addresses of the slot. -/
theorem slots_of_live_sessions (hS : S.Lawful) (hfail : S.NeverFails) (hf : Fresh E S s)
    (hnew : s.tunnels = newTunnels) {turns : List Turn} {P : Calls σ}
    (hplay : interleave E S turns s = some P) (hidle : P.Idle) :
    ∀ id idx, P.state.tunnels.usedTunnelIdxs.lookup id = some idx →
      ∃ r, S.session P.state.store id = some r ∧ r.status ≠ "terminated" ∧
        r.wgProviderIP = providerIP idx ∧ r.wgRenterIP = renterIP idx := by
  have hnew : (slotContract S).Governed (Balanced E S) (⟨s, []⟩ : Calls σ) :=
    ⟨newLedger S s, [], newLedger_balanced hf hnew, .nil⟩
  have hgov : (slotContract S).Governed (Balanced E S) P := by
    apply hnew.play (slotContract_sound hS hfail hf.injective) _ hplay
    intro e he p hp
    obtain ⟨turn, -, rfl⟩ := List.mem_map.mp he
    cases turn with
    | call r =>
      cases hp
      exact ⟨.idle, fun _ => follows_handler r, fun _ _ _ => Balanced.start⟩
    | step i => cases hp
  obtain ⟨w, hgov⟩ := hgov
  obtain ⟨gs, hbal, hdone⟩ := hgov.idle hidle
  intro id idx hl
  have hips : w.ips id = some (tunnelIPs idx) := by
    obtain hips | ⟨i, g, hg, hs⟩ := hbal.held id idx hl
    · exact hips
    · exact absurd hs ((hdone g (List.mem_of_getElem? hg)).2 id _)
  rw [hbal.ips] at hips
  obtain ⟨r, hr, heq⟩ := Option.map_eq_some_iff.mp hips
  refine ⟨r, hr, fun ht => ?_, congrArg Prod.fst heq, congrArg Prod.snd heq⟩
  obtain ⟨i, g, hg, howes⟩ := hbal.owed id idx (hbal.settled id r hr ht) hl
  rw [(hdone g (List.mem_of_getElem? hg)).1] at howes
  cases howes

/-- Two sessions are created at the same time, and one of them is terminated before the other
call returns. -/
def race : List Turn :=
  let create := Rpc.createSession none
    { providerID := "p", renterID := "r", requested := none, image := "alpine", wgPublicKey := "key" }
  let both : List Turn := [.step 0, .step 1]
  let last : List Turn := [.step 2, .step 2, .step 2, .step 2, .step 2]
  List.flatten [[.call create, .call create], both, both, both, both, both, both, both, both, both,
    [.step 0, .call (.terminateSession { sessionID := "session-8" })], last, [.step 1], last]

theorem slots_of_live_sessions_race :
    ∃ P, interleave countingEnv (memoryStore (fun _ => Order.id)) race oneProvider = some P ∧
      P.state.tunnels.usedTunnelIdxs.keys = ["session-9"] ∧
      ∀ id idx, P.state.tunnels.usedTunnelIdxs.lookup id = some idx →
        ∃ r, P.state.store.sessions.lookup id = some r ∧ r.status ≠ "terminated" ∧
          r.wgProviderIP = providerIP idx ∧ r.wgRenterIP = renterIP idx := by
  have hplay : (interleave countingEnv (memoryStore (fun _ => Order.id)) race oneProvider).map
      (fun P => (decide P.Idle, P.state.tunnels.usedTunnelIdxs.keys)) =
      some (true, ["session-9"]) := by decide +kernel
  obtain ⟨P, hP, heq⟩ := Option.map_eq_some_iff.mp hplay
  simp only [Prod.mk.injEq, decide_eq_true_eq] at heq
  exact ⟨P, hP, heq.2, slots_of_live_sessions (memoryStore_lawful _) (memoryStore_neverFails _)
    (Fresh.counting rfl rfl) rfl hP heq.1⟩

end PeerCompute.Registry
