import PeerCompute.Interleaving.Contract
import PeerCompute.Registry.Actions
import PeerCompute.Registry.Candidates
import PeerCompute.Store.Postgres

/-! A provider that lists its sessions and asks for the renter's key of one that is being
created. -/

namespace PeerCompute.Registry

open PeerCompute.Data PeerCompute.Interleaving PeerCompute.Plugin PeerCompute.Computev1
  PeerCompute.Relay Prog Contract

/-- The two critical sections that meet in the candidates of a session. -/
inductive Sight
  | keep
  | ask
  deriving DecidableEq

def Sight.observe : Action → Option Sight
  | .putCandidates _ _ _ => some .keep
  | .exchangeCandidates _ _ _ => some .ask
  | _ => none

/-- The ID of the session that a handler holds. -/
def refID : Ref SessionRecord → String
  | .own r => r.id
  | .stored id => id

theorem refID_handle {σ : Type} (S : Store σ) (r : SessionRecord) : refID (S.handle r) = r.id := by
  unfold Store.handle
  split <;> rfl

/-- Sessions that are known to be stored, and what has been seen so far. -/
structure Scene where
  stored : List String := []
  log : List (Nat × Sight) := []

instance instPreorderScene : Preorder Scene where
  le w w' := (∀ id ∈ w.stored, id ∈ w'.stored) ∧ w.log <+: w'.log
  le_refl w := ⟨fun _ h => h, List.prefix_refl _⟩
  le_trans _ _ _ h h' := ⟨fun id hid => h'.1 id (h.1 id hid), h.2.trans h'.2⟩

variable {σ : Type}

/-- A `CreateSession` at `server`, and a provider that asks as `peerID`. -/
structure Meeting (σ : Type) where
  server : Server σ
  request : CreateSessionRequest
  peerID : String

namespace Meeting

/-- How far a call has come: `CreateSession` has drawn a UUID, stored the record under it and kept
the renter's key; the listing has shown sessions; the exchange has been answered. -/
inductive Part
  | create (drawn : Option String)
  | published (id : String)
  | keyed (id : String)
  | list (shown : List String)
  | ask (id : String)
  | asked (id : String) (other : Option CandidateSet)

def Part.index : Part → Nat
  | .create _ | .published _ | .keyed _ => 0
  | .list _ => 1
  | .ask _ | .asked _ _ => 2

/-- The renter's key as `CreateSession` keeps it. -/
def key (K : Meeting σ) : CandidateSet := { wgPublicKey := K.request.wgPublicKey }

/-- The actions that touch neither a session record nor the candidates. -/
def Quiet : Action → Prop
  | .allocateTunnelIPs _ => True
  | a => Harmless a

inductive Move (K : Meeting σ) : Scene → Part → (a : Action) → a.Res → Scene → Part → Prop
  | quiet {w : Scene} {g : Part} {a : Action} {res : a.Res} (ha : Quiet a) : Move K w g a res w g
  | draw {w : Scene} {drawn : Option String} {id : String} :
      Move K w (.create drawn) .newUUID id w (.create (some id))
  | put {w : Scene} {r : SessionRecord} {ref : Ref SessionRecord} :
      Move K w (.create (some r.id)) (.putSession (.own r)) (.ok ref)
        { w with stored := r.id :: w.stored } (.published r.id)
  | refused {w : Scene} {r : SessionRecord} {e : StoreError} :
      Move K w (.create (some r.id)) (.putSession (.own r)) (.error e) w (.create none)
  | keep {w : Scene} {id : String} {res : Unit} :
      Move K w (.published id) (.putCandidates id K.request.renterID K.key) res
        { w with log := w.log ++ [(0, .keep)] } (.keyed id)
  | list {w : Scene} {shown : List String} {filter : SessionFilter}
      {refs : List (Ref SessionRecord)} :
      Move K w (.list shown) (.listSessions filter) (.ok refs)
        { w with stored := refs.map refID ++ w.stored } (.list (refs.map refID))
  | ask {w : Scene} {id : String} {cs : CandidateSet} {other : Option CandidateSet} :
      Move K w (.ask id) (.exchangeCandidates id K.peerID cs) other
        { w with log := w.log ++ [(2, .ask)] } (.asked id other)

/-- What a call learns from the answer of an action. -/
def Answers (w : Scene) : (a : Action) → a.Res → Prop
  | .loadSession ref, (r : SessionRecord) => refID ref ∈ w.stored → r.id = refID ref
  | .getSessionByPrefix p, (res : Except StoreError (Ref SessionRecord)) =>
    p ∈ w.stored → ∃ ref, res = .ok ref ∧ refID ref = p
  | _, _ => True

/-- The postconditions are in `Delivers`, so the contract itself asks nothing of a thread's end. -/
def contract (K : Meeting σ) : Contract signature Scene Part where
  Answers := Answers
  Move := K.Move
  Done _ := True

/-- What the calls return. -/
def Returns : Part → Except Status Response → Prop
  | .list shown, x => ∀ sessions, x = .ok (.listProviderSessions sessions) →
    ∀ sess ∈ sessions, sess.id ∈ shown
  | .ask _, _ => False
  | .asked _ other, x => ∃ addr token, x = .ok (exchangeResponse other addr token)
  | _, _ => True

variable {K : Meeting σ} {w : Scene} {g : Part} {α : Type} {Q : Part → α → Prop}

theorem delivers_finishCreate (r : SessionRecord) {id : String} (hid : r.id = id) :
    K.contract.Delivers Returns w (.create (some id)) (finishCreateSession K.request r) := by
  subst hid
  have hload : ∀ {w g} (ref : Ref SessionRecord), g.index = 0 →
      K.contract.Delivers Returns w g (Call.loadSession ref >>= fun r =>
        (.ret (.ok (.createSession (sessionToProto r))) : Handler)) := by
    intro w g ref hg
    refine delivers_perform.mpr (fun w _ r _ => ⟨w, _, .quiet trivial, ?_⟩)
    refine delivers_ret.mpr ?_
    cases g with
    | create | published | keyed => trivial
    | list | ask | asked => cases hg
  refine delivers_perform.mpr (fun w _ res _ => ?_)
  cases res with
  | error e => exact ⟨w, _, .refused, delivers_ret.mpr trivial⟩
  | ok ref =>
    refine ⟨_, _, .put, ?_⟩
    dsimp only
    split
    next => exact delivers_perform.mpr (fun w _ res _ => ⟨_, _, .keep, hload ref rfl⟩)
    next => exact hload ref rfl

theorem delivers_createSession (ctx : Metadata) :
    K.contract.Delivers Returns w (.create none) (createSession ctx K.request) := by
  have hret : ∀ {w drawn} {x : Except Status Response},
      K.contract.Delivers Returns w (.create drawn) (.ret x) := delivers_ret.mpr trivial
  unfold createSession
  dsimp only
  split
  · exact hret
  refine delivers_perform.mpr (fun w _ res _ => ⟨w, _, .quiet trivial, ?_⟩)
  cases res with
  | error e => exact hret
  | ok ref =>
    refine delivers_perform.mpr (fun w _ p _ => ⟨w, _, .quiet trivial, ?_⟩)
    split
    · exact hret
    refine delivers_perform.mpr (fun w _ ok _ => ⟨w, _, .quiet trivial, ?_⟩)
    have hrefused : K.contract.Delivers Returns w (.create none) (.ret (.error ⟨.unavailable,
        "provider does not meet minimum reputation"⟩ : Except Status Response)) := hret
    match ok with
    | .error e => exact hrefused
    | .ok false => exact hrefused
    | .ok true =>
      refine delivers_perform.mpr (fun w _ token _ => ⟨w, _, .draw, ?_⟩)
      refine delivers_perform.mpr (fun w _ id _ => ⟨w, _, .draw, ?_⟩)
      refine delivers_perform.mpr (fun w _ res _ => ⟨w, _, .quiet trivial, ?_⟩)
      cases res with
      | error e => exact hret
      | ok ips =>
        refine delivers_perform.mpr (fun w _ now _ => ⟨w, _, .quiet trivial, ?_⟩)
        exact delivers_finishCreate _ rfl

/-- The loop over a listing, of sessions that are known to be stored. -/
theorem delivers_loadSessions {refs : List (Ref SessionRecord)} (shown : List String)
    (hrefs : ∀ ref ∈ refs, refID ref ∈ w.stored ∧ refID ref ∈ shown)
    {f : List Session → Prog signature α}
    (h : ∀ w' out, (∀ sess ∈ out, sess.id ∈ shown) → K.contract.Delivers Q w' g (f out)) :
    K.contract.Delivers Q w g (loadSessions refs >>= f) := by
  induction refs generalizing w f with
  | nil => exact h w [] (fun _ hmem => absurd hmem List.not_mem_nil)
  | cons ref refs ih =>
    obtain ⟨hstored, hshown⟩ := hrefs ref (.head _)
    unfold loadSessions
    rw [bind_assoc]
    refine delivers_perform.mpr (fun w' hw r hr => ⟨w', _, .quiet trivial, ?_⟩)
    have hid : (sessionToProto r).id = refID ref := hr (hw.1 _ hstored)
    simp only [bind_assoc]
    apply ih
    · intro ref href
      obtain ⟨hstored, hshown⟩ := hrefs ref (.tail _ href)
      exact ⟨hw.1 _ hstored, hshown⟩
    · intro w'' out hout
      apply h
      intro sess hsess
      obtain rfl | hsess := List.mem_cons.mp hsess
      · rwa [hid]
      · exact hout sess hsess

theorem delivers_listProviderSessions (req : ListProviderSessionsRequest) :
    K.contract.Delivers Returns w (.list []) (listProviderSessions req) := by
  refine delivers_perform.mpr (fun w _ res _ => ?_)
  cases res with
  | error e => exact ⟨w, _, .quiet trivial, delivers_ret.mpr (fun _ h => by cases h)⟩
  | ok refs =>
    refine ⟨_, _, .list, ?_⟩
    apply delivers_loadSessions (refs.map refID)
    · intro ref href
      have hmem := List.mem_map_of_mem (f := refID) href
      exact ⟨List.mem_append_left _ hmem, hmem⟩
    · intro w out hout
      refine delivers_ret.mpr (fun sessions h => ?_)
      cases h
      exact hout

theorem delivers_exchangeCandidates {req : ExchangeCandidatesRequest}
    (hid : req.sessionID ∈ w.stored) (hpeer : req.peerID = K.peerID) :
    K.contract.Delivers Returns w (.ask req.sessionID) (exchangeCandidates req) := by
  refine delivers_perform.mpr (fun w₁ hw₁ res hres => ⟨w₁, _, .quiet trivial, ?_⟩)
  obtain ⟨ref, rfl, href⟩ := hres (hw₁.1 _ hid)
  refine delivers_perform.mpr (fun w₂ hw₂ r hr => ⟨w₂, _, .quiet trivial, ?_⟩)
  have hr' : (r : SessionRecord).id = req.sessionID := by
    rw [← href]
    exact hr (href ▸ hw₂.1 _ (hw₁.1 _ hid))
  refine delivers_perform.mpr (fun w₃ hw₃ addr _ => ⟨w₃, _, .quiet trivial, ?_⟩)
  rw [hr', hpeer]
  refine delivers_perform.mpr (fun w₄ _ other _ => ⟨_, _, .ask, ?_⟩)
  cases other with
  | none => exact delivers_ret.mpr ⟨addr, (r : SessionRecord).relayToken, rfl⟩
  | some cs => exact delivers_ret.mpr ⟨addr, (r : SessionRecord).relayToken, rfl⟩

/-- What `CreateSession` has made of the server so far. -/
inductive Made (E : Env) (S : Store σ) (K : Meeting σ) (w : Scene) (s : Server σ) : Part → Prop
  | create {drawn : Option String} (view : S.session s.store = S.session K.server.store)
      (candidates : s.candidates = K.server.candidates)
      (fresh : ∀ id, drawn = some id → ∃ t, K.server.clock ≤ t ∧ id = E.uuid t)
      (log : w.log = []) : Made E S K w s (.create drawn)
  | published {id : String} (new : S.session K.server.store id = none)
      (only : ∀ id', S.session K.server.store id' = none →
        (S.session s.store id').isSome = true → id' = id)
      (peers : ∀ x, x ≠ K.peerID → (s.peers id).lookup x = none)
      (log : w.log = [] ∨ w.log = [(2, .ask)]) : Made E S K w s (.published id)
  | keyed {id : String} (new : S.session K.server.store id = none)
      (only : ∀ id', S.session K.server.store id' = none →
        (S.session s.store id').isSome = true → id' = id)
      (peers : ∀ x, x ≠ K.peerID →
        (s.peers id).lookup x = if x = K.request.renterID then some K.key else none)
      (log : w.log = [(0, .keep)] ∨ w.log = [(0, .keep), (2, .ask)] ∨
        w.log = [(2, .ask), (0, .keep)]) : Made E S K w s (.keyed id)

/-- How far the exchange has come. -/
inductive Asking (S : Store σ) (K : Meeting σ) (w : Scene) : Part → Prop
  | ask {id : String} (stored : id ∈ w.stored) (new : S.session K.server.store id = none)
      (log : (2, .ask) ∉ w.log) : Asking S K w (.ask id)
  | late {id : String} (log : w.log = [(0, .keep), (2, .ask)]) :
      Asking S K w (.asked id (some K.key))
  | early {id : String} (log : [(2, .ask)] <+: w.log) : Asking S K w (.asked id none)

structure Inv (E : Env) (S : Store σ) (K : Meeting σ) (w : Scene) (gs : List Part)
    (s : Server σ) : Prop where
  clock : K.server.clock ≤ s.clock
  index : ∀ (i : Nat) (g : Part), gs[i]? = some g → g.index = i
  stored : ∀ id ∈ w.stored, (S.session s.store id).isSome = true
  made : ∃ g : Part, gs[0]? = some g ∧ K.Made E S w s g
  asking : ∀ g : Part, gs[2]? = some g → K.Asking S w g
  unasked : gs[2]? = none → (2, .ask) ∉ w.log
  listed : ∀ shown, gs[1]? = some (.list shown) → ∀ id ∈ shown, id ∈ w.stored

section

variable {E : Env} {S : Store σ} {gs : List Part} {s s' : Server σ} {a : Action} {res : a.Res}
  {i : Nat} {id : String} {w' : Scene} {g' : Part}

theorem quiet_exec (hS : S.Lawful) (ha : Quiet a) (hx : exec E S a s = some (res, s')) :
    S.session s'.store = S.session s.store ∧ s'.candidates = s.candidates := by
  cases a with
  | allocateTunnelIPs id =>
    refine ⟨(exec_allocate hx).1, ?_⟩
    simp only [exec, Server.act, Option.map_map] at hx
    obtain ⟨x, -, heq⟩ := Option.map_eq_some_iff.mp hx
    cases heq
    rfl
  | _ =>
    have hu := fun hh => harmless_untouched hS hh hx
    exact ⟨(hu ha).session, (hu ha).candidates⟩

/-- What a thread does to neither the sessions nor the candidates is of no concern to
`CreateSession`. -/
theorem Made.of_eq (h : K.Made E S w s g) (hview : S.session s'.store = S.session s.store)
    (hcandidates : s'.candidates = s.candidates) (hlog : w'.log = w.log) : K.Made E S w' s' g := by
  have hpeers : ∀ id, s'.peers id = s.peers id :=
    fun id => congrArg (fun m => (m.lookup id).getD ∅) hcandidates
  cases h with
  | create view candidates fresh log =>
    exact .create (hview.trans view) (hcandidates.trans candidates) fresh (hlog.trans log)
  | published new only peers log =>
    refine .published new (fun id' hnew hid' => only id' hnew ?_) (fun x hx => ?_) (hlog ▸ log)
    · rwa [hview] at hid'
    · rw [hpeers]
      exact peers x hx
  | keyed new only peers log =>
    refine .keyed new (fun id' hnew hid' => only id' hnew ?_) (fun x hx => ?_) (hlog ▸ log)
    · rwa [hview] at hid'
    · rw [hpeers]
      exact peers x hx

theorem Asking.of_log (h : K.Asking S w g) (hstored : ∀ id ∈ w.stored, id ∈ w'.stored)
    (hlog : w'.log = w.log) : K.Asking S w' g := by
  cases h with
  | ask stored new log => exact .ask (hstored _ stored) new (hlog ▸ log)
  | late log => exact .late (hlog.trans log)
  | early log => exact .early (hlog ▸ log)

theorem Inv.index_set (h : K.Inv E S w gs s) (hg' : g'.index = i) (j : Nat) (q : Part)
    (hq : (gs.set i g')[j]? = some q) : q.index = j := by
  by_cases hij : i = j
  · subst hij
    have hi : i < gs.length := by
      by_contra hlen
      rw [List.getElem?_eq_none (by simpa using Nat.le_of_not_lt hlen)] at hq
      cases hq
    rw [List.getElem?_set_self hi] at hq
    cases hq
    exact hg'
  · rw [List.getElem?_set_ne hij] at hq
    exact h.index j q hq

/-- A move of `CreateSession`. -/
theorem Inv.maker (h : K.Inv E S w gs s) (hg : gs[0]? = some g) (hg' : g'.index = 0)
    (hclock : s'.clock = s.clock + 1) (hw : w ≤ w')
    (hstored : ∀ id ∈ w'.stored, (S.session s'.store id).isSome = true)
    (hmade : K.Made E S w' s' g') (hasking : ∀ q, K.Asking S w q → K.Asking S w' q)
    (hunasked : (2, Sight.ask) ∉ w.log → (2, Sight.ask) ∉ w'.log) :
    K.Inv E S w' (gs.set 0 g') s' := by
  have hlt : 0 < gs.length := (List.getElem?_eq_some_iff.mp hg).1
  have h2 : (gs.set 0 g')[2]? = gs[2]? := List.getElem?_set_ne (by decide)
  refine ⟨by rw [hclock]; exact Nat.le_succ_of_le h.clock, h.index_set hg', hstored,
    ⟨g', List.getElem?_set_self hlt, hmade⟩, fun q hq => ?_, fun hnone => ?_,
    fun shown hq id hid => ?_⟩
  · exact hasking q (h.asking q (h2 ▸ hq))
  · exact hunasked (h.unasked (h2 ▸ hnone))
  · rw [List.getElem?_set_ne (by decide)] at hq
    exact hw.1 id (h.listed shown hq id hid)

theorem Inv.quiet (hS : S.Lawful) (h : K.Inv E S w gs s) (ha : Quiet a)
    (hx : exec E S a s = some (res, s')) : K.Inv E S w gs s' := by
  obtain ⟨hview, hcandidates⟩ := quiet_exec hS ha hx
  obtain ⟨g, hg, hmade⟩ := h.made
  refine ⟨by rw [exec_clock hx]; exact Nat.le_succ_of_le h.clock, h.index, fun id hid => ?_,
    ⟨g, hg, hmade.of_eq hview hcandidates rfl⟩, h.asking, h.unasked, h.listed⟩
  rw [hview]
  exact h.stored id hid

theorem Inv.put (hS : S.Lawful) (hf : Fresh E S K.server)
    (hclean : ∀ t, K.server.clock ≤ t → K.server.candidates.lookup (E.uuid t) = none)
    (h : K.Inv E S w gs s) {r : SessionRecord} {ref : Ref SessionRecord}
    (hg : gs[0]? = some (.create (some r.id)))
    (hx : exec E S (.putSession (.own r)) s = some (.ok ref, s')) :
    K.Inv E S { w with stored := r.id :: w.stored } (gs.set 0 (.published r.id)) s' := by
  obtain ⟨g, hg', hmade⟩ := h.made
  rw [hg] at hg'
  cases hg'
  cases hmade with
  | create view candidates fresh log =>
    obtain ⟨t, ht, hid⟩ := fresh r.id rfl
    have hnew : S.session K.server.store r.id = none := hid ▸ hf.session t ht
    obtain ⟨hc, -, ⟨e, -, he, -⟩ | ⟨-, hview⟩⟩ := exec_putSession hS hx
    · cases he
    have hw : w ≤ { w with stored := r.id :: w.stored } :=
      ⟨fun _ hmem => .tail _ hmem, List.prefix_refl _⟩
    refine h.maker hg rfl (exec_clock hx) hw (fun id' hid' => ?_) (.published hnew
      (fun id' hnew' hid' => ?_) (fun y _ => ?_) (.inl log)) (fun q hq => ?_) (fun hask => hask)
    · rw [hview]
      split
      · rfl
      next hne => exact h.stored id' ((List.mem_cons.mp hid').resolve_left hne)
    · by_contra hne
      rw [hview, if_neg hne, view, hnew'] at hid'
      cases hid'
    · have hempty : s'.candidates.lookup r.id = none := by
        rw [hc, candidates, hid]
        exact hclean t ht
      rw [Server.peers, hempty]
      rfl
    · exact hq.of_log (fun _ hmem => .tail _ hmem) rfl

theorem Inv.keep (h : K.Inv E S w gs s) (hg : gs[0]? = some (.published id))
    (hclock : s'.clock = s.clock + 1) (hstore : s'.store = s.store)
    (hpeers : s'.peers id = (s.peers id).insert K.request.renterID K.key) :
    K.Inv E S { w with log := w.log ++ [(0, .keep)] } (gs.set 0 (.keyed id)) s' := by
  obtain ⟨g, hg', hmade⟩ := h.made
  rw [hg] at hg'
  cases hg'
  cases hmade with
  | published new only peers log =>
    have hw : w ≤ { w with log := w.log ++ [(0, .keep)] } :=
      ⟨fun _ hmem => hmem, List.prefix_append _ _⟩
    refine h.maker hg rfl hclock hw ?_ (.keyed new ?_ (fun x hx => ?_) ?_) (fun q hq => ?_) ?_
    · rw [hstore]
      exact h.stored
    · rw [hstore]
      exact only
    · rw [hpeers, Map.lookup_insert, peers x hx]
    · obtain log | log := log
      · exact .inl (by rw [log]; rfl)
      · exact .inr (.inr (by rw [log]; rfl))
    · cases hq with
      | ask stored new' hlog => exact .ask stored new' (by simpa using hlog)
      | late hlog =>
        rw [hlog] at log
        simp at log
      | early hlog => exact .early (hlog.trans (List.prefix_append _ _))
    · simp

theorem Inv.list (hexact : S.Exact) (h : K.Inv E S w gs s) {shown : List String}
    (hg : gs[1]? = some (.list shown)) {filter : SessionFilter} {refs : List (Ref SessionRecord)}
    (hx : exec E S (.listSessions filter) s = some (.ok refs, s')) :
    K.Inv E S { w with stored := refs.map refID ++ w.stored }
      (gs.set 1 (.list (refs.map refID))) s' := by
  have hlist : S.listSessions s.clock s.store filter = .ok refs :=
    congrArg Prod.fst (Option.some.inj hx)
  have hs : s' = s.tick := (congrArg Prod.snd (Option.some.inj hx)).symm
  subst hs
  obtain ⟨g, hg0, hmade⟩ := h.made
  refine ⟨Nat.le_succ_of_le h.clock, h.index_set rfl, fun id hid => ?_,
    ⟨g, ?_, hmade.of_eq rfl rfl rfl⟩, fun q hq => ?_, fun hnone => ?_, fun shown' hq id hid => ?_⟩
  · obtain hid | hid := List.mem_append.mp hid
    · obtain ⟨ref, href, rfl⟩ := List.mem_map.mp hid
      obtain ⟨r, hr, rfl⟩ := hexact.list_sessions hlist ref href
      have hsome : (S.session s.store r.id).isSome = true := Option.isSome_iff_exists.mpr ⟨r, hr⟩
      rw [refID_handle]
      exact hsome
    · exact h.stored id hid
  · rw [List.getElem?_set_ne (by decide)]
    exact hg0
  · rw [List.getElem?_set_ne (by decide)] at hq
    exact (h.asking q hq).of_log (fun _ hmem => List.mem_append_right _ hmem) rfl
  · rw [List.getElem?_set_ne (by decide)] at hnone
    exact h.unasked hnone
  · rw [List.getElem?_set_self (List.getElem?_eq_some_iff.mp hg).1] at hq
    cases hq
    exact List.mem_append_left _ hid

theorem Inv.draw (h : K.Inv E S w gs s) {drawn : Option String}
    (hg : gs[0]? = some (.create drawn)) :
    K.Inv E S w (gs.set 0 (.create (some (E.uuid s.clock)))) s.tick := by
  obtain ⟨g, hg', hmade⟩ := h.made
  rw [hg] at hg'
  cases hg'
  cases hmade with
  | create view candidates fresh log =>
    refine h.maker hg rfl rfl le_rfl h.stored (.create view candidates (fun id hid => ?_) log)
      (fun _ hq => hq) (fun hask => hask)
    cases hid
    exact ⟨s.clock, h.clock, rfl⟩

theorem Inv.refused (h : K.Inv E S w gs s) {drawn : Option String}
    (hg : gs[0]? = some (.create drawn)) (hclock : s'.clock = s.clock + 1)
    (hstore : s'.store = s.store) (hcandidates : s'.candidates = s.candidates) :
    K.Inv E S w (gs.set 0 (.create none)) s' := by
  obtain ⟨g, hg', hmade⟩ := h.made
  rw [hg] at hg'
  cases hg'
  cases hmade with
  | create view candidates fresh log =>
    refine h.maker hg rfl hclock le_rfl (hstore ▸ h.stored) (.create (hstore ▸ view)
      (hcandidates.trans candidates) (fun id hid => ?_) log) (fun _ hq => hq) (fun hask => hask)
    cases hid

/-- The answer of the exchange: the renter's key if it has been kept, and otherwise nothing. -/
theorem Made.other (h : K.Made E S w s g) (hne : K.request.renterID ≠ K.peerID)
    (hid : (S.session s.store id).isSome = true) (hnew : S.session K.server.store id = none)
    (hlog : (2, Sight.ask) ∉ w.log) (order : Order String) (cs : CandidateSet) :
    (g = .published id ∧ w.log = [] ∧
      (s.putCandidates id K.peerID cs).otherCandidates order id K.peerID = none) ∨
    (g = .keyed id ∧ w.log = [(0, .keep)] ∧
      (s.putCandidates id K.peerID cs).otherCandidates order id K.peerID = some K.key) := by
  have hlookup : ∀ x, x ≠ K.peerID →
      ((s.putCandidates id K.peerID cs).peers id).lookup x = (s.peers id).lookup x := by
    intro x hx
    rw [peers_putCandidates, if_pos rfl, Map.lookup_insert, if_neg hx]
  cases h with
  | create view candidates fresh log =>
    rw [view, hnew] at hid
    cases hid
  | published new only peers log =>
    obtain rfl := only id hnew hid
    refine .inl ⟨rfl, log.resolve_right (fun hl => hlog (by rw [hl]; exact .head _)), ?_⟩
    rw [Option.eq_none_iff_forall_not_mem]
    intro cs' hother
    obtain ⟨x, hx, hcs⟩ := otherCandidates_eq_some hother
    rw [hlookup x hx, peers x hx] at hcs
    cases hcs
  | keyed new only peers log =>
    obtain rfl := only id hnew hid
    refine .inr ⟨rfl, ?_, ?_⟩
    · obtain log | log | log := log
      · exact log
      · exact absurd (by rw [log]; exact .tail _ (.head _)) hlog
      · exact absurd (by rw [log]; exact .head _) hlog
    · cases hother : (s.putCandidates id K.peerID cs).otherCandidates order id K.peerID with
      | none =>
        have hnone := otherCandidates_eq_none hother hne
        rw [hlookup _ hne, peers _ hne, if_pos rfl] at hnone
        cases hnone
      | some cs' =>
        obtain ⟨x, hx, hcs⟩ := otherCandidates_eq_some hother
        rw [hlookup x hx, peers x hx] at hcs
        split at hcs
        · exact hcs.symm
        · cases hcs

theorem Inv.ask (h : K.Inv E S w gs s) (hne : K.request.renterID ≠ K.peerID)
    (hg : gs[2]? = some (.ask id)) (cs : CandidateSet) :
    K.Inv E S { w with log := w.log ++ [(2, .ask)] }
      (gs.set 2 (.asked id ((s.putCandidates id K.peerID cs).otherCandidates (E.order s.clock) id
        K.peerID))) (s.putCandidates id K.peerID cs).tick := by
  have hlt : 2 < gs.length := (List.getElem?_eq_some_iff.mp hg).1
  have h0 : ∀ q, (gs.set 2 q)[0]? = gs[0]? := fun q => List.getElem?_set_ne (by decide)
  have h2 : ∀ q, (gs.set 2 q)[2]? = some q := fun q => List.getElem?_set_self hlt
  have hpeers : ∀ x, x ≠ K.peerID →
      ((s.putCandidates id K.peerID cs).tick.peers id).lookup x = (s.peers id).lookup x := by
    intro x hx
    have hput := peers_putCandidates s id K.peerID id cs
    rw [if_pos rfl] at hput
    refine (congrArg (·.lookup x) hput).trans ?_
    rw [Map.lookup_insert, if_neg hx]
  obtain ⟨g, hg0, hmade⟩ := h.made
  cases h.asking _ hg with
  | ask stored new hlog =>
    refine ⟨Nat.le_succ_of_le h.clock, h.index_set rfl, h.stored, ⟨g, (h0 _).trans hg0, ?_⟩,
      fun q hq => ?_, fun hnone => ?_, fun shown hq => ?_⟩
    · obtain ⟨rfl, log, -⟩ | ⟨rfl, log, -⟩ :=
        hmade.other hne (h.stored id stored) new hlog (E.order s.clock) cs
      · cases hmade with
        | published _ only peers _ =>
          refine .published new only (fun x hx => (hpeers x hx).trans (peers x hx)) (.inr ?_)
          rw [log]
          rfl
      · cases hmade with
        | keyed _ only peers _ =>
          refine .keyed new only (fun x hx => (hpeers x hx).trans (peers x hx)) (.inr (.inl ?_))
          rw [log]
          rfl
    · rw [h2] at hq
      cases hq
      obtain ⟨-, log, hother⟩ | ⟨-, log, hother⟩ :=
        hmade.other hne (h.stored id stored) new hlog (E.order s.clock) cs
      · rw [hother]
        exact .early (by rw [log]; exact List.prefix_refl _)
      · rw [hother]
        exact .late (by rw [log]; rfl)
    · rw [h2] at hnone
      cases hnone
    · rw [List.getElem?_set_ne (by decide)] at hq
      exact h.listed shown hq

theorem answers_exec (hS : S.Lawful) (hexact : S.Exact) (h : K.Inv E S w gs s)
    (hx : exec E S a s = some (res, s')) : Answers w a res := by
  cases a with
  | loadSession ref =>
    cases hx
    intro hid
    cases ref with
    | own r => rfl
    | stored id =>
      obtain ⟨r, hr⟩ := Option.isSome_iff_exists.mp (h.stored id hid)
      simp only [Store.loadSession, hr, Option.getD_some]
      exact hS.session_id hr
  | getSessionByPrefix p =>
    cases hx
    intro hid
    obtain ⟨r, hr⟩ := Option.isSome_iff_exists.mp (h.stored p hid)
    refine ⟨S.handle r, hexact.get_session hr, ?_⟩
    rw [refID_handle]
    exact hS.session_id hr
  | _ => trivial

theorem contract_sound (hS : S.Lawful) (hexact : S.Exact) (hf : Fresh E S K.server)
    (hclean : ∀ t, K.server.clock ≤ t → K.server.candidates.lookup (E.uuid t) = none)
    (hne : K.request.renterID ≠ K.peerID) :
    K.contract.Sound (exec E S) (K.Inv E S) where
  act {w gs s i g a res s'} h hg hx := by
    refine ⟨answers_exec hS hexact h hx, fun w' g' hm => ?_⟩
    have hindex := h.index i g hg
    have hclock := exec_clock hx
    cases hm with
    | quiet ha =>
      obtain ⟨hi, hgi⟩ := List.getElem?_eq_some_iff.mp hg
      refine ⟨le_rfl, ?_⟩
      rw [← hgi, List.set_getElem_self]
      exact h.quiet hS ha hx
    | draw =>
      cases hindex
      cases hx
      exact ⟨le_rfl, h.draw hg⟩
    | put =>
      cases hindex
      exact ⟨⟨fun _ hmem => .tail _ hmem, List.prefix_refl _⟩, h.put hS hf hclean hg hx⟩
    | refused =>
      cases hindex
      obtain ⟨hc, -, ⟨e, -, -, hst⟩ | ⟨he, -⟩⟩ := exec_putSession hS hx
      · exact ⟨le_rfl, h.refused hg hclock hst hc⟩
      · cases he
    | keep =>
      cases hindex
      cases hx
      refine ⟨⟨fun _ hmem => hmem, List.prefix_append _ _⟩, h.keep hg hclock rfl ?_⟩
      exact (peers_putCandidates s _ _ _ _).trans (if_pos rfl)
    | list =>
      cases hindex
      exact ⟨⟨fun _ hmem => List.mem_append_right _ hmem, List.prefix_refl _⟩,
        h.list hexact hg hx⟩
    | ask =>
      cases hindex
      cases hx
      exact ⟨⟨fun _ hmem => hmem, List.prefix_append _ _⟩, h.ask hne hg _⟩

theorem Inv.start : K.Inv E S {} [.create none, .list []] K.server := by
  refine ⟨le_rfl, fun i g hg => ?_, fun id hid => ?_, ⟨_, rfl, .create rfl rfl (fun id hid => ?_) rfl⟩,
    fun g hg => ?_, fun _ hlog => ?_, fun shown hg id hid => ?_⟩
  · match i, hg with
    | 0, hg | 1, hg =>
      cases hg
      rfl
  · cases hid
  · cases hid
  · cases hg
  · cases hlog
  · cases hg
    cases hid

/-- The provider asks for the key of a session that its poll has shown. -/
theorem Inv.arrive (h : K.Inv E S w gs s) (hlen : gs.length = 2) (hstored : id ∈ w.stored)
    (hnew : S.session K.server.store id = none) : K.Inv E S w (gs ++ [.ask id]) s := by
  have hlast : ∀ g, (gs ++ [Part.ask id])[2]? = some g → g = .ask id := by
    intro g hg
    rw [← hlen, List.getElem?_concat_length] at hg
    exact (Option.some.inj hg).symm
  have hlt : ∀ (i : Nat) (g : Part), i < 2 → (gs ++ [Part.ask id])[i]? = some g → gs[i]? = some g := by
    intro i g hi hg
    rwa [List.getElem?_append_left (hlen ▸ hi)] at hg
  obtain ⟨g, hg, hmade⟩ := h.made
  refine ⟨h.clock, fun i g hg => ?_, h.stored, ⟨g, ?_, hmade⟩, fun g hg => ?_, fun hnone => ?_,
    fun shown hg => h.listed shown (hlt 1 _ (by decide) hg)⟩
  · obtain hi | rfl | hi := Nat.lt_trichotomy i 2
    · exact h.index i g (hlt i g hi hg)
    · rw [hlast g hg]
      rfl
    · rw [List.getElem?_eq_none (by simp only [List.length_append, hlen]; exact hi)] at hg
      cases hg
  · rw [List.getElem?_append_left (by omega)]
    exact hg
  · rw [hlast g hg]
    exact .ask hstored hnew (h.unasked (List.getElem?_eq_none (Nat.le_of_eq hlen)))
  · rw [← hlen, List.getElem?_concat_length] at hnone
    cases hnone

theorem log_move (h : K.Inv E S w gs s) (hg : gs[i]? = some g)
    (hm : K.contract.Move w g a res w' g') :
    w'.log = w.log ++ Pool.note (S := signature) Sight.observe i a := by
  have hindex := h.index i g hg
  cases hm with
  | quiet ha =>
    have hnone : Sight.observe a = none := by
      cases a with
      | putCandidates | exchangeCandidates => cases ha
      | _ => rfl
    simp [Pool.note, hnone]
  | draw | put | refused | list => exact (List.append_nil _).symm
  | keep | ask =>
    cases hindex
    rfl

end

end Meeting

/-- `CreateSession` and the provider's poll for pending sessions, before the poll has been acted
on. -/
def polling (ctx : Metadata) (create : CreateSessionRequest) (p : String) (schedule : List Nat) :
    List Turn :=
  .call (.createSession ctx create) ::
    .call (.listProviderSessions { providerID := p, statusFilter := "pending" }) ::
    schedule.map .step

/-- The provider then exchanges candidates for a session of the poll. -/
def exchanging (ctx : Metadata) (create : CreateSessionRequest) (p : String) (schedule : List Nat)
    (req : ExchangeCandidatesRequest) (schedule' : List Nat) : List Turn :=
  polling ctx create p schedule ++ .call (.exchangeCandidates req) :: schedule'.map .step

/-- The order in which the critical sections of the candidates are entered. -/
def sights (E : Env) (S : Store σ) (turns : List Turn) (s : Server σ) : List (Nat × Sight) :=
  Pool.log Sight.observe (exec E S) (turns.map Turn.event) (⟨s, []⟩ : Calls σ)

variable {E : Env} {S : Store σ}

/-- A provider that asks for the renter's key of a session that its poll has just shown gets it,
exactly if `CreateSession` had kept it by then. -/
theorem exchange_after_poll_iff (hS : S.Lawful) (hexact : S.Exact) {s : Server σ}
    (hf : Fresh E S s) (hclean : ∀ t, s.clock ≤ t → s.candidates.lookup (E.uuid t) = none)
    {ctx : Metadata} {create : CreateSessionRequest} (hkey : create.wgPublicKey ≠ "") {p : String}
    (hne : create.renterID ≠ p) {schedule schedule' : List Nat} {P P' : Calls σ}
    (hpoll : interleave E S (polling ctx create p schedule) s = some P)
    {sessions : List Session}
    (hlist : P.threads[1]? = some (.ret (.ok (.listProviderSessions sessions))))
    {sess : Session} (hsess : sess ∈ sessions) (hnew : S.session s.store sess.id = none)
    {req : ExchangeCandidatesRequest} (hid : req.sessionID = sess.id) (hpeer : req.peerID = p)
    (hplay : interleave E S (exchanging ctx create p schedule req schedule') s = some P')
    {resp : Except Status Response} (hresp : P'.threads[2]? = some (.ret resp)) :
    ∃ candidates key addr token, resp = .ok (.exchangeCandidates candidates key addr token) ∧
      (key = create.wgPublicKey ↔
        sights E S (exchanging ctx create p schedule req schedule') s =
          [(0, .keep), (2, .ask)]) := by
  let K : Meeting σ := ⟨s, create, p⟩
  have hC := Meeting.contract_sound (K := K) hS hexact hf hclean hne
  have hevents : (polling ctx create p schedule).map Turn.event =
      [createSession ctx create,
        listProviderSessions { providerID := p, statusFilter := "pending" }].map .start ++
      schedule.map .step := by
    simp [polling, Function.comp_def, Turn.event, Rpc.handler]
  have hstart : K.contract.DeliveredIn Meeting.Returns (K.Inv E S) {}
      (⟨s, [createSession ctx create,
        listProviderSessions { providerID := p, statusFilter := "pending" }]⟩ : Calls σ) :=
    ⟨_, .start, .cons (Meeting.delivers_createSession ctx)
      (.cons (Meeting.delivers_listProviderSessions _) .nil)⟩
  have hturns : (exchanging ctx create p schedule req schedule').map Turn.event =
      (polling ctx create p schedule).map Turn.event ++
        ([exchangeCandidates req].map .start ++ schedule'.map .step) := by
    simp [exchanging, Function.comp_def, Turn.event, Rpc.handler]
  have hsteps := hpoll
  rw [interleave, hevents, Pool.play_starts] at hsteps
  obtain ⟨w, hw, hlog⟩ := hstart.play_log hC Meeting.log_move hsteps
  -- the sessions of the answer are known to be stored
  obtain ⟨gs, g, hInv, hg, hret⟩ := hw.returned hlist
  have hstored : req.sessionID ∈ w.stored := by
    have hindex := hInv.index 1 g hg
    cases g with
    | list shown => exact hInv.listed shown hg _ (hid ▸ hret sessions rfl sess hsess)
    | _ => cases hindex
  rw [interleave, hturns] at hplay
  obtain ⟨R, hR, hplay⟩ := Pool.play_append.mp hplay
  obtain rfl : P = R := Option.some.inj (hpoll.symm.trans hR)
  rw [Pool.play_starts] at hplay
  have hasked := hw.launch (fun gs hlen hInv =>
    ⟨.ask req.sessionID, Meeting.delivers_exchangeCandidates hstored hpeer,
      hInv.arrive (hlen.trans (Pool.length_steps hsteps)) hstored (hid ▸ hnew)⟩)
  obtain ⟨w', hw', hlog'⟩ := hasked.play_log hC Meeting.log_move hplay
  have hsights : sights E S (exchanging ctx create p schedule req schedule') s = w'.log := by
    rw [sights, hturns, hlog', hlog]
    refine (Pool.log_append hR _).trans ?_
    rw [hevents]
    exact congrArg₂ (· ++ ·) (Pool.log_starts (exec E S) _ (schedule.map .step) ⟨s, []⟩)
      (Pool.log_starts (exec E S) _ (schedule'.map .step) P)
  obtain ⟨gs, g, hInv, hg, hret⟩ := hw'.returned hresp
  have hindex := hInv.index 2 g hg
  rw [hsights]
  cases hInv.asking g hg with
  | ask => cases hret
  | late log =>
    obtain ⟨addr, token, rfl⟩ := hret
    exact ⟨_, _, _, _, rfl, iff_of_true rfl log⟩
  | early log =>
    obtain ⟨addr, token, rfl⟩ := hret
    refine ⟨_, _, _, _, rfl, iff_of_false (Ne.symm hkey) (fun heq => ?_)⟩
    rw [heq] at log
    simp at log

/-- The session that the poll shows. -/
def polled : Session := sessionToProto
  { id := "session-4", providerID := "p", renterID := "r", image := "alpine", status := "pending"
    relayToken := "session-3", createdAt := 6, wgProviderIP := "10.99.1.1"
    wgRenterIP := "10.99.1.2" }

/-- `CreateSession` has returned when the provider polls. -/
def pollLate : List Nat := [0, 0, 0, 0, 0, 0, 0, 0, 0, 0, 1, 1]

theorem exchange_after_poll_late :
    ∃ P' candidates key addr token, interleave countingEnv (memoryStore (fun _ => Order.id))
        (exchanging none renterRequest "p" pollLate (submitAs "p" "provider key") [2, 2, 2, 2])
        oneProvider = some P' ∧
      P'.threads[2]? = some (.ret (.ok (.exchangeCandidates candidates key addr token))) ∧
      key = "key" := by
  have hpoll : (interleave countingEnv (memoryStore (fun _ => Order.id))
      (polling none renterRequest "p" pollLate) oneProvider).map
      (fun P => P.threads[1]?.bind Pool.answer) =
      some (some (.ok (.listProviderSessions [polled]))) := by decide +kernel
  obtain ⟨P, hP, hlist⟩ := Option.map_eq_some_iff.mp hpoll
  have hplay : (interleave countingEnv (memoryStore (fun _ => Order.id))
      (exchanging none renterRequest "p" pollLate (submitAs "p" "provider key") [2, 2, 2, 2])
      oneProvider).map (fun P => P.threads[2]?.bind Pool.answer) =
      some (some (.ok (.exchangeCandidates [] "key" "" "session-3"))) := by decide +kernel
  obtain ⟨P', hP', hasked⟩ := Option.map_eq_some_iff.mp hplay
  have hresp := Pool.getElem?_bind_answer hasked
  obtain ⟨candidates, key, addr, token, heq, hiff⟩ := exchange_after_poll_iff
    (memoryStore_lawful _) (memoryStore_exact _) (Fresh.counting rfl rfl) (fun _ _ => rfl)
    (by decide) (by decide) hP (Pool.getElem?_bind_answer hlist) (.head _) rfl rfl rfl hP' hresp
  rw [heq] at hresp
  exact ⟨P', candidates, key, addr, token, hP', hresp, hiff.mpr (by decide +kernel)⟩

/-- The poll falls between the two statements of `CreateSession` that publish the record and keep
the key. -/
def pollEarly : List Nat := [0, 0, 0, 0, 0, 0, 0, 0, 1, 1]

/-- The poll shows the session, and the provider that asks for the renter's key gets none. -/
theorem renter_key_missed :
    (interleave countingEnv (memoryStore (fun _ => Order.id))
      (exchanging none renterRequest "p" pollEarly (submitAs "p" "provider key") [2, 2, 2, 2])
      oneProvider).map (fun P => P.threads.map Pool.answer) =
    some [none, some (.ok (.listProviderSessions [polled])),
      some (.ok (.exchangeCandidates [] "" "" "session-3"))] := by
  decide +kernel

end PeerCompute.Registry
