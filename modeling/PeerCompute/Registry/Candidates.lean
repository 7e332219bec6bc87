import PeerCompute.Registry.Effects

/-! What the peers of a session learn of each other through `ExchangeCandidates`. -/

namespace PeerCompute.Registry

open PeerCompute.Data PeerCompute.Interleaving PeerCompute.Plugin PeerCompute.Computev1
  PeerCompute.Relay Prog

variable {σ : Type} {E : Env} {S : Store σ} {s s' : Server σ}

/-- The candidates and the key that a response shows. -/
def shown : Option CandidateSet → List EndpointCandidate × String
  | none => ([], "")
  | some cs => (cs.candidates, cs.wgPublicKey)

def exchangeResponse (other : Option CandidateSet) (relayAddress : Option String)
    (relayToken : String) : Response :=
  .exchangeCandidates (shown other).1 (shown other).2 (relayAddress.getD "") relayToken

/-- What the peers of a session have submitted. -/
def Server.peers (s : Server σ) (id : String) : Map String CandidateSet :=
  (s.candidates.lookup id).getD ∅

theorem peers_putCandidates (s : Server σ) (id p id' : String) (cs : CandidateSet) :
    (s.putCandidates id p cs).peers id' =
      if id' = id then (s.peers id).insert p cs else s.peers id' := by
  unfold Server.peers Server.putCandidates
  rw [Map.lookup_insert]
  split <;> rfl

/-- The set a request submits. -/
def submitted (req : ExchangeCandidatesRequest) : CandidateSet :=
  { candidates := req.candidates, wgPublicKey := req.wgPublicKey }

theorem run_exchangeCandidates {req : ExchangeCandidatesRequest} {r : SessionRecord}
    (hn : Names S s req.sessionID r) :
    (exchangeCandidates req).run (exec E S) s = some
      (.ok (exchangeResponse ((s.putCandidates r.id req.peerID (submitted req)).otherCandidates
          (E.order (s.clock + 3)) r.id req.peerID) (s.relay.map RelayServer.advertised)
          r.relayToken),
        { s.putCandidates r.id req.peerID (submitted req) with clock := s.clock + 4 }) := by
  have hget : exec E S (.getSessionByPrefix req.sessionID) s = some (.ok (S.handle r), s.tick) := by
    simp only [exec, Server.act, hn.1]
    rfl
  have hload : exec E S (.loadSession (S.handle r)) s.tick = some (r, s.tick.tick) := by
    have hr : S.loadSession s.tick.store (S.handle r) = r := S.load_handle hn.2
    exact congrArg (fun x : SessionRecord => some (x, s.tick.tick)) hr
  refine (run_perform hget _).trans ((run_perform hload _).trans ?_)
  refine (run_perform (S := signature) (a := .relayAddr) rfl _).trans ?_
  refine (run_perform (S := signature) (a := .exchangeCandidates r.id req.peerID _) rfl _).trans ?_
  split
  next hother =>
    have hother' : (s.putCandidates r.id req.peerID (submitted req)).otherCandidates
        (E.order (s.clock + 3)) r.id req.peerID = none := hother
    rw [hother']
    rfl
  next cs hother =>
    have hother' : (s.putCandidates r.id req.peerID (submitted req)).otherCandidates
        (E.order (s.clock + 3)) r.id req.peerID = some cs := hother
    rw [hother']
    rfl

/-- A call for a session that is not found submits nothing. -/
theorem run_exchangeCandidates_error {req : ExchangeCandidatesRequest} {e : StoreError}
    (hget : S.getSessionByPrefix s.clock s.store req.sessionID = .error e) :
    (exchangeCandidates req).run (exec E S) s = some (.error (storeErr e), s.tick) := by
  have hx : exec E S (.getSessionByPrefix req.sessionID) s = some (.error e, s.tick) := by
    simp only [exec, Server.act, hget]
    rfl
  exact run_perform (S := signature) hx _

section

variable {id p q : String} {cs : CandidateSet} {order : Order String}

/-- The other peer is one of those that have submitted, whichever the order. -/
theorem otherCandidates_eq_some (h : s.otherCandidates order id p = some cs) :
    ∃ q, q ≠ p ∧ (s.peers id).lookup q = some cs := by
  obtain ⟨q, hfind, hq⟩ := Option.bind_eq_some_iff.mp h
  exact ⟨q, by simpa using List.find?_some hfind, hq⟩

theorem otherCandidates_eq_none (h : s.otherCandidates order id p = none) (hq : q ≠ p) :
    (s.peers id).lookup q = none := by
  by_contra hsome
  obtain ⟨cs, hcs⟩ := Option.ne_none_iff_exists'.mp hsome
  have hmem : q ∈ order.apply (s.peers id).keys :=
    (order.perm _).mem_iff.mpr (Map.mem_keys_iff.mpr ⟨cs, hcs⟩)
  cases hfind : (order.apply (s.peers id).keys).find? (fun id => id ≠ p) with
  | none => exact absurd (List.find?_eq_none.mp hfind q hmem) (by simpa using hq)
  | some q' =>
    have hkey := (order.perm _).mem_iff.mp (List.mem_of_find?_eq_some hfind)
    obtain ⟨cs', hcs'⟩ := Map.mem_keys_iff.mp hkey
    have hother : s.otherCandidates order id p = some cs' := by
      refine Option.bind_eq_some_iff.mpr ⟨q', hfind, hcs'⟩
    rw [h] at hother
    cases hother

/-- Any of the other peers may be the one that is shown. -/
theorem otherCandidates_first (hq : q ≠ p) (hcs : (s.peers id).lookup q = some cs) :
    s.otherCandidates (.first q) id p = some cs := by
  have hmem : q ∈ (s.peers id).keys := Map.mem_keys_iff.mpr ⟨cs, hcs⟩
  refine Option.bind_eq_some_iff.mpr ⟨q, ?_, hcs⟩
  have hkeys : (Order.first q).apply (s.peers id).keys = q :: (s.peers id).keys.erase q :=
    if_pos hmem
  exact (congrArg (List.find? _) hkeys).trans (List.find?_cons_of_pos (by simpa using hq))

end

/-- The latest of the submissions made under a peer's ID. -/
def latest (submissions : List (String × CandidateSet)) (peerID : String) : Option CandidateSet :=
  (submissions.reverse.find? (fun x => x.1 = peerID)).map Prod.snd

theorem latest_concat (l : List (String × CandidateSet)) (q p : String) (cs : CandidateSet) :
    latest (l ++ [(q, cs)]) p = if p = q then some cs else latest l p := by
  unfold latest
  rw [List.reverse_append, List.reverse_singleton, List.singleton_append, List.find?_cons]
  by_cases h : p = q
  · simp [h]
  · simp [h, Ne.symm h]

/-- The submission an event makes for the session `id`. -/
def submission (S : Store σ) (id : String) (s : Server σ) : Event → List (String × CandidateSet)
  | .rpc (.exchangeCandidates req) =>
    match S.getSessionByPrefix s.clock s.store req.sessionID with
    | .error _ => []
    | .ok ref => if (S.loadSession s.store ref).id = id then [(req.peerID, submitted req)] else []
  | _ => []

/-- The event does not take the candidates of the session `id` away. -/
def Retains (S : Store σ) (id : String) (s : Server σ) : Event → Prop
  | .restart _ => False
  | .rpc (.terminateSession req) => ∀ r, Names S s req.sessionID r → r.id ≠ id
  | _ => True

/-- Only an exchange changes what the peers of a stored session have submitted. -/
theorem peers_step (hS : S.Lawful) (hf : Fresh E S s) {id : String}
    (hid : (S.session s.store id).isSome = true) {e : Event} (hkeep : Retains S id s e)
    (hne : ∀ req, e ≠ .rpc (.exchangeCandidates req)) (h : step E S s e = some s') :
    s'.peers id = s.peers id := by
  have same : s'.candidates = s.candidates → s'.peers id = s.peers id :=
    fun h => congrArg (fun m => (m.lookup id).getD ∅) h
  cases step_effect hS h with
  | restart relayAddr => exact hkeep.elim
  | noRelay => rfl
  | relay hrelay hnext => rfl
  | untouched h => exact same h.candidates
  | updated hn h => exact same h.candidates
  | reported hn h => exact same h.candidates
  | exchanged hn h => exact absurd rfl (hne _)
  | @terminated req r _ hn h =>
    have hlookup := Map.lookup_erase s.candidates r.id id
    rw [if_neg (Ne.symm (hkeep r hn)), ← h.candidates] at hlookup
    exact congrArg (·.getD ∅) hlookup
  | @created ctx req providerID ips T resp _ halloc h =>
    have hnew := hf.session (s.clock + 4) (Nat.le_add_right _ _)
    obtain ⟨-, hc⟩ | ⟨-, hc⟩ := h.session hS hnew
    · exact same hc
    · unfold keptKey at hc
      split at hc
      next =>
        refine (congrArg (fun m => (m.lookup id).getD ∅) hc).trans ?_
        refine (peers_putCandidates s _ req.renterID id _).trans (if_neg ?_)
        rintro rfl
        have hnone : S.session s.store (E.uuid (s.clock + 4)) = none := hnew
        rw [show (newSession E s.clock req providerID ips).id = E.uuid (s.clock + 4) from rfl,
          hnone] at hid
        cases hid
      next => exact same hc

theorem isSome_step (hS : S.Lawful) (hf : Fresh E S s) {id : String} {e : Event}
    (h : step E S s e = some s') (hid : (S.session s.store id).isSome = true) :
    (S.session s'.store id).isSome = true := by
  have hstores : ∀ {r}, S.Stores s.store r s'.store → (S.session s'.store id).isSome = true := by
    intro r hst
    rw [hst id]
    split
    · rfl
    · exact hid
  cases step_view hS hf h with
  | same hst => rwa [hst]
  | changed _ hst => exact hstores hst
  | new _ _ hst => exact hstores hst

/-- The peers of the session have submitted what the list says. -/
structure Heard (E : Env) (S : Store σ) (id : String) (l : List (String × CandidateSet))
    (s : Server σ) : Prop where
  fresh : Fresh E S s
  stored : (S.session s.store id).isSome = true
  peers : ∀ p, (s.peers id).lookup p = latest l p

theorem peers_exchange (hS : S.Lawful) {req : ExchangeCandidatesRequest} {id : String}
    {l : List (String × CandidateSet)} (hs : ∀ p, (s.peers id).lookup p = latest l p)
    (h : step E S s (.rpc (.exchangeCandidates req)) = some s') (p : String) :
    (s'.peers id).lookup p =
      latest (l ++ submission S id s (.rpc (.exchangeCandidates req))) p := by
  obtain ⟨⟨resp, t⟩, hrun, rfl⟩ := Option.map_eq_some_iff.mp h
  cases hget : S.getSessionByPrefix s.clock s.store req.sessionID with
  | error e =>
    have hrun' := (run_exchangeCandidates_error (E := E) hget).symm.trans hrun
    cases hrun'
    simp only [submission, hget, List.append_nil]
    exact hs p
  | ok ref =>
    obtain ⟨r, hr, rfl⟩ := hS.get_session hget
    have hrun' := (run_exchangeCandidates (E := E) ⟨hget, hr⟩).symm.trans hrun
    cases hrun'
    simp only [submission, hget, S.load_handle hr]
    refine (congrArg (·.lookup p) (peers_putCandidates s r.id req.peerID id _)).trans ?_
    by_cases hid : id = r.id
    · rw [if_pos hid, if_pos hid.symm, Map.lookup_insert, latest_concat, ← hid, hs p]
    · rw [if_neg hid, if_neg (Ne.symm hid), List.append_nil]
      exact hs p

theorem Heard.step (hS : S.Lawful) {id : String} {l : List (String × CandidateSet)}
    (hs : Heard E S id l s) {e : Event} (hkeep : Retains S id s e)
    (h : Registry.step E S s e = some s') : Heard E S id (l ++ submission S id s e) s' := by
  refine ⟨hs.fresh.step hS h, isSome_step hS hs.fresh h hs.stored, fun p => ?_⟩
  have hquiet : (∀ req, e ≠ .rpc (.exchangeCandidates req)) → submission S id s e = [] →
      (s'.peers id).lookup p = latest (l ++ submission S id s e) p := by
    intro hne hnone
    rw [hnone, List.append_nil, peers_step hS hs.fresh hs.stored hkeep hne h]
    exact hs.peers p
  cases e with
  | rpc c =>
    cases c with
    | exchangeCandidates req => exact peers_exchange hS hs.peers h p
    | _ => exact hquiet (fun _ heq => by cases heq) rfl
  | _ => exact hquiet (fun _ heq => by cases heq) rfl

/-- The submission `CreateSession` makes for the renter. -/
def renterKey (req : CreateSessionRequest) : List (String × CandidateSet) :=
  if req.wgPublicKey = "" then [] else [(req.renterID, { wgPublicKey := req.wgPublicKey })]

theorem peers_keptKey {req : CreateSessionRequest} {id : String}
    (hclean : s.candidates.lookup id = none) (hc : s'.candidates = keptKey s req id) (p : String) :
    (s'.peers id).lookup p = latest (renterKey req) p := by
  have hempty : s.peers id = ∅ := by
    rw [Server.peers, hclean]
    rfl
  refine (congrArg (fun m => ((m.lookup id).getD ∅).lookup p) hc).trans ?_
  unfold keptKey renterKey
  by_cases hkey : req.wgPublicKey = ""
  · rw [if_pos hkey, if_neg (not_not.mpr hkey)]
    exact congrArg (·.lookup p) hempty
  · rw [if_neg hkey, if_pos hkey]
    refine (congrArg (·.lookup p) (peers_putCandidates s id req.renterID id _)).trans ?_
    rw [if_pos rfl, Map.lookup_insert, hempty]
    exact (latest_concat [] req.renterID p _).symm

/-- The session a `CreateSession` has made, and the one submission made for it. -/
theorem Heard.created (hS : S.Lawful) {ctx : Metadata} {req : CreateSessionRequest}
    {resp : Except Status Response} (hf : Fresh E S s)
    (hcreate : (createSession ctx req).run (exec E S) s = some (resp, s')) {id : String}
    {r : SessionRecord} (hclean : s.candidates.lookup id = none)
    (hnew : S.session s.store id = none) (hr : S.session s'.store id = some r) :
    Heard E S id (renterKey req) s' := by
  have hstep : Registry.step E S s (.rpc (.createSession ctx req)) = some s' :=
    Option.map_eq_some_iff.mpr ⟨_, hcreate, rfl⟩
  refine ⟨hf.step hS hstep, by rw [hr]; rfl, fun p => ?_⟩
  have hsame : S.session s'.store id ≠ S.session s.store id := by
    rw [hnew, hr]
    exact Option.some_ne_none r
  have hleads := leads_iff.mp (createSession_leads (E := E) (S := S) ctx req) _ _ hcreate
  obtain ⟨-, -, h⟩ | ⟨providerID, ips, T, -, -, h⟩ := hleads
  · exact absurd (congrFun h.session id) hsame
  · obtain ⟨hst, -⟩ | ⟨hst, hc⟩ := h.session hS (hf.session _ (Nat.le_add_right _ _))
    · exact absurd (congrFun hst id) hsame
    · have hid : id = (newSession E s.clock req providerID ips).id := by
        by_contra hne
        exact hsame ((hst id).trans (if_neg hne))
      rw [← hid] at hc
      exact peers_keptKey hclean hc p

/-- The peer whose submission a call under the ID `p` is for. -/
def counterpart (r : SessionRecord) (p : String) : String :=
  if p = r.providerID then r.renterID else r.providerID

theorem exchangeResponse_inj {other other' : Option CandidateSet} {addr : Option String}
    {token : String} :
    exchangeResponse other addr token = exchangeResponse other' addr token ↔
      shown other = shown other' := by
  simp [exchangeResponse, Prod.ext_iff]

/-- Whatever the order in which the peers are ranged over, a peer of a session is shown the latest
submission of its counterpart, exactly if every third peer that has submitted shows the same. -/
theorem exchange_counterpart_iff (hS : S.Lawful) {s₀ s₁ : Server σ} {ctx : Metadata}
    {create : CreateSessionRequest} {resp : Except Status Response} (hf : Fresh E S s₀)
    (hcreate : (createSession ctx create).run (exec E S) s₀ = some (resp, s₁)) {id : String}
    {r : SessionRecord} (hclean : s₀.candidates.lookup id = none)
    (hnew : S.session s₀.store id = none) (hr : S.session s₁.store id = some r)
    (hne : r.providerID ≠ r.renterID) {es : List Event}
    (hkeep : Step.Along (step E S) (Retains S id) es s₁)
    (hrun : Step.run (step E S) es s₁ = some s) {req : ExchangeCandidatesRequest}
    {q : SessionRecord} (hn : Names S s req.sessionID q) (hq : q.id = id)
    (hpeer : req.peerID = r.providerID ∨ req.peerID = r.renterID)
    {submissions : List (String × CandidateSet)}
    (hsub : submissions = renterKey create ++ Step.output (step E S) (submission S id) es s₁) :
    (∀ order, ((exchangeCandidates req).run (exec { E with order := order } S) s).map Prod.fst =
      some (.ok (exchangeResponse (latest submissions (counterpart r req.peerID))
        (s.relay.map RelayServer.advertised) q.relayToken))) ↔
    ∀ x, x ≠ r.providerID → x ≠ r.renterID → ∀ cs, latest submissions x = some cs →
      shown (some cs) = shown (latest submissions (counterpart r req.peerID)) := by
  have hheard : Heard E S id submissions s := by
    rw [hsub]
    exact Step.run_output (I := Heard E S id) (fun hok hs h => hs.step hS hok h) hkeep
      (.created hS hf hcreate hclean hnew hr) hrun
  have hcounter : counterpart r req.peerID ≠ req.peerID := by
    unfold counterpart
    split
    next h => exact fun heq => hne (h.symm.trans heq.symm)
    next h => exact Ne.symm h
  have hothers : ∀ x, x = req.peerID ∨ x = counterpart r req.peerID ∨
      x ≠ r.providerID ∧ x ≠ r.renterID := by
    intro x
    unfold counterpart
    obtain hp | hp := hpeer
    · rw [if_pos hp, hp]
      tauto
    · rw [if_neg (fun h => hne (h.symm.trans hp)), hp]
      tauto
  -- the submission of the call itself is not among those it is answered from
  have hlookup : ∀ x, x ≠ req.peerID →
      ((s.putCandidates q.id req.peerID (submitted req)).peers q.id).lookup x =
        latest submissions x := by
    intro x hx
    rw [peers_putCandidates, if_pos rfl, Map.lookup_insert, if_neg hx, hq]
    exact hheard.peers x
  simp only [run_exchangeCandidates hn, Option.map_some, Option.some.injEq, Except.ok.injEq,
    exchangeResponse_inj]
  constructor
  · intro hall x hxp hxr cs hcs
    have hx : x ≠ req.peerID := by
      obtain hp | hp := hpeer
      · rwa [hp]
      · rwa [hp]
    have hfirst := hall (fun _ => .first x)
    rwa [otherCandidates_first hx ((hlookup x hx).trans hcs)] at hfirst
  · intro hthird order
    cases hother : (s.putCandidates q.id req.peerID (submitted req)).otherCandidates
        (order (s.clock + 3)) q.id req.peerID with
    | none => rw [← hlookup _ hcounter, otherCandidates_eq_none hother hcounter]
    | some cs =>
      obtain ⟨x, hx, hcs⟩ := otherCandidates_eq_some hother
      rw [hlookup x hx] at hcs
      obtain rfl | rfl | ⟨hxp, hxr⟩ := hothers x
      · exact absurd rfl hx
      · rw [hcs]
      · exact hthird x hxp hxr cs hcs

def renterRequest : CreateSessionRequest :=
  { providerID := "p", renterID := "r", requested := none, image := "alpine", wgPublicKey := "key" }

/-- A submission for the session made by `renterRequest`. -/
def submitAs (peerID wgPublicKey : String) : ExchangeCandidatesRequest :=
  { sessionID := "session-4", peerID := peerID, candidates := [], wgPublicKey := wgPublicKey }

/-- The session that `renterRequest` makes. -/
theorem created_by_renterRequest :
    ∃ resp s₁ r, (createSession none renterRequest).run (exec countingEnv
        (memoryStore (fun _ => Order.id))) oneProvider = some (resp, s₁) ∧
      s₁.store.sessions.lookup "session-4" = some r ∧ r.providerID = "p" ∧ r.renterID = "r" := by
  have hcreated : ((createSession none renterRequest).run (exec countingEnv
      (memoryStore (fun _ => Order.id))) oneProvider).map
      (fun x => (x.2.store.sessions.lookup "session-4").map (fun r => (r.providerID, r.renterID))) =
      some (some ("p", "r")) := by decide +kernel
  obtain ⟨⟨resp, s₁⟩, hcreate, hr⟩ := Option.map_eq_some_iff.mp hcreated
  obtain ⟨r, hr, hpeers⟩ := Option.map_eq_some_iff.mp hr
  simp only [Prod.mk.injEq] at hpeers
  exact ⟨resp, s₁, r, hcreate, hr, hpeers⟩

theorem exchange_counterpart_renewed :
    ∃ s, Step.run (step countingEnv (memoryStore (fun _ => Order.id)))
        [createOne, .rpc (.exchangeCandidates (submitAs "r" "new key"))] oneProvider = some s ∧
      ∀ order, ((exchangeCandidates (submitAs "p" "provider key")).run
        (exec { countingEnv with order := order } (memoryStore (fun _ => Order.id))) s).map Prod.fst =
          some (.ok (.exchangeCandidates [] "new key" "" "session-3")) := by
  obtain ⟨resp, s₁, r, hcreate, hr, hp, hrenter⟩ := created_by_renterRequest
  have hstep : step countingEnv (memoryStore (fun _ => Order.id)) oneProvider createOne = some s₁ :=
    Option.map_eq_some_iff.mpr ⟨_, hcreate, rfl⟩
  have hruns : (Step.run (step countingEnv (memoryStore (fun _ => Order.id)))
      [createOne, .rpc (.exchangeCandidates (submitAs "r" "new key"))] oneProvider).map
      (fun s => ((memoryStore (fun _ => Order.id)).getSessionByPrefix s.clock s.store "session-4",
        (s.store.sessions.lookup "session-4").map (fun r => (r.id, r.relayToken)),
        s.relay.isNone)) =
      some (.ok (.stored "session-4"), some ("session-4", "session-3"), true) := by decide +kernel
  obtain ⟨s, hrun, hview⟩ := Option.map_eq_some_iff.mp hruns
  simp only [Prod.mk.injEq] at hview
  obtain ⟨hget, hq, hrelay⟩ := hview
  obtain ⟨q, hq, hids⟩ := Option.map_eq_some_iff.mp hq
  simp only [Prod.mk.injEq] at hids
  have hn : Names (memoryStore (fun _ => Order.id)) s
      (submitAs "p" "provider key").sessionID q := by
    refine ⟨hget.trans ?_, hids.1 ▸ hq⟩
    simp [Store.handle, memoryStore, hids.1]
  have hsub : (step countingEnv (memoryStore (fun _ => Order.id)) oneProvider createOne).map
      (fun s => submission (memoryStore (fun _ => Order.id)) "session-4" s
        (.rpc (.exchangeCandidates (submitAs "r" "new key")))) =
      some [("r", submitted (submitAs "r" "new key"))] := by decide +kernel
  rw [hstep, Option.map_some, Option.some.injEq] at hsub
  refine ⟨s, hrun, ?_⟩
  rw [Step.run, hstep, Option.bind_some] at hrun
  have hsubmissions : [("r", { wgPublicKey := "key" }), ("r", submitted (submitAs "r" "new key"))] =
      renterKey renterRequest ++ Step.output (step countingEnv (memoryStore (fun _ => Order.id)))
        (submission (memoryStore (fun _ => Order.id)) "session-4")
        [.rpc (.exchangeCandidates (submitAs "r" "new key"))] s₁ := by
    simp only [Step.output, hsub]
    split <;> rfl
  have hkeep : Step.Along (step countingEnv (memoryStore (fun _ => Order.id)))
      (Retains (memoryStore (fun _ => Order.id)) "session-4")
      [.rpc (.exchangeCandidates (submitAs "r" "new key"))] s₁ := ⟨trivial, fun _ _ => trivial⟩
  have hiff := exchange_counterpart_iff (memoryStore_lawful _) (Fresh.counting rfl rfl) hcreate
    rfl rfl hr (by rw [hp, hrenter]; decide) hkeep hrun hn hids.1 (.inl hp.symm) hsubmissions
  have hcounter : counterpart r "p" = "r" := (if_pos hp.symm).trans hrenter
  have hrelay' : s.relay = none := Option.isNone_iff_eq_none.mp hrelay
  have hshown := hiff.mpr (fun x _ hx cs hcs => ?_)
  · intro order
    rw [hshown order, show (submitAs "p" "provider key").peerID = "p" from rfl, hcounter, hrelay',
      hids.2]
    rfl
  · rw [hrenter] at hx
    simp [latest, Ne.symm hx] at hcs

/-- What the provider is shown after a stranger has submitted a key of its own, when the map is
ranged over from `first` on. -/
def shownToProvider (first : String) : Option (Except Status Response) :=
  (Step.run (step countingEnv (memoryStore (fun _ => Order.id)))
    [createOne, .rpc (.exchangeCandidates (submitAs "x" "stranger key"))] oneProvider).bind
    (fun s => ((exchangeCandidates (submitAs "p" "provider key")).run
      (exec { countingEnv with order := fun _ => .first first } (memoryStore (fun _ => Order.id)))
      s).map Prod.fst)

/-- The provider is shown the renter's key or the stranger's, as Go's map order has it. -/
theorem stranger_shown_to_provider :
    shownToProvider "r" = some (.ok (.exchangeCandidates [] "key" "" "session-3")) ∧
      shownToProvider "x" =
        some (.ok (.exchangeCandidates [] "stranger key" "" "session-3")) := by
  decide +kernel

end PeerCompute.Registry
