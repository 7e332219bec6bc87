import PeerCompute.Deployment.Submissions

/-! Whether the config files of the two sides of a tunnel have each other's keys. -/

namespace PeerCompute.Deployment

open PeerCompute.Data PeerCompute.Interleaving PeerCompute.Plugin PeerCompute.Computev1 Prog
open PeerCompute.Agent (WGKeyPair WGConfig Exchange PolledSession)
open PeerCompute.Registry (KeepsCandidates SparesCandidates shown latest submitted)

variable {σ : Type} {D : Setting σ} {s : State σ} {P P' : Parties σ} {turns : List Turn} {id : String}
  {h before after : List (Entry signature Party)} {i : Nat}

theorem request_cases {cfg : Agent.Config} {available : Option Resources} {a : ClientAction}
    {q : Request a.Res} (hq : request? cfg available a = some q) :
    (∃ req, q.rpc = .exchangeCandidates req ∧
      (a = .provider (.exchangeCandidates req) ∨ a = .renter (.exchangeCandidates req))) ∨
    (∀ req, q.rpc ≠ .exchangeCandidates req) ∧ q.rpc.handler.Uses KeepsCandidates := by
  have hsilent : ∀ {p : Registry.Handler}, p.Uses Registry.Silent → p.Uses KeepsCandidates :=
    fun hp => hp.mono (fun _ => Registry.Silent.keepsCandidates)
  cases a with
  | provider a =>
    cases a with
    | exchangeCandidates req =>
      cases hq
      exact .inl ⟨req, rfl, .inl rfl⟩
    | reportConnectionResult req =>
      cases hq
      exact .inr ⟨nofun, Registry.keeps_reportConnectionResult req⟩
    | updateSessionStatus req =>
      cases hq
      exact .inr ⟨nofun, Registry.keeps_updateSessionStatus req⟩
    | listPending =>
      cases hq
      exact .inr ⟨nofun, hsilent (Registry.uses_listProviderSessions _
        (fun _ => trivial) (fun _ => trivial))⟩
    | heartbeat active =>
      cases hq
      exact .inr ⟨nofun, hsilent (Registry.uses_heartbeat _)⟩
    | _ => cases hq
  | renter a =>
    cases a with
    | exchangeCandidates req =>
      cases hq
      exact .inl ⟨req, rfl, .inr rfl⟩
    | reportConnectionResult req =>
      cases hq
      exact .inr ⟨nofun, Registry.keeps_reportConnectionResult req⟩
    | getSession req =>
      cases hq
      exact .inr ⟨nofun, hsilent (Registry.uses_getSession req trivial
        (fun _ => trivial))⟩
    | _ => cases hq

/-! ## One side -/

/-- One side of a tunnel: the thread that connects it, and the ID and the key that it submits. -/
structure Side where
  thread : Nat
  peer : String
  key : String

namespace Side

variable {S : Side}

/-- A request of a side submits candidates for the session `id`, or touches no candidates. -/
def Asks (S : Side) (id : String) (c : Registry.Rpc) : Prop :=
  (∃ req, c = .exchangeCandidates req ∧ req.sessionID = id ∧ req.peerID = S.peer ∧
    req.wgPublicKey = S.key) ∨ c.handler.Uses KeepsCandidates

def Acts (S : Side) (id : String) (L : Journal signature) : Action → Prop
  | .send c => S.Asks id c
  | .registry b => ∃ c, S.Asks id c ∧ Serving c L b
  | _ => True

/-- The thread sends such requests only. -/
def Plays (S : Side) (id : String) (h : List (Entry signature Party)) : Prop :=
  ∀ before b r after, h = before ++ .does (S.thread, ⟨b, r⟩) :: after →
    S.Acts id (ofThread S.thread (Entry.deeds before)) b

/-- The `k`-th thread submits the candidates of a side: it is that of the side, or it executes a
request that the side has sent and that has not been answered. -/
def Submitted (S : Side) (id : String) (before : List (Entry signature Party)) (k : Nat)
    (b : Registry.Action) : Prop :=
  (∃ cs, b = .exchangeCandidates id S.peer cs ∧ cs.wgPublicKey = S.key) ∧
    (k = S.thread ∨ ∃ req, .does (S.thread, ⟨.send (.exchangeCandidates req), false⟩) ∈ before)

/-- What the registry does for a request of a side. -/
theorem submits_of_asks (hS : D.store.Lawful) (hexact : D.store.Exact)
    (hrun : Step.run (next D) turns P = some P')
    (hstored : (D.store.session P.state.server.store id).isSome = true) {c : Registry.Rpc}
    (hasks : S.Asks id c) {l : Journal Registry.signature} {b : Registry.Action}
    {k : b.Res → Registry.Handler} (hleaves : c.handler.Leaves l (.act b k))
    (hl : l.map liftRegistry <:+: ofThread i (Entry.deeds (history D turns P))) :
    KeepsCandidates b ∨ (∃ cs, b = .exchangeCandidates id S.peer cs ∧ cs.wgPublicKey = S.key) ∧
      ∃ req, c = .exchangeCandidates req := by
  obtain ⟨req, rfl, rfl, hpeer, hkey⟩ | hkeeps := hasks
  · obtain hb | ⟨l₁, ref, r, l₂, hsplit, hget, rfl⟩ :=
      (hleaves.along (Registry.along_exchangeCandidates req)).1
    · exact .inl hb
    -- the full ID of a stored session names that session
    obtain ⟨turns₁, -, Q, t, hrun₁, hl₁, hload, -⟩ := executed_at hrun hl hsplit
    obtain ⟨turns₂, turns₃, R, u, hrun₂, hlookup, hrun₃, -⟩ := looked_up_at hrun₁ hl₁ hget
    obtain ⟨r₀, hr₀⟩ := Option.isSome_iff_exists.mp (stored_run hS hrun₂ hstored)
    have hok := (hexact.get_session (t := R.state.server.clock) hr₀).symm.trans
      (congrArg Prod.fst (Option.some.inj hlookup))
    obtain rfl : D.store.handle r₀ = ref := Except.ok.inj hok
    have hid₀ := hS.session_id hr₀
    have hid : r.id = req.sessionID := by
      obtain ⟨r₁, hr₁⟩ := Option.isSome_iff_exists.mp (stored_run hS hrun₁ hstored)
      obtain hr | hr := load_exec (hid₀.symm ▸ hr₁) hload
      · rw [hr, hS.session_id hr₁]
      · rw [hr, hid₀]
    exact .inr ⟨⟨submitted req, by rw [hid, hpeer], hkey⟩, req, rfl⟩
  · exact .inl (hleaves.uses hkeeps)

section

variable (hS : D.store.Lawful) (hexact : D.store.Exact)
  (hrun : Step.run (next D) turns ⟨s, []⟩ = some P)
  (hstored : (D.store.session s.server.store id).isSome = true)
  (hplays : S.Plays id (history D turns ⟨s, []⟩))

include hS hexact hrun hstored hplays

theorem Plays.thread {b : Registry.Action} {res : b.Res} (hsplit : history D turns ⟨s, []⟩ =
    before ++ .does (S.thread, ⟨.registry b, res⟩) :: after) :
    KeepsCandidates b ∨ S.Submitted id before S.thread b := by
  obtain ⟨c, hasks, l, k, hleaves, hl⟩ := hplays before (.registry b) res after hsplit
  have hl := hl.isInfix.trans (Entry.ofThread_extends before
    (.does (S.thread, ⟨.registry b, res⟩) :: after) S.thread).isInfix
  rw [← hsplit] at hl
  obtain hb | ⟨hb, -⟩ := submits_of_asks hS hexact hrun hstored hasks hleaves hl
  · exact .inl hb
  · exact .inr ⟨hb, .inl rfl⟩

/-- A request of a side that has not been answered, when it is executed. -/
theorem Plays.straggler {k : Nat} {b : Registry.Action} {res : b.Res}
    (hsplit : history D turns ⟨s, []⟩ = before ++ .does (k, ⟨.registry b, res⟩) :: after)
    {c : Registry.Rpc} (hrole : (Entry.roles before)[k]? = some (.straggler c))
    (hsent : .does (S.thread, ⟨.send c, false⟩) ∈ before) :
    KeepsCandidates b ∨ S.Submitted id before k b := by
  have hasks : S.Asks id c := by
    obtain ⟨h₁, h₂, rfl⟩ := List.append_of_mem hsent
    exact hplays h₁ (.send c) false _ (by rw [hsplit, List.append_assoc, List.cons_append])
  obtain ⟨q, _, _, hq, -⟩ | ⟨c', l, b', k', hc', hb', hl, hleaves⟩ :=
    does_history (staffed_history hrun) hsplit
  · rw [hrole] at hq
    cases hq
  rw [hrole] at hc'
  obtain hc' | hc' := hc'
  · cases hc'
  cases hc'
  cases hb'
  have hl' := (Entry.ofThread_extends before (.does (k, ⟨.registry b, res⟩) :: after) k).isInfix
  rw [← hsplit, hl] at hl'
  obtain hb | ⟨hb, req, rfl⟩ := submits_of_asks hS hexact hrun hstored hasks hleaves hl'
  · exact .inl hb
  · exact .inr ⟨hb, .inr ⟨req, hsent⟩⟩

end

end Side

/-! ## Both sides -/

/-- The candidates of the session are left alone, except by the threads `i` and `j`, and by requests
of theirs that have not been answered. -/
def Undisturbed (id : String) (i j : Nat) (h : List (Entry signature Party)) : Prop :=
  ∀ (before : List (Entry signature Party)) k b res after,
    h = before ++ .does (k, ⟨.registry b, res⟩) :: after →
    SparesCandidates id b ∨ k = i ∨ k = j ∨
      ∃ c m, (Entry.roles before)[k]? = some (.straggler c) ∧ (m = i ∨ m = j) ∧
        .does (m, ⟨.send c, false⟩) ∈ before

/-- The threads of the two sides submit the candidates of their sides, and nobody else submits or
removes any of the session. -/
structure Meets (id : String) (A B : Side) (h : List (Entry signature Party)) : Prop where
  first : ∀ before b res after, h = before ++ .does (A.thread, ⟨.registry b, res⟩) :: after →
    KeepsCandidates b ∨ A.Submitted id before A.thread b
  second : ∀ before b res after, h = before ++ .does (B.thread, ⟨.registry b, res⟩) :: after →
    KeepsCandidates b ∨ B.Submitted id before B.thread b
  all : ∀ before k b res after, h = before ++ .does (k, ⟨.registry b, res⟩) :: after →
    SparesCandidates id b ∨ A.Submitted id before k b ∨ B.Submitted id before k b

section

variable {A B : Side}

theorem meets_history (hS : D.store.Lawful) (hexact : D.store.Exact)
    (hrun : Step.run (next D) turns ⟨s, []⟩ = some P)
    (hstored : (D.store.session s.server.store id).isSome = true)
    (hA : A.Plays id (history D turns ⟨s, []⟩)) (hB : B.Plays id (history D turns ⟨s, []⟩))
    (hothers : Undisturbed id A.thread B.thread (history D turns ⟨s, []⟩)) :
    Meets id A B (history D turns ⟨s, []⟩) where
  first _ _ _ _ hsplit := hA.thread hS hexact hrun hstored hsplit
  second _ _ _ _ hsplit := hB.thread hS hexact hrun hstored hsplit
  all before k b res after hsplit := by
    have hspares : ∀ {p : Prop}, KeepsCandidates b ∨ p → SparesCandidates id b ∨ p :=
      fun h => h.imp_left (fun hb => hb.spares id)
    obtain hb | rfl | rfl | ⟨c, m, hrole, rfl | rfl, hsent⟩ := hothers before k b res after hsplit
    · exact .inl hb
    · exact (hspares (hA.thread hS hexact hrun hstored hsplit)).imp_right .inl
    · exact (hspares (hB.thread hS hexact hrun hstored hsplit)).imp_right .inr
    · exact (hspares (hA.straggler hS hexact hrun hstored hsplit hrole hsent)).imp_right .inl
    · exact (hspares (hB.straggler hS hexact hrun hstored hsplit hrole hsent)).imp_right .inr

theorem Meets.symm (hmeets : Meets id A B h) : Meets id B A h where
  first := hmeets.second
  second := hmeets.first
  all before k b res after hsplit := (hmeets.all before k b res after hsplit).imp_right Or.symm

theorem Meets.append (hmeets : Meets id A B (before ++ after)) : Meets id A B before := by
  refine ⟨?_, ?_, ?_⟩
  · rintro before' b res after' rfl
    exact hmeets.first before' b res (after' ++ after) (by rw [List.append_assoc, List.cons_append])
  · rintro before' b res after' rfl
    exact hmeets.second before' b res (after' ++ after) (by rw [List.append_assoc, List.cons_append])
  · rintro before' k b res after' rfl
    exact hmeets.all before' k b res (after' ++ after) (by rw [List.append_assoc, List.cons_append])

/-- What is submitted under the ID of a side. -/
theorem Meets.submitted (hmeets : Meets id A B h) (hne : A.peer ≠ B.peer) {x : Deed signature}
    (hx : x ∈ Entry.deeds h) {cs : Registry.CandidateSet}
    (hcs : x.2.1 = .registry (.exchangeCandidates id A.peer cs)) :
    cs.wgPublicKey = A.key ∧ (x.1 = A.thread ∨
      ∃ req, .does (A.thread, ⟨.send (.exchangeCandidates req), false⟩) ∈ h) := by
  obtain ⟨k, a, res⟩ := x
  obtain rfl : a = .registry (.exchangeCandidates id A.peer cs) := hcs
  obtain ⟨before, after, rfl⟩ := List.append_of_mem (Entry.mem_deeds.mp hx)
  obtain hb | ⟨⟨cs', hcs', hkey⟩, hk⟩ | ⟨⟨cs', hcs', -⟩, -⟩ := hmeets.all before k _ res after rfl
  · exact absurd rfl hb
  · cases hcs'
    exact ⟨hkey, hk.imp_right (fun ⟨req, hreq⟩ => ⟨req, List.mem_append_left _ hreq⟩)⟩
  · exact absurd (Registry.Action.exchangeCandidates.inj hcs').2.1 hne

theorem Meets.fair (hmeets : Meets id A B h) (hA : A.peer = D.cfg.provider)
    (hB : B.peer = "cli-user") : ∀ x ∈ Entry.deeds h, Fair D id x := by
  rintro ⟨k, a, res⟩ hx b rfl
  obtain ⟨before, after, rfl⟩ := List.append_of_mem (Entry.mem_deeds.mp hx)
  obtain hb | ⟨⟨cs, hcs, -⟩, -⟩ | ⟨⟨cs, hcs, -⟩, -⟩ := hmeets.all before k b res after rfl
  · exact .inl hb
  · exact .inr ⟨A.peer, cs, hcs, .inl hA⟩
  · exact .inr ⟨B.peer, cs, hcs, .inr hB⟩

/-- The moment of an exchange, and what it has shown of the other side. -/
theorem Meets.exchanged (hmeets : Meets id A B (before ++ after)) (hne : A.peer ≠ B.peer)
    {k₀ : Option String} {t : Registry.Server σ}
    (hsynced : Synced D id k₀ (Entry.deeds (before ++ after)) t) (hother : otherSide D A.peer = B.peer)
    {L₁ L₂ : Journal signature} {id' p : String} {cs : Registry.CandidateSet}
    {other : Option Registry.CandidateSet}
    (hL : ofThread A.thread (Entry.deeds before) =
      L₁ ++ ⟨.registry (.exchangeCandidates id' p cs), other⟩ :: L₂) :
    ∃ h₁ h₂, before = h₁ ++
        .does (A.thread, ⟨.registry (.exchangeCandidates id A.peer cs), other⟩) :: h₂ ∧
      ofThread A.thread (Entry.deeds h₂) = L₂ ∧
      ((shown other).2 = B.key ∧ (∃ x ∈ Entry.deeds h₁, Submits id B.peer x) ∨
        (shown other).2 = (if B.peer = "cli-user" then k₀.getD "" else "") ∧
          ¬∃ x ∈ Entry.deeds h₁, Submits id B.peer x) := by
  obtain ⟨h₁, h₂, rfl, -, hh₂⟩ := Entry.does_split hL
  obtain hb | ⟨⟨cs', hcs', -⟩, -⟩ :=
    hmeets.append.first h₁ (.exchangeCandidates id' p cs) other h₂ rfl
  · cases hb
  cases hcs'
  refine ⟨h₁, h₂, rfl, hh₂, ?_⟩
  obtain rfl : other = latest (submissions k₀ id (Entry.deeds h₁)) B.peer := by
    rw [← hother]
    refine hsynced.shown (Entry.deeds h₁) A.thread A.peer cs other (Entry.deeds (h₂ ++ after)) ?_
    rw [List.append_assoc, List.cons_append, Entry.deeds_append_cons]
  have hkeys : Meets id B A h₁ := hmeets.append.append.symm
  exact shown_latest k₀ B.peer B.key (fun x hx cs hcs => (hkeys.submitted hne.symm hx hcs).1)

end

/-! ## What the two clients do -/

section

variable {sess : PolledSession} {stunAddr : String} {kp kpA : WGKeyPair} {l l₁ l₂ : Journal clients}
  {L : Journal signature}

theorem phase_history (hstaffed : Staffed (fun n q => Party.prog D n q) h P) {q : Client}
    (hrole : (Entry.roles h)[i]? = some (.client q)) {b : Action} {r : b.Res}
    (hsplit : h = before ++ .does (i, ⟨b, r⟩) :: after) :
    ∃ l a, Phase D q (ofThread i (Entry.deeds before)) b l a := by
  subst hsplit
  obtain ⟨q', l, a, hq, hphase⟩ | ⟨c, _, _, _, hc | hc, -⟩ := does_history hstaffed rfl
  · cases (Entry.role_append hq).symm.trans hrole
    exact ⟨l, a, hphase⟩
  · cases (Entry.role_append hc).symm.trans hrole
  · cases (Entry.role_append hc).symm.trans hrole

/-- A client whose exchanges submit the ID and the key of a side. -/
theorem plays_of_does {S : Side} (hstaffed : Staffed (fun n q => Party.prog D n q) h P) {q : Client}
    (hrole : (Entry.roles h)[S.thread]? = some (.client q))
    (hasks : ∀ l L a req, q.Does D.cfg l a → Expands (S := clients) (serve D.cfg D.available) l L →
      L ⊆ ofThread S.thread (Entry.deeds h) →
      (a = .provider (.exchangeCandidates req) ∨ a = .renter (.exchangeCandidates req)) →
      req.sessionID = id ∧ req.peerID = S.peer ∧ req.wgPublicKey = S.key) : S.Plays id h := by
  rintro before b r after rfl
  obtain ⟨l, a, hdoes, L₀, L₁, hL, hexpands, hserves⟩ := phase_history hstaffed hrole rfl
  have hrequest : ∀ rq, request? D.cfg D.available a = some rq → S.Asks id rq.rpc := by
    intro rq hrq
    obtain ⟨req, hrpc, ha⟩ | ⟨-, hkeeps⟩ := request_cases hrq
    · refine .inl ⟨req, hrpc, hasks l L₀ a req hdoes hexpands ?_ ha⟩
      exact ((hL ▸ List.prefix_append L₀ L₁).trans (Entry.ofThread_extends _ _ _)).subset
    · exact .inr hkeeps
  cases b with
  | send c =>
    obtain ⟨rq, hrq, rfl, -⟩ := hserves
    exact hrequest rq hrq
  | registry b =>
    obtain ⟨rq, hrq, l', k, hleaves, hl'⟩ := hserves
    exact ⟨rq.rpc, hrequest rq hrq, l', k, hleaves, hL ▸ hl'.trans (List.suffix_append _ _)⟩
  | _ => trivial

theorem plays_renter (hstaffed : Staffed (fun n q => Party.prog D n q) h P)
    (hrole : (Entry.roles h)[i]? = some (.client (.renter stunAddr id kp))) :
    Side.Plays ⟨i, "cli-user", kp.publicKey⟩ id h := by
  refine plays_of_does hstaffed hrole ?_
  rintro l L a req hdoes - - (rfl | rfl)
  · obtain ⟨_, _, -, ha, -⟩ := hdoes
    cases ha
  · obtain ⟨_, _, -, ha, hconfigures⟩ := hdoes
    cases ha
    exact hconfigures

/-- Before the agent makes a key pair it has not made one. -/
theorem first_keyPair (hstaffed : Staffed (fun n q => Party.prog D n q) h P)
    (hrole : (Entry.roles h)[i]? = some (.client (.goroutine (.startSession sess))))
    {res : Option WGKeyPair}
    (hsplit : h = before ++ .does (i, ⟨.own (.provider .generateKeyPair), res⟩) :: after)
    (kp : WGKeyPair) : .does (i, ⟨.own (.provider .generateKeyPair), some kp⟩) ∉ before := by
  intro hmem
  obtain ⟨l, a, hphase⟩ := phase_history hstaffed hrole hsplit
  obtain ⟨⟨l', b, rfl, hb, hstands⟩, hexpands⟩ := hphase.own
  cases hb
  have hmem := mem_of_own hexpands (mem_ofThread.mpr (Entry.mem_deeds.mpr hmem))
  obtain ⟨⟨a', r⟩, hy, heq⟩ := List.mem_map.mp hmem
  cases heq
  have hkp : kp ∈ Agent.keyPairs l' := List.mem_filterMap.mpr ⟨_, hy, rfl⟩
  rw [hstands.keyPairs] at hkp
  cases hkp

/-- The agent makes one key pair. -/
theorem keyPair_unique (hstaffed : Staffed (fun n q => Party.prog D n q) h P)
    (hrole : (Entry.roles h)[i]? = some (.client (.goroutine (.startSession sess))))
    (hA : .does (i, ⟨.own (.provider .generateKeyPair), some kpA⟩) ∈ h)
    {l : Journal Agent.signature}
    (hexpands : Expands (S := clients) (serve D.cfg D.available) (l.map liftProvider) L)
    (hL : L ⊆ ofThread i (Entry.deeds h)) (hkp : Agent.keyPairs l = [kp]) : kp = kpA := by
  have hmade : ⟨Agent.Action.generateKeyPair, some kp⟩ ∈ l :=
    Agent.mem_of_mem_keyPairs (hkp ▸ .head _)
  have hown := own_of_expands hexpands (List.mem_map_of_mem (f := liftProvider) hmade) rfl
  have hB : .does (i, ⟨.own (.provider .generateKeyPair), some kp⟩) ∈ h :=
    Entry.mem_deeds.mp (mem_ofThread.mp (hL hown))
  obtain ⟨h₁, h₂, rfl⟩ := List.append_of_mem hA
  obtain hB | hB := List.mem_append.mp hB
  · exact absurd hB (first_keyPair hstaffed hrole rfl kp)
  obtain heq | hB := List.mem_cons.mp hB
  · cases heq
    rfl
  · obtain ⟨h₃, h₄, rfl⟩ := List.append_of_mem hB
    have hfirst : .does (i, ⟨.own (.provider .generateKeyPair), some kpA⟩) ∉
        h₁ ++ .does (i, ⟨.own (.provider .generateKeyPair), some kpA⟩) :: h₃ :=
      first_keyPair hstaffed hrole (by rw [List.append_assoc, List.cons_append]) kpA
    exact absurd (List.mem_append_right _ (.head _)) hfirst

theorem plays_agent (hstaffed : Staffed (fun n q => Party.prog D n q) h P)
    (hrole : (Entry.roles h)[i]? = some (.client (.goroutine (.startSession sess))))
    (hA : .does (i, ⟨.own (.provider .generateKeyPair), some kpA⟩) ∈ h) :
    Side.Plays ⟨i, D.cfg.provider, kpA.publicKey⟩ sess.id h := by
  refine plays_of_does hstaffed hrole ?_
  rintro l L a req hdoes hexpands hL (rfl | rfl)
  · obtain ⟨l', _, rfl, ha, hconfigures⟩ := hdoes
    cases ha
    obtain ⟨kp, hstands, hid, hpeer, hkey⟩ := hconfigures
    exact ⟨hid, hpeer, hkey.trans
      (by rw [keyPair_unique hstaffed hrole hA hexpands hL hstands.keyPairs])⟩
  · obtain ⟨_, _, -, ha, -⟩ := hdoes
    cases ha

end

/-! ## The exchanges of a client -/

section

variable {cfg : Agent.Config} {available : Option Resources} {l l₁ l₂ : Journal clients}
  {L : Journal signature}

theorem exchanged_eq_some {x : Except Status Response} {exch : Exchange}
    (hx : CLI.exchanged x = some exch) : ∃ candidates relayAddress relayToken,
      x = .ok (.exchangeCandidates candidates exch.peerWGPublicKey relayAddress relayToken) := by
  unfold CLI.exchanged at hx
  split at hx
  next candidates key relayAddress relayToken =>
    cases hx
    exact ⟨candidates, relayAddress, relayToken, rfl⟩
  next => cases hx

/-- An exchange that has been answered has been executed, and then the call has returned. -/
theorem exchange_split {y : Σ a : clients.Act, clients.Res a}
    (hexpands : Expands (S := clients) (serve cfg available) (l₁ ++ y :: l₂) L)
    {q : Request (ClientAction.Res y.1)} (hq : request? cfg available y.1 = some q)
    {req : ExchangeCandidatesRequest} (hrpc : q.rpc = .exchangeCandidates req)
    (honce : q.retried = false) {exch : Exchange}
    (hread : ∀ x, y.2 = q.read x → CLI.exchanged x = some exch) :
    ∃ L₁ id other L₂, L = L₁ ++
        ⟨.registry (.exchangeCandidates id req.peerID (submitted req)), other⟩ ::
          ⟨.returns y.1 y.2, ()⟩ :: L₂ ∧
      exch.peerWGPublicKey = (shown other).2 ∧
      Expands (S := clients) (serve cfg available) l₂ L₂ := by
  obtain ⟨L₁, L', L₂, rfl, -, hserve, hl₂⟩ := hexpands.split
  obtain ⟨hnone, -⟩ | ⟨q', x, L'', hq', hx, hprog, rfl⟩ := leaves_serve_ret hserve
  · rw [hq] at hnone
    cases hnone
  rw [hq] at hq'
  cases hq'
  have hexch := hread x hx
  rw [Request.prog, if_neg (by rw [honce]; exact Bool.false_ne_true), hrpc] at hprog
  obtain ⟨-, rfl⟩ | ⟨l, rfl, hleaves⟩ := leaves_attempt_ret hprog
  · cases hexch
  obtain ⟨candidates, relayAddress, relayToken, rfl⟩ := exchanged_eq_some hexch
  obtain ⟨l', id, other, rfl, hkey⟩ :=
    hleaves.along (Registry.along_exchangeCandidates req) _ _ _ _ rfl
  exact ⟨L₁ ++ ⟨.send (.exchangeCandidates req), true⟩ :: l'.map liftRegistry, id, other, L₂,
    by simp [liftRegistry], hkey, hl₂⟩

/-- What has been exchanged at the registry was exchanged for an action of the client. -/
theorem exchange_of_registry (hexpands : Expands (S := clients) (serve cfg available) l L)
    {id p : String} {cs : Registry.CandidateSet} {other : Option Registry.CandidateSet}
    (hmem : ⟨.registry (.exchangeCandidates id p cs), other⟩ ∈ L) :
    ∃ y ∈ l, ∃ req, y.1 = .provider (.exchangeCandidates req) ∨
      y.1 = .renter (.exchangeCandidates req) := by
  obtain ⟨y, hy, L', q, hq, l', k, hleaves, -⟩ := serves_of_expands hexpands hmem
  obtain ⟨req, -, ha⟩ | ⟨-, hkeeps⟩ := request_cases hq
  · exact ⟨y, hy, req, ha⟩
  · exact (hleaves.uses hkeeps).elim

/-- When a client exchanges no more, its thread exchanges nothing at the registry. -/
theorem not_exchanged_later {a : ClientAction} {ra : a.Res}
    (hL : ofThread i (Entry.deeds h) = ⟨.returns a ra, ()⟩ :: L)
    (hexpands : Expands (S := clients) (serve cfg available) l L)
    (hno : ∀ y ∈ l, ∀ req, y.1 ≠ .provider (.exchangeCandidates req) ∧
      y.1 ≠ .renter (.exchangeCandidates req))
    {id p : String} {cs : Registry.CandidateSet} {other : Option Registry.CandidateSet} :
    (i, ⟨.registry (.exchangeCandidates id p cs), other⟩) ∉ Entry.deeds h := by
  intro hmem
  have hmem := mem_ofThread.mpr hmem
  rw [hL] at hmem
  obtain heq | hmem := List.mem_cons.mp hmem
  · cases heq
  obtain ⟨y, hy, req, hact | hact⟩ := exchange_of_registry hexpands hmem
  · exact (hno y hy req).1 hact
  · exact (hno y hy req).2 hact

/-- The agent has got no answer to an exchange of which the request was lost. -/
theorem exchange_of_lost {l : Journal Agent.signature}
    (hexpands : Expands (S := clients) (serve cfg available) (l.map liftProvider) L)
    {req : ExchangeCandidatesRequest} (hmem : ⟨.send (.exchangeCandidates req), false⟩ ∈ L) :
    (req, none) ∈ Agent.exchanges l := by
  obtain ⟨y, hy, L', hserve, hsend, -⟩ := hexpands.mem hmem
  obtain ⟨-, q, hq, hrpc, -⟩ := serves_mem hserve hsend
  obtain ⟨⟨a, r⟩, ha, rfl⟩ := List.mem_map.mp hy
  obtain ⟨req', hreq', hact⟩ | ⟨hne, -⟩ := request_cases hq
  · obtain hact | hact := hact
    · cases hact
      cases hq
      cases hrpc
      refine List.mem_filterMap.mpr ⟨_, ha, ?_⟩
      obtain ⟨hnone, -⟩ | ⟨q, x, L'', hq, hx, hprog, rfl⟩ := leaves_serve_ret hserve
      · cases hnone
      cases hq
      obtain ⟨-, rfl⟩ | ⟨l', rfl, -⟩ := leaves_attempt_ret (c := .exchangeCandidates req) hprog
      · exact congrArg (fun r => some (req, r)) hx
      -- the request that is in the way has been answered
      · obtain hsend | hsend := List.mem_append.mp hsend
        · obtain heq | hsend := List.mem_cons.mp hsend
          · cases heq
          · obtain ⟨_, -, heq⟩ := List.mem_map.mp hsend
            cases heq
        · cases List.mem_singleton.mp hsend
    · cases hact
  · exact absurd hrpc.symm (hne req)

def returned? : Action → Option (Option Exchange)
  | .returns (.renter (.exchangeCandidates _)) exch => some exch
  | _ => none

/-- What the last exchange of a renter has given, if it has not failed. -/
def lastReturned (L : Journal signature) : Option Exchange :=
  (L.filterMap (fun y => returned? y.1)).getLast?.join

theorem lastReturned_of_expands {l : Journal CLI.signature}
    (hexpands : Expands (S := clients) (serve cfg available) (l.map liftRenter) L) :
    lastReturned L = CLI.lastResponse l := by
  have hseen : L.filterMap (fun y => returned? y.1) =
      (l.map liftRenter).filterMap (fun y => returned? (.returns y.1 y.2)) := by
    refine hexpands.filterMap_eq (fun y hy L' hserve => ?_)
    obtain ⟨⟨a, r⟩, -, rfl⟩ := List.mem_map.mp hy
    obtain ⟨hnone, rfl⟩ | ⟨q, x, L'', hq, -, hprog, rfl⟩ := leaves_serve_ret hserve
    · cases a with
      | exchangeCandidates req => cases hnone
      | _ => rfl
    · -- within a call nothing returns
      have hnil : L''.filterMap (fun y => returned? y.1) = [] := by
        refine List.filterMap_eq_nil_iff.mpr (fun z hz => ?_)
        obtain ⟨M₁, M₂, rfl⟩ := List.append_of_mem hz
        obtain ⟨k, hk⟩ := hprog.before
        obtain ⟨b, rb⟩ := z
        cases b with
        | returns => cases (hk.along (along_prog q)).1
        | _ => rfl
      rw [List.filterMap_append, hnil, List.nil_append, List.filterMap_cons]
      cases returned? _ <;> rfl
  have hlift : (fun y => returned? (.returns y.1 y.2)) ∘ liftRenter =
      fun y => CLI.response y.1 y.2 := by
    funext ⟨a, r⟩
    cases a <;> rfl
  rw [lastReturned, hseen, List.filterMap_map, hlift]
  rfl

end

/-! ## The config files -/

section

variable {sess : PolledSession} {stunAddr : String} {k₀ : Option String} {kp kpA : WGKeyPair} {j : Nat}
  {t : Registry.Server σ} (hstaffed : Staffed (fun n q => Party.prog D n q) h P)
  (hsides : D.cfg.provider ≠ "cli-user") (hsynced : Synced D sess.id k₀ (Entry.deeds h) t)
  (hmeets : Meets sess.id ⟨i, D.cfg.provider, kpA.publicKey⟩ ⟨j, "cli-user", kp.publicKey⟩ h)

include hstaffed hsides hsynced hmeets

theorem agent_keys (hi : (Entry.roles h)[i]? = some (.client (.goroutine (.startSession sess))))
    (hA : .does (i, ⟨.own (.provider .generateKeyPair), some kpA⟩) ∈ h) {m : Nat} {path : String}
    {config : WGConfig} {res : Except Agent.CallError Unit}
    (hsplit : h = before ++ .does (i, ⟨.own (.provider (.writeConfig m path config)), res⟩) :: after) :
    config.privateKey = kpA.privateKey ∧
      (config.peerPublicKey = kp.publicKey ↔ k₀ = some kp.publicKey ∨
        Before (Submits sess.id "cli-user") (Submits sess.id D.cfg.provider) (Entry.deeds before)) := by
  subst hsplit
  obtain ⟨_, a, hphase⟩ := phase_history hstaffed hi rfl
  obtain ⟨⟨l, b, rfl, hb, hconfigures⟩, hexpands⟩ := hphase.own
  cases hb
  obtain ⟨kpB, req, exch, hstands, hprivate, hpeer, hne, -⟩ := hconfigures
  obtain rfl := keyPair_unique hstaffed hi hA hexpands (Entry.ofThread_extends before _ i).subset
    hstands.keyPairs
  refine ⟨hprivate, ?_⟩
  -- the request of the exchange has not been lost
  have hanswered : ∀ req', ⟨.send (.exchangeCandidates req'), false⟩ ∉
      ofThread i (Entry.deeds before) := by
    intro req' hlost
    have hmem := exchange_of_lost hexpands hlost
    rw [hstands.exchanges] at hmem
    cases List.mem_singleton.mp hmem
  obtain ⟨l₁, l₂, rfl, hnil⟩ := Agent.exchanges_split hstands.exchanges
  rw [List.map_append, List.map_cons] at hexpands
  obtain ⟨L₁, id', other, L₂, hL, hkey, hl₂⟩ :=
    exchange_split hexpands (q := ⟨.exchangeCandidates req, false, CLI.exchanged⟩) rfl rfl rfl
      (fun x hx => hx.symm)
  obtain ⟨h₁, h₂, rfl, hh₂, hshown⟩ := hmeets.exchanged hsides hsynced (if_neg hsides) hL
  have hlast : ∀ y ∈ Entry.deeds h₂, ¬Submits sess.id D.cfg.provider y := by
    rintro ⟨k, a', r⟩ hy ⟨cs, hcs⟩
    obtain rfl : a' = .registry (.exchangeCandidates sess.id D.cfg.provider cs) := hcs
    obtain ⟨-, rfl | ⟨req', hlost⟩⟩ := hmeets.append.submitted hsides
      (by rw [Entry.deeds_append_cons]; exact List.mem_append_right _ (.tail _ hy)) rfl
    · refine not_exchanged_later hh₂ hl₂ (fun y hy' req' => ⟨fun hact => ?_, fun hact => ?_⟩) hy
      · obtain ⟨⟨b, rb⟩, hb, rfl⟩ := List.mem_map.mp hy'
        cases hact
        have hmem : (req', rb) ∈ Agent.exchanges l₂ := List.mem_filterMap.mpr ⟨_, hb, rfl⟩
        rw [hnil] at hmem
        cases hmem
      · obtain ⟨⟨b, rb⟩, hb, rfl⟩ := List.mem_map.mp hy'
        cases hact
    · exact hanswered req' (mem_ofThread.mpr (Entry.mem_deeds.mpr hlost))
  rw [Entry.deeds_append_cons, before_iff_last ⟨_, rfl⟩ hlast]
  rw [hpeer, hkey] at hne ⊢
  obtain ⟨hB, hsome⟩ | ⟨hB, hnone⟩ := hshown
  · rw [hB]
    exact iff_of_true rfl (.inr hsome)
  · rw [or_iff_left hnone]
    rw [if_pos rfl] at hB
    rw [hB] at hne ⊢
    cases k₀ with
    | none => exact absurd rfl hne
    | some k => exact Option.some_inj.symm

theorem renter_keys (hj : (Entry.roles h)[j]? = some (.client (.renter stunAddr sess.id kp)))
    (hne : kpA.publicKey ≠ "") {path : CLI.Path} {config : WGConfig} {res : Bool}
    (hsplit : h = before ++ .does (j, ⟨.own (.renter (.createFile path config)), res⟩) :: after) :
    config.privateKey = kp.privateKey ∧
      (config.peerPublicKey = kpA.publicKey ↔
        Before (Submits sess.id D.cfg.provider) (fun x => x.1 = j ∧ Submits sess.id "cli-user" x)
          (Entry.deeds before) ∧
        (lastReturned (ofThread j (Entry.deeds before))).isSome = true) := by
  subst hsplit
  obtain ⟨_, a, hphase⟩ := phase_history hstaffed hj rfl
  obtain ⟨⟨l, b, rfl, hb, hfills⟩, hexpands⟩ := hphase.own
  cases hb
  refine ⟨hfills.privateKey, ?_⟩
  rw [lastReturned_of_expands hexpands, hfills.peerPublicKey]
  cases hresponse : CLI.lastResponse l with
  | none => exact iff_of_false (Ne.symm hne) (fun h => by cases h.2)
  | some exch =>
    obtain ⟨l₁, req, l₂, rfl, hquiet⟩ := CLI.lastResponse_split hresponse
    rw [List.map_append, List.map_cons] at hexpands
    obtain ⟨L₁, id', other, L₂, hL, hkey, hl₂⟩ :=
      exchange_split hexpands (q := ⟨.exchangeCandidates req, false, CLI.exchanged⟩) rfl rfl rfl
        (fun x hx => hx.symm)
    obtain ⟨h₁, h₂, rfl, hh₂, hshown⟩ :=
      hmeets.symm.exchanged hsides.symm hsynced (if_pos rfl) hL
    have hlast : ∀ y ∈ Entry.deeds h₂, ¬(y.1 = j ∧ Submits sess.id "cli-user" y) := by
      rintro ⟨k, a', r⟩ hy ⟨rfl, cs, hcs⟩
      obtain rfl : a' = .registry (.exchangeCandidates sess.id "cli-user" cs) := hcs
      refine not_exchanged_later hh₂ hl₂ (fun y hy' req' => ⟨fun hact => ?_, fun hact => ?_⟩) hy
      · obtain ⟨⟨b, rb⟩, hb, rfl⟩ := List.mem_map.mp hy'
        cases hact
      · obtain ⟨⟨b, rb⟩, hb, rfl⟩ := List.mem_map.mp hy'
        cases hact
        cases hquiet _ hb
    rw [Entry.deeds_append_cons, before_iff_last ⟨rfl, _, rfl⟩ hlast, Option.getD_some, hkey]
    obtain ⟨hA, hsome⟩ | ⟨hA, hnone⟩ := hshown
    · rw [hA]
      exact iff_of_true rfl ⟨hsome, rfl⟩
    · rw [hA, if_neg hsides]
      exact iff_of_false (Ne.symm hne) (fun h => hnone h.1)

end

/-- The agent's config file has the key of a renter that connects if and only if the renter has
created the session with the same key, or an exchange of the renter has reached the registry before the
agent's, be it answered or not.  The renter's config file has the agent's key if and only if the last
of the renter's exchanges has been answered, and the agent's has reached the registry before it. -/
theorem tunnel_keys_iff (hS : D.store.Lawful) (hexact : D.store.Exact)
    (hsides : D.cfg.provider ≠ "cli-user") {sess : PolledSession} {stunAddr : String}
    {k₀ : Option String} {kp kpA : WGKeyPair}
    (hstored : (D.store.session s.server.store sess.id).isSome = true)
    (hcreated : ∀ p, (s.server.peers sess.id).lookup p =
      if p = "cli-user" then k₀.map (fun k => { wgPublicKey := k }) else none)
    (hrun : Step.run (next D) turns ⟨s, []⟩ = some P) (hh : history D turns ⟨s, []⟩ = h) {j : Nat}
    (hi : (Entry.roles h)[i]? = some (.client (.goroutine (.startSession sess))))
    (hj : (Entry.roles h)[j]? = some (.client (.renter stunAddr sess.id kp)))
    (hothers : Undisturbed sess.id i j h)
    (hA : .does (i, ⟨.own (.provider .generateKeyPair), some kpA⟩) ∈ h) (hne : kpA.publicKey ≠ "") :
    (∀ before m path config res after,
      h = before ++ .does (i, ⟨.own (.provider (.writeConfig m path config)), res⟩) :: after →
        config.privateKey = kpA.privateKey ∧
        (config.peerPublicKey = kp.publicKey ↔ k₀ = some kp.publicKey ∨
          Before (Submits sess.id "cli-user") (Submits sess.id D.cfg.provider)
            (Entry.deeds before))) ∧
    ∀ before path config res after,
      h = before ++ .does (j, ⟨.own (.renter (.createFile path config)), res⟩) :: after →
        config.privateKey = kp.privateKey ∧
        (config.peerPublicKey = kpA.publicKey ↔
          Before (Submits sess.id D.cfg.provider)
            (fun x => x.1 = j ∧ Submits sess.id "cli-user" x) (Entry.deeds before) ∧
          (lastReturned (ofThread j (Entry.deeds before))).isSome = true) := by
  subst hh
  have hstaffed := staffed_history hrun
  have hmeets := meets_history hS hexact hrun hstored (plays_agent hstaffed hi hA)
    (plays_renter hstaffed hj) hothers
  have hsynced := synced_history hsides (synced_nil hcreated) hrun (hmeets.fair rfl rfl)
  refine ⟨fun before m path config res after hsplit => ?_,
    fun before path config res after hsplit => ?_⟩
  · exact agent_keys hstaffed hsides hsynced hmeets hi hA hsplit
  · exact renter_keys hstaffed hsides hsynced hmeets hj hne hsplit

/-- A session that was created without a key is to be started. -/
def begun : State Tables :=
  { created with
    host := { spawned := [.startSession Agent.aSession] }
    server := { created.server with candidates := ∅ } }

/-- The second exchange of a renter is not answered. -/
def lossy : Setting Tables := { aSetting with answered := fun t => t ≠ 7 }

/-- A renter connects and waits for its peer, the agent starts the session, a request of the renter
comes late, and the renter asks again. -/
def lateRequest : List Turn :=
  .connect "localhost:3478" Agent.aSession.id ⟨"renter private key", "renter key"⟩ ::
    (List.replicate 8 (.step 0)).append (.begin 0 ::
      (List.replicate 20 (.step 1)).append (.arrive 0 ::
        (List.replicate 4 (.step 2)).append (.replicate 15 (.step 0))))

theorem tunnel_keys_late_request :
    (∃ before m path config res after, history lossy lateRequest ⟨begun, []⟩ =
        before ++ .does (1, ⟨.own (.provider (.writeConfig m path config)), res⟩) :: after ∧
      config.privateKey = "provider private key" ∧ config.peerPublicKey = "renter key" ∧
      Before (Submits Agent.aSession.id "cli-user") (Submits Agent.aSession.id "p")
        (Entry.deeds before)) ∧
    ∃ before path config res after, history lossy lateRequest ⟨begun, []⟩ =
        before ++ .does (0, ⟨.own (.renter (.createFile path config)), res⟩) :: after ∧
      config.privateKey = "renter private key" ∧ config.peerPublicKey = "provider key" ∧
      Before (Submits Agent.aSession.id "p")
        (fun x => x.1 = 0 ∧ Submits Agent.aSession.id "cli-user" x) (Entry.deeds before) ∧
      (lastReturned (ofThread 0 (Entry.deeds before))).isSome = true := by
  obtain ⟨P, hP⟩ := Option.isSome_iff_exists.mp
    (show (Step.run (next lossy) lateRequest ⟨begun, []⟩).isSome = true by decide +kernel)
  have hagent : ∃ m path config res, (history lossy lateRequest ⟨begun, []⟩)[29]? =
      some (.does (1, ⟨.own (.provider (.writeConfig m path config)), res⟩)) ∧
      config.peerPublicKey = "renter key" := ⟨_, _, _, _, rfl, rfl⟩
  have hrenter : ∃ path config res, (history lossy lateRequest ⟨begun, []⟩)[49]? =
      some (.does (0, ⟨.own (.renter (.createFile path config)), res⟩)) ∧
      config.peerPublicKey = "provider key" := ⟨_, _, _, rfl, rfl⟩
  have hkeyPair : (history lossy lateRequest ⟨begun, []⟩)[20]? = some (.does (1,
      ⟨.own (.provider .generateKeyPair), some ⟨"provider private key", "provider key"⟩⟩)) := rfl
  have hearly : ∀ d ∈ Entry.deeds ((history lossy lateRequest ⟨begun, []⟩).take 31),
      d.1 = 1 ∨ d.1 = 0 := by
    decide +kernel
  have hlost : ∃ c, (Entry.roles ((history lossy lateRequest ⟨begun, []⟩).take 31))[2]? =
        some (.straggler c) ∧
      .does (0, ⟨.send c, false⟩) ∈ (history lossy lateRequest ⟨begun, []⟩).take 31 :=
    ⟨_, rfl, List.mem_of_getElem? (i := 8) rfl⟩
  have hlate : ∀ d ∈ Entry.deeds (history lossy lateRequest ⟨begun, []⟩), d.1 < 3 := by
    decide +kernel
  have hroles : (Entry.roles (history lossy lateRequest ⟨begun, []⟩))[1]? =
        some (.client (.goroutine (.startSession Agent.aSession))) ∧
      (Entry.roles (history lossy lateRequest ⟨begun, []⟩))[0]? = some (.client (.renter
        "localhost:3478" Agent.aSession.id ⟨"renter private key", "renter key"⟩)) := ⟨rfl, rfl⟩
  generalize hh : history lossy lateRequest ⟨begun, []⟩ = h at *
  have hothers : Undisturbed Agent.aSession.id 1 0 h := by
    intro before k b res after hsplit
    by_cases hk : k = 1 ∨ k = 0
    · exact .inr (hk.imp_right .inl)
    -- whoever else acts at the registry does so after the request has begun to be executed
    have hnot : ¬before ++ [.does (k, ⟨.registry b, res⟩)] <+: h.take 31 := fun hp =>
      hk (hearly _ (Entry.mem_deeds.mpr (hp.subset (List.mem_append_right _ (.head _)))))
    have hbefore : h.take 31 <+: before := by
      obtain hp | hp := List.prefix_or_prefix_of_prefix ( List.take_prefix 31 h)
        (show before ++ [.does (k, ⟨.registry b, res⟩)] <+: h from ⟨after, by simp [hsplit]⟩)
      · obtain heq | hp := List.prefix_concat_iff.mp hp
        · exact absurd (heq ▸ List.prefix_rfl) hnot
        · exact hp
      · exact absurd hp hnot
    obtain rfl : k = 2 := by
      have hlt := hlate _ (Entry.mem_deeds.mpr (hsplit ▸ List.mem_append_right _ (.head _)))
      omega
    obtain ⟨rest, rfl⟩ := hbefore
    obtain ⟨c, hrole, hsent⟩ := hlost
    exact .inr (.inr (.inr ⟨c, 0, Entry.role_append hrole, .inr rfl, List.mem_append_left _ hsent⟩))
  have hcreated : ∀ p, (begun.server.peers Agent.aSession.id).lookup p =
      if p = "cli-user" then (none : Option String).map (fun k => { wgPublicKey := k }) else none :=
    fun p => by split <;> rfl
  have hkeys := tunnel_keys_iff (D := lossy) (memoryStore_lawful _) (memoryStore_exact _) (by decide)
    rfl hcreated hP hh hroles.1 hroles.2 hothers (List.mem_of_getElem? hkeyPair) (by decide)
  obtain ⟨m, path, config, res, hconfig, hpeer⟩ := hagent
  obtain ⟨before, after, hsplit⟩ := List.append_of_mem (List.mem_of_getElem? hconfig)
  obtain ⟨path', config', res', hconfig', hpeer'⟩ := hrenter
  obtain ⟨before', after', hsplit'⟩ := List.append_of_mem (List.mem_of_getElem? hconfig')
  obtain ⟨hprivate, hiff⟩ := hkeys.1 before m path config res after hsplit
  obtain ⟨hprivate', hiff'⟩ := hkeys.2 before' path' config' res' after' hsplit'
  refine ⟨⟨before, m, path, config, res, after, hsplit, hprivate, hpeer, ?_⟩,
    before', path', config', res', after', hsplit', hprivate', hpeer', hiff'.mp hpeer'⟩
  exact (hiff.mp hpeer).resolve_left nofun

end PeerCompute.Deployment
