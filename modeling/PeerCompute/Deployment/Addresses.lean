import PeerCompute.Deployment.Answers
import PeerCompute.Registry.Allocation
import PeerCompute.Registry.Roster

/-! The addresses of a tunnel: in the registry, and in the config files of its two sides. -/

namespace PeerCompute.Deployment

open PeerCompute.Interleaving PeerCompute.Plugin PeerCompute.Computev1 Prog Contract
open PeerCompute.Agent (PolledSession WGConfig orElse)
open PeerCompute.Registry (Roster)

variable {σ : Type} {D : Setting σ} {s s' : State σ}

/-! ## The roster of the registry -/

namespace Rosters

def Answers (w : Roster) : (a : Action) → a.Res → Prop
  | .registry b, res => Roster.Answers w b res
  | _, _ => True

/-- What is done outside of the registry changes nothing. -/
inductive Move (w : Roster) (g : Option String) :
    (a : Action) → a.Res → Roster → Option String → Prop
  | registry {b : Registry.Action} {res : b.Res} {w' : Roster} {g' : Option String}
      (h : Roster.Move w g b res w' g') : Move w g (.registry b) res w' g'
  | other {a : Action} {res : a.Res} (h : ∀ b, a ≠ .registry b) : Move w g a res w g

def contract : Contract signature Roster (Option String) where
  Answers := Answers
  Move := Move
  Done _ := True

def Inv (D : Setting σ) (w : Roster) (gs : List (Option String)) (s : State σ) : Prop :=
  Roster.Inv D.registry D.store w gs s.server

theorem contract_sound (hS : D.store.Lawful) (hinj : Function.Injective D.registry.uuid) :
    contract.Sound (exec D) (Inv D) where
  act {w gs s i g a r s'} h hg hx := by
    by_cases ha : ∃ b, a = .registry b
    · obtain ⟨b, rfl⟩ := ha
      obtain ⟨hans, hmove⟩ := (Roster.contract_sound hS hinj).act h hg (registry_exec hx)
      refine ⟨hans, fun w' g' hm => ?_⟩
      cases hm with
      | registry hm => exact hmove w' g' hm
      | other hne => exact absurd rfl (hne b)
    · have hne : ∀ b, a ≠ .registry b := fun b hb => ha ⟨b, hb⟩
      have hInv : Inv D w gs s' := by
        unfold Inv
        rw [server_exec hne hx]
        exact h
      refine ⟨?_, fun w' g' hm => ?_⟩
      · cases a with
        | registry b => exact absurd rfl (hne b)
        | _ => trivial
      · cases hm with
        | registry hm => exact absurd rfl (hne _)
        | other => exact ⟨le_rfl, by rw [set_self hg]; exact hInv⟩

/-- The program keeps to the contract, whenever it begins. -/
def Keeps {α : Type} (p : Prog signature α) : Prop := ∀ w g, contract.Follows w g p

theorem keeps_ret {α : Type} (x : α) : Keeps (.ret x) := fun _ _ => follows_ret.mpr trivial

theorem Keeps.bind {α β : Type} {p : Prog signature α} {f : α → Prog signature β} (hp : Keeps p)
    (hf : ∀ x, Keeps (f x)) : Keeps (p >>= f) :=
  fun w g => (hp w g).seq (fun w g x _ => hf x w g)

theorem keeps_other {a : Action} (ha : ∀ b, a ≠ .registry b) : Keeps (perform (S := signature) a) :=
  fun _ g => follows_act.mpr (fun w' _ _ _ => ⟨w', g, .other ha, follows_ret.mpr trivial⟩)

theorem keeps_handling (c : Registry.Rpc) : Keeps (handling c) := by
  intro w g
  refine Follows.expand (C := Roster.contract) (D := contract) (f := Call.registry) ?_ (fun _ h => h)
    (Roster.follows_handler c)
  intro w g a k hk
  refine follows_perform.mpr (fun w' hw r hr => ?_)
  obtain ⟨w'', g', hm, hfollows⟩ := hk w' hw r hr
  exact ⟨w'', g', .registry hm, hfollows⟩

theorem keeps_attempt (c : Registry.Rpc) : Keeps (attempt c) := by
  refine (keeps_other (a := .send c) (fun _ h => by cases h)).bind (fun ok => ?_)
  split
  · exact keeps_handling c
  · exact keeps_ret _

theorem keeps_persist (c : Registry.Rpc) : Keeps (persist c) := by
  have hdone : Keeps Call.done := keeps_other (a := .done) (fun _ h => by cases h)
  refine Keeps.bind (Retry.loop_closed (C := Keeps) keeps_ret Keeps.bind (fun resp => ?_) hdone
    (fun _ => hdone) 3 0 none _) (fun x => keeps_ret _)
  refine (keeps_attempt c).bind (fun resp => ?_)
  cases resp <;> exact keeps_ret _

theorem keeps_serve (cfg : Agent.Config) (available : Option Resources) (a : ClientAction) :
    Keeps (serve cfg available a) := by
  cases hq : request? cfg available a with
  | none =>
    rw [serve_own hq]
    exact keeps_other (fun _ h => by cases h)
  | some q =>
    rw [serve_call hq]
    have hreturns : ∀ x, Keeps (Call.returns a (q.read x)) :=
      fun x => keeps_other (a := .returns a (q.read x)) (fun _ h => by cases h)
    refine Keeps.bind ?_ (fun x => (hreturns x).bind (fun _ => keeps_ret _))
    unfold Request.prog
    split
    · exact keeps_persist q.rpc
    · exact keeps_attempt q.rpc

theorem keeps_party (n : Nat) (q : Party) : Keeps (q.prog D n) := by
  cases q with
  | client q => exact expand_closed (C := Keeps) keeps_ret Keeps.bind (keeps_serve _ _) _
  | caller c => exact (keeps_handling c).bind (fun _ => keeps_ret _)
  | straggler c => exact (keeps_handling c).bind (fun _ => keeps_ret _)

variable {P P' : Parties σ} {turns : List Turn} {w : Roster}

theorem governedIn_next (hS : D.store.Lawful) (hinj : Function.Injective D.registry.uuid) {t : Turn}
    (hP : contract.GovernedIn (Inv D) w P) (h : next D P t = some P') :
    ∃ w', w ≤ w' ∧ contract.GovernedIn (Inv D) w' P' := by
  have hbegins : (t.party P.state).map (fun q =>
      (⟨t.leaves P.state, P.threads ++ [q.prog D P.threads.length]⟩ : Parties σ)) = some P' →
      ∃ w', w ≤ w' ∧ contract.GovernedIn (Inv D) w' P' := by
    intro h
    obtain ⟨q, -, rfl⟩ := Option.map_eq_some_iff.mp h
    obtain ⟨gs, hInv, hall⟩ := hP
    have hserver : (t.leaves P.state).server = P.state.server := by cases t <;> rfl
    refine ⟨w, le_rfl, gs ++ [none], ?_,
      List.rel_append hall (.cons (keeps_party _ q w none) .nil)⟩
    unfold Inv
    rw [hserver]
    exact Roster.Inv.begins hInv
  cases t with
  | step i => exact hP.step (contract_sound hS hinj) h
  | _ => exact hbegins h

/-- What is on the roster stays there. -/
theorem governedIn_run (hS : D.store.Lawful) (hinj : Function.Injective D.registry.uuid)
    (hP : contract.GovernedIn (Inv D) w P) (hrun : Step.run (next D) turns P = some P') :
    ∃ w', w ≤ w' ∧ contract.GovernedIn (Inv D) w' P' := by
  refine Step.run_induct (I := fun P => ∃ w', w ≤ w' ∧ contract.GovernedIn (Inv D) w' P) ?_
    (Step.along_true turns P) ⟨w, le_rfl, hP⟩ hrun
  rintro P Q t - ⟨w', hw, hP⟩ hnext
  obtain ⟨w'', hw', hQ⟩ := governedIn_next hS hinj hP hnext
  exact ⟨w'', hw.trans hw', hQ⟩

theorem governed_start
    (hfresh : ∀ t, s.server.clock ≤ t → D.store.session s.server.store (D.registry.uuid t) = none) :
    contract.GovernedIn (Inv D) (Roster.ofStore D.store s.server.store) (⟨s, []⟩ : Parties σ) :=
  ⟨[], Roster.inv_ofStore hfresh, .nil⟩

/-- A stored session stays one with the same origin. -/
theorem session_kept (hS : D.store.Lawful) (hinj : Function.Injective D.registry.uuid)
    (hP : contract.GovernedIn (Inv D) w P) (hrun : Step.run (next D) turns P = some P') {id : String}
    {r : SessionRecord} (hr : D.store.session P.state.server.store id = some r) :
    ∃ r', D.store.session P'.state.server.store id = some r' ∧ r'.origin = r.origin := by
  obtain ⟨w', hw, gs', hInv', -⟩ := governedIn_run hS hinj hP hrun
  obtain ⟨gs, hInv, -⟩ := hP
  have hon : w.origin id = some r.origin := (Roster.Inv.origin hInv id).trans (by rw [hr]; rfl)
  exact Option.map_eq_some_iff.mp ((Roster.Inv.origin hInv' id).symm.trans (hw id _ hon))

end Rosters

/-! ## What has been read -/

/-- The addresses of a session that has been shown are those of its record. -/
def OnRecord (D : Setting σ) (s : State σ) (sess : Session) : Prop :=
  ∃ r, D.store.session s.server.store sess.id = some r ∧ r.wgProviderIP = sess.wgProviderIP ∧
    r.wgRenterIP = sess.wgRenterIP

/-- References that are given out for stored sessions. -/
def Gives (D : Setting σ) (given : Journal Registry.signature → Ref SessionRecord → Prop) :
    Prop :=
  ∀ l ref, given l ref → ∃ y ∈ l, ∀ t t', Registry.exec D.registry D.store y.1 t = some (y.2, t') →
    ∃ r, D.store.session t.store r.id = some r ∧ ref = D.store.handle r

theorem gives_got (hS : D.store.Lawful) : Gives D Registry.Got := by
  rintro l ref ⟨p, hmem⟩
  refine ⟨_, hmem, fun t t' h => ?_⟩
  exact hS.get_session (congrArg Prod.fst (Option.some.inj h))

theorem gives_listed (hlists : D.store.Lists) (filter : SessionFilter) :
    Gives D (Registry.Listed filter) := by
  rintro l ref ⟨refs, hmem, href⟩
  refine ⟨_, hmem, fun t t' h => ?_⟩
  exact hlists _ _ _ refs (congrArg Prod.fst (Option.some.inj h)) ref href

/-- What is read by such a reference is a session on record. -/
theorem onRecord_of_read (hS : D.store.Lawful) (hinj : Function.Injective D.registry.uuid)
    (hfresh : ∀ t, s.server.clock ≤ t → D.store.session s.server.store (D.registry.uuid t) = none)
    {turns : List Turn} {P : Parties σ} (hrun : Step.run (next D) turns ⟨s, []⟩ = some P) {j : Nat}
    {l : Journal Registry.signature}
    (hl : l.map liftRegistry <:+: ofThread j (Entry.deeds (history D turns ⟨s, []⟩)))
    {given : Journal Registry.signature → Ref SessionRecord → Prop} (hgives : Gives D given)
    {sess : Session} (hread : Registry.ReadBy given l sess) : OnRecord D P.state sess := by
  obtain ⟨l₁, ref, r, l₂, hsplit, hgiven, rfl⟩ := hread
  obtain ⟨turns₁, turns₂, Q, t, hrun₁, hl₁, hload, hrun₂, -⟩ := executed_at hrun hl hsplit
  obtain ⟨y, hy, hstored⟩ := hgives l₁ ref hgiven
  obtain ⟨turns₃, turns₄, R, u, hrun₃, hlookup, hrun₄, -⟩ := looked_up_at hrun₁ hl₁ hy
  obtain ⟨r₀, hr₀, rfl⟩ := hstored _ _ hlookup
  obtain ⟨wQ, -, hQ⟩ := Rosters.governedIn_run hS hinj (Rosters.governed_start hfresh) hrun₁
  obtain ⟨wR, -, hR⟩ := Rosters.governedIn_run hS hinj (Rosters.governed_start hfresh) hrun₃
  obtain ⟨r₁, hr₁, horigin⟩ := Rosters.session_kept hS hinj hR hrun₄ hr₀
  have hr : r.origin = r₀.origin := by
    obtain rfl | rfl := load_exec hr₁ hload
    · exact horigin
    · rfl
  obtain ⟨r₂, hr₂, horigin₂⟩ := Rosters.session_kept hS hinj hQ hrun₂ hr₁
  have hsame : r₂.origin = r.origin := horigin₂.trans (horigin.trans hr.symm)
  have hips : r₂.origin.wgProviderIP = r.origin.wgProviderIP ∧
      r₂.origin.wgRenterIP = r.origin.wgRenterIP := by
    rw [hsame]
    exact ⟨rfl, rfl⟩
  refine ⟨r₂, ?_, hips⟩
  change D.store.session P.state.server.store r.origin.id = some r₂
  rw [hr]
  exact hr₂

/-! ## The config files -/

section

variable {h : List (Entry signature Party)} {P : Parties σ}

/-- A config file of the agent is written by a start, with the addresses of its session. -/
theorem agent_config (hstaffed : Staffed (fun n q => Party.prog D n q) h P) {i m : Nat}
    {path : String} {config : WGConfig} {res : Except Agent.CallError Unit}
    (hmem : .does (i, ⟨.own (.provider (.writeConfig m path config)), res⟩) ∈ h) :
    ∃ sess, (Entry.roles h)[i]? = some (.client (.goroutine (.startSession sess))) ∧
      path = Agent.configPath sess.id ∧ config.tunnelIP = orElse sess.wgProviderIP "10.99.0.1" ∧
      config.peerIP = orElse sess.wgRenterIP "10.99.0.2" := by
  obtain ⟨q, l, hq, hdoes, -⟩ := answered_history hstaffed hmem
  obtain ⟨l, -, hprovides⟩ := hdoes.provider
  cases q with
  | poll => cases hprovides.2
  | heartbeat => cases hprovides.2
  | shutdown =>
    obtain ⟨id, hid⟩ := hprovides
    cases hid
  | goroutine g =>
    cases g with
    | startSession sess =>
      obtain ⟨_, _, _, -, -, -, -, htunnel, hpeer, hpath⟩ := hprovides
      exact ⟨sess, hq, hpath, htunnel, hpeer⟩
    | stopSession id => cases hprovides
  | renter => cases hprovides

/-- A config file of a renter has the addresses that the registry was asked for. -/
theorem renter_config (hstaffed : Staffed (fun n q => Party.prog D n q) h P) {j : Nat}
    {path : CLI.Path} {config : WGConfig} {res : Bool}
    (hmem : .does (j, ⟨.own (.renter (.createFile path config)), res⟩) ∈ h) :
    ∃ sessionID found, .does (j, ⟨.returns (.renter (.getSession ⟨sessionID⟩)) found, ()⟩) ∈ h ∧
      config.tunnelIP = (CLI.sessionIPs found).renterIP ∧
      config.peerIP = (CLI.sessionIPs found).providerIP ∧
      ∀ f, found = some f → ∃ l, l.map liftRegistry <:+: ofThread j (Entry.deeds h) ∧
        Registry.ReadBy Registry.Got l f := by
  obtain ⟨q, l, -, hdoes, hanswered⟩ := answered_history hstaffed hmem
  obtain ⟨stunAddr, sessionID, kp, l, rfl, rfl, -, -, found, hfetch, htunnel, hpeer⟩ := hdoes.renter
  obtain ⟨hreturns, x, hx, hanswer⟩ := hanswered _
    (List.mem_map_of_mem (f := liftRenter) (CLI.mem_of_lastFetch hfetch)) _ rfl
  refine ⟨sessionID, found, hreturns, htunnel, hpeer, fun f hf => ?_⟩
  have hfetched : CLI.fetched x = some f := hx.symm.trans hf
  obtain rfl : x = .ok (.getSession f) := fetched_eq_some hfetched
  obtain ⟨e, he⟩ | ⟨l', hleaves, hpart⟩ := hanswer
  · cases he
  · exact ⟨l', hpart, hleaves.along (Registry.along_getSession _) f rfl⟩

end

/-- Whoever else calls the registry in the meantime, and whichever requests get lost: a config file of
the agent has the addresses of the session's record, and that of a renter who has found the session
has the same ones the other way round.  A renter who has not found it has those of the first
tunnel. -/
theorem tunnel_addresses (hS : D.store.Lawful) (hlists : D.store.Lists)
    (hinj : Function.Injective D.registry.uuid)
    (hfresh : ∀ t, s.server.clock ≤ t → D.store.session s.server.store (D.registry.uuid t) = none)
    (hspawned : s.host.spawned = []) {turns : List Turn} {P : Parties σ}
    (hrun : Step.run (next D) turns ⟨s, []⟩ = some P) {h : List (Entry signature Party)}
    (hh : history D turns ⟨s, []⟩ = h) {i m : Nat} {path : String} {config : WGConfig}
    {res : Except Agent.CallError Unit}
    (hwrite : .does (i, ⟨.own (.provider (.writeConfig m path config)), res⟩) ∈ h) :
    ∃ sess r, (Entry.roles h)[i]? = some (.client (.goroutine (.startSession sess))) ∧
      (∃ k sessions, .does (k, ⟨.returns (.provider .listPending) (some sessions), ()⟩) ∈ h ∧
        sess ∈ sessions) ∧
      D.store.session P.state.server.store sess.id = some r ∧ path = Agent.configPath sess.id ∧
      config.tunnelIP = orElse r.wgProviderIP "10.99.0.1" ∧
      config.peerIP = orElse r.wgRenterIP "10.99.0.2" ∧
      ∀ j path' config' res', .does (j, ⟨.own (.renter (.createFile path' config')), res'⟩) ∈ h →
        ∃ sessionID found, .does (j, ⟨.returns (.renter (.getSession ⟨sessionID⟩)) found, ()⟩) ∈ h ∧
          (found = none → config'.tunnelIP = "10.99.0.2" ∧ config'.peerIP = "10.99.0.1") ∧
          ∀ f, found = some f → f.id = sess.id →
            config'.tunnelIP = config.peerIP ∧ config'.peerIP = config.tunnelIP := by
  subst hh
  have hstaffed := staffed_history hrun
  obtain ⟨sess, hrole, hpath, htunnel, hpeer⟩ := agent_config hstaffed hwrite
  obtain ⟨k, hgo⟩ := launched_history hspawned hrun _ (.inr (List.mem_of_getElem? hrole))
  obtain ⟨sessions, hsess, hlisted, l, hl, hread⟩ := listed_history hstaffed hgo
  obtain ⟨r, hr, hprovider, hrenter⟩ :=
    onRecord_of_read hS hinj hfresh hrun hl (gives_listed hlists _) hread
  refine ⟨sess, r, hrole, ⟨k, sessions, hlisted, hsess⟩, hr, hpath, hprovider ▸ htunnel,
    hrenter ▸ hpeer, ?_⟩
  intro j path' config' res' hcreate
  obtain ⟨sessionID, found, hdeed, htunnel', hpeer', hfound⟩ := renter_config hstaffed hcreate
  refine ⟨sessionID, found, hdeed, ?_, ?_⟩
  · rintro rfl
    exact ⟨htunnel', hpeer'⟩
  · rintro f rfl hid
    obtain ⟨l', hl', hread'⟩ := hfound f rfl
    obtain ⟨r', hr', hprovider', hrenter'⟩ :=
      onRecord_of_read hS hinj hfresh hrun hl' (gives_got hS) hread'
    rw [hid, hr] at hr'
    cases hr'
    rw [htunnel', hpeer', htunnel, hpeer, ← hprovider, ← hrenter, hprovider', hrenter']
    exact ⟨rfl, rfl⟩

/-- The agent finds the session and starts it, and the renter connects. -/
def startedThenConnected : List Turn :=
  .poll :: (List.replicate 6 (.step 0)).append (.begin 0 ::
    (List.replicate 20 (.step 1)).append
      (.connect "localhost:3478" Agent.aSession.id ⟨"renter private key", "renter key"⟩ ::
        .replicate 14 (.step 2)))

theorem fresh_secondTunnel (t : Nat) :
    aSetting.store.session secondTunnel.server.store (Registry.countingEnv.uuid t) = none := by
  have hne : Registry.countingEnv.uuid t ≠ secondSession.id := by
    intro hid
    have hhead := congrArg (fun id => id.toList.head?) hid
    simp [Registry.countingEnv, secondSession, Agent.aSession] at hhead
  exact (Data.Map.lookup_insert Tables.empty.sessions _ _ secondSession).trans (if_neg hne)

/-- What the renters have found. -/
def found? : Entry signature Party → Option (Option Session)
  | .does (_, ⟨.returns (.renter (.getSession _)) found, _⟩) => some found
  | _ => none

theorem tunnel_addresses_second :
    ∃ path path' config config' res res' sessionID f,
      .does (1, ⟨.own (.provider (.writeConfig 1 path config)), res⟩) ∈
        history aSetting startedThenConnected ⟨secondTunnel, []⟩ ∧
      .does (2, ⟨.own (.renter (.createFile path' config')), res'⟩) ∈
        history aSetting startedThenConnected ⟨secondTunnel, []⟩ ∧
      .does (2, ⟨.returns (.renter (.getSession ⟨sessionID⟩)) (some f), ()⟩) ∈
        history aSetting startedThenConnected ⟨secondTunnel, []⟩ ∧
      f.id = Agent.aSession.id ∧ config.tunnelIP = "10.99.1.1" ∧
      config'.tunnelIP = config.peerIP ∧ config'.peerIP = config.tunnelIP := by
  obtain ⟨P, hP⟩ := Option.isSome_iff_exists.mp
    (show (Step.run (next aSetting) startedThenConnected ⟨secondTunnel, []⟩).isSome = true by
      decide +kernel)
  have hwrite : ∃ path config res, (history aSetting startedThenConnected ⟨secondTunnel, []⟩)[27]? =
      some (.does (1, ⟨.own (.provider (.writeConfig 1 path config)), res⟩)) ∧
        config.tunnelIP = "10.99.1.1" := ⟨_, _, _, rfl, rfl⟩
  have hcreate : ∃ path config res, (history aSetting startedThenConnected ⟨secondTunnel, []⟩)[42]? =
      some (.does (2, ⟨.own (.renter (.createFile path config)), res⟩)) := ⟨_, _, _, rfl⟩
  have hstart : ∃ sess, (Entry.roles (history aSetting startedThenConnected ⟨secondTunnel, []⟩))[1]? =
      some (.client (.goroutine (.startSession sess))) ∧ sess.id = Agent.aSession.id := ⟨_, rfl, rfl⟩
  have hfound : ∃ f, (history aSetting startedThenConnected ⟨secondTunnel, []⟩).filterMap found? =
      [some f] ∧ f.id = Agent.aSession.id := ⟨_, rfl, rfl⟩
  obtain ⟨path, config, res, hwrite, hip⟩ := hwrite
  obtain ⟨path', config', res', hcreate⟩ := hcreate
  obtain ⟨sess', hstart, hid⟩ := hstart
  obtain ⟨f, hfound, hf⟩ := hfound
  obtain ⟨sess, r, hrole, -, -, -, -, -, hrenter⟩ := tunnel_addresses (D := aSetting)
    (memoryStore_lawful _) (memoryStore_exact _).lists Registry.countingEnv_uuid_injective
    (fun t _ => fresh_secondTunnel t) rfl hP rfl (List.mem_of_getElem? hwrite)
  obtain ⟨sessionID, found, hdeed, -, hips⟩ :=
    hrenter 2 path' config' res' (List.mem_of_getElem? hcreate)
  obtain rfl : sess = sess' := by
    cases hrole.symm.trans hstart
    rfl
  obtain rfl : found = some f := by
    have hmem : found ∈ (history aSetting startedThenConnected ⟨secondTunnel, []⟩).filterMap found? :=
      List.mem_filterMap.mpr ⟨_, hdeed, rfl⟩
    rw [hfound] at hmem
    exact List.mem_singleton.mp hmem
  exact ⟨path, path', config, config', res, res', sessionID, f, List.mem_of_getElem? hwrite,
    List.mem_of_getElem? hcreate, hdeed, hf, hip, hips f rfl (hf.trans hid.symm)⟩

end PeerCompute.Deployment
