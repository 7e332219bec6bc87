import PeerCompute.Deployment.Run
import PeerCompute.Registry.Peers
import PeerCompute.Registry.Polls

/-! What the clients are told, and when the registry has looked it up. -/

namespace PeerCompute.Deployment

open PeerCompute.Interleaving PeerCompute.Plugin PeerCompute.Computev1 Prog
open PeerCompute.Agent (PolledSession)

variable {σ : Type} {D : Setting σ} {s s' : State σ}

theorem registry_exec {b : Registry.Action} {res : b.Res}
    (h : exec D (.registry b) s = some (res, s')) :
    Registry.exec D.registry D.store b s.server = some (res, s'.server) := by
  obtain ⟨y, hy, heq⟩ := Option.map_eq_some_iff.mp h
  cases heq
  obtain ⟨z, hz, rfl⟩ := Option.map_eq_some_iff.mp hy
  exact hz

/-- Everything else leaves the registry alone. -/
theorem server_exec {a : Action} {res : a.Res} (ha : ∀ b, a ≠ .registry b)
    (h : exec D a s = some (res, s')) : s'.server = s.server := by
  obtain ⟨y, hy, heq⟩ := Option.map_eq_some_iff.mp h
  cases heq
  cases a with
  | registry b => exact absurd rfl (ha b)
  | own a =>
    cases a with
    | provider a =>
      cases hy
      rfl
    | renter a =>
      simp only [State.act, State.actOwn] at hy
      obtain ⟨z, -, rfl⟩ := Option.map_eq_some_iff.mp hy
      rfl
  | send c =>
    simp only [State.act] at hy
    split at hy <;> cases hy <;> rfl
  | done =>
    cases hy
    rfl
  | returns a r =>
    cases hy
    rfl

/-- A stored session stays stored. -/
theorem stored_run (hS : D.store.Lawful) {turns : List Turn} {P P' : Parties σ}
    (hrun : Step.run (next D) turns P = some P') {id : String}
    (hid : (D.store.session P.state.server.store id).isSome = true) :
    (D.store.session P'.state.server.store id).isSome = true := by
  refine Step.run_induct (I := fun P : Parties σ =>
    (D.store.session P.state.server.store id).isSome = true) ?_ (Step.along_true turns P) hid hrun
  rintro P Q t - hid hnext
  obtain ⟨q, -, -, rfl⟩ | ⟨i, a, k, r, s, -, hact, -, rfl⟩ := next_eq_some hnext
  · cases t <;> exact hid
  · by_cases ha : ∃ b, a = .registry b
    · obtain ⟨b, rfl⟩ := ha
      exact Registry.isSome_exec hS hid (registry_exec hact)
    · rw [server_exec (fun b hb => ha ⟨b, hb⟩) hact]
      exact hid

/-- What is loaded is the session as it is now, or the copy that the handler has. -/
theorem load_exec {t t' : Registry.Server σ} {r r₀ r₁ : SessionRecord}
    (hr₁ : D.store.session t.store r₀.id = some r₁)
    (hload : Registry.exec D.registry D.store (.loadSession (D.store.handle r₀)) t = some (r, t')) :
    r = r₁ ∨ r = r₀ := by
  obtain rfl : D.store.loadSession t.store (D.store.handle r₀) = r :=
    congrArg Prod.fst (Option.some.inj hload)
  unfold Store.handle
  split
  · left
    simp only [Store.loadSession, hr₁, Option.getD_some]
  · exact .inr rfl

/-! ## When it has been looked up -/

section

variable {P P' : Parties σ} {turns : List Turn} {j : Nat} {l : Journal Registry.signature}

/-- The moment of an action in a call that the thread `j` has executed. -/
theorem executed_at (hrun : Step.run (next D) turns P = some P')
    (hl : l.map liftRegistry <:+: ofThread j (Entry.deeds (history D turns P)))
    {l₁ l₂ : Journal Registry.signature} {b : Registry.Action} {res : b.Res}
    (hsplit : l = l₁ ++ ⟨b, res⟩ :: l₂) :
    ∃ turns₁ turns₂ Q t, Step.run (next D) turns₁ P = some Q ∧
      l₁.map liftRegistry <:+: ofThread j (Entry.deeds (history D turns₁ P)) ∧
      Registry.exec D.registry D.store b Q.state.server = some (res, t) ∧
      Step.run (next D) turns₂ Q = some P' ∧
      chronicle D turns₁ P ++ [(Q.state, .does (j, ⟨.registry b, res⟩))] <+: chronicle D turns P := by
  obtain ⟨M₁, M₂, hM⟩ := hl
  rw [hsplit, List.map_append, List.map_cons, ← List.append_assoc, List.append_assoc] at hM
  obtain ⟨turns₁, turns₂, Q, s, hrun₁, hbefore, hexec, hrun₂, hchronicle⟩ := moment hrun hM.symm
  exact ⟨turns₁, turns₂, Q, s.server, hrun₁, hbefore ▸ (List.suffix_append _ _).isInfix,
    registry_exec hexec, hrun₂, hchronicle⟩

theorem looked_up_at (hrun : Step.run (next D) turns P = some P')
    (hl : l.map liftRegistry <:+: ofThread j (Entry.deeds (history D turns P)))
    {b : Registry.Action} {res : b.Res} (hmem : ⟨b, res⟩ ∈ l) :
    ∃ turns₁ turns₂ Q t, Step.run (next D) turns₁ P = some Q ∧
      Registry.exec D.registry D.store b Q.state.server = some (res, t) ∧
      Step.run (next D) turns₂ Q = some P' ∧ ∃ e, (Q.state, e) ∈ chronicle D turns P := by
  obtain ⟨l₁, l₂, hsplit⟩ := List.append_of_mem hmem
  obtain ⟨turns₁, turns₂, Q, t, hrun₁, -, hexec, hrun₂, hchronicle⟩ := executed_at hrun hl hsplit
  exact ⟨turns₁, turns₂, Q, t, hrun₁, hexec, hrun₂, _,
    hchronicle.subset (List.mem_append_right _ (.head _))⟩

end

/-! ## What the agent is told -/

section

variable {P : Parties σ} {h : List (Entry signature Party)} {j : Nat}

theorem mem_listed {x : Except Status Response} {l : List PolledSession} {sess : PolledSession}
    (hl : listed x = some l) (hsess : sess ∈ l) :
    ∃ sessions, x = .ok (.listProviderSessions sessions) ∧ sess.toSession ∈ sessions := by
  unfold listed at hl
  split at hl
  next sessions =>
    cases hl
    obtain ⟨y, hy, hpolled⟩ := List.mem_filterMap.mp hsess
    unfold polled at hpolled
    split at hpolled
    next =>
      cases hpolled
      exact ⟨sessions, rfl, hy⟩
    next => cases hpolled
  next => cases hl

theorem fetched_eq_some {x : Except Status Response} {sess : Session}
    (hx : CLI.fetched x = some sess) : x = .ok (.getSession sess) := by
  unfold CLI.fetched at hx
  split at hx
  next =>
    cases hx
    rfl
  next => cases hx

theorem terminations_eq_some {x : Except Status Response} {ids : List String}
    (hids : terminations x = some ids) : ∃ ack, x = .ok (.heartbeat ack ids) := by
  unfold terminations at hids
  split at hids
  next ack ids' =>
    cases hids
    exact ⟨ack, rfl⟩
  next => cases hids

/-- The call by which a client has been told something. -/
theorem answered_history (hstaffed : Staffed (fun n q => Party.prog D n q) h P) {b : ClientAction}
    {rb : b.Res} (hmem : .does (j, ⟨.own b, rb⟩) ∈ h) :
    ∃ q l, (Entry.roles h)[j]? = some (.client q) ∧ q.Does D.cfg l b ∧
      ∀ y ∈ l, ∀ rq, request? D.cfg D.available y.1 = some rq →
        .does (j, ⟨.returns y.1 y.2, ()⟩) ∈ h ∧
        ∃ x, y.2 = rq.read x ∧ Answer rq.rpc (ofThread j (Entry.deeds h)) x := by
  obtain ⟨before, after, rfl⟩ := List.append_of_mem hmem
  obtain ⟨q, l, hq, hdoes, hexpands⟩ := own_history hstaffed rfl
  refine ⟨q, l, Entry.role_append hq, hdoes, fun y hy rq hrq => ?_⟩
  obtain ⟨hreturns, x, hx, hanswer⟩ := returned_of_expands hexpands hy hrq
  refine ⟨List.mem_append_left _ (Entry.mem_deeds.mp (mem_ofThread.mp hreturns)), x, hx, ?_⟩
  exact hanswer.among (Entry.ofThread_extends _ _ j).isInfix

/-- The session of a start has been listed to the agent. -/
theorem listed_history (hstaffed : Staffed (fun n q => Party.prog D n q) h P) {sess : PolledSession}
    (hmem : .does (j, ⟨.own (.provider (.go (.startSession sess))), ()⟩) ∈ h) :
    ∃ sessions, sess ∈ sessions ∧
      .does (j, ⟨.returns (.provider .listPending) (some sessions), ()⟩) ∈ h ∧
      ∃ l, l.map liftRegistry <:+: ofThread j (Entry.deeds h) ∧
        Registry.ReadBy (Registry.Listed { providerID := D.cfg.provider, status := "pending" }) l
          sess.toSession := by
  obtain ⟨q, l, -, hdoes, hanswered⟩ := answered_history hstaffed hmem
  obtain ⟨l, rfl, hprovides⟩ := hdoes.provider
  obtain ⟨sessions, hlisted, hsess⟩ := hprovides.listed
  obtain ⟨hreturns, x, hx, hanswer⟩ :=
    hanswered _ (List.mem_map_of_mem (f := liftProvider) hlisted) _ rfl
  obtain ⟨ss, rfl, hss⟩ := mem_listed hx.symm hsess
  obtain ⟨e, he⟩ | ⟨l', hleaves, hpart⟩ := hanswer
  · cases he
  · exact ⟨sessions, hsess, hreturns, l', hpart,
      hleaves.along (Registry.along_listProviderSessions _) ss rfl _ hss⟩

/-- The session of a stop has been asked for. -/
theorem asked_history (hstaffed : Staffed (fun n q => Party.prog D n q) h P) {id : String}
    (hmem : .does (j, ⟨.own (.provider (.go (.stopSession id))), ()⟩) ∈ h) :
    ∃ l, l.map liftRegistry <:+: ofThread j (Entry.deeds h) ∧ Registry.Ended l id := by
  obtain ⟨q, l, -, hdoes, hanswered⟩ := answered_history hstaffed hmem
  obtain ⟨l, rfl, hprovides⟩ := hdoes.provider
  obtain ⟨active, ids, hreply, hid⟩ := hprovides.asked
  obtain ⟨-, x, hx, hanswer⟩ :=
    hanswered _ (List.mem_map_of_mem (f := liftProvider) hreply) _ rfl
  obtain ⟨ack, rfl⟩ := terminations_eq_some hx.symm
  obtain ⟨e, he⟩ | ⟨l', hleaves, hpart⟩ := hanswer
  · cases he
  · exact ⟨l', hpart, hleaves.along (Registry.along_heartbeat _) ack ids rfl id hid⟩

end

end PeerCompute.Deployment
