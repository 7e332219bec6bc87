import PeerCompute.Agent.CustodyLaws

namespace PeerCompute.Agent

open PeerCompute.Data PeerCompute.Interleaving PeerCompute.Computev1 Prog Contract

/-- The actions of a round of `sessionLoop` or `heartbeatLoop`. -/
def Rounds : Action → Prop
  | .tracked _ | .sessionIDs | .listPending | .heartbeat _ | .go _ => True
  | _ => False

namespace Custody

variable {E : Env} {s : Host} {gs : List Part} {r : Resource} {w : Still}

theorem Covered.append (h : Covered gs s r) (q : Part) : Covered (gs ++ [q]) s r := by
  have hget : ∀ {j : Nat} {g : Part}, gs[j]? = some g → (gs ++ [q])[j]? = some g := fun hg =>
    (List.getElem?_append_left (List.getElem?_eq_some_iff.mp hg).1).trans hg
  obtain ⟨m, rs, hkeeps, hrest⟩ | ⟨j, g, hg, hc⟩ := h
  · refine .inl ⟨m, rs, ?_, hrest⟩
    obtain htracked | ⟨j, rs₀, ds, hg, hd⟩ := hkeeps
    · exact .inl htracked
    · exact .inr ⟨j, rs₀, ds, hget hg, hd⟩
  · exact .inr ⟨j, g, hget hg, hc⟩

/-- A goroutine begins. -/
theorem Inv.begin (h : Inv w gs s) {q : Part} (hq : q = .free ∨ q = .fresh gs.length) :
    Inv w (gs ++ [q]) s := by
  have hnone : s.objects.lookup gs.length = none := by
    cases hm : s.objects.lookup gs.length with
    | none => rfl
    | some rs => exact absurd (h.sane.bound _ rs hm) (Nat.lt_irrefl _)
  refine ⟨⟨fun m rs hm => ?_, h.sane.tracked, h.sane.unique⟩, fun j n g hg hn => ?_,
    fun j n hg => ?_, fun j g hg => ?_, fun r hr => (h.covered r hr).append q, fun j n hg => ?_⟩
  · rw [List.length_append]
    exact Nat.lt_add_right _ (h.sane.bound m rs hm)
  · obtain hg | ⟨rfl, rfl⟩ := getElem?_concat_elim hg
    · exact h.index j n g hg hn
    · obtain rfl | rfl := hq
      · cases hn
      · exact (Option.some.inj hn).symm
  · obtain hg | ⟨rfl, heq⟩ := getElem?_concat_elim hg
    · exact h.fresh j n hg
    · obtain rfl | rfl := hq
      · cases heq
      · cases heq
        exact hnone
  · obtain hg | ⟨rfl, rfl⟩ := getElem?_concat_elim hg
    · exact h.part j g hg
    · obtain rfl | rfl := hq <;> trivial
  · obtain hg | ⟨rfl, heq⟩ := getElem?_concat_elim hg
    · exact (h.promised j n hg).imp_right (fun hcov => hcov.append q)
    · obtain rfl | rfl := hq <;> cases heq

/-- Every goroutine keeps to the contract. -/
abbrev Governed (P : Daemon) : Prop := contract.DeliveredIn (fun g _ => g = .free) Inv .still P

theorem governed_new : Governed .new := by
  refine ⟨[], ⟨⟨fun m rs hm => ?_, fun id m hid => ?_, fun id id' m hid => ?_⟩, fun i n g hg => ?_,
    fun i n hg => ?_, fun i g hg => ?_, fun r hr => ?_, fun i n hg => ?_⟩, .nil⟩
  · cases hm
  · cases hid
  · cases hid
  · cases hg
  · cases hg
  · cases hg
  · cases r with
    | container id => cases hr
    | interface name => cases hr
    | proxy n => cases hr.1
  · cases hg

theorem Governed.next {cfg : Config} {P P' : Daemon} {t : Turn} (hP : Governed P)
    (hok : ∀ i, t = .step i → P.Obeys (exec E) Orderly i)
    (h : Daemon.next E cfg P t = some P') : Governed P' := by
  cases t with
  | created sess =>
    cases h
    obtain ⟨gs, hInv, hall⟩ := hP
    exact ⟨gs, hInv.quiet (.of_eq rfl rfl (fun _ hc => hc)) (fun r hr => by cases r <;> exact hr),
      hall⟩
  | poll =>
    cases h
    have hpoll : pollRound.Uses Quiet :=
      uses_pollRound.mono (fun _ => Polls.elim (fun _ => trivial) trivial (fun _ => trivial))
    exact hP.launch (fun gs _ hInv =>
      ⟨.free, delivers_quietly move_of_quiet hpoll (fun _ => rfl), hInv.begin (.inl rfl)⟩)
  | heartbeat =>
    cases h
    exact hP.launch (fun gs _ hInv =>
      ⟨.free, delivers_quietly move_of_quiet uses_heartbeatRound (fun _ => rfl),
        hInv.begin (.inl rfl)⟩)
  | shutdown =>
    cases h
    exact hP.launch (fun gs _ hInv => ⟨.free, delivers_cleanup, hInv.begin (.inl rfl)⟩)
  | begin k =>
    simp only [Daemon.next] at h
    split at h
    · cases h
    next b hb =>
      cases h
      refine hP.launch (fun gs hlen hInv => ?_)
      have hInv' : Inv .still gs { P.state with spawned := P.state.spawned.eraseIdx k } :=
        hInv.quiet (.of_eq rfl rfl (fun _ hc => hc)) (fun r hr => by cases r <;> exact hr)
      cases b with
      | startSession sess =>
        refine ⟨.fresh gs.length, ?_, hInv'.begin (.inr rfl)⟩
        rw [hlen]
        exact delivers_startSession cfg sess
      | stopSession id => exact ⟨.free, delivers_stopSession id, hInv'.begin (.inl rfl)⟩
  | step i =>
    obtain ⟨_, _, _, _, _, w', _, -, -, -, -, -, hP'⟩ :=
      hP.step contract_sound ((hok i rfl).next h)
    cases w'
    exact hP'

theorem answer_of_rounds {a : Action} (ha : Rounds a) :
    ∃ res : a.Res, Succeeds a res ∧ a.exited res = false := by
  cases a with
  | tracked => exact ⟨false, .inl rfl, rfl⟩
  | sessionIDs => exact ⟨[], .inl rfl, rfl⟩
  | listPending | heartbeat => exact ⟨none, .inl rfl, rfl⟩
  | go => exact ⟨(), .inl rfl, rfl⟩
  | _ => cases ha

/-- A goroutine that has only such a round left is answerable for nothing. -/
theorem free_of_rounds {g : Part} {p : Prog signature Unit} (hp : p.Uses Rounds)
    (h : contract.Delivers (fun g _ => g = .free) w g p) : g = .free := by
  induction p generalizing w with
  | ret x => rwa [delivers_ret] at h
  | act a k ih =>
    obtain ⟨ha, hk⟩ := hp
    obtain ⟨res, hres⟩ := answer_of_rounds ha
    obtain ⟨w', g', hm, h⟩ := delivers_act.mp h w le_rfl res hres
    cases hm with
    | quiet => exact ih res (hk res) h
    | reserve | present | create | assign | wgUp | release | register | proxy | take | absent | load |
      cancel | container | interface | drop => cases ha

end Custody

/-- If Docker and wg-quick succeed, and a session is stopped only when its start has registered
the SSH proxy, then whatever is left when no `startSession` and no `stopSession` is in progress
belongs to an entry of the map. -/
theorem tracked_when_settled {E : Env} {cfg : Config} {turns : List Turn} {P : Daemon}
    (hrun : Step.run (Daemon.next E cfg) turns .new = some P)
    (hcalls : Step.Along (Daemon.next E cfg) (Obeying E (fun a _ res => Succeeds a res)) turns .new)
    (hripe : Step.Along (Daemon.next E cfg) (Obeying E Ripe) turns .new)
    (hidle : ∀ p ∈ P.threads, p.Uses Rounds) {r : Resource} (hr : P.state.Has r) :
    P.state.Belongs r := by
  have hP : Custody.Governed P := by
    refine Step.run_induct (I := Custody.Governed) (fun hok hP h => hP.next (fun i ht => ?_) h)
      (hcalls.and hripe) Custody.governed_new hrun
    exact fun a k hi res s' hx => ⟨hok.1 i ht a k hi res s' hx, hok.2 i ht a k hi res s' hx⟩
  obtain ⟨gs, hInv, hall⟩ := hP
  have hfree : ∀ (j : Nat) (g : Custody.Part), gs[j]? = some g → g = .free := by
    intro j g hg
    obtain ⟨p, hp, hdelivers⟩ := forall₂_getElem? hall hg
    exact Custody.free_of_rounds (hidle p (List.mem_of_getElem? hp)) hdelivers
  obtain ⟨m, rs, hkeeps, hm, hrec⟩ | ⟨j, g, hg, hc⟩ := hInv.covered r hr
  · obtain ⟨id, hid⟩ | ⟨j, rs₀, ds, hg, -⟩ := hkeeps
    · exact ⟨id, m, rs, hid, hm, hrec⟩
    · cases hfree j _ hg
  · obtain rfl := hfree j g hg
    cases hc

def anotherSession : PolledSession :=
  { aSession with
    id := "c81d3a70-52be-4f0e-8c16-7b9d4e20f6a3"
    wgProviderIP := "10.99.2.1"
    wgRenterIP := "10.99.2.2"
    long := by decide }

/-- The reply to a heartbeat asks for the first session to be terminated. -/
def firstEnded : Env := { quietEnv with heartbeat := fun _ _ => some [aSession.id] }

/-- Two sessions are started at once.  When both are up, the first one is stopped. -/
def oneOfTwo : List Turn :=
  let both : List Turn := [.step 1, .step 2]
  List.flatten [[.created aSession, .created anotherSession, .poll], .replicate 5 (.step 0),
    [.begin 0, .begin 0], (List.replicate 21 both).flatten,
    [.heartbeat, .step 3, .step 3, .step 3, .begin 0], .replicate 13 (.step 4)]

theorem tracked_when_settled_up :
    ∃ P, Step.run (Daemon.next firstEnded aConfig) oneOfTwo .new = some P ∧
      P.state.containers.keys = ["id-16"] ∧ P.state.sessions.keys = [anotherSession.id] ∧
      P.state.Has (.container "id-16") ∧ P.state.Belongs (.container "id-16") := by
  have hview : (Step.run (Daemon.next firstEnded aConfig) oneOfTwo .new).map (fun P =>
      (decide P.Idle, P.state.containers.keys, P.state.sessions.keys,
        (P.state.containers.lookup "id-16").isSome)) =
      some (true, ["id-16"], [anotherSession.id], true) := by decide +kernel
  obtain ⟨P, hP, heq⟩ := Option.map_eq_some_iff.mp hview
  simp only [Prod.mk.injEq] at heq
  obtain ⟨hidle, hcontainers, hsessions, hup⟩ := heq
  refine ⟨P, hP, hcontainers, hsessions, hup, tracked_when_settled hP (by decide +kernel)
    (by decide +kernel) (fun p hp => ?_) hup⟩
  obtain ⟨x, rfl⟩ := of_decide_eq_true hidle p hp
  trivial

/-- The reply to a heartbeat has the session terminated. -/
def terminated : List Turn := [.heartbeat, .step 2, .step 2, .step 2, .begin 0]

/-- The session is stopped right after its reservation: `stopSession` finds nothing to stop, and
`startSession` goes on to start what nobody keeps track of. -/
theorem stopped_while_starting :
    ∃ P, Step.run (Daemon.next quietEnv aConfig) (polled ++ .step 1 :: terminated ++
        List.replicate 6 (.step 3) ++ List.replicate 20 (.step 1)) .new = some P ∧
      Step.Along (Daemon.next quietEnv aConfig) (Obeying quietEnv (fun a _ res => Succeeds a res))
        (polled ++ .step 1 :: terminated ++ List.replicate 6 (.step 3) ++
          List.replicate 20 (.step 1)) .new ∧
      P.Idle ∧ (∀ r, ¬P.state.Belongs r) ∧ P.state.Has (.container "id-17") ∧
      P.state.Has (.interface "pc-5f0c2b9e-7a4") ∧ P.state.Has (.proxy 1) := by
  have hview : (Step.run (Daemon.next quietEnv aConfig) (polled ++ .step 1 :: terminated ++
      List.replicate 6 (.step 3) ++ List.replicate 20 (.step 1)) .new).map
      (fun P => ((decide P.Idle, P.state.sessions.keys,
        (P.state.containers.lookup "id-17").isSome), (P.state.interfaces, P.state.proxies,
        P.state.cancelled))) =
      some ((true, [], true), (["pc-5f0c2b9e-7a4"], [1], [])) := by decide +kernel
  obtain ⟨P, hP, heq⟩ := Option.map_eq_some_iff.mp hview
  simp only [Prod.mk.injEq] at heq
  obtain ⟨⟨hidle, hkeys, hcontainer⟩, hinterfaces, hproxies, hcancelled⟩ := heq
  refine ⟨P, hP, by decide +kernel, of_decide_eq_true hidle, ?_, hcontainer, ?_, ?_, ?_⟩
  · rintro r ⟨id, m, rs, hid, -⟩
    have hmem : id ∈ P.state.sessions.keys := Map.mem_keys_iff.mpr ⟨m, hid⟩
    rw [hkeys] at hmem
    cases hmem
  · show _ ∈ P.state.interfaces
    rw [hinterfaces]
    exact .head _
  · rw [hproxies]
    exact .head _
  · rw [hcancelled]
    exact List.not_mem_nil

end PeerCompute.Agent
