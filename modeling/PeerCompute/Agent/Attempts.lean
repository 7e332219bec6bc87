import PeerCompute.Agent.ExclusionLaws

namespace PeerCompute.Agent

open PeerCompute.Data PeerCompute.Interleaving PeerCompute.Computev1 Prog Contract

/-- A turn that has no session stopped. -/
def Starts : Turn → Prop
  | .heartbeat | .shutdown => False
  | .created _ | .poll | .begin _ | .step _ => True

instance decidableStarts : DecidablePred Starts
  | .heartbeat | .shutdown => .isFalse (fun h => h)
  | .created _ | .poll | .begin _ | .step _ => .isTrue trivial

namespace Exclusion

variable {E : Env} {cfg : Config} {s s' : Host} {gs : List Part} {i : Nat} {g g' : Part}
  {id : String} {a : Action} {res : a.Res} {w : Still}

/-- What a cleanup removes is its own, as far as it has been made for the same session. -/
theorem Inv.cleansOwn (h : Inv E id w gs s) (hg : gs[i]? = some g) (hm : Move g a res g')
    (hx : exec E a s = some (res, s')) (hi : s.attempts.lookup i = some ⟨id, .cleaning⟩)
    {x : Item} {j : Nat} {phase : Phase} (hj : s.creator x = some j) (hgone : s'.creator x = none)
    (hsame : s.attempts.lookup j = some ⟨id, phase⟩) : j = i := by
  have hstarting : ∀ {n id' own made}, g ≠ .starting n id' own made := by
    rintro n id' own made rfl
    obtain rfl := h.index i n _ hg rfl
    have hattempt := (h.part n _ hg).1
    rw [hi] at hattempt
    cases hattempt
  have hfresh : ∀ {n}, g ≠ .fresh n := by
    rintro n rfl
    obtain rfl := h.index i n _ hg rfl
    have hattempt : s.attempts.lookup n = none := h.part n _ hg
    rw [hi] at hattempt
    cases hattempt
  have hsteady : ¬Steady s s' := by
    intro hsteady
    rw [hsteady.creator, hj] at hgone
    cases hgone
  cases hm with
  | quiet ha => exact absurd (quiet_exec ha hx) hsteady
  | reserve | present => exact absurd rfl hfresh
  | stale | network | noNetwork | collision | create | noContainer | record | write | release =>
    exact absurd rfl hstarting
  | load => exact absurd (quiet_exec (a := .load _) trivial hx) hsteady
  | @container n id' rs _ hc =>
    obtain rfl := h.index i n _ hg rfl
    obtain ⟨-, c, -, hread, hrecorded⟩ := h.part n _ hg
    obtain rfl := hread rs rfl
    obtain rfl | rfl := exec_containerRemove_eq hx
    · exact absurd (Steady.refl s).tick hsteady
    · obtain rfl := lost_eraseContainer hj hgone
      exact (hrecorded hc).1.2 j hj
  | @unlink n id' rs _ hc =>
    obtain rfl := h.index i n _ hg rfl
    obtain ⟨hattempt, c, -, hread, hrecorded⟩ := h.part n _ hg
    obtain rfl := hread rs rfl
    rw [hi] at hattempt
    cases hattempt
    obtain rfl | rfl := exec_networkRemove hx
    · exact absurd (Steady.refl s).tick hsteady
    · obtain rfl := lost_eraseNetwork hj hgone
      exact (hrecorded hc).2 rfl j hj phase hsame
  | clean =>
    cases x with
    | config path =>
      obtain ⟨hunderway, -⟩ := h.sane.configs path j phase hj hsame
      exact h.sane.exclusive j i hunderway (.inr hi)
    | container c | network name =>
      obtain ⟨configs, rfl, -⟩ := exec_removeConfig hx
      cases hj.symm.trans hgone

theorem Inv.begin (h : Inv E id w gs s) {q : Part} (hq : q = .idle ∨ q = .fresh gs.length) :
    Inv E id w (gs ++ [q]) s := by
  have hnone : s.attempts.lookup gs.length = none := by
    cases hm : s.attempts.lookup gs.length with
    | none => rfl
    | some a => exact absurd (h.sane.bound _ a hm) (Nat.lt_irrefl _)
  have hlen : gs.length ≤ (gs ++ [q]).length := by simp
  refine ⟨⟨fun m a hm => Nat.lt_of_lt_of_le (h.sane.bound m a hm) hlen, h.sane.entry,
    h.sane.exclusive, h.sane.networks, h.sane.files, h.sane.configs, h.sane.spawned⟩,
    fun j n g hg hn => ?_, fun j g hg => ?_⟩
  · obtain hg | ⟨rfl, rfl⟩ := getElem?_concat_elim hg
    · exact h.index j n g hg hn
    · obtain rfl | rfl := hq
      · cases hn
      · exact (Option.some.inj hn).symm
  · obtain hg | ⟨rfl, rfl⟩ := getElem?_concat_elim hg
    · exact h.part j g hg
    · obtain rfl | rfl := hq
      · trivial
      · exact hnone

/-- Every goroutine keeps to the contract. -/
abbrev Governed (E : Env) (id : String) (P : Daemon) : Prop :=
  contract.DeliveredIn (fun _ _ => True) (Inv E id) .still P

theorem governed_new : Governed E id .new := by
  refine ⟨[], ⟨⟨fun m a hm => ?_, fun m id' hm => ?_, fun m n hm _ => ?_, fun name m hm => ?_,
    fun path m hm => ?_, fun path m phase hm => ?_, fun g hg => ?_⟩, fun i n g hg => ?_,
    fun i g hg => ?_⟩, .nil⟩
  · cases hm
  · cases hm
  · obtain hm | hm := hm <;> cases hm
  · cases hm
  · cases hm
  · cases hm
  · cases hg
  · cases hg
  · cases hg

theorem Governed.next {P P' : Daemon} {t : Turn} (hP : Governed E id P) (ht : Starts t)
    (hok : Obeying E (Careful id) P t) (h : Daemon.next E cfg P t = some P') : Governed E id P' := by
  cases t with
  | created sess =>
    cases h
    obtain ⟨gs, hInv, hall⟩ := hP
    have hsteady : Steady P.state { P.state with pending := P.state.pending ++ [sess] } :=
      .of_eq rfl rfl rfl rfl rfl rfl le_rfl (fun _ hg => .inl hg)
    exact ⟨gs, hInv.calm hsteady.toCalm, hall⟩
  | poll =>
    cases h
    have hpoll : pollRound.Uses Quiet :=
      uses_pollRound.mono (fun _ => Polls.elim (fun _ => trivial) trivial (fun _ => trivial))
    exact hP.launch (fun gs _ hInv =>
      ⟨.idle, delivers_quietly move_of_quiet hpoll (fun _ => trivial), hInv.begin (.inl rfl)⟩)
  | heartbeat | shutdown => cases ht
  | begin k =>
    simp only [Daemon.next] at h
    split at h
    · cases h
    next b hb =>
      cases h
      refine hP.launch (fun gs hlen hInv => ?_)
      obtain ⟨sess, rfl⟩ := hInv.sane.spawned b (List.mem_of_getElem? hb)
      have hsteady : Steady P.state { P.state with spawned := P.state.spawned.eraseIdx k } :=
        .of_eq rfl rfl rfl rfl rfl rfl le_rfl (fun _ hg => .inl (List.mem_of_mem_eraseIdx hg))
      refine ⟨.fresh gs.length, ?_, (hInv.calm hsteady.toCalm).begin (.inr rfl)⟩
      rw [hlen]
      exact delivers_startSession cfg sess
  | step i =>
    obtain ⟨_, _, _, _, _, w', _, -, -, -, -, -, hP'⟩ :=
      hP.step (contract_sound E id) ((hok i rfl).next h)
    cases w'
    exact hP'

end Exclusion

open Exclusion (Governed)

/-- What the turn of an attempt that is cleaning up removes is not another attempt's for the same
session. -/
def CleansOwn (id : String) (s s' : Host) (t : Turn) : Prop :=
  ∀ i, t = .step i → s.attempts.lookup i = some ⟨id, .cleaning⟩ →
    ∀ x j phase, s.creator x = some j → s'.creator x = none →
      s.attempts.lookup j = some ⟨id, phase⟩ → j = i

/-- After the turn at most one attempt to start the session is underway, and the turn has removed
nothing of another one. -/
def Safe (E : Env) (cfg : Config) (id : String) (P : Daemon) (t : Turn) : Prop :=
  ∀ P', Daemon.next E cfg P t = some P' → P'.state.Exclusive id ∧ CleansOwn id P.state P'.state t

section

variable {E : Env} {cfg : Config} {id : String} {P : Daemon} {t : Turn}

theorem careful_of_patient (hpatient : Obeying E (Patient id) P t)
    (hremoves : Obeying E (Removes id) P t) : Obeying E (Careful id) P t :=
  fun i ht a k hi r s' hx => ⟨hpatient i ht a k hi r s' hx, hremoves i ht a k hi r s' hx⟩

theorem safe_of_careful (ht : Starts t) (hok : Obeying E (Careful id) P t)
    (hP : Governed E id P) : Safe E cfg id P t := by
  intro P' h
  obtain ⟨gs', hInv', -⟩ := hP.next ht hok h
  refine ⟨hInv'.sane.exclusive, ?_⟩
  rintro i rfl hi x j phase hj hgone hsame
  obtain ⟨gs, hInv, hall⟩ := hP
  obtain ⟨a, k, r, s, hthread, hact, rfl⟩ := Pool.next_step h
  obtain ⟨g, hg, hdelivers⟩ := forall₂_getElem? hall.flip hthread
  obtain ⟨w', g', hm, -⟩ := delivers_act.mp hdelivers .still le_rfl r trivial
  exact hInv.cleansOwn hg hm hact hi hj hgone hsame

/-- An attempt that begins while another one is cleaning up is underway together with it. -/
theorem patient_of_safe (hsafe : Safe E cfg id P t) (hP : Governed E id P) :
    Obeying E (Patient id) P t := by
  rintro i rfl a k hthread r s hact hreserves m - hcleaning
  have hnext : Daemon.next E cfg P (.step i) = some ⟨s, P.threads.set i (k r)⟩ := by
    simp only [Daemon.next, Pool.next, hthread, hact, Option.map_some]
  obtain ⟨hexclusive, -⟩ := hsafe _ hnext
  obtain ⟨gs, hInv, hall⟩ := hP
  obtain ⟨g, hg, hdelivers⟩ := forall₂_getElem? hall.flip hthread
  obtain ⟨w', g', hm, -⟩ := delivers_act.mp hdelivers .still le_rfl r trivial
  cases hm with
  | @reserve n id' =>
    cases hreserves
    have hfresh : P.state.attempts.lookup n = none := hInv.part i _ hg
    obtain ⟨hok, -⟩ | ⟨-, -, rfl⟩ := exec_reserve hact
    · cases hok
    have hne : m ≠ n := by
      rintro rfl
      rw [hfresh] at hcleaning
      cases hcleaning
    refine hne (hexclusive m n (.inr ?_) (.inl ?_))
    · exact (Map.lookup_insert _ _ _ _).trans ((if_neg hne).trans hcleaning)
    · exact (Map.lookup_insert _ _ _ _).trans (if_pos rfl)
  | @quiet _ a _ ha =>
    cases a with
    | reserve => cases ha
    | _ => cases hreserves
  | present | stale | network | noNetwork | collision | create | noContainer | record | write |
    release | load | container | unlink | clean => cases hreserves

end

/-- As long as no cleanup leaves its config file there, the attempts to start a session exclude each
other, and clean up after themselves only, exactly if none of them begins while an earlier one is
still cleaning up. -/
theorem attempts_exclusive_iff {E : Env} {cfg : Config} {turns : List Turn}
    (hturns : ∀ t ∈ turns, Starts t) (id : String)
    (hremoves : Step.Along (Daemon.next E cfg) (Obeying E (Removes id)) turns .new) :
    Step.Along (Daemon.next E cfg) (Safe E cfg id) turns .new ↔
      Step.Along (Daemon.next E cfg) (Obeying E (Patient id)) turns .new := by
  have hstarts : Step.Along (Daemon.next E cfg) (fun _ t => Starts t) turns .new :=
    Step.along_of_forall (fun t ht _ => hturns t ht) _
  constructor
  · intro h
    refine (h.and (hstarts.and hremoves)).imp (I := Governed E id)
      (fun ⟨hsafe, ht, hremoves⟩ hP hnext => ?_) (fun hok hP => patient_of_safe hok.1 hP)
      Exclusion.governed_new
    exact hP.next ht (careful_of_patient (patient_of_safe hsafe hP) hremoves) hnext
  · intro h
    refine (h.and (hstarts.and hremoves)).imp (I := Governed E id)
      (fun ⟨hpatient, ht, hremoves⟩ hP hnext => ?_) (fun ⟨hpatient, ht, hremoves⟩ hP => ?_)
      Exclusion.governed_new
    · exact hP.next ht (careful_of_patient hpatient hremoves) hnext
    · exact safe_of_careful ht (careful_of_patient hpatient hremoves) hP

/-- A registry that never hands out the renter's key, so that every attempt fails. -/
def keylessEnv : Env := { quietEnv with exchangeCandidates := fun _ => none }

/-- A poll that finds the session pending still, and an attempt that begins. -/
def polledAgain : List Turn := [.poll, .step 2, .step 2, .step 2, .begin 0]

/-- The second attempt begins when the first one has removed its config file. -/
theorem attempts_exclusive_in_turn :
    ∃ P, Step.run (Daemon.next keylessEnv aConfig)
        (polled ++ List.replicate 23 (.step 1) ++ polledAgain ++ [.step 3]) .new = some P ∧
      P.state.Underway 3 aSession.id ∧
      Step.Along (Daemon.next keylessEnv aConfig) (Safe keylessEnv aConfig aSession.id)
        (polled ++ List.replicate 23 (.step 1) ++ polledAgain ++ [.step 3]) .new := by
  have hview : (Step.run (Daemon.next keylessEnv aConfig)
      (polled ++ List.replicate 23 (.step 1) ++ polledAgain ++ [.step 3]) .new).map
      (fun P => P.state.attempts.lookup 3) = some (some ⟨aSession.id, .starting⟩) := by
    decide +kernel
  obtain ⟨P, hP, heq⟩ := Option.map_eq_some_iff.mp hview
  exact ⟨P, hP, .inl heq,
    (attempts_exclusive_iff (by decide +kernel) aSession.id (by decide +kernel)).mpr
      (by decide +kernel)⟩

/-- No interface comes up, the first removals of a file fail, and so do the networks created later. -/
def strandingEnv : Env := { quietEnv with
  fails := fun a t => match a with
    | .wgUp _ => true
    | .removeConfig _ _ => t < 35
    | .networkCreate _ _ => 35 ≤ t
    | _ => false }

/-- The second attempt begins when the first one has deleted its entry: the network that it has
created is the one that the first one removes next.  And an attempt that has waited for the end of
the first one's cleanup, and has written no file, removes the one that the first one could not. -/
theorem cleanup_removes_network :
    (∃ P P', Step.run (Daemon.next keylessEnv aConfig)
        (polled ++ List.replicate 20 (.step 1) ++ polledAgain ++ List.replicate 3 (.step 3)) .new =
        some P ∧
      Daemon.next keylessEnv aConfig P (.step 1) = some P' ∧
      (∀ t ∈ polled ++ List.replicate 20 (.step 1) ++ polledAgain ++ List.replicate 3 (.step 3),
        Starts t) ∧
      P.state.attempts.lookup 1 = some ⟨aSession.id, .cleaning⟩ ∧
      P.state.attempts.lookup 3 = some ⟨aSession.id, .starting⟩ ∧
      P.state.creator (.network "pcp-5f0c2b9e-7a4") = some 3 ∧
      P'.state.creator (.network "pcp-5f0c2b9e-7a4") = none) ∧
    ∃ P P', Step.run (Daemon.next strandingEnv aConfig)
        (polled ++ List.replicate 28 (.step 1) ++ polledAgain ++ List.replicate 7 (.step 3)) .new =
        some P ∧
      Daemon.next strandingEnv aConfig P (.step 3) = some P' ∧
      Step.Along (Daemon.next strandingEnv aConfig) (Obeying strandingEnv (Patient aSession.id))
        (polled ++ List.replicate 28 (.step 1) ++ polledAgain ++ List.replicate 7 (.step 3)) .new ∧
      P.state.attempts.lookup 1 = some ⟨aSession.id, .ended⟩ ∧
      P.state.attempts.lookup 3 = some ⟨aSession.id, .cleaning⟩ ∧
      P.state.creator (.config (configPath aSession.id)) = some 1 ∧
      P'.state.creator (.config (configPath aSession.id)) = none := by
  have hview : (Step.run (Daemon.next keylessEnv aConfig)
      (polled ++ List.replicate 20 (.step 1) ++ polledAgain ++ List.replicate 3 (.step 3)) .new).map
      (fun P => ((P.state.attempts.lookup 1, P.state.attempts.lookup 3),
        (P.state.creator (.network "pcp-5f0c2b9e-7a4"),
          (Daemon.next keylessEnv aConfig P (.step 1)).map
            (fun P' => P'.state.creator (.network "pcp-5f0c2b9e-7a4"))))) =
      some ((some ⟨aSession.id, .cleaning⟩, some ⟨aSession.id, .starting⟩), (some 3, some none)) := by
    decide +kernel
  have hleft : (Step.run (Daemon.next strandingEnv aConfig)
      (polled ++ List.replicate 28 (.step 1) ++ polledAgain ++ List.replicate 7 (.step 3)) .new).map
      (fun P => ((P.state.attempts.lookup 1, P.state.attempts.lookup 3),
        (P.state.creator (.config (configPath aSession.id)),
          (Daemon.next strandingEnv aConfig P (.step 3)).map
            (fun P' => P'.state.creator (.config (configPath aSession.id)))))) =
      some ((some ⟨aSession.id, .ended⟩, some ⟨aSession.id, .cleaning⟩), (some 1, some none)) := by
    decide +kernel
  constructor
  · obtain ⟨P, hP, heq⟩ := Option.map_eq_some_iff.mp hview
    simp only [Prod.mk.injEq] at heq
    obtain ⟨⟨hfirst, hsecond⟩, hmade, hgone⟩ := heq
    obtain ⟨P', hP', hgone⟩ := Option.map_eq_some_iff.mp hgone
    exact ⟨P, P', hP, hP', by decide +kernel, hfirst, hsecond, hmade, hgone⟩
  · obtain ⟨P, hP, heq⟩ := Option.map_eq_some_iff.mp hleft
    simp only [Prod.mk.injEq] at heq
    obtain ⟨⟨hfirst, hsecond⟩, hmade, hgone⟩ := heq
    obtain ⟨P', hP', hgone⟩ := Option.map_eq_some_iff.mp hgone
    exact ⟨P, P', hP, hP', by decide +kernel, hfirst, hsecond, hmade, hgone⟩

end PeerCompute.Agent
