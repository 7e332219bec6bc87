import PeerCompute.Agent.Configs
import PeerCompute.Agent.HostLaws
import PeerCompute.Agent.Orders
import PeerCompute.CLI.Configs
import PeerCompute.Deployment.Calls
import PeerCompute.Interleaving.Roles

/-! The agent, the renters and everybody else who calls the registry, all at the same time. -/

namespace PeerCompute.Deployment

open PeerCompute.Interleaving PeerCompute.Plugin PeerCompute.Computev1 Prog
open PeerCompute.Agent (WGKeyPair)

/-- A renter who connects to a session, a round of one of the agent's loops, the agent's shutdown, and
a goroutine that the agent has started. -/
inductive Client
  | renter (stunAddr sessionID : String) (kp : WGKeyPair)
  | poll
  | heartbeat
  | shutdown
  | goroutine (g : Agent.Goroutine)

def ofProvider (p : Prog Agent.signature Unit) : Prog clients Unit :=
  p.expand (fun a => perform (S := clients) (.provider a))

def ofRenter {α : Type} (p : Prog CLI.signature α) : Prog clients Unit :=
  (p >>= fun _ => .ret ()).expand (fun a => perform (S := clients) (.renter a))

/-- The program of the thread with the number `n`. -/
def Client.prog (cfg : Agent.Config) (n : Nat) : Client → Prog clients Unit
  | .renter stunAddr sessionID kp => ofRenter (CLI.doConnect stunAddr sessionID kp)
  | .poll => ofProvider Agent.pollRound
  | .heartbeat => ofProvider Agent.heartbeatRound
  | .shutdown => ofProvider Agent.cleanup
  | .goroutine g => ofProvider (g.prog cfg n)

/-- A client, a call of anybody else, and a request that nobody waits for any more. -/
inductive Party
  | client (q : Client)
  | caller (c : Registry.Rpc)
  | straggler (c : Registry.Rpc)

/-- One turn: a party comes in, a goroutine that has been spawned begins, a request that is adrift
arrives, or the `i`-th thread performs its next action. -/
inductive Turn
  | call (c : Registry.Rpc)
  | connect (stunAddr sessionID : String) (kp : WGKeyPair)
  | poll
  | heartbeat
  | shutdown
  | begin (k : Nat)
  | arrive (k : Nat)
  | step (i : Nat)

/-- All threads of a run, those that have returned included. -/
abbrev Parties (σ : Type) := Pool signature Unit (State σ)

section

variable {σ : Type}

def Party.prog (D : Setting σ) (n : Nat) : Party → Prog signature Unit
  | .client q => (q.prog D.cfg n).expand (serve D.cfg D.available)
  | .caller c | .straggler c => handling c >>= fun _ => .ret ()

def Turn.party (s : State σ) : Turn → Option Party
  | .call c => some (.caller c)
  | .connect stunAddr sessionID kp => some (.client (.renter stunAddr sessionID kp))
  | .poll => some (.client .poll)
  | .heartbeat => some (.client .heartbeat)
  | .shutdown => some (.client .shutdown)
  | .begin k => s.host.spawned[k]?.map (fun g => .client (.goroutine g))
  | .arrive k => s.adrift[k]?.map .straggler
  | .step _ => none

/-- A goroutine begins once, and a request arrives once. -/
def Turn.leaves (s : State σ) : Turn → State σ
  | .begin k => { s with host := { s.host with spawned := s.host.spawned.eraseIdx k } }
  | .arrive k => { s with adrift := s.adrift.eraseIdx k }
  | _ => s

def next (D : Setting σ) : Step (Parties σ) Turn := fun P t =>
  match t with
  | .step i => Pool.next (exec D) P (.step i)
  | t => (t.party P.state).map (fun q =>
      ⟨t.leaves P.state, P.threads ++ [q.prog D P.threads.length]⟩)

def entries (D : Setting σ) (P : Parties σ) : Turn → List (Entry signature Party)
  | .step i => (P.deed (exec D) (.step i)).map .does
  | t => ((t.party P.state).map .begins).toList

/-- What is recorded of a run. -/
def history (D : Setting σ) : List Turn → Parties σ → List (Entry signature Party) :=
  Step.output (next D) (entries D)

/-- What is recorded of a run, each entry with the state that it finds. -/
def chronicle (D : Setting σ) : List Turn → Parties σ → List (State σ × Entry signature Party) :=
  Step.output (next D) (fun P t => (entries D P t).map (fun e => (P.state, e)))

variable {D : Setting σ} {P P' : Parties σ} {t : Turn} {turns : List Turn}

theorem next_eq_some (h : next D P t = some P') :
    (∃ q, t.party P.state = some q ∧ entries D P t = [.begins q] ∧
      P' = ⟨t.leaves P.state, P.threads ++ [q.prog D P.threads.length]⟩) ∨
    ∃ i a k r s, P.threads[i]? = some (.act a k) ∧ exec D a P.state = some (r, s) ∧
      entries D P t = [.does (i, ⟨a, r⟩)] ∧ P' = ⟨s, P.threads.set i (k r)⟩ := by
  have hparty : ∀ {q : Option Party}, q.map (fun q => (⟨t.leaves P.state,
      P.threads ++ [q.prog D P.threads.length]⟩ : Parties σ)) = some P' →
      ∃ q', q = some q' ∧ (q.map (Entry.begins (S := signature))).toList = [.begins q'] ∧
        P' = ⟨t.leaves P.state, P.threads ++ [q'.prog D P.threads.length]⟩ := by
    intro q hq
    obtain ⟨q', rfl, rfl⟩ := Option.map_eq_some_iff.mp hq
    exact ⟨q', rfl, rfl, rfl⟩
  cases t with
  | step i =>
    obtain ⟨a, k, r, s, hi, hact, rfl⟩ := Pool.next_step h
    refine .inr ⟨i, a, k, r, s, hi, hact, ?_, rfl⟩
    simp only [entries, Pool.deed_step hi hact, List.map_cons, List.map_nil]
  | _ => exact .inl (hparty h)

theorem map_chronicle (turns : List Turn) (P : Parties σ) :
    (chronicle D turns P).map Prod.snd = history D turns P := by
  simp only [chronicle, history, Step.map_output, List.map_map]
  exact congrArg (fun out => Step.output (next D) out turns P)
    (funext fun P => funext fun t => List.map_id _)

/-- An invariant of the threads and of what is recorded. -/
theorem history_induct {I : List (Entry signature Party) → Parties σ → Prop}
    (hbegins : ∀ {h P t q}, I h P → Turn.party P.state t = some q → I (h ++ [.begins q])
      ⟨t.leaves P.state, P.threads ++ [q.prog D P.threads.length]⟩)
    (hdoes : ∀ {h P i a k r s}, I h P → P.threads[i]? = some (.act a k) →
      exec D a P.state = some (r, s) → I (h ++ [.does (i, ⟨a, r⟩)]) ⟨s, P.threads.set i (k r)⟩)
    (hP : I [] P) (hrun : Step.run (next D) turns P = some P') : I (history D turns P) P' := by
  refine Step.run_output (I := I) (l := []) (fun _ hP hnext => ?_) (Step.along_true turns P) hP hrun
  obtain ⟨q, hq, hentry, rfl⟩ | ⟨i, a, k, r, s, hi, hact, hentry, rfl⟩ := next_eq_some hnext
  · rw [hentry]
    exact hbegins hP hq
  · rw [hentry]
    exact hdoes hP hi hact

/-- The moment of a deed: the run up to it, and the rest of the run. -/
theorem chronicle_split (hrun : Step.run (next D) turns P = some P')
    {before after : List (State σ × Entry signature Party)} {s : State σ} {i : Nat} {a : Action}
    {r : a.Res} (hsplit : chronicle D turns P = before ++ (s, .does (i, ⟨a, r⟩)) :: after) :
    ∃ turns₁ turns₂ Q s', Step.run (next D) turns₁ P = some Q ∧ chronicle D turns₁ P = before ∧
      Q.state = s ∧ exec D a s = some (r, s') ∧ Step.run (next D) turns₂ Q = some P' := by
  have hone : ∀ {P P' : Parties σ} {t : Turn}, next D P t = some P' →
      ∃ x, (entries D P t).map (fun e => (P.state, e)) = [x] := by
    intro P P' t hnext
    obtain ⟨q, -, hentry, -⟩ | ⟨j, b, k, r', s', -, -, hentry, -⟩ := next_eq_some hnext
    · exact ⟨_, by rw [hentry]; rfl⟩
    · exact ⟨_, by rw [hentry]; rfl⟩
  obtain ⟨turns₁, t, turns₂, Q, Q', -, hrun₁, hbefore, hnext, hout, hrun₂⟩ :=
    Step.output_split hone hrun hsplit
  obtain ⟨q, -, hentry, -⟩ | ⟨j, b, k, r', s', -, hact, hentry, -⟩ := next_eq_some hnext
  · rw [hentry] at hout
    cases hout
  · rw [hentry] at hout
    cases hout
    exact ⟨turns₁, t :: turns₂, Q, s', hrun₁, hbefore, rfl, hact,
      Option.bind_eq_some_iff.mpr ⟨Q', hnext, hrun₂⟩⟩

/-- The moment of what a thread has done. -/
theorem moment (hrun : Step.run (next D) turns P = some P') {L₁ L₂ : Journal signature} {i : Nat}
    {a : Action} {r : a.Res}
    (hsplit : ofThread i (Entry.deeds (history D turns P)) = L₁ ++ ⟨a, r⟩ :: L₂) :
    ∃ turns₁ turns₂ Q s, Step.run (next D) turns₁ P = some Q ∧
      ofThread i (Entry.deeds (history D turns₁ P)) = L₁ ∧ exec D a Q.state = some (r, s) ∧
      Step.run (next D) turns₂ Q = some P' ∧
      chronicle D turns₁ P ++ [(Q.state, .does (i, ⟨a, r⟩))] <+: chronicle D turns P := by
  obtain ⟨h₁, h₂, hh, rfl, -⟩ := Entry.does_split hsplit
  rw [← map_chronicle] at hh
  obtain ⟨c₁, c, hc, rfl, hrest⟩ := List.map_eq_append_iff.mp hh
  obtain ⟨⟨s, e⟩, c₂, rfl, rfl, -⟩ := List.map_eq_cons_iff.mp hrest
  obtain ⟨turns₁, turns₂, Q, s', hrun₁, rfl, rfl, hact, hrun₂⟩ := chronicle_split hrun hc
  refine ⟨turns₁, turns₂, Q, s', hrun₁, by rw [map_chronicle], hact, hrun₂, c₂, ?_⟩
  rw [hc, List.append_assoc]
  rfl

/-- Each thread does what the program of its party says. -/
theorem staffed_history {s : State σ} (hrun : Step.run (next D) turns ⟨s, []⟩ = some P) :
    Staffed (fun n q => Party.prog D n q) (history D turns ⟨s, []⟩) P :=
  history_induct (I := Staffed (fun n q => Party.prog D n q)) (fun H _ => H.begins _ _)
    (fun H hi _ => H.does hi _ _) (.nil s) hrun

end

/-! ## What the clients do -/

def liftProvider (y : Σ a : Agent.signature.Act, Agent.signature.Res a) :
    Σ a : clients.Act, clients.Res a := ⟨.provider y.1, y.2⟩

def liftRenter (y : Σ a : CLI.signature.Act, CLI.signature.Res a) :
    Σ a : clients.Act, clients.Res a := ⟨.renter y.1, y.2⟩

/-- An action of the agent that meets `ok` after what the same program has done. -/
def OfProvider (ok : Journal Agent.signature → Agent.Action → Prop) (before : Journal clients)
    (a : ClientAction) : Prop :=
  ∃ l b, before = l.map liftProvider ∧ a = .provider b ∧ ok l b

def OfRenter (ok : Journal CLI.signature → CLI.Action → Prop) (before : Journal clients)
    (a : ClientAction) : Prop :=
  ∃ l b, before = l.map liftRenter ∧ a = .renter b ∧ ok l b

theorem along_ofProvider {p : Prog Agent.signature Unit}
    {ok : Journal Agent.signature → Agent.Action → Prop}
    {K : Unit → Journal Agent.signature → Prop} (h : p.Along ok K []) :
    (ofProvider p).Along (OfProvider ok) (fun _ _ => True) [] :=
  (Along.expand_map (S := Agent.signature) (T := clients)
    (f := fun a => perform (S := clients) (.provider a)) (g := .provider) (e := liftProvider)
    (fun _ _ => ⟨⟨rfl, rfl⟩, fun _ => rfl⟩) h []).mono (fun _ _ _ => trivial)

theorem along_ofRenter {α : Type} {p : Prog CLI.signature α}
    {ok : Journal CLI.signature → CLI.Action → Prop} (h : p.Along ok (fun _ _ => True) []) :
    (ofRenter p).Along (OfRenter ok) (fun _ _ => True) [] := by
  have hp : (p >>= fun _ => Prog.ret ()).Along ok (fun _ _ => True) [] := Along.bind h
  exact (Along.expand_map (S := CLI.signature) (T := clients)
    (f := fun a => perform (S := clients) (.renter a)) (g := .renter) (e := liftRenter)
    (fun _ _ => ⟨⟨rfl, rfl⟩, fun _ => rfl⟩) hp []).mono (fun _ _ _ => trivial)

/-- What a program of the agent does, each action after those before it. -/
def Client.Provides (cfg : Agent.Config) : Client → Journal Agent.signature → Agent.Action → Prop
  | .poll => fun l b => Agent.Ordered l b ∧ Agent.Polls b
  | .heartbeat => fun l b => Agent.Ordered l b ∧ Agent.Beats b
  | .shutdown => fun _ => Agent.Closes
  | .goroutine (.startSession sess) => Agent.Configures cfg sess
  | .goroutine (.stopSession id) => fun _ => Agent.Stops id
  | .renter _ _ _ => fun _ _ => False

def Client.Does (cfg : Agent.Config) : Client → Journal clients → ClientAction → Prop
  | .renter _ sessionID kp => OfRenter (CLI.Configures sessionID kp)
  | q => OfProvider (q.Provides cfg)

theorem Client.Does.provider {cfg : Agent.Config} {q : Client} {before : Journal clients}
    {b : Agent.Action} (h : q.Does cfg before (.provider b)) :
    ∃ l, before = l.map liftProvider ∧ q.Provides cfg l b := by
  cases q with
  | renter stunAddr sessionID kp =>
    obtain ⟨l, c, -, hc, -⟩ := h
    cases hc
  | _ =>
    obtain ⟨l, c, hl, hc, hdoes⟩ := h
    cases hc
    exact ⟨l, hl, hdoes⟩

theorem Client.Does.renter {cfg : Agent.Config} {q : Client} {before : Journal clients}
    {b : CLI.Action} (h : q.Does cfg before (.renter b)) :
    ∃ stunAddr sessionID kp l, q = .renter stunAddr sessionID kp ∧ before = l.map liftRenter ∧
      CLI.Configures sessionID kp l b := by
  cases q with
  | renter stunAddr sessionID kp =>
    obtain ⟨l, c, hl, hc, hdoes⟩ := h
    cases hc
    exact ⟨stunAddr, sessionID, kp, l, rfl, hl, hdoes⟩
  | _ =>
    obtain ⟨l, c, -, hc, -⟩ := h
    cases hc

theorem along_client (cfg : Agent.Config) (n : Nat) (q : Client) :
    (q.prog cfg n).Along (q.Does cfg) (fun _ _ => True) [] := by
  have hprovider : ∀ {p : Prog Agent.signature Unit} {allowed : Agent.Action → Prop},
      p.Uses allowed → (ofProvider p).Along (OfProvider (fun _ => allowed)) (fun _ _ => True) [] :=
    fun hp => along_ofProvider ((hp.mono (fun _ ha _ => ha)).along_always [])
  have hboth : ∀ {p : Prog Agent.signature Unit} {allowed : Agent.Action → Prop},
      p.Along Agent.Ordered (fun _ _ => True) [] → p.Uses allowed →
      (ofProvider p).Along (OfProvider (fun l b => Agent.Ordered l b ∧ allowed b))
        (fun _ _ => True) [] :=
    fun hp hu => along_ofProvider (hp.and ((hu.mono (fun _ ha _ => ha)).along_always []))
  cases q with
  | renter stunAddr sessionID kp => exact along_ofRenter (CLI.along_doConnect stunAddr sessionID kp)
  | poll => exact hboth Agent.along_pollRound Agent.uses_pollRound
  | heartbeat => exact hboth Agent.along_heartbeatRound Agent.beats_heartbeatRound
  | shutdown => exact hprovider Agent.closes_cleanup
  | goroutine g =>
    cases g with
    | startSession sess => exact along_ofProvider (Agent.along_startSession_configures n cfg sess)
    | stopSession id => exact hprovider (Agent.stops_stopSession id)

/-- A session that is started has been listed to the same round of the agent. -/
theorem Client.Provides.listed {cfg : Agent.Config} {q : Client} {l : Journal Agent.signature}
    {sess : Agent.PolledSession} (h : q.Provides cfg l (.go (.startSession sess))) :
    ∃ sessions, ⟨Agent.Action.listPending, some sessions⟩ ∈ l ∧ sess ∈ sessions := by
  cases q with
  | poll => exact h.1
  | heartbeat => cases h.2
  | shutdown =>
    obtain ⟨id, hid⟩ := h
    cases hid
  | goroutine g =>
    cases g with
    | startSession sess' => cases h
    | stopSession id => cases h
  | renter => cases h

/-- A session that is stopped has been asked for in the reply to the same round of the agent. -/
theorem Client.Provides.asked {cfg : Agent.Config} {q : Client} {l : Journal Agent.signature}
    {id : String} (h : q.Provides cfg l (.go (.stopSession id))) :
    ∃ active terminate, ⟨Agent.Action.heartbeat active, some terminate⟩ ∈ l ∧ id ∈ terminate := by
  cases q with
  | poll => cases h.2
  | heartbeat => exact h.1
  | shutdown =>
    obtain ⟨id, hid⟩ := h
    cases hid
  | goroutine g =>
    cases g with
    | startSession sess' => cases h
    | stopSession id => cases h
  | renter => cases h

/-! ## How far the threads are -/

section

variable {σ : Type} {D : Setting σ} {P : Parties σ} {h before after : List (Entry signature Party)}
  {i : Nat} {b : Action} {r : b.Res}

/-- The program of a client has come to the action `a`; what it has done before stands for the actions
of `l`, and of what stands for `a` it comes to `b`. -/
def Phase (D : Setting σ) (q : Client) (L : Journal signature) (b : Action) (l : Journal clients)
    (a : ClientAction) : Prop :=
  q.Does D.cfg l a ∧ ∃ L₀ L₁, L = L₀ ++ L₁ ∧
    Expands (S := clients) (serve D.cfg D.available) l L₀ ∧ Serves D.cfg D.available a L₁ b

/-- Whose action it is: a client's, or one of a call that is executed. -/
theorem does_history (hstaffed : Staffed (fun n q => Party.prog D n q) h P)
    (hsplit : h = before ++ .does (i, ⟨b, r⟩) :: after) :
    (∃ q l a, (Entry.roles before)[i]? = some (.client q) ∧
      Phase D q (ofThread i (Entry.deeds before)) b l a) ∨
    ∃ c l b' k, ((Entry.roles before)[i]? = some (.caller c) ∨
        (Entry.roles before)[i]? = some (.straggler c)) ∧ b = .registry b' ∧
      ofThread i (Entry.deeds before) = l.map liftRegistry ∧ c.handler.Leaves l (.act b' k) := by
  have hcall : ∀ {c : Registry.Rpc} {L : Journal signature} {k : b.Res → Prog signature Unit},
      Leaves (S := signature) (handling c >>= fun _ => .ret ()) L (.act b k) →
      ∃ l b' k', b = .registry b' ∧ L = l.map liftRegistry ∧ c.handler.Leaves l (.act b' k') := by
    intro c L k hleaves
    obtain ⟨k', hleaves⟩ | ⟨_, _, _, -, -, hret⟩ := leaves_bind_act hleaves
    · obtain ⟨l, b', hl, hb, k'', hb'⟩ := (hleaves.along (along_handling c [])).1
      exact ⟨l, b', k'', hb, hl, hb'⟩
    · cases (leaves_ret.mp hret).2
  obtain ⟨q, k, hq, hleaves⟩ := hstaffed.performed before i b r after hsplit
  cases q with
  | client q =>
    obtain ⟨l, a, k', L₀, L₁, k'', hl, hexpands, hserve, hL⟩ := leaves_expand_act hleaves
    exact .inl ⟨q, l, a, hq, (hl.along (along_client D.cfg i q)).1, L₀, L₁, hL, hexpands,
      (hserve.along (along_serve a)).1⟩
  | caller c =>
    obtain ⟨l, b', k', hb, hl, hb'⟩ := hcall hleaves
    exact .inr ⟨c, l, b', k', .inl hq, hb, hl, hb'⟩
  | straggler c =>
    obtain ⟨l, b', k', hb, hl, hb'⟩ := hcall hleaves
    exact .inr ⟨c, l, b', k', .inr hq, hb, hl, hb'⟩

/-- Only the actions of the registry can be those of a call. -/
theorem client_history (hstaffed : Staffed (fun n q => Party.prog D n q) h P)
    (hsplit : h = before ++ .does (i, ⟨b, r⟩) :: after) (hb : ∀ b', b ≠ .registry b') :
    ∃ q l a, (Entry.roles before)[i]? = some (.client q) ∧
      Phase D q (ofThread i (Entry.deeds before)) b l a := by
  obtain hclient | ⟨_, _, b', _, -, rfl, -⟩ := does_history hstaffed hsplit
  · exact hclient
  · exact absurd rfl (hb b')

/-- What a client does on its own machine. -/
theorem Phase.own {q : Client} {L : Journal signature} {l : Journal clients} {a a' : ClientAction}
    (h : Phase D q L (.own a') l a) : q.Does D.cfg l a' ∧
      Expands (S := clients) (serve D.cfg D.available) l L := by
  obtain ⟨hdoes, L₀, L₁, rfl, hexpands, rfl, -, rfl⟩ := h
  exact ⟨hdoes, (List.append_nil L₀).symm ▸ hexpands⟩

theorem own_history (hstaffed : Staffed (fun n q => Party.prog D n q) h P) {a : ClientAction}
    {r : a.Res} (hsplit : h = before ++ .does (i, ⟨.own a, r⟩) :: after) :
    ∃ q l, (Entry.roles before)[i]? = some (.client q) ∧ q.Does D.cfg l a ∧
      Expands (S := clients) (serve D.cfg D.available) l (ofThread i (Entry.deeds before)) := by
  obtain ⟨q, l, a', hq, hphase⟩ := client_history hstaffed hsplit (fun _ h => by cases h)
  exact ⟨q, l, hq, hphase.own⟩

end

/-! ## The goroutines -/

section

variable {σ : Type} {D : Setting σ} {P : Parties σ} {s s' : State σ} {turns : List Turn}

theorem spawned_act {E : Agent.Env} {t : Agent.Host} (b : Agent.Action) :
    (t.act E b).2.spawned = t.spawned ∨ ∃ g, b = .go g ∧ (t.act E b).2.spawned = t.spawned ++ [g] := by
  have htouch := Agent.touch_act E t b
  generalize (t.act E b).2 = u at htouch ⊢
  cases htouch with
  | go => exact .inr ⟨_, rfl, rfl⟩
  | _ => exact .inl rfl

/-- Goroutines are spawned by the agent only. -/
theorem spawned_exec {a : Action} {res : a.Res} (h : exec D a s = some (res, s')) :
    s'.host.spawned = s.host.spawned ∨
      ∃ g, a = .own (.provider (.go g)) ∧ s'.host.spawned = s.host.spawned ++ [g] := by
  obtain ⟨y, hy, heq⟩ := Option.map_eq_some_iff.mp h
  cases heq
  cases a with
  | own a =>
    cases a with
    | provider a =>
      cases hy
      obtain heq | ⟨g, rfl, heq⟩ := spawned_act (E := D.agent) (t := s.host) a
      · exact .inl heq
      · exact .inr ⟨g, rfl, heq⟩
    | renter a =>
      simp only [State.act, State.actOwn] at hy
      obtain ⟨z, -, rfl⟩ := Option.map_eq_some_iff.mp hy
      exact .inl rfl
  | send c =>
    simp only [State.act] at hy
    split at hy <;> cases hy <;> exact .inl rfl
  | registry a =>
    obtain ⟨z, -, rfl⟩ := Option.map_eq_some_iff.mp hy
    exact .inl rfl
  | done =>
    cases hy
    exact .inl rfl
  | returns a r =>
    cases hy
    exact .inl rfl

/-- A goroutine that waits to begin or has begun has been started by a thread. -/
def Launched (h : List (Entry signature Party)) (P : Parties σ) : Prop :=
  ∀ g, g ∈ P.state.host.spawned ∨ .client (.goroutine g) ∈ Entry.roles h →
    ∃ j, .does (j, ⟨.own (.provider (.go g)), ()⟩) ∈ h

theorem launched_history (hspawned : s.host.spawned = [])
    (hrun : Step.run (next D) turns ⟨s, []⟩ = some P) :
    Launched (history D turns ⟨s, []⟩) P := by
  refine history_induct (I := Launched) ?_ ?_ ?_ hrun
  · intro h P t q H hq g hg
    have hearlier : g ∈ P.state.host.spawned ∨ .client (.goroutine g) ∈ Entry.roles h := by
      rw [Entry.roles_begins] at hg
      obtain hg | hg := hg
      · cases t with
        | begin k => exact .inl (List.mem_of_mem_eraseIdx hg)
        | _ => exact .inl hg
      obtain hg | hg := List.mem_append.mp hg
      · exact .inr hg
      · obtain rfl := List.mem_singleton.mp hg
        -- a goroutine that begins has been spawned
        cases t with
        | begin k =>
          obtain ⟨g', hg', heq⟩ := Option.map_eq_some_iff.mp hq
          cases heq
          exact .inl (List.mem_of_getElem? hg')
        | arrive k =>
          obtain ⟨c, -, heq⟩ := Option.map_eq_some_iff.mp hq
          cases heq
        | _ => cases hq
    obtain ⟨j, hj⟩ := H g hearlier
    exact ⟨j, List.mem_append_left _ hj⟩
  · intro h P i a k r s' H hi hx g hg
    rw [Entry.roles_does] at hg
    have hearlier : g ∈ P.state.host.spawned ∨ .client (.goroutine g) ∈ Entry.roles h →
        ∃ j, .does (j, ⟨.own (.provider (.go g)), ()⟩) ∈ h ++ [.does (i, ⟨a, r⟩)] := by
      intro hg
      obtain ⟨j, hj⟩ := H g hg
      exact ⟨j, List.mem_append_left _ hj⟩
    obtain hg | hg := hg
    · obtain heq | ⟨g', rfl, heq⟩ := spawned_exec hx
      · exact hearlier (.inl (heq ▸ hg))
      · have hg : g ∈ P.state.host.spawned ++ [g'] := heq ▸ hg
        obtain hg | hg := List.mem_append.mp hg
        · exact hearlier (.inl hg)
        · obtain rfl := List.mem_singleton.mp hg
          exact ⟨i, List.mem_append_right _ (.head _)⟩
    · exact hearlier (.inr hg)
  · rintro g (hg | hg)
    · rw [hspawned] at hg
      cases hg
    · cases hg

end

end PeerCompute.Deployment
