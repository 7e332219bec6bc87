import PeerCompute.Agent.Exclusion
import PeerCompute.Agent.HostLaws
import PeerCompute.Interleaving.Guard

/-! The invariant: while an attempt is underway, what there is under its session's names has been
made by it, as far as it has been made for the same session. -/

namespace PeerCompute.Agent

open PeerCompute.Data PeerCompute.Interleaving PeerCompute.Computev1 Prog Contract

/-- Both conditions on an action. -/
structure Careful (id : String) (a : Action) (s : Host) (res : a.Res) : Prop where
  patient : Patient id a s res
  removes : Removes id a s res

/-- The container ID that an attempt has recorded. -/
def Host.recorded (s : Host) (n : Nat) : Option String :=
  (s.objects.lookup n).map (·.containerID)

namespace Exclusion

def Part.attempt : Part → Option Nat
  | .fresh n | .starting n _ _ _ | .cleaning n _ _ => some n
  | .idle | .ended => none

/-- The container is one that the attempt has made. -/
def Mine (E : Env) (s : Host) (n : Nat) (c : String) : Prop :=
  (∃ t < s.clock, c = E.id t) ∧ ∀ m, s.creator (.container c) = some m → m = n

/-- The network of the session is the attempt's own, unless it is another session's. -/
def Owns (id : String) (s : Host) (n : Nat) (id' : String) : Prop :=
  id' = id → ∀ m, s.creator (.network (networkName id)) = some m →
    ∀ phase, s.attempts.lookup m = some ⟨id, phase⟩ → m = n

def Part.Ok (E : Env) (id : String) (s : Host) : Part → Prop
  | .idle | .ended => True
  | .fresh n => s.attempts.lookup n = none
  | .starting n id' own made => s.attempts.lookup n = some ⟨id', .starting⟩ ∧
    (∃ c, s.recorded n = some c ∧ (c ≠ "" → own = true ∧ Mine E s n c)) ∧
    (∀ c, made = some c → Mine E s n c) ∧ (own = true → Owns id s n id')
  | .cleaning n id' rs₀ => s.attempts.lookup n = some ⟨id', .cleaning⟩ ∧
    ∃ c, s.recorded n = some c ∧ (∀ rs, rs₀ = some rs → rs.containerID = c) ∧
      (c ≠ "" → Mine E s n c ∧ Owns id s n id')

structure Sane (id : String) (k : Nat) (s : Host) : Prop where
  bound : ∀ (m : Nat) (a : Attempt), s.attempts.lookup m = some a → m < k
  entry : ∀ (m : Nat) (id' : String), s.attempts.lookup m = some ⟨id', .starting⟩ →
    s.sessions.lookup id' = some m
  exclusive : s.Exclusive id
  networks : ∀ (name : String) (m : Nat), s.creator (.network name) = some m →
    ∃ a, s.attempts.lookup m = some a
  files : ∀ (path : String) (m : Nat), s.creator (.config path) = some m →
    ∃ a, s.attempts.lookup m = some a
  /-- The config file of an attempt that is over is gone. -/
  configs : ∀ (path : String) (m : Nat) (phase : Phase), s.creator (.config path) = some m →
    s.attempts.lookup m = some ⟨id, phase⟩ → s.Underway m id ∧ path = configPath id
  spawned : ∀ g ∈ s.spawned, ∃ sess, g = .startSession sess

structure Inv (E : Env) (id : String) (_ : Still) (gs : List Part) (s : Host) : Prop where
  sane : Sane id gs.length s
  index : ∀ (i n : Nat) (g : Part), gs[i]? = some g → g.attempt = some n → n = i
  part : ∀ (i : Nat) (g : Part), gs[i]? = some g → g.Ok E id s

variable {E : Env} {s s' : Host} {gs : List Part} {i n : Nat} {g g' : Part} {id id' : String}
  {a : Action} {res : a.Res} {w : Still}

/-- What is known of the attempt `n` is still true. -/
structure Stable (E : Env) (id : String) (s s' : Host) (n : Nat) : Prop where
  attempt : s'.attempts.lookup n = s.attempts.lookup n
  recorded : s'.recorded n = s.recorded n
  mine : ∀ c, Mine E s n c → Mine E s' n c
  owns : ∀ id', s.Underway n id' → Owns id s n id' → Owns id s' n id'

theorem Part.Ok.stable (h : g.Ok E id s) (hstable : ∀ n, g.attempt = some n → Stable E id s s' n) :
    g.Ok E id s' := by
  cases g with
  | idle | ended => trivial
  | fresh n => exact (hstable n rfl).attempt.trans h
  | starting n id' own made =>
    have hn := hstable n rfl
    obtain ⟨hattempt, ⟨c, hc, hrecorded⟩, hmade, howns⟩ := h
    exact ⟨hn.attempt.trans hattempt, ⟨c, hn.recorded.trans hc, fun hne =>
      (hrecorded hne).imp_right (hn.mine c)⟩, fun c hc => hn.mine c (hmade c hc),
      fun hown => hn.owns id' (.inl hattempt) (howns hown)⟩
  | cleaning n id' rs₀ =>
    have hn := hstable n rfl
    obtain ⟨hattempt, c, hc, hread, hrecorded⟩ := h
    exact ⟨hn.attempt.trans hattempt, c, hn.recorded.trans hc, hread, fun hne =>
      (hrecorded hne).imp (hn.mine c) (hn.owns id' (.inr hattempt))⟩

/-- A move of the goroutine `i`. -/
theorem Inv.act (h : Inv E id w gs s) (hsane : Sane id gs.length s')
    (hstable : ∀ n, n ≠ i → Stable E id s s' n) (hindex : ∀ n, g'.attempt = some n → n = i)
    (hok : g'.Ok E id s') : Inv E id w (gs.set i g') s' := by
  refine ⟨by rwa [List.length_set], fun j n q hq hn => ?_, fun j q hq => ?_⟩
  · obtain ⟨rfl, rfl⟩ | ⟨-, hq⟩ := getElem?_set_elim hq
    · exact hindex n hn
    · exact h.index j n q hq hn
  · obtain ⟨-, rfl⟩ | ⟨hj, hq⟩ := getElem?_set_elim hq
    · exact hok
    · refine (h.part j q hq).stable (fun n hn => hstable n ?_)
      rwa [h.index j n q hq hn]

/-- Of what there is, only `new` has been made since, and no attempt has changed its session. -/
structure Change (new : Item → Nat → Prop) (s s' : Host) : Prop where
  creators : ∀ (x : Item) (m : Nat), s'.creator x = some m → s.creator x = some m ∨ new x m
  clock : s.clock ≤ s'.clock
  session : ∀ (name id : String) (m : Nat) (phase : Phase), s.creator (.network name) = some m →
    s'.attempts.lookup m = some ⟨id, phase⟩ → ∃ phase', s.attempts.lookup m = some ⟨id, phase'⟩

theorem Change.stable {new : Item → Nat → Prop} (h : Change new s s')
    (hattempt : s'.attempts.lookup n = s.attempts.lookup n)
    (hrecorded : s'.recorded n = s.recorded n)
    (hcontainer : ∀ c m, new (.container c) m → Mine E s n c → m = n)
    (hnetwork : ∀ m phase, new (.network (networkName id)) m → s.Underway n id →
      s'.attempts.lookup m = some ⟨id, phase⟩ → m = n) : Stable E id s s' n where
  attempt := hattempt
  recorded := hrecorded
  mine c hc := by
    have ⟨⟨t, ht, heq⟩, hcreator⟩ := hc
    refine ⟨⟨t, Nat.lt_of_lt_of_le ht h.clock, heq⟩, fun m hm => ?_⟩
    obtain hm | hnew := h.creators _ m hm
    · exact hcreator m hm
    · exact hcontainer c m hnew hc
  owns id' hunderway howns hid m hm phase hphase := by
    subst hid
    obtain hm | hnew := h.creators _ m hm
    · obtain ⟨phase', hphase'⟩ := h.session _ _ m phase hm hphase
      exact howns rfl m hm phase' hphase'
    · exact hnetwork m phase hnew hunderway hphase

/-- Of what there is, only `new` has been made since; the map and the attempts are as before. -/
structure Adds (new : Item → Nat → Prop) (s s' : Host) : Prop where
  sessions : s'.sessions = s.sessions
  attempts : s'.attempts = s.attempts
  creators : ∀ (x : Item) (m : Nat), s'.creator x = some m → s.creator x = some m ∨ new x m
  clock : s.clock ≤ s'.clock
  spawned : ∀ g ∈ s'.spawned, g ∈ s.spawned ∨ ∃ sess, g = .startSession sess

theorem underway_congr (h : s'.attempts.lookup n = s.attempts.lookup n) :
    s'.Underway n id ↔ s.Underway n id := by
  unfold Host.Underway
  rw [h]

theorem Adds.change {new : Item → Nat → Prop} (h : Adds new s s') : Change new s s' :=
  ⟨h.creators, h.clock, fun _ _ _ phase _ hm => ⟨phase, h.attempts ▸ hm⟩⟩

theorem Adds.sane {new : Item → Nat → Prop} (h : Adds new s s') {k : Nat} (hs : Sane id k s)
    (hnetwork : ∀ name m, new (.network name) m → ∃ a, s.attempts.lookup m = some a)
    (hconfig : ∀ path m, new (.config path) m →
      ∃ id', s.attempts.lookup m = some ⟨id', .starting⟩ ∧ path = configPath id') :
    Sane id k s' := by
  have hunderway : ∀ {n id}, s'.Underway n id ↔ s.Underway n id :=
    underway_congr (by rw [h.attempts])
  refine ⟨fun m a hm => hs.bound m a (h.attempts ▸ hm),
    fun m id' hm => h.sessions ▸ hs.entry m id' (h.attempts ▸ hm),
    fun m n hm hn => hs.exclusive m n (hunderway.mp hm) (hunderway.mp hn), fun name m hm => ?_,
    fun path m hm => ?_, fun path m phase hm hphase => ?_, fun g hg => ?_⟩
  · rw [h.attempts]
    obtain hm | hnew := h.creators _ m hm
    · exact hs.networks name m hm
    · exact hnetwork name m hnew
  · rw [h.attempts]
    obtain hm | hnew := h.creators _ m hm
    · exact hs.files path m hm
    · obtain ⟨id', hattempt, -⟩ := hconfig path m hnew
      exact ⟨_, hattempt⟩
  · rw [h.attempts] at hphase
    rw [hunderway]
    obtain hm | hnew := h.creators _ m hm
    · exact hs.configs path m phase hm hphase
    · obtain ⟨id', hattempt, rfl⟩ := hconfig path m hnew
      rw [hattempt] at hphase
      cases hphase
      exact ⟨.inl hattempt, rfl⟩
  · obtain hg | hstart := h.spawned g hg
    · exact hs.spawned g hg
    · exact hstart

/-- Nothing that concerns the attempts has changed, and nothing has been made. -/
structure Calm (s s' : Host) : Prop extends Adds (fun _ _ => False) s s' where
  recorded : ∀ n, s'.recorded n = s.recorded n

theorem Calm.stable (h : Calm s s') (n : Nat) : Stable E id s s' n :=
  h.change.stable (by rw [h.attempts]) (h.recorded n) (fun _ _ => False.elim)
    (fun _ _ => False.elim)

theorem Calm.sane (h : Calm s s') {k : Nat} (hs : Sane id k s) : Sane id k s' :=
  h.toAdds.sane hs (fun _ _ => False.elim) (fun _ _ => False.elim)

theorem Inv.calm (h : Inv E id w gs s) (hcalm : Calm s s') : Inv E id w gs s' :=
  ⟨hcalm.sane h.sane, h.index, fun j q hq => (h.part j q hq).stable (fun n _ => hcalm.stable n)⟩

theorem creator_of_eq (hc : s'.containers = s.containers) (hn : s'.networks = s.networks)
    (hf : s'.configs = s.configs) (x : Item) : s'.creator x = s.creator x := by
  cases x with
  | container c => simp only [Host.creator, hc]
  | network name => simp only [Host.creator, hn]
  | config path => simp only [Host.creator, hf]

/-- What there is has been made by the same attempts as before. -/
structure Steady (s s' : Host) : Prop extends Calm s s' where
  creator : ∀ x, s'.creator x = s.creator x

theorem Steady.of_eq (hs : s'.sessions = s.sessions) (ho : s'.objects = s.objects)
    (ha : s'.attempts = s.attempts) (hc : s'.containers = s.containers)
    (hn : s'.networks = s.networks) (hf : s'.configs = s.configs) (hclock : s.clock ≤ s'.clock)
    (hg : ∀ g ∈ s'.spawned, g ∈ s.spawned ∨ ∃ sess, g = .startSession sess) : Steady s s' := by
  have hcreator : ∀ x, s'.creator x = s.creator x := creator_of_eq hc hn hf
  exact ⟨⟨⟨hs, ha, fun x n hx => .inl ((hcreator x).symm.trans hx), hclock, hg⟩,
    fun n => by simp only [Host.recorded, ho]⟩, hcreator⟩

theorem Steady.refl (s : Host) : Steady s s :=
  .of_eq rfl rfl rfl rfl rfl rfl le_rfl (fun _ hg => .inl hg)

theorem Steady.tick (h : Steady s s') : Steady s s'.tick :=
  ⟨⟨⟨h.sessions, h.attempts, h.creators, Nat.le_succ_of_le h.clock, h.spawned⟩, h.recorded⟩,
    h.creator⟩

/-- `ContainerStart` and `ContainerStop` keep the creator of a container. -/
theorem steady_replace {c : String} {x y : Container} (hx : s.containers.lookup c = some x)
    (hy : y.creator = x.creator) :
    Steady s { s with containers := s.containers.insert c y } := by
  have hcreator : ∀ z, Host.creator { s with containers := s.containers.insert c y } z =
      s.creator z := by
    intro z
    cases z with
    | container c' =>
      simp only [Host.creator, Map.lookup_insert]
      split
      next heq => rw [heq, hx, Option.map_some, Option.map_some, hy]
      next => rfl
    | network name | config path => rfl
  exact ⟨⟨⟨rfl, rfl, fun z n hz => .inl ((hcreator z).symm.trans hz), le_rfl,
    fun _ hg => .inl hg⟩, fun _ => rfl⟩, hcreator⟩

/-- A field other than the container's ID is assigned. -/
theorem steady_modify (m : Nat) {f : RunningSession → RunningSession}
    (hf : ∀ rs, (f rs).containerID = rs.containerID) :
    Steady s { s with objects := s.objects.modify m f } := by
  refine ⟨⟨⟨rfl, rfl, fun x n hx => .inl (by cases x <;> exact hx), le_rfl,
    fun _ hg => .inl hg⟩, fun n => ?_⟩, fun x => by cases x <;> rfl⟩
  simp only [Host.recorded, Map.lookup_modify]
  split
  next heq =>
    rw [heq, Option.map_map]
    exact congrArg (Option.map · _) (funext hf)
  next => rfl

theorem quiet_exec (ha : Quiet a) (hx : exec E a s = some (res, s')) : Steady s s' := by
  obtain ⟨t, htouch, rfl⟩ := exec_touch hx
  refine Steady.tick ?_
  cases htouch with
  | reserve | release | take | networkRemove | networkCreate | containerRemoveNamed |
    containerCreate | containerRemove | writeConfig | endCleanup | removeConfig => cases ha
  | nothing => exact .refl s
  | cancel | cancelRun | runRelayClient | runSSHProxy | wgUp | wgDown | updateSessionStatus =>
    exact .of_eq rfl rfl rfl rfl rfl rfl le_rfl (fun _ hg => .inl hg)
  | setConnMode | registerProxy => exact steady_modify _ (fun _ => rfl)
  | @assign m b =>
    cases b with
    | containerID => cases ha
    | networkID | wgKeyPair | wgConfPath | relayCancel => exact steady_modify m (fun _ => rfl)
  | containerStart hc => exact steady_replace hc rfl
  | containerStop hc => exact steady_replace hc rfl
  | @go g =>
    cases g with
    | stopSession => cases ha
    | startSession sess =>
      refine .of_eq rfl rfl rfl rfl rfl rfl le_rfl (fun g hg => ?_)
      obtain hg | hg := List.mem_append.mp hg
      · exact .inl hg
      · exact .inr ⟨sess, List.mem_singleton.mp hg⟩

/-! What is removed. -/

theorem calm_tick (s : Host) : Calm s s.tick := (Steady.refl s).tick.toCalm

theorem calm_eraseNetwork (s : Host) (name : String) :
    Calm s { s with networks := s.networks.erase name, clock := s.clock + 1 } := by
  refine ⟨⟨rfl, rfl, fun x n hx => .inl ?_, Nat.le_succ _, fun _ hg => .inl hg⟩, fun _ => rfl⟩
  cases x with
  | network name' =>
    simp only [Host.creator, Map.lookup_erase] at hx
    split at hx
    · cases hx
    · exact hx
  | container c | config path => exact hx

theorem calm_eraseContainer (s : Host) (c : String) :
    Calm s { s with containers := s.containers.erase c, clock := s.clock + 1 } := by
  refine ⟨⟨rfl, rfl, fun x n hx => .inl ?_, Nat.le_succ _, fun _ hg => .inl hg⟩, fun _ => rfl⟩
  cases x with
  | container c' =>
    simp only [Host.creator, Map.lookup_erase] at hx
    split at hx
    · cases hx
    · exact hx
  | network name | config path => exact hx

theorem calm_networkRemove {name : String} {r : Except CallError Unit}
    (hx : exec E (.networkRemove name) s = some (r, s')) : Calm s s' := by
  obtain rfl | rfl := exec_networkRemove hx
  · exact calm_tick s
  · exact calm_eraseNetwork s name

theorem calm_containerRemove {c : String} {r : Except CallError Unit}
    (hx : exec E (.containerRemove c) s = some (r, s')) : Calm s s' := by
  obtain rfl | rfl := exec_containerRemove_eq hx
  · exact calm_tick s
  · exact calm_eraseContainer s c

theorem calm_containerRemoveNamed {name : String} {r : Except CallError Unit}
    (hx : exec E (.containerRemoveNamed name) s = some (r, s')) : Calm s s' := by
  obtain rfl | ⟨c, rfl⟩ := exec_containerRemoveNamed hx
  · exact calm_tick s
  · exact calm_eraseContainer s c

theorem lost_eraseContainer {c : String} {x : Item} {j : Nat} (hj : s.creator x = some j)
    (hgone : Host.creator { s with containers := s.containers.erase c, clock := s.clock + 1 } x =
      none) : x = .container c := by
  cases x with
  | container c' =>
    simp only [Host.creator, Map.lookup_erase] at hgone
    split at hgone
    next heq => rw [heq]
    next => cases hj.symm.trans hgone
  | network name | config path => cases hj.symm.trans hgone

theorem lost_eraseNetwork {name : String} {x : Item} {j : Nat} (hj : s.creator x = some j)
    (hgone : Host.creator { s with networks := s.networks.erase name, clock := s.clock + 1 } x =
      none) : x = .network name := by
  cases x with
  | network name' =>
    simp only [Host.creator, Map.lookup_erase] at hgone
    split at hgone
    next heq => rw [heq]
    next => cases hj.symm.trans hgone
  | container c | config path => cases hj.symm.trans hgone

/-! What is made. -/

theorem Inv.network {x : String} {own : Bool} {made : Option String} (h : Inv E id w gs s)
    (hg : gs[i]? = some (.starting n id' own made))
    (hx : exec E (.networkCreate n (networkName id')) s = some (.ok x, s')) :
    Inv E id w (gs.set i (.starting n id' true made)) s' := by
  have hs' := exec_networkCreate hx
  have hpart := h.part i _ hg
  have hattempt := hpart.1
  have hself : s'.creator (.network (networkName id')) = some n := by
    rw [hs']
    simp only [Host.creator, Map.lookup_insert, if_pos, Option.map_some]
  have hadds : Adds (fun y m => y = .network (networkName id') ∧ m = n) s s' := by
    subst hs'
    refine ⟨rfl, rfl, fun y m hm => ?_, Nat.le_succ _, fun _ hg => .inl hg⟩
    cases y with
    | network name =>
      by_cases heq : name = networkName id'
      · subst heq
        exact .inr ⟨rfl, Option.some.inj (hm.symm.trans hself)⟩
      · simp only [Host.creator, Map.lookup_insert, if_neg heq] at hm
        exact .inl hm
    | container c | config path => exact .inl hm
  have hstable : ∀ n', Stable E id s s' n' := by
    refine fun n' => hadds.change.stable (by rw [hadds.attempts]) (by rw [hs']; rfl)
      (fun _ _ hnew => by cases hnew.1) (fun m phase hnew hunderway hm => ?_)
    obtain ⟨-, rfl⟩ := hnew
    rw [hadds.attempts, hattempt] at hm
    cases hm
    exact h.sane.exclusive m n' (.inl hattempt) hunderway
  refine h.act (hadds.sane h.sane (fun _ m hnew => ?_) (fun _ _ hnew => by cases hnew.1))
    (fun n' _ => hstable n') (fun m hm => h.index i m _ hg hm) ?_
  · exact ⟨_, hnew.2 ▸ hattempt⟩
  · obtain ⟨hattempt', ⟨c, hc, hrecorded⟩, hmade, -⟩ := hpart.stable (fun n' _ => hstable n')
    refine ⟨hattempt', ⟨c, hc, fun hne => ⟨rfl, (hrecorded hne).2⟩⟩, hmade, fun _ hid m hm _ _ => ?_⟩
    subst hid
    exact Option.some.inj (hm.symm.trans hself)

theorem Inv.create {name c : String} {own : Bool} {config : ContainerConfig}
    (h : Inv E id w gs s) (hg : gs[i]? = some (.starting n id' own none))
    (hx : exec E (.containerCreate n name config) s = some (.ok c, s')) :
    Inv E id w (gs.set i (.starting n id' own (some c))) s' := by
  obtain ⟨hc, hs'⟩ := exec_containerCreate hx
  have hpart := h.part i _ hg
  have hself : s'.creator (.container c) = some n := by
    rw [hs']
    simp only [Host.creator, Map.lookup_insert, if_pos, Option.map_some]
  have hadds : Adds (fun y m => y = .container c ∧ m = n) s s' := by
    subst hs'
    refine ⟨rfl, rfl, fun y m hm => ?_, Nat.le_succ _, fun _ hg => .inl hg⟩
    cases y with
    | container c' =>
      by_cases heq : c' = c
      · subst heq
        exact .inr ⟨rfl, Option.some.inj (hm.symm.trans hself)⟩
      · simp only [Host.creator, Map.lookup_insert, if_neg heq] at hm
        exact .inl hm
    | network name | config path => exact .inl hm
  have hstable : ∀ n', Stable E id s s' n' := by
    refine fun n' => hadds.change.stable (by rw [hadds.attempts]) (by rw [hs']; rfl)
      (fun c' m hnew hmine => ?_) (fun _ _ hnew => by cases hnew.1)
    -- the container is younger than every one that an attempt has made so far
    obtain ⟨⟨t, ht, heq⟩, -⟩ := hmine
    obtain ⟨hc', -⟩ := hnew
    cases hc'
    exact absurd (E.id_injective (hc.symm.trans heq)) (Nat.ne_of_gt ht)
  refine h.act (hadds.sane h.sane (fun _ _ hnew => by cases hnew.1)
    (fun _ _ hnew => by cases hnew.1)) (fun n' _ => hstable n') (fun m hm => h.index i m _ hg hm) ?_
  obtain ⟨hattempt', hrecorded, -, howns⟩ := hpart.stable (fun n' _ => hstable n')
  refine ⟨hattempt', hrecorded, fun c' hc' => ?_, howns⟩
  cases hc'
  refine ⟨⟨s.clock, by rw [hs']; exact Nat.lt_succ_self _, hc⟩, fun m hm => ?_⟩
  exact Option.some.inj (hm.symm.trans hself)

theorem Inv.write {own : Bool} {made : Option String} {config : WGConfig}
    {r : Except CallError Unit} (h : Inv E id w gs s)
    (hg : gs[i]? = some (.starting n id' own made))
    (hx : exec E (.writeConfig n (configPath id') config) s = some (r, s')) :
    Inv E id w gs s' := by
  obtain rfl | hs' := exec_writeConfig hx
  · exact h.calm (calm_tick s)
  obtain ⟨hattempt, -⟩ := h.part i _ hg
  have hadds : Adds (fun y m => y = .config (configPath id') ∧ m = n) s s' := by
    subst hs'
    refine ⟨rfl, rfl, fun y m hm => ?_, Nat.le_succ _, fun _ hg => .inl hg⟩
    cases y with
    | config path =>
      simp only [Host.creator, Map.lookup_insert] at hm
      split at hm
      next heq => exact .inr ⟨heq ▸ rfl, (Option.some.inj hm).symm⟩
      next => exact .inl hm
    | network name | container c => exact .inl hm
  refine ⟨hadds.sane h.sane (fun _ _ hnew => by cases hnew.1) (fun path m hnew => ?_), h.index,
    fun j q hq => (h.part j q hq).stable (fun n' _ => hadds.change.stable (by rw [hadds.attempts])
      (by rw [hs']; rfl) (fun _ _ hnew => by cases hnew.1) (fun _ _ hnew => by cases hnew.1))⟩
  obtain ⟨hpath, rfl⟩ := hnew
  cases hpath
  exact ⟨id', hattempt, rfl⟩

theorem Inv.record {c : String} {u : Unit} (h : Inv E id w gs s)
    (hg : gs[i]? = some (.starting n id' true (some c)))
    (hx : exec E (.assign n (.containerID c)) s = some (u, s')) : Inv E id w gs s' := by
  obtain ⟨-, hs'⟩ := exec_eq hx
  obtain rfl := h.index i n _ hg rfl
  have hadds : Adds (fun _ _ => False) s s' := by
    subst hs'
    exact ⟨rfl, rfl, fun y m hm => .inl (by cases y <;> exact hm), Nat.le_succ _,
      fun _ hg => .inl hg⟩
  have hothers : ∀ n', n' ≠ n → s'.recorded n' = s.recorded n' := by
    intro n' hne
    rw [hs']
    simp only [Host.act, Host.tick, Host.recorded, Map.lookup_modify, if_neg hne]
  obtain ⟨hattempt, ⟨c₀, hc₀, -⟩, hmade, howns⟩ := h.part n _ hg
  have hself : s'.recorded n = some c := by
    obtain ⟨o, ho, -⟩ := Option.map_eq_some_iff.mp hc₀
    rw [hs']
    simp only [Host.act, Host.tick, Host.recorded, Map.lookup_modify, if_pos, ho, Option.map_some,
      Assign.apply]
  have hmine : ∀ c, Mine E s n c → Mine E s' n c := by
    rintro c ⟨⟨t, ht, heq⟩, hcreator⟩
    exact ⟨⟨t, Nat.lt_of_lt_of_le ht hadds.clock, heq⟩, fun m hm =>
      hcreator m ((hadds.creators _ m hm).resolve_right not_false)⟩
  rw [← set_self hg]
  refine h.act
    (hadds.sane h.sane (fun _ _ => False.elim) (fun _ _ => False.elim))
    (fun n' hne => hadds.change.stable (by rw [hadds.attempts]) (hothers n' hne)
      (fun _ _ => False.elim) (fun _ _ => False.elim)) (fun m hm => h.index n m _ hg hm)
    ⟨hadds.attempts ▸ hattempt, ⟨c, hself, fun _ => ⟨rfl, hmine c (hmade c rfl)⟩⟩,
      fun c' hc' => hmine c' (hmade c' hc'), fun hown hid m hm phase hphase =>
        howns hown hid m ((hadds.creators _ m hm).resolve_right not_false) phase (hadds.attempts ▸ hphase)⟩

/-! The reservation, and the two ends of a cleanup. -/

theorem underway_iff {phase : Phase} (h : s.attempts.lookup n = some ⟨id', phase⟩)
    (hphase : phase ≠ .ended) : s.Underway n id ↔ id' = id := by
  unfold Host.Underway
  rw [h]
  constructor
  · rintro (heq | heq) <;> cases heq <;> rfl
  · rintro rfl
    cases phase with
    | starting => exact .inl rfl
    | cleaning => exact .inr rfl
    | ended => exact absurd rfl hphase

/-- The attempt `n` has begun or come to another phase, and nothing has been made. -/
structure Sets (n : Nat) (x : Attempt) (s s' : Host) : Prop where
  attempts : ∀ m, s'.attempts.lookup m = if m = n then some x else s.attempts.lookup m
  session : ∀ a, s.attempts.lookup n = some a → a.sessionID = x.sessionID
  creators : ∀ (y : Item) (m : Nat), s'.creator y = some m → s.creator y = some m
  clock : s.clock ≤ s'.clock
  spawned : s'.spawned = s.spawned

section

variable {x : Attempt}

theorem Sets.self (h : Sets n x s s') : s'.attempts.lookup n = some x :=
  (h.attempts n).trans (if_pos rfl)

theorem Sets.other (h : Sets n x s s') {m : Nat} (hm : m ≠ n) :
    s'.attempts.lookup m = s.attempts.lookup m := (h.attempts m).trans (if_neg hm)

theorem Sets.change (h : Sets n x s s') {k : Nat} (hs : Sane id k s) :
    Change (fun _ _ => False) s s' := by
  refine ⟨fun y m hm => .inl (h.creators y m hm), h.clock, fun name id'' m phase hm hphase => ?_⟩
  rw [h.attempts] at hphase
  split at hphase
  next heq =>
    cases hphase
    obtain ⟨a, ha⟩ := hs.networks name m hm
    obtain rfl : a.sessionID = id'' := h.session a (heq ▸ ha)
    exact ⟨a.phase, ha⟩
  next => exact ⟨phase, hphase⟩

theorem Sets.stable (h : Sets n x s s') {k : Nat} (hs : Sane id k s) {m : Nat} (hm : m ≠ n)
    (hrecorded : s'.recorded m = s.recorded m) : Stable E id s s' m :=
  (h.change hs).stable (h.other hm) hrecorded (fun _ _ => False.elim) (fun _ _ => False.elim)

theorem Sets.sane (h : Sets n x s s') {k : Nat} (hs : Sane id k s) (hlt : n < k)
    (hentry : ∀ m id'', s'.attempts.lookup m = some ⟨id'', .starting⟩ →
      s'.sessions.lookup id'' = some m)
    (hexclusive : s'.Exclusive id)
    (hconfigs : s'.creator (.config (configPath id)) = some n → s.Underway n id →
      s'.Underway n id) : Sane id k s' := by
  have hknown : ∀ m, (∃ a, s.attempts.lookup m = some a) → ∃ a, s'.attempts.lookup m = some a := by
    rintro m ⟨a, ha⟩
    rw [h.attempts]
    split
    · exact ⟨_, rfl⟩
    · exact ⟨a, ha⟩
  refine ⟨fun m a hm => ?_, hentry, hexclusive,
    fun name m hm => hknown m (hs.networks name m (h.creators _ m hm)),
    fun path m hm => hknown m (hs.files path m (h.creators _ m hm)), fun path m phase hm hphase => ?_,
    fun g hg => hs.spawned g (h.spawned ▸ hg)⟩
  · rw [h.attempts] at hm
    split at hm
    next heq => exact heq ▸ hlt
    next => exact hs.bound m a hm
  · by_cases heq : m = n
    · subst heq
      obtain ⟨⟨id'', phase'⟩, ha⟩ := hs.files path m (h.creators _ m hm)
      obtain rfl : id'' = id := by
        rw [h.self] at hphase
        cases hphase
        exact h.session _ ha
      obtain ⟨hunderway, rfl⟩ := hs.configs path m phase' (h.creators _ m hm) ha
      exact ⟨hconfigs hm hunderway, rfl⟩
    · rw [h.other heq] at hphase
      rw [underway_congr (h.other heq)]
      exact hs.configs path m phase (h.creators _ m hm) hphase

end

theorem Inv.reserve (h : Inv E id w gs s) (hg : gs[i]? = some (.fresh n))
    (hx : exec E (.reserve n id') s = some (true, s')) (hpatient : Patient id (.reserve n id') s true) :
    Inv E id w (gs.set i (.starting n id' false none)) s' := by
  obtain ⟨hok, -⟩ | ⟨-, hnone, hs'⟩ := exec_reserve hx
  · cases hok
  obtain rfl := h.index i n _ hg rfl
  have hfresh : s.attempts.lookup n = none := h.part n _ hg
  have hlt : n < gs.length := (List.getElem?_eq_some_iff.mp hg).1
  have hsets : Sets n ⟨id', .starting⟩ s s' := by
    subst hs'
    refine ⟨fun m => Map.lookup_insert .., fun a ha => ?_, fun y m hm => ?_, Nat.le_succ _, rfl⟩
    · rw [hfresh] at ha
      cases ha
    · exact (creator_of_eq rfl rfl rfl y).symm.trans hm
  have hkept : ∀ {m : Nat} {id'' : String}, m ≠ n → (s'.Underway m id'' ↔ s.Underway m id'') :=
    fun hm => underway_congr (hsets.other hm)
  -- an earlier attempt would have the entry, or would be cleaning up
  have hfirst : id' = id → ∀ m, ¬s.Underway m id := by
    rintro rfl m (hm | hm)
    · rw [h.sane.entry m _ hm] at hnone
      cases hnone
    · exact hpatient rfl m (Map.mem_keys_iff.mpr ⟨_, hm⟩) hm
  refine h.act (hsets.sane h.sane hlt (fun m id'' hm => ?_) (fun m m' hm hm' => ?_)
    (fun _ hunderway => ?_)) (fun n' hn' => hsets.stable h.sane hn' ?_)
    (fun m hm => (Option.some.inj hm).symm) ?_
  · rw [hsets.attempts] at hm
    rw [hs', Map.lookup_insert]
    split at hm
    next heq =>
      cases hm
      rw [if_pos rfl, heq]
    next =>
      have hentry := h.sane.entry m id'' hm
      rw [if_neg (fun heq => by rw [heq, hnone] at hentry; cases hentry)]
      exact hentry
  · by_cases hmn : m = n <;> by_cases hmn' : m' = n
    · exact hmn.trans hmn'.symm
    · subst hmn
      exact absurd ((hkept hmn').mp hm') (hfirst ((underway_iff hsets.self (by decide)).mp hm) m')
    · subst hmn'
      exact absurd ((hkept hmn).mp hm) (hfirst ((underway_iff hsets.self (by decide)).mp hm') m)
    · exact h.sane.exclusive m m' ((hkept hmn).mp hm) ((hkept hmn').mp hm')
  · unfold Host.Underway at hunderway
    rw [hfresh] at hunderway
    obtain hunderway | hunderway := hunderway <;> cases hunderway
  · rw [hs']
    simp only [Host.recorded, Map.lookup_insert, if_neg hn']
  · refine ⟨hsets.self, ⟨"", ?_, fun hne => absurd rfl hne⟩, fun _ hc => (by cases hc),
      fun hown => (by cases hown)⟩
    rw [hs']
    simp only [Host.recorded, Map.lookup_insert, if_pos, Option.map_some]

/-- The attempt `n` has come to another phase. -/
theorem lookup_phase {phase phase' : Phase} (h : s.attempts.lookup n = some ⟨id', phase⟩) (m : Nat) :
    (s.attempts.modify n (fun a => { a with phase := phase' })).lookup m =
      if m = n then some ⟨id', phase'⟩ else s.attempts.lookup m := by
  rw [Map.lookup_modify, h]
  rfl

theorem sessionID_eq {a : Attempt} {phase : Phase} (h : s.attempts.lookup n = some ⟨id', phase⟩)
    (ha : s.attempts.lookup n = some a) : a.sessionID = id' := by
  rw [h] at ha
  cases ha
  rfl

theorem Inv.release {own : Bool} {made : Option String} {u : Unit} (h : Inv E id w gs s)
    (hg : gs[i]? = some (.starting n id' own made))
    (hx : exec E (.release n id') s = some (u, s')) :
    Inv E id w (gs.set i (.cleaning n id' none)) s' := by
  obtain ⟨-, hs'⟩ := exec_eq hx
  obtain rfl := h.index i n _ hg rfl
  obtain ⟨hattempt, ⟨c, hc, hrecorded⟩, -, howns⟩ := h.part n _ hg
  have hcreator : ∀ x, s'.creator x = s.creator x := by
    subst hs'
    exact creator_of_eq rfl rfl rfl
  have hsets : Sets n ⟨id', .cleaning⟩ s s' := by
    refine ⟨?_, fun a => sessionID_eq hattempt, fun y m hm => (hcreator y).symm.trans hm, ?_, ?_⟩
    · rw [hs']
      exact lookup_phase hattempt
    · rw [hs']
      exact Nat.le_succ _
    · rw [hs']
      rfl
  have hunderway : ∀ {m : Nat} {id'' : String}, s'.Underway m id'' ↔ s.Underway m id'' := by
    intro m id''
    by_cases hm : m = n
    · rw [hm, underway_iff hsets.self (by decide), underway_iff hattempt (by decide)]
    · exact underway_congr (hsets.other hm)
  have hstays : ∀ m, s'.recorded m = s.recorded m := by
    intro m
    rw [hs']
    rfl
  refine h.act (hsets.sane h.sane (h.sane.bound n _ hattempt) (fun m id'' hm => ?_)
    (fun m m' hm hm' => h.sane.exclusive m m' (hunderway.mp hm) (hunderway.mp hm'))
    (fun _ hm => hunderway.mpr hm)) (fun n' hn' => hsets.stable h.sane hn' (hstays n'))
    (fun m hm => (Option.some.inj hm).symm) ?_
  · rw [hsets.attempts] at hm
    split at hm
    · cases hm
    next hne =>
      -- only the attempt itself has the entry that is deleted
      have hentry := h.sane.entry m id'' hm
      rw [hs']
      refine (Map.lookup_erase _ _ _).trans ((if_neg (fun heq => hne ?_)).trans hentry)
      rw [heq, h.sane.entry n id' hattempt] at hentry
      exact (Option.some.inj hentry).symm
  · refine ⟨hsets.self, c, (hstays n).trans hc, fun _ hrs => (by cases hrs), fun hne => ?_⟩
    obtain ⟨hown, ⟨t, ht, heq⟩, hmine⟩ := hrecorded hne
    refine ⟨⟨⟨t, Nat.lt_of_lt_of_le ht hsets.clock, heq⟩, fun m hm =>
      hmine m ((hcreator _).symm.trans hm)⟩, fun hid m hm phase hphase => ?_⟩
    have hm := (hcreator _).symm.trans hm
    obtain ⟨phase', hphase'⟩ := (hsets.change h.sane).session _ _ m phase hm hphase
    exact howns hown hid m hm phase' hphase'

theorem Inv.clean {rs₀ : Option RunningSession} {r : Except CallError Unit} (h : Inv E id w gs s)
    (hg : gs[i]? = some (.cleaning n id' rs₀))
    (hx : exec E (.removeConfig (some n) (configPath id')) s = some (r, s'))
    (hremoves : Removes id (.removeConfig (some n) (configPath id')) s r) :
    Inv E id w (gs.set i .ended) s' := by
  obtain ⟨configs, hs', hcases⟩ := exec_removeConfig hx
  obtain rfl := h.index i n _ hg rfl
  have hattempt := (h.part n _ hg).1
  have hcreators : ∀ (x : Item) (m : Nat), s'.creator x = some m → s.creator x = some m := by
    intro x m hm
    rw [hs'] at hm
    cases x with
    | config path =>
      obtain ⟨-, hlookup⟩ | ⟨-, hsame, -⟩ := hcases
      · simp only [Host.creator, hlookup] at hm
        split at hm
        · cases hm
        · exact hm
      · simp only [Host.creator, hsame] at hm
        exact hm
    | container c | network name => exact hm
  have hsets : Sets n ⟨id', .ended⟩ s s' := by
    refine ⟨?_, fun a => sessionID_eq hattempt, hcreators, ?_, ?_⟩
    · rw [hs']
      exact lookup_phase hattempt
    · rw [hs']
      exact Nat.le_succ _
    · rw [hs']
      rfl
  have hself : ∀ {id'' : String}, ¬s'.Underway n id'' := by
    rintro id'' (hm | hm) <;> rw [hsets.self] at hm <;> cases hm
  have hshrinks : ∀ {m : Nat}, s'.Underway m id → s.Underway m id := by
    intro m hm
    by_cases hne : m = n
    · exact absurd (hne ▸ hm) hself
    · exact (underway_congr (hsets.other hne)).mp hm
  refine h.act (hsets.sane h.sane (h.sane.bound n _ hattempt) (fun m id'' hm => ?_)
    (fun m m' hm hm' => h.sane.exclusive m m' (hshrinks hm) (hshrinks hm'))
    (fun hm hunderway => ?_))
    (fun n' hn' => hsets.stable h.sane hn' (by rw [hs']; rfl)) (fun m hm => by cases hm) trivial
  · rw [hsets.attempts] at hm
    split at hm
    · cases hm
    · rw [hs']
      exact h.sane.entry m id'' hm
  · -- the file of an attempt to start the session is gone
    obtain rfl := (underway_iff hattempt (by decide)).mp hunderway
    obtain ⟨-, hlookup⟩ | ⟨rfl, -⟩ := hcases
    · rw [hs'] at hm
      simp only [Host.creator, hlookup, if_pos] at hm
      cases hm
    · exact absurd hattempt (hremoves n rfl)

theorem Inv.load {rs₀ : Option RunningSession} {rs : RunningSession} (h : Inv E id w gs s)
    (hg : gs[i]? = some (.cleaning n id' rs₀)) (hx : exec E (.load n) s = some (rs, s')) :
    Inv E id w (gs.set i (.cleaning n id' (some rs))) s' := by
  obtain ⟨hrs, hs'⟩ := exec_eq hx
  have hcalm : Calm s s' := by
    rw [hs']
    exact calm_tick s
  refine h.act (hcalm.sane h.sane) (fun n' _ => hcalm.stable n') (fun m hm => h.index i m _ hg hm) ?_
  obtain ⟨hattempt, c, hc, -, hrecorded⟩ := (h.part i _ hg).stable (fun n' _ => hcalm.stable n')
  refine ⟨hattempt, c, hc, fun rs' hrs' => ?_, hrecorded⟩
  cases hrs'
  obtain ⟨o, ho, rfl⟩ := Option.map_eq_some_iff.mp ((hcalm.recorded n).symm.trans hc)
  rw [hrs]
  simp only [Host.act, ho, Option.getD_some]

theorem contract_sound (E : Env) (id : String) :
    contract.Sound (guarded (exec E) (Careful id)) (Inv E id) where
  act := by
    intro w gs s i g a res s' h hg hx
    obtain ⟨hx, hpatient, hremoves⟩ := guarded_eq_some.mp hx
    refine ⟨trivial, fun w' g' hm => ⟨trivial, ?_⟩⟩
    cases hm with
    | quiet ha =>
      rw [set_self hg]
      exact h.calm (quiet_exec ha hx).toCalm
    | reserve => exact h.reserve hg hx hpatient
    | present =>
      obtain ⟨-, rfl⟩ | ⟨hok, -⟩ := exec_reserve hx
      · exact h.act ((calm_tick s).sane h.sane) (fun n _ => (calm_tick s).stable n)
          (fun m hm => by cases hm) trivial
      · cases hok
    | stale =>
      rw [set_self hg]
      exact h.calm (calm_networkRemove hx)
    | network => exact h.network hg hx
    | noNetwork =>
      rw [set_self hg, exec_networkCreate_error hx]
      exact h.calm (calm_tick s)
    | collision =>
      rw [set_self hg]
      exact h.calm (calm_containerRemoveNamed hx)
    | create => exact h.create hg hx
    | noContainer =>
      rw [set_self hg, exec_containerCreate_error hx]
      exact h.calm (calm_tick s)
    | record =>
      rw [set_self hg]
      exact h.record hg hx
    | write =>
      rw [set_self hg]
      exact h.write hg hx
    | release => exact h.release hg hx
    | load => exact h.load hg hx
    | container =>
      rw [set_self hg]
      exact h.calm (calm_containerRemove hx)
    | unlink =>
      rw [set_self hg]
      exact h.calm (calm_networkRemove hx)
    | clean => exact h.clean hg hx hremoves

end Exclusion

end PeerCompute.Agent
