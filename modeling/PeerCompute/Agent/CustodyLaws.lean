import PeerCompute.Agent.Custody
import PeerCompute.Agent.HostLaws
import PeerCompute.Interleaving.Guard

/-! The invariant: what exists is recorded in the map, or somebody is about to remove it. -/

namespace PeerCompute.Agent

open PeerCompute.Data PeerCompute.Interleaving PeerCompute.Computev1 Prog Contract

namespace Custody

variable {g : Part} {n m : Nat} {id : String} {rs : RunningSession} {w : Still}

/-- The number of a `startSession` that has not come to its end. -/
def Part.attempt : Part → Option Nat
  | .fresh n | .starting n _ _ _ => some n
  | _ => none

/-- The container that is still to be recorded. -/
def Part.Carries : Part → Resource → Prop
  | .starting _ _ made _, .container c => made = some c
  | _, _ => False

/-- The `runningSession` is in the map, or a goroutine that has taken it still has the duty. -/
def Keeps (gs : List Part) (s : Host) (m : Nat) (d : Duty) : Prop :=
  (∃ id, s.sessions.lookup id = some m) ∨
    ∃ (i : Nat) (rs : Option RunningSession) (ds : List Duty),
      gs[i]? = some (.holding m rs ds) ∧ d ∈ ds

def Covered (gs : List Part) (s : Host) (r : Resource) : Prop :=
  (∃ m rs, Keeps gs s m (.of r) ∧ s.objects.lookup m = some rs ∧ rs.Records r) ∨
    ∃ (i : Nat) (g : Part), gs[i]? = some g ∧ g.Carries r

def Part.Ok (s : Host) : Part → Prop
  | .free | .fresh _ | .registered _ => True
  | .starting n id made rs => s.sessions.lookup id = some n ∧
    (∃ o, s.objects.lookup n = some o ∧ Alike rs o) ∧ ¬rs.Records (.proxy n) ∧
    ∀ c, made = some c → c ≠ ""
  | .holding m rs₀ _ => (∀ id, s.sessions.lookup id ≠ some m) ∧
    ∃ o, s.objects.lookup m = some o ∧ ∀ rs, rs₀ = some rs → Alike rs o

/-- Every entry of the map has a `runningSession` of its own. -/
structure Sane (k : Nat) (s : Host) : Prop where
  bound : ∀ (m : Nat) (rs : RunningSession), s.objects.lookup m = some rs → m < k
  tracked : ∀ (id : String) (m : Nat), s.sessions.lookup id = some m →
    ∃ rs, s.objects.lookup m = some rs
  unique : ∀ (id id' : String) (m : Nat), s.sessions.lookup id = some m →
    s.sessions.lookup id' = some m → id = id'

structure Inv (_ : Still) (gs : List Part) (s : Host) : Prop where
  sane : Sane gs.length s
  index : ∀ (i n : Nat) (g : Part), gs[i]? = some g → g.attempt = some n → n = i
  fresh : ∀ (i n : Nat), gs[i]? = some (.fresh n) → s.objects.lookup n = none
  part : ∀ (i : Nat) (g : Part), gs[i]? = some g → g.Ok s
  covered : ∀ r, s.Has r → Covered gs s r
  promised : ∀ (i n : Nat), gs[i]? = some (.registered n) →
    ⟨n, .sshProxy⟩ ∈ s.cancelled ∨ Covered gs s (.proxy n)

/-- The map and the recorded fields are as before, and what has been cancelled stays so. -/
structure Same (s s' : Host) : Prop where
  sessions : ∀ id, s'.sessions.lookup id = s.sessions.lookup id
  objects : ∀ (m : Nat) (rs : RunningSession), s.objects.lookup m = some rs →
    ∃ rs', s'.objects.lookup m = some rs' ∧ Alike rs rs'
  absent : ∀ m, s.objects.lookup m = none → s'.objects.lookup m = none
  cancelled : ∀ c ∈ s.cancelled, c ∈ s'.cancelled

variable {E : Env} {s s' : Host} {gs : List Part} {i : Nat} {g' : Part} {r : Resource} {a : Action}
  {res : a.Res}

theorem Alike.records {rs' : RunningSession} (h : Alike rs rs') (hr : rs.Records r) :
    rs'.Records r := by
  cases r with
  | container c =>
    obtain ⟨hc, hne⟩ := hr
    exact ⟨h.containerID.trans hc, hne⟩
  | interface name =>
    obtain ⟨hne, hname⟩ := hr
    exact ⟨h.wgConfPath ▸ hne, h.wgConfPath ▸ hname⟩
  | proxy n =>
    have hr' : ⟨n, .sshProxy⟩ ∈ rs.relayCancel.getD [] := hr
    rw [← h.relayCancel] at hr'
    exact hr'

theorem Alike.trans {rs' rs'' : RunningSession} (h : Alike rs rs') (h' : Alike rs' rs'') :
    Alike rs rs'' :=
  ⟨h'.containerID.trans h.containerID, h'.wgConfPath.trans h.wgConfPath,
    h'.relayCancel.trans h.relayCancel⟩

theorem Alike.symm {rs' : RunningSession} (h : Alike rs rs') : Alike rs' rs :=
  ⟨h.containerID.symm, h.wgConfPath.symm, h.relayCancel.symm⟩

theorem Alike.refl (rs : RunningSession) : Alike rs rs := ⟨rfl, rfl, rfl⟩

theorem Same.of_eq (hs : s'.sessions = s.sessions) (ho : s'.objects = s.objects)
    (hc : ∀ c ∈ s.cancelled, c ∈ s'.cancelled) : Same s s' where
  sessions id := by rw [hs]
  objects m rs hm := ⟨rs, by rw [ho, hm], .refl rs⟩
  absent m hm := by rw [ho, hm]
  cancelled := hc

theorem Same.ok (h : Same s s') {q : Part} (hq : q.Ok s) : q.Ok s' := by
  cases q with
  | free | fresh | registered => trivial
  | starting n id made rs =>
    obtain ⟨htracked, ⟨o, ho, halike⟩, hproxy, hmade⟩ := hq
    obtain ⟨o', ho', halike'⟩ := h.objects n o ho
    exact ⟨(h.sessions id).trans htracked, ⟨o', ho', halike.trans halike'⟩, hproxy, hmade⟩
  | holding m rs₀ ds =>
    obtain ⟨huntracked, o, ho, halike⟩ := hq
    obtain ⟨o', ho', halike'⟩ := h.objects m o ho
    exact ⟨fun id => (h.sessions id) ▸ huntracked id, o', ho',
      fun rs hrs => (halike rs hrs).trans halike'⟩

theorem Same.sane (h : Same s s') {k : Nat} (hs : Sane k s) : Sane k s' where
  bound m rs hm := by
    cases hm' : s.objects.lookup m with
    | none =>
      rw [h.absent m hm'] at hm
      cases hm
    | some rs' => exact hs.bound m rs' hm'
  tracked id m hid := by
    obtain ⟨rs, hrs⟩ := hs.tracked id m ((h.sessions id).symm.trans hid)
    obtain ⟨rs', hrs', -⟩ := h.objects m rs hrs
    exact ⟨rs', hrs'⟩
  unique id id' m hid hid' :=
    hs.unique id id' m ((h.sessions id).symm.trans hid) ((h.sessions id').symm.trans hid')

/-- What another goroutine keeps, it still keeps; what the moving one has kept is accounted for. -/
theorem Covered.move (h : Covered gs s r) (hg : gs[i]? = some g)
    (hgrows : ∀ m rs, s.objects.lookup m = some rs → rs.Records r →
      ∃ rs', s'.objects.lookup m = some rs' ∧ rs'.Records r)
    (htracked : ∀ id m rs, s.sessions.lookup id = some m → s.objects.lookup m = some rs →
      rs.Records r → Keeps (gs.set i g') s' m (.of r))
    (hheld : ∀ m rs₀ ds rs, g = .holding m rs₀ ds → .of r ∈ ds → s.objects.lookup m = some rs →
      rs.Records r → Keeps (gs.set i g') s' m (.of r))
    (hcarried : g.Carries r → Covered (gs.set i g') s' r) : Covered (gs.set i g') s' r := by
  obtain ⟨m, rs, hkeeps, hm, hr⟩ | ⟨j, q, hq, hcarries⟩ := h
  · obtain ⟨rs', hm', hr'⟩ := hgrows m rs hm hr
    refine .inl ⟨m, rs', ?_, hm', hr'⟩
    obtain ⟨id, hid⟩ | ⟨j, rs₀, ds, hq, hd⟩ := hkeeps
    · exact htracked id m rs hid hm hr
    · by_cases hj : j = i
      · subst hj
        rw [hg] at hq
        exact hheld m rs₀ ds rs (Option.some.inj hq) hd hm hr
      · exact .inr ⟨j, rs₀, ds, (List.getElem?_set_ne (Ne.symm hj)).trans hq, hd⟩
  · by_cases hj : j = i
    · subst hj
      rw [hg] at hq
      cases hq
      exact hcarried hcarries
    · exact .inr ⟨j, q, (List.getElem?_set_ne (Ne.symm hj)).trans hq, hcarries⟩

/-- The resource is not there any more. -/
def Gone (s : Host) : Resource → Prop
  | .container id => s.containers.lookup id = none
  | .interface name => name ∉ s.interfaces
  | .proxy n => ⟨n, .sshProxy⟩ ∈ s.cancelled

theorem Gone.not_has (h : Gone s r) : ¬s.Has r := by
  cases r with
  | container id =>
    have h : s.containers.lookup id = none := h
    simp [Host.Has, h]
  | interface name => exact h
  | proxy n => exact fun hhas => hhas.2 h

/-- A move of the goroutine `i`: what was covered before is still covered or gone, and what is new
is covered. -/
theorem Inv.set (h : Inv w gs s) (hsane : Sane gs.length s')
    (hindex : ∀ n, g'.attempt = some n → n = i)
    (hfresh : ∀ j n, j ≠ i → gs[j]? = some (.fresh n) → s'.objects.lookup n = none)
    (hne : ∀ n, g' ≠ .fresh n)
    (hothers : ∀ (j : Nat) (q : Part), j ≠ i → gs[j]? = some q → q.Ok s → q.Ok s') (hok : g'.Ok s')
    (hcancelled : ∀ c ∈ s.cancelled, c ∈ s'.cancelled)
    (hmove : ∀ r, Covered gs s r → Covered (gs.set i g') s' r ∨ Gone s' r)
    (hnew : ∀ r, s'.Has r → s.Has r ∨ Covered (gs.set i g') s' r)
    (hself : ∀ n, g' = .registered n → Covered (gs.set i g') s' (.proxy n)) :
    Inv w (gs.set i g') s' := by
  refine ⟨by rwa [List.length_set], fun j n q hq hn => ?_, fun j n hq => ?_, fun j q hq => ?_,
    fun r hr => ?_, fun j n hq => ?_⟩
  · obtain ⟨rfl, rfl⟩ | ⟨-, hq⟩ := getElem?_set_elim hq
    · exact hindex n hn
    · exact h.index j n q hq hn
  · obtain ⟨-, heq⟩ | ⟨hj, hq⟩ := getElem?_set_elim hq
    · exact absurd heq.symm (hne n)
    · exact hfresh j n hj hq
  · obtain ⟨-, rfl⟩ | ⟨hj, hq⟩ := getElem?_set_elim hq
    · exact hok
    · exact hothers j q hj hq (h.part j q hq)
  · obtain hold | hcov := hnew r hr
    · exact (hmove r (h.covered r hold)).resolve_right (fun hgone => hgone.not_has hr)
    · exact hcov
  · obtain ⟨-, heq⟩ | ⟨hj, hq⟩ := getElem?_set_elim hq
    · exact .inr (hself n heq.symm)
    · obtain hc | hcov := h.promised j n hq
      · exact .inl (hcancelled _ hc)
      · exact (hmove _ hcov).symm

/-- A move that leaves the map and the recorded fields as they are. -/
theorem Inv.same (h : Inv w gs s) (hsame : Same s s') (hindex : ∀ n, g'.attempt = some n → n = i)
    (hne : ∀ n, g' ≠ .fresh n) (hok : g'.Ok s')
    (hmove : ∀ r, Covered gs s r → Covered (gs.set i g') s' r ∨ Gone s' r)
    (hnew : ∀ r, s'.Has r → s.Has r ∨ Covered (gs.set i g') s' r)
    (hself : ∀ n, g' ≠ .registered n) : Inv w (gs.set i g') s' :=
  h.set (hsame.sane h.sane) hindex (fun j n _ hq => hsame.absent n (h.fresh j n hq)) hne
    (fun _ _ _ _ hq => hsame.ok hq) hok hsame.cancelled hmove hnew
    (fun n heq => absurd heq (hself n))

theorem Same.grows (h : Same s s') (m : Nat) (rs : RunningSession)
    (hm : s.objects.lookup m = some rs) (hr : rs.Records r) :
    ∃ rs', s'.objects.lookup m = some rs' ∧ rs'.Records r := by
  obtain ⟨rs', hm', halike⟩ := h.objects m rs hm
  exact ⟨rs', hm', halike.records hr⟩

theorem Same.tracked (h : Same s s') {d : Duty} {hs : List Part} (hid : s.sessions.lookup id = some m) :
    Keeps hs s' m d := .inl ⟨id, (h.sessions id).trans hid⟩

/-- A covered resource stays covered when the moving goroutine keeps what it has kept. -/
theorem Covered.same (h : Covered gs s r) (hg : gs[i]? = some g) (hsame : Same s s')
    (hheld : ∀ m rs₀ ds rs, g = .holding m rs₀ ds → .of r ∈ ds → s.objects.lookup m = some rs →
      rs.Records r → Keeps (gs.set i g') s' m (.of r))
    (hcarried : g.Carries r → Covered (gs.set i g') s' r) : Covered (gs.set i g') s' r :=
  h.move hg hsame.grows (fun _ _ _ hid _ _ => hsame.tracked hid) hheld hcarried

theorem Inv.quiet (h : Inv w gs s) (hsame : Same s s') (hhas : ∀ r, s'.Has r → s.Has r) :
    Inv w gs s' := by
  have hmove : ∀ r, Covered gs s r → Covered gs s' r := by
    rintro r (⟨m, rs, hkeeps, hm, hr⟩ | hcarried)
    · obtain ⟨rs', hm', hr'⟩ := hsame.grows m rs hm hr
      refine .inl ⟨m, rs', ?_, hm', hr'⟩
      obtain ⟨id, hid⟩ | hheld := hkeeps
      · exact hsame.tracked hid
      · exact .inr hheld
    · exact .inr hcarried
  refine ⟨hsame.sane h.sane, h.index, fun j n hq => hsame.absent n (h.fresh j n hq),
    fun j q hq => hsame.ok (h.part j q hq), fun r hr => hmove r (h.covered r (hhas r hr)),
    fun j n hq => ?_⟩
  · obtain hc | hcov := h.promised j n hq
    · exact .inl (hsame.cancelled _ hc)
    · exact .inr (hmove _ hcov)

/-- Nothing has been added. -/
structure Less (s s' : Host) : Prop where
  same : Same s s'
  containers : ∀ id, (s'.containers.lookup id).isSome = true → (s.containers.lookup id).isSome = true
  interfaces : ∀ name ∈ s'.interfaces, name ∈ s.interfaces
  proxies : ∀ n ∈ s'.proxies, n ∈ s.proxies

theorem Less.has (h : Less s s') (hr : s'.Has r) : s.Has r := by
  cases r with
  | container id => exact h.containers id hr
  | interface name => exact h.interfaces name hr
  | proxy n => exact ⟨h.proxies n hr.1, fun hc => hr.2 (h.same.cancelled _ hc)⟩

theorem Less.refl (s : Host) : Less s s :=
  ⟨.of_eq rfl rfl (fun _ hc => hc), fun _ hc => hc, fun _ hc => hc, fun _ hc => hc⟩

/-- A change of what is of no concern here. -/
theorem Less.of_eq (hs : s'.sessions = s.sessions) (ho : s'.objects = s.objects)
    (hd : s'.cancelled = s.cancelled) (hc : s'.containers = s.containers)
    (hi : s'.interfaces = s.interfaces) (hp : s'.proxies = s.proxies) : Less s s' :=
  ⟨.of_eq hs ho (fun _ h => hd ▸ h), fun _ h => hc ▸ h, fun _ h => hi ▸ h, fun _ h => hp ▸ h⟩

theorem less_erase (c : String) : Less s { s with containers := s.containers.erase c } := by
  refine ⟨.of_eq rfl rfl (fun _ hc => hc), fun id hid => ?_, fun _ hc => hc, fun _ hc => hc⟩
  dsimp only at hid
  rw [Map.lookup_erase] at hid
  split at hid
  · cases hid
  · exact hid

/-- `ContainerStart` and `ContainerStop` change a container that is there. -/
theorem less_replace {c : String} {x y : Container} (hx : s.containers.lookup c = some x) :
    Less s { s with containers := s.containers.insert c y } := by
  refine ⟨.of_eq rfl rfl (fun _ hc => hc), fun id hid => ?_, fun _ hc => hc, fun _ hc => hc⟩
  dsimp only at hid
  rw [Map.lookup_insert] at hid
  split at hid
  next heq =>
    rw [heq, hx]
    rfl
  next => exact hid

theorem less_setConnMode (m : Nat) (mode : String) :
    Less s { s with objects := s.objects.modify m (fun rs => { rs with connMode := mode }) } := by
  refine ⟨⟨fun _ => rfl, fun m' rs hrs => ?_, fun m' hnone => ?_, fun _ hc => hc⟩, fun _ hc => hc,
    fun _ hc => hc, fun _ hc => hc⟩
  · dsimp only
    rw [Map.lookup_modify]
    split
    next heq =>
      subst heq
      rw [hrs]
      exact ⟨_, rfl, rfl, rfl, rfl⟩
    next => exact ⟨rs, hrs, .refl rs⟩
  · dsimp only
    rw [Map.lookup_modify]
    split
    next heq =>
      subst heq
      rw [hnone]
      rfl
    next => exact hnone

theorem less_tick (h : Less s s') : Less s s'.tick := ⟨⟨h.same.sessions, h.same.objects,
  h.same.absent, h.same.cancelled⟩, h.containers, h.interfaces, h.proxies⟩

theorem quiet_exec (ha : Quiet a) (hx : exec E a s = some (res, s')) : Less s s' := by
  obtain ⟨t, htouch, rfl⟩ := exec_touch hx
  refine less_tick ?_
  cases htouch with
  | reserve | release | take | registerProxy | assign | runSSHProxy | containerCreate | wgUp =>
    cases ha
  | nothing => exact .refl s
  | setConnMode => exact less_setConnMode _ _
  | cancel =>
    exact ⟨.of_eq rfl rfl (fun _ hc => List.mem_append_right _ hc), fun _ hc => hc, fun _ hc => hc,
      fun _ hc => hc⟩
  | cancelRun | runRelayClient | networkRemove | networkCreate | writeConfig | endCleanup |
    removeConfig | updateSessionStatus | go => exact .of_eq rfl rfl rfl rfl rfl rfl
  | containerRemoveNamed | containerRemove => exact less_erase _
  | containerStart hc => exact less_replace hc
  | containerStop hc => exact less_replace hc
  | wgDown =>
    exact ⟨.of_eq rfl rfl (fun _ hc => hc), fun _ hc => hc, fun _ hc => (List.mem_filter.mp hc).1,
      fun _ hc => hc⟩

/-! ## Changes of the map -/

theorem Sane.untracked {k : Nat} (h : Sane k s) (hn : s.objects.lookup n = none) (id : String) :
    s.sessions.lookup id ≠ some n := by
  intro hid
  obtain ⟨rs, hrs⟩ := h.tracked id n hid
  rw [hn] at hrs
  cases hrs

/-- An ID and an empty `runningSession`, neither of which has been there, are added. -/
structure Adds (n : Nat) (id : String) (s s' : Host) : Prop where
  absent : s.sessions.lookup id = none
  unused : s.objects.lookup n = none
  sessions : ∀ id', s'.sessions.lookup id' = if id' = id then some n else s.sessions.lookup id'
  objects : ∀ m, s'.objects.lookup m = if m = n then some {} else s.objects.lookup m

theorem Adds.session (h : Adds n id s s') {id' : String} (hid : s.sessions.lookup id' = some m) :
    s'.sessions.lookup id' = some m := by
  rw [h.sessions, if_neg (fun heq => by rw [heq, h.absent] at hid; cases hid)]
  exact hid

theorem Adds.object (h : Adds n id s s') (hm : s.objects.lookup m = some rs) :
    s'.objects.lookup m = some rs := by
  rw [h.objects, if_neg (fun heq => by rw [heq, h.unused] at hm; cases hm)]
  exact hm

theorem Adds.sane (h : Adds n id s s') {k : Nat} (hs : Sane k s) (hlt : n < k) : Sane k s' where
  bound m rs hm := by
    rw [h.objects] at hm
    split at hm
    next heq => exact heq ▸ hlt
    next => exact hs.bound m rs hm
  tracked id' m hid := by
    rw [h.sessions] at hid
    split at hid
    · cases hid
      exact ⟨_, (h.objects n).trans (if_pos rfl)⟩
    · obtain ⟨rs, hrs⟩ := hs.tracked id' m hid
      exact ⟨rs, h.object hrs⟩
  unique id₁ id₂ m h₁ h₂ := by
    rw [h.sessions] at h₁ h₂
    split at h₁ <;> split at h₂
    next heq heq' => exact heq.trans heq'.symm
    next =>
      cases h₁
      exact absurd h₂ (hs.untracked h.unused id₂)
    next =>
      cases h₂
      exact absurd h₁ (hs.untracked h.unused id₁)
    next => exact hs.unique id₁ id₂ m h₁ h₂

theorem Adds.ok (h : Adds n id s s') {q : Part} (hq : q.Ok s) : q.Ok s' := by
  cases q with
  | free | fresh | registered => trivial
  | starting n' id' made rs =>
    obtain ⟨htracked, ⟨o, ho, halike⟩, hproxy, hmade⟩ := hq
    exact ⟨h.session htracked, ⟨o, h.object ho, halike⟩, hproxy, hmade⟩
  | holding m rs₀ ds =>
    obtain ⟨huntracked, o, ho, halike⟩ := hq
    refine ⟨fun id' hid => ?_, o, h.object ho, halike⟩
    rw [h.sessions] at hid
    split at hid
    · cases hid
      rw [h.unused] at ho
      cases ho
    · exact huntracked id' hid

/-- The ID is taken out of the map. -/
structure Drops (m : Nat) (id : String) (s s' : Host) : Prop where
  present : s.sessions.lookup id = some m
  sessions : ∀ id', s'.sessions.lookup id' = if id' = id then none else s.sessions.lookup id'
  objects : s'.objects = s.objects

theorem Drops.kept (h : Drops m id s s') {id' : String} {m' : Nat} (hne : m' ≠ m)
    (hid : s.sessions.lookup id' = some m') : s'.sessions.lookup id' = some m' := by
  rw [h.sessions, if_neg]
  · exact hid
  · rintro rfl
    rw [h.present] at hid
    exact hne (Option.some.inj hid).symm

theorem Drops.old (h : Drops m id s s') {id' : String} {m' : Nat}
    (hid : s'.sessions.lookup id' = some m') : s.sessions.lookup id' = some m' := by
  rw [h.sessions] at hid
  split at hid
  · cases hid
  · exact hid

theorem Drops.untracked (h : Drops m id s s') {k : Nat} (hs : Sane k s) (id' : String) :
    s'.sessions.lookup id' ≠ some m := by
  intro hid
  have hold := h.old hid
  rw [h.sessions, if_pos (hs.unique id' id m hold h.present)] at hid
  cases hid

theorem Drops.sane (h : Drops m id s s') {k : Nat} (hs : Sane k s) : Sane k s' where
  bound m' rs hm := hs.bound m' rs (h.objects ▸ hm)
  tracked id' m' hid := h.objects ▸ hs.tracked id' m' (h.old hid)
  unique id₁ id₂ m' h₁ h₂ := hs.unique id₁ id₂ m' (h.old h₁) (h.old h₂)

theorem Drops.ok (h : Drops m id s s') {q : Part} (hne : ∀ id' made rs, q ≠ .starting m id' made rs)
    (hq : q.Ok s) : q.Ok s' := by
  cases q with
  | free | fresh | registered => trivial
  | starting n' id' made rs =>
    obtain ⟨htracked, hobject, hproxy, hmade⟩ := hq
    have hother : n' ≠ m := by
      rintro rfl
      exact hne id' made rs rfl
    exact ⟨h.kept hother htracked, h.objects ▸ hobject, hproxy, hmade⟩
  | holding m' rs₀ ds =>
    obtain ⟨huntracked, hobject⟩ := hq
    exact ⟨fun id' hid => huntracked id' (h.old hid), h.objects ▸ hobject⟩

/-- The fields of one `runningSession` are changed. -/
structure Changes (n : Nat) (o o' : RunningSession) (s s' : Host) : Prop where
  present : s.objects.lookup n = some o
  sessions : ∀ id, s'.sessions.lookup id = s.sessions.lookup id
  objects : ∀ m, s'.objects.lookup m = if m = n then some o' else s.objects.lookup m

section

variable {o o' : RunningSession}

theorem Changes.other (h : Changes n o o' s s') (hm : m ≠ n) :
    s'.objects.lookup m = s.objects.lookup m := (h.objects m).trans (if_neg hm)

theorem Changes.absent (h : Changes n o o' s s') (hm : s.objects.lookup m = none) :
    s'.objects.lookup m = none := by
  rw [h.other (fun heq => by rw [heq, h.present] at hm; cases hm)]
  exact hm

theorem Changes.sane (h : Changes n o o' s s') {k : Nat} (hs : Sane k s) : Sane k s' where
  bound m rs hm := by
    rw [h.objects] at hm
    split at hm
    next heq => exact heq ▸ hs.bound n o h.present
    next => exact hs.bound m rs hm
  tracked id m hid := by
    obtain ⟨rs, hrs⟩ := hs.tracked id m ((h.sessions id).symm.trans hid)
    rw [h.objects]
    split
    · exact ⟨_, rfl⟩
    · exact ⟨rs, hrs⟩
  unique id₁ id₂ m h₁ h₂ :=
    hs.unique id₁ id₂ m ((h.sessions id₁).symm.trans h₁) ((h.sessions id₂).symm.trans h₂)

theorem Changes.ok (h : Changes n o o' s s') (htracked : s.sessions.lookup id = some n) {q : Part}
    (hne : ∀ id' made rs, q ≠ .starting n id' made rs) (hq : q.Ok s) : q.Ok s' := by
  cases q with
  | free | fresh | registered => trivial
  | starting n' id' made rs =>
    obtain ⟨htracked', ⟨x, hx, halike⟩, hrest⟩ := hq
    have hother : n' ≠ n := by
      rintro rfl
      exact hne id' made rs rfl
    exact ⟨(h.sessions id').trans htracked', ⟨x, (h.other hother).trans hx, halike⟩, hrest⟩
  | holding m rs₀ ds =>
    obtain ⟨huntracked, x, hx, halike⟩ := hq
    have hother : m ≠ n := by
      rintro rfl
      exact huntracked id htracked
    exact ⟨fun id' => (h.sessions id') ▸ huntracked id', x, (h.other hother).trans hx, halike⟩

end

/-! ## The moves -/

theorem Inv.reserve (h : Inv w gs s) (hg : gs[i]? = some (.fresh n))
    (hx : exec E (.reserve n id) s = some (true, s')) :
    Inv w (gs.set i (.starting n id none {})) s' := by
  obtain ⟨hok, -⟩ | ⟨-, hnone, hs'⟩ := exec_reserve hx
  · cases hok
  obtain rfl := h.index i n _ hg rfl
  have hlt : n < gs.length := (List.getElem?_eq_some_iff.mp hg).1
  have hadds : Adds n id s s' := by
    subst hs'
    exact ⟨hnone, h.fresh n n hg, fun _ => Map.lookup_insert .., fun _ => Map.lookup_insert ..⟩
  refine h.set (hadds.sane h.sane hlt) (fun _ heq => (Option.some.inj heq).symm)
    (fun j n' hj hq => ?_) (fun _ heq => by cases heq) (fun _ _ _ _ hok => hadds.ok hok)
    ⟨(hadds.sessions id).trans (if_pos rfl), ⟨_, (hadds.objects n).trans (if_pos rfl), .refl _⟩,
      List.not_mem_nil, fun _ hc => by cases hc⟩
    (fun c hc => by rw [hs']; exact hc) (fun r hr => .inl ?_) (fun r hr => .inl ?_)
    (fun _ heq => by cases heq)
  · obtain rfl := h.index j n' _ hq rfl
    exact (hadds.objects n').trans ((if_neg hj).trans (h.fresh n' n' hq))
  · refine hr.move hg (fun m rs hm hrec => ⟨rs, hadds.object hm, hrec⟩)
      (fun id' m rs hid _ _ => .inl ⟨id', hadds.session hid⟩) ?_ ?_
    · intro m rs₀ ds rs heq
      cases heq
    · intro hcarried
      cases r <;> cases hcarried
  · subst hs'
    exact hr

/-- An entry is taken out of the map, by a goroutine that is answerable for it from now on. -/
theorem Inv.remove (h : Inv w gs s) (hg : gs[i]? = some g) (hdrops : Drops m id s s')
    (hcancelled : s'.cancelled = s.cancelled) (hhas : ∀ r, s'.Has r → s.Has r)
    (hstarting : ∀ (j : Nat) (q : Part), j ≠ i → gs[j]? = some q → ∀ id' made rs,
      q ≠ .starting m id' made rs)
    (hcarried : ∀ r, ¬g.Carries r) (hheld : ∀ m rs₀ ds, g ≠ .holding m rs₀ ds) :
    Inv w (gs.set i (.holding m none duties)) s' := by
  have hlt : i < gs.length := (List.getElem?_eq_some_iff.mp hg).1
  obtain ⟨o, ho⟩ := h.sane.tracked id m hdrops.present
  refine h.set (hdrops.sane h.sane) (fun _ heq => by cases heq)
    (fun j n _ hq => hdrops.objects ▸ h.fresh j n hq) (fun _ heq => by cases heq)
    (fun j q hj hq hok => hdrops.ok (hstarting j q hj hq) hok)
    ⟨hdrops.untracked h.sane, o, hdrops.objects ▸ ho, fun _ heq => by cases heq⟩
    (fun c hc => hcancelled ▸ hc) (fun r hr => .inl ?_)
    (fun r hr => .inl (hhas r hr)) (fun _ heq => by cases heq)
  refine hr.move hg (fun m' rs hm hrec => ⟨rs, hdrops.objects ▸ hm, hrec⟩)
    (fun id' m' rs hid' _ _ => ?_) (fun m' rs₀ ds rs heq => absurd heq (hheld m' rs₀ ds))
    (fun hc => absurd hc (hcarried r))
  by_cases hm : m' = m
  · subst hm
    exact .inr ⟨i, none, duties, List.getElem?_set_self hlt, mem_duties _⟩
  · exact .inl ⟨id', hdrops.kept hm hid'⟩

theorem Inv.release {u : Unit} (h : Inv w gs s) (hg : gs[i]? = some (.starting n id none rs))
    (hx : exec E (.release n id) s = some (u, s')) :
    Inv w (gs.set i (.holding n none duties)) s' := by
  obtain ⟨-, rfl⟩ := exec_eq hx
  obtain ⟨hid, -⟩ := h.part i _ hg
  refine h.remove hg ⟨hid, Map.lookup_erase _ _, rfl⟩ rfl (fun r hr => ?_) (fun j q hj hq => ?_)
    (fun r hc => ?_) (fun _ _ _ heq => by cases heq)
  · cases r <;> exact hr
  · rintro id' made rs' rfl
    have hj' := h.index j n _ hq rfl
    exact hj (hj'.symm.trans (h.index i n _ hg rfl))
  · cases r <;> cases hc

theorem Inv.take (h : Inv w gs s) (hg : gs[i]? = some .free)
    (hripe : Ripe (.take id) s (some m)) (hx : exec E (.take id) s = some (some m, s')) :
    Inv w (gs.set i (.holding m none duties)) s' := by
  obtain ⟨hres, rfl⟩ := exec_eq hx
  have hid : s.sessions.lookup id = some m := hres.symm
  refine h.remove hg ⟨hid, Map.lookup_erase _ _, rfl⟩ rfl (fun r hr => ?_) (fun j q hj hq => ?_)
    (fun r hc => ?_) (fun _ _ _ heq => by cases heq)
  · cases r <;> exact hr
  · -- a session that is being started has not registered its proxy
    rintro id' made rs' rfl
    obtain ⟨-, ⟨o, ho, halike⟩, hproxy, -⟩ := h.part j _ hq
    obtain ⟨o', ho', hrecords⟩ := hripe.registered m hid
    have ho' : s.objects.lookup m = some o' := ho'
    rw [ho] at ho'
    cases ho'
    exact hproxy (halike.symm.records hrecords)
  · cases r <;> cases hc

theorem less_absent (hx : exec E (.take id) s = some (none, s')) : Less s s' := by
  obtain ⟨hres, rfl⟩ := exec_eq hx
  have hid : s.sessions.lookup id = none := hres.symm
  refine ⟨⟨fun id' => ?_, fun m rs hm => ⟨rs, hm, .refl rs⟩, fun _ hm => hm, fun _ hc => hc⟩,
    fun _ hc => hc, fun _ hc => hc, fun _ hc => hc⟩
  refine (Map.lookup_erase _ _ _).trans ?_
  split
  next heq => rw [heq, hid]
  next => rfl

theorem Inv.create {n' : Nat} {name c : String} {config : ContainerConfig} (h : Inv w gs s)
    (hg : gs[i]? = some (.starting n id none rs))
    (hx : exec E (.containerCreate n' name config) s = some (.ok c, s')) :
    Inv w (gs.set i (.starting n id (some c) rs)) s' := by
  obtain ⟨hc, rfl⟩ := exec_containerCreate hx
  have hsame : Same s { s with
      containers := s.containers.insert c { name := name, config := config, creator := n' }
      clock := s.clock + 1 } := .of_eq rfl rfl (fun _ hc => hc)
  obtain ⟨htracked, hobject, hproxy, -⟩ := h.part i _ hg
  have hlt : i < gs.length := (List.getElem?_eq_some_iff.mp hg).1
  refine h.same hsame (fun n' hn => ?_) (fun _ heq => by cases heq)
    ⟨htracked, hobject, hproxy, fun c' heq => ?_⟩ (fun r hr => .inl ?_) (fun r hr => ?_)
    (fun _ heq => by cases heq)
  · exact h.index i n' _ hg hn
  · cases heq
    rw [hc]
    exact E.id_ne s.clock
  · refine hr.same hg hsame (fun _ _ _ _ heq => by cases heq) (fun hcarried => ?_)
    cases r <;> cases hcarried
  · cases r with
    | container c' =>
      by_cases heq : c' = c
      · exact .inr (.inr ⟨i, _, List.getElem?_set_self hlt, congrArg some heq.symm⟩)
      · left
        have hr' : ((s.containers.insert c _).lookup c').isSome = true := hr
        rw [Map.lookup_insert, if_neg heq] at hr'
        exact hr'
    | interface | proxy => exact .inl hr

/-- A `startSession` changes the fields of its own `runningSession`. -/
theorem Inv.modify {made : Option String} (h : Inv w gs s)
    (hg : gs[i]? = some (.starting n id made rs)) {f : RunningSession → RunningSession}
    (hs' : s' = { s with objects := s.objects.modify n f, clock := s.clock + 1 })
    (hf : ∀ o r, s.objects.lookup n = some o → o.Records r → (f o).Records r)
    (hindex : ∀ n, g'.attempt = some n → n = i) (hne : ∀ n, g' ≠ .fresh n) (hok : g'.Ok s')
    (hcarried : ∀ r, Part.Carries (.starting n id made rs) r → Covered (gs.set i g') s' r)
    (hself : ∀ n, g' = .registered n → Covered (gs.set i g') s' (.proxy n)) :
    Inv w (gs.set i g') s' := by
  obtain ⟨htracked, ⟨o, ho, -⟩, -⟩ := h.part i _ hg
  subst hs'
  have hchanges : Changes n o (f o) s
      { s with objects := s.objects.modify n f, clock := s.clock + 1 } := by
    refine ⟨ho, fun _ => rfl, fun m => ?_⟩
    dsimp only
    rw [Map.lookup_modify, ho]
    rfl
  refine h.set (hchanges.sane h.sane) hindex (fun j n' _ hq => hchanges.absent (h.fresh j n' hq))
    hne (fun j q hj hq hq' => hchanges.ok htracked ?_ hq') hok (fun _ hc => hc)
    (fun r hr => .inl ?_) (fun r hr => .inl (by cases r <;> exact hr)) hself
  · rintro id' made' rs' rfl
    exact hj ((h.index j n _ hq rfl).symm.trans (h.index i n _ hg rfl))
  · refine hr.move hg (fun m o' hm hrec => ?_) (fun id' m _ hid _ _ => .inl ⟨id', hid⟩)
      (fun _ _ _ _ heq => by cases heq) (hcarried r)
    by_cases heq : m = n
    · subst heq
      rw [ho] at hm
      cases hm
      exact ⟨f o, (hchanges.objects m).trans (if_pos rfl), hf o r ho hrec⟩
    · exact ⟨o', (hchanges.other heq).trans hm, hrec⟩

theorem Alike.apply {o : RunningSession} (h : Alike rs o) (a : Assign) :
    Alike (a.apply rs) (a.apply o) := by
  obtain ⟨hc, hp, hr⟩ := h
  cases a <;> exact ⟨by first | exact hc | rfl, by first | exact hp | rfl, by first | exact hr | rfl⟩

/-- Nothing that has been recorded is overwritten. -/
theorem Assignable.records {o : RunningSession} {made made' : Option String} {a : Assign}
    (h : Assignable n rs made a made') (halike : Alike rs o) (hr : o.Records r) :
    (a.apply o).Records r := by
  cases a with
  | containerID c =>
    obtain ⟨-, -, hempty⟩ := h
    cases r with
    | container c' =>
      obtain ⟨hc, hne⟩ := hr
      exact absurd (hc.symm.trans (halike.containerID.trans hempty)) hne
    | interface | proxy => exact hr
  | wgConfPath p =>
    obtain ⟨-, hempty, -⟩ := h
    cases r with
    | interface name => exact absurd (halike.wgConfPath.trans hempty) hr.1
    | container | proxy => exact hr
  | relayCancel cs =>
    obtain ⟨-, hnone, -⟩ := h
    cases r with
    | proxy n' =>
      have hr' : ⟨n', .sshProxy⟩ ∈ o.relayCancel.getD [] := hr
      rw [halike.relayCancel, hnone] at hr'
      cases hr'
    | container | interface => exact hr
  | networkID | wgKeyPair => cases r <;> exact hr

theorem Assignable.proxy {made made' : Option String} {a : Assign}
    (h : Assignable n rs made a made') (hproxy : ¬rs.Records (.proxy n)) :
    ¬(a.apply rs).Records (.proxy n) := by
  cases a with
  | relayCancel cs => exact h.2.2
  | containerID | networkID | wgKeyPair | wgConfPath => exact hproxy

theorem Inv.assign {made made' : Option String} {a : Assign} {u : Unit} (h : Inv w gs s)
    (hg : gs[i]? = some (.starting n id made rs)) (ha : Assignable n rs made a made')
    (hx : exec E (.assign n a) s = some (u, s')) :
    Inv w (gs.set i (.starting n id made' (a.apply rs))) s' := by
  obtain ⟨-, hs'⟩ := exec_eq hx
  obtain ⟨htracked, ⟨o, ho, halike⟩, hproxy, hmade⟩ := h.part i _ hg
  have hlt : i < gs.length := (List.getElem?_eq_some_iff.mp hg).1
  have ho' : s'.objects.lookup n = some (a.apply o) := by
    rw [hs']
    refine (Map.lookup_modify _ _ _ _).trans ?_
    rw [if_pos rfl, ho]
    rfl
  have htracked' : s'.sessions.lookup id = some n := by
    rw [hs']
    exact htracked
  refine h.modify hg hs' (fun o' r hm hr => ?_) (fun n' hn => h.index i n' _ hg hn)
    (fun _ heq => by cases heq) ⟨htracked', ⟨_, ho', halike.apply a⟩, ha.proxy hproxy, ?_⟩
    (fun r hr => ?_) (fun _ heq => by cases heq)
  · rw [ho] at hm
    cases hm
    exact ha.records halike hr
  · intro c hc
    cases a with
    | containerID c' =>
      rw [ha.2.1] at hc
      cases hc
    | wgConfPath | relayCancel => exact hmade c (ha.1 ▸ hc)
    | networkID | wgKeyPair => exact hmade c (ha ▸ hc)
  · cases r with
    | interface | proxy => cases hr
    | container c =>
      have hmade' : made = some c := hr
      cases a with
      | containerID c' =>
        -- the container that has been made is recorded now
        have heq : c' = c := Option.some.inj (ha.1.symm.trans hmade')
        exact .inl ⟨n, _, .inl ⟨id, htracked'⟩, ho', heq, hmade c hmade'⟩
      | wgConfPath | relayCancel =>
        exact .inr ⟨i, _, List.getElem?_set_self hlt, ha.1.trans hmade'⟩
      | networkID | wgKeyPair =>
        exact .inr ⟨i, _, List.getElem?_set_self hlt, Eq.trans ha hmade'⟩

theorem Inv.register {u : Unit} (h : Inv w gs s) (hg : gs[i]? = some (.starting n id none rs))
    (hx : exec E (.registerProxy n id) s = some (u, s')) : Inv w (gs.set i (.registered n)) s' := by
  obtain ⟨-, hs'⟩ := exec_eq hx
  obtain ⟨htracked, ⟨o, ho, -⟩, -⟩ := h.part i _ hg
  have hs'' : s' = { s with
      objects := s.objects.modify n (fun rs =>
        { rs with relayCancel := some (⟨n, .sshProxy⟩ :: rs.relayCancel.getD []) })
      clock := s.clock + 1 } := by
    rw [hs']
    simp only [Host.act, Host.registerProxy, Host.withCurrent, htracked]
    rfl
  refine h.modify hg hs'' (fun o' r _ hr => ?_) (fun _ heq => by cases heq)
    (fun _ heq => by cases heq) trivial (fun r hr => by cases r <;> cases hr) (fun n' heq => ?_)
  · cases r with
    | container | interface => exact hr
    | proxy n' => exact List.mem_cons_of_mem _ hr
  · cases heq
    refine .inl ⟨n, { o with relayCancel := some (⟨n, .sshProxy⟩ :: o.relayCancel.getD []) },
      .inl ⟨id, ?_⟩, ?_, List.mem_cons_self⟩
    · rw [hs'']
      exact htracked
    · rw [hs'']
      refine (Map.lookup_modify _ _ _ _).trans ?_
      rw [if_pos rfl, ho]
      rfl

theorem Inv.wgUp (h : Inv w gs s) (hg : gs[i]? = some (.starting n id none rs))
    (hp : rs.wgConfPath ≠ "") (hx : exec E (.wgUp rs.wgConfPath) s = some (.ok (), s')) :
    Inv w (gs.set i (.starting n id none rs)) s' := by
  have hs' := exec_wgUp hx
  have hsame : Same s s' := by
    rw [hs']
    exact .of_eq rfl rfl (fun _ hc => hc)
  obtain ⟨htracked, ⟨o, ho, halike⟩, -⟩ := h.part i _ hg
  refine h.same hsame (fun n' hn => h.index i n' _ hg hn) (fun _ heq => by cases heq)
    (hsame.ok (h.part i _ hg)) (fun r hr => .inl ?_) (fun r hr => ?_) (fun _ heq => by cases heq)
  · refine hr.same hg hsame (fun _ _ _ _ heq => by cases heq) (fun hcarried => ?_)
    cases r <;> cases hcarried
  · rw [hs'] at hr
    cases r with
    | container | proxy => exact .inl hr
    | interface name =>
      obtain heq | hold := List.mem_cons.mp hr
      · right
        refine .inl ⟨n, o, hsame.tracked htracked, by rw [hs']; exact ho, ?_, ?_⟩
        · rw [halike.wgConfPath]
          exact hp
        · rw [halike.wgConfPath]
          exact heq.symm
      · exact .inl hold

theorem Inv.proxy {ip port : String} {u : Unit} (h : Inv w gs s)
    (hg : gs[i]? = some (.registered n))
    (hx : exec E (.runSSHProxy n ip port) s = some (u, s')) : Inv w (gs.set i .free) s' := by
  obtain ⟨-, hs'⟩ := exec_eq hx
  have hsame : Same s s' := by
    rw [hs']
    simp only [Host.act]
    split
    · exact .of_eq rfl rfl (fun _ hc => hc)
    · exact .of_eq rfl rfl (fun _ hc => hc)
  have hmove : ∀ r, Covered gs s r → Covered (gs.set i .free) s' r :=
    fun r hr => hr.same hg hsame (fun _ _ _ _ heq => by cases heq) (fun hcarried => by cases hcarried)
  refine h.same hsame (fun _ heq => by cases heq) (fun _ heq => by cases heq) trivial
    (fun r hr => .inl (hmove r hr)) (fun r hr => ?_) (fun _ heq => by cases heq)
  cases r with
  | container | interface =>
    rw [hs'] at hr
    simp only [Host.act] at hr
    split at hr <;> exact .inl hr
  | proxy n' =>
    obtain ⟨hin, hc⟩ := hr
    by_cases heq : n' = n
    · subst heq
      refine .inr (hmove _ ((h.promised i n' hg).resolve_left (fun hc' => ?_)))
      exact hc (hsame.cancelled _ hc')
    · refine .inl ⟨?_, fun hc' => hc (hsame.cancelled _ hc')⟩
      rw [hs'] at hin
      simp only [Host.act] at hin
      split at hin
      · exact hin
      · exact (List.mem_cons.mp hin).resolve_left heq

/-- The moves of a goroutine that holds the `runningSession` `m`: what it does no longer have the
duty for is gone. -/
theorem Inv.held {rs₀ rs₁ : Option RunningSession} {ds ds' : List Duty} (h : Inv w gs s)
    (hg : gs[i]? = some (.holding m rs₀ ds)) (hless : Less s s')
    (halike : ∀ o, s'.objects.lookup m = some o → ∀ rs, rs₁ = some rs → Alike rs o)
    (hds : ∀ o r, s.objects.lookup m = some o → o.Records r → .of r ∈ ds →
      .of r ∈ ds' ∨ Gone s' r) : Inv w (gs.set i (.holding m rs₁ ds')) s' := by
  have hlt : i < gs.length := (List.getElem?_eq_some_iff.mp hg).1
  obtain ⟨huntracked, o, ho, -⟩ := hless.same.ok (h.part i _ hg)
  refine h.same hless.same (fun _ heq => by cases heq) (fun _ heq => by cases heq)
    ⟨huntracked, o, ho, halike o ho⟩ (fun r hr => ?_) (fun r hr => .inl (hless.has hr))
    (fun _ heq => by cases heq)
  by_cases hgone : Gone s' r
  · exact .inr hgone
  · refine .inl (hr.same hg hless.same (fun m' rs₀' ds₀ o' heq hd ho' hrec => ?_)
      (fun hcarried => by cases r <;> cases hcarried))
    cases heq
    exact .inr ⟨i, rs₁, ds', List.getElem?_set_self hlt,
      (hds o' r ho' hrec hd).resolve_right hgone⟩

theorem Inv.load {rs₀ : Option RunningSession} {ds : List Duty} (h : Inv w gs s)
    (hg : gs[i]? = some (.holding m rs₀ ds)) (hx : exec E (.load m) s = some (rs, s')) :
    Inv w (gs.set i (.holding m (some rs) (ds.filter (·.Due rs)))) s' := by
  have hless := quiet_exec (a := .load m) trivial hx
  obtain ⟨hres, rfl⟩ := exec_eq hx
  obtain ⟨-, o, ho, -⟩ := h.part i _ hg
  have hrs : rs = o := by
    rw [hres]
    simp only [Host.act, ho, Option.getD_some]
  subst hrs
  refine h.held hg hless (fun o ho' rs' heq => ?_) (fun o r ho' hr hd => .inl ?_)
  · have ho'' : s.objects.lookup m = some o := ho'
    rw [ho] at ho''
    cases ho''
    cases heq
    exact .refl _
  · rw [ho] at ho'
    cases ho'
    refine List.mem_filter.mpr ⟨hd, decide_eq_true ?_⟩
    cases r with
    | container c =>
      obtain ⟨hc, hne⟩ := hr
      exact fun heq => hne (hc.symm.trans heq)
    | interface name => exact hr.1
    | proxy n' =>
      intro hnone
      have hr' : ⟨n', .sshProxy⟩ ∈ rs.relayCancel.getD [] := hr
      rw [hnone] at hr'
      cases hr'

/-- A duty is done when what is recorded for it is gone. -/
theorem Inv.done {ds : List Duty} (h : Inv w gs s) (hg : gs[i]? = some (.holding m (some rs) ds))
    (hless : Less s s') (d : Duty) (hgone : ∀ r, .of r = d → rs.Records r → Gone s' r) :
    Inv w (gs.set i (.holding m (some rs) (ds.filter (· ≠ d)))) s' := by
  obtain ⟨-, o, ho, halike⟩ := h.part i _ hg
  refine h.held hg hless (fun o' ho' rs' heq => ?_) (fun o' r ho' hr hd => ?_)
  · cases heq
    obtain ⟨o'', ho'', halike'⟩ := hless.same.objects m o ho
    rw [ho'] at ho''
    cases ho''
    exact (halike rs rfl).trans halike'
  · rw [ho] at ho'
    cases ho'
    by_cases hdone : .of r = d
    · exact .inr (hgone r hdone ((halike rs rfl).symm.records hr))
    · exact .inl (List.mem_filter.mpr ⟨hd, decide_eq_true hdone⟩)

/-- A goroutine that has nothing left to do. -/
theorem Inv.freed (h : Inv w gs s) (hg : gs[i]? = some g) (hless : Less s s')
    (hheld : ∀ m rs₀ ds, g = .holding m rs₀ ds → ds = []) (hcarried : ∀ r, ¬g.Carries r) :
    Inv w (gs.set i .free) s' := by
  refine h.same hless.same (fun _ heq => by cases heq) (fun _ heq => by cases heq) trivial
    (fun r hr => .inl ?_) (fun r hr => .inl (hless.has hr)) (fun _ heq => by cases heq)
  refine hr.same hg hless.same (fun m rs₀ ds _ heq hd _ _ => ?_) (fun hc => absurd hc (hcarried r))
  rw [hheld m rs₀ ds heq] at hd
  cases hd

/-- The machine, as long as Docker and wg-quick succeed and sessions are stopped only when they
are up. -/
def Orderly (a : Action) (s : Host) (res : a.Res) : Prop :=
  Succeeds a res ∧ Ripe a s res

theorem contract_sound : contract.Sound (guarded (exec E) Orderly) Inv where
  act {w gs s i g a res s'} h hg hx := by
    obtain ⟨hx, hsucceeds, hripe⟩ := guarded_eq_some.mp hx
    refine ⟨⟨hsucceeds, hripe.running⟩, fun w' g' hm => ⟨trivial, ?_⟩⟩
    have hw : w' = w := by
      cases w
      cases w'
      rfl
    rw [hw]
    cases hm with
    | quiet ha =>
      have hless := quiet_exec ha hx
      rw [set_self hg]
      exact h.quiet hless.same (fun r => hless.has)
    | reserve => exact h.reserve hg hx
    | present =>
      obtain ⟨-, rfl⟩ | ⟨hok, -⟩ := exec_reserve hx
      · exact h.freed hg (less_tick (.refl s)) (fun _ _ _ heq => by cases heq)
          (fun r hc => by cases r <;> cases hc)
      · cases hok
    | create => exact h.create hg hx
    | assign ha => exact h.assign hg ha hx
    | wgUp hp => exact h.wgUp hg hp hx
    | release => exact h.release hg hx
    | register => exact h.register hg hx
    | proxy => exact h.proxy hg hx
    | take => exact h.take hg hripe hx
    | absent =>
      have hless := less_absent hx
      rw [set_self hg]
      exact h.quiet hless.same (fun r => hless.has)
    | load => exact h.load hg hx
    | @cancel m ds rs u =>
      refine h.done hg (quiet_exec (a := .cancel _) trivial hx) .cancel (fun r hr hrec => ?_)
      obtain ⟨-, rfl⟩ := exec_eq hx
      cases r with
      | container | interface => cases hr
      | proxy n => exact List.mem_append_left _ hrec
    | @container m ds rs res =>
      refine h.done hg (quiet_exec (a := .containerRemove _) trivial hx) .container
        (fun r hr hrec => ?_)
      cases r with
      | interface | proxy => cases hr
      | container c =>
        obtain ⟨rfl, -⟩ := hrec
        exact exec_containerRemove hx (fun heq => hsucceeds.removed (by rw [heq]; rfl))
    | @interface m ds rs res =>
      refine h.done hg (quiet_exec (a := .wgDown _) trivial hx) .interface (fun r hr hrec => ?_)
      cases r with
      | container | proxy => cases hr
      | interface name =>
        obtain ⟨-, rfl⟩ := hrec
        exact exec_wgDown hx (fun heq => hsucceeds.removed (by rw [heq]; rfl))
    | drop =>
      refine h.freed hg (quiet_exec (a := .removeConfig _ _) trivial hx) (fun _ _ _ heq => ?_)
        (fun r hc => by cases r <;> cases hc)
      cases heq
      rfl

end Custody

end PeerCompute.Agent
