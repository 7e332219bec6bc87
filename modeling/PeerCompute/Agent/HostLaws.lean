import PeerCompute.Agent.Host

/-! What an action of the daemon has done, by its answer. -/

namespace PeerCompute.Agent

open PeerCompute.Data PeerCompute.Interleaving PeerCompute.Computev1

variable {E : Env} {s s' : Host} {a : Action} {res : a.Res}

/-- An action is done, and the clock ticks. -/
theorem exec_eq (hx : exec E a s = some (res, s')) :
    res = (s.act E a).1 ∧ s' = (s.act E a).2.tick := by
  cases hx
  exact ⟨rfl, rfl⟩

/-- What an action may do to the machine. -/
inductive Touch (E : Env) (s : Host) : Action → Host → Prop
  | nothing (a : Action) : Touch E s a s
  | reserve {n : Nat} {id : String} (h : s.sessions.lookup id = none) :
      Touch E s (.reserve n id) { s with
        sessions := s.sessions.insert id n
        objects := s.objects.insert n {}
        attempts := s.attempts.insert n ⟨id, .starting⟩ }
  | release {n : Nat} {id : String} : Touch E s (.release n id) (s.release n id)
  | take {id : String} : Touch E s (.take id) { s with sessions := s.sessions.erase id }
  | setConnMode {id mode : String} {m : Nat} (h : s.sessions.lookup id = some m) :
      Touch E s (.setConnMode id mode)
        { s with objects := s.objects.modify m (fun rs => { rs with connMode := mode }) }
  | registerProxy {n m : Nat} {id : String} (h : s.sessions.lookup id = some m) :
      Touch E s (.registerProxy n id) { s with objects := s.objects.modify m (fun rs =>
        { rs with relayCancel := some (⟨n, .sshProxy⟩ :: rs.relayCancel.getD []) }) }
  | assign {m : Nat} {b : Assign} :
      Touch E s (.assign m b) { s with objects := s.objects.modify m b.apply }
  | cancel {cs : List Context} : Touch E s (.cancel cs) { s with cancelled := cs ++ s.cancelled }
  | cancelRun : Touch E s .cancelRun { s with done := true }
  | runRelayClient {n : Nat} : Touch E s (.runRelayClient n) { s with relays := n :: s.relays }
  | runSSHProxy {n : Nat} {ip port : String} :
      Touch E s (.runSSHProxy n ip port) { s with proxies := n :: s.proxies }
  | networkRemove {name : String} :
      Touch E s (.networkRemove name) { s with networks := s.networks.erase name }
  | networkCreate {n : Nat} {name : String} : Touch E s (.networkCreate n name)
      { s with networks := s.networks.insert name ⟨E.id s.clock, n⟩ }
  | containerRemoveNamed {name c : String} :
      Touch E s (.containerRemoveNamed name) { s with containers := s.containers.erase c }
  | containerRemove {c : String} :
      Touch E s (.containerRemove c) { s with containers := s.containers.erase c }
  | containerCreate {n : Nat} {name : String} {config : ContainerConfig} :
      Touch E s (.containerCreate n name config) { s with
        containers := s.containers.insert (E.id s.clock)
          { name := name, config := config, creator := n } }
  | containerStart {c : String} {x : Container} (h : s.containers.lookup c = some x) :
      Touch E s (.containerStart c)
        { s with containers := s.containers.insert c { x with running := true } }
  | containerStop {c : String} {x : Container} (h : s.containers.lookup c = some x) :
      Touch E s (.containerStop c)
        { s with containers := s.containers.insert c { x with running := false } }
  | writeConfig {n : Nat} {path : String} {config : WGConfig} :
      Touch E s (.writeConfig n path config)
        { s with configs := s.configs.insert path ⟨config, n⟩ }
  | endCleanup {cleanup : Option Nat} {path : String} :
      Touch E s (.removeConfig cleanup path) (s.endCleanup cleanup)
  | removeConfig {cleanup : Option Nat} {path : String} :
      Touch E s (.removeConfig cleanup path)
        { s.endCleanup cleanup with configs := s.configs.erase path }
  | wgUp {path : String} :
      Touch E s (.wgUp path) { s with interfaces := ifaceFromPath path :: s.interfaces }
  | wgDown {path : String} : Touch E s (.wgDown path)
      { s with interfaces := s.interfaces.filter (· ≠ ifaceFromPath path) }
  | updateSessionStatus {req : UpdateSessionStatusRequest} :
      Touch E s (.updateSessionStatus req) (s.updateSessionStatus req)
  | go {g : Goroutine} : Touch E s (.go g) { s with spawned := s.spawned ++ [g] }

/-- A call that is refused does nothing. -/
theorem Touch.attempted {α : Type} {x : Except CallError α × Host} (h : Touch E s a x.2) :
    Touch E s a (s.attempted E a x).2 := by
  unfold Host.attempted
  split
  · exact .nothing a
  · exact h

theorem touch_act (E : Env) (s : Host) (a : Action) : Touch E s a (s.act E a).2 := by
  cases a with
  | tracked | sessionIDs | load | generateKeyPair | gatherCandidates | exchangeCandidates | probe |
    newRelayClient | reportConnectionResult | listPending | heartbeat => exact .nothing _
  | imagePull | containerInspect => exact .attempted (.nothing _)
  | release => exact .release
  | take => exact .take
  | assign => exact .assign
  | cancel => exact .cancel
  | cancelRun => exact .cancelRun
  | runRelayClient => exact .runRelayClient
  | removeConfig cleanup path =>
    simp only [Host.act, Host.removeConfig]
    split
    · exact .endCleanup
    split
    · exact .endCleanup
    · exact .removeConfig
  | go => exact .go
  | reserve n id =>
    simp only [Host.act, Host.reserve]
    split
    · exact .nothing _
    next h => exact .reserve h
  | setConnMode id mode =>
    simp only [Host.act, Host.setConnMode, Host.withCurrent]
    split
    · exact .nothing _
    next m h => exact .setConnMode h
  | registerProxy n id =>
    simp only [Host.act, Host.registerProxy, Host.withCurrent]
    split
    · exact .nothing _
    next m h => exact .registerProxy h
  | runSSHProxy =>
    simp only [Host.act]
    split
    · exact .nothing _
    · exact .runSSHProxy
  | updateSessionStatus =>
    simp only [Host.act]
    split
    · exact .nothing _
    · exact .updateSessionStatus
  | networkRemove name =>
    refine .attempted ?_
    unfold Host.networkRemove
    split
    · exact .nothing _
    split
    · exact .nothing _
    · exact .networkRemove
  | networkCreate n name =>
    refine .attempted ?_
    unfold Host.networkCreate
    split
    · exact .nothing _
    · exact .networkCreate
  | containerRemoveNamed name =>
    refine .attempted ?_
    unfold Host.containerRemoveNamed
    split
    · exact .nothing _
    next c _ =>
      unfold Host.containerRemove
      split
      · exact .nothing _
      · exact .containerRemoveNamed
  | containerRemove c =>
    refine .attempted ?_
    unfold Host.containerRemove
    split
    · exact .nothing _
    · exact .containerRemove
  | containerCreate n name config =>
    refine .attempted ?_
    unfold Host.containerCreate
    split
    · exact .nothing _
    · exact .containerCreate
  | containerStart c =>
    refine .attempted ?_
    unfold Host.containerStart
    split
    · exact .nothing _
    next x h =>
      split
      · exact .nothing _
      · exact .containerStart h
  | containerStop c =>
    refine .attempted ?_
    unfold Host.containerStop
    split
    · exact .nothing _
    next x h => exact .containerStop h
  | writeConfig n path config =>
    simp only [Host.act, Host.writeConfig]
    split
    · exact .writeConfig
    · exact .nothing _
    · exact .writeConfig
  | wgUp path =>
    refine .attempted ?_
    unfold Host.wgUp
    split
    · exact .nothing _
    · exact .wgUp
  | wgDown path =>
    refine .attempted ?_
    unfold Host.wgDown
    split
    · exact .nothing _
    split
    · exact .nothing _
    · exact .wgDown

/-- An action is done, whatever the answer, and the clock ticks. -/
theorem exec_touch (hx : exec E a s = some (res, s')) : ∃ t, Touch E s a t ∧ s' = t.tick := by
  obtain ⟨-, rfl⟩ := exec_eq hx
  exact ⟨_, touch_act E s a, rfl⟩

theorem exec_reserve {n : Nat} {id : String} {ok : Bool} (hx : exec E (.reserve n id) s = some (ok, s')) :
    (ok = false ∧ s' = s.tick) ∨ (ok = true ∧ s.sessions.lookup id = none ∧
      s' = { s with
        sessions := s.sessions.insert id n
        objects := s.objects.insert n {}
        attempts := s.attempts.insert n ⟨id, .starting⟩
        clock := s.clock + 1 }) := by
  obtain ⟨hok, hs'⟩ := exec_eq hx
  simp only [Host.act, Host.reserve] at hok hs'
  split at hs'
  next m hm =>
    rw [hm] at hok
    exact .inl ⟨hok, hs'⟩
  next hnone =>
    rw [hnone] at hok
    exact .inr ⟨hok, hnone, hs'⟩

theorem Host.attempted_ok {α : Type} {x : Except CallError α × Host} {y : α}
    (h : (s.attempted E a x).1 = .ok y) : s.attempted E a x = x := by
  unfold Host.attempted at h ⊢
  split at h
  · cases h
  next hfails => exact if_neg hfails

/-- A call that does nothing when it fails. -/
theorem Host.attempted_error {α : Type} {x : Except CallError α × Host} {e : CallError}
    (h : (s.attempted E a x).1 = .error e) (hx : x.1 = .error e → x.2 = s) :
    (s.attempted E a x).2 = s := by
  unfold Host.attempted at h ⊢
  split at h
  next hfails => rw [if_pos hfails]
  next hfails =>
    rw [if_neg hfails]
    exact hx h

theorem exec_networkCreate {n : Nat} {name x : String}
    (hx : exec E (.networkCreate n name) s = some (.ok x, s')) :
    s' = { s with
      networks := s.networks.insert name ⟨E.id s.clock, n⟩
      clock := s.clock + 1 } := by
  obtain ⟨hres, rfl⟩ := exec_eq hx
  have hattempted := Host.attempted_ok hres.symm
  simp only [Host.act] at hres ⊢
  rw [hattempted] at hres ⊢
  unfold Host.networkCreate at hres ⊢
  split at hres
  · cases hres
  next hfree =>
    rw [if_neg hfree]
    rfl

theorem exec_networkCreate_error {n : Nat} {name : String} {e : CallError}
    (hx : exec E (.networkCreate n name) s = some (.error e, s')) : s' = s.tick := by
  obtain ⟨hres, rfl⟩ := exec_eq hx
  refine congrArg Host.tick (Host.attempted_error hres.symm (fun h => ?_))
  unfold Host.networkCreate at h ⊢
  split at h
  next hthere => rw [if_pos hthere]
  · cases h

/-- A network is removed, or nothing is done. -/
theorem exec_networkRemove {name : String} {r : Except CallError Unit}
    (hx : exec E (.networkRemove name) s = some (r, s')) :
    s' = s.tick ∨ s' = { s with networks := s.networks.erase name, clock := s.clock + 1 } := by
  obtain ⟨t, htouch, rfl⟩ := exec_touch hx
  cases htouch with
  | nothing => exact .inl rfl
  | networkRemove => exact .inr rfl

theorem exec_containerCreate {n : Nat} {name c : String} {config : ContainerConfig}
    (hx : exec E (.containerCreate n name config) s = some (.ok c, s')) :
    c = E.id s.clock ∧ s' = { s with
      containers := s.containers.insert c { name := name, config := config, creator := n }
      clock := s.clock + 1 } := by
  obtain ⟨hres, rfl⟩ := exec_eq hx
  have hattempted := Host.attempted_ok hres.symm
  simp only [Host.act] at hres ⊢
  rw [hattempted] at hres ⊢
  unfold Host.containerCreate at hres ⊢
  split at hres
  · cases hres
  next hnamed =>
    rw [if_neg hnamed]
    cases hres
    exact ⟨rfl, rfl⟩

theorem exec_containerCreate_error {n : Nat} {name : String} {config : ContainerConfig}
    {e : CallError} (hx : exec E (.containerCreate n name config) s = some (.error e, s')) :
    s' = s.tick := by
  obtain ⟨hres, rfl⟩ := exec_eq hx
  refine congrArg Host.tick (Host.attempted_error hres.symm (fun h => ?_))
  unfold Host.containerCreate at h ⊢
  split at h
  next hnamed => rw [if_pos hnamed]
  · cases h

theorem exec_wgUp {path : String} (hx : exec E (.wgUp path) s = some (.ok (), s')) :
    s' = { s with interfaces := ifaceFromPath path :: s.interfaces, clock := s.clock + 1 } := by
  obtain ⟨hres, rfl⟩ := exec_eq hx
  have hattempted := Host.attempted_ok hres.symm
  simp only [Host.act] at hres ⊢
  rw [hattempted] at hres ⊢
  unfold Host.wgUp at hres ⊢
  split at hres
  · cases hres
  next hfree =>
    rw [if_neg hfree]
    rfl

/-- A container is removed, or nothing is done. -/
theorem exec_containerRemove_eq {c : String} {r : Except CallError Unit}
    (hx : exec E (.containerRemove c) s = some (r, s')) :
    s' = s.tick ∨ s' = { s with containers := s.containers.erase c, clock := s.clock + 1 } := by
  obtain ⟨t, htouch, rfl⟩ := exec_touch hx
  cases htouch with
  | nothing => exact .inl rfl
  | containerRemove => exact .inr rfl

theorem exec_containerRemoveNamed {name : String} {r : Except CallError Unit}
    (hx : exec E (.containerRemoveNamed name) s = some (r, s')) :
    s' = s.tick ∨
      ∃ c, s' = { s with containers := s.containers.erase c, clock := s.clock + 1 } := by
  obtain ⟨t, htouch, rfl⟩ := exec_touch hx
  cases htouch with
  | nothing => exact .inl rfl
  | @containerRemoveNamed _ c => exact .inr ⟨c, rfl⟩

/-- The file is written, or nothing is done. -/
theorem exec_writeConfig {n : Nat} {path : String} {config : WGConfig} {r : Except CallError Unit}
    (hx : exec E (.writeConfig n path config) s = some (r, s')) :
    s' = s.tick ∨
      s' = { s with configs := s.configs.insert path ⟨config, n⟩, clock := s.clock + 1 } := by
  obtain ⟨t, htouch, rfl⟩ := exec_touch hx
  cases htouch with
  | nothing => exact .inl rfl
  | writeConfig => exact .inr rfl

/-- The file is not there any more, or its removal has been refused. -/
theorem exec_removeConfig {cleanup : Option Nat} {path : String} {r : Except CallError Unit}
    (hx : exec E (.removeConfig cleanup path) s = some (r, s')) :
    ∃ configs, s' = { s.endCleanup cleanup with configs := configs, clock := s.clock + 1 } ∧
      (r ≠ .error .refused ∧
          (∀ q, configs.lookup q = if q = path then none else s.configs.lookup q) ∨
        r = .error .refused ∧ configs = s.configs ∧ (s.configs.lookup path).isSome = true) := by
  obtain ⟨rfl, rfl⟩ := exec_eq hx
  simp only [Host.act, Host.removeConfig]
  split
  next hnone =>
    refine ⟨s.configs, rfl, .inl ⟨nofun, fun q => ?_⟩⟩
    split
    next heq => exact heq ▸ Option.isNone_iff_eq_none.mp hnone
    next => rfl
  next hfile =>
    split
    · refine ⟨s.configs, rfl, .inr ⟨rfl, rfl, ?_⟩⟩
      rwa [← Option.not_isNone, Bool.not_eq_true', ← Bool.not_eq_true]
    · exact ⟨s.configs.erase path, rfl, .inl ⟨nofun, fun q => Map.lookup_erase _ _ _⟩⟩

/-- A container whose removal has not been refused is not there any more. -/
theorem exec_containerRemove {c : String} {r : Except CallError Unit}
    (hx : exec E (.containerRemove c) s = some (r, s')) (hr : r ≠ .error .refused) :
    s'.containers.lookup c = none := by
  obtain ⟨rfl, rfl⟩ := exec_eq hx
  simp only [Host.act, Host.attempted] at hr ⊢
  split at hr
  · exact absurd rfl hr
  next hfails =>
    rw [if_neg hfails]
    unfold Host.containerRemove
    split
    next hnone => exact Option.isNone_iff_eq_none.mp hnone
    next => exact (Map.lookup_erase _ _ _).trans (if_pos rfl)

/-- A network whose removal has not been refused is not there any more. -/
theorem exec_networkRemove_gone {name : String} {r : Except CallError Unit}
    (hx : exec E (.networkRemove name) s = some (r, s')) (hr : r ≠ .error .refused) :
    s'.networks.lookup name = none := by
  obtain ⟨rfl, rfl⟩ := exec_eq hx
  simp only [Host.act, Host.attempted] at hr ⊢
  split at hr
  · exact absurd rfl hr
  next hfails =>
    rw [if_neg hfails]
    unfold Host.networkRemove at hr ⊢
    split
    next hnone => exact Option.isNone_iff_eq_none.mp hnone
    next hthere =>
      rw [if_neg hthere] at hr
      split
      next hattached =>
        rw [if_pos hattached] at hr
        exact absurd rfl hr
      next => exact (Map.lookup_erase _ _ _).trans (if_pos rfl)

theorem exec_wgDown {path : String} {r : Except CallError Unit}
    (hx : exec E (.wgDown path) s = some (r, s')) (hr : r ≠ .error .refused) :
    ifaceFromPath path ∉ s'.interfaces := by
  obtain ⟨rfl, rfl⟩ := exec_eq hx
  simp only [Host.act, Host.attempted] at hr ⊢
  split at hr
  · exact absurd rfl hr
  next hfails =>
    rw [if_neg hfails]
    unfold Host.wgDown at hr ⊢
    split
    next hnone => exact hnone
    next hin =>
      rw [if_neg hin] at hr
      split
      next hconf =>
        rw [if_pos hconf] at hr
        exact absurd rfl hr
      next => simp [Host.tick]

end PeerCompute.Agent
