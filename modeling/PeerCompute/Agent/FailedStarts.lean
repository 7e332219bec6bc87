import PeerCompute.Agent.Cleanup

/-! What a `startSession` that fails leaves behind. -/

namespace PeerCompute.Agent

open PeerCompute.Data PeerCompute.Interleaving PeerCompute.Computev1 Prog Remains Cleanup

def Action.starts : Action → Bool
  | .containerStart _ | .containerInspect _ => true
  | _ => false

/-- A container that has been created does not start, is not found, or has exited. -/
def StartFails (a : Action) (r : a.Res) : Prop :=
  a.starts = true ∧ (a.error r ≠ none ∨ a.exited r = true)

instance (y : Σ a : signature.Act, signature.Res a) : Decidable (StartFails y.1 y.2) :=
  inferInstanceAs (Decidable (_ ∧ (_ ∨ _)))

/-- The error of an `os.Remove`. -/
def Action.removal : (a : Action) → a.Res → Option CallError
  | .removeConfig _ _, (r : Except CallError Unit) => failure r
  | _, _ => none

/-- A config file that is there is not removed. -/
def FileKept (a : Action) (r : a.Res) : Prop := a.removal r = some .refused

instance (y : Σ a : signature.Act, signature.Res a) : Decidable (FileKept y.1 y.2) :=
  inferInstanceAs (Decidable (_ = _))

namespace FailedStarts

variable {E : Env} {s t t' : Host} {n : Nat} {id : String} {l l' : Journal signature}

/-- No container has failed to start, and no file has been kept. -/
def Smooth (l : Journal signature) : Prop := ∀ y ∈ l, ¬StartFails y.1 y.2 ∧ ¬FileKept y.1 y.2

theorem Smooth.nil : Smooth [] := fun _ hy => by cases hy

theorem smooth_append : Smooth (l ++ l') ↔ Smooth l ∧ Smooth l' := List.forall_mem_append

theorem smooth_cons {a : Action} {r : a.Res} :
    Smooth (⟨a, r⟩ :: l) ↔ (¬StartFails a r ∧ ¬FileKept a r) ∧ Smooth l := List.forall_mem_cons

/-- The actions of which something may come that is not cleaned up. -/
def Risky : Action → Bool
  | .containerStart _ | .containerInspect _ | .removeConfig _ _ => true
  | _ => false

theorem smooth_of_not_risky {a : Action} {r : a.Res} (ha : Risky a = false) :
    ¬StartFails a r ∧ ¬FileKept a r := by
  cases a with
  | containerStart | containerInspect | removeConfig => cases ha
  | _ =>
    refine ⟨fun h => ?_, fun h => ?_⟩
    · cases h.1
    · cases h

theorem Smooth.cons {a : Action} {r : a.Res} (hl : Smooth l) (ha : Risky a = false) :
    Smooth (⟨a, r⟩ :: l) := smooth_cons.mpr ⟨smooth_of_not_risky ha, hl⟩

theorem logs_smooth {α : Type} {p : Prog signature α} {Q : α → Host → Prop}
    (h : Leads (machine E) p t Q) (hp : p.Uses (fun a => Risky a = false)) :
    Logs (machine E) p t (fun x t' l => Q x t' ∧ Smooth l) :=
  (h.logs.and (hp.logs t)).mono (fun _ _ _ h => ⟨h.1, fun y hy => smooth_of_not_risky (h.2 y hy)⟩)

/-- An action of the machine, with its journal. -/
theorem logs_call {α : Type} {a : Action} {k : a.Res → Prog signature α}
    {Q : α → Host → Journal signature → Prop}
    (hk : ∀ r t', exec E a t = some (r, t') → Removed a r →
      Logs (machine E) (k r) t' (fun x t l => Q x t (⟨a, r⟩ :: l))) :
    Logs (S := signature) (machine E) (.act a k) t Q := by
  refine logs_act.mpr (fun r t' hx => ?_)
  obtain ⟨hexec, hr⟩ := guarded_eq_some.mp hx
  exact hk r t' hexec hr

/-! ## A container that is left behind -/

/-- The attempt has made a container and has not written it down. -/
structure Stuck (n : Nat) (id : String) (s t : Host) (c : String) : Prop where
  object : t.objects.lookup n = some {}
  contains : t.Contains id c
  new : ¬s.Contains id c

theorem Stuck.not_leavesNothing {c : String} (hs : Stuck n id s t c) : ¬LeavesNothing n id s t :=
  fun hl => hs.new (hl.container c hs.contains)

/-- The actions that assign to no `runningSession`. -/
def Unassigning : Action → Prop
  | .reserve _ _ | .setConnMode _ _ | .registerProxy _ _ | .assign _ _ => False
  | _ => True

theorem Stuck.keep {a : Action} {r : a.Res} {c : String} (hs : Stuck n id s t c)
    (hx : exec E a t = some (r, t')) (ha : Unassigning a) (hsparing : Sparing a) :
    Stuck n id s t' c := by
  have hobjects : t'.objects = t.objects := by
    obtain ⟨u, htouch, rfl⟩ := exec_touch hx
    cases htouch with
    | reserve | setConnMode | registerProxy | assign => cases ha
    | _ => rfl
  exact ⟨hobjects ▸ hs.object, contains_exec hx hsparing hs.contains, hs.new⟩

theorem Stuck.load {rs : RunningSession} {c : String} (hs : Stuck n id s t c)
    (hx : exec E (.load n) t = some (rs, t')) : rs = {} ∧ Stuck n id s t' c := by
  have hres : rs = (t.objects.lookup n).getD {} := (exec_eq hx).1
  rw [hs.object, Option.getD_some] at hres
  exact ⟨hres, hs.keep hx trivial trivial⟩

/-- The cleanup finds nothing in the `runningSession`. -/
theorem leads_failSessionStart_stuck {c : String} (hs : Stuck n id s t c) :
    Leads (machine E) (failSessionStart n id) t (fun _ t' => Stuck n id s t' c) := by
  refine leads_call (fun _ t₁ hx _ => ?_)
  have hs := hs.keep hx trivial trivial
  refine leads_call (fun rs t₂ hx _ => ?_)
  obtain ⟨rfl, hs⟩ := hs.load hx
  refine leads_call (fun rs t₃ hx _ => ?_)
  obtain ⟨rfl, hs⟩ := hs.load hx
  refine leads_call (fun rs t₄ hx _ => ?_)
  obtain ⟨rfl, hs⟩ := hs.load hx
  refine leads_call (fun _ t₅ hx _ => ?_)
  have hs := hs.keep hx trivial trivial
  exact leads_call (fun _ t₆ hx _ => leads_ret.mpr (hs.keep hx trivial trivial))

/-! ## `StartContainer` -/

/-- How `StartContainer` ends. -/
inductive Outcome (n : Nat) (id : String) (s : Host) (l : Journal signature) :
    Except CallError Started → Host → Prop
  | started {started : Started} {t : Host} (hl : Smooth l) (hne : started.containerID ≠ "")
      (hu : Under n id s .starting {}
        { container := some started.containerID, network := true } t) :
      Outcome n id s l (.ok started) t
  | failed {e : CallError} {t : Host} (hl : Smooth l) (hu : Under n id s .starting {} {} t) :
      Outcome n id s l (.error e) t
  | stuck {e : CallError} {t : Host} {c : String} (hl : ∃ y ∈ l, StartFails y.1 y.2)
      (hs : Stuck n id s t c) : Outcome n id s l (.error e) t

theorem Outcome.cons {res : Except CallError Started} {a : Action} {r : a.Res}
    (ho : Outcome n id s l res t) (ha : Risky a = false) :
    Outcome n id s (⟨a, r⟩ :: l) res t := by
  cases ho with
  | started hl hne hu => exact .started (hl.cons ha) hne hu
  | failed hl hu => exact .failed (hl.cons ha) hu
  | stuck hl hs =>
    obtain ⟨y, hy, hfails⟩ := hl
    exact .stuck ⟨y, .tail _ hy, hfails⟩ hs

/-- An action of `StartContainer` before the container is started. -/
theorem logs_prepare {a : Action} {k : a.Res → Prog signature (Except CallError Started)}
    (ha : Risky a = false) (hk : ∀ r t', exec E a t = some (r, t') → Removed a r →
      Logs (machine E) (k r) t' (fun res t l => Outcome n id s l res t)) :
    Logs (S := signature) (machine E) (.act a k) t (fun res t l => Outcome n id s l res t) :=
  logs_call (fun r t' hx hr => (hk r t' hx hr).mono (fun _ _ _ ho => ho.cons ha))

/-- The loop ends with an error if the container is not found or not running. -/
theorem logs_awaitPort (c : String) (k : Nat) (t : Host) :
    Logs (machine E) (awaitPort c k) t (fun res _ l =>
      (∀ port, res = .ok port → Smooth l) ∧
        ∀ e, res = .error e → ∃ y ∈ l, StartFails y.1 y.2) := by
  induction k generalizing t with
  | zero => exact logs_ret.mpr ⟨fun _ _ => Smooth.nil, fun _ h => by cases h⟩
  | succ k ih =>
    refine logs_call (fun r t' _ _ => ?_)
    cases r with
    | error e =>
      have hfails : StartFails (.containerInspect c) (.error e) := ⟨rfl, .inl (fun h => by cases h)⟩
      exact logs_ret.mpr ⟨fun _ h => (by cases h), fun _ _ => ⟨_, .head _, hfails⟩⟩
    | ok inspect =>
      change Logs (S := signature) _ (if _ then _ else _) _ _
      split
      next hexited =>
        have hfails : StartFails (.containerInspect c) (.ok inspect) :=
          ⟨rfl, .inr (congrArg Bool.not hexited)⟩
        exact logs_ret.mpr ⟨fun _ h => (by cases h), fun _ _ => ⟨_, .head _, hfails⟩⟩
      next hrunning =>
        have hsmooth : ¬StartFails (.containerInspect c) (.ok inspect) ∧
            ¬FileKept (.containerInspect c) (.ok inspect) := by
          refine ⟨?_, fun h => by cases h⟩
          rintro ⟨-, h | h⟩
          · exact h rfl
          · exact hrunning ((Bool.not_eq_true' _).mp h)
        split
        · exact logs_ret.mpr ⟨fun _ _ => smooth_cons.mpr ⟨hsmooth, Smooth.nil⟩, fun _ h => by cases h⟩
        · refine (ih t').mono (fun res _ l hl =>
            ⟨fun port h => smooth_cons.mpr ⟨hsmooth, hl.1 port h⟩, fun e h => ?_⟩)
          obtain ⟨y, hy, hfails⟩ := hl.2 e h
          exact ⟨y, .tail _ hy, hfails⟩

theorem leads_stuck {α : Type} {p : Prog signature α} {c : String} (hp : p.Uses Inspects)
    (hs : Stuck n id s t c) : Leads (machine E) p t (fun _ t' => Stuck n id s t' c) := by
  refine Leads.mono (hp.leads (R := fun t t' => Stuck n id s t c → Stuck n id s t' c) ?_ ?_ ?_ t)
    (fun _ _ hkeep => hkeep hs)
  · exact fun _ hs => hs
  · exact fun h₁ h₂ hs => h₂ (h₁ hs)
  · intro a ha t r t' hx hs
    cases a with
    | containerInspect => exact hs.keep (guarded_eq_some.mp hx).1 trivial trivial
    | _ => cases ha

section

variable {opts : StartContainerOpts} (hid : opts.sessionID = id)

include hid

/-- The network is removed again, and there is no container. -/
theorem logs_undo (hu : Under n id s .starting {} { network := true } t) (e : CallError) :
    Logs (S := signature) (machine E)
      (removeSessionNetwork opts.sessionID >>= fun _ => .ret (.error e : Except CallError Started)) t
      (fun res t' l => Outcome n id s l res t') := by
  subst hid
  refine logs_prepare rfl (fun r t' hx hr => logs_ret.mpr (.failed Smooth.nil ?_))
  exact hu.frame (hu.within.networkRemove hx hr) (frame_exec hx trivial)

theorem logs_runContainer (hu : Under n id s .starting {} { network := true } t)
    (hfresh : ∀ k, s.clock ≤ k → s.containers.lookup (E.id k) = none) (networkID : String) :
    Logs (machine E) (runContainer n opts networkID) t
      (fun res t' l => Outcome n id s l res t') := by
  refine logs_prepare rfl (fun _ t₁ hx _ => ?_)
  have hu := hu.quiet hx ⟨trivial, trivial⟩
  refine logs_prepare rfl (fun res t₂ hx _ => ?_)
  cases res with
  | error e =>
    obtain rfl := exec_containerCreate_error hx
    exact logs_undo hid hu.tick e
  | ok c =>
    obtain ⟨hc, ht₂⟩ := exec_containerCreate hx
    have hs : Stuck n id s t₂ c := by
      refine ⟨(frame_exec hx trivial).objects ▸ hu.object, ?_, fun ⟨x, hx, _⟩ => ?_⟩
      · rw [ht₂, ← hid]
        exact ⟨_, (Map.lookup_insert _ _ _ _).trans (if_pos rfl), rfl⟩
      · rw [hc, hfresh _ hu.clock] at hx
        cases hx
    have hu := hu.frame (hu.within.containerCreate rfl hx) (frame_exec hx trivial)
    refine logs_call (fun res t₃ hx _ => ?_)
    have hs := hs.keep hx trivial trivial
    have hu := hu.quiet hx ⟨trivial, trivial⟩
    cases res with
    | error e =>
      have hfails : StartFails (.containerStart c) (.error e) := ⟨rfl, .inl (fun h => by cases h)⟩
      refine logs_call (fun r t₄ hx _ => logs_ret.mpr ?_)
      exact .stuck ⟨_, .head _, hfails⟩ (hs.keep hx trivial trivial)
    | ok x =>
      have hstarted : ¬StartFails (.containerStart c) (.ok x) ∧
          ¬FileKept (.containerStart c) (.ok x) := by
        refine ⟨?_, fun h => by cases h⟩
        rintro ⟨-, h | h⟩
        · exact h rfl
        · cases h
      have hawait := uses_awaitPort c 20
      change Logs (S := signature) _ (awaitPort c 20 >>= _) _ _
      have hquiet : (awaitPort c 20).Uses Quiet :=
        hawait.mono (fun _ => Inspects.elim (fun _ => ⟨trivial, trivial⟩))
      refine Logs.bind ((((leads_quiet hquiet hu).logs.and (leads_stuck hawait hs).logs).and
        (logs_awaitPort c 20 t₃)).mono ?_)
      rintro res t₄ l ⟨⟨hu, hs⟩, hok, herror⟩
      cases res with
      | error e =>
        obtain ⟨y, hy, hfails⟩ := herror e rfl
        exact logs_ret.mpr (.stuck ⟨y, .tail _ (List.mem_append_left _ hy), hfails⟩ hs)
      | ok port =>
        refine logs_ret.mpr (.started ?_ (hc ▸ E.id_ne _) hu)
        exact smooth_cons.mpr ⟨hstarted, smooth_append.mpr ⟨hok port rfl, Smooth.nil⟩⟩

theorem logs_startContainer (hu : Under n id s .starting {} {} t)
    (hfresh : ∀ k, s.clock ≤ k → s.containers.lookup (E.id k) = none) :
    Logs (machine E) (startContainer n opts) t (fun res t' l => Outcome n id s l res t') := by
  refine logs_prepare rfl (fun _ t₁ hx _ => ?_)
  have hu := hu.quiet hx ⟨trivial, trivial⟩
  refine logs_prepare rfl (fun res t₂ hx _ => ?_)
  cases res with
  | error e =>
    obtain rfl := exec_networkCreate_error hx
    exact logs_ret.mpr (.failed Smooth.nil hu.tick)
  | ok networkID =>
    rw [hid] at hx
    have hu := hu.frame (hu.within.networkCreate hx) (frame_exec hx trivial)
    refine logs_prepare rfl (fun res t₃ hx _ => ?_)
    have hu := hu.quiet hx ⟨trivial, trivial⟩
    cases res with
    | error e => exact logs_undo hid hu e
    | ok x => exact logs_runContainer hid hu hfresh networkID

end

/-! ## The steps after it -/

/-- What has been made so far is written down. -/
def Kept (n : Nat) (id : String) (s t : Host) : Prop :=
  ∃ rs h, Under n id s .starting rs h t ∧ Covers n id rs h

theorem Kept.quiet {a : Action} {r : a.Res} (hk : Kept n id s t)
    (hx : exec E a t = some (r, t')) (ha : Quiet a) : Kept n id s t' := by
  obtain ⟨rs, h, hu, hcovers⟩ := hk
  exact ⟨rs, h, hu.quiet hx ha, hcovers⟩

/-- The session is up, or nothing of it is left but for a file that could not be removed. -/
def Settled (n : Nat) (id : String) (s t : Host) (l : Journal signature) : Prop :=
  t.attempts.lookup n = some ⟨id, .starting⟩ ∨
    Cleared n id s t ∧ (t.configs.lookup (configPath id) = none ↔ Smooth l)

theorem Settled.append (h : Settled n id s t l') (hl : Smooth l) : Settled n id s t (l ++ l') := by
  unfold Settled
  rw [smooth_append, and_iff_right hl]
  exact h

/-- An action by which nothing is left behind. -/
theorem logs_settled {α : Type} {a : Action} {k : a.Res → Prog signature α} (ha : Risky a = false)
    (hk : ∀ r t', exec E a t = some (r, t') → Removed a r →
      Logs (machine E) (k r) t' (fun _ t l => Settled n id s t l)) :
    Logs (S := signature) (machine E) (.act a k) t (fun _ t l => Settled n id s t l) :=
  logs_call (fun r t' hx hr =>
    (hk r t' hx hr).mono (fun _ _ _ h => h.append (l := [⟨a, r⟩]) (Smooth.nil.cons ha)))

/-- A program by which nothing is left behind. -/
theorem logs_settled_bind {α β : Type} {p : Prog signature α} {f : α → Prog signature β}
    {Q : α → Host → Prop} (hp : p.Uses (fun a => Risky a = false)) (h : Leads (machine E) p t Q)
    (hf : ∀ x t', Q x t' → Logs (machine E) (f x) t' (fun _ t l => Settled n id s t l)) :
    Logs (machine E) (p >>= f) t (fun _ t l => Settled n id s t l) :=
  Logs.bind ((logs_smooth h hp).mono (fun x t' _ hl =>
    (hf x t' hl.1).mono (fun _ _ _ h => h.append hl.2)))

theorem not_risky_of_undoes {a : Action} (ha : Undoes a) : Risky a = false := by
  cases a with
  | containerStart | containerInspect | removeConfig => cases ha
  | _ => rfl

theorem not_risky_of_negotiates {a : Action} (ha : Negotiates a) : Risky a = false := by
  cases a with
  | containerStart | containerInspect | removeConfig => cases ha
  | _ => rfl

theorem smooth_removeConfig {cleanup : Option Nat} {path : String} {r : Except CallError Unit}
    (hl : Smooth l) : Smooth (⟨.removeConfig cleanup path, r⟩ :: l) ↔ r ≠ .error .refused := by
  have hstarts : ¬StartFails (.removeConfig cleanup path) r := fun h => by cases h.1
  refine smooth_cons.trans ((and_iff_left hl).trans ((and_iff_right hstarts).trans (not_congr ?_)))
  cases r with
  | ok x => exact iff_of_false (fun h => by cases h) (fun h => by cases h)
  | error e =>
    cases e with
    | refused => exact iff_of_true rfl rfl
    | notFound => exact iff_of_false (fun h => by cases h) (fun h => by cases h)

/-- What is left after the cleanup is a file, if its removal is refused. -/
theorem Kept.fails (hk : Kept n id s t) (hid : id ≠ "") :
    Logs (machine E) (failSessionStart n id) t (fun _ t' l => Settled n id s t' l) := by
  obtain ⟨rs, h, hu, hcovers⟩ := hk
  have hundoes : ∀ {p : Prog signature Unit}, p.Uses Undoes → p.Uses (fun a => Risky a = false) :=
    fun hp => hp.mono (fun _ => not_risky_of_undoes)
  unfold failSessionStart cleanupFailedStart
  simp only [bind_assoc]
  refine logs_settled rfl (fun _ t₁ hx _ => ?_)
  change Logs (S := signature) _ (callRelayCancel n >>= _) _ _
  refine logs_settled_bind (hundoes (uses_callRelayCancel n))
    (leads_callRelayCancel (hu.release hx) hcovers.relay) (fun _ t₂ hu => ?_)
  refine logs_settled_bind (hundoes (uses_stopRecorded n id))
    (leads_stopRecorded hu hid hcovers.container hcovers.network) (fun _ t₃ hu => ?_)
  refine logs_settled_bind (hundoes (uses_wgDownRecorded n))
    (leads_wgDownRecorded hu hcovers.interface hcovers.path) (fun _ t₄ hu => ?_)
  refine logs_call (fun r t₅ hx _ => ?_)
  obtain ⟨hcleared, hfile⟩ := hu.remove hx
  refine logs_call (fun _ t₆ hx _ => logs_ret.mpr (.inr ?_))
  obtain ⟨hcleared, hsame⟩ := hcleared.report hx
  refine ⟨hcleared, ?_⟩
  rw [hsame]
  exact hfile.trans ((smooth_removeConfig (Smooth.nil.cons rfl)).symm)

/-- A field that the cleanup does not look at. -/
theorem Kept.assign {b : Assign} {u : Unit} (hk : Kept n id s t)
    (hx : exec E (.assign n b) t = some (u, t'))
    (hb : ∀ rs h, Covers n id rs h → Covers n id (b.apply rs) h) : Kept n id s t' := by
  obtain ⟨rs, h, hu, hcovers⟩ := hk
  exact ⟨b.apply rs, h, hu.assign hx, hb rs h hcovers⟩

theorem leads_relayFallback (cfg : Config) (wgPort : Int) (exch : Exchange) (hk : Kept n id s t) :
    Leads (machine E) (relayFallback n cfg id wgPort exch) t (fun _ t' => Kept n id s t') := by
  unfold relayFallback
  split
  · exact leads_ret.mpr hk
  refine leads_call (fun ok t₁ hx _ => ?_)
  have hk := hk.quiet hx ⟨trivial, trivial⟩
  cases ok with
  | false => exact leads_ret.mpr hk
  | true =>
    obtain ⟨rs, h, hu, hcovers⟩ := hk
    refine leads_call (fun _ t₂ hx _ => ?_)
    have hu := hu.assign hx
    refine leads_call (fun _ t₃ hx _ => ?_)
    have hu := hu.frame (hu.within.runRelayClient hx) (frame_exec hx trivial)
    refine leads_call (fun _ t₄ hx _ => leads_ret.mpr ⟨_, _, hu.quiet hx ⟨trivial, trivial⟩, ?_⟩)
    exact ⟨hcovers.container, hcovers.network, hcovers.interface, hcovers.path, fun _ => .head _⟩

theorem leads_negotiate (cfg : Config) (wgPort : Int) (exch : Exchange) (hk : Kept n id s t) :
    Leads (machine E) (negotiate n cfg id wgPort exch) t (fun _ t' => Kept n id s t') := by
  unfold negotiate
  split
  · exact leads_relayFallback cfg wgPort exch hk
  refine leads_call (fun res t₁ hx _ => ?_)
  have hk := hk.quiet hx ⟨trivial, trivial⟩
  cases res with
  | some addr => exact leads_ret.mpr hk
  | none => exact leads_relayFallback cfg wgPort exch hk

/-- The actions that leave the attempts as they are. -/
def Unended : Action → Prop
  | .updateSessionStatus _ => True
  | a => Serves a

theorem attempts_exec {a : Action} {r : a.Res} (hx : exec E a t = some (r, t')) (ha : Unended a) :
    t'.attempts = t.attempts := by
  obtain ⟨u, htouch, rfl⟩ := exec_touch hx
  cases htouch with
  | reserve | release | endCleanup | removeConfig => cases ha
  | _ => rfl

theorem unended_of_serves {a : Action} (ha : Serves a) : Unended a := by
  unfold Unended
  split
  · trivial
  · exact ha

theorem logs_serveSession (cfg : Config) (sess : PolledSession) (started : Started)
    (kp : WGKeyPair) (wgPort : Int) (link : Link)
    (ht : t.attempts.lookup n = some ⟨id, .starting⟩) :
    Logs (machine E) (serveSession n cfg sess started kp wgPort link) t
      (fun _ t' l => Settled n id s t' l) := by
  have hserves : (serveSession n cfg sess started kp wgPort link).Uses Unended :=
    uses_serveSession (fun _ => unended_of_serves) (fun _ => trivial) started kp wgPort link
  refine Logs.mono (hserves.leads (R := fun t t' => t'.attempts = t.attempts) ?_ ?_ ?_ t).logs
    (fun _ _ _ hsame => .inl (hsame ▸ ht))
  · exact fun _ => rfl
  · exact fun h₁ h₂ => h₂.trans h₁
  · exact fun a ha t r t' hx => attempts_exec (guarded_eq_some.mp hx).1 ha

theorem logs_activate (cfg : Config) {sess : PolledSession} (started : Started) (kp : WGKeyPair)
    (wgPort : Int) (peerWGKey : String) (link : Link) (hid : sess.id ≠ "")
    (hk : Kept n sess.id s t) :
    Logs (machine E) (activate n cfg sess started kp wgPort peerWGKey link) t
      (fun _ t' l => Settled n sess.id s t' l) := by
  refine logs_settled rfl (fun res t₁ hx _ => ?_)
  have hk := hk.quiet hx ⟨trivial, trivial⟩
  cases res with
  | error e => exact hk.fails hid
  | ok x =>
    obtain ⟨rs, h, hu, hcovers⟩ := hk
    refine logs_settled rfl (fun _ t₂ hx _ => ?_)
    have hu := hu.assign hx
    refine logs_settled rfl (fun res t₃ hx _ => ?_)
    have hu := hu.frame (hu.within.wgUp hx) (frame_exec hx trivial)
    cases res with
    | error e =>
      refine Kept.fails ⟨_, _, hu, ?_⟩ hid
      exact ⟨hcovers.container, hcovers.network, fun _ => Custody.configPath_ne sess.id, fun _ => rfl,
        hcovers.relay⟩
    | ok x => exact logs_serveSession cfg sess started kp wgPort link hu.attempt

theorem logs_connect (cfg : Config) {sess : PolledSession} (started : Started) (kp : WGKeyPair)
    (hid : sess.id ≠ "") (hk : Kept n sess.id s t) :
    Logs (machine E) (connect n cfg sess started kp) t
      (fun _ t' l => Settled n sess.id s t' l) := by
  unfold connect
  dsimp only
  split
  · exact hk.fails hid
  refine logs_settled rfl (fun _ t₁ hx _ => ?_)
  have hk := hk.quiet hx ⟨trivial, trivial⟩
  refine logs_settled rfl (fun exch t₂ hx _ => ?_)
  have hk := hk.quiet hx ⟨trivial, trivial⟩
  change Logs (S := signature) _ (if _ then _ else _) _ _
  split
  · exact hk.fails hid
  · exact logs_settled_bind
      ((uses_negotiate cfg sess.id _ _).mono (fun _ => not_risky_of_negotiates))
      (leads_negotiate cfg _ _ hk) (fun link t₃ hk => logs_activate cfg started kp _ _ link hid hk)

/-- A start that has failed leaves nothing exactly if its container has not failed to start and its
file has been removed. -/
def Verdict (n : Nat) (id : String) (s t : Host) (l : Journal signature) : Prop :=
  t.attempts.lookup n = some ⟨id, .ended⟩ → (LeavesNothing n id s t ↔ Smooth l)

theorem Settled.verdict (h : Settled n id s t l) : Verdict n id s t l := by
  intro hended
  obtain hup | ⟨hcleared, hfile⟩ := h
  · rw [hup] at hended
    cases hended
  · exact ⟨fun hl => hfile.mp hl.config, fun hl => ⟨hcleared, hfile.mpr hl⟩⟩

theorem Stuck.verdict {c : String} (hs : Stuck n id s t c) (hl : ∃ y ∈ l, StartFails y.1 y.2) :
    Verdict n id s t l := by
  obtain ⟨y, hy, hfails⟩ := hl
  exact fun _ => ⟨fun hclean => absurd hclean hs.not_leavesNothing,
    fun hl => absurd hfails (hl y hy).1⟩

theorem under_reserve {t : Host} (hx : exec E (.reserve n id) s = some (true, t)) :
    Under n id s .starting {} {} t := by
  have hw := (wanes_exec hx trivial).within (Within.refl n id s)
  obtain ⟨hfalse, -⟩ | ⟨-, -, rfl⟩ := exec_reserve hx
  · cases hfalse
  · refine ⟨hw, (Map.lookup_insert _ _ _ _).trans (if_pos rfl),
      (Map.lookup_insert _ _ _ _).trans (if_pos rfl), fun h => ?_, Nat.le_succ _⟩
    cases h

theorem covers_nothing : Covers n id {} {} where
  container _ h := by cases h
  network h := by cases h
  interface h := by cases h
  path h := absurd rfl h
  relay h := by cases h

/-- The container is written down as soon as it runs. -/
theorem kept_started {started : Started} {u u' : Unit} (hne : started.containerID ≠ "")
    (hu : Under n id s .starting {}
      { container := some started.containerID, network := true } t)
    {t₁ t₂ : Host} (hcontainer : exec E (.assign n (.containerID started.containerID)) t = some (u, t₁))
    (hnetwork : exec E (.assign n (.networkID started.networkID)) t₁ = some (u', t₂)) :
    Kept n id s t₂ :=
  ⟨_, _, (hu.assign hcontainer).assign hnetwork,
    { container := fun c hc => by
        cases hc
        exact ⟨rfl, hne⟩
      network := fun _ => hne
      interface := fun h => by cases h
      path := fun h => absurd rfl h
      relay := fun h => by cases h }⟩

theorem logs_startSession (cfg : Config) {sess : PolledSession} (hnew : s.attempts.lookup n = none)
    (hfresh : ∀ k, s.clock ≤ k → s.containers.lookup (E.id k) = none) :
    Logs (machine E) (startSession n cfg sess) s (fun _ t l => Verdict n sess.id s t l) := by
  have hid : sess.id ≠ "" := fun h => absurd (h ▸ sess.long) (by decide)
  refine logs_call (fun ok t hx _ => ?_)
  cases ok with
  | false =>
    obtain ⟨-, rfl⟩ | ⟨htrue, -⟩ := exec_reserve hx
    · refine logs_ret.mpr (fun hended => ?_)
      have hnone : s.tick.attempts.lookup n = none := hnew
      rw [hnone] at hended
      cases hended
    · cases htrue
  | true =>
    have hreserve : Smooth [⟨.reserve n sess.id, true⟩] := Smooth.nil.cons rfl
    change Logs (S := signature) _ (startContainer n (startOpts sess) >>= _) _ _
    refine Logs.bind ((logs_startContainer rfl (under_reserve hx) hfresh).mono
      (fun res t₁ l ho => ?_))
    cases ho with
    | started hl hne hu =>
      refine Logs.mono (Q := fun _ t l => Settled n sess.id s t l) ?_
        (fun _ t₂ l' h => ((h.append hl).append hreserve).verdict)
      refine logs_settled rfl (fun _ t₂ hcontainer _ => logs_settled rfl (fun _ t₃ hnetwork _ => ?_))
      have hk := kept_started hne hu hcontainer hnetwork
      refine logs_settled rfl (fun kp t₄ hx _ => ?_)
      have hk := hk.quiet hx ⟨trivial, trivial⟩
      cases kp with
      | none => exact hk.fails hid
      | some kp =>
        refine logs_settled rfl (fun _ t₅ hx _ => logs_connect cfg _ kp hid (hk.assign hx ?_))
        exact fun rs h hc => ⟨hc.container, hc.network, hc.interface, hc.path, hc.relay⟩
    | failed hl hu =>
      exact (Kept.fails ⟨_, _, hu, covers_nothing⟩ hid).mono
        (fun _ t₂ l' h => ((h.append hl).append hreserve).verdict)
    | stuck hl hs =>
      obtain ⟨y, hy, hfails⟩ := hl
      refine (leads_failSessionStart_stuck hs).logs.mono (fun _ t₂ l' hs => ?_)
      exact hs.verdict ⟨y, .tail _ (List.mem_append_left _ hy), hfails⟩

end FailedStarts

open FailedStarts in
/-- When the removals of Docker and wg-quick succeed, a `startSession` that has failed leaves nothing
behind unless a container that it has created does not start, is not found or has exited (its ID is
not written down yet, and `StartContainer` does not remove it), or its config file is there and
cannot be removed. -/
theorem failed_start_clean_iff {E : Env} {s s' : Host} {n : Nat} {cfg : Config}
    {sess : PolledSession} (hnew : s.attempts.lookup n = none)
    (hfresh : ∀ k, s.clock ≤ k → s.containers.lookup (E.id k) = none)
    (hrun : (startSession n cfg sess).run (exec E) s = some ((), s'))
    (hremoved : ∀ y ∈ (startSession n cfg sess).journal (exec E) s, Removed y.1 y.2)
    (hfailed : s'.attempts.lookup n = some ⟨sess.id, .ended⟩) :
    LeavesNothing n sess.id s s' ↔
      ∀ y ∈ (startSession n cfg sess).journal (exec E) s,
        ¬StartFails y.1 y.2 ∧ ¬FileKept y.1 y.2 := by
  obtain ⟨hguarded, hjournal⟩ := run_guarded_of_journal hremoved hrun
  have hverdict := logs_iff.mp (logs_startSession cfg hnew hfresh) () s' hguarded
  rw [← hjournal]
  exact hverdict hfailed

/-- No key pair can be generated. -/
def noKeyEnv : Env := { quietEnv with keyPair := fun _ => none }

theorem failed_start_clean_noKey :
    ∃ s', (startSession 0 aConfig aSession).run (exec noKeyEnv) {} = some ((), s') ∧
      s'.attempts.lookup 0 = some ⟨aSession.id, .ended⟩ ∧
      LeavesNothing 0 aSession.id {} s' := by
  obtain ⟨s', hrun, hended⟩ : ∃ s',
      (startSession 0 aConfig aSession).run (exec noKeyEnv) {} = some ((), s') ∧
        s'.attempts.lookup 0 = some ⟨aSession.id, .ended⟩ := ⟨_, rfl, by decide +kernel⟩
  have hremoved : ∀ y ∈ (startSession 0 aConfig aSession).journal (exec noKeyEnv) {},
      Removed y.1 y.2 := by decide +kernel
  have hclean := failed_start_clean_iff rfl (fun _ _ => rfl) hrun hremoved hended
  exact ⟨s', hrun, hended, hclean.mpr (by decide +kernel)⟩

/-- Docker does not start the container, for want of a GPU driver say. -/
def noStartEnv : Env :=
  { quietEnv with fails := fun a _ => match a with
      | .containerStart _ => true
      | _ => false }

/-- The container exits at once. -/
def exitingEnv : Env := { quietEnv with exited := fun _ => true }

/-- All removals succeed.  The container is left behind, and in the second case its network too. -/
theorem failed_start_leaves_container :
    (∃ s', (startSession 0 aConfig aSession).run (exec noStartEnv) {} = some ((), s') ∧
      (∀ y ∈ (startSession 0 aConfig aSession).journal (exec noStartEnv) {}, Removed y.1 y.2) ∧
      s'.attempts.lookup 0 = some ⟨aSession.id, .ended⟩ ∧ s'.Contains aSession.id "id-5") ∧
    ∃ s', (startSession 0 aConfig aSession).run (exec exitingEnv) {} = some ((), s') ∧
      (∀ y ∈ (startSession 0 aConfig aSession).journal (exec exitingEnv) {}, Removed y.1 y.2) ∧
      s'.attempts.lookup 0 = some ⟨aSession.id, .ended⟩ ∧ s'.Contains aSession.id "id-5" ∧
      (s'.networks.lookup (networkName aSession.id)).isSome = true :=
  ⟨⟨_, rfl, by decide +kernel, by decide +kernel, _, rfl, by decide +kernel⟩,
    ⟨_, rfl, by decide +kernel, by decide +kernel, ⟨_, rfl, by decide +kernel⟩, by decide +kernel⟩⟩

end PeerCompute.Agent
