import PeerCompute.Agent.EndpointLaws
import PeerCompute.Agent.Uses
import PeerCompute.Interleaving.Journal

/-! The endpoints under which a running session is reported to the registry. -/

namespace PeerCompute.Agent

open PeerCompute.Interleaving PeerCompute.Computev1 Prog

/-- The WireGuard port of a session. -/
def sessionPort (cfg : Config) (sess : PolledSession) : Int :=
  wrap (cfg.wgListenPort + parseTunnelIndex sess.wgProviderIP)

/-- A session that is reported as running has the endpoints of these ports. -/
def Reports (cfg : Config) (sess : PolledSession) (sshPort : String) : Action → Prop
  | .updateSessionStatus req => req.status = "running" →
    req.sshEndpoint = buildSSHEndpoint cfg.address sshPort ∧
      req.wgEndpoint = cfg.address ++ ":" ++ toString (sessionPort cfg sess)
  | _ => True

/-- Nothing is reported. -/
def Unreported : Action → Prop
  | .updateSessionStatus _ => False
  | _ => True

theorem unreported_of_plain {a : Action} (ha : Plain a) : Unreported a := by
  cases a with
  | updateSessionStatus => cases ha
  | _ => trivial

section

variable {n : Nat} {cfg : Config} {sess : PolledSession} {sshPort : String}

theorem reports_of_plain {a : Action} (ha : Plain a) : Reports cfg sess sshPort a := by
  cases a with
  | updateSessionStatus => cases ha
  | _ => trivial

theorem reports_terminated :
    Reports cfg sess sshPort (.updateSessionStatus (terminatedReport sess.id)) := by
  have hterminated : "terminated" ≠ "running" := by decide
  exact fun h => absurd h hterminated

theorem reports_failSessionStart : (failSessionStart n sess.id).Uses (Reports cfg sess sshPort) :=
  uses_failSessionStart (fun _ ha => reports_of_plain (plain_of_connects (connects_of_cleans ha)))
    reports_terminated

theorem reports_serveSession (started : Started) (kp : WGKeyPair) (link : Link) :
    (serveSession n cfg sess started kp (sessionPort cfg sess) link).Uses
      (Reports cfg sess started.sshPort) := by
  refine ⟨trivial, fun _ => ⟨trivial, fun _ => ⟨trivial, fun _ => ⟨?_, fun _ => ?_⟩⟩⟩⟩
  · exact fun _ => ⟨rfl, rfl⟩
  change Uses (S := signature) _ (if _ then _ else _)
  split
  · exact ⟨trivial, fun _ => trivial⟩
  · trivial

theorem reports_connect (started : Started) (kp : WGKeyPair) :
    (connect n cfg sess started kp).Uses (Reports cfg sess started.sshPort) := by
  refine (along_connect (fun _ => reports_terminated) (fun _ _ _ => trivial)
    (fun _ a ha => reports_of_plain (plain_of_connects ha)) (fun link l _ => ?_) []).uses
  exact ((reports_serveSession started kp link).mono (fun _ ha _ => ha)).along_always l

/-- The port that Docker has published for the container, or none. -/
def Published (l : Journal signature) (sshPort : String) : Prop :=
  sshPort = "" ∨ ∃ (c : String) (inspect : Inspection),
    ⟨Action.containerInspect c, (.ok inspect : Except CallError Inspection)⟩ ∈ l ∧
      inspect.hostPort = sshPort

theorem Published.mono {l l' : Journal signature} (h : Published l sshPort) (hl : l ⊆ l') :
    Published l' sshPort := by
  obtain h | ⟨c, inspect, hmem, hport⟩ := h
  · exact .inl h
  · exact .inr ⟨c, inspect, hl hmem, hport⟩

variable {E : Env} {s : Host}

/-- Whatever an earlier action has added to the journal. -/
theorem logs_published {α : Type} {p : Prog signature α} {q : α → Option String}
    {y : Σ a : signature.Act, signature.Res a}
    (h : p.Logs (exec E) s (fun x _ l => ∀ port, q x = some port → Published l port)) :
    p.Logs (exec E) s (fun x _ l => ∀ port, q x = some port → Published (y :: l) port) :=
  h.mono (fun _ _ _ h port hp => (h port hp).mono (List.subset_cons_self _ _))

theorem logs_awaitPort (c : String) (k : Nat) : (awaitPort c k).Logs (exec E) s
    (fun res _ l => ∀ port, res.toOption = some port → Published l port) := by
  induction k generalizing s with
  | zero =>
    refine logs_ret.mpr (fun port hport => ?_)
    cases hport
    exact .inl rfl
  | succ k ih =>
    refine logs_act.mpr (fun res s' _ => ?_)
    cases res with
    | error e => exact logs_ret.mpr (fun port hport => by cases hport)
    | ok inspect =>
      change Prog.Logs (S := signature) _ (if _ then _ else _) _ _
      split
      · exact logs_ret.mpr (fun port hport => by cases hport)
      split
      · refine logs_ret.mpr (fun port hport => ?_)
        cases hport
        exact .inr ⟨c, inspect, .head _, rfl⟩
      · exact logs_published ih

theorem logs_startContainer (opts : StartContainerOpts) : (startContainer n opts).Logs (exec E) s
    (fun res _ l => ∀ port, res.toOption.map Started.sshPort = some port → Published l port) := by
  have hfail : ∀ {s : Host} (e : CallError), Prog.Logs (S := signature) (exec E)
      (removeSessionNetwork opts.sessionID >>= fun _ =>
        (.ret (.error e : Except CallError Started))) s
      (fun res _ l => ∀ port, res.toOption.map Started.sshPort = some port → Published l port) :=
    fun e => logs_act.mpr (fun _ _ _ => logs_ret.mpr (fun port hport => by cases hport))
  refine logs_act.mpr (fun _ _ _ => logs_published (logs_act.mpr (fun res _ _ => logs_published ?_)))
  cases res with
  | error e => exact logs_ret.mpr (fun port hport => by cases hport)
  | ok networkID =>
    refine logs_act.mpr (fun res _ _ => logs_published ?_)
    cases res with
    | error e => exact hfail e
    | ok x =>
      refine logs_act.mpr (fun _ _ _ => logs_published (logs_act.mpr (fun res _ _ =>
        logs_published ?_)))
      cases res with
      | error e => exact hfail e
      | ok c =>
        refine logs_act.mpr (fun res _ _ => logs_published ?_)
        cases res with
        | error e => exact hfail e
        | ok x =>
          change Prog.Logs (S := signature) _ (awaitPort c 20 >>= _) _ _
          refine Logs.bind ((logs_awaitPort c 20).mono (fun res _ l h => ?_))
          cases res with
          | error e => exact logs_ret.mpr (fun port hport => by cases hport)
          | ok p =>
            refine logs_ret.mpr (fun port hport => ?_)
            cases hport
            exact (h p rfl).mono (List.subset_append_left _ _)

/-- What a session is reported with when it is running: the port that Docker has published for its
container, and the WireGuard port. -/
theorem logs_startSession : (startSession n cfg sess).Logs (exec E) s (fun _ _ l =>
    ∀ req, ⟨Action.updateSessionStatus req, ()⟩ ∈ l → req.status = "running" → ∃ sshPort,
      Published l sshPort ∧ req.sshEndpoint = buildSSHEndpoint cfg.address sshPort ∧
      req.wgEndpoint = cfg.address ++ ":" ++ toString (sessionPort cfg sess)) := by
  refine logs_act.mpr (fun reserved _ _ => ?_)
  cases reserved with
  | false => exact logs_ret.mpr (fun req hreq => by cases hreq with | tail _ hreq => cases hreq)
  | true =>
    change Prog.Logs (S := signature) _ (startContainer n _ >>= _) _ _
    have hstart : (startContainer n (startOpts sess)).Uses Unreported :=
      uses_startContainer (fun _ ha => unreported_of_plain (plain_of_builds ha)) trivial
    refine Logs.bind (((logs_startContainer (startOpts sess)).and (hstart.logs _)).mono
      (fun res _ l h => ?_))
    obtain ⟨hpublished, hplain⟩ := h
    -- nothing is reported by `StartContainer`, so the report comes from what follows it
    have hrest : ∀ {p : Prog signature Unit} {sshPort : String} {t : Host}, Published l sshPort →
        p.Uses (Reports cfg sess sshPort) → p.Logs (exec E) t (fun _ _ l' =>
          ∀ req, ⟨Action.updateSessionStatus req, ()⟩ ∈
            ⟨Action.reserve n sess.id, true⟩ :: (l ++ l') → req.status = "running" → ∃ sshPort,
          Published (⟨Action.reserve n sess.id, true⟩ :: (l ++ l')) sshPort ∧
          req.sshEndpoint = buildSSHEndpoint cfg.address sshPort ∧
          req.wgEndpoint = cfg.address ++ ":" ++ toString (sessionPort cfg sess)) := by
      intro p sshPort t hport hp
      refine (hp.logs t).mono (fun _ _ l' hreports req hreq hrunning => ?_)
      cases hreq with
      | tail _ hreq =>
        obtain hreq | hreq := List.mem_append.mp hreq
        · exact (hplain _ hreq).elim
        · obtain ⟨hssh, hwg⟩ := hreports _ hreq hrunning
          exact ⟨sshPort, hport.mono (List.subset_cons_of_subset _ (List.subset_append_left _ _)),
            hssh, hwg⟩
    cases res with
    | error e => exact hrest (.inl rfl) reports_failSessionStart
    | ok started =>
      refine hrest (hpublished _ rfl) ⟨trivial, fun _ => ⟨trivial, fun _ => ⟨trivial, fun kp => ?_⟩⟩⟩
      cases kp with
      | none => exact reports_failSessionStart
      | some kp => exact ⟨trivial, fun _ => reports_connect started kp⟩

/-- Both endpoints of a running session are those of the advertised host exactly if the address has
no port: the SSH endpoint replaces the port, the WireGuard endpoint has one appended. -/
theorem endpoints_split_iff {s' : Host} {host : List Char} (haddress : Advertises cfg.address host)
    (hrun : (startSession n cfg sess).run (exec E) s = some ((), s'))
    {req : UpdateSessionStatusRequest}
    (hreq : ⟨Action.updateSessionStatus req, ()⟩ ∈ (startSession n cfg sess).journal (exec E) s)
    (hrunning : req.status = "running") :
    ∃ sshPort, Published ((startSession n cfg sess).journal (exec E) s) sshPort ∧
      req.sshEndpoint = buildSSHEndpoint cfg.address sshPort ∧
      (sshPort ≠ "" → Bare sshPort.toList →
        ((splitHostPort req.sshEndpoint.toList = some (host, sshPort.toList) ∧
          splitHostPort req.wgEndpoint.toList =
            some (host, (toString (sessionPort cfg sess)).toList)) ↔
          cfg.address = String.ofList host)) := by
  obtain ⟨sshPort, hpublished, hssh, hwg⟩ := logs_iff.mp logs_startSession () s' hrun req hreq hrunning
  refine ⟨sshPort, hpublished, hssh, fun hne hport => ?_⟩
  have happend : req.wgEndpoint.toList =
      cfg.address.toList ++ ':' :: (toString (sessionPort cfg sess)).toList := by
    rw [hwg, String.toList_append, String.toList_append, List.append_assoc]
    rfl
  rw [hssh, happend, haddress.split_appended_iff (bare_toString _)]
  exact ⟨And.right, fun h => ⟨haddress.split_sshEndpoint hne hport, h⟩⟩

end

/-- The address of a provider that gives no port. -/
def bareConfig : Config := { aConfig with address := "203.0.113.7" }

theorem endpoints_split_bare :
    ∃ s' req, (startSession 0 bareConfig aSession).run (exec quietEnv) {} = some ((), s') ∧
      ⟨Action.updateSessionStatus req, ()⟩ ∈
        (startSession 0 bareConfig aSession).journal (exec quietEnv) {} ∧
      splitHostPort req.sshEndpoint.toList = some ("203.0.113.7".toList, "32768".toList) ∧
      splitHostPort req.wgEndpoint.toList = some ("203.0.113.7".toList, "51821".toList) := by
  obtain ⟨s', hrun⟩ : ∃ s', (startSession 0 bareConfig aSession).run (exec quietEnv) {} =
      some ((), s') := ⟨_, rfl⟩
  obtain ⟨req, hreq, hrunning, hendpoint⟩ : ∃ req : UpdateSessionStatusRequest,
      ((startSession 0 bareConfig aSession).journal (exec quietEnv) {})[20]? =
        some ⟨Action.updateSessionStatus req, ()⟩ ∧ req.status = "running" ∧
      req.sshEndpoint = buildSSHEndpoint bareConfig.address "32768" := ⟨_, rfl, rfl, rfl⟩
  have haddress : Advertises bareConfig.address "203.0.113.7".toList := .bare (by decide)
  obtain ⟨sshPort, -, hssh, hsplit⟩ := endpoints_split_iff haddress hrun (List.mem_of_getElem? hreq)
    hrunning
  obtain rfl := haddress.sshPort_inj (by decide) (hssh.symm.trans hendpoint)
  obtain ⟨hsplitSSH, hsplitWG⟩ := (hsplit (by decide) ⟨by decide, by decide, by decide⟩).mpr rfl
  exact ⟨s', req, hrun, List.mem_of_getElem? hreq, hsplitSSH, hsplitWG⟩

/-- An address with a port, as the documentation has it. -/
theorem wgEndpoint_has_two_ports :
    Advertises aConfig.address "provider".toList ∧
      ∃ req, ⟨Action.updateSessionStatus req, ()⟩ ∈
          (startSession 0 aConfig aSession).journal (exec quietEnv) {} ∧
        req.status = "running" ∧ req.sshEndpoint = "provider:32768" ∧
        req.wgEndpoint = "provider:50051:51821" ∧ splitHostPort req.wgEndpoint.toList = none := by
  have hhost : IsWord "provider".toList := by decide
  have hport : IsWord "50051".toList := by decide
  refine ⟨.hostPort hhost hport, ?_⟩
  obtain ⟨req, hreq, hrunning, hssh, hwg⟩ : ∃ req : UpdateSessionStatusRequest,
      ((startSession 0 aConfig aSession).journal (exec quietEnv) {})[20]? =
        some ⟨Action.updateSessionStatus req, ()⟩ ∧ req.status = "running" ∧
      req.sshEndpoint = "provider:32768" ∧ req.wgEndpoint = "provider:50051:51821" :=
    ⟨_, rfl, rfl, by decide +kernel, by decide +kernel⟩
  exact ⟨req, List.mem_of_getElem? hreq, hrunning, hssh, hwg, by rw [hwg]; decide +kernel⟩

end PeerCompute.Agent
