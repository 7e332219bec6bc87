import PeerCompute.CLI.Uses

/-! What `doConnect` writes into the config file, and where it has it from. -/

namespace PeerCompute.CLI

open PeerCompute.Agent (WGConfig WGKeyPair Exchange Link orElse)
open PeerCompute.Interleaving PeerCompute.Computev1 Prog

def response : (a : Action) → a.Res → Option (Option Exchange)
  | .exchangeCandidates _, r => some r
  | _, _ => none

/-- What the last exchange has given, if it has not failed. -/
def lastResponse (l : Journal signature) : Option Exchange :=
  (l.filterMap (fun y => response y.1 y.2)).getLast?.join

theorem lastResponse_exchange (l : Journal signature) (req : ExchangeCandidatesRequest)
    (r : Option Exchange) :
    lastResponse (l ++ [⟨Action.exchangeCandidates req, r⟩]) = r := by
  simp [lastResponse, response]

theorem lastResponse_snoc {a : Action} {r : a.Res} (hr : response a r = none)
    (l : Journal signature) : lastResponse (l ++ [⟨a, r⟩]) = lastResponse l := by
  simp [lastResponse, hr]

theorem response_of_quiet {path : Path} {a : Action} (ha : Quiet path a) (r : a.Res) :
    response a r = none := by
  cases a with
  | exchangeCandidates => cases ha
  | _ => rfl

def fetch? : (a : Action) → a.Res → Option (GetSessionRequest × Option Session)
  | .getSession req, sess => some (req, sess)
  | _, _ => none

/-- The last session that was asked for, and what was found. -/
def lastFetch (l : Journal signature) : Option (GetSessionRequest × Option Session) :=
  (l.filterMap (fun y => fetch? y.1 y.2)).getLast?

theorem lastFetch_fetch (l : Journal signature) (req : GetSessionRequest) (sess : Option Session) :
    lastFetch (l ++ [⟨Action.getSession req, sess⟩]) = some (req, sess) := by
  simp [lastFetch, fetch?]

theorem lastFetch_snoc {a : Action} {r : a.Res} (hr : fetch? a r = none) (l : Journal signature) :
    lastFetch (l ++ [⟨a, r⟩]) = lastFetch l := by
  simp [lastFetch, hr]

theorem mem_of_lastFetch {l : Journal signature} {req : GetSessionRequest} {sess : Option Session}
    (h : lastFetch l = some (req, sess)) : ⟨Action.getSession req, sess⟩ ∈ l := by
  obtain ⟨⟨a, r⟩, hmem, heq⟩ := List.mem_filterMap.mp (List.mem_of_getLast? h)
  cases a with
  | getSession req' =>
    cases heq
    exact hmem
  | _ => cases heq

/-- The moment of the last exchange, if it has been answered. -/
theorem lastResponse_split {l : Journal signature} {exch : Exchange}
    (h : lastResponse l = some exch) :
    ∃ l₁ req l₂, l = l₁ ++ ⟨Action.exchangeCandidates req, some exch⟩ :: l₂ ∧
      ∀ y ∈ l₂, response y.1 y.2 = none := by
  have hlast : (l.filterMap (fun y => response y.1 y.2)).getLast? = some (some exch) :=
    Option.join_eq_some_iff.mp h
  obtain ⟨ys, hys⟩ := List.getLast?_eq_some_iff.mp hlast
  obtain ⟨l₀, l₃, rfl, -, h₃⟩ := List.filterMap_eq_append_iff.mp hys
  obtain ⟨l₁, ⟨a, r⟩, l₂, rfl, -, heq, hnil⟩ := List.filterMap_eq_cons_iff.mp h₃
  have hquiet : ∀ y ∈ l₂, response y.1 y.2 = none := by
    simpa [List.filterMap_eq_nil_iff] using hnil
  cases a with
  | exchangeCandidates req =>
    obtain rfl : r = some exch := Option.some.inj heq
    exact ⟨l₀ ++ l₁, req, l₂, by simp, hquiet⟩
  | _ => cases heq

/-- The addresses of the tunnel to a session, and those of a session that is not found. -/
def sessionIPs : Option Session → TunnelIPs
  | none => {}
  | some sess => ⟨orElse sess.wgRenterIP "10.99.0.2", orElse sess.wgProviderIP "10.99.0.1"⟩

/-- A config has the private key, the key that the last exchange has brought, and the addresses of the
session that was found at last. -/
structure Fills (sessionID : String) (kp : WGKeyPair) (l : Journal signature) (config : WGConfig) :
    Prop where
  privateKey : config.privateKey = kp.privateKey
  peerPublicKey : config.peerPublicKey = ((lastResponse l).getD {}).peerWGPublicKey
  fetched : ∃ sess, lastFetch l = some (⟨sessionID⟩, sess) ∧
    config.tunnelIP = (sessionIPs sess).renterIP ∧ config.peerIP = (sessionIPs sess).providerIP

/-- Every exchange submits the public key.  A config is filled in before it is written, and it is
written before the connection is announced. -/
def Configures (sessionID : String) (kp : WGKeyPair) (before : Journal signature) : Action → Prop
  | .exchangeCandidates req => req.sessionID = sessionID ∧ req.peerID = "cli-user" ∧
      req.wgPublicKey = kp.publicKey
  | .createFile _ config => Fills sessionID kp before config
  | .announce _ path => ∃ config : WGConfig, ⟨Action.createFile path config, true⟩ ∈ before ∧
      Fills sessionID kp before config
  | _ => True

variable {sessionID : String} {kp : WGKeyPair} {l : Journal signature} {exch : Option Exchange}

theorem configures_of_quiet {path : Path} {a : Action} (ha : Quiet path a) (l : Journal signature) :
    Configures sessionID kp l a := by
  cases a with
  | exchangeCandidates | createFile | announce => cases ha
  | _ => trivial

/-- A part of `doConnect` in which the last response stays what it is. -/
theorem along_of_uses_quiet {α : Type} {p : Prog signature α} {path : Path}
    (hp : p.Uses (Quiet path)) (hl : lastResponse l = exch) :
    p.Along (Configures sessionID kp) (fun _ l' => lastResponse l' = exch) l :=
  hp.along (fun _ ha l _ => configures_of_quiet ha l)
    (fun _ ha l hl r => (lastResponse_snoc (response_of_quiet ha r) l).trans hl) hl

theorem along_awaitPeer {candidates : List EndpointCandidate} {exch : Exchange}
    (hl : lastResponse l = some exch) :
    (awaitPeer { sessionID := sessionID, peerID := "cli-user", candidates := candidates
                 wgPublicKey := kp.publicKey } exch).Along (Configures sessionID kp)
      (fun x l' => lastResponse l' = x) l := by
  unfold awaitPeer
  split
  · refine Along.bind (Along.mono (Retry.along_loop (J := fun _ x l => lastResponse l = x) ?_ ?_ ?_
      10 0 none hl) (fun _ _ h => h.choose_spec))
    · intro _ x l _ _
      refine ⟨⟨rfl, rfl, rfl⟩, fun r => ?_⟩
      cases r with
      | none => exact lastResponse_exchange l _ none
      | some exch =>
        change Along (S := signature) _ _ (if _ then _ else _) _
        split
        · exact lastResponse_exchange l _ (some exch)
        · exact lastResponse_exchange l _ (some exch)
    · exact fun _ x l hl => hl
    · exact fun n _ x l hl =>
        ⟨trivial, fun r => (lastResponse_snoc (a := .sleep n) (r := r) rfl l).trans hl⟩
  · exact hl

theorem along_tunnelIPs (hl : lastResponse l = exch) :
    (tunnelIPs sessionID).Along (Configures sessionID kp) (fun ips l' => lastResponse l' = exch ∧
      ∃ sess, lastFetch l' = some (⟨sessionID⟩, sess) ∧ ips = sessionIPs sess) l := by
  refine ⟨trivial, fun sess => ?_⟩
  have hresponse := (lastResponse_snoc (a := .getSession ⟨sessionID⟩) (r := sess) rfl l).trans hl
  cases sess with
  | none => exact ⟨hresponse, none, lastFetch_fetch l _ _, rfl⟩
  | some sess => exact ⟨hresponse, some sess, lastFetch_fetch l _ _, rfl⟩

/-- What is filled in stays so as long as nothing is exchanged and no session is fetched. -/
theorem Fills.concat {config : WGConfig} (h : Fills sessionID kp l config) {a : Action} {r : a.Res}
    (hresponse : response a r = none) (hfetch : fetch? a r = none) :
    Fills sessionID kp (l ++ [⟨a, r⟩]) config where
  privateKey := h.privateKey
  peerPublicKey := by
    rw [lastResponse_snoc hresponse]
    exact h.peerPublicKey
  fetched := by
    rw [lastFetch_snoc hfetch]
    exact h.fetched

theorem along_writeConfig {config : WGConfig} (h : Fills sessionID kp l config) :
    (writeConfig sessionID config).Along (Configures sessionID kp) (fun path l' =>
      ∀ p, path = some p → ⟨Action.createFile p config, true⟩ ∈ l' ∧ Fills sessionID kp l' config)
      l := by
  refine ⟨trivial, fun made => ?_⟩
  have hmade := h.concat (a := .mkdirAll) (r := made) rfl rfl
  cases made with
  | false => exact fun _ h => by cases h
  | true =>
    change (createConfig config (slice sessionID 12)).Along _ _ _
    cases slice sessionID 12 with
    | none => exact ⟨trivial, fun r => r.elim⟩
    | some p =>
      refine ⟨hmade, fun created => ?_⟩
      have hcreated := hmade.concat (a := .createFile (configPath p) config) (r := created) rfl rfl
      cases created with
      | false => exact fun _ h => by cases h
      | true =>
        intro p' h
        cases h
        exact ⟨List.mem_append_right _ (.head _), hcreated⟩

theorem along_bringUp {link : Link} {ips : TunnelIPs} {sess : Option Session}
    (hl : lastResponse l = exch) (hfetch : lastFetch l = some (⟨sessionID⟩, sess))
    (hips : ips = sessionIPs sess) :
    (bringUp sessionID kp (exch.getD {}).peerWGPublicKey link ips).Along (Configures sessionID kp)
      (fun _ _ => True) l := by
  subst hl hips
  refine Along.bind ((along_writeConfig ⟨rfl, rfl, sess, hfetch, rfl, rfl⟩).mono
    (fun path l hpath => ?_))
  cases path with
  | none => trivial
  | some path =>
    refine ⟨⟨_, hpath path rfl⟩, fun _ => ?_⟩
    exact (along_of_uses_quiet (uses_keepUp link.connMode path) rfl).mono (fun _ _ _ => trivial)

theorem along_doConnect (stunAddr sessionID : String) (kp : WGKeyPair) :
    (doConnect stunAddr sessionID kp).Along (Configures sessionID kp) (fun _ _ => True) [] := by
  refine ⟨trivial, fun candidates => ⟨⟨rfl, rfl, rfl⟩, fun res => ?_⟩⟩
  cases res with
  | none => trivial
  | some exch =>
    change Along (S := signature) _ _ (awaitPeer _ exch >>= _) _
    refine Along.bind ((along_awaitPeer (lastResponse_exchange _ _ (some exch))).mono
      (fun exch l hl => ?_))
    refine Along.bind ((along_of_uses_quiet (uses_reachPeer [] sessionID _) hl).mono
      (fun link l hl => ?_))
    cases link with
    | none => trivial
    | some link =>
      refine Along.bind ((along_tunnelIPs hl).mono (fun ips l hips => ?_))
      obtain ⟨hl, sess, hfetch, hips⟩ := hips
      refine Along.bind ((along_bringUp hl hfetch hips).mono (fun res l _ => ?_))
      change Along (S := signature) _ _ (if _ then _ else _) _
      split
      · exact ⟨trivial, fun _ => trivial⟩
      · trivial

end PeerCompute.CLI
