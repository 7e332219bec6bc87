import PeerCompute.Agent.Uses

/-! What `startSession` writes into the config file of a session and where it has it from, and what it
reports. -/

namespace PeerCompute.Agent

open PeerCompute.Interleaving PeerCompute.Computev1 Prog

/-- The actions that neither make a key pair, exchange candidates, write a config file, report a
status nor start a goroutine. -/
def Mute : Action → Prop
  | .generateKeyPair | .exchangeCandidates _ | .writeConfig _ _ _ | .updateSessionStatus _ |
    .go _ => False
  | _ => True

def keyPair? : (a : Action) → a.Res → Option WGKeyPair
  | .generateKeyPair, kp => kp
  | _, _ => none

/-- The key pairs that have been made. -/
def keyPairs (l : Journal signature) : List WGKeyPair := l.filterMap (fun y => keyPair? y.1 y.2)

def exchange? : (a : Action) → a.Res → Option (ExchangeCandidatesRequest × Option Exchange)
  | .exchangeCandidates req, exch => some (req, exch)
  | _, _ => none

/-- The exchanges, with their responses as far as there are any. -/
def exchanges (l : Journal signature) : List (ExchangeCandidatesRequest × Option Exchange) :=
  l.filterMap (fun y => exchange? y.1 y.2)

theorem mem_of_mem_keyPairs {l : Journal signature} {kp : WGKeyPair} (h : kp ∈ keyPairs l) :
    ⟨Action.generateKeyPair, some kp⟩ ∈ l := by
  obtain ⟨⟨a, r⟩, hmem, heq⟩ := List.mem_filterMap.mp h
  cases a with
  | generateKeyPair =>
    obtain rfl : r = some kp := heq
    exact hmem
  | _ => cases heq

/-- The moment of an exchange. -/
theorem exchanges_split {l : Journal signature} {req : ExchangeCandidatesRequest}
    {exch : Option Exchange} (h : exchanges l = [(req, exch)]) :
    ∃ l₁ l₂, l = l₁ ++ ⟨Action.exchangeCandidates req, exch⟩ :: l₂ ∧ exchanges l₂ = [] := by
  obtain ⟨l₁, ⟨a, r⟩, l₂, rfl, -, heq, hnil⟩ := List.filterMap_eq_cons_iff.mp h
  cases a with
  | exchangeCandidates req' =>
    obtain ⟨rfl, rfl⟩ := Prod.mk.inj (Option.some.inj heq)
    exact ⟨l₁, l₂, rfl, hnil⟩
  | _ => cases heq

/-- No status has been reported. -/
def NoneReported (l : Journal signature) : Prop :=
  ∀ req res, ⟨Action.updateSessionStatus req, res⟩ ∉ l

/-- The journal has these key pairs and exchanges, and no report. -/
structure Stands (kps : List WGKeyPair) (xs : List (ExchangeCandidatesRequest × Option Exchange))
    (l : Journal signature) : Prop where
  keyPairs : keyPairs l = kps
  exchanges : exchanges l = xs
  noneReported : NoneReported l

variable {kps : List WGKeyPair} {xs : List (ExchangeCandidatesRequest × Option Exchange)}
  {l : Journal signature}

theorem stands_nil : Stands [] [] [] := ⟨rfl, rfl, fun _ _ => List.not_mem_nil⟩

theorem Stands.concat (h : Stands kps xs l) {a : Action} (ha : ∀ req, a ≠ .updateSessionStatus req)
    (r : a.Res) :
    Stands (kps ++ (keyPair? a r).toList) (xs ++ (exchange? a r).toList) (l ++ [⟨a, r⟩]) := by
  obtain ⟨rfl, rfl, hnone⟩ := h
  refine ⟨?_, ?_, fun req res hmem => ?_⟩
  · rw [Agent.keyPairs, List.filterMap_append]
    cases h : keyPair? a r <;> simp [h, Agent.keyPairs]
  · rw [Agent.exchanges, List.filterMap_append]
    cases h : exchange? a r <;> simp [h, Agent.exchanges]
  · obtain hmem | hmem := List.mem_append.mp hmem
    · exact hnone req res hmem
    · cases List.mem_singleton.mp hmem
      exact ha req rfl

theorem Stands.mute (h : Stands kps xs l) {a : Action} (ha : Mute a) (r : a.Res) :
    Stands kps xs (l ++ [⟨a, r⟩]) := by
  have hnone : keyPair? a r = none ∧ exchange? a r = none ∧
      ∀ req, a ≠ .updateSessionStatus req := by
    cases a with
    | generateKeyPair | exchangeCandidates | writeConfig | updateSessionStatus | go => cases ha
    | _ => exact ⟨rfl, rfl, nofun⟩
  simpa only [hnone.1, hnone.2.1, Option.toList_none, List.append_nil] using h.concat hnone.2.2 r

theorem mute_of_minor {a : Action} (ha : Builds a ∨ Negotiates a ∨ Cleans a ∨ Serves a) : Mute a := by
  cases a with
  | generateKeyPair | exchangeCandidates | writeConfig | updateSessionStatus | go =>
    obtain ha | ha | ha | ha := ha <;> cases ha
  | _ => trivial

/-- A key pair is made once and the candidates are exchanged once, with its public key.  A config
file has its private key, the key that the exchange has brought, and the addresses of the session.
A status is reported once, and no goroutine is started. -/
def Configures (cfg : Config) (sess : PolledSession) (before : Journal signature) : Action → Prop
  | .generateKeyPair => Stands [] [] before
  | .exchangeCandidates req => ∃ kp, Stands [kp] [] before ∧ req.sessionID = sess.id ∧
      req.peerID = cfg.provider ∧ req.wgPublicKey = kp.publicKey
  | .writeConfig _ path config => ∃ kp req exch, Stands [kp] [(req, some exch)] before ∧
      config.privateKey = kp.privateKey ∧ config.peerPublicKey = exch.peerWGPublicKey ∧
      config.peerPublicKey ≠ "" ∧ config.tunnelIP = orElse sess.wgProviderIP "10.99.0.1" ∧
      config.peerIP = orElse sess.wgRenterIP "10.99.0.2" ∧ path = configPath sess.id
  | .updateSessionStatus req => req.sessionID = sess.id ∧ NoneReported before
  | .go _ => False
  | _ => True

theorem configures_of_mute {cfg : Config} {sess : PolledSession} {a : Action} (ha : Mute a)
    (l : Journal signature) : Configures cfg sess l a := by
  cases a with
  | generateKeyPair | exchangeCandidates | writeConfig | updateSessionStatus | go => cases ha
  | _ => trivial

section

variable {n : Nat} {cfg : Config} {sess : PolledSession}

/-- One action other than a report. -/
theorem along_act {α : Type} {Q : α → Journal signature → Prop} {a : Action}
    {k : a.Res → Prog signature α} (hok : Configures cfg sess l a)
    (ha : ∀ req, a ≠ .updateSessionStatus req) (hl : Stands kps xs l)
    (h : ∀ r, Stands (kps ++ (keyPair? a r).toList) (xs ++ (exchange? a r).toList) (l ++ [⟨a, r⟩]) →
      (k r).Along (Configures cfg sess) Q (l ++ [⟨a, r⟩])) :
    Along (S := signature) (Configures cfg sess) Q (.act a k) l :=
  ⟨hok, fun r => h r (hl.concat ha r)⟩

theorem along_mute {α : Type} {Q : α → Journal signature → Prop} {a : Action}
    {k : a.Res → Prog signature α} (ha : Mute a) (hl : Stands kps xs l)
    (h : ∀ r, Stands kps xs (l ++ [⟨a, r⟩]) →
      (k r).Along (Configures cfg sess) Q (l ++ [⟨a, r⟩])) :
    Along (S := signature) (Configures cfg sess) Q (.act a k) l :=
  ⟨configures_of_mute ha l, fun r => h r (hl.mute ha r)⟩

theorem along_of_mute {α : Type} {p : Prog signature α} (hp : p.Uses Mute) (hl : Stands kps xs l) :
    p.Along (Configures cfg sess) (fun _ => Stands kps xs) l :=
  hp.along (fun _ ha l _ => configures_of_mute ha l) (fun _ ha _ hl r => hl.mute ha r) hl

theorem along_failSessionStart (hl : Stands kps xs l) :
    (failSessionStart n sess.id).Along (Configures cfg sess) (fun _ _ => True) l := by
  have hcleans : (cleanupFailedStart n sess.id).Uses Mute :=
    (uses_cleanupFailedStart sess.id).mono (fun _ ha => mute_of_minor (.inr (.inr (.inl ha))))
  exact Along.bind ((along_of_mute hcleans hl).mono
    (fun _ l hl => ⟨⟨rfl, hl.noneReported⟩, fun _ => trivial⟩))

theorem along_serveSession {started : Started} {kp : WGKeyPair} {wgPort : Int} {link : Link}
    (hl : Stands kps xs l) :
    (serveSession n cfg sess started kp wgPort link).Along (Configures cfg sess) (fun _ _ => True)
      l := by
  refine along_mute trivial hl (fun _ hl => along_mute trivial hl (fun _ hl =>
    along_mute trivial hl (fun _ hl => ⟨⟨rfl, hl.noneReported⟩, fun _ => ?_⟩)))
  change Along (S := signature) _ _ (if _ then _ else _) _
  split
  · exact ⟨trivial, fun _ => trivial⟩
  · trivial

theorem along_activate {started : Started} {kp : WGKeyPair} {wgPort : Int} {link : Link}
    {req : ExchangeCandidatesRequest} {exch : Exchange} (hl : Stands [kp] [(req, some exch)] l)
    (hkey : exch.peerWGPublicKey ≠ "") :
    (activate n cfg sess started kp wgPort exch.peerWGPublicKey link).Along (Configures cfg sess)
      (fun _ _ => True) l := by
  refine along_act ⟨kp, req, exch, hl, rfl, rfl, hkey, rfl, rfl, rfl⟩ nofun hl (fun res hl => ?_)
  cases res with
  | error e => exact along_failSessionStart hl
  | ok x =>
    refine along_mute trivial hl (fun _ hl => along_mute trivial hl (fun res hl => ?_))
    cases res with
    | error e => exact along_failSessionStart hl
    | ok x => exact along_serveSession hl

theorem along_connect_configures {started : Started} {kp : WGKeyPair} (hl : Stands [kp] [] l) :
    (connect n cfg sess started kp).Along (Configures cfg sess) (fun _ _ => True) l := by
  unfold connect
  dsimp only
  split
  · exact along_failSessionStart hl
  refine along_mute trivial hl (fun candidates hl =>
    along_act ⟨kp, hl, rfl, rfl, rfl⟩ nofun hl (fun exch hl => ?_))
  change Along (S := signature) _ _ (if _ then _ else _) _
  split
  · exact along_failSessionStart hl
  next hkey =>
    cases exch with
    | none => exact absurd rfl hkey
    | some exch =>
      refine Along.bind ((along_of_mute ?_ hl).mono (fun link l hl => ?_))
      · exact (uses_negotiate cfg sess.id _ exch).mono (fun _ ha => mute_of_minor (.inr (.inl ha)))
      · exact along_activate hl hkey

theorem along_startSession_configures (n : Nat) (cfg : Config) (sess : PolledSession) :
    (startSession n cfg sess).Along (Configures cfg sess) (fun _ _ => True) [] := by
  refine along_mute trivial stands_nil (fun reserved hl => ?_)
  cases reserved with
  | false => trivial
  | true =>
    have hstart : (startContainer n (startOpts sess)).Uses Mute :=
      uses_startContainer (fun _ ha => mute_of_minor (.inl ha)) trivial
    refine Along.bind (p := startContainer n (startOpts sess))
      ((along_of_mute hstart hl).mono (fun res l hl => ?_))
    cases res with
    | error e => exact along_failSessionStart hl
    | ok started =>
      refine along_mute trivial hl (fun _ hl => along_mute trivial hl (fun _ hl =>
        along_act hl nofun hl (fun kp hl => ?_)))
      cases kp with
      | none => exact along_failSessionStart hl
      | some kp => exact along_mute trivial hl (fun _ hl => along_connect_configures hl)

end

end PeerCompute.Agent
