import PeerCompute.Agent.Uses
import PeerCompute.CLI.Configs

/-! The keys in the config files of the two sides of a tunnel. -/

namespace PeerCompute.Agent

open PeerCompute.Interleaving PeerCompute.Computev1 Prog

/-- A config has the peer's key, and is written before the session is reported as running. -/
def KeyKnown (n : Nat) (sess : PolledSession) (before : Journal signature) : Action → Prop
  | .writeConfig _ _ config => config.peerPublicKey ≠ ""
  | .updateSessionStatus req => req.status = "running" → Written n sess before
  | _ => True

theorem keyKnown_of_plain {n : Nat} {sess : PolledSession} {l : Journal signature} {a : Action}
    (ha : Plain a) : KeyKnown n sess l a := by
  cases a with
  | writeConfig | updateSessionStatus => cases ha
  | _ => trivial

theorem along_startSession_keyKnown (n : Nat) (cfg : Config) (sess : PolledSession) :
    (startSession n cfg sess).Along (KeyKnown n sess) (fun _ _ => True) [] :=
  have hterminated : "terminated" ≠ "running" := by decide
  along_startSession (fun _ h => absurd h hterminated) (fun _ hkey _ => hkey)
    (fun _ _ => keyKnown_of_plain) (fun _ _ hwritten _ => hwritten) (fun _ => trivial)

end PeerCompute.Agent

namespace PeerCompute.CLI

open PeerCompute.Agent (WGConfig WGKeyPair Exchange Link)
open PeerCompute.Interleaving PeerCompute.Computev1 Prog

/-- The peer has answered with its key. -/
def PeerKnown (l : Journal signature) : Prop :=
  ∃ exch, lastResponse l = some exch ∧ exch.peerWGPublicKey ≠ ""

theorem peerKnown_iff {l : Journal signature} :
    PeerKnown l ↔ ((lastResponse l).getD {}).peerWGPublicKey ≠ "" := by
  unfold PeerKnown
  cases lastResponse l with
  | none => simp
  | some exch => simp

/-- A config has the peer's key exactly if the peer has answered with it, and is written before the
connection is announced. -/
def KeyIff (before : Journal signature) : Action → Prop
  | .createFile _ config => config.peerPublicKey ≠ "" ↔ PeerKnown before
  | .announce _ path => ∃ config : WGConfig, ⟨Action.createFile path config, true⟩ ∈ before ∧
      (config.peerPublicKey ≠ "" ↔ PeerKnown before)
  | _ => True

theorem keyIff_of_configures {sessionID : String} {kp : WGKeyPair} (l : Journal signature)
    (a : Action) (ha : Configures sessionID kp l a) : KeyIff l a := by
  have hkey : ∀ {config : WGConfig}, Fills sessionID kp l config →
      (config.peerPublicKey ≠ "" ↔ PeerKnown l) := by
    intro config h
    rw [peerKnown_iff, h.peerPublicKey]
  cases a with
  | createFile path config => exact hkey ha
  | announce connMode path =>
    obtain ⟨config, hmem, hfills⟩ := ha
    exact ⟨config, hmem, hkey hfills⟩
  | _ => trivial

theorem along_doConnect_keyIff (stunAddr sessionID : String) (kp : WGKeyPair) :
    (doConnect stunAddr sessionID kp).Along KeyIff (fun _ _ => True) [] :=
  (along_doConnect stunAddr sessionID kp).imp keyIff_of_configures

/-- A config of the agent has the renter's key.  A config of the renter has the provider's key, and
the connection is announced with it, exactly if the last exchange has brought one: the errors of the
loop that waits for it are ignored. -/
theorem config_keys_iff {σ τ : Type} (host : Exec Agent.signature τ) (exec : Exec signature σ) :
    (∀ n cfg sess t before a r after, (Agent.startSession n cfg sess).journal host t =
        before ++ ⟨a, r⟩ :: after → Agent.KeyKnown n sess before a) ∧
      ∀ stunAddr sessionID kp s before a r after, (doConnect stunAddr sessionID kp).journal exec s =
        before ++ ⟨a, r⟩ :: after → KeyIff before a :=
  ⟨fun n cfg sess _ _ _ _ _ hj => (Agent.along_startSession_keyKnown n cfg sess).journal hj,
    fun stunAddr sessionID kp _ _ _ _ _ hj => (along_doConnect_keyIff stunAddr sessionID kp).journal hj⟩

theorem config_keys_takenUp :
    ∃ path config r, ⟨Action.createFile path config, r⟩ ∈ (connectAs aUUID).journal aMachine takenUp ∧
      config.peerPublicKey ≠ "" := by
  obtain ⟨path, config, r, hx⟩ : ∃ path config r, ((connectAs aUUID).journal aMachine takenUp)[5]? =
      some ⟨Action.createFile path config, r⟩ := ⟨_, _, _, rfl⟩
  have hj : (connectAs aUUID).journal aMachine takenUp =
      ((connectAs aUUID).journal aMachine takenUp).take 5 ++ ⟨Action.createFile path config, r⟩ ::
        ((connectAs aUUID).journal aMachine takenUp).drop 6 := by
    obtain ⟨h, hx⟩ := List.getElem?_eq_some_iff.mp hx
    rw [← hx, List.getElem_cons_drop, List.take_append_drop]
  have hkey : ((lastResponse (((connectAs aUUID).journal aMachine takenUp).take 5)).getD
      {}).peerWGPublicKey ≠ "" := by decide +kernel
  have hiff := (config_keys_iff (Agent.exec Agent.quietEnv) _).2 _ _ _ _ _ _ _ _ hj
  exact ⟨path, config, r, List.mem_of_getElem? hx, hiff.mpr (peerKnown_iff.mpr hkey)⟩

/-- The provider does not answer eleven times, and the connection is established without its key. -/
theorem connected_without_key :
    ∃ path config,
      ⟨Action.createFile path config, true⟩ ∈ (connectAs aUUID).journal aMachine rented ∧
      config.peerPublicKey = "" ∧
      ⟨Action.announce "direct" path, ()⟩ ∈ (connectAs aUUID).journal aMachine rented := by
  obtain ⟨path, config, hcreate, hannounce, hkey⟩ : ∃ path config,
      ((connectAs aUUID).journal aMachine rented)[23]? =
        some ⟨Action.createFile path config, true⟩ ∧
      ((connectAs aUUID).journal aMachine rented)[24]? =
        some ⟨Action.announce "direct" path, ()⟩ ∧
      config.peerPublicKey = "" := ⟨_, _, rfl, rfl, rfl⟩
  exact ⟨path, config, List.mem_of_getElem? hcreate, hkey, List.mem_of_getElem? hannounce⟩

end PeerCompute.CLI
