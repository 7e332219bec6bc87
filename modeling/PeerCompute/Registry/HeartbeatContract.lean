import PeerCompute.Interleaving.Owes
import PeerCompute.Registry.Copies

/-! What heartbeats, registrations and listings of providers write, over a store that hands out
copies. -/

namespace PeerCompute.Registry

open PeerCompute.Data PeerCompute.Interleaving PeerCompute.Plugin PeerCompute.Computev1
  Prog Contract

/-- The calls that write providers. -/
def Rpc.WritesProviders : Rpc → Prop
  | .registerProvider _ _ | .heartbeat _ | .listProviders _ => True
  | _ => False

/-- The calls that tell that a provider is alive. -/
def Rpc.Beats : Rpc → Prop
  | .registerProvider _ _ | .heartbeat _ => True
  | _ => False

/-- The heartbeat `n` of the provider `id` is stored. -/
def Stamps (id : String) (n : Int) : (a : Action) → a.Res → Prop
  | .updateHeartbeat id' n', (res : Except StoreError Unit) => res = .ok () ∧ id' = id ∧ n' = n
  | .putProvider (.own r), (res : Except StoreError (Ref ProviderRecord)) =>
    (∃ ref, res = .ok ref) ∧ r.id = id ∧ r.lastHeartbeat = n ∧ r.status = "online"
  | _, _ => False

namespace Heartbeats

/-- A time that has been reached, and the providers that are known to be stored. -/
structure World where
  time : Int
  stored : Set String

instance instPreorderWorld : Preorder World where
  le w w' := w.time ≤ w'.time ∧ ∀ id ∈ w.stored, id ∈ w'.stored
  le_refl w := ⟨Int.le_refl _, fun _ h => h⟩
  le_trans _ _ _ h h' := ⟨Int.le_trans h.1 h'.1, fun id hid => h'.2 id (h.2 id hid)⟩

/-- What an answer tells. -/
def told (w : World) : (a : Action) → a.Res → World
  | .now, (t : Int) => ⟨t, w.stored⟩
  | .getProviderByPrefix _, (res : Except StoreError (Ref ProviderRecord)) => match res with
    | .ok (.own r) => ⟨w.time, insert r.id w.stored⟩
    | _ => w
  | _, _ => w

/-- The writes of a call: a record that is put is online, or its heartbeat is older than thirty
seconds. -/
def Allowed (w : World) : Action → Prop
  | .putProvider (.own r) => r.status = "online" ∨ r.lastHeartbeat + 30 < w.time
  | .updateHeartbeat id _ => id ∈ w.stored
  | .putProvider (.stored _) | .setProvider (.stored _) _ | .putSession _ | .setSession _ _ => False
  | _ => True

def contract : Contract signature World Still where
  Answers w a res := Copied (fun _ => True) (fun _ => True) a res ∧ w ≤ told w a res
  Move w _ a res w' _ := Allowed w a ∧ w' = told w a res
  Done _ := True

variable {w : World}

/-- A call puts a provider online, or offline when its heartbeat has become too old. -/
def providerRules : ProviderRules contract where
  Before _ := True
  Read _ _ := True
  Found w r := r.id ∈ w.stored
  Past w t := t ≤ w.time
  read_mono _ _ := trivial
  found_mono h hw := hw.2 _ h
  past_mono h hw := le_trans h hw.1
  done _ := trivial
  aside {w g a res} ha := by
    cases a with
    | getProvider | listProviders | loadProvider | onProviderRegistered | getTerminatedSessionIDs =>
      exact ⟨trivial, rfl⟩
    | setProvider ref b =>
      cases ref with
      | own r => exact ⟨trivial, rfl⟩
      | stored id => exact ha.elim
    | _ => exact ha.elim
  load h := h.1
  set h := h.1
  get h := h.1 _ rfl
  list h := h.1 _ rfl
  now {w g t} h := ⟨⟨t, w.stored⟩, h.2, ⟨trivial, rfl⟩, le_rfl⟩
  find {w g p res} h := by
    refine ⟨_, ⟨trivial, rfl⟩, ?_⟩
    rintro ref rfl
    obtain ⟨r, rfl, -⟩ := h.1 ref rfl
    exact ⟨r, rfl, trivial, Set.mem_insert _ _⟩
  edit {w g r} as {res} _ honline := ⟨.inl honline, rfl⟩
  retire {w g r stale res} _ hold hpast :=
    ⟨.inr (lt_of_lt_of_le (Int.add_lt_add_right hold 30) hpast), rfl⟩
  beat h := ⟨h, rfl⟩
  enroll {w g id} _ := by
    refine ⟨.still, ⟨trivial, rfl⟩, ?_⟩
    intro w r res _ honline _
    exact ⟨w, .still, ⟨.inl honline, rfl⟩, trivial⟩

theorem follows_handler {c : Rpc} (hc : c.WritesProviders) :
    contract.Follows w .still c.handler := by
  cases c with
  | registerProvider ctx req => exact providerRules.follows_registerProvider trivial ctx req
  | heartbeat req => exact providerRules.follows_heartbeat trivial req
  | listProviders req => exact providerRules.follows_listProviders trivial req
  | createSession | getSession | terminateSession | listProviderSessions | updateSessionStatus |
    exchangeCandidates | reportConnectionResult => exact hc.elim

/-- Before the call returns successfully, it stores a heartbeat. -/
abbrev OwesStamp (p : Handler) : Prop :=
  p.Owes (S := signature) (Copied (fun _ => True) (fun _ => True))
    (fun a res => ∃ id n, Stamps id n a res) (fun x => ∃ resp, x = .ok resp)

theorem owes_error (e : Status) : OwesStamp (.ret (.error e)) := by
  rintro ⟨resp, h⟩
  cases h

theorem owes_setProviders {as : List ProviderAssign} {r : ProviderRecord}
    {f : Ref ProviderRecord → Handler} (h : OwesStamp (f (.own (assignAll as r)))) :
    OwesStamp (setProviders as (.own r) >>= f) := by
  induction as generalizing r with
  | nil => exact h
  | cons a as ih =>
    intro ref href
    obtain rfl := href
    exact .inr (ih h)

theorem owes_finishRegistration {r : ProviderRecord} {id : String} (hr : r.status = "online") :
    OwesStamp (finishRegistration (.own r) id) := by
  intro res _
  match res with
  | .ok ref => exact .inl ⟨r.id, r.lastHeartbeat, ⟨ref, rfl⟩, rfl, rfl, hr⟩
  | .error e => exact .inr (owes_error _)

theorem owes_registerProvider (ctx : Metadata) (req : RegisterProviderRequest) :
    OwesStamp (registerProvider ctx req) := by
  have hnew (now : Int) : OwesStamp (registerNewProvider req now) :=
    fun id _ => .inr (owes_finishRegistration rfl)
  refine fun now _ => .inr ?_
  dsimp only
  split
  · exact hnew now
  intro res hres
  refine .inr ?_
  match res, hres with
  | .ok ref, hres =>
    obtain ⟨r, rfl, -⟩ := hres ref rfl
    exact owes_setProviders (owes_finishRegistration rfl)
  | .error .notFound, _ => exact hnew now
  | .error .ambiguousPrefix, _ => exact owes_error _
  | .error (.other e), _ => exact owes_error _

theorem owes_heartbeat (req : HeartbeatRequest) : OwesStamp (heartbeat req) := by
  intro res hres
  refine .inr ?_
  match res, hres with
  | .error e, _ => exact owes_error _
  | .ok ref, hres =>
    obtain ⟨r, rfl, -⟩ := hres ref rfl
    refine fun r' _ => .inr (fun now _ => .inr ?_)
    dsimp only
    cases req.available with
    | some available =>
      refine owes_setProviders (fun res _ => ?_)
      match res with
      | .ok ref => exact .inl ⟨r.id, now, ⟨ref, rfl⟩, rfl, rfl, rfl⟩
      | .error e => exact .inr (owes_error _)
    | none =>
      intro res _
      match res with
      | .ok () => exact .inl ⟨_, now, rfl, rfl, rfl⟩
      | .error e => exact .inr (owes_error _)

theorem owes_handler {c : Rpc} (hc : c.Beats) : OwesStamp c.handler := by
  cases c with
  | registerProvider ctx req => exact owes_registerProvider ctx req
  | heartbeat req => exact owes_heartbeat req
  | listProviders | createSession | getSession | terminateSession | listProviderSessions |
    updateSessionStatus | exchangeCandidates | reportConnectionResult => exact hc.elim

end Heartbeats

end PeerCompute.Registry
