import PeerCompute.Registry.Rules

/-! The handlers over a store that hands out copies, for any contract that lets them put back what
they have made of a copy. -/

namespace PeerCompute.Registry

open PeerCompute.Data PeerCompute.Interleaving PeerCompute.Plugin PeerCompute.Computev1
  PeerCompute.Relay Prog Contract

/-- The actions that put no record, draw no UUID and send no heartbeat. -/
def Calm : Action → Prop
  | .putSession _ | .putProvider _ | .updateHeartbeat _ _ | .newUUID | .setSession (.stored _) _
  | .setProvider (.stored _) _ => False
  | _ => True

/-- The answers of a store that hands out copies: `QS` and `QP` hold of the records it keeps. -/
def Copied (QS : SessionRecord → Prop) (QP : ProviderRecord → Prop) : (a : Action) → a.Res → Prop
  | .getSessionByPrefix _, (res : Except StoreError (Ref SessionRecord)) =>
    ∀ ref, res = .ok ref → ∃ r, ref = .own r ∧ QS r
  | .getProvider _, (res : Except StoreError (Ref ProviderRecord))
  | .getProviderByPrefix _, (res : Except StoreError (Ref ProviderRecord)) =>
    ∀ ref, res = .ok ref → ∃ r, ref = .own r ∧ QP r
  | .listProviders _, (res : Except StoreError (List (Ref ProviderRecord))) =>
    ∀ refs, res = .ok refs → ∀ ref ∈ refs, ∃ r, ref = .own r ∧ QP r
  | .loadSession (.own r), (r' : SessionRecord) => r' = r
  | .setSession (.own r) b, (ref : Ref SessionRecord) => ref = .own (b.apply r)
  | .putSession (.own r), (res : Except StoreError (Ref SessionRecord)) =>
    ∀ ref, res = .ok ref → ref = .own r
  | .loadProvider (.own r), (r' : ProviderRecord) => r' = r
  | .setProvider (.own r) b, (ref : Ref ProviderRecord) => ref = .own (b.apply r)
  | _, _ => True

theorem copied_exec {σ : Type} {E : Env} {S : Store σ} (hS : S.Lawful) (hcopy : S.Copies)
    {s s' : Server σ} {QS : SessionRecord → Prop} {QP : ProviderRecord → Prop}
    (hQS : ∀ id r, S.session s.store id = some r → QS r)
    (hQP : ∀ id r, S.provider s.store id = some r → QP r) {a : Action} {res : a.Res}
    (h : exec E S a s = some (res, s')) : Copied QS QP a res := by
  cases a with
  | getSessionByPrefix p =>
    cases h
    intro ref href
    obtain ⟨r, hr, rfl⟩ := hS.get_session href
    refine ⟨r, ?_, hQS _ r hr⟩
    simp [Store.handle, hcopy.shared]
  | getProvider id =>
    cases h
    intro ref href
    obtain ⟨r, hr, rfl⟩ := hcopy.get_provider href
    exact ⟨r, rfl, hQP _ r hr⟩
  | getProviderByPrefix p =>
    cases h
    intro ref href
    obtain ⟨r, hr, rfl⟩ := hcopy.get_provider_by href
    exact ⟨r, rfl, hQP _ r hr⟩
  | listProviders filter =>
    cases h
    intro refs hrefs ref href
    obtain ⟨r, hr, rfl⟩ := hcopy.list_providers hrefs ref href
    exact ⟨r, rfl, hQP _ r hr⟩
  | putSession ref =>
    cases ref with
    | own r =>
      rintro ref rfl
      obtain ⟨-, -, ⟨e, -, hres, -⟩ | ⟨hres, -⟩⟩ := exec_putSession hS h
      · cases hres
      · cases hres
        simp [Store.handle, hcopy.shared]
    | stored id => trivial
  | loadSession ref | setSession ref b | loadProvider ref | setProvider ref b =>
    cases h
    cases ref with
    | own r => exact rfl
    | stored id => trivial
  | _ => trivial

variable {W : Type} [Preorder W]

/-- The contract's ghost value is the UUID a call has drawn last.  `QS` and `QP` hold of the copies
a call has read; a call may put back what it has made of one, or store a new record under the UUID
it has drawn. -/
structure Copying (C : Contract signature W (Option String)) (QS : W → SessionRecord → Prop)
    (QP : W → ProviderRecord → Prop) : Prop where
  session_mono : ∀ {w w' r}, w ≤ w' → QS w r → QS w' r
  provider_mono : ∀ {w w' r}, w ≤ w' → QP w r → QP w' r
  done : ∀ g, C.Done g
  calm : ∀ {w g a} {res : a.Res}, Calm a → C.Move w g a res w g
  draw : ∀ {w g} {id : String}, C.Move w g .newUUID id w (some id)
  answers : ∀ {w a} {res : a.Res}, C.Answers w a res → Copied (QS w) (QP w) a res
  rewrite : ∀ {w g c r r'} {res : Except StoreError (Ref SessionRecord)}, QS w r →
    Rewritten r c r' → C.Move w g (.putSession (.own r')) res w g
  create : ∀ {w r p} {res : Except StoreError (Ref SessionRecord)}, r.status = "pending" →
    QP w p → r.providerID = p.id → C.Answers w (.putSession (.own r)) res →
      ∃ w', C.Move w (some r.id) (.putSession (.own r)) res w' none
  edit : ∀ {w g r} as {res : Except StoreError (Ref ProviderRecord)}, QP w r →
    C.Move w g (.putProvider (.own (assignAll as r))) res w g
  enroll : ∀ {w r} {res : Except StoreError (Ref ProviderRecord)},
    C.Answers w (.putProvider (.own r)) res →
      ∃ w', C.Move w (some r.id) (.putProvider (.own r)) res w' none
  beat : ∀ {w g r heartbeat} {res : Except StoreError Unit}, QP w r →
    C.Move w g (.updateHeartbeat r.id heartbeat) res w g

namespace Copying

variable {C : Contract signature W (Option String)} {QS : W → SessionRecord → Prop}
  {QP : W → ProviderRecord → Prop} {w : W} {g : Option String} {α : Type}

theorem follows_uses (hC : Copying C QS QP) {p : Prog signature α} (hp : p.Uses Calm) :
    C.Follows w g p :=
  follows_of_uses (fun _ _ _ ha _ => hC.calm ha) (hC.done g) hp

/-- A call has a copy of its own, and puts back what it has made of it. -/
def editRules (hC : Copying C QS QP) (c : Rpc) : EditRules C c where
  Before _ := True
  After _ := True
  At _ w _ x₀ x ref := QS w x₀ ∧ ref = .own x
  Seen _ _ x r := r = x
  Copies := True
  at_mono h hw := ⟨hC.session_mono hw h.1, h.2⟩
  seen_mono h _ := h
  seen_eq _ h := h
  done {g} _ := hC.done g
  rejected {w g x₀ x ref} _ _ := hC.done g
  aside {w g a res} ha := by
    apply hC.calm
    cases a with
    | now | recordOutcome | registerRelay | invalidateRelay | deleteCandidates => trivial
    | _ => exact ha.elim
  get {w g p res} _ _ hres := by
    refine ⟨w, g, hC.calm trivial, ?_⟩
    cases res with
    | error e => exact .inl ⟨⟨e, rfl⟩, trivial⟩
    | ok ref =>
      obtain ⟨r, rfl, hr⟩ := hC.answers hres ref rfl
      exact .inr ⟨_, r, rfl, hr, rfl⟩
  load := by
    rintro k w g x₀ x ref r ⟨-, rfl⟩ hres
    exact ⟨hC.calm trivial, hC.answers hres⟩
  set := by
    rintro k w g x₀ x ref b ref' ⟨hx, rfl⟩ - hres
    exact ⟨hC.calm trivial, hx, hC.answers hres⟩
  setStatus := by
    rintro w g x₀ x ref r v ref' ⟨hx, rfl⟩ - - hres
    exact ⟨hC.calm trivial, hx, hC.answers hres⟩
  close := by
    rintro w g x₀ x ref v ref' ⟨hx, rfl⟩ hres
    exact ⟨w, g, le_rfl, hC.calm trivial, hx, hC.answers hres⟩
  reclaim {w g x₀ x ref r} hat _ := ⟨w, g, hC.calm trivial, hat⟩
  put := by
    rintro w g x₀ x ref res ⟨hx, rfl⟩ hput - - -
    exact ⟨w, g, hC.rewrite hx (hput trivial), trivial⟩
  putClosing := by
    rintro w g x₀ x ref res ⟨hx, rfl⟩ hput - - hres
    refine ⟨w, g, hC.rewrite hx (hput trivial), ?_⟩
    cases res with
    | error e => exact .inl ⟨⟨e, rfl⟩, trivial⟩
    | ok ref => exact .inr ⟨ref, rfl, hx, hC.answers hres ref rfl⟩
  reclaimStored {w g x₀ x ref r} _ _ := ⟨w, g, hC.calm trivial, trivial⟩

/-- A new session is stored under the UUID that the call has drawn last. -/
def createRules (hC : Copying C QS QP) : CreateRules C where
  Before _ := True
  Drawn g id := g = some id
  Holds g id _ := g = some id
  Known := QP
  known_mono h hw := hC.provider_mono hw h
  done {g} _ := hC.done g
  aside {w g a res} ha := by
    apply hC.calm
    cases a with
    | now | getProviderByPrefix | loadProvider | meetsMinimum | putCandidates | loadSession => trivial
    | _ => exact ha.elim
  provider {w w' q ref p} hget hw hload := by
    obtain ⟨r, rfl, hr⟩ := hC.answers hget ref rfl
    rw [hC.answers hload]
    exact hC.provider_mono hw hr
  draw {w g id} _ := ⟨some id, hC.draw, rfl⟩
  exhausted {w g id e} _ := ⟨g, hC.calm trivial, hC.done g⟩
  allocate {w g id ips} hg := ⟨g, hC.calm trivial, hg⟩
  create := by
    rintro w g r p res rfl hstatus hp hid hres
    obtain ⟨w', hm⟩ := hC.create hstatus hp hid hres
    exact ⟨w', none, hm, hC.done none⟩

/-- A provider's copy is put back with other values in some fields. -/
def providerRules (hC : Copying C QS QP) : ProviderRules C where
  Before _ := True
  Read := QP
  Found := QP
  Past _ _ := True
  read_mono h hw := hC.provider_mono hw h
  found_mono h hw := hC.provider_mono hw h
  past_mono _ _ := trivial
  done {g} _ := hC.done g
  aside {w g a res} ha := by
    apply hC.calm
    cases a with
    | getProvider | listProviders | loadProvider | onProviderRegistered | getTerminatedSessionIDs =>
      trivial
    | setProvider ref b =>
      cases ref with
      | own r => trivial
      | stored id => exact ha.elim
    | _ => exact ha.elim
  load h := hC.answers h
  set h := hC.answers h
  get h := hC.answers h _ rfl
  list h := hC.answers h _ rfl
  now {w g t} _ := ⟨w, le_rfl, hC.calm trivial, trivial⟩
  find {w g p res} hres := by
    refine ⟨w, hC.calm trivial, fun ref href => ?_⟩
    obtain ⟨r, rfl, hr⟩ := hC.answers hres ref href
    exact ⟨r, rfl, hr, hr⟩
  edit {w g r} as {res} hr _ := hC.edit as hr
  retire hr _ _ := hC.edit [.status "offline"] hr
  beat hr := hC.beat hr
  enroll {w g id} _ := by
    refine ⟨some id, hC.draw, ?_⟩
    rintro w r res rfl - hres
    obtain ⟨w', hm⟩ := hC.enroll hres
    exact ⟨w', none, hm, hC.done none⟩

/-- Every call follows such a contract, from whatever UUID its thread starts with. -/
theorem follows_handler (hC : Copying C QS QP) (c : Rpc) : C.Follows w g c.handler := by
  cases c with
  | registerProvider ctx req => exact hC.providerRules.follows_registerProvider trivial ctx req
  | heartbeat req => exact hC.providerRules.follows_heartbeat trivial req
  | listProviders req => exact hC.providerRules.follows_listProviders trivial req
  | createSession ctx req => exact hC.createRules.follows_createSession trivial ctx req
  | terminateSession req => exact (hC.editRules _).follows_terminateSession trivial
  | updateSessionStatus req => exact (hC.editRules _).follows_updateSessionStatus trivial
  | reportConnectionResult req => exact (hC.editRules _).follows_reportConnectionResult trivial
  | getSession req => exact hC.follows_uses (uses_getSession req trivial (fun _ => trivial))
  | listProviderSessions req =>
    exact hC.follows_uses (uses_listProviderSessions req (fun _ => trivial) (fun _ => trivial))
  | exchangeCandidates req =>
    exact hC.follows_uses (uses_exchangeCandidates req trivial (fun _ => trivial) trivial
      (fun _ _ => trivial))

end Copying

end PeerCompute.Registry
