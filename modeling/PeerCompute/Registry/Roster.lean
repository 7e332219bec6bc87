import PeerCompute.Interleaving.Drawn
import PeerCompute.Registry.Rules

/-! What no call of the registry changes of a session, whichever store it has and whatever other calls
are in progress. -/

namespace PeerCompute.Registry

open PeerCompute.Data PeerCompute.Interleaving PeerCompute.Plugin PeerCompute.Computev1
  PeerCompute.Relay Prog Contract

/-- The stored sessions without what is assigned after their creation. -/
structure Roster where
  origin : String → Option SessionRecord

instance instPreorderRoster : Preorder Roster where
  le w w' := ∀ id o, w.origin id = some o → w'.origin id = some o
  le_refl _ _ _ h := h
  le_trans _ _ _ h h' id o ho := h' id o (h id o ho)

namespace Roster

variable {w w' : Roster} {g : Option String}

def add (w : Roster) (r : SessionRecord) : Roster :=
  ⟨fun id => if id = r.id then some r.origin else w.origin id⟩

theorem origin_add (w : Roster) (r : SessionRecord) (id : String) :
    (w.add r).origin id = if id = r.id then some r.origin else w.origin id := rfl

theorem le_add {r : SessionRecord} (h : w.origin r.id = none) : w ≤ w.add r := by
  intro id o ho
  rw [origin_add, if_neg, ho]
  rintro rfl
  rw [h] at ho
  cases ho

/-- A copy of a record has the origin of its session. -/
def Has (w : Roster) : Ref SessionRecord → Prop
  | .own r => w.origin r.id = some r.origin
  | .stored _ => True

theorem Has.mono {ref : Ref SessionRecord} (h : w.Has ref) (hw : w ≤ w') : w'.Has ref := by
  cases ref with
  | own r => exact hw _ _ h
  | stored id => trivial

/-- A record that is put is one of a session on the roster, or of a new one under an ID that the call
has drawn. -/
inductive Move (w : Roster) (g : Option String) :
    (a : Action) → a.Res → Roster → Option String → Prop
  | keep {a : Action} {res : a.Res}
      (hput : ∀ r, a = .putSession (.own r) → w.origin r.id = some r.origin) : Move w g a res w g
  | draw {id : String} : Move w g .newUUID id w (some id)
  | refused {r : SessionRecord} {e : StoreError} (hg : g = some r.id) :
      Move w g (.putSession (.own r)) (.error e) w g
  | create {r : SessionRecord} {ref : Ref SessionRecord} (hg : g = some r.id) :
      Move w g (.putSession (.own r)) (.ok ref) (w.add r) none

def Answers (w : Roster) : (a : Action) → a.Res → Prop
  | .getSessionByPrefix _, (res : Except StoreError (Ref SessionRecord)) =>
    ∀ ref, res = .ok ref → w.Has ref
  | .setSession (.own r) a, (ref : Ref SessionRecord) => ref = .own (a.apply r)
  | .setSession (.stored id) _, (ref : Ref SessionRecord) => ref = .stored id
  | _, _ => True

def contract : Contract signature Roster (Option String) where
  Answers := Answers
  Move := Move
  Done _ := True

variable {σ : Type} {E : Env} {S : Store σ} {s s' : Server σ} {a : Action} {res : a.Res}
  {gs : List (Option String)}

/-- The roster is that of the stored sessions, and no drawn UUID is on it. -/
structure Inv (E : Env) (S : Store σ) (w : Roster) (gs : List (Option String)) (s : Server σ) :
    Prop where
  origin : ∀ id, w.origin id = (S.session s.store id).map SessionRecord.origin
  drawn : Drawn E.uuid (fun id => (w.origin id).isSome = true) gs s.clock

/-- The roster of a store. -/
def ofStore (S : Store σ) (st : σ) : Roster := ⟨fun id => (S.session st id).map SessionRecord.origin⟩

theorem inv_ofStore (hfresh : ∀ t, s.clock ≤ t → S.session s.store (E.uuid t) = none) :
    Inv E S (ofStore S s.store) [] s where
  origin _ := rfl
  drawn := .nil (fun t ht => by simp [ofStore, hfresh t ht])

theorem Inv.begins (h : Inv E S w gs s) : Inv E S w (gs ++ [none]) s := ⟨h.origin, h.drawn.begins⟩

theorem answers_exec (hS : S.Lawful) (h : Inv E S w gs s) (hx : exec E S a s = some (res, s')) :
    Answers w a res := by
  cases a with
  | getSessionByPrefix p =>
    intro ref href
    cases hx
    obtain ⟨r, hr, rfl⟩ := hS.get_session href
    unfold Store.handle
    split
    · trivial
    · change w.origin r.id = some r.origin
      rw [h.origin, hr]
      rfl
  | setSession ref b =>
    cases hx
    cases ref with
    | own r => exact rfl
    | stored id => exact rfl
  | _ => trivial

theorem origin_merge (S : Store σ) {old r : SessionRecord} (h : r.origin = old.origin) :
    (S.merge (some old) r).origin = r.origin := by
  rw [S.merge_of_origin h]

/-- An action that puts no new record. -/
theorem Inv.keep (hS : S.Lawful) (h : Inv E S w gs s) (hx : exec E S a s = some (res, s'))
    (hput : ∀ r, a = .putSession (.own r) → w.origin r.id = some r.origin) : Inv E S w gs s' := by
  refine ⟨fun id => ?_, exec_clock hx ▸ h.drawn.tick⟩
  rw [h.origin id]
  cases exec_touches hS hx with
  | none hview => rw [hview]
  | reclaim hview => rw [hview]
  | allocate hview => rw [hview]
  | @put r _ hview =>
    rw [hview id]
    split
    next heq =>
      have hr := (h.origin r.id).symm.trans (hput r rfl)
      obtain ⟨old, hold, horigin⟩ := Option.map_eq_some_iff.mp hr
      rw [heq, hold, Option.map_some, Option.map_some, origin_merge S horigin.symm, horigin]
    next => rfl
  | @set id' b ref hview =>
    rw [hview id]
    split
    next heq =>
      rw [heq, Option.map_map]
      congr 1
      funext r
      exact (b.origin_apply r).symm
    next => rfl

theorem Inv.create (hS : S.Lawful) (hinj : Function.Injective E.uuid) (h : Inv E S w gs s)
    {i : Nat} {r : SessionRecord} {ref : Ref SessionRecord} (hg : gs[i]? = some (some r.id))
    (hx : exec E S (.putSession (.own r)) s = some (.ok ref, s')) :
    w.origin r.id = none ∧ Inv E S (w.add r) (gs.set i none) s' := by
  have hnone : w.origin r.id = none := Option.not_isSome_iff_eq_none.mp (h.drawn.unused i _ hg).1
  have hsession : S.session s.store r.id = none :=
    Option.map_eq_none_iff.mp ((h.origin r.id).symm.trans hnone)
  obtain ⟨-, -, ⟨e, -, hres, -⟩ | ⟨-, hview⟩⟩ := exec_putSession hS hx
  · cases hres
  refine ⟨hnone, fun id => ?_, ?_⟩
  · rw [origin_add, hview id, hsession, h.origin id]
    split
    · rfl
    · rfl
  · rw [exec_clock hx]
    refine h.drawn.use hinj hg (fun id hid => ?_)
    rw [origin_add] at hid
    split at hid
    next heq => exact .inl heq
    next => exact .inr hid

theorem contract_sound (hS : S.Lawful) (hinj : Function.Injective E.uuid) :
    contract.Sound (exec E S) (Inv E S) where
  act {w gs s i g a r s'} h hg hx := by
    refine ⟨answers_exec hS h hx, fun w' g' hm => ?_⟩
    cases hm with
    | keep hput => exact ⟨le_rfl, by rw [set_self hg]; exact h.keep hS hx hput⟩
    | draw =>
      cases hx
      exact ⟨le_rfl, h.origin, h.drawn.draw hinj i⟩
    | refused hg' =>
      rw [set_self hg]
      refine ⟨le_rfl, fun id => ?_, exec_clock hx ▸ h.drawn.tick⟩
      obtain ⟨-, -, ⟨e, -, -, hst⟩ | ⟨hres, -⟩⟩ := exec_putSession hS hx
      · rw [hst]
        exact h.origin id
      · cases hres
    | create hg' =>
      subst hg'
      obtain ⟨hnone, hInv⟩ := h.create hS hinj hg hx
      exact ⟨le_add hnone, hInv⟩

/-! The calls keep to the contract. -/

section

variable {α : Type} {ref : Ref SessionRecord}

/-- The actions that put no record of the call's own. -/
def Plain : Action → Prop
  | .putSession (.own _) => False
  | _ => True

theorem plain_of_harmless (ha : Harmless a) : Plain a := by
  cases a with
  | putSession => exact ha.elim
  | _ => trivial

theorem Plain.move (ha : Plain a) : Move w g a res w g := by
  refine .keep (fun r heq => ?_)
  subst heq
  exact ha.elim

theorem follows_uses {p : Prog signature α} (hp : p.Uses Plain) : contract.Follows w g p :=
  follows_of_uses (fun _ _ _ ha _ => Plain.move ha) trivial hp

theorem follows_silent {p : Handler} (hp : p.Uses Silent) : contract.Follows w g p :=
  follows_uses (hp.mono (fun _ ha => plain_of_harmless ha.harmless))

theorem Has.set {b : SessionAssign} {ref' : Ref SessionRecord} (hc : w.Has ref)
    (href : Answers w (.setSession ref b) ref') : w.Has ref' := by
  cases ref with
  | own r =>
    obtain rfl : ref' = .own (b.apply r) := href
    change w.origin _ = some _
    rw [b.id_apply, b.origin_apply]
    exact hc
  | stored id =>
    obtain rfl : ref' = .stored id := href
    trivial

theorem Has.move (hc : w.Has ref) (res : Except StoreError (Ref SessionRecord)) :
    Move w g (.putSession ref) res w g := by
  refine .keep (fun r heq => ?_)
  cases heq
  exact hc

/-- What is put over a session is a copy of its record, with other values in some fields. -/
def editRules (c : Rpc) : EditRules contract c where
  Before _ := True
  After _ := True
  At
    | .stored, _, _, _, _, _ => True
    | _, w, _, _, _, ref => w.Has ref
  Seen _ _ _ _ := True
  Copies := False
  at_mono {k w w' g x₀ x ref} h hw := by
    cases k with
    | stored => trivial
    | _ => exact Has.mono h hw
  seen_mono _ _ := trivial
  seen_eq h := h.elim
  done _ := trivial
  rejected _ _ := trivial
  aside {w g a res} ha := by
    apply Plain.move
    cases a with
    | putSession => exact ha.elim
    | _ => trivial
  get {w g p res} _ _ hres := by
    refine ⟨w, g, Plain.move trivial, ?_⟩
    cases res with
    | error e => exact .inl ⟨⟨e, rfl⟩, trivial⟩
    | ok ref => exact .inr ⟨ref, default, rfl, hres ref rfl⟩
  load _ _ := ⟨Plain.move trivial, trivial⟩
  set {k w g x₀ x ref b ref'} h _ hres := by
    refine ⟨Plain.move trivial, ?_⟩
    cases k with
    | stored => trivial
    | _ => exact Has.set h hres
  setStatus h _ _ hres := ⟨Plain.move trivial, Has.set h hres⟩
  close {w g x₀ x ref v ref'} h hres := ⟨w, g, le_rfl, Plain.move trivial, Has.set h hres⟩
  reclaim {w g x₀ x ref r} h _ := ⟨w, g, Plain.move trivial, h⟩
  put {w g x₀ x ref res} h _ _ _ _ := ⟨w, g, Has.move h res, trivial⟩
  putClosing {w g x₀ x ref res} h _ _ _ _ := by
    refine ⟨w, g, Has.move h res, ?_⟩
    cases res with
    | error e => exact .inl ⟨⟨e, rfl⟩, trivial⟩
    | ok ref => exact .inr ⟨ref, rfl, trivial⟩
  reclaimStored {w g x₀ x ref r} _ _ := ⟨w, g, Plain.move trivial, trivial⟩

/-- A call stores a new session under the ID that it has drawn. -/
def createRules : CreateRules contract where
  Before _ := True
  Drawn g id := g = some id
  Holds g id _ := g = some id
  Known _ _ := True
  known_mono _ _ := trivial
  done _ := trivial
  aside {w g a res} ha := by
    apply Plain.move
    cases a with
    | putSession => exact ha.elim
    | _ => trivial
  provider _ _ _ := trivial
  draw {w g id} _ := ⟨some id, .draw, rfl⟩
  exhausted {w g id e} _ := ⟨g, Plain.move trivial, trivial⟩
  allocate {w g id ips} hg := ⟨g, Plain.move trivial, hg⟩
  create {w g r p res} hg _ _ _ _ := by
    cases res with
    | error e => exact ⟨w, g, .refused hg, trivial⟩
    | ok ref => exact ⟨_, _, .create hg, trivial⟩

theorem follows_handler (c : Rpc) : contract.Follows w g c.handler := by
  cases c with
  | registerProvider ctx req => exact follows_silent (uses_registerProvider ctx req)
  | heartbeat req => exact follows_silent (uses_heartbeat req)
  | listProviders req => exact follows_silent (uses_listProviders req)
  | createSession ctx req => exact createRules.follows_createSession trivial ctx req
  | getSession req => exact follows_silent (uses_getSession req trivial (fun _ => trivial))
  | terminateSession req => exact (editRules _).follows_terminateSession trivial
  | listProviderSessions req =>
    exact follows_silent (uses_listProviderSessions req (fun _ => trivial) (fun _ => trivial))
  | updateSessionStatus req => exact (editRules _).follows_updateSessionStatus trivial
  | exchangeCandidates req =>
    exact follows_uses (uses_exchangeCandidates req trivial (fun _ => trivial) trivial
      (fun _ _ => trivial))
  | reportConnectionResult req => exact (editRules _).follows_reportConnectionResult trivial

end

end Roster

end PeerCompute.Registry
