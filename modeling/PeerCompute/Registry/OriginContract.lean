import PeerCompute.Registry.Copies
import PeerCompute.Registry.Statements

/-! What the calls of the registry never change in the tables, statement by statement. -/

namespace PeerCompute.Registry

open PeerCompute.Data PeerCompute.Interleaving PeerCompute.Plugin PeerCompute.Computev1
  PeerCompute.PostgresStore Prog Contract

namespace FullCopies

/-! ## What no call changes -/

/-- The stored sessions without what is assigned after their creation, and the times at which the
stored providers have registered. -/
structure Origins where
  sessions : String → Option SessionRecord
  providers : String → Option Int

instance instPreorderOrigins : Preorder Origins where
  le w w' := (∀ id o, w.sessions id = some o → w'.sessions id = some o) ∧
    ∀ id t, w.providers id = some t → w'.providers id = some t
  le_refl _ := ⟨fun _ _ h => h, fun _ _ h => h⟩
  le_trans _ _ _ h h' := ⟨fun id o ho => h'.1 id o (h.1 id o ho), fun id t ht => h'.2 id t (h.2 id t ht)⟩

namespace Origins

def of (m : Tables) : Origins where
  sessions id := (m.sessions.lookup id).map SessionRecord.origin
  providers id := (m.providers.lookup id).map ProviderRecord.registeredAt

def addSession (w : Origins) (r : SessionRecord) : Origins :=
  { w with sessions := fun id => if id = r.id then some r.origin else w.sessions id }

def addProvider (w : Origins) (r : ProviderRecord) : Origins :=
  { w with providers := fun id => if id = r.id then some r.registeredAt else w.providers id }

theorem of_insertSession (m : Tables) (r : SessionRecord) :
    of (m.insertSession r) = (of m).addSession r := by
  refine congrArg (Origins.mk · _) (funext fun id => ?_)
  simp only [Tables.insertSession, Map.lookup_insert]
  split <;> rfl

theorem of_insertProvider (m : Tables) (r : ProviderRecord) :
    of (m.insertProvider r) = (of m).addProvider r := by
  refine congrArg (Origins.mk _ ·) (funext fun id => ?_)
  simp only [Tables.insertProvider, Map.lookup_insert]
  split <;> rfl

theorem addSession_self {w : Origins} {r : SessionRecord} (h : w.sessions r.id = some r.origin) :
    w.addSession r = w := by
  refine congrArg (Origins.mk · _) (funext fun id => ?_)
  split
  next hid => rw [hid, h]
  next => rfl

theorem addProvider_self {w : Origins} {r : ProviderRecord}
    (h : w.providers r.id = some r.registeredAt) : w.addProvider r = w := by
  refine congrArg (Origins.mk _ ·) (funext fun id => ?_)
  split
  next hid => rw [hid, h]
  next => rfl

theorem le_addSession {w : Origins} {r : SessionRecord} (h : w.sessions r.id = none) :
    w ≤ w.addSession r := by
  refine ⟨fun id o ho => ?_, fun _ _ ht => ht⟩
  have hne : id ≠ r.id := by
    rintro rfl
    rw [h] at ho
    cases ho
  exact (if_neg hne).trans ho

theorem le_addProvider {w : Origins} {r : ProviderRecord} (h : w.providers r.id = none) :
    w ≤ w.addProvider r := by
  refine ⟨fun _ _ ho => ho, fun id t ht => ?_⟩
  have hne : id ≠ r.id := by
    rintro rfl
    rw [h] at ht
    cases ht
  exact (if_neg hne).trans ht

theorem of_online (m : Tables) (id : String) (heartbeat : Int) :
    of ((m.assignProvider id (.lastHeartbeat heartbeat)).assignProvider id (.status "online")) =
      of m := by
  refine congrArg (Origins.mk _ ·) (funext fun id' => ?_)
  rw [Tables.lookup_online]
  split
  next hid =>
    rw [hid, Option.map_map]
    rfl
  next => rfl

end Origins

/-! ## The contract of the calls -/

/-- What a call may do: put back a session or a provider it has read, with the same origin, or put a
new one under the UUID it has drawn. -/
inductive Move : Origins → Option String → (a : Action) → a.Res → Origins → Option String → Prop
  | calm {w : Origins} {g : Option String} {a : Action} {res : a.Res} (ha : Calm a) :
      Move w g a res w g
  | draw {w : Origins} {g : Option String} {id : String} : Move w g .newUUID id w (some id)
  | rewrite {w : Origins} {g : Option String} {r : SessionRecord}
      {res : Except StoreError (Ref SessionRecord)} (hr : w.sessions r.id = some r.origin) :
      Move w g (.putSession (.own r)) res w g
  | create {w : Origins} {r : SessionRecord} {res : Except StoreError (Ref SessionRecord)}
      (hr : (w.providers r.providerID).isSome = true) :
      Move w (some r.id) (.putSession (.own r)) res (w.addSession r) none
  | edit {w : Origins} {g : Option String} {r : ProviderRecord}
      {res : Except StoreError (Ref ProviderRecord)}
      (hr : w.providers r.id = some r.registeredAt) : Move w g (.putProvider (.own r)) res w g
  | enroll {w : Origins} {r : ProviderRecord} {res : Except StoreError (Ref ProviderRecord)} :
      Move w (some r.id) (.putProvider (.own r)) res (w.addProvider r) none
  | beat {w : Origins} {g : Option String} {id : String} {heartbeat : Int}
      {res : Except StoreError Unit} (hid : (w.providers id).isSome = true) :
      Move w g (.updateHeartbeat id heartbeat) res w g

def HasSession (w : Origins) (r : SessionRecord) : Prop := w.sessions r.id = some r.origin

def HasProvider (w : Origins) (r : ProviderRecord) : Prop :=
  w.providers r.id = some r.registeredAt

def contract : Contract signature Origins (Option String) where
  Answers w := Copied (HasSession w) (HasProvider w)
  Move := Move
  Done _ := True

theorem assignAll_kept (as : List ProviderAssign) (r : ProviderRecord) :
    (assignAll as r).id = r.id ∧ (assignAll as r).registeredAt = r.registeredAt := by
  induction as generalizing r with
  | nil => exact ⟨rfl, rfl⟩
  | cons a as ih =>
    obtain ⟨hid, htime⟩ := ih (a.apply r)
    refine ⟨hid.trans (a.id_apply r), htime.trans ?_⟩
    cases a <;> rfl

theorem contract_copying : Copying contract HasSession HasProvider where
  session_mono hw h := hw.1 _ _ h
  provider_mono hw h := hw.2 _ _ h
  done _ := trivial
  calm ha := .calm ha
  draw := .draw
  answers h := h
  rewrite {w g c r r' res} hr h := by
    refine .rewrite ?_
    rw [SessionRecord.id_of_origin h.origin, h.origin]
    exact hr
  create {w r p res} _ hp hid _ := by
    refine ⟨_, .create ?_⟩
    have hp' : w.providers p.id = some p.registeredAt := hp
    rw [hid, hp']
    rfl
  edit {w g r} as {res} hr := by
    obtain ⟨hid, htime⟩ := assignAll_kept as r
    refine .edit ?_
    rw [hid, htime]
    exact hr
  enroll _ := ⟨_, .enroll⟩
  beat {w g r heartbeat res} hr := by
    refine .beat ?_
    have hr' : w.providers r.id = some r.registeredAt := hr
    rw [hr']
    rfl

/-- The same contract, statement by statement. -/
def statementContract : Contract statementSignature Origins (Option String) where
  Answers w
    | .action a, res => Copied (HasSession w) (HasProvider w) a res
    | .findProvider _, (res : Except StoreError (Ref ProviderRecord))
    | .likeProvider _, (res : Except StoreError (Ref ProviderRecord)) =>
      ∀ ref, res = .ok ref → ∃ r, ref = .own r ∧ HasProvider w r
    | .findSession _, (res : Except StoreError (Ref SessionRecord))
    | .likeSession _, (res : Except StoreError (Ref SessionRecord)) =>
      ∀ ref, res = .ok ref → ∃ r, ref = .own r ∧ HasSession w r
  Move w g
    | .action a, res, w', g' => Move w g a res w' g'
    | _, _, w', g' => w' = w ∧ g' = g
  Done _ := True

theorem settled_eq_some {α : Type} {x y : Except StoreError α} (h : settled x = some y) :
    x = y := by
  cases x with
  | ok a => exact Option.some.inj h
  | error e => cases h

theorem follows_statements {w : Origins} {g : Option String} (c : Rpc) :
    statementContract.Follows w g (c.handler.expand Action.statements) := by
  refine Follows.expand (C := contract) (D := statementContract) (fun a k h => ?_) (fun _ h => h)
    (contract_copying.follows_handler c)
  cases a with
  | getProviderByPrefix p =>
    refine follows_firstOf (C := statementContract) (a := .findProvider p) (b := .likeProvider p)
      (Q := fun w res => contract.Answers w (.getProviderByPrefix p) res)
      (fun hr => ⟨⟨rfl, rfl⟩, fun x hx => settled_eq_some hx ▸ hr⟩)
      (fun hr => ⟨⟨rfl, rfl⟩, hr⟩) (fun w' hw res hres => ?_)
    obtain ⟨w'', g', hm, hfollows⟩ := h w' hw res hres
    cases hm
    exact hfollows
  | getSessionByPrefix p =>
    refine follows_firstOf (C := statementContract) (a := .findSession p) (b := .likeSession p)
      (Q := fun w res => contract.Answers w (.getSessionByPrefix p) res)
      (fun hr => ⟨⟨rfl, rfl⟩, fun x hx => settled_eq_some hx ▸ hr⟩)
      (fun hr => ⟨⟨rfl, rfl⟩, hr⟩) (fun w' hw res hres => ?_)
    obtain ⟨w'', g', hm, hfollows⟩ := h w' hw res hres
    cases hm
    exact hfollows
  | _ => exact follows_perform.mpr h

/-! ## What holds while the calls go on -/

/-- The UUIDs and the IDs that were stored at the beginning. -/
def IsName (E : Env) (s : Server Tables) (id : String) : Prop :=
  (∃ t, id = E.uuid t) ∨ (s.store.sessions.lookup id).isSome = true ∨
    (s.store.providers.lookup id).isSome = true

end FullCopies

/-- No UUID is drawn twice or stored before it is drawn, and no ID begins with another one. -/
structure DistinctNames (E : Env) (s : Server Tables) : Prop where
  injective : Function.Injective E.uuid
  fresh : ∀ t, s.clock ≤ t → s.store.sessions.lookup (E.uuid t) = none ∧
    s.store.providers.lookup (E.uuid t) = none
  prefixFree : ∀ id id', FullCopies.IsName E s id → FullCopies.IsName E s id' →
    hasPrefix id id' = true → id' = id

namespace FullCopies

/-- A UUID that a call has drawn and not yet used. -/
structure Unused (E : Env) (w : Origins) (clock : Nat) (id : String) : Prop where
  session : w.sessions id = none
  provider : w.providers id = none
  drawn : ∃ t < clock, id = E.uuid t

structure Inv (E : Env) (names : String → Prop) (w : Origins) (gs : List (Option String))
    (s : Server Tables) : Prop where
  origins : Origins.of s.store = w
  fresh : ∀ t, s.clock ≤ t → w.sessions (E.uuid t) = none ∧ w.providers (E.uuid t) = none
  unused : ∀ (i : Nat) id, gs[i]? = some (some id) → Unused E w s.clock id
  apart : ∀ (i j : Nat) id, gs[i]? = some (some id) → gs[j]? = some (some id) → i = j
  named : ∀ id, (w.sessions id).isSome = true ∨ (w.providers id).isSome = true → names id

namespace Inv

variable {E : Env} {names : String → Prop} {w : Origins} {gs : List (Option String)}
  {s s' : Server Tables} {i : Nat}

theorem start (hnames : DistinctNames E s) : Inv E (IsName E s) (Origins.of s.store) [] s where
  origins := rfl
  fresh t ht := by simp [Origins.of, hnames.fresh t ht]
  unused i id h := by cases h
  apart i j id h := by cases h
  named id h := .inr (by simpa [Origins.of] using h)

theorem append (h : Inv E names w gs s) : Inv E names w (gs ++ [none]) s where
  origins := h.origins
  fresh := h.fresh
  unused i id hi := by
    obtain hi | ⟨-, hi⟩ := getElem?_concat_elim hi
    · exact h.unused i id hi
    · cases hi
  apart i j id hi hj := by
    obtain hi | ⟨-, hi⟩ := getElem?_concat_elim hi
    · obtain hj | ⟨-, hj⟩ := getElem?_concat_elim hj
      · exact h.apart i j id hi hj
      · cases hj
    · cases hi
  named := h.named

/-- A step that keeps the origins. -/
theorem keep (h : Inv E names w gs s) (horigins : Origins.of s'.store = Origins.of s.store)
    (hclock : s'.clock = s.clock + 1) : Inv E names w gs s' where
  origins := horigins.trans h.origins
  fresh t ht := h.fresh t (by omega)
  unused i id hi := by
    obtain ⟨hsession, hprovider, t, ht, rfl⟩ := h.unused i id hi
    exact ⟨hsession, hprovider, t, by omega, rfl⟩
  apart := h.apart
  named := h.named

theorem draw (hinj : Function.Injective E.uuid) (h : Inv E names w gs s)
    (hstore : s'.store = s.store) (hclock : s'.clock = s.clock + 1) :
    Inv E names w (gs.set i (some (E.uuid s.clock))) s' := by
  have h' := h.keep (congrArg Origins.of hstore) hclock
  have hne : ∀ j : Nat, gs[j]? ≠ some (some (E.uuid s.clock)) := by
    intro j hj
    obtain ⟨t, ht, heq⟩ := (h.unused j _ hj).drawn
    have := hinj heq
    omega
  refine ⟨h'.origins, h'.fresh, fun j id hj => ?_, fun j k id hj hk => ?_, h'.named⟩
  · obtain ⟨-, heq⟩ | ⟨-, hj⟩ := getElem?_set_elim hj
    · cases heq
      obtain ⟨hsession, hprovider⟩ := h.fresh s.clock le_rfl
      exact ⟨hsession, hprovider, s.clock, by omega, rfl⟩
    · exact h'.unused j id hj
  · obtain ⟨hji, hid⟩ | ⟨-, hj'⟩ := getElem?_set_elim hj
    · obtain ⟨hki, -⟩ | ⟨-, hk'⟩ := getElem?_set_elim hk
      · exact hji.trans hki.symm
      · exact absurd (hid ▸ hk') (hne k)
    · obtain ⟨-, hid⟩ | ⟨-, hk'⟩ := getElem?_set_elim hk
      · exact absurd (hid ▸ hj') (hne j)
      · exact h.apart j k id hj' hk'

/-- A call uses the UUID it has drawn. -/
theorem use (hinj : Function.Injective E.uuid) (hnames : ∀ t, names (E.uuid t))
    (h : Inv E names w gs s) {id : String} (hi : gs[i]? = some (some id)) {w' : Origins}
    (hsessions : ∀ id', id' ≠ id → w'.sessions id' = w.sessions id')
    (hproviders : ∀ id', id' ≠ id → w'.providers id' = w.providers id')
    (horigins : Origins.of s'.store = w') (hclock : s'.clock = s.clock + 1) :
    Inv E names w' (gs.set i none) s' := by
  obtain ⟨t, ht, hid⟩ := (h.unused i id hi).drawn
  refine ⟨horigins, fun t' ht' => ?_, fun j id' hj => ?_, fun j k id' hj hk => ?_, fun id' hid' => ?_⟩
  · have hne : E.uuid t' ≠ id := by
      rw [hid]
      intro heq
      have := hinj heq
      omega
    rw [hsessions _ hne, hproviders _ hne]
    exact h.fresh t' (by omega)
  · obtain ⟨-, hj⟩ | ⟨hij, hj⟩ := getElem?_set_elim hj
    · cases hj
    obtain ⟨hsession, hprovider, t', ht', hid'⟩ := h.unused j id' hj
    have hne : id' ≠ id := fun heq => hij (h.apart j i id' hj (heq ▸ hi))
    refine ⟨?_, ?_, t', by omega, hid'⟩
    · rw [hsessions _ hne, hsession]
    · rw [hproviders _ hne, hprovider]
  · obtain ⟨-, hj⟩ | ⟨-, hj⟩ := getElem?_set_elim hj
    · cases hj
    obtain ⟨-, hk⟩ | ⟨-, hk⟩ := getElem?_set_elim hk
    · cases hk
    exact h.apart j k id' hj hk
  · by_cases heq : id' = id
    · rw [heq, hid]
      exact hnames t
    · rw [hsessions _ heq, hproviders _ heq] at hid'
      exact h.named id' hid'

end Inv

end FullCopies

end PeerCompute.Registry
