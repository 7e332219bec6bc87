import PeerCompute.Interleaving.ReadModifyWrite
import PeerCompute.Registry.Rules

namespace PeerCompute.Registry

open PeerCompute.Data PeerCompute.Interleaving PeerCompute.Plugin PeerCompute.Computev1
  PeerCompute.Relay Prog

/-- The record without the one time that is assigned after a session's creation. -/
def untimed (r : SessionRecord) : SessionRecord := { r with terminatedAt := 0 }

namespace Rpc

/-- What the call makes of the record it has read, the time of a termination aside. -/
def rewrite : Rpc → SessionRecord → SessionRecord
  | .terminateSession _, r => { r with status := "terminated" }
  | .updateSessionStatus req, r => if Rejected req then r else updateRecord req r.terminatedAt r
  | .reportConnectionResult req, r => reportRecord req r
  | _, r => r

theorem origin_rewrite (c : Rpc) (r : SessionRecord) : (c.rewrite r).origin = r.origin := by
  cases c with
  | updateSessionStatus req =>
    simp only [rewrite]
    split
    · rfl
    · exact origin_updateRecord req r.terminatedAt r
  | _ => rfl

/-- A call that gives up leaves the record as it is. -/
theorem rewrite_of_not_writes {c : Rpc} (h : c.writes = false) (r : SessionRecord) :
    c.rewrite r = r := by
  cases c with
  | updateSessionStatus req =>
    have hrej : Rejected req := by simpa [writes] using h
    exact if_pos hrej
  | _ => cases h

end Rpc

theorem untimed_setIf {v : String} {g : String → SessionAssign} (r : SessionRecord)
    (hg : untimed ((g v).apply r) = (g v).apply (untimed r)) :
    untimed (setIf v g r) = setIf v g (untimed r) := by
  unfold setIf
  split
  · exact hg
  · rfl

theorem untimed_assigned (req : UpdateSessionStatusRequest) (t : Int) (r : SessionRecord) :
    untimed (assigned req t r) = assigned req 0 (untimed r) := by
  unfold assigned
  rw [untimed_setIf _ rfl, untimed_setIf _ rfl, untimed_setIf _ rfl, untimed_setIf _ rfl]
  congr 4
  have hiff : Closes req (untimed r) ↔ Closes req r := Iff.rfl
  by_cases hc : Closes req r
  · rw [if_pos hc, if_pos (hiff.mpr hc)]
    rfl
  · rw [if_neg hc, if_neg (mt hiff.mp hc)]
    rfl

theorem untimed_updateRecord (req : UpdateSessionStatusRequest) (t : Int) (r : SessionRecord) :
    untimed (updateRecord req t r) = updateRecord req 0 (untimed r) := by
  have h := untimed_assigned req t r
  have hmode : (assigned req 0 (untimed r)).connectionMode = (assigned req t r).connectionMode := by
    rw [← h]
    rfl
  unfold updateRecord
  rw [hmode, ← h]
  split
  · rfl
  · rfl
variable {σ : Type}

/-- The same sessions are stored, whatever their records have become. -/
def SameIDs (S : Store σ) (st st' : σ) : Prop :=
  ∀ id, (S.session st' id).isSome = (S.session st id).isSome

/-- Among the stored sessions `p` names `id`: a lookup answers with a copy of its record. -/
def Resolves (S : Store σ) (st : σ) (p id : String) : Prop :=
  ∀ t st', SameIDs S st st' →
    ∃ r, S.session st' id = some r ∧ S.getSessionByPrefix t st' p = .ok (.own r)

/-- The relay, if there is one, does not panic on the session's ID. -/
def CanRegister (s : Server σ) (id : String) : Prop := s.relay.isSome = true → 8 ≤ id.utf8ByteSize

/-- The accesses to a session's record so far. -/
structure History where
  accesses : List (Nat × Access)

instance : Preorder History where
  le w w' := w.accesses <+: w'.accesses
  le_refl w := List.prefix_refl w.accesses
  le_trans _ _ _ := List.IsPrefix.trans

def History.add (w : History) (i : Nat) (x : Access) : History := ⟨w.accesses ++ [(i, x)]⟩

theorem History.le_add (w : History) (i : Nat) (x : Access) : w ≤ w.add i x :=
  List.prefix_append _ _

/-- Calls that rewrite the record `record` of a session of `server`. -/
structure Contest (σ : Type) where
  server : Server σ
  record : SessionRecord
  calls : List Rpc

namespace Contest

def rewrite (K : Contest σ) (i : Nat) (r : SessionRecord) : SessionRecord :=
  (K.calls[i]?).elim r (fun c => c.rewrite r)

/-- The record, and the copies the calls have read, after some accesses. -/
def cell (K : Contest σ) (w : History) : Cell SessionRecord :=
  Cell.replay K.rewrite (untimed K.record) w.accesses

/-- How far a call has come: it has not read yet, it has a copy of the record it read, or it has
written. -/
inductive Stage
  | unread
  | holds (r : SessionRecord)
  | wrote

def Stage.accesses : Stage → List Access
  | .unread => []
  | .holds _ => [.read]
  | .wrote => [.read, .write]

structure Part where
  index : Nat
  call : Rpc
  stage : Stage

/-- The actions that touch no session record. -/
def quiet : Action → Bool
  | .getSessionByPrefix _ | .putSession _ | .setSession (.stored _) _ => false
  | _ => true

inductive Move (K : Contest σ) : History → Part → (a : Action) → a.Res → History → Part → Prop
  | keep {w : History} {g : Part} {a : Action} {res : a.Res} (ha : quiet a = true) :
      Move K w g a res w g
  | read {w : History} {g : Part} {p : String} {r : SessionRecord} (hg : g.stage = .unread) :
      Move K w g (.getSessionByPrefix p) (.ok (.own r)) (w.add g.index .read)
        { g with stage := .holds (K.cell w).value }
  | write {w : History} {g : Part} {r v : SessionRecord}
      {res : Except StoreError (Ref SessionRecord)} (hg : g.stage = .holds v)
      (hr : untimed r = g.call.rewrite v) (hw : g.call.writes = true)
      (hreg : g.call.registers = true → CanRegister K.server K.record.id) :
      Move K w g (.putSession (.own r)) res (w.add g.index .write) { g with stage := .wrote }

/-- What a call learns from the answer of an action. -/
def Answers (S : Store σ) (K : Contest σ) (w : History) : (a : Action) → a.Res → Prop
  | .getSessionByPrefix p, (res : Except StoreError (Ref SessionRecord)) =>
    Resolves S K.server.store p K.record.id →
      ∃ r, res = .ok (.own r) ∧ r.id = K.record.id ∧ untimed r = (K.cell w).value
  | .putSession (.own r), (res : Except StoreError (Ref SessionRecord)) => res = .ok (.own r)
  | .loadSession (.own r), (r' : SessionRecord) => r' = r
  | .setSession (.own r) b, (ref : Ref SessionRecord) => ref = .own (b.apply r)
  | .registerRelay _ id, _ => CanRegister K.server id
  | _, _ => True

def contract (S : Store σ) (K : Contest σ) : Contract signature History Part where
  Answers := K.Answers S
  Move := K.Move
  Done g := g.stage = .wrote ∨ (∃ v, g.stage = .holds v) ∧ g.call.writes = false

/-- What is true of a call that has come to its stage. -/
structure Reached (K : Contest σ) (w : History) (i : Nat) (g : Part) : Prop where
  index : g.index = i
  call : K.calls[i]? = some g.call
  own : Access.own i w.accesses = g.stage.accesses
  copy : ∀ v, g.stage = .holds v → (K.cell w).copy i = some v ∧ v.origin = K.record.origin
  wrote : g.stage = .wrote → g.call.writes = true ∧
    (g.call.registers = true → CanRegister K.server K.record.id)

/-- The stored record is what the accesses so far make of the first one. -/
structure Inv (S : Store σ) (K : Contest σ) (w : History) (gs : List Part) (s : Server σ) :
    Prop where
  record : ∃ r, S.session s.store K.record.id = some r ∧ untimed r = (K.cell w).value
  origin : (K.cell w).value.origin = K.record.origin
  ids : SameIDs S K.server.store s.store
  relay : s.relay.isSome = K.server.relay.isSome
  part : ∀ i g, gs[i]? = some g → K.Reached w i g
  length : gs.length = K.calls.length
  known : ∀ e ∈ w.accesses, e.1 < K.calls.length

variable {E : Env} {S : Store σ} {K : Contest σ} {w : History} {gs : List Part} {g : Part}
  {s s' : Server σ} {a : Action} {res : a.Res} {i j : Nat}

theorem cell_add (K : Contest σ) (w : History) (i : Nat) (x : Access) :
    K.cell (w.add i x) = (K.cell w).access K.rewrite (i, x) := by
  simp [cell, History.add]

theorem own_add_self (w : History) (i : Nat) (x : Access) :
    Access.own i (w.add i x).accesses = Access.own i w.accesses ++ [x] := by
  simp [History.add, Access.own_append]

theorem Reached.other (h : K.Reached w j g) (hij : i ≠ j) (x : Access) :
    K.Reached (w.add i x) j g := by
  refine ⟨h.index, h.call, ?_, fun v hv => ?_, h.wrote⟩
  · simp only [History.add, Access.own_append, Access.own_cons_ne hij, Access.own_nil,
      List.append_nil, h.own]
  · rw [cell_add]
    cases x with
    | read => simpa [hij.symm] using h.copy v hv
    | write => exact h.copy v hv

theorem Inv.access (h : K.Inv S w gs s) (hi : i < gs.length) {x : Access} {g' : Part}
    (hg' : K.Reached (w.add i x) i g') (hids : SameIDs S K.server.store s'.store)
    (hrelay : s'.relay.isSome = K.server.relay.isSome)
    (horigin : (K.cell (w.add i x)).value.origin = K.record.origin)
    (hrecord : ∃ r, S.session s'.store K.record.id = some r ∧
      untimed r = (K.cell (w.add i x)).value) :
    K.Inv S (w.add i x) (gs.set i g') s' := by
  refine ⟨hrecord, horigin, hids, hrelay, fun j g hg => ?_, List.length_set.trans h.length,
    fun e he => ?_⟩
  · by_cases hij : i = j
    · subst hij
      rw [List.getElem?_set_self hi] at hg
      cases hg
      exact hg'
    · rw [List.getElem?_set_ne hij] at hg
      exact (h.part j g hg).other hij x
  · obtain he | he := List.mem_append.mp he
    · exact h.known e he
    · rw [List.mem_singleton.mp he, ← h.length]
      exact hi

theorem Inv.read (h : K.Inv S w gs s) (hi : i < gs.length) (hg : K.Reached w i g)
    (hstage : g.stage = .unread) :
    K.Inv S (w.add i .read) (gs.set i { g with stage := .holds (K.cell w).value }) s.tick := by
  have hcell := K.cell_add w i .read
  have hvalue : (K.cell (w.add i .read)).value = (K.cell w).value := by rw [hcell, Cell.access_read]
  refine h.access hi ⟨hg.index, hg.call, ?_, ?_, nofun⟩ h.ids h.relay (hvalue ▸ h.origin)
    (hvalue ▸ h.record)
  · rw [own_add_self, hg.own, hstage]
    rfl
  · rintro v hv
    cases hv
    refine ⟨?_, h.origin⟩
    simp [hcell]

theorem Inv.write (h : K.Inv S w gs s) (hi : i < gs.length) (hg : K.Reached w i g)
    {r v : SessionRecord}
    (hview : ∀ id, S.session s'.store id =
      if id = r.id then some (S.merge (S.session s.store r.id) r) else S.session s.store id)
    (hrelay : s'.relay.isSome = K.server.relay.isSome) (hstage : g.stage = .holds v)
    (hr : untimed r = g.call.rewrite v) (hw : g.call.writes = true)
    (hreg : g.call.registers = true → CanRegister K.server K.record.id) :
    K.Inv S (w.add i .write) (gs.set i { g with stage := .wrote }) s' := by
  obtain ⟨hcopy, hv⟩ := hg.copy v hstage
  have hvalue : (K.cell (w.add i .write)).value = untimed r := by
    rw [cell_add, Cell.access_write, hcopy, hr]
    simp [rewrite, hg.call]
  have horigin : r.origin = K.record.origin := by
    have hr' := congrArg SessionRecord.origin hr
    exact hr'.trans ((g.call.origin_rewrite v).trans hv)
  have hid := SessionRecord.id_of_origin horigin
  obtain ⟨old, hold, hcell⟩ := h.record
  have hmerge : S.merge (S.session s.store r.id) r = r := by
    rw [hid, hold]
    apply S.merge_of_origin
    have hold' := congrArg SessionRecord.origin hcell
    exact horigin.trans (h.origin.symm.trans hold'.symm)
  refine h.access hi ⟨hg.index, hg.call, ?_, nofun, fun _ => ⟨hw, hreg⟩⟩ (fun id => ?_) hrelay ?_ ?_
  · rw [own_add_self, hg.own, hstage]
    rfl
  · rw [hview id]
    split
    next heq =>
      rw [heq, hid, ← h.ids, hold]
      rfl
    next => exact h.ids id
  · rw [hvalue]
    exact horigin
  · exact ⟨r, by rw [hview, if_pos hid.symm, hmerge], hvalue.symm⟩

/-- A quiet action leaves every record as it is. -/
theorem quiet_view (hS : S.Lawful) (ha : quiet a = true) (hx : exec E S a s = some (res, s')) :
    S.session s'.store = S.session s.store := by
  cases exec_touches hS hx with
  | none hview => exact hview
  | put => cases ha
  | set => cases ha
  | reclaim hview => exact hview
  | allocate hview => exact hview

section

variable (hS : S.Lawful) (hcopy : S.shared = false) (hfail : S.NeverFails)

include hS hcopy hfail

theorem answers_exec (h : K.Inv S w gs s) (hx : exec E S a s = some (res, s')) :
    K.Answers S w a res := by
  cases a with
  | getSessionByPrefix p =>
    intro hp
    cases hx
    obtain ⟨r, hr, hget⟩ := hp s.clock s.store h.ids
    obtain ⟨r', hr', hv⟩ := h.record
    rw [hr] at hr'
    cases hr'
    exact ⟨r, hget, hS.session_id hr, hv⟩
  | putSession ref =>
    cases ref with
    | own r =>
      refine (exec_put_own hS hfail hx).1.trans ?_
      simp [Store.handle, hcopy]
    | stored id => trivial
  | loadSession ref =>
    cases hx
    cases ref with
    | own r => exact rfl
    | stored id => trivial
  | setSession ref b =>
    cases hx
    cases ref with
    | own r => exact rfl
    | stored id => trivial
  | registerRelay token id =>
    intro hrelay
    apply (exec_registerRelay hx).2
    rw [h.relay]
    exact hrelay
  | _ => trivial

theorem contract_sound : (K.contract S).Sound (exec E S) (K.Inv S) where
  act {w gs s i g a r s'} h hg hx := by
    refine ⟨answers_exec hS hcopy hfail h hx, fun w' g' hm => ?_⟩
    obtain ⟨hi, hgi⟩ := List.getElem?_eq_some_iff.mp hg
    have hpart := h.part i g hg
    have hrelay := (exec_relay hS hx).trans h.relay
    cases hm with
    | keep ha =>
      have hview := quiet_view hS ha hx
      have hgs : gs.set i g = gs := by rw [← hgi, List.set_getElem_self]
      refine ⟨le_rfl, ?_, h.origin, ?_, hrelay, ?_, ?_, h.known⟩
      · rw [hview]
        exact h.record
      · unfold SameIDs
        rw [hview]
        exact h.ids
      · rw [hgs]
        exact h.part
      · rw [hgs]
        exact h.length
    | read hstage =>
      have hs : s' = s.tick := (congrArg Prod.snd (Option.some.inj hx)).symm
      obtain rfl := hpart.index
      rw [hs]
      exact ⟨w.le_add _ .read, h.read hi hpart hstage⟩
    | write hstage hr hw hreg =>
      obtain ⟨-, hview, -⟩ := exec_put_own hS hfail hx
      obtain rfl := hpart.index
      exact ⟨w.le_add _ .write, h.write hi hpart hview hrelay hstage hr hw hreg⟩

end

end Contest

end PeerCompute.Registry
