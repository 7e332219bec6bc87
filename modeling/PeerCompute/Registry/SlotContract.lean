import PeerCompute.Interleaving.Contract
import PeerCompute.Registry.Actions
import PeerCompute.Registry.Effects

namespace PeerCompute.Registry

open PeerCompute.Data PeerCompute.Interleaving PeerCompute.Plugin PeerCompute.Computev1
  PeerCompute.Relay Prog

/-- The tunnel addresses of a session. -/
def ips (r : SessionRecord) : String × String := (r.wgProviderIP, r.wgRenterIP)

def tunnelIPs (idx : TunnelIndex) : String × String := (providerIP idx, renterIP idx)

/-- What the calls in progress agree on: the sessions whose slot is given back, or is owed by
some call, and the addresses of the stored sessions. -/
structure Ledger where
  settled : String → Prop
  ips : String → Option (String × String)

instance : Preorder Ledger where
  le w w' := (∀ id, w.settled id → w'.settled id) ∧ ∀ id x, w.ips id = some x → w'.ips id = some x
  le_refl _ := ⟨fun _ h => h, fun _ _ h => h⟩
  le_trans _ _ _ h h' := ⟨fun id hid => h'.1 id (h.1 id hid), fun id x hx => h'.2 id x (h.2 id x hx)⟩

/-- How far a call is with a new session: it has its ID, or its slot as well. -/
inductive Stage
  | none
  | drawn (id : String)
  | holds (id : String) (ips : String × String)

def Stage.id : Stage → Option String
  | .none => Option.none
  | .drawn id | .holds id _ => some id

/-- What one call in progress has to do before it returns. -/
structure Duty where
  stage : Stage := .none
  owes : Option String := none

def Duty.idle : Duty := {}

/-- The session that is stored as terminated by an action. -/
def terminates : Action → Option String
  | .putSession (.own r) => if r.status = "terminated" then some r.id else none
  | .setSession (.stored id) (.status v) => if v = "terminated" then some id else none
  | _ => none

/-- A record is put over the addresses it already has. -/
def PutsKnown (w : Ledger) (a : Action) : Prop :=
  ∀ r, a = .putSession (.own r) → w.ips r.id = some (ips r)

def Ledger.settle (w : Ledger) (id : String) : Ledger :=
  { w with settled := fun id' => id' = id ∨ w.settled id' }

def Ledger.store (w : Ledger) (r : SessionRecord) : Ledger :=
  { w with ips := fun id => if id = r.id then some (Registry.ips r) else w.ips id }

theorem Ledger.ips_store (w : Ledger) (r : SessionRecord) (id : String) :
    (w.store r).ips id = if id = r.id then some (Registry.ips r) else w.ips id := rfl

/-- The moves of a call.  A session that is stored as terminated is settled, and the call that
settles it owes the slot; a new session is stored before the call returns. -/
inductive Move (w : Ledger) (g : Duty) : (a : Action) → a.Res → Ledger → Duty → Prop
  | keep {a : Action} {res : a.Res} (hterm : ∀ id, terminates a = some id → w.settled id)
      (hput : PutsKnown w a) (halloc : ∀ id, a ≠ .allocateTunnelIPs id) : Move w g a res w g
  | owe {a : Action} {res : a.Res} {id : String} (hterm : terminates a = some id)
      (hput : PutsKnown w a) (hknown : w.ips id ≠ none)
      (howes : g.owes = none ∨ g.owes = some id) :
      Move w g a res (w.settle id) { g with owes := some id }
  | reclaim {id : String} (hknown : w.ips id ≠ none) :
      Move w g (.reclaimTunnelIndex id) () (w.settle id)
        { g with owes := if g.owes = some id then none else g.owes }
  | draw {id : String} (hstage : ∀ id ips, g.stage ≠ .holds id ips) :
      Move w g .newUUID id w { g with stage := .drawn id }
  | exhausted {id : String} {e : TunnelError} : Move w g (.allocateTunnelIPs id) (.error e) w g
  | allocate {id : String} {ips : String × String} (hstage : g.stage = .drawn id) :
      Move w g (.allocateTunnelIPs id) (.ok ips) w { g with stage := .holds id ips }
  | create {r : SessionRecord} {res : Except StoreError (Ref SessionRecord)}
      (hstage : g.stage = .holds r.id (ips r)) (hstatus : r.status ≠ "terminated") :
      Move w g (.putSession (.own r)) res (w.store r) { g with stage := .none }

/-- The reference points to the stored session `id`, or is a copy of it with its addresses. -/
def Cursor (w : Ledger) (id : String) : Ref SessionRecord → Prop
  | .own r => r.id = id ∧ w.ips id = some (ips r)
  | .stored id' => id' = id ∧ w.ips id ≠ none

/-- A copy that is terminated is one of a settled session. -/
def Fair (w : Ledger) : Ref SessionRecord → Prop
  | .own r => r.status = "terminated" → w.settled r.id
  | .stored _ => True

variable {σ : Type}

def Answers (S : Store σ) (w : Ledger) : (a : Action) → a.Res → Prop
  | .getSessionByPrefix _, (res : Except StoreError (Ref SessionRecord)) =>
    ∀ ref, res = .ok ref → ∃ id, Cursor w id ref ∧ Fair w ref
  | .loadSession (.own r), (r' : SessionRecord) => r' = r
  | .loadSession (.stored id), (r : SessionRecord) =>
    w.ips id ≠ none → r.id = id ∧ (r.status = "terminated" → w.settled id)
  | .putSession (.own r), (res : Except StoreError (Ref SessionRecord)) => res = .ok (S.handle r)
  | .putSession (.stored id), (res : Except StoreError (Ref SessionRecord)) =>
    res = .ok (.stored id)
  | .setSession (.own r) a, (ref : Ref SessionRecord) => ref = .own (a.apply r)
  | .setSession (.stored id) _, (ref : Ref SessionRecord) => ref = .stored id
  | _, _ => True

def slotContract (S : Store σ) : Contract signature Ledger Duty where
  Answers := Answers S
  Move := Move
  Done g := g.owes = none ∧ ∀ id ips, g.stage ≠ .holds id ips

variable {E : Env} {S : Store σ} {s s' : Server σ} {a : Action} {res : a.Res}

/-- The ledger is true of the stored sessions. -/
structure Recorded (S : Store σ) (w : Ledger) (s : Server σ) : Prop where
  ips : ∀ id, w.ips id = (S.session s.store id).map Registry.ips
  settled : ∀ id r, S.session s.store id = some r → r.status = "terminated" → w.settled id
  known : ∀ id, w.settled id → w.ips id ≠ none

/-- Every held slot belongs to a stored session with its addresses or to one that is being made,
and some call in progress owes it if the session is settled. -/
structure Balanced (E : Env) (S : Store σ) (w : Ledger) (gs : List Duty) (s : Server σ) : Prop
    extends Recorded S w s where
  wf : s.tunnels.Wf
  held : ∀ id idx, s.tunnels.usedTunnelIdxs.lookup id = some idx → w.ips id = some (tunnelIPs idx) ∨
    ∃ (i : Nat) (g : Duty), gs[i]? = some g ∧ g.stage = .holds id (tunnelIPs idx)
  owed : ∀ id idx, w.settled id → s.tunnels.usedTunnelIdxs.lookup id = some idx →
    ∃ (i : Nat) (g : Duty), gs[i]? = some g ∧ g.owes = some id
  stage : ∀ (i : Nat) (g : Duty) id, gs[i]? = some g → g.stage.id = some id →
    w.ips id = none ∧ ∃ t < s.clock, id = E.uuid t
  drawn : ∀ (i : Nat) (g : Duty) id, gs[i]? = some g → g.stage = .drawn id →
    s.tunnels.usedTunnelIdxs.lookup id = none
  distinct : ∀ (i j : Nat) (g g' : Duty) id, gs[i]? = some g → gs[j]? = some g' →
    g.stage.id = some id → g'.stage.id = some id → i = j
  fresh : ∀ t, s.clock ≤ t →
    w.ips (E.uuid t) = none ∧ s.tunnels.usedTunnelIdxs.lookup (E.uuid t) = none

theorem map_ips_merge (old : Option SessionRecord) (r : SessionRecord) :
    ips (S.merge old r) = ips r := by
  unfold ips
  rw [(S.merge_ips old r).1, (S.merge_ips old r).2]

theorem ips_apply (b : SessionAssign) (r : SessionRecord) : ips (b.apply r) = ips r := by
  cases b <;> rfl

namespace Recorded

variable {w : Ledger}

theorem ips_touches (h : Recorded S w s) (ht : Touches S s s' a res) (hput : PutsKnown w a)
    (id : String) : w.ips id = (S.session s'.store id).map Registry.ips := by
  rw [h.ips id]
  cases ht with
  | none hview => rw [hview]
  | reclaim hview => rw [hview]
  | allocate hview => rw [hview]
  | @put r res hview =>
    rw [hview id]
    split
    next heq => rw [← h.ips id, heq, hput r rfl, Option.map_some, map_ips_merge]
    next => rfl
  | @set id' b ref hview =>
    rw [hview id]
    split
    next heq =>
      rw [heq, Option.map_map]
      congr 1
      funext r
      exact (ips_apply b r).symm
    next => rfl

/-- A session is terminated because it was before, or by this action. -/
theorem terminated_touches (h : Recorded S w s) (ht : Touches S s s' a res) {id : String}
    {r : SessionRecord} (hr : S.session s'.store id = some r) (hterm : r.status = "terminated") :
    terminates a = some id ∨ w.settled id := by
  cases ht with
  | none hview => exact .inr (h.settled id r (hview ▸ hr) hterm)
  | reclaim hview => exact .inr (h.settled id r (hview ▸ hr) hterm)
  | allocate hview => exact .inr (h.settled id r (hview ▸ hr) hterm)
  | @put q res hview =>
    rw [hview id] at hr
    split at hr
    next heq =>
      cases hr
      rw [S.merge_status] at hterm
      exact .inl (by simp [terminates, hterm, heq])
    next => exact .inr (h.settled id r hr hterm)
  | @set id' b ref hview =>
    rw [hview id] at hr
    split at hr
    next heq =>
      subst heq
      obtain ⟨q, hq, rfl⟩ := Option.map_eq_some_iff.mp hr
      cases b with
      | status v => exact .inl (if_pos hterm)
      | _ => exact .inr (h.settled id q hq hterm)
    next => exact .inr (h.settled id r hr hterm)

/-- A new session is entered in the ledger. -/
theorem store (h : Recorded S w s) {r : SessionRecord}
    (hview : ∀ id, S.session s'.store id =
      if id = r.id then some (S.merge (S.session s.store r.id) r) else S.session s.store id)
    (hstatus : r.status ≠ "terminated") : Recorded S (w.store r) s' := by
  refine ⟨fun id => ?_, fun id q hq hterm => ?_, fun id hs => ?_⟩
  · rw [hview id, w.ips_store]
    split
    next => rw [Option.map_some, map_ips_merge]
    next => exact h.ips id
  · rw [hview id] at hq
    split at hq
    next =>
      cases hq
      rw [S.merge_status] at hterm
      exact absurd hterm hstatus
    next => exact h.settled id q hq hterm
  · rw [w.ips_store]
    split
    next => simp
    next => exact h.known id hs

end Recorded

section

variable {w : Ledger} {gs : List Duty} {i j : Nat} {g g' : Duty}

/-- What a thread with a property becomes when thread `i` gets a new duty. -/
theorem exists_set (hg : gs[i]? = some g) {P : Duty → Prop} (hP : P g → P g')
    (h : ∃ (j : Nat) (d : Duty), gs[j]? = some d ∧ P d) :
    ∃ (j : Nat) (d : Duty), (gs.set i g')[j]? = some d ∧ P d := by
  obtain ⟨j, d, hd, hp⟩ := h
  by_cases hj : j = i
  · subst hj
    rw [hg] at hd
    cases hd
    exact ⟨j, g', List.getElem?_set_self (List.getElem?_eq_some_iff.mp hg).1, hP hp⟩
  · exact ⟨j, d, (List.getElem?_set_ne (Ne.symm hj)).trans hd, hp⟩

end

namespace Balanced

variable {w : Ledger} {gs : List Duty} {i : Nat} {g : Duty}

theorem lookup_of_touches (ht : Touches S s s' a res) (halloc : ∀ id, a ≠ .allocateTunnelIPs id)
    {id : String} {idx : TunnelIndex} (hid : s'.tunnels.usedTunnelIdxs.lookup id = some idx) :
    s.tunnels.usedTunnelIdxs.lookup id = some idx := by
  cases ht with
  | none _ hT => rwa [hT] at hid
  | put _ hT => rwa [hT] at hid
  | set _ hT => rwa [hT] at hid
  | reclaim _ hT =>
    rw [hT, Tunnels.lookup_reclaim] at hid
    split at hid
    · cases hid
    · exact hid
  | allocate => exact absurd rfl (halloc _)

theorem wf_of_touches (h : Balanced E S w gs s) (ht : Touches S s s' a res)
    (halloc : ∀ id, a ≠ .allocateTunnelIPs id) : s'.tunnels.Wf := by
  cases ht with
  | none _ hT => exact hT ▸ h.wf
  | put _ hT => exact hT ▸ h.wf
  | set _ hT => exact hT ▸ h.wf
  | reclaim _ hT => exact hT ▸ h.wf.reclaim _
  | allocate => exact absurd rfl (halloc _)

/-- A move after which thread `i` is at the same stage and no slot has been added. -/
theorem of_same_stage (h : Balanced E S w gs s) (hg : gs[i]? = some g) {w' : Ledger} {g' : Duty}
    (hips : w'.ips = w.ips) (hstage : g'.stage = g.stage) (hclock : s'.clock = s.clock + 1)
    (hrec : Recorded S w' s') (hwf : s'.tunnels.Wf)
    (hT : ∀ id idx, s'.tunnels.usedTunnelIdxs.lookup id = some idx →
      s.tunnels.usedTunnelIdxs.lookup id = some idx)
    (howed : ∀ id idx, w'.settled id → s'.tunnels.usedTunnelIdxs.lookup id = some idx →
      ∃ (j : Nat) (d : Duty), (gs.set i g')[j]? = some d ∧ d.owes = some id) :
    Balanced E S w' (gs.set i g') s' := by
  have hnone : ∀ id, s.tunnels.usedTunnelIdxs.lookup id = none →
      s'.tunnels.usedTunnelIdxs.lookup id = none := by
    intro id hid
    cases hl : s'.tunnels.usedTunnelIdxs.lookup id with
    | none => rfl
    | some idx =>
      rw [hT id idx hl] at hid
      cases hid
  have hback : ∀ (j : Nat) (d : Duty), (gs.set i g')[j]? = some d →
      ∃ d₀ : Duty, gs[j]? = some d₀ ∧ d.stage = d₀.stage := by
    intro j d hd
    obtain ⟨rfl, rfl⟩ | ⟨-, hd⟩ := Contract.getElem?_set_elim hd
    · exact ⟨g, hg, hstage⟩
    · exact ⟨d, hd, rfl⟩
  refine ⟨hrec, hwf, ?_, howed, ?_, ?_, ?_, ?_⟩
  · intro id idx hid
    rw [hips]
    refine (h.held id idx (hT id idx hid)).imp (fun hx => hx) (fun hx => ?_)
    exact exists_set hg (fun hs => hstage.trans hs) hx
  · intro j d id hd hid
    obtain ⟨d₀, hd₀, heq⟩ := hback j d hd
    obtain ⟨hn, t, ht, htid⟩ := h.stage j d₀ id hd₀ (heq ▸ hid)
    exact ⟨hips ▸ hn, t, by omega, htid⟩
  · intro j d id hd hs
    obtain ⟨d₀, hd₀, heq⟩ := hback j d hd
    exact hnone id (h.drawn j d₀ id hd₀ (heq ▸ hs))
  · intro j j' d d' id hd hd' hid hid'
    obtain ⟨d₀, hd₀, heq⟩ := hback j d hd
    obtain ⟨d₁, hd₁, heq'⟩ := hback j' d' hd'
    exact h.distinct j j' d₀ d₁ id hd₀ hd₁ (heq ▸ hid) (heq' ▸ hid')
  · intro t ht
    obtain ⟨hn, hl⟩ := h.fresh t (by omega)
    exact ⟨hips ▸ hn, hnone _ hl⟩

theorem of_eq (h : Balanced E S w gs s) (hg : gs[i]? = some g)
    (hview : S.session s'.store = S.session s.store) (hT : s'.tunnels = s.tunnels)
    (hclock : s'.clock = s.clock + 1) : Balanced E S w (gs.set i g) s' := by
  refine h.of_same_stage hg rfl rfl hclock ⟨hview ▸ h.ips, hview ▸ h.settled, h.known⟩ (hT ▸ h.wf)
    (fun _ _ hl => hT ▸ hl) ?_
  intro id idx hs hl
  exact exists_set hg (fun ho => ho) (h.owed id idx hs (hT ▸ hl))

theorem keep (h : Balanced E S w gs s) (hg : gs[i]? = some g) (ht : Touches S s s' a res)
    (hclock : s'.clock = s.clock + 1) (hterm : ∀ id, terminates a = some id → w.settled id)
    (hput : PutsKnown w a) (halloc : ∀ id, a ≠ .allocateTunnelIPs id) :
    Balanced E S w (gs.set i g) s' := by
  refine h.of_same_stage hg rfl rfl hclock ?_ (h.wf_of_touches ht halloc)
    (fun _ _ => lookup_of_touches ht halloc) ?_
  · refine ⟨h.toRecorded.ips_touches ht hput, fun id r hr hst => ?_, h.known⟩
    exact (h.toRecorded.terminated_touches ht hr hst).elim (hterm id) (fun hs => hs)
  · intro id idx hs hid
    exact exists_set hg (fun ho => ho) (h.owed id idx hs (lookup_of_touches ht halloc hid))

theorem owe (h : Balanced E S w gs s) (hg : gs[i]? = some g) (ht : Touches S s s' a res)
    (hclock : s'.clock = s.clock + 1) {id : String} (hterm : terminates a = some id)
    (hput : PutsKnown w a) (hknown : w.ips id ≠ none) (howes : g.owes = none ∨ g.owes = some id) :
    Balanced E S (w.settle id) (gs.set i { g with owes := some id }) s' := by
  have halloc : ∀ id, a ≠ .allocateTunnelIPs id := by
    rintro id rfl
    cases hterm
  refine h.of_same_stage hg rfl rfl hclock ?_ (h.wf_of_touches ht halloc)
    (fun _ _ => lookup_of_touches ht halloc) ?_
  · refine ⟨h.toRecorded.ips_touches ht hput, fun id' r hr hst => ?_, ?_⟩
    · refine (h.toRecorded.terminated_touches ht hr hst).imp (fun heq => ?_) (fun hs => hs)
      rw [hterm] at heq
      exact (Option.some.inj heq).symm
    · rintro id' (rfl | hs)
      · exact hknown
      · exact h.known id' hs
  · intro id' idx hs hid
    by_cases heq : id' = id
    · refine ⟨i, { g with owes := some id }, ?_, congrArg some heq.symm⟩
      exact List.getElem?_set_self (List.getElem?_eq_some_iff.mp hg).1
    · have hs : w.settled id' := hs.resolve_left heq
      refine exists_set hg (fun ho => ?_) (h.owed id' idx hs (lookup_of_touches ht halloc hid))
      rw [ho] at howes
      obtain hn | hn := howes
      · cases hn
      · exact absurd (Option.some.inj hn) heq

theorem reclaim (h : Balanced E S w gs s) (hg : gs[i]? = some g) {id : String}
    (hview : S.session s'.store = S.session s.store)
    (hT : s'.tunnels = s.tunnels.reclaimTunnelIndex id) (hclock : s'.clock = s.clock + 1)
    (hknown : w.ips id ≠ none) :
    Balanced E S (w.settle id)
      (gs.set i { g with owes := if g.owes = some id then none else g.owes }) s' := by
  have hlookup : ∀ id' idx, s'.tunnels.usedTunnelIdxs.lookup id' = some idx →
      id' ≠ id ∧ s.tunnels.usedTunnelIdxs.lookup id' = some idx := by
    intro id' idx hl
    rw [hT, Tunnels.lookup_reclaim] at hl
    split at hl
    · cases hl
    next hne => exact ⟨hne, hl⟩
  refine h.of_same_stage hg rfl rfl hclock ?_ (hT ▸ h.wf.reclaim id)
    (fun id' idx hl => (hlookup id' idx hl).2) ?_
  · refine ⟨fun id' => ?_, fun id' r hr hst => .inr (h.settled id' r (hview ▸ hr) hst), ?_⟩
    · rw [hview]
      exact h.ips id'
    · rintro id' (rfl | hs)
      · exact hknown
      · exact h.known id' hs
  · intro id' idx hs hl
    obtain ⟨hne, hl⟩ := hlookup id' idx hl
    refine exists_set hg (fun ho => ?_) (h.owed id' idx (hs.resolve_left hne) hl)
    rw [if_neg]
    · exact ho
    · rw [ho]
      exact fun heq => hne (Option.some.inj heq)

/-- A UUID that is still to come is not the one of a session that is being made. -/
theorem uuid_ne (h : Balanced E S w gs s) (hinj : Function.Injective E.uuid)
    (hg : gs[i]? = some g) {id : String} (hid : g.stage.id = some id) {t : Nat}
    (ht : s.clock ≤ t) : E.uuid t ≠ id := by
  rintro rfl
  obtain ⟨-, t', ht', heq⟩ := h.stage i g _ hg hid
  exact absurd (hinj heq) (by omega)

/-- The slot of a session that is being made is the one its call holds. -/
theorem ips_of_holds (h : Balanced E S w gs s) (hg : gs[i]? = some g) {id : String}
    {ips : String × String} (hstage : g.stage = .holds id ips) {idx : TunnelIndex}
    (hl : s.tunnels.usedTunnelIdxs.lookup id = some idx) : ips = tunnelIPs idx := by
  have hid : g.stage.id = some id := by
    rw [hstage]
    rfl
  obtain hx | ⟨j, d, hd, hs⟩ := h.held id idx hl
  · rw [(h.stage i g id hg hid).1] at hx
    cases hx
  · have hj : j = i := h.distinct j i d g id hd hg (by rw [hs]; rfl) hid
    rw [hj, hg] at hd
    cases hd
    exact (Stage.holds.inj (hstage.symm.trans hs)).2

/-- The stages of the other threads are distinct from the new one of thread `i`. -/
theorem distinct_set (h : Balanced E S w gs s) {g' : Duty}
    (hnew : ∀ (j : Nat) (d : Duty) id, j ≠ i → gs[j]? = some d → d.stage.id = some id →
      g'.stage.id ≠ some id) (j j' : Nat) (d d' : Duty) (id : String)
    (hd : (gs.set i g')[j]? = some d) (hd' : (gs.set i g')[j']? = some d')
    (hid : d.stage.id = some id) (hid' : d'.stage.id = some id) : j = j' := by
  obtain ⟨hj, rfl⟩ | ⟨hj, hold⟩ := Contract.getElem?_set_elim hd
  · obtain ⟨hj', -⟩ | ⟨hj', hold'⟩ := Contract.getElem?_set_elim hd'
    · exact hj.trans hj'.symm
    · exact absurd hid (hnew j' d' id hj' hold' hid')
  · obtain ⟨-, rfl⟩ | ⟨hj', hold'⟩ := Contract.getElem?_set_elim hd'
    · exact absurd hid' (hnew j d id hj hold hid)
    · exact h.distinct j j' d d' id hold hold' hid hid'

theorem draw (hinj : Function.Injective E.uuid) (h : Balanced E S w gs s) (hg : gs[i]? = some g)
    (hview : S.session s'.store = S.session s.store) (hT : s'.tunnels = s.tunnels)
    (hclock : s'.clock = s.clock + 1) (hstage : ∀ id ips, g.stage ≠ .holds id ips) :
    Balanced E S w (gs.set i { g with stage := .drawn (E.uuid s.clock) }) s' := by
  have hfresh := h.fresh s.clock le_rfl
  refine ⟨⟨hview ▸ h.ips, hview ▸ h.settled, h.known⟩, hT ▸ h.wf, ?_, ?_, ?_, ?_, ?_, ?_⟩
  · intro id idx hl
    refine (h.held id idx (hT ▸ hl)).imp (fun hx => hx) (fun hx => ?_)
    exact exists_set hg (fun hs => absurd hs (hstage id _)) hx
  · intro id idx hs hl
    exact exists_set hg (fun ho => ho) (h.owed id idx hs (hT ▸ hl))
  · intro j d id hd hid
    obtain ⟨rfl, rfl⟩ | ⟨-, hd⟩ := Contract.getElem?_set_elim hd
    · cases hid
      exact ⟨hfresh.1, s.clock, by omega, rfl⟩
    · obtain ⟨hn, t, ht, htid⟩ := h.stage j d id hd hid
      exact ⟨hn, t, by omega, htid⟩
  · intro j d id hd hs
    rw [hT]
    obtain ⟨rfl, rfl⟩ | ⟨-, hd⟩ := Contract.getElem?_set_elim hd
    · cases hs
      exact hfresh.2
    · exact h.drawn j d id hd hs
  · refine h.distinct_set (fun j d id hj hd hid heq => ?_)
    exact h.uuid_ne hinj hd hid le_rfl (Option.some.inj heq)
  · intro t ht
    rw [hT]
    exact h.fresh t (by omega)

theorem allocate (hinj : Function.Injective E.uuid) (h : Balanced E S w gs s)
    (hg : gs[i]? = some g) {id : String} {ips : String × String}
    (hview : S.session s'.store = S.session s.store)
    (halloc : s.tunnels.allocateTunnelIPs id = some (.ok ips, s'.tunnels))
    (hclock : s'.clock = s.clock + 1) (hstage : g.stage = .drawn id) :
    Balanced E S w (gs.set i { g with stage := .holds id ips }) s' := by
  have hid : g.stage.id = some id := by rw [hstage]; rfl
  obtain ⟨hnone, t₀, ht₀, hdrawn⟩ := h.stage i g id hg hid
  have hwf := h.wf.allocate (h.drawn i g id hg hstage) halloc
  have hlookup : ∃ idx₀, ips = tunnelIPs idx₀ ∧ ∀ id', s'.tunnels.usedTunnelIdxs.lookup id' =
      if id' = id then some idx₀ else s.tunnels.usedTunnelIdxs.lookup id' := by
    obtain ⟨hres, -⟩ | ⟨n, idx₀, -, hres, hT⟩ := Tunnels.allocateTunnelIPs_cases halloc
    · cases hres
    · cases hres
      exact ⟨idx₀, rfl, fun id' => by rw [hT, Map.lookup_insert]⟩
  obtain ⟨idx₀, rfl, hlookup⟩ := hlookup
  refine ⟨⟨hview ▸ h.ips, hview ▸ h.settled, h.known⟩, hwf, ?_, ?_, ?_, ?_, ?_, ?_⟩
  · intro id' idx hl
    rw [hlookup] at hl
    split at hl
    next heq =>
      cases hl
      refine .inr ⟨i, { g with stage := .holds id (tunnelIPs idx₀) }, ?_, by rw [heq]⟩
      exact List.getElem?_set_self (List.getElem?_eq_some_iff.mp hg).1
    next =>
      refine (h.held id' idx hl).imp (fun hx => hx) (fun hx => ?_)
      refine exists_set hg (fun hs => ?_) hx
      rw [hstage] at hs
      cases hs
  · intro id' idx hs hl
    rw [hlookup] at hl
    split at hl
    next heq => exact absurd hnone (heq ▸ h.known id' hs)
    next => exact exists_set hg (fun ho => ho) (h.owed id' idx hs hl)
  · intro j d id' hd hid'
    obtain ⟨rfl, rfl⟩ | ⟨-, hd⟩ := Contract.getElem?_set_elim hd
    · cases hid'
      exact ⟨hnone, t₀, by omega, hdrawn⟩
    · obtain ⟨hn, t, ht, htid⟩ := h.stage j d id' hd hid'
      exact ⟨hn, t, by omega, htid⟩
  · intro j d id' hd hs
    obtain ⟨-, rfl⟩ | ⟨hj, hold⟩ := Contract.getElem?_set_elim hd
    · cases hs
    · rw [hlookup, if_neg, h.drawn j d id' hold hs]
      rintro rfl
      exact hj (h.distinct j i d g id' hold hg (by rw [hs]; rfl) hid)
  · refine h.distinct_set (fun j d id' hj hd hid' heq => ?_)
    cases heq
    exact hj (h.distinct j i d g id hd hg hid' hid)
  · intro t ht
    obtain ⟨hn, hl⟩ := h.fresh t (by omega)
    refine ⟨hn, ?_⟩
    rw [hlookup, if_neg (h.uuid_ne hinj hg hid (by omega)), hl]

theorem create (hinj : Function.Injective E.uuid) (h : Balanced E S w gs s)
    (hg : gs[i]? = some g) {r : SessionRecord}
    (hview : ∀ id, S.session s'.store id =
      if id = r.id then some (S.merge (S.session s.store r.id) r) else S.session s.store id)
    (hT : s'.tunnels = s.tunnels) (hclock : s'.clock = s.clock + 1)
    (hstage : g.stage = .holds r.id (ips r)) (hstatus : r.status ≠ "terminated") :
    Balanced E S (w.store r) (gs.set i { g with stage := .none }) s' := by
  have hid : g.stage.id = some r.id := by rw [hstage]; rfl
  have hother : ∀ {j : Nat} {d : Duty} {id : String}, j ≠ i → gs[j]? = some d →
      d.stage.id = some id → id ≠ r.id := by
    rintro j d id hj hd hs rfl
    exact hj (h.distinct j i d g r.id hd hg hs hid)
  refine ⟨h.toRecorded.store hview hstatus, hT ▸ h.wf, ?_, ?_, ?_, ?_, ?_, ?_⟩
  · intro id idx hl
    rw [hT] at hl
    rw [w.ips_store]
    by_cases heq : id = r.id
    · rw [if_pos heq, h.ips_of_holds hg hstage (heq ▸ hl)]
      exact .inl rfl
    · rw [if_neg heq]
      refine (h.held id idx hl).imp (fun hx => hx) (fun hx => ?_)
      refine exists_set hg (fun hs => ?_) hx
      obtain ⟨hid, -⟩ := Stage.holds.inj (hstage.symm.trans hs)
      exact absurd hid.symm heq
  · intro id idx hs hl
    exact exists_set hg (fun ho => ho) (h.owed id idx hs (hT ▸ hl))
  · intro j d id hd hs
    obtain ⟨-, rfl⟩ | ⟨hj, hold⟩ := Contract.getElem?_set_elim hd
    · cases hs
    · obtain ⟨hn, t, ht, htid⟩ := h.stage j d id hold hs
      refine ⟨?_, t, by omega, htid⟩
      rw [w.ips_store, if_neg (hother hj hold hs), hn]
  · intro j d id hd hs
    obtain ⟨-, rfl⟩ | ⟨-, hold⟩ := Contract.getElem?_set_elim hd
    · cases hs
    · rw [hT]
      exact h.drawn j d id hold hs
  · exact h.distinct_set (fun j d id _ _ _ => nofun)
  · intro t ht
    obtain ⟨hn, hl⟩ := h.fresh t (by omega)
    rw [hT]
    refine ⟨?_, hl⟩
    rw [w.ips_store, if_neg (h.uuid_ne hinj hg hid (by omega)), hn]

theorem start (h : Balanced E S w gs s) : Balanced E S w (gs ++ [Duty.idle]) s := by
  have hback : ∀ {j : Nat} {d : Duty}, (gs ++ [Duty.idle])[j]? = some d →
      gs[j]? = some d ∨ d = Duty.idle := by
    intro j d hd
    rw [List.getElem?_append] at hd
    split at hd
    · exact .inl hd
    · exact .inr (List.mem_singleton.mp (List.mem_of_getElem? hd))
  have hforth : ∀ {P : Duty → Prop}, (∃ (j : Nat) (d : Duty), gs[j]? = some d ∧ P d) →
      ∃ (j : Nat) (d : Duty), (gs ++ [Duty.idle])[j]? = some d ∧ P d := by
    rintro P ⟨j, d, hd, hp⟩
    refine ⟨j, d, ?_, hp⟩
    rwa [List.getElem?_append_left (List.getElem?_eq_some_iff.mp hd).1]
  refine ⟨h.toRecorded, h.wf, ?_, ?_, ?_, ?_, ?_, h.fresh⟩
  · exact fun id idx hl => (h.held id idx hl).imp (fun hx => hx) hforth
  · exact fun id idx hs hl => hforth (h.owed id idx hs hl)
  · intro j d id hd hs
    obtain hold | rfl := hback hd
    · exact h.stage j d id hold hs
    · cases hs
  · intro j d id hd hs
    obtain hold | rfl := hback hd
    · exact h.drawn j d id hold hs
    · cases hs
  · intro j j' d d' id hd hd' hs hs'
    obtain hold | rfl := hback hd
    · obtain hold' | rfl := hback hd'
      · exact h.distinct j j' d d' id hold hold' hs hs'
      · cases hs'
    · cases hs

end Balanced

theorem le_settle (w : Ledger) (id : String) : w ≤ w.settle id :=
  ⟨fun _ h => .inr h, fun _ _ h => h⟩

theorem le_store {w : Ledger} {r : SessionRecord} (h : w.ips r.id = none) : w ≤ w.store r := by
  refine ⟨fun _ h => h, fun id x hx => ?_⟩
  rw [Ledger.store]
  dsimp only
  rw [if_neg, hx]
  rintro rfl
  rw [h] at hx
  cases hx

section

variable {w : Ledger} {gs : List Duty} (hS : S.Lawful) (hfail : S.NeverFails)

include hS hfail

theorem answers_exec (h : Recorded S w s) (hx : exec E S a s = some (res, s')) :
    Answers S w a res := by
  cases a with
  | getSessionByPrefix p =>
    intro ref href
    cases hx
    obtain ⟨r, hr, rfl⟩ := hS.get_session href
    have hips : w.ips r.id = some (ips r) := by rw [h.ips, hr]; rfl
    refine ⟨r.id, ?_⟩
    unfold Store.handle
    split
    · refine ⟨⟨rfl, ?_⟩, trivial⟩
      rw [hips]
      nofun
    · exact ⟨⟨rfl, hips⟩, h.settled r.id r hr⟩
  | loadSession ref =>
    cases hx
    cases ref with
    | own r => exact rfl
    | stored id =>
      intro hknown
      rw [h.ips] at hknown
      cases hr : S.session s.store id with
      | none =>
        rw [hr] at hknown
        exact absurd rfl hknown
      | some r =>
        have hload : S.loadSession s.store (.stored id) = r := by simp [Store.loadSession, hr]
        rw [hload]
        exact ⟨hS.session_id hr, h.settled id r hr⟩
  | putSession ref =>
    cases ref with
    | own r => exact (exec_put_own hS hfail hx).1
    | stored id =>
      obtain ⟨⟨ref, st⟩, hput⟩ := hfail s.clock s.store (.stored id)
      simp only [exec, Server.act, hput] at hx
      cases hx
      obtain ⟨rfl, -⟩ := hS.put_stored hput
      exact rfl
  | setSession ref b =>
    cases hx
    cases ref with
    | own r => exact rfl
    | stored id => exact rfl
  | _ => trivial

theorem slotContract_sound (hinj : Function.Injective E.uuid) :
    (slotContract S).Sound (exec E S) (Balanced E S) where
  act {w gs s i g a r s'} h hg hx := by
    refine ⟨answers_exec hS hfail h.toRecorded hx, fun w' g' hm => ?_⟩
    have ht := exec_touches hS hx
    have hclock := exec_clock hx
    cases hm with
    | keep hterm hput halloc => exact ⟨le_rfl, h.keep hg ht hclock hterm hput halloc⟩
    | owe hterm hput hknown howes =>
      exact ⟨le_settle w _, h.owe hg ht hclock hterm hput hknown howes⟩
    | reclaim hknown =>
      cases hx
      exact ⟨le_settle w _, h.reclaim hg rfl rfl hclock hknown⟩
    | draw hstage =>
      cases hx
      exact ⟨le_rfl, h.draw hinj hg rfl rfl hclock hstage⟩
    | exhausted =>
      obtain ⟨hview, halloc⟩ := exec_allocate hx
      obtain ⟨-, hT⟩ | ⟨_, _, -, hres, -⟩ := Tunnels.allocateTunnelIPs_cases halloc
      · exact ⟨le_rfl, h.of_eq hg hview hT hclock⟩
      · cases hres
    | allocate hstage =>
      obtain ⟨hview, halloc⟩ := exec_allocate hx
      exact ⟨le_rfl, h.allocate hinj hg hview halloc hclock hstage⟩
    | @create r _ hstage hstatus =>
      obtain ⟨-, hview, hT⟩ := exec_put_own hS hfail hx
      have hnone := (h.stage i g r.id hg (by rw [hstage]; rfl)).1
      exact ⟨le_store hnone, h.create hinj hg hview hT hclock hstage hstatus⟩

end

end PeerCompute.Registry
