import PeerCompute.Interleaving.Contract
import PeerCompute.Registry.Actions

/-! The calls that edit a session or create one and those that write providers, for any contract that
has a rule for each of their steps. -/

namespace PeerCompute.Registry

open PeerCompute.Data PeerCompute.Interleaving PeerCompute.Plugin PeerCompute.Computev1
  PeerCompute.Relay Prog Contract

instance (req : UpdateSessionStatusRequest) : Decidable (Rejected req) :=
  inferInstanceAs (Decidable (_ ∧ _))

namespace Rpc

/-- The session that is named by a call which reads a record and writes it back. -/
def rewrites : Rpc → Option String
  | .terminateSession req => some req.sessionID
  | .updateSessionStatus req => some req.sessionID
  | .reportConnectionResult req => some req.sessionID
  | _ => none

/-- Whether the call writes back what it has read. -/
def writes : Rpc → Bool
  | .updateSessionStatus req => !decide (Rejected req)
  | _ => true

/-- Whether the call registers the session's token with the relay. -/
def registers : Rpc → Bool
  | .reportConnectionResult req => req.useRelay
  | _ => false

end Rpc

/-- What a call makes of the session record it has read before it puts it back. -/
inductive Rewritten (r : SessionRecord) : Rpc → SessionRecord → Prop
  | terminated {req : TerminateSessionRequest} (t : Int) :
      Rewritten r (.terminateSession req) { r with status := "terminated", terminatedAt := t }
  | updated {req : UpdateSessionStatusRequest} (hrej : ¬Rejected req) (t : Int) :
      Rewritten r (.updateSessionStatus req) (updateRecord req t r)
  | reported (req : ReportConnectionResultRequest) :
      Rewritten r (.reportConnectionResult req) (reportRecord req r)

theorem Rewritten.origin {c : Rpc} {r r' : SessionRecord} (h : Rewritten r c r') :
    r'.origin = r.origin := by
  cases h with
  | terminated t => rfl
  | updated hrej t => exact origin_updateRecord _ t r
  | reported req => rfl

variable {W : Type} [Preorder W] {G : Type}

/-- An action that a contract does not care about. -/
theorem follows_still {C : Contract signature W G} {w : W} {g : G} {α : Type} {a : Action}
    (hm : ∀ {w res}, C.Move w g a res w g) {f : a.Res → Prog signature α}
    (h : ∀ w', w ≤ w' → ∀ res, C.Answers w' a res → C.Follows w' g (f res)) :
    C.Follows w g (perform (S := signature) a >>= f) :=
  follows_perform.mpr (fun w' hw res hres => ⟨w', g, hm, h w' hw res hres⟩)

/-! ## Editing a session -/

/-- How far a call has come with the session it edits.  While it is closing the session, or has
stored it as terminated, it still has to give the slot back. -/
inductive EditRules.Phase
  | draft
  | closing
  | stored

/-- The actions of an edit that are not about the session's record or its slot. -/
def EditRules.Aside : Action → Prop
  | .now | .recordOutcome _ _ | .registerRelay _ _ | .invalidateRelay _ | .deleteCandidates _ => True
  | _ => False

/-- What a contract says of the call `c` that edits a session.  The call has looked up the record `x₀`
and made `x` of it, which `ref` stands for; a record that is loaded is `Seen`, and is `x` itself if
the store hands out copies. -/
structure EditRules (C : Contract signature W G) (c : Rpc) where
  Before : G → Prop
  After : G → Prop
  At : EditRules.Phase → W → G → SessionRecord → SessionRecord → Ref SessionRecord → Prop
  Seen : EditRules.Phase → W → SessionRecord → SessionRecord → Prop
  Copies : Prop
  at_mono : ∀ {k w w' g x₀ x ref}, At k w g x₀ x ref → w ≤ w' → At k w' g x₀ x ref
  seen_mono : ∀ {k w w' x r}, Seen k w x r → w ≤ w' → Seen k w' x r
  seen_eq : ∀ {k w x r}, Copies → Seen k w x r → r = x
  done : ∀ {g}, After g → C.Done g
  rejected : ∀ {w g x₀ x ref}, At .draft w g x₀ x ref → c.writes = false → C.Done g
  aside : ∀ {w g a} {res : a.Res}, EditRules.Aside a → C.Move w g a res w g
  get : ∀ {w g p} {res : Except StoreError (Ref SessionRecord)}, c.rewrites = some p → Before g →
    C.Answers w (.getSessionByPrefix p) res →
      ∃ w' g', C.Move w g (.getSessionByPrefix p) res w' g' ∧
        ((∃ e, res = .error e) ∧ After g' ∨ ∃ ref x, res = .ok ref ∧ At .draft w' g' x x ref)
  load : ∀ {k w g x₀ x ref} {r : SessionRecord}, At k w g x₀ x ref →
    C.Answers w (.loadSession ref) r → C.Move w g (.loadSession ref) r w g ∧ Seen k w x r
  set : ∀ {k w g x₀ x ref b} {ref' : Ref SessionRecord}, At k w g x₀ x ref →
    (∀ v, b ≠ .status v) → C.Answers w (.setSession ref b) ref' →
      C.Move w g (.setSession ref b) ref' w g ∧ At k w g x₀ (b.apply x) ref'
  /-- A status that does not terminate the session. -/
  setStatus : ∀ {w g x₀ x ref r v} {ref' : Ref SessionRecord}, At .draft w g x₀ x ref →
    Seen .draft w x r → (v = "terminated" → r.status = "terminated") →
    C.Answers w (.setSession ref (.status v)) ref' →
      C.Move w g (.setSession ref (.status v)) ref' w g ∧
        At .draft w g x₀ { x with status := v } ref'
  close : ∀ {w g x₀ x ref v} {ref' : Ref SessionRecord}, At .draft w g x₀ x ref →
    C.Answers w (.setSession ref (.status v)) ref' →
      ∃ w' g', w ≤ w' ∧ C.Move w g (.setSession ref (.status v)) ref' w' g' ∧
        At .closing w' g' x₀ { x with status := v } ref'
  reclaim : ∀ {w g x₀ x ref r}, At .closing w g x₀ x ref → Seen .draft w x₀ r →
    ∃ w' g', C.Move w g (.reclaimTunnelIndex r.id) () w' g' ∧ At .draft w' g' x₀ x ref
  put : ∀ {w g x₀ x ref} {res : Except StoreError (Ref SessionRecord)}, At .draft w g x₀ x ref →
    (Copies → Rewritten x₀ c x) → c.writes = true →
    (c.registers = true →
      ∃ w r, Seen .draft w x r ∧ C.Answers w (.registerRelay r.relayToken r.id) ()) →
    C.Answers w (.putSession ref) res → ∃ w' g', C.Move w g (.putSession ref) res w' g' ∧ After g'
  putClosing : ∀ {w g x₀ x ref} {res : Except StoreError (Ref SessionRecord)},
    At .closing w g x₀ x ref → (Copies → Rewritten x₀ c x) → c.writes = true →
    c.registers = false → C.Answers w (.putSession ref) res →
      ∃ w' g', C.Move w g (.putSession ref) res w' g' ∧
        ((∃ e, res = .error e) ∧ After g' ∨ ∃ ref, res = .ok ref ∧ At .stored w' g' x₀ x ref)
  reclaimStored : ∀ {w g x₀ x ref r}, At .stored w g x₀ x ref → Seen .stored w x r →
    ∃ w' g', C.Move w g (.reclaimTunnelIndex r.id) () w' g' ∧ After g'

namespace EditRules

variable {C : Contract signature W G} {c : Rpc} {w : W} {g : G} {k : Phase} {x₀ x : SessionRecord}
  {ref : Ref SessionRecord} {α : Type}

section

variable (e : EditRules C c)

theorem follows_get {p : String} (hp : c.rewrites = some p) (hg : e.Before g)
    {f : Except StoreError (Ref SessionRecord) → Prog signature α}
    (herr : ∀ w' g' err, C.Done g' → C.Follows w' g' (f (.error err)))
    (h : ∀ w' g' x ref, e.At .draft w' g' x x ref → C.Follows w' g' (f (.ok ref))) :
    C.Follows w g (Call.getSessionByPrefix p >>= f) := by
  refine follows_perform.mpr (fun w' _ res hres => ?_)
  obtain ⟨w'', g', hm, ⟨⟨err, rfl⟩, hafter⟩ | ⟨ref, x, rfl, hat⟩⟩ := e.get hp hg hres
  · exact ⟨w'', g', hm, herr w'' g' err (e.done hafter)⟩
  · exact ⟨w'', g', hm, h w'' g' x ref hat⟩

theorem follows_load (hat : e.At k w g x₀ x ref) {f : SessionRecord → Prog signature α}
    (h : ∀ w', w ≤ w' → ∀ r, e.At k w' g x₀ x ref → e.Seen k w' x r → C.Follows w' g (f r)) :
    C.Follows w g (Call.loadSession ref >>= f) := by
  refine follows_perform.mpr (fun w' hw r hr => ?_)
  have hat := e.at_mono hat hw
  obtain ⟨hm, hseen⟩ := e.load hat hr
  exact ⟨w', g, hm, h w' hw r hat hseen⟩

theorem follows_set {b : SessionAssign} (hat : e.At k w g x₀ x ref) (hb : ∀ v, b ≠ .status v)
    {f : Ref SessionRecord → Prog signature α}
    (h : ∀ w', w ≤ w' → ∀ ref', e.At k w' g x₀ (b.apply x) ref' → C.Follows w' g (f ref')) :
    C.Follows w g (Call.setSession ref b >>= f) := by
  refine follows_perform.mpr (fun w' hw ref' href => ?_)
  obtain ⟨hm, hat⟩ := e.set (e.at_mono hat hw) hb href
  exact ⟨w', g, hm, h w' hw ref' hat⟩

theorem follows_setNonempty {v : String} {b : String → SessionAssign}
    (hat : e.At k w g x₀ x ref) (hb : ∀ v v', b v ≠ .status v')
    {f : Ref SessionRecord → Prog signature α}
    (h : ∀ w' ref', e.At k w' g x₀ (setIf v b x) ref' → C.Follows w' g (f ref')) :
    C.Follows w g (setNonempty v b ref >>= f) := by
  unfold setNonempty setIf at *
  split
  next hv =>
    simp only [if_pos hv] at h
    exact e.follows_set hat (hb v) (fun w' _ ref' hat => h w' ref' hat)
  next hv =>
    simp only [if_neg hv] at h
    exact h w ref hat

theorem follows_putSessionAnd {resp : Response} (hat : e.At .draft w g x₀ x ref)
    (hx : e.Copies → Rewritten x₀ c x) (hw : c.writes = true)
    (hreg : c.registers = true →
      ∃ w r, e.Seen .draft w x r ∧ C.Answers w (.registerRelay r.relayToken r.id) ()) :
    C.Follows w g (putSessionAnd ref resp) := by
  refine follows_perform.mpr (fun w' hle res hres => ?_)
  obtain ⟨w'', g', hm, hafter⟩ := e.put (e.at_mono hat hle) hx hw hreg hres
  refine ⟨w'', g', hm, ?_⟩
  cases res with
  | error err => exact follows_ret.mpr (e.done hafter)
  | ok ref => exact follows_ret.mpr (e.done hafter)

/-- The slot of a session that is stored as terminated is given back. -/
theorem follows_cleanUp {r : SessionRecord} (hat : e.At .stored w g x₀ x ref)
    (hr : e.Seen .stored w x r) : C.Follows w g (cleanUp r) := by
  have hreclaim : ∀ w', w ≤ w' → C.Follows w' g (do
      Call.deleteCandidates r.id
      Call.reclaimTunnelIndex r.id
      return (.ok (.terminateSession true) : Except Status Response)) := by
    intro w₁ hw₁
    apply follows_still (a := .deleteCandidates r.id) (e.aside trivial)
    intro w₂ hw₂ _ _
    refine follows_perform.mpr (fun w₃ hw₃ _ _ => ?_)
    have hw := le_trans hw₁ (le_trans hw₂ hw₃)
    obtain ⟨w', g', hm, hafter⟩ := e.reclaimStored (e.at_mono hat hw) (e.seen_mono hr hw)
    exact ⟨w', g', hm, follows_ret.mpr (e.done hafter)⟩
  unfold cleanUp
  apply follows_still (a := .recordOutcome r.id true) (e.aside trivial)
  intro w₁ hw₁ _ _
  split
  · apply follows_still (a := .invalidateRelay r.relayToken) (e.aside trivial)
    exact fun w₂ hw₂ _ _ => hreclaim w₂ (le_trans hw₁ hw₂)
  · exact hreclaim w₁ hw₁

end

theorem follows_terminateSession {req : TerminateSessionRequest}
    (e : EditRules C (.terminateSession req)) (hg : e.Before g) :
    C.Follows w g (terminateSession req) := by
  apply e.follows_get rfl hg
  · exact fun _ _ _ hdone => follows_ret.mpr hdone
  intro w g x ref hat
  refine follows_perform.mpr (fun w₁ hw₁ ref href => ?_)
  obtain ⟨w₁, g₁, -, hm, hat⟩ := e.close (e.at_mono hat hw₁) href
  refine ⟨w₁, g₁, hm, ?_⟩
  apply follows_still (a := .now) (e.aside trivial)
  intro w₂ hw₂ now _
  apply e.follows_set (e.at_mono hat hw₂)
  · nofun
  intro w₃ _ ref hat
  refine follows_perform.mpr (fun w₄ hw₄ res hres => ?_)
  obtain ⟨w₅, g₅, hm, ⟨⟨err, rfl⟩, hafter⟩ | ⟨ref, rfl, hat⟩⟩ :=
    e.putClosing (e.at_mono hat hw₄) (fun _ => .terminated now) rfl rfl hres
  · exact ⟨w₅, g₅, hm, follows_ret.mpr (e.done hafter)⟩
  · refine ⟨w₅, g₅, hm, ?_⟩
    apply e.follows_load hat
    exact fun w₆ _ r hat hseen => e.follows_cleanUp hat hseen

section

variable {req : UpdateSessionStatusRequest} (e : EditRules C (.updateSessionStatus req))

theorem follows_finishUpdate {t : Int} (hat : e.At .draft w g x₀ x ref)
    (hx : e.Copies → x = assigned req t x₀) : C.Follows w g (finishUpdate req ref) := by
  have hput : ∀ {w x ref}, e.At .draft w g x₀ x ref → ¬Rejected req →
      (e.Copies → x = updateRecord req t x₀) →
      C.Follows w g (putSessionAnd ref (.updateSessionStatus true)) := by
    intro w x ref hat hrej hx
    refine e.follows_putSessionAnd hat (fun hc => hx hc ▸ .updated hrej t) ?_ (fun h => by cases h)
    simp [Rpc.writes, hrej]
  unfold finishUpdate
  split
  next hrun =>
    split
    next hwg =>
      have hrej : Rejected req := ⟨hrun, hwg⟩
      exact follows_ret.mpr (e.rejected hat (by simp [Rpc.writes, hrej]))
    next hwg =>
      have hrej : ¬Rejected req := fun hr => hwg hr.2
      apply e.follows_load hat
      intro w₁ _ r hat hseen
      split
      next hmode =>
        apply e.follows_set hat
        · nofun
        intro w₂ _ ref hat
        refine hput hat hrej (fun hc => ?_)
        rw [e.seen_eq hc hseen, hx hc] at hmode
        rw [hx hc, updateRecord, if_pos ⟨hrun, hmode⟩]
        rfl
      next hmode =>
        refine hput hat hrej (fun hc => ?_)
        rw [e.seen_eq hc hseen, hx hc] at hmode
        rw [hx hc, updateRecord, if_neg (fun hm => hmode hm.2)]
  next hrun =>
    refine hput hat (fun hr => hrun hr.1) (fun hc => ?_)
    rw [hx hc, updateRecord, if_neg (fun hm => hrun hm.1)]

/-- The rest of the call, from the assignment of the status on. -/
theorem follows_reported {t : Int} (hat : e.At .draft w g x₀ x ref)
    (hx : e.Copies → x = if Closes req x₀ then { x₀ with status := req.status, terminatedAt := t }
      else { x₀ with status := req.status }) :
    C.Follows w g (setReported req ref >>= finishUpdate req) := by
  unfold setReported
  simp only [bind_assoc]
  apply e.follows_setNonempty hat
  · nofun
  intro w ref hat
  apply e.follows_setNonempty hat
  · nofun
  intro w ref hat
  apply e.follows_setNonempty hat
  · nofun
  intro w ref hat
  apply e.follows_setNonempty hat
  · nofun
  intro w ref hat
  refine e.follows_finishUpdate (t := t) hat (fun hc => ?_)
  rw [hx hc]
  rfl

theorem follows_updateSessionStatus (hg : e.Before g) :
    C.Follows w g (updateSessionStatus req) := by
  apply e.follows_get rfl hg
  · exact fun _ _ _ hdone => follows_ret.mpr hdone
  intro w g x ref hat
  apply e.follows_load hat
  intro w _ r hat hseen
  dsimp only
  split
  next hclose =>
    refine follows_perform.mpr (fun w₁ hw₁ ref href => ?_)
    obtain ⟨w₂, g₂, hw₂, hm, hat⟩ := e.close (e.at_mono hat hw₁) href
    refine ⟨w₂, g₂, hm, ?_⟩
    unfold closeOut
    simp only [bind_assoc]
    apply follows_still (a := .recordOutcome r.id true) (e.aside trivial)
    intro w₃ hw₃ _ _
    apply follows_still (a := .now) (e.aside trivial)
    intro w₄ hw₄ now _
    apply e.follows_set (e.at_mono hat (le_trans hw₃ hw₄))
    · nofun
    intro w₅ hw₅ ref hat
    refine follows_perform.mpr (fun w₆ hw₆ _ _ => ?_)
    have hw := le_trans hw₁ (le_trans hw₂ (le_trans hw₃ (le_trans hw₄ (le_trans hw₅ hw₆))))
    obtain ⟨w₇, g₇, hm, hat⟩ := e.reclaim (e.at_mono hat hw₆) (e.seen_mono hseen hw)
    refine ⟨w₇, g₇, hm, ?_⟩
    refine e.follows_reported (t := now) hat (fun hc => ?_)
    rw [e.seen_eq hc hseen] at hclose
    exact (if_pos hclose).symm
  next hclose =>
    refine follows_perform.mpr (fun w₁ hw₁ ref href => ?_)
    have hkept : req.status = "terminated" → r.status = "terminated" := by
      intro hv
      by_contra hne
      exact hclose ⟨hv, hne⟩
    obtain ⟨hm, hat⟩ := e.setStatus (e.at_mono hat hw₁) (e.seen_mono hseen hw₁) hkept href
    refine ⟨w₁, g, hm, ?_⟩
    refine e.follows_reported (t := 0) hat (fun hc => ?_)
    rw [e.seen_eq hc hseen] at hclose
    exact (if_neg hclose).symm

end

theorem follows_reportConnectionResult {req : ReportConnectionResultRequest}
    (e : EditRules C (.reportConnectionResult req)) (hg : e.Before g) :
    C.Follows w g (reportConnectionResult req) := by
  apply e.follows_get rfl hg
  · exact fun _ _ _ hdone => follows_ret.mpr hdone
  intro w g x ref hat
  have hput := Rewritten.reported (r := x) req
  unfold reportRecord at hput
  dsimp only
  split
  next hrelay =>
    rw [if_pos hrelay] at hput
    apply e.follows_set hat
    · nofun
    intro w _ ref hat
    apply e.follows_load hat
    intro w _ r hat hseen
    apply follows_still (a := .registerRelay r.relayToken r.id) (e.aside trivial)
    intro w₁ hw₁ _ hreg
    refine e.follows_putSessionAnd (e.at_mono hat hw₁) (fun _ => hput) rfl (fun _ => ?_)
    exact ⟨w₁, r, e.seen_mono hseen hw₁, hreg⟩
  next hrelay =>
    rw [if_neg hrelay] at hput
    apply e.follows_set hat
    · nofun
    intro w _ ref hat
    exact e.follows_putSessionAnd hat (fun _ => hput) rfl (fun h => absurd h hrelay)

/-- Every call that edits a session follows a contract that has rules for it. -/
theorem follows_handler {p : String} (e : EditRules C c) (hc : c.rewrites = some p)
    (hg : e.Before g) : C.Follows w g c.handler := by
  cases c with
  | terminateSession req => exact e.follows_terminateSession hg
  | updateSessionStatus req => exact e.follows_updateSessionStatus hg
  | reportConnectionResult req => exact e.follows_reportConnectionResult hg
  | _ => cases hc

end EditRules

/-! ## Creating a session -/

/-- The actions of `CreateSession` that are not about the new session. -/
def CreateRules.Aside : Action → Prop
  | .now | .getProviderByPrefix _ | .loadProvider _ | .meetsMinimum _ _ | .putCandidates _ _ _
  | .loadSession _ => True
  | _ => False

/-- What a contract says of a call that creates a session, for a provider that is `Known` to it.  The
call has `Drawn` an ID, and then holds a slot for it. -/
structure CreateRules (C : Contract signature W G) where
  Before : G → Prop
  Drawn : G → String → Prop
  Holds : G → String → String × String → Prop
  Known : W → ProviderRecord → Prop
  known_mono : ∀ {w w' p}, Known w p → w ≤ w' → Known w' p
  done : ∀ {g}, Before g → C.Done g
  aside : ∀ {w g a} {res : a.Res}, CreateRules.Aside a → C.Move w g a res w g
  provider : ∀ {w w' q ref} {p : ProviderRecord}, C.Answers w (.getProviderByPrefix q) (.ok ref) →
    w ≤ w' → C.Answers w' (.loadProvider ref) p → Known w' p
  draw : ∀ {w g} {id : String}, (Before g ∨ ∃ id, Drawn g id) →
    ∃ g', C.Move w g .newUUID id w g' ∧ Drawn g' id
  exhausted : ∀ {w g id e}, Drawn g id →
    ∃ g', C.Move w g (.allocateTunnelIPs id) (.error e) w g' ∧ C.Done g'
  allocate : ∀ {w g id ips}, Drawn g id →
    ∃ g', C.Move w g (.allocateTunnelIPs id) (.ok ips) w g' ∧ Holds g' id ips
  create : ∀ {w g r p} {res : Except StoreError (Ref SessionRecord)},
    Holds g r.id (r.wgProviderIP, r.wgRenterIP) → r.status = "pending" → Known w p →
    r.providerID = p.id → C.Answers w (.putSession (.own r)) res →
      ∃ w' g', C.Move w g (.putSession (.own r)) res w' g' ∧ C.Done g'

namespace CreateRules

variable {C : Contract signature W G} {w : W} {g : G} {α : Type}

theorem follows_finishCreateSession (e : CreateRules C) {req : CreateSessionRequest}
    {r : SessionRecord} {p : ProviderRecord}
    (hholds : e.Holds g r.id (r.wgProviderIP, r.wgRenterIP)) (hstatus : r.status = "pending")
    (hp : e.Known w p) (hid : r.providerID = p.id) :
    C.Follows w g (finishCreateSession req r) := by
  refine follows_perform.mpr (fun w' hw res hres => ?_)
  obtain ⟨w'', g', hm, hdone⟩ := e.create hholds hstatus (e.known_mono hp hw) hid hres
  refine ⟨w'', g', hm, ?_⟩
  cases res with
  | error err => exact follows_ret.mpr hdone
  | ok ref =>
    refine follows_of_uses (fun _ _ _ ha _ => e.aside ha) hdone ?_
    dsimp only
    split
    · exact ⟨trivial, fun _ => ⟨trivial, fun _ => trivial⟩⟩
    · exact ⟨trivial, fun _ => trivial⟩

theorem follows_createSession (e : CreateRules C) (hg : e.Before g) (ctx : Metadata)
    (req : CreateSessionRequest) : C.Follows w g (createSession ctx req) := by
  have hret : ∀ {w : W} {x : Except Status Response}, C.Follows w g (.ret x) :=
    fun {_ _} => follows_ret.mpr (e.done hg)
  unfold createSession
  dsimp only
  split
  · exact hret
  apply follows_still (a := .getProviderByPrefix req.providerID) (e.aside trivial)
  intro w _ res hres
  cases res with
  | error err => exact hret
  | ok ref =>
    apply follows_still (a := .loadProvider ref) (e.aside trivial)
    intro w hw p hload
    have hp := e.provider hres hw hload
    split
    · exact hret
    apply follows_still (a := .meetsMinimum (ProviderRecord.id p) 50) (e.aside trivial)
    intro w₁ hw₁ ok _
    have hrefused : C.Follows w₁ g (.ret (.error ⟨.unavailable,
        "provider does not meet minimum reputation"⟩ : Except Status Response)) := hret
    match ok with
    | .error err => exact hrefused
    | .ok false => exact hrefused
    | .ok true =>
      refine follows_perform.mpr (fun w₂ hw₂ token _ => ?_)
      obtain ⟨g₂, hm₂, hdrawn⟩ := e.draw (.inl hg)
      refine ⟨w₂, g₂, hm₂, follows_perform.mpr (fun w₃ hw₃ id _ => ?_)⟩
      obtain ⟨g₃, hm₃, hdrawn⟩ := e.draw (.inr ⟨_, hdrawn⟩)
      refine ⟨w₃, g₃, hm₃, follows_perform.mpr (fun w₄ hw₄ res _ => ?_)⟩
      cases res with
      | error err =>
        obtain ⟨g₄, hm₄, hdone⟩ := e.exhausted hdrawn
        exact ⟨w₄, g₄, hm₄, follows_ret.mpr hdone⟩
      | ok ips =>
        obtain ⟨g₄, hm₄, hholds⟩ := e.allocate hdrawn
        refine ⟨w₄, g₄, hm₄, ?_⟩
        apply follows_still (a := .now) (e.aside trivial)
        intro w₅ hw₅ now _
        have hw := le_trans hw₁ (le_trans hw₂ (le_trans hw₃ (le_trans hw₄ hw₅)))
        exact e.follows_finishCreateSession hholds rfl (e.known_mono hp hw) rfl

end CreateRules

/-! ## Writing providers -/

/-- What the assignments make of a provider record. -/
def assignAll (as : List ProviderAssign) (r : ProviderRecord) : ProviderRecord :=
  as.foldl (fun r a => a.apply r) r

/-- The actions of the calls below that write no provider. -/
def ProviderRules.Aside : Action → Prop
  | .getProvider _ | .listProviders _ | .loadProvider _ | .setProvider (.own _) _
  | .onProviderRegistered _ | .getTerminatedSessionIDs _ _ => True
  | _ => False

/-- What a contract says of the calls that write providers, over a store that hands out copies.  A
copy has been `Read`, and is `Found` if a call has looked it up by a prefix; a time is `Past` when the
clock has shown it. -/
structure ProviderRules (C : Contract signature W G) where
  Before : G → Prop
  Read : W → ProviderRecord → Prop
  Found : W → ProviderRecord → Prop
  Past : W → Int → Prop
  read_mono : ∀ {w w' r}, Read w r → w ≤ w' → Read w' r
  found_mono : ∀ {w w' r}, Found w r → w ≤ w' → Found w' r
  past_mono : ∀ {w w' t}, Past w t → w ≤ w' → Past w' t
  done : ∀ {g}, Before g → C.Done g
  aside : ∀ {w g a} {res : a.Res}, ProviderRules.Aside a → C.Move w g a res w g
  load : ∀ {w r} {r' : ProviderRecord}, C.Answers w (.loadProvider (.own r)) r' → r' = r
  set : ∀ {w r b} {ref : Ref ProviderRecord}, C.Answers w (.setProvider (.own r) b) ref →
    ref = .own (b.apply r)
  get : ∀ {w id ref}, C.Answers w (.getProvider id) (.ok ref) → ∃ r, ref = .own r ∧ Read w r
  list : ∀ {w filter refs}, C.Answers w (.listProviders filter) (.ok refs) →
    ∀ ref ∈ refs, ∃ r, ref = .own r ∧ Read w r
  now : ∀ {w g} {t : Int}, C.Answers w .now t → ∃ w', w ≤ w' ∧ C.Move w g .now t w' g ∧ Past w' t
  find : ∀ {w g p} {res : Except StoreError (Ref ProviderRecord)},
    C.Answers w (.getProviderByPrefix p) res →
      ∃ w', C.Move w g (.getProviderByPrefix p) res w' g ∧
        ∀ ref, res = .ok ref → ∃ r, ref = .own r ∧ Read w' r ∧ Found w' r
  edit : ∀ {w g r} as {res : Except StoreError (Ref ProviderRecord)}, Read w r →
    (assignAll as r).status = "online" → C.Move w g (.putProvider (.own (assignAll as r))) res w g
  retire : ∀ {w g r stale} {res : Except StoreError (Ref ProviderRecord)}, Read w r →
    r.lastHeartbeat < stale → Past w (stale + heartbeatTimeout) →
      C.Move w g (.putProvider (.own { r with status := "offline" })) res w g
  beat : ∀ {w g r heartbeat} {res : Except StoreError Unit}, Found w r →
    C.Move w g (.updateHeartbeat r.id heartbeat) res w g
  enroll : ∀ {w g} {id : String}, Before g → ∃ g', C.Move w g .newUUID id w g' ∧
    ∀ {w r} {res : Except StoreError (Ref ProviderRecord)}, r.id = id → r.status = "online" →
      C.Answers w (.putProvider (.own r)) res →
        ∃ w' g'', C.Move w g' (.putProvider (.own r)) res w' g'' ∧ C.Done g''

namespace ProviderRules

variable {C : Contract signature W G} {w : W} {g : G} {α : Type} {r : ProviderRecord}
  (e : ProviderRules C)

theorem follows_now {f : Int → Prog signature α}
    (h : ∀ w', w ≤ w' → ∀ t, e.Past w' t → C.Follows w' g (f t)) :
    C.Follows w g (Call.now >>= f) := by
  refine follows_perform.mpr (fun w' hw t ht => ?_)
  obtain ⟨w'', hw', hm, hpast⟩ := e.now ht
  exact ⟨w'', g, hm, h w'' (le_trans hw hw') t hpast⟩

include e in
theorem follows_setProviders {as : List ProviderAssign} {f : Ref ProviderRecord → Prog signature α}
    (h : ∀ w', w ≤ w' → C.Follows w' g (f (.own (assignAll as r)))) :
    C.Follows w g (setProviders as (.own r) >>= f) := by
  induction as generalizing w r with
  | nil => exact h w le_rfl
  | cons a as ih =>
    unfold setProviders
    rw [bind_assoc]
    apply follows_still (a := .setProvider (.own r) a) (e.aside trivial)
    intro w' hw ref href
    rw [e.set href]
    exact ih (fun w'' hw' => h w'' (le_trans hw hw'))

include e in
theorem follows_finishRegistration {id : String}
    (hput : ∀ w', w ≤ w' → ∀ res, C.Answers w' (.putProvider (.own r)) res →
      ∃ w'' g', C.Move w' g (.putProvider (.own r)) res w'' g' ∧ C.Done g') :
    C.Follows w g (finishRegistration (.own r) id) := by
  refine follows_perform.mpr (fun w' hw res hres => ?_)
  obtain ⟨w'', g', hm, hdone⟩ := hput w' hw res hres
  refine ⟨w'', g', hm, follows_of_uses (fun _ _ _ ha _ => e.aside ha) hdone ?_⟩
  exact uses_registered (.own r) rfl trivial (fun _ => trivial) res

theorem follows_registerNewProvider (hg : e.Before g) (req : RegisterProviderRequest) (now : Int) :
    C.Follows w g (registerNewProvider req now) := by
  unfold registerNewProvider
  refine follows_perform.mpr (fun w _ id _ => ?_)
  obtain ⟨g', hm, hput⟩ := e.enroll hg
  exact ⟨w, g', hm, e.follows_finishRegistration (fun _ _ _ hres => hput rfl rfl hres)⟩

theorem follows_registerProvider (hg : e.Before g) (ctx : Metadata)
    (req : RegisterProviderRequest) : C.Follows w g (registerProvider ctx req) := by
  apply e.follows_now
  intro w _ now _
  dsimp only
  split
  · exact e.follows_registerNewProvider hg req now
  apply follows_still (a := .getProvider (providerIDFromMetadata ctx)) (e.aside trivial)
  intro w _ res hres
  match res, hres with
  | .ok ref, hres =>
    obtain ⟨r, rfl, hr⟩ := e.get hres
    apply e.follows_setProviders
    intro w' hw
    exact e.follows_finishRegistration (fun w'' hw' res _ =>
      ⟨w'', g, e.edit _ (e.read_mono hr (le_trans hw hw')) rfl, e.done hg⟩)
  | .error .notFound, _ => exact e.follows_registerNewProvider hg req now
  | .error .ambiguousPrefix, _ => exact follows_ret.mpr (e.done hg)
  | .error (.other err), _ => exact follows_ret.mpr (e.done hg)

theorem follows_heartbeat (hg : e.Before g) (req : HeartbeatRequest) :
    C.Follows w g (heartbeat req) := by
  have hfinish : ∀ {w id}, C.Follows w g (finishHeartbeat req id) :=
    fun {_ id} => follows_of_uses (fun _ _ _ ha _ => e.aside ha) (e.done hg)
      (uses_finishHeartbeat req id trivial)
  refine follows_perform.mpr (fun w _ res hres => ?_)
  obtain ⟨w, hm, hfound⟩ := e.find hres
  refine ⟨w, g, hm, ?_⟩
  cases res with
  | error err => exact follows_ret.mpr (e.done hg)
  | ok ref =>
    obtain ⟨r, rfl, hread, hfound⟩ := hfound ref rfl
    apply follows_still (a := .loadProvider (.own r)) (e.aside trivial)
    intro w₁ hw₁ r' hr'
    rw [e.load hr']
    apply e.follows_now
    intro w₂ hw₂ now _
    have hw := le_trans hw₁ hw₂
    cases req.available with
    | some available =>
      apply e.follows_setProviders
      intro w₃ hw₃
      refine follows_perform.mpr (fun w₄ hw₄ res _ =>
        ⟨w₄, g, e.edit _ (e.read_mono hread (le_trans hw (le_trans hw₃ hw₄))) rfl, ?_⟩)
      cases res with
      | error err => exact follows_ret.mpr (e.done hg)
      | ok ref => exact hfinish
    | none =>
      refine follows_perform.mpr (fun w₃ hw₃ res _ =>
        ⟨w₃, g, e.beat (e.found_mono hfound (le_trans hw hw₃)), ?_⟩)
      cases res with
      | error err => exact follows_ret.mpr (e.done hg)
      | ok u => exact hfinish

/-- The loop of a listing knows a time by which the heartbeats it finds stale are too old. -/
theorem follows_onlineProviders {stale : Int} {refs : List (Ref ProviderRecord)}
    (hpast : e.Past w (stale + heartbeatTimeout))
    (hrefs : ∀ ref ∈ refs, ∃ r, ref = .own r ∧ e.Read w r)
    {f : List Provider → Prog signature α} (h : ∀ w' out, C.Follows w' g (f out)) :
    C.Follows w g (onlineProviders stale refs >>= f) := by
  induction refs generalizing w f with
  | nil => exact h w []
  | cons ref refs ih =>
    obtain ⟨r, rfl, hr⟩ := hrefs ref (.head _)
    have hrest : ∀ w', w ≤ w' → ∀ {f : List Provider → Prog signature α},
        (∀ w' out, C.Follows w' g (f out)) → C.Follows w' g (onlineProviders stale refs >>= f) := by
      refine fun w' hw f hf => ih (e.past_mono hpast hw) (fun ref href => ?_) hf
      obtain ⟨r, rfl, hr⟩ := hrefs ref (.tail _ href)
      exact ⟨r, rfl, e.read_mono hr hw⟩
    unfold onlineProviders
    rw [bind_assoc]
    apply follows_still (a := .loadProvider (.own r)) (e.aside trivial)
    intro w₁ hw₁ r' hr'
    rw [e.load hr']
    split
    next hold =>
      simp only [bind_assoc]
      apply follows_still (a := .setProvider (.own r) (.status "offline")) (e.aside trivial)
      intro w₂ hw₂ ref href
      rw [e.set href]
      refine follows_perform.mpr (fun w₃ hw₃ res _ => ?_)
      have hw := le_trans hw₁ (le_trans hw₂ hw₃)
      exact ⟨w₃, g, e.retire (e.read_mono hr hw) hold (e.past_mono hpast hw), hrest w₃ hw h⟩
    next =>
      split
      · exact hrest w₁ hw₁ h
      · simp only [bind_assoc]
        exact hrest w₁ hw₁ (fun w' out => h w' _)

theorem follows_listProviders (hg : e.Before g) (req : ListProvidersRequest) :
    C.Follows w g (listProviders req) := by
  refine follows_still (a := .listProviders _) (e.aside trivial) (fun w _ res hres => ?_)
  cases res with
  | error err => exact follows_ret.mpr (e.done hg)
  | ok refs =>
    apply e.follows_now
    intro w' hw now hnow
    apply e.follows_onlineProviders
    · rw [Int.sub_add_cancel]
      exact hnow
    · intro ref href
      obtain ⟨r, rfl, hr⟩ := e.list hres ref href
      exact ⟨r, rfl, e.read_mono hr hw⟩
    · exact fun _ _ => follows_ret.mpr (e.done hg)

end ProviderRules

end PeerCompute.Registry
