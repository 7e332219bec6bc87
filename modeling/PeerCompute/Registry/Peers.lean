import PeerCompute.Interleaving.History
import PeerCompute.Registry.Actions
import PeerCompute.Registry.Candidates

/-! The candidates of one session, action by action. -/

namespace PeerCompute.Registry

open PeerCompute.Data PeerCompute.Interleaving PeerCompute.Plugin PeerCompute.Computev1 Prog

variable {σ : Type} {E : Env} {S : Store σ} {s s' : Server σ}

/-- The action leaves the candidates of the session `id` as they are. -/
def SparesCandidates (id : String) : Action → Prop
  | .putCandidates id' _ _ | .exchangeCandidates id' _ _ | .deleteCandidates id' => id' ≠ id
  | _ => True

theorem candidates_stored {α : Type} (s : Server σ) (x : Except StoreError (α × σ)) :
    (s.stored x).2.candidates = s.candidates := by
  cases x <;> rfl

theorem peers_exec {a : Action} {res : a.Res} {id : String} (ha : SparesCandidates id a)
    (h : exec E S a s = some (res, s')) : s'.peers id = s.peers id := by
  obtain ⟨x, hx, heq⟩ := Option.map_eq_some_iff.mp h
  obtain rfl : s' = { x.2 with clock := s.clock + 1 } := (congrArg Prod.snd heq).symm
  cases a with
  | putCandidates id' p cs =>
    cases hx
    exact (peers_putCandidates s id' p id cs).trans (if_neg (Ne.symm ha))
  | exchangeCandidates id' p cs =>
    cases hx
    exact (peers_putCandidates s id' p id cs).trans (if_neg (Ne.symm ha))
  | deleteCandidates id' =>
    cases hx
    unfold Server.peers
    rw [Map.lookup_erase, if_neg (Ne.symm ha)]
  | putProvider | updateHeartbeat | putSession =>
    cases hx
    unfold Server.peers
    rw [candidates_stored]
  | allocateTunnelIPs id' =>
    obtain ⟨y, -, rfl⟩ := Option.map_eq_some_iff.mp hx
    rfl
  | registerRelay token id' =>
    simp only [Server.act] at hx
    split at hx
    · cases hx
      rfl
    · obtain ⟨y, -, rfl⟩ := Option.map_eq_some_iff.mp hx
      rfl
  | _ =>
    cases hx
    rfl

/-- No action takes a session out of the store. -/
theorem isSome_exec (hS : S.Lawful) {a : Action} {res : a.Res} {id : String}
    (hid : (S.session s.store id).isSome = true) (h : exec E S a s = some (res, s')) :
    (S.session s'.store id).isSome = true := by
  cases exec_touches hS h with
  | none hview _ => rwa [hview]
  | put hview _ =>
    rw [hview]
    split
    · rfl
    · exact hid
  | set hview _ =>
    rw [hview]
    split
    next hset =>
      subst hset
      rwa [Option.isSome_map]
    · exact hid
  | reclaim hview _ => rwa [hview]
  | allocate hview _ => rwa [hview]

/-- If only two peers have submitted anything, each of them is shown what the other has. -/
theorem otherCandidates_two {id p q : String} (hpq : q ≠ p)
    (hpeers : ∀ q', (s.peers id).lookup q' ≠ none → q' = p ∨ q' = q) (order : Order String) :
    s.otherCandidates order id p = (s.peers id).lookup q := by
  cases hother : s.otherCandidates order id p with
  | none => exact (otherCandidates_eq_none hother hpq).symm
  | some cs =>
    obtain ⟨q', hq', hcs⟩ := otherCandidates_eq_some hother
    obtain rfl | rfl := hpeers q' (by rw [hcs]; exact Option.some_ne_none cs)
    · exact absurd rfl hq'
    · exact hcs.symm

theorem exec_exchangeCandidates {id p : String} {cs : CandidateSet} {other : Option CandidateSet}
    (h : exec E S (.exchangeCandidates id p cs) s = some (other, s')) :
    s'.peers id = (s.peers id).insert p cs ∧
      ∃ order, other = (s.putCandidates id p cs).otherCandidates order id p := by
  cases h
  exact ⟨(peers_putCandidates s id p id cs).trans (if_pos rfl), _, rfl⟩

/-! ## The calls of a provider and of a renter -/

/-- The action touches no candidates. -/
def KeepsCandidates : Action → Prop
  | .putCandidates _ _ _ | .exchangeCandidates _ _ _ | .deleteCandidates _ => False
  | _ => True

theorem KeepsCandidates.spares {a : Action} (ha : KeepsCandidates a) (id : String) :
    SparesCandidates id a := by
  cases a with
  | putCandidates | exchangeCandidates | deleteCandidates => cases ha
  | _ => trivial

theorem Silent.keepsCandidates {a : Action} (ha : Silent a) : KeepsCandidates a := by
  cases a with
  | putCandidates | exchangeCandidates | deleteCandidates => cases ha
  | _ => trivial

theorem keeps_finishUpdate (req : UpdateSessionStatusRequest) (ref : Ref SessionRecord) :
    (finishUpdate req ref).Uses KeepsCandidates := by
  have hput : ∀ ref, (putSessionAnd ref (.updateSessionStatus true)).Uses KeepsCandidates :=
    fun ref => uses_putSessionAnd ref _ trivial
  unfold finishUpdate
  split
  · split
    · trivial
    · refine ⟨trivial, fun r => ?_⟩
      change Uses (S := signature) _ (if _ then _ else _)
      split
      · exact ⟨trivial, fun ref => hput ref⟩
      · exact hput ref
  · exact hput ref

theorem keeps_setReported (req : UpdateSessionStatusRequest) (ref : Ref SessionRecord) :
    (setReported req ref).Uses KeepsCandidates := by
  have hset : ∀ v f ref, (setNonempty v f ref).Uses KeepsCandidates := by
    intro v f ref
    unfold setNonempty
    split
    · exact ⟨trivial, fun _ => trivial⟩
    · trivial
  exact (hset _ _ ref).bind (fun ref => (hset _ _ ref).bind (fun ref => (hset _ _ ref).bind
    (fun ref => hset _ _ ref)))

theorem keeps_updateSessionStatus (req : UpdateSessionStatusRequest) :
    (updateSessionStatus req).Uses KeepsCandidates := by
  have hrest : ∀ ref, (setReported req ref >>= finishUpdate req).Uses KeepsCandidates :=
    fun ref => (keeps_setReported req ref).bind (keeps_finishUpdate req)
  refine ⟨trivial, fun res => ?_⟩
  cases res with
  | error e => trivial
  | ok ref =>
    refine ⟨trivial, fun r => ⟨trivial, fun ref => ?_⟩⟩
    dsimp only
    split
    · exact ⟨trivial, fun _ => ⟨trivial, fun _ => ⟨trivial, fun ref => ⟨trivial, fun _ =>
        hrest ref⟩⟩⟩⟩
    · exact hrest ref

theorem keeps_reportConnectionResult (req : ReportConnectionResultRequest) :
    (reportConnectionResult req).Uses KeepsCandidates := by
  refine ⟨trivial, fun res => ?_⟩
  cases res with
  | error e => trivial
  | ok ref =>
    dsimp only
    split
    · exact ⟨trivial, fun ref => ⟨trivial, fun r => ⟨trivial, fun _ =>
        uses_putSessionAnd ref _ trivial⟩⟩⟩
    · exact ⟨trivial, fun ref => uses_putSessionAnd ref _ trivial⟩

/-- `ExchangeCandidates` submits what the request has, for the session that has been looked up, and
shows what it has found there. -/
theorem along_exchangeCandidates (req : ExchangeCandidatesRequest) :
    (exchangeCandidates req).Along
      (fun l (a : Action) => KeepsCandidates a ∨
        ∃ l₁ ref r l₂, l = l₁ ++ ⟨.loadSession ref, r⟩ :: l₂ ∧
        ⟨.getSessionByPrefix req.sessionID, .ok ref⟩ ∈ l₁ ∧
        a = .exchangeCandidates r.id req.peerID (submitted req))
      (fun resp l => ∀ candidates key relayAddress relayToken,
        resp = .ok (.exchangeCandidates candidates key relayAddress relayToken) →
          ∃ l' id other, l = l' ++ [⟨.exchangeCandidates id req.peerID (submitted req), other⟩] ∧
            key = (shown other).2) [] := by
  refine ⟨.inl trivial, fun res => ?_⟩
  cases res with
  | error e => exact fun _ _ _ _ h => by cases h
  | ok ref =>
    refine ⟨.inl trivial, fun r => ⟨.inl trivial, fun addr => ⟨.inr ?_, fun other => ?_⟩⟩⟩
    · exact ⟨[⟨.getSessionByPrefix req.sessionID, .ok ref⟩], ref, r, [⟨.relayAddr, addr⟩], rfl,
        .head _, rfl⟩
    · cases other with
      | none =>
        intro candidates key relayAddress relayToken h
        cases h
        exact ⟨_, r.id, none, rfl, rfl⟩
      | some cs =>
        intro candidates key relayAddress relayToken h
        cases h
        exact ⟨_, r.id, some cs, rfl, rfl⟩

end PeerCompute.Registry
