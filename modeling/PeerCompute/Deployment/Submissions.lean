import PeerCompute.Deployment.Answers

/-! What the two sides of a tunnel submit to the registry, and what the registry shows them. -/

namespace PeerCompute.Deployment

open PeerCompute.Data PeerCompute.Interleaving PeerCompute.Plugin PeerCompute.Computev1 Prog
open PeerCompute.Registry (CandidateSet latest latest_concat KeepsCandidates SparesCandidates)

variable {σ : Type} {D : Setting σ} {s : State σ} {id : String}

/-! ## What is submitted and shown -/

/-- Candidates are submitted for the session `id` under a peer's ID. -/
def Submits (id peerID : String) (x : Deed signature) : Prop :=
  ∃ cs, x.2.1 = .registry (.exchangeCandidates id peerID cs)

def submission? (id : String) : Action → Option (String × CandidateSet)
  | .registry (.exchangeCandidates id' p cs) => if id' = id then some (p, cs) else none
  | _ => none

/-- What has been submitted for a session: the key that the renter has given when it has created the
session, if it has given one, and then the exchanges. -/
def submissions (k₀ : Option String) (id : String) (l : List (Deed signature)) :
    List (String × CandidateSet) :=
  (k₀.map (fun k => ("cli-user", { wgPublicKey := k }))).toList ++
    l.filterMap (fun x => submission? id x.2.1)

/-- The side that a peer is to be connected with. -/
def otherSide (D : Setting σ) (peerID : String) : String :=
  if peerID = "cli-user" then D.cfg.provider else "cli-user"

section

variable {k₀ : Option String} {l : List (Deed signature)} {t t' : Registry.Server σ}

theorem submissions_nil (k₀ : Option String) (id p : String) :
    latest (submissions k₀ id []) p =
      if p = "cli-user" then k₀.map (fun k => { wgPublicKey := k }) else none := by
  cases k₀ with
  | none =>
    split <;> rfl
  | some k => exact latest_concat [] "cli-user" p { wgPublicKey := k }

theorem submissions_exchange {x : Deed signature} {p : String} {cs : CandidateSet}
    (h : submission? id x.2.1 = some (p, cs)) :
    submissions k₀ id (l ++ [x]) = submissions k₀ id l ++ [(p, cs)] := by
  simp [submissions, h]

theorem submissions_other {x : Deed signature} (h : submission? id x.2.1 = none) :
    submissions k₀ id (l ++ [x]) = submissions k₀ id l := by
  simp [submissions, h]

theorem submission?_of_spares {b : Registry.Action} (hb : SparesCandidates id b) :
    submission? id (.registry b) = none := by
  cases b with
  | exchangeCandidates id' p cs => exact if_neg hb
  | _ => rfl

theorem submission?_eq_some {a : Action} {p : String} {cs : CandidateSet} :
    submission? id a = some (p, cs) ↔ a = .registry (.exchangeCandidates id p cs) := by
  constructor
  · intro h
    unfold submission? at h
    split at h
    next id' p' cs' =>
      split at h
      next heq =>
        cases h
        rw [heq]
      next => cases h
    next => cases h
  · rintro rfl
    exact if_pos rfl

/-- The registry has what has been submitted, and has shown each side what the other one had submitted
until then. -/
structure Synced (D : Setting σ) (id : String) (k₀ : Option String) (l : List (Deed signature))
    (t : Registry.Server σ) : Prop where
  peers : ∀ p, (t.peers id).lookup p = latest (submissions k₀ id l) p
  sides : ∀ p, latest (submissions k₀ id l) p ≠ none → p = D.cfg.provider ∨ p = "cli-user"
  shown : ∀ l₁ i p cs other l₂,
    l = l₁ ++ (i, ⟨.registry (.exchangeCandidates id p cs), other⟩) :: l₂ →
      other = latest (submissions k₀ id l₁) (otherSide D p)

theorem synced_nil (h : ∀ p, (t.peers id).lookup p =
    if p = "cli-user" then k₀.map (fun k => { wgPublicKey := k }) else none) :
    Synced D id k₀ [] t where
  peers p := by rw [h, submissions_nil]
  sides p hp := by
    rw [submissions_nil] at hp
    split at hp
    next hcli => exact .inr hcli
    next => exact absurd rfl hp
  shown l₁ i p cs other l₂ hnil := by cases l₁ <;> cases hnil

theorem Synced.other (h : Synced D id k₀ l t) {x : Deed signature}
    (hx : submission? id x.2.1 = none) (hpeers : t'.peers id = t.peers id) :
    Synced D id k₀ (l ++ [x]) t' where
  peers p := by rw [hpeers, submissions_other hx, h.peers]
  sides p hp := by
    rw [submissions_other hx] at hp
    exact h.sides p hp
  shown l₁ i p cs other l₂ hl := by
    obtain ⟨-, rfl⟩ | ⟨l₃, hl⟩ := split_concat hl
    · exact absurd hx (by simp [submission?])
    · exact h.shown l₁ i p cs other l₃ hl

theorem Synced.exchange (h : Synced D id k₀ l t) (hsides : D.cfg.provider ≠ "cli-user") {i : Nat}
    {p : String} {cs : CandidateSet} {res : Option CandidateSet}
    (hp : p = D.cfg.provider ∨ p = "cli-user")
    (hexec : Registry.exec D.registry D.store (.exchangeCandidates id p cs) t = some (res, t')) :
    Synced D id k₀ (l ++ [(i, ⟨.registry (.exchangeCandidates id p cs), res⟩)]) t' := by
  obtain ⟨hpeers, order, hres⟩ := Registry.exec_exchangeCandidates hexec
  have hsubmission : submission? id (.registry (.exchangeCandidates id p cs)) = some (p, cs) :=
    if_pos rfl
  refine ⟨fun q => ?_, fun q hq => ?_, fun l₁ j p' cs' other l₂ hl => ?_⟩
  · rw [hpeers, submissions_exchange hsubmission, latest_concat, Map.lookup_insert, h.peers]
  · rw [submissions_exchange hsubmission, latest_concat] at hq
    split at hq
    next hpeer => rwa [hpeer]
    next => exact h.sides q hq
  obtain ⟨rfl, heq⟩ | ⟨l₃, hl⟩ := split_concat hl
  · cases heq
    -- of the two sides one is asking, so that only the other one can be shown
    have hother : otherSide D p ≠ p ∧ ∀ q, q = D.cfg.provider ∨ q = "cli-user" →
        q = p ∨ q = otherSide D p := by
      unfold otherSide
      obtain rfl | rfl := hp
      · rw [if_neg hsides]
        exact ⟨hsides.symm, fun q hq => hq⟩
      · rw [if_pos rfl]
        exact ⟨hsides, fun q hq => hq.symm⟩
    have hput := Registry.peers_putCandidates t id p id cs
    rw [if_pos rfl] at hput
    rw [hres, Registry.otherCandidates_two hother.1 (fun q hq => ?_), hput, Map.lookup_insert,
      if_neg hother.1, h.peers]
    rw [hput, Map.lookup_insert] at hq
    split at hq
    next hq' => exact .inl hq'
    next => exact hother.2 q (h.sides q (by rwa [← h.peers]))
  · exact h.shown l₁ j p' cs' other l₃ hl

end

/-- Of the candidates of a session, only those of the two sides are replaced. -/
def Fair (D : Setting σ) (id : String) (x : Deed signature) : Prop :=
  ∀ b, x.2.1 = .registry b → SparesCandidates id b ∨
    ∃ p cs, b = .exchangeCandidates id p cs ∧ (p = D.cfg.provider ∨ p = "cli-user")

theorem Synced.step {k₀ : Option String} {l : List (Deed signature)} {s' : State σ}
    (h : Synced D id k₀ l s.server) (hsides : D.cfg.provider ≠ "cli-user") {i : Nat} {a : Action}
    {res : a.Res} (hfair : Fair D id (i, ⟨a, res⟩)) (hexec : exec D a s = some (res, s')) :
    Synced D id k₀ (l ++ [(i, ⟨a, res⟩)]) s'.server := by
  by_cases ha : ∃ b, a = .registry b
  · obtain ⟨b, rfl⟩ := ha
    have hexec := registry_exec hexec
    obtain hb | ⟨p, cs, rfl, hp⟩ := hfair b rfl
    · exact h.other (submission?_of_spares hb) (Registry.peers_exec hb hexec)
    · exact h.exchange hsides hp hexec
  · have hne : ∀ b, a ≠ .registry b := fun b hb => ha ⟨b, hb⟩
    refine h.other ?_ (by rw [server_exec hne hexec])
    cases a with
    | registry b => exact absurd rfl (hne b)
    | _ => rfl

/-- The registry stays so as long as everybody else leaves the candidates of the session alone. -/
theorem synced_history {k₀ : Option String} (hsides : D.cfg.provider ≠ "cli-user")
    (hinit : Synced D id k₀ [] s.server) {turns : List Turn} {P : Parties σ}
    (hrun : Step.run (next D) turns ⟨s, []⟩ = some P)
    (hfair : ∀ x ∈ Entry.deeds (history D turns ⟨s, []⟩), Fair D id x) :
    Synced D id k₀ (Entry.deeds (history D turns ⟨s, []⟩)) P.state.server := by
  refine history_induct (I := fun h P => (∀ x ∈ Entry.deeds h, Fair D id x) →
    Synced D id k₀ (Entry.deeds h) P.state.server) ?_ ?_ (fun _ => hinit) hrun hfair
  · intro h P t q H _ hfair
    rw [Entry.deeds_begins] at hfair ⊢
    have hserver : (t.leaves P.state).server = P.state.server := by cases t <;> rfl
    rw [hserver]
    exact H hfair
  · intro h P i a k r s' H _ hexec hfair
    rw [Entry.deeds_does] at hfair ⊢
    exact (H (fun x hx => hfair x (List.mem_append_left _ hx))).step hsides
      (hfair _ (List.mem_append_right _ (.head _))) hexec

/-- The key that is shown of a peer that always submits the same one. -/
theorem shown_latest (k₀ : Option String) (p key : String) {l : List (Deed signature)}
    (hkey : ∀ x ∈ l, ∀ cs, x.2.1 = .registry (.exchangeCandidates id p cs) → cs.wgPublicKey = key) :
    (Registry.shown (latest (submissions k₀ id l) p)).2 = key ∧ (∃ x ∈ l, Submits id p x) ∨
      (Registry.shown (latest (submissions k₀ id l) p)).2 =
        (if p = "cli-user" then k₀.getD "" else "") ∧ ¬∃ x ∈ l, Submits id p x := by
  induction l using List.reverseRecOn with
  | nil =>
    refine .inr ⟨?_, by simp⟩
    rw [submissions_nil]
    split
    · cases k₀ <;> rfl
    · rfl
  | append_singleton l x ih =>
    have ih := ih (fun x hx => hkey x (List.mem_append_left _ hx))
    have hsubmits : Submits id p x ↔ ∃ cs, submission? id x.2.1 = some (p, cs) :=
      exists_congr (fun _ => submission?_eq_some.symm)
    cases hx : submission? id x.2.1 with
    | none =>
      have hnot : ¬Submits id p x := by
        rw [hsubmits, hx]
        simp
      simpa [submissions_other hx, hnot, or_and_right, exists_or] using ih
    | some y =>
      obtain ⟨q, cs⟩ := y
      rw [submissions_exchange hx, latest_concat]
      by_cases hp : p = q
      · subst hp
        rw [if_pos rfl]
        refine .inl ⟨?_, x, List.mem_append_right _ (.head _), hsubmits.mpr ⟨cs, hx⟩⟩
        exact hkey x (List.mem_append_right _ (.head _)) cs (submission?_eq_some.mp hx)
      · have hnot : ¬Submits id p x := by
          rw [hsubmits, hx]
          rintro ⟨cs', heq⟩
          cases heq
          exact hp rfl
        rw [if_neg hp]
        simpa [hnot, or_and_right, exists_or] using ih

end PeerCompute.Deployment
