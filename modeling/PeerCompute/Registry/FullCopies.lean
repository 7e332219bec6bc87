import PeerCompute.Registry.OriginContract
import PeerCompute.Store.FullCopies
import PeerCompute.Store.Rows

/-! The calls of the registry over PostgreSQL, statement by statement, against a store that keeps
full copies. -/

namespace PeerCompute.Registry

open PeerCompute.Data PeerCompute.Interleaving PeerCompute.Plugin PeerCompute.Computev1
  PeerCompute.PostgresStore Prog Contract

/-- The database answers as the store of full copies does, up to order and repetition in lists.  The
first statement of a lookup answers it only if it finds something. -/
def SameAnswer : (a : Statement) → a.Res → a.Res → Prop
  | .action (.listProviders _), (x : Except StoreError (List (Ref ProviderRecord))), y =>
    SameMembers x y
  | .action (.listSessions _), (x : Except StoreError (List (Ref SessionRecord))), y =>
    SameMembers x y
  | .action (.getTerminatedSessionIDs _ _), (x : Except StoreError (List String)), y =>
    SameMembers x y
  | .findProvider _, (x : Except StoreError (Ref ProviderRecord)), y => ∀ ref, x = .ok ref → y = .ok ref
  | .findSession _, (x : Except StoreError (Ref SessionRecord)), y => ∀ ref, x = .ok ref → y = .ok ref
  | _, x, y => x = y

namespace Statement

/-- What the columns make of the values of a statement. -/
def checks : Statement → List (Option String)
  | .action (.putProvider (.own r)) => [refuseProvider r]
  | .action (.putSession (.own r)) => [refuseSessionIf false r]
  | .action (.getProvider id) | .action (.updateHeartbeat id _) => [refuseText id]
  | .action (.listProviders filter) => [refuseText filter.status, refuseInt filter.minCPU,
      refuseBigint 0 filter.minMemory, refuseInt filter.minGPU]
  | .action (.listSessions filter) => [refuseText filter.providerID, refuseText filter.renterID,
      refuseText filter.status]
  | .action (.getTerminatedSessionIDs ids providerID) =>
    refuseText providerID :: ids.map refuseText
  | .action (.getProviderByPrefix p) | .action (.getSessionByPrefix p)
  | .findProvider p | .likeProvider p | .findSession p | .likeSession p => [refuseText p]
  | _ => []

/-- The ID arguments that become patterns. -/
def patterns : Statement → List String
  | .action (.getProviderByPrefix p) | .action (.getSessionByPrefix p)
  | .findProvider p | .likeProvider p | .findSession p | .likeSession p => [p]
  | _ => []

end Statement

/-- Every value is admissible for its column, and an ID has no character that is special in a
pattern. -/
structure Admissible (a : Statement) : Prop where
  values : ∀ c ∈ a.checks, c = none
  plain : ∀ p ∈ a.patterns, Plain p

instance decidableAdmissible (a : Statement) : Decidable (Admissible a) :=
  decidable_of_iff ((∀ c ∈ a.checks, c = none) ∧ ∀ p ∈ a.patterns, Plain p)
    ⟨fun h => ⟨h.1, h.2⟩, fun h => ⟨h.values, h.plain⟩⟩

/-- One statement of the store of full copies, where the database has answered `x.2`. -/
def Replay (E : Env) (order : Nat → Order String) (s : Server Tables) (x : Σ a : Statement, a.Res)
    (s' : Server Tables) : Prop :=
  ∃ res, execStatement E (fullCopies order) x.1 s = some (res, s') ∧ SameAnswer x.1 x.2 res

namespace FullCopies

/-- What a statement needs of the tables to do what the store of full copies does. -/
def Kept (m : Tables) : Statement → Prop
  | .action (.putSession (.own r)) =>
    (∀ old, m.sessions.lookup r.id = some old → r.origin = old.origin) ∧
      (m.sessions.lookup r.id = none → (m.providers.lookup r.providerID).isSome = true)
  | .action (.putProvider (.own r)) =>
    ∀ old, m.providers.lookup r.id = some old → r.registeredAt = old.registeredAt
  | .action (.updateHeartbeat id _) => (m.providers.lookup id).isSome = true
  | .likeProvider _ => PrefixFree m.providers
  | .likeSession _ => PrefixFree m.sessions
  | _ => True

variable {E : Env} {order order' : Nat → Order String} {s s' : Server Tables}

/-- An action that has the same effect on both stores. -/
theorem replay_of_act {a : Action} {res : a.Res}
    (heq : s.act E (tableStatements (reliable order)).toStore a =
      s.act E (fullCopies order').toStore a) (hrefl : SameAnswer (.action a) res res)
    (h : exec E (tableStatements (reliable order)).toStore a s = some (res, s')) :
    Replay E order' s ⟨.action a, res⟩ s' := by
  refine ⟨res, ?_, hrefl⟩
  unfold exec at h
  rw [heq] at h
  exact h

theorem replay_action {a : Action} {res : a.Res} (hadm : Admissible (.action a))
    (hkept : Kept s.store (.action a))
    (h : exec E (tableStatements (reliable order)).toStore a s = some (res, s')) :
    Replay E order' s ⟨.action a, res⟩ s' := by
  cases a with
  | putProvider ref =>
    cases ref with
    | stored id => exact replay_of_act rfl rfl h
    | own r =>
      have heq : (tableStatements (reliable order)).putProvider s.clock s.store (.own r) =
          (fullCopies order').putProvider s.clock s.store (.own r) :=
        putProvider_reliable (hadm.values _ (.head _)) hkept
      exact replay_of_act (congrArg (fun x => some (s.stored x)) heq) rfl h
  | putSession ref =>
    cases ref with
    | stored id => exact replay_of_act rfl rfl h
    | own r =>
      have heq : (tableStatements (reliable order)).putSession s.clock s.store (.own r) =
          (fullCopies order').putSession s.clock s.store (.own r) :=
        putSession_reliable (hadm.values _ (.head _)) hkept.1 hkept.2
      exact replay_of_act (congrArg (fun x => some (s.stored x)) heq) rfl h
  | updateHeartbeat id heartbeat =>
    have heq : (tableStatements (reliable order)).updateHeartbeat s.clock s.store id heartbeat =
        (fullCopies order').updateHeartbeat s.clock s.store id heartbeat :=
      updateHeartbeat_reliable (hadm.values _ (.head _)) hkept heartbeat
    exact replay_of_act (congrArg (fun x : Except StoreError Tables =>
      some (s.stored (x.map (fun st => ((), st))))) heq) rfl h
  | getProvider id =>
    exact replay_of_act (congrArg (fun x => some (x, s))
      (getProvider_reliable (hadm.values _ (.head _)))) rfl h
  | getProviderByPrefix p =>
    exact replay_of_act (congrArg (fun x => some (x, s))
      (getProviderByPrefix_reliable (hadm.plain p (.head _)) (hadm.values _ (.head _)))) rfl h
  | getSessionByPrefix p =>
    exact replay_of_act (congrArg (fun x => some (x, s))
      (getSessionByPrefix_reliable (hadm.plain p (.head _)) (hadm.values _ (.head _)))) rfl h
  | listProviders filter =>
    cases h
    exact ⟨_, rfl, listProviders_reliable (hadm.values _ (.head _))⟩
  | listSessions filter =>
    cases h
    exact ⟨_, rfl, listSessions_reliable (hadm.values _ (.head _)) (hadm.values _ (.tail _ (.head _)))
      (hadm.values _ (.tail _ (.tail _ (.head _))))⟩
  | getTerminatedSessionIDs ids providerID =>
    cases h
    have hsame : SameMembers
        ((tableStatements (reliable order)).getTerminatedSessionIDs s.clock s.store ids providerID)
        ((fullCopies order').getTerminatedSessionIDs s.clock s.store ids providerID) :=
      terminated_reliable (hadm.values _ (.head _))
        (fun id hid => hadm.values _ (.tail _ (List.mem_map_of_mem hid)))
    exact ⟨_, rfl, hsame⟩
  | _ => exact replay_of_act rfl rfl h

theorem found_copy {V R : Type} {t : Nat} {m : Map String V} {p : String} {f : V → R} {y : R}
    (h : ((reliable order).byID t m p).map f = .ok y) (order' : Order String) (zero : V) :
    (copyOf order' m zero p).map f = .ok y := by
  obtain ⟨x, hx, rfl⟩ := map_eq_ok h
  rw [copyOf_of_byID hx]
  rfl

/-- A statement on tables that keep to the conditions. -/
theorem replay_statement {a : Statement} {res : a.Res} (hadm : Admissible a)
    (hkept : Kept s.store a)
    (h : execStatement E (tableStatements (reliable order)) a s = some (res, s')) :
    Replay E order' s ⟨a, res⟩ s' := by
  cases a with
  | action a => exact replay_action hadm hkept h
  | findProvider p =>
    cases h
    exact ⟨_, rfl, fun ref href => found_copy href _ {}⟩
  | findSession p =>
    cases h
    exact ⟨_, rfl, fun ref href => found_copy href _ {}⟩
  | likeProvider p =>
    cases h
    refine ⟨_, rfl, ?_⟩
    exact congrArg (Except.map Ref.own)
      (likeRow_reliable hkept (hadm.plain p (.head _)) (hadm.values _ (.head _)) _ {})
  | likeSession p =>
    cases h
    refine ⟨_, rfl, ?_⟩
    exact congrArg (Except.map Ref.own)
      (likeRow_reliable hkept (hadm.plain p (.head _)) (hadm.values _ (.head _)) _ {})

section

variable {names : String → Prop} {w w' : Origins} {gs : List (Option String)} {g g' : Option String}
  {i : Nat}

theorem hasSession_of_lookup {id : String} {r : SessionRecord}
    (h : s.store.sessions.lookup id = some r) : HasSession (Origins.of s.store) r := by
  have hid := s.store.session_id h
  simp [HasSession, Origins.of, hid, h]

theorem hasProvider_of_lookup {id : String} {r : ProviderRecord}
    (h : s.store.providers.lookup id = some r) : HasProvider (Origins.of s.store) r := by
  have hid := s.store.provider_id h
  simp [HasProvider, Origins.of, hid, h]

theorem answers_statement {a : Statement} {res : a.Res}
    (h : execStatement E (tableStatements (reliable order)) a s = some (res, s')) :
    statementContract.Answers (Origins.of s.store) a res := by
  cases a with
  | action a =>
    exact copied_exec (tableStore_lawful _) (tableStore_copies _)
      (fun _ _ hr => hasSession_of_lookup hr) (fun _ _ hr => hasProvider_of_lookup hr) h
  | findProvider p =>
    cases h
    intro ref href
    obtain ⟨r, hr, rfl⟩ := map_eq_ok href
    exact ⟨r, rfl, hasProvider_of_lookup (Backend.byID_eq_ok hr)⟩
  | findSession p =>
    cases h
    intro ref href
    obtain ⟨r, hr, rfl⟩ := map_eq_ok href
    exact ⟨r, rfl, hasSession_of_lookup (Backend.byID_eq_ok hr)⟩
  | likeProvider p =>
    cases h
    intro ref href
    obtain ⟨r, hr, rfl⟩ := map_eq_ok href
    obtain ⟨id, hid⟩ := Backend.likeRow_eq_ok hr
    exact ⟨r, rfl, hasProvider_of_lookup hid⟩
  | likeSession p =>
    cases h
    intro ref href
    obtain ⟨r, hr, rfl⟩ := map_eq_ok href
    obtain ⟨id, hid⟩ := Backend.likeRow_eq_ok hr
    exact ⟨r, rfl, hasSession_of_lookup hid⟩

theorem prefixFree_of_names {V : Type} {m : Map String V} {s₀ : Server Tables}
    (hnames : DistinctNames E s₀)
    (h : ∀ id, (m.lookup id).isSome = true → IsName E s₀ id) : PrefixFree m :=
  fun id id' hid hid' => hnames.prefixFree id id' (h id hid) (h id' hid')

/-- A call that keeps to the contract does nothing that the store of full copies would not do. -/
theorem kept_of_move {s₀ : Server Tables} (hnames : DistinctNames E s₀)
    (h : Inv E (IsName E s₀) w gs s) (hi : gs[i]? = some g) {a : Statement} {res : a.Res}
    (hm : statementContract.Move w g a res w' g') : Kept s.store a := by
  obtain rfl := h.origins
  cases a with
  | findProvider p | findSession p => trivial
  | likeProvider p =>
    exact prefixFree_of_names hnames (fun id hid => h.named id (.inr (by simpa [Origins.of] using hid)))
  | likeSession p =>
    exact prefixFree_of_names hnames (fun id hid => h.named id (.inl (by simpa [Origins.of] using hid)))
  | action a =>
    cases hm with
    | draw => trivial
    | rewrite hr =>
      obtain ⟨old, hold, horigin⟩ := Option.map_eq_some_iff.mp hr
      refine ⟨fun old' hold' => ?_, fun hnone => ?_⟩
      · rw [hold] at hold'
        cases hold'
        exact horigin.symm
      · rw [hold] at hnone
        cases hnone
    | create hp =>
      have hnone := Option.map_eq_none_iff.mp (h.unused i _ hi).session
      refine ⟨fun old hold => ?_, fun _ => by simpa [Origins.of] using hp⟩
      rw [hnone] at hold
      cases hold
    | edit hr =>
      obtain ⟨old, hold, htime⟩ := Option.map_eq_some_iff.mp hr
      intro old' hold'
      rw [hold] at hold'
      cases hold'
      exact htime.symm
    | enroll =>
      have hnone := Option.map_eq_none_iff.mp (h.unused i _ hi).provider
      intro old hold
      rw [hnone] at hold
      cases hold
    | beat hid => simpa [Kept, Origins.of] using hid
    | calm ha =>
      cases a with
      | putSession ref | putProvider ref | updateHeartbeat id heartbeat => exact ha.elim
      | _ => trivial

/-- A calm action leaves the tables as they are. -/
theorem store_of_calm {σ : Type} {S : Store σ} {s s' : Server σ} {a : Action} {res : a.Res}
    (ha : Calm a) (h : exec E S a s = some (res, s')) : s'.store = s.store := by
  cases a with
  | putSession ref | putProvider ref | updateHeartbeat id heartbeat => exact ha.elim
  | setSession ref b =>
    cases ref with
    | own r =>
      cases h
      rfl
    | stored id => exact ha.elim
  | setProvider ref b =>
    cases ref with
    | own r =>
      cases h
      rfl
    | stored id => exact ha.elim
  | allocateTunnelIPs id =>
    simp only [exec, Server.act, Option.map_map] at h
    obtain ⟨x, -, heq⟩ := Option.map_eq_some_iff.mp h
    cases heq
    rfl
  | registerRelay token id =>
    simp only [exec, Server.act] at h
    split at h
    · cases h
      rfl
    · obtain ⟨x, hx, heq⟩ := Option.map_eq_some_iff.mp h
      cases heq
      obtain ⟨rs', -, heq⟩ := Option.map_eq_some_iff.mp hx
      cases heq
      rfl
  | _ =>
    cases h
    rfl

theorem clock_execStatement {σ : Type} {S : Statements σ} {s s' : Server σ} {a : Statement}
    {res : a.Res} (h : execStatement E S a s = some (res, s')) : s'.clock = s.clock + 1 := by
  cases a with
  | action a => exact exec_clock h
  | _ =>
    cases h
    rfl

theorem store_of_putSession {r : SessionRecord} {x : Σ a : Statement, a.Res}
    (hx : x.1 = .action (.putSession (.own r))) (h : Replay E order s x s') :
    s'.store = s.store.insertSession r := by
  obtain ⟨a, res⟩ := x
  cases hx
  obtain ⟨res', h, -⟩ := h
  cases h
  rfl

theorem store_of_putProvider {r : ProviderRecord} {x : Σ a : Statement, a.Res}
    (hx : x.1 = .action (.putProvider (.own r))) (h : Replay E order s x s') :
    s'.store = s.store.insertProvider r := by
  obtain ⟨a, res⟩ := x
  cases hx
  obtain ⟨res', h, -⟩ := h
  cases h
  rfl

theorem origins_of_beat {id : String} {heartbeat : Int} {x : Σ a : Statement, a.Res}
    (hx : x.1 = .action (.updateHeartbeat id heartbeat)) (h : Replay E order s x s') :
    Origins.of s'.store = Origins.of s.store := by
  obtain ⟨a, res⟩ := x
  cases hx
  obtain ⟨res', h, -⟩ := h
  simp only [execStatement, exec, Server.act, fullCopies] at h
  split at h <;> cases h
  · exact Origins.of_online s.store id heartbeat
  · rfl

/-- One statement of a call that keeps to the contract. -/
theorem inv_move {s₀ : Server Tables} (hnames : DistinctNames E s₀)
    (h : Inv E (IsName E s₀) w gs s) (hi : gs[i]? = some g) {a : Statement} {res : a.Res}
    (hadm : Admissible a)
    (hx : execStatement E (tableStatements (reliable order)) a s = some (res, s'))
    (hm : statementContract.Move w g a res w' g') :
    w ≤ w' ∧ Inv E (IsName E s₀) w' (gs.set i g') s' := by
  have hclock := clock_execStatement hx
  have hname : ∀ t, IsName E s₀ (E.uuid t) := fun t => .inl ⟨t, rfl⟩
  have hreplay : Replay E order s ⟨a, res⟩ s' :=
    replay_statement hadm (kept_of_move hnames h hi hm) hx
  cases a with
  | findProvider p | likeProvider p | findSession p | likeSession p =>
    obtain ⟨rfl, rfl⟩ := hm
    rw [set_self hi]
    cases hx
    exact ⟨le_rfl, h.keep rfl hclock⟩
  | action a =>
    cases hm with
    | calm ha =>
      rw [set_self hi]
      exact ⟨le_rfl, h.keep (congrArg Origins.of (store_of_calm ha hx)) hclock⟩
    | draw =>
      cases hx
      exact ⟨le_rfl, h.draw hnames.injective rfl hclock⟩
    | rewrite hr =>
      rw [set_self hi]
      refine ⟨le_rfl, h.keep ?_ hclock⟩
      rw [store_of_putSession rfl hreplay, Origins.of_insertSession, h.origins,
        Origins.addSession_self hr]
    | edit hr =>
      rw [set_self hi]
      refine ⟨le_rfl, h.keep ?_ hclock⟩
      rw [store_of_putProvider rfl hreplay, Origins.of_insertProvider, h.origins,
        Origins.addProvider_self hr]
    | beat hid =>
      rw [set_self hi]
      exact ⟨le_rfl, h.keep (origins_of_beat rfl hreplay) hclock⟩
    | create hp =>
      refine ⟨Origins.le_addSession (h.unused i _ hi).session, ?_⟩
      refine h.use hnames.injective hname hi (fun id hne => if_neg hne) (fun _ _ => rfl) ?_ hclock
      rw [store_of_putSession rfl hreplay, Origins.of_insertSession, h.origins]
    | enroll =>
      refine ⟨Origins.le_addProvider (h.unused i _ hi).provider, ?_⟩
      refine h.use hnames.injective hname hi (fun _ _ => rfl) (fun id hne => if_neg hne) ?_ hclock
      rw [store_of_putProvider rfl hreplay, Origins.of_insertProvider, h.origins]

theorem sound {s₀ : Server Tables} (hnames : DistinctNames E s₀) :
    statementContract.Sound (guarded (execStatement E (tableStatements (reliable order)))
      (fun a _ _ => Admissible a)) (Inv E (IsName E s₀)) where
  act h hi hx := by
    obtain ⟨hx, hadm⟩ := guarded_eq_some.mp hx
    refine ⟨?_, fun w' g' hm => inv_move hnames h hi hadm hx hm⟩
    rw [← h.origins]
    exact answers_statement hx

theorem admits_statements {names : String → Prop} (c : Rpc) :
    statementContract.Admits (Inv E names) (c.handler.expand Action.statements) :=
  ⟨none, fun _ => follows_statements c, fun _ _ _ h => h.append⟩

variable (order') in
/-- A schedule of admissible statements, on the tables. -/
theorem replay_turns {s₀ : Server Tables} (hnames : DistinctNames E s₀) {turns : List Turn}
    {P P' : StatementCalls Tables} (hP : statementContract.GovernedIn (Inv E (IsName E s₀)) w P)
    (h : interleaveStatements E (tableStatements (reliable order)) turns P = some P')
    (hadm : ∀ x ∈ statementTrace E (tableStatements (reliable order)) turns P, Admissible x.1) :
    (∃ w', statementContract.GovernedIn (Inv E (IsName E s₀)) w' P') ∧
      Path (fun s x s' => Replay E order' s x s' ∧ Origins.of s.store ≤ Origins.of s'.store) P.state
        (statementTrace E (tableStatements (reliable order)) turns P) P'.state := by
  have hguarded : P.play (guarded (execStatement E (tableStatements (reliable order)))
        (fun a _ _ => Admissible a)) (turns.map Turn.statements) = some P' ∧
      Pool.trace (guarded (execStatement E (tableStatements (reliable order)))
        (fun a _ _ => Admissible a)) (turns.map Turn.statements) P =
        statementTrace E (tableStatements (reliable order)) turns P :=
    Pool.play_guarded_of_trace hadm h
  obtain ⟨hplay, htrace⟩ := hguarded
  rw [← htrace]
  refine GovernedIn.path (sound hnames) (fun hInv hi hx hm hle hInv' => ?_) (fun e he p hp => ?_) hP
    hplay
  · obtain ⟨hx, hadm⟩ := guarded_eq_some.mp hx
    refine ⟨replay_statement hadm (kept_of_move hnames hInv hi hm) hx, ?_⟩
    rw [hInv.origins, hInv'.origins]
    exact hle
  · subst hp
    obtain ⟨turn, -, hturn⟩ := List.mem_map.mp he
    cases turn with
    | call c =>
      cases hturn
      exact admits_statements c
    | step i => cases hturn

end

end FullCopies

/-- The rows of `db` are still there, with what the upserts leave out. -/
structure LeftOut (db db' : Database) : Prop where
  sessions : ∀ id row, db.sessions.lookup id = some row → ∃ row',
    db'.sessions.lookup id = some row' ∧ ∀ c, c ∉ putSessionUpdates → row' c = row c
  providers : ∀ id row, db.providers.lookup id = some row → ∃ row',
    db'.providers.lookup id = some row' ∧ ∀ c, c ∉ putProviderUpdates → row' c = row c

theorem leftOut_of_origins {m m' : Tables} (h : FullCopies.Origins.of m ≤ FullCopies.Origins.of m') :
    LeftOut (Database.ofTables m) (Database.ofTables m') := by
  constructor
  · intro id row hrow
    simp only [Database.ofTables, Map.lookup_mapValues] at hrow ⊢
    obtain ⟨r, hr, rfl⟩ := Option.map_eq_some_iff.mp hrow
    obtain ⟨r', hr', horigin⟩ := Option.map_eq_some_iff.mp
      (h.1 id r.origin (Option.map_eq_some_iff.mpr ⟨r, hr, rfl⟩))
    exact ⟨sessionRow r', by rw [hr']; rfl, fun c hc => sessionRow_of_origin horigin hc⟩
  · intro id row hrow
    simp only [Database.ofTables, Map.lookup_mapValues] at hrow ⊢
    obtain ⟨r, hr, rfl⟩ := Option.map_eq_some_iff.mp hrow
    obtain ⟨r', hr', htime⟩ := Option.map_eq_some_iff.mp
      (h.2 id r.registeredAt (Option.map_eq_some_iff.mpr ⟨r, hr, rfl⟩))
    have hid : r'.id = r.id := (m'.provider_id hr').trans (m.provider_id hr).symm
    exact ⟨providerRow r', by rw [hr']; rfl, fun c hc => providerRow_of_registeredAt hid htime hc⟩

/-- Whatever calls are in progress, each statement of the database, on rows and positional columns,
answers as a store of full copies does, and leaves the rows of its records behind.  What an upsert
does not name never changes. -/
theorem database_keeps_full_copies {E : Env} {order : Nat → Order String} {s : Server Tables}
    (hnames : DistinctNames E s) {turns later : List Turn} {P Q : StatementCalls Database}
    (hP : interleaveStatements E (rowStatements (reliable order)) turns
      ⟨s.onStore Database.ofTables, []⟩ = some P)
    (hQ : interleaveStatements E (rowStatements (reliable order)) later P = some Q)
    (hadm : ∀ x ∈ statementTrace E (rowStatements (reliable order)) turns
      ⟨s.onStore Database.ofTables, []⟩ ++ statementTrace E (rowStatements (reliable order)) later P,
      Admissible x.1) (order' : Nat → Order String) :
    ∃ s₁ s₂ : Server Tables,
      Path (Replay E order') s (statementTrace E (rowStatements (reliable order)) turns
        ⟨s.onStore Database.ofTables, []⟩) s₁ ∧
      Path (Replay E order') s₁ (statementTrace E (rowStatements (reliable order)) later P) s₂ ∧
      P.state = s₁.onStore Database.ofTables ∧ Q.state = s₂.onStore Database.ofTables ∧
      LeftOut P.state.store Q.state.store := by
  have hexec := execStatement_onStore (E := E)
    (rowStatements_represents (B := reliable order) rfl)
  -- the schedule and its statements are those of the tables
  obtain ⟨P', hP', rfl⟩ := Option.map_eq_some_iff.mp
    ((Pool.play_onState hexec (turns.map Turn.statements) ⟨s, []⟩).symm.trans hP)
  obtain ⟨Q', hQ', rfl⟩ := Option.map_eq_some_iff.mp
    ((Pool.play_onState hexec (later.map Turn.statements) P').symm.trans hQ)
  have htrace : statementTrace E (rowStatements (reliable order)) turns
      ⟨s.onStore Database.ofTables, []⟩ =
        statementTrace E (tableStatements (reliable order)) turns ⟨s, []⟩ :=
    Pool.trace_onState hexec (turns.map Turn.statements) ⟨s, []⟩
  have hlater : statementTrace E (rowStatements (reliable order)) later
      (P'.onState (Server.onStore Database.ofTables)) =
        statementTrace E (tableStatements (reliable order)) later P' :=
    Pool.trace_onState hexec (later.map Turn.statements) P'
  rw [htrace, hlater] at hadm ⊢
  have hstart : FullCopies.statementContract.GovernedIn
      (FullCopies.Inv E (FullCopies.IsName E s)) (FullCopies.Origins.of s.store)
      (⟨s, []⟩ : StatementCalls Tables) := ⟨[], .start hnames, .nil⟩
  obtain ⟨⟨w, hgov⟩, hpath⟩ := FullCopies.replay_turns order' hnames hstart hP'
    (fun x hx => hadm x (List.mem_append_left _ hx))
  obtain ⟨-, hpath'⟩ := FullCopies.replay_turns order' hnames hgov hQ'
    (fun x hx => hadm x (List.mem_append_right _ hx))
  have hle : FullCopies.Origins.of P'.state.store ≤ FullCopies.Origins.of Q'.state.store :=
    hpath'.induct (Q := fun (s s' : Server Tables) => FullCopies.Origins.of s.store ≤
      FullCopies.Origins.of s'.store) (fun _ => le_rfl) le_trans And.right
  exact ⟨P'.state, Q'.state, hpath.imp And.left, hpath'.imp And.left, rfl, rfl,
    leftOut_of_origins hle⟩

/-- UUIDs none of which begins with another one. -/
def unaryEnv : Env :=
  { countingEnv with uuid := fun t => String.ofList (List.replicate t '0' ++ ['1']) }

theorem unaryEnv_uuid_begins {t t' : Nat}
    (h : hasPrefix (unaryEnv.uuid t) (unaryEnv.uuid t') = true) : t' = t := by
  have hprefix : List.replicate t '0' ++ ['1'] <+: List.replicate t' '0' ++ ['1'] := by
    simpa [hasPrefix, unaryEnv] using h
  obtain ⟨l, hl⟩ := hprefix
  -- the only '1' of the longer one is its last character
  have hlength := congrArg List.length hl
  have hone := congrArg (·[t]?) hl
  simp [List.getElem?_append, List.getElem?_replicate] at hlength hone
  grind

/-- A registry without providers. -/
def emptyServer : Server Tables := { relay := none, store := Tables.empty }

theorem unaryEnv_distinctNames : DistinctNames unaryEnv emptyServer where
  injective t t' h := (unaryEnv_uuid_begins (by rw [h]; simp [hasPrefix])).symm
  fresh t _ := ⟨rfl, rfl⟩
  prefixFree id id' hid hid' h := by
    obtain ⟨t, rfl⟩ | hid | hid := hid
    · obtain ⟨t', rfl⟩ | hid' | hid' := hid'
      · rw [unaryEnv_uuid_begins h]
      · cases hid'
      · cases hid'
    · cases hid
    · cases hid

/-- A provider registers, and a session is created on it. -/
def aCreation : List Turn :=
  .call (.registerProvider none { name := "p", address := "h", capacity := none }) ::
    List.replicate 5 (.step 0) ++
  .call (.createSession none
    { providerID := "0", renterID := "r", requested := none, image := "i", wgPublicKey := "k" }) ::
    List.replicate 11 (.step 1)

/-- The provider reports the session while its heartbeat arrives. -/
def aReport : List Turn :=
  [.call (.updateSessionStatus { sessionID := "00", status := "terminated" }), .step 2,
   .call (.heartbeat { providerID := "01", available := none, activeSessions := [] }),
   .step 3, .step 2, .step 2, .step 3, .step 2, .step 2, .step 2, .step 3, .step 2, .step 2,
   .step 2, .step 3]

theorem database_keeps_a_session :
    ∃ P Q : StatementCalls Database,
      interleaveStatements unaryEnv (rowStatements (reliable fun _ => Order.id)) aCreation
        ⟨emptyServer.onStore Database.ofTables, []⟩ = some P ∧
      interleaveStatements unaryEnv (rowStatements (reliable fun _ => Order.id)) aReport P = some Q ∧
      P.state.store.sessions.keys = ["00000000001"] ∧
      (Q.state.store.sessions.lookup "00000000001").map (· .status) = some (.text "terminated") ∧
      LeftOut P.state.store Q.state.store := by
  obtain ⟨P, Q, hP, hQ, hkeys, hstatus, hadm⟩ : ∃ P Q : StatementCalls Database,
      interleaveStatements unaryEnv (rowStatements (reliable fun _ => Order.id)) aCreation
        ⟨emptyServer.onStore Database.ofTables, []⟩ = some P ∧
      interleaveStatements unaryEnv (rowStatements (reliable fun _ => Order.id)) aReport P = some Q ∧
      P.state.store.sessions.keys = ["00000000001"] ∧
      (Q.state.store.sessions.lookup "00000000001").map (· .status) = some (.text "terminated") ∧
      ∀ x ∈ statementTrace unaryEnv (rowStatements (reliable fun _ => Order.id)) aCreation
          ⟨emptyServer.onStore Database.ofTables, []⟩ ++
        statementTrace unaryEnv (rowStatements (reliable fun _ => Order.id)) aReport P,
        Admissible x.1 := ⟨_, _, rfl, rfl, rfl, rfl, by decide +kernel⟩
  obtain ⟨s₁, s₂, -, -, -, -, hleft⟩ :=
    database_keeps_full_copies unaryEnv_distinctNames hP hQ hadm (fun _ => Order.id)
  exact ⟨P, Q, hP, hQ, hkeys, hstatus, hleft⟩

end PeerCompute.Registry
