import PeerCompute.Store.Postgres

/-! A lookup by prefix is two statements, and the database may change between them. -/

namespace PeerCompute.PostgresStore

open PeerCompute.Data PeerCompute.Plugin

/-- The answer of the first statement, or if it finds nothing, that of the second. -/
def orElse {α : Type} (found like : Except StoreError α) : Except StoreError α :=
  match found with
  | .ok x => .ok x
  | .error _ => like

/-- A store whose lookups by prefix are made of two calls: one by the whole ID, and one for the IDs
that begin with it. -/
structure Statements (σ : Type) extends Store σ where
  findProvider : Nat → σ → String → Except StoreError (Ref ProviderRecord)
  likeProvider : Nat → σ → String → Except StoreError (Ref ProviderRecord)
  findSession : Nat → σ → String → Except StoreError (Ref SessionRecord)
  likeSession : Nat → σ → String → Except StoreError (Ref SessionRecord)
  lookup_provider : ∀ t s p,
    getProviderByPrefix t s p = orElse (findProvider t s p) (likeProvider t s p)
  lookup_session : ∀ t s p,
    getSessionByPrefix t s p = orElse (findSession t s p) (likeSession t s p)

/-- `T` on the image of a state does what `S` does on the state. -/
structure Statements.Represents {σ τ : Type} (T : Statements τ) (S : Statements σ) (f : σ → τ) :
    Prop where
  put_provider : ∀ t s ref, T.putProvider t (f s) ref = (S.putProvider t s ref).map (Prod.map id f)
  get_provider : ∀ t s id, T.getProvider t (f s) id = S.getProvider t s id
  find_provider : ∀ t s p, T.findProvider t (f s) p = S.findProvider t s p
  like_provider : ∀ t s p, T.likeProvider t (f s) p = S.likeProvider t s p
  list_providers : ∀ t s filter, T.listProviders t (f s) filter = S.listProviders t s filter
  update_heartbeat : ∀ t s id heartbeat,
    T.updateHeartbeat t (f s) id heartbeat = (S.updateHeartbeat t s id heartbeat).map f
  put_session : ∀ t s ref, T.putSession t (f s) ref = (S.putSession t s ref).map (Prod.map id f)
  find_session : ∀ t s p, T.findSession t (f s) p = S.findSession t s p
  like_session : ∀ t s p, T.likeSession t (f s) p = S.likeSession t s p
  list_sessions : ∀ t s filter, T.listSessions t (f s) filter = S.listSessions t s filter
  terminated : ∀ t s ids providerID,
    T.getTerminatedSessionIDs t (f s) ids providerID = S.getTerminatedSessionIDs t s ids providerID
  provider : ∀ s id, T.provider (f s) id = S.provider s id
  session : ∀ s id, T.session (f s) id = S.session s id
  assign_provider : ∀ s id a, T.assignProvider (f s) id a = f (S.assignProvider s id a)
  assign_session : ∀ s id a, T.assignSession (f s) id a = f (S.assignSession s id a)

/-- `SELECT … WHERE id LIKE $1 LIMIT 2` and the loop over its rows. -/
def Backend.likeRow {V : Type} (B : Backend) (t : Nat) (m : Map String V) (p : String) :
    Except StoreError V :=
  match B.byPrefix t m p with
  | .error e => .error e
  | .ok id => match m.lookup id with
    | none => .error .notFound
    | some x => .ok x

theorem Backend.likeRow_eq_ok {V : Type} {B : Backend} {t : Nat} {m : Map String V} {p : String}
    {x : V} (h : B.likeRow t m p = .ok x) : ∃ id, m.lookup id = some x := by
  unfold likeRow at h
  split at h
  · cases h
  next id _ =>
    split at h
    · cases h
    next y hy =>
      cases h
      exact ⟨id, hy⟩

theorem Backend.lookup_eq_orElse {V R : Type} (B : Backend) (t : Nat) (m : Map String V) (p : String)
    (f : V → R) :
    (B.lookup t m p).map f = orElse ((B.byID t m p).map f) ((B.likeRow t m p).map f) := by
  unfold lookup likeRow
  cases B.byID t m p with
  | ok x => rfl
  | error e => rfl

def tableStatements (B : Backend) : Statements Tables where
  toStore := tableStore B
  findProvider t m p := (B.byID t m.providers p).map .own
  likeProvider t m p := (B.likeRow t m.providers p).map .own
  findSession t m p := (B.byID t m.sessions p).map .own
  likeSession t m p := (B.likeRow t m.sessions p).map .own
  lookup_provider t m p := B.lookup_eq_orElse t m.providers p Ref.own
  lookup_session t m p := B.lookup_eq_orElse t m.sessions p Ref.own

end PeerCompute.PostgresStore
