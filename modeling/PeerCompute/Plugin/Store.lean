import PeerCompute.Plugin.Records

namespace PeerCompute.Plugin

/-- The `plugin.Store` interface over store states `σ`.  Each call carries the moment at which
it is made, on which what the store's environment decides (a failing connection, the order of a
map iteration) may depend.  A call that returns an error leaves the state as it was. -/
structure Store (σ : Type) where
  putProvider : Nat → σ → Ref ProviderRecord → Except StoreError (Ref ProviderRecord × σ)
  getProvider : Nat → σ → String → Except StoreError (Ref ProviderRecord)
  getProviderByPrefix : Nat → σ → String → Except StoreError (Ref ProviderRecord)
  listProviders : Nat → σ → ProviderFilter → Except StoreError (List (Ref ProviderRecord))
  updateHeartbeat : Nat → σ → String → Int → Except StoreError σ
  putSession : Nat → σ → Ref SessionRecord → Except StoreError (Ref SessionRecord × σ)
  getSessionByPrefix : Nat → σ → String → Except StoreError (Ref SessionRecord)
  listSessions : Nat → σ → SessionFilter → Except StoreError (List (Ref SessionRecord))
  getTerminatedSessionIDs : Nat → σ → List String → String → Except StoreError (List String)
  /-- Whether a lookup hands out the stored record itself, or a fresh copy of it. -/
  shared : Bool
  provider : σ → String → Option ProviderRecord
  session : σ → String → Option SessionRecord
  /-- What assigning a field of a stored record does, when the store hands those out. -/
  assignProvider : σ → String → ProviderAssign → σ
  assignSession : σ → String → SessionAssign → σ

/-- The columns a `PutSession` of `r` overwrites in the row of `old`. -/
def SessionRecord.overwrite (old r : SessionRecord) : SessionRecord :=
  { old with
    status := r.status, containerID := r.containerID, sshEndpoint := r.sshEndpoint,
    connectionMode := r.connectionMode, wgPublicKey := r.wgPublicKey, wgEndpoint := r.wgEndpoint,
    wgProviderIP := r.wgProviderIP, wgRenterIP := r.wgRenterIP, terminatedAt := r.terminatedAt }

theorem SessionRecord.overwrite_of_origin {old r : SessionRecord} (h : r.origin = old.origin) :
    old.overwrite r = r := by
  cases old
  cases r
  simp only [origin, mk.injEq] at h
  simp [overwrite, h]

namespace Store

variable {σ : Type}

/-- The reference a lookup of the stored record `r` answers with. -/
def handle (S : Store σ) (r : SessionRecord) : Ref SessionRecord :=
  if S.shared then .stored r.id else .own r

/-- What is stored when `r` is put over `old`. -/
def merge (S : Store σ) (old : Option SessionRecord) (r : SessionRecord) : SessionRecord :=
  match old with
  | none => r
  | some old => if S.shared then r else old.overwrite r

def loadSession (S : Store σ) (s : σ) : Ref SessionRecord → SessionRecord
  | .own r => r
  | .stored id => (S.session s id).getD {}

def loadProvider (S : Store σ) (s : σ) : Ref ProviderRecord → ProviderRecord
  | .own r => r
  | .stored id => (S.provider s id).getD {}

/-- `rec.F = v`: the pointer and the store after the assignment. -/
def setSession (S : Store σ) (s : σ) (a : SessionAssign) :
    Ref SessionRecord → Ref SessionRecord × σ
  | .own r => (.own (a.apply r), s)
  | .stored id => (.stored id, S.assignSession s id a)

def setProvider (S : Store σ) (s : σ) (a : ProviderAssign) :
    Ref ProviderRecord → Ref ProviderRecord × σ
  | .own r => (.own (a.apply r), s)
  | .stored id => (.stored id, S.assignProvider s id a)

/-- What the handlers rely on: a lookup answers with a stored record, a put stores its record
under its ID and touches no other session, and provider calls touch no session. -/
structure Lawful (S : Store σ) : Prop where
  session_id : ∀ {s id r}, S.session s id = some r → r.id = id
  get_session : ∀ {t s p ref}, S.getSessionByPrefix t s p = .ok ref →
    ∃ r, S.session s r.id = some r ∧ ref = S.handle r
  put_own : ∀ {t s r ref s'}, S.putSession t s (.own r) = .ok (ref, s') → ref = S.handle r ∧
    ∀ id, S.session s' id =
      if id = r.id then some (S.merge (S.session s r.id) r) else S.session s id
  put_stored : ∀ {t s id ref s'}, S.putSession t s (.stored id) = .ok (ref, s') →
    ref = .stored id ∧ S.session s' = S.session s
  put_shared : S.shared = true → ∀ t s ref, ∃ x, S.putSession t s ref = .ok x
  assign_session : ∀ {s id id' a}, S.session (S.assignSession s id a) id' =
    if id' = id then (S.session s id).map a.apply else S.session s id'
  put_provider : ∀ {t s ref ref' s'}, S.putProvider t s ref = .ok (ref', s') →
    S.session s' = S.session s
  update_heartbeat : ∀ {t s id now s'}, S.updateHeartbeat t s id now = .ok s' →
    S.session s' = S.session s
  assign_provider : ∀ {s id a}, S.session (S.assignProvider s id a) = S.session s

/-- A lookup hands out a copy of its own of a stored record. -/
structure Copies (S : Store σ) : Prop where
  shared : S.shared = false
  get_provider : ∀ {t s id ref}, S.getProvider t s id = .ok ref →
    ∃ r, S.provider s r.id = some r ∧ ref = .own r
  get_provider_by : ∀ {t s p ref}, S.getProviderByPrefix t s p = .ok ref →
    ∃ r, S.provider s r.id = some r ∧ ref = .own r
  list_providers : ∀ {t s filter refs}, S.listProviders t s filter = .ok refs →
    ∀ ref ∈ refs, ∃ r, S.provider s r.id = some r ∧ ref = .own r

/-- A full ID finds its session, and a listing shows stored sessions only. -/
structure Exact (S : Store σ) : Prop where
  get_session : ∀ {t s id r}, S.session s id = some r →
    S.getSessionByPrefix t s id = .ok (S.handle r)
  list_sessions : ∀ {t s filter refs}, S.listSessions t s filter = .ok refs →
    ∀ ref ∈ refs, ∃ r, S.session s r.id = some r ∧ ref = S.handle r

/-- A listing shows stored sessions only. -/
def Lists (S : Store σ) : Prop := ∀ t s filter refs, S.listSessions t s filter = .ok refs →
  ∀ ref ∈ refs, ∃ r, S.session s r.id = some r ∧ ref = S.handle r

theorem Exact.lists {S : Store σ} (h : S.Exact) : S.Lists := fun _ _ _ _ hr => h.list_sessions hr

/-- No write of a session record is refused. -/
def NeverFails (S : Store σ) : Prop := ∀ t s ref, ∃ x, S.putSession t s ref = .ok x

@[simp] theorem merge_status (S : Store σ) (old : Option SessionRecord) (r : SessionRecord) :
    (S.merge old r).status = r.status := by
  unfold merge
  split
  next => rfl
  next => split <;> rfl

@[simp] theorem merge_ips (S : Store σ) (old : Option SessionRecord) (r : SessionRecord) :
    (S.merge old r).wgProviderIP = r.wgProviderIP ∧ (S.merge old r).wgRenterIP = r.wgRenterIP := by
  unfold merge
  split
  next => exact ⟨rfl, rfl⟩
  next => split <;> exact ⟨rfl, rfl⟩

theorem load_handle (S : Store σ) {s : σ} {r : SessionRecord} (h : S.session s r.id = some r) :
    S.loadSession s (S.handle r) = r := by
  unfold handle
  split
  next => simp [loadSession, h]
  next => rfl

theorem merge_of_origin (S : Store σ) {old r : SessionRecord} (h : r.origin = old.origin) :
    S.merge (some old) r = r := by
  simp only [merge]
  split
  next => rfl
  next => exact SessionRecord.overwrite_of_origin h

end Store

end PeerCompute.Plugin
