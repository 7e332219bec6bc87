import PeerCompute.Interleaving.Coupling
import PeerCompute.Plugin.MemoryStore
import PeerCompute.Registry.HandlerSpecs
import PeerCompute.Store.FullCopies

/-! The store that hands out its own records, against the store that keeps full copies, when one
call is executed at a time. -/

namespace PeerCompute.Registry

open PeerCompute.Data PeerCompute.Interleaving PeerCompute.Plugin PeerCompute.Computev1
  PeerCompute.PostgresStore Prog

section

variable {m m' : Tables}

theorem tables_ext (hp : m.providers = m'.providers) (hs : m.sessions = m'.sessions) : m = m' := by
  cases m
  cases m'
  cases hp
  cases hs
  rfl

end

/-- The references to the listed records, in a store that hands out its own. -/
theorem stored_listed {V : Type} {m : Map String V} {ids : List String} {p : V → Bool}
    {key : V → String} (hkey : ∀ {id x}, m.lookup id = some x → key x = id) :
    (ids.filter fun id => (m.lookup id).any p).map Ref.stored =
      (listed m ids p).map (fun x => (Ref.stored (key x) : Ref V)) := by
  rw [← map_listed hkey, List.map_map]
  rfl

/-- The two servers are the same, but for what has been changed in the store. -/
def Overlaid (f : Tables → Tables) (s t : Server Tables) : Prop := s = { t with store := f t.store }

/-- The actions that have nothing to do with the store. -/
def Storeless : Action → Prop
  | .now | .newUUID | .allocateTunnelIPs _ | .reclaimTunnelIndex _ | .putCandidates _ _ _
  | .exchangeCandidates _ _ _ | .deleteCandidates _ | .relayAddr | .registerRelay _ _
  | .invalidateRelay _ | .meetsMinimum _ _ | .recordOutcome _ _ | .onProviderRegistered _ => True
  | _ => False

section

variable {E : Env} {S S' : Store Tables} {f : Tables → Tables} {s t : Server Tables}

theorem storeless_exec {a : Action} (ha : Storeless a) (h : Overlaid f s t) :
    Option.Rel (fun x y => x.1 = y.1 ∧ Overlaid f x.2 y.2 ∧ y.2.store = t.store) (exec E S a s)
      (exec E S' a t) := by
  subst h
  obtain ⟨candidates, tunnels, relay, store, outcomes, clock⟩ := t
  cases a with
  | allocateTunnelIPs id =>
    simp only [exec, Server.act]
    cases tunnels.allocateTunnelIPs id with
    | none => exact .none
    | some x => exact .some ⟨rfl, rfl, rfl⟩
  | registerRelay token id =>
    cases relay with
    | none => exact .some ⟨rfl, rfl, rfl⟩
    | some rs =>
      simp only [exec, Server.act]
      cases rs.registerSession (E.nowNano clock) (E.free clock) token id with
      | none => exact .none
      | some x => exact .some ⟨rfl, rfl, rfl⟩
  | getProvider | getProviderByPrefix | putProvider | listProviders | updateHeartbeat |
    loadProvider | setProvider | getSessionByPrefix | putSession | listSessions |
    getTerminatedSessionIDs | loadSession | setSession => cases ha
  | _ => exact .some ⟨rfl, rfl, rfl⟩

end

section

variable {E : Env} {order : Nat → Order String} {s t : Server Tables} {α β : Type}
  {Q : α → Server Tables → β → Server Tables → Prop} {r : SessionRecord}

/-- The two programs, one over each of the stores. -/
abbrev Twins (E : Env) (order : Nat → Order String) (p : Prog signature α) (q : Prog signature β)
    (s t : Server Tables) (Q : α → Server Tables → β → Server Tables → Prop) : Prop :=
  Couples (exec E (memoryStore order)) (exec E (fullCopies order).toStore) p q s t Q

theorem Overlaid.act {f : Tables → Tables} (h : Overlaid f s t) {a : Action} (ha : Storeless a)
    {k : a.Res → Prog signature α} {k' : a.Res → Prog signature β}
    (hk : ∀ x s' t', Overlaid f s' t' → Twins E order (k x) (k' x) s' t' Q) :
    Twins E order (perform (S := signature) a >>= k) (perform (S := signature) a >>= k') s t Q := by
  refine couples_act (rel_imp (fun x y hxy => ?_) (storeless_exec ha h))
  rw [← hxy.1]
  exact hk x.1 x.2 y.2 hxy.2.1

theorem twins_act {a : Action} (ha : Storeless a) {k : a.Res → Prog signature α}
    {k' : a.Res → Prog signature β}
    (hk : ∀ x s', s'.store = s.store → Twins E order (k x) (k' x) s' s' Q) :
    Twins E order (perform (S := signature) a >>= k) (perform (S := signature) a >>= k') s s Q := by
  refine couples_act (rel_imp (fun x y hxy => ?_) (storeless_exec (f := fun m => m) ha rfl))
  obtain ⟨heq, hsame, hstore⟩ := hxy
  have hservers : x.2 = y.2 := hsame
  rw [← heq, hservers]
  exact hk x.1 y.2 hstore

/-- The same results and the same servers. -/
def Same {α : Type} (x : α) (s : Server Tables) (y : α) (t : Server Tables) : Prop := x = y ∧ s = t

theorem twins_ret {x : α} : Twins E order (.ret x) (.ret x) s s Same :=
  couples_ret ⟨rfl, rfl⟩

/-- The actions that are the same over both stores. -/
def Agreed : Action → Prop
  | .updateHeartbeat _ _ | .getTerminatedSessionIDs _ _ => True
  | a => Storeless a

theorem agreed_exec {a : Action} (ha : Agreed a) :
    exec E (memoryStore order) a s = exec E (fullCopies order).toStore a s := by
  cases a with
  | getProvider | getProviderByPrefix | putProvider | listProviders | loadProvider | setProvider |
    getSessionByPrefix | putSession | listSessions | loadSession | setSession => cases ha
  | _ => rfl

theorem twins_of_uses {p : Prog signature α} (hp : p.Uses Agreed) : Twins E order p p s s Same := by
  refine hp.couples (R := Eq) (fun a ha s t h => ?_) rfl
  subst h
  rw [agreed_exec ha]
  cases exec E (fullCopies order).toStore a s with
  | none => exact .none
  | some x => exact .some ⟨rfl, rfl⟩

/-! ## Records -/

/-- The sessions or the providers: their table, and what the handlers do with a record of it, over a
store that hands out its own records and over one that keeps full copies. -/
structure Kind (V A : Type) where
  table : Tables → Map String V
  key : V → String
  apply : V → A → V
  insert : Tables → V → Tables
  assign : Tables → String → A → Tables
  default : V
  get : String → Prog signature (Except StoreError (Ref V))
  load : Ref V → Prog signature V
  set : Ref V → A → Prog signature (Ref V)
  put : Ref V → Prog signature (Except StoreError (Ref V))
  key_eq : ∀ {m id r}, (table m).lookup id = some r → key r = id
  key_apply : ∀ {a r}, key (apply r a) = key r
  lookup_insert : ∀ {m r}, (table (insert m r)).lookup (key r) = some r
  insert_insert : ∀ {m r r'}, key r' = key r → insert (insert m r) r' = insert m r'
  assign_eq : ∀ {m r a}, (table m).lookup (key r) = some r →
    assign m (key r) a = insert m (apply r a)
  get_memory : ∀ {E order s p}, (get p).run (exec E (memoryStore order)) s =
    some ((memoryLookup (order s.clock) (table s.store) p).map .stored, s.tick)
  get_copies : ∀ {E order s p}, (get p).run (exec E (fullCopies order).toStore) s =
    some ((copyOf (order s.clock) (table s.store) default p).map .own, s.tick)
  load_memory : ∀ {E order s id}, (load (.stored id)).run (exec E (memoryStore order)) s =
    some (((table s.store).lookup id).getD default, s.tick)
  load_copies : ∀ {E order s r}, (load (.own r)).run (exec E (fullCopies order).toStore) s =
    some (r, s.tick)
  set_memory : ∀ {E order s id a}, (set (.stored id) a).run (exec E (memoryStore order)) s =
    some (.stored id, { s.tick with store := assign s.store id a })
  set_copies : ∀ {E order s r a}, (set (.own r) a).run (exec E (fullCopies order).toStore) s =
    some (.own (apply r a), s.tick)
  put_memory : ∀ {E order s id}, (put (.stored id)).run (exec E (memoryStore order)) s =
    some (.ok (.stored id), s.tick)
  put_memory_own : ∀ {E order s r}, (put (.own r)).run (exec E (memoryStore order)) s =
    some (.ok (.stored (key r)), { s.tick with store := insert s.store r })
  put_copies : ∀ {E order s r}, (put (.own r)).run (exec E (fullCopies order).toStore) s =
    some (.ok (.own r), { s.tick with store := insert s.store r })

def sessionKind : Kind SessionRecord SessionAssign where
  table := Tables.sessions
  key := SessionRecord.id
  apply := SessionAssign.apply
  insert := Tables.insertSession
  assign := Tables.assignSession
  default := {}
  get := Call.getSessionByPrefix
  load := Call.loadSession
  set := Call.setSession
  put := Call.putSession
  key_eq {m id r} h := m.session_id h
  key_apply {a r} := a.id_apply r
  lookup_insert := AList.lookup_insert _
  insert_insert h := tables_ext rfl (by
    simp only [Tables.insertSession, h]
    exact AList.insert_insert _)
  assign_eq hr := tables_ext rfl (by
    simp only [Tables.assignSession, Tables.insertSession, Map.modify, hr, SessionAssign.id_apply])
  get_memory := rfl
  get_copies := rfl
  load_memory := rfl
  load_copies := rfl
  set_memory := rfl
  set_copies := rfl
  put_memory := rfl
  put_memory_own := rfl
  put_copies := rfl

def providerKind : Kind ProviderRecord ProviderAssign where
  table := Tables.providers
  key := ProviderRecord.id
  apply := ProviderAssign.apply
  insert := Tables.insertProvider
  assign := Tables.assignProvider
  default := {}
  get := Call.getProviderByPrefix
  load := Call.loadProvider
  set := Call.setProvider
  put := Call.putProvider
  key_eq {m id r} h := m.provider_id h
  key_apply {a r} := a.id_apply r
  lookup_insert := AList.lookup_insert _
  insert_insert h := tables_ext (by
    simp only [Tables.insertProvider, h]
    exact AList.insert_insert _) rfl
  assign_eq hr := tables_ext (by
    simp only [Tables.assignProvider, Tables.insertProvider, Map.modify, hr,
      ProviderAssign.id_apply]) rfl
  get_memory := rfl
  get_copies := rfl
  load_memory := rfl
  load_copies := rfl
  set_memory := rfl
  set_copies := rfl
  put_memory := rfl
  put_memory_own := rfl
  put_copies := rfl

namespace Kind

variable {V A : Type} (K : Kind V A) {r : V} {a : A}

/-- A lookup: the stored record itself, and a copy of it. -/
theorem twins_get {id : String} {k : Except StoreError (Ref V) → Prog signature α}
    {k' : Except StoreError (Ref V) → Prog signature β}
    (herror : ∀ e s', Twins E order (k (.error e)) (k' (.error e)) s' s' Q)
    (hok : ∀ r s', memoryLookup (order s.clock) (K.table s.store) id = .ok (K.key r) →
      (K.table s'.store).lookup (K.key r) = some r →
      Twins E order (k (.ok (.stored (K.key r)))) (k' (.ok (.own r))) s' s' Q) :
    Twins E order (K.get id >>= k) (K.get id >>= k') s s Q := by
  refine couples_run K.get_memory K.get_copies ?_
  cases hlookup : memoryLookup (order s.clock) (K.table s.store) id with
  | error e =>
    simp only [copyOf, hlookup]
    exact herror e s.tick
  | ok id' =>
    obtain ⟨r, hr⟩ := memoryLookup_eq_ok hlookup
    simp only [copyOf, hlookup, Except.map, hr, Option.getD_some]
    obtain rfl := K.key_eq hr
    exact hok r s.tick hlookup hr

theorem run_load (hr : (K.table s.store).lookup (K.key r) = some r) :
    (K.load (.stored (K.key r))).run (exec E (memoryStore order)) s = some (r, s.tick) := by
  rw [K.load_memory, hr]
  rfl

theorem twins_load (hr : (K.table s.store).lookup (K.key r) = some r)
    {k : V → Prog signature α} {k' : V → Prog signature β}
    (hk : ∀ s', s'.store = s.store → Twins E order (k r) (k' r) s' s' Q) :
    Twins E order (K.load (.stored (K.key r)) >>= k) (K.load (.own r) >>= k') s s Q :=
  couples_run (K.run_load hr) K.load_copies (hk s.tick rfl)

/-- The handler's copy of a record is not stored yet. -/
abbrev Drafted (K : Kind V A) (r : V) : Server Tables → Server Tables → Prop :=
  Overlaid (fun m => K.insert m r)

/-- The first assignment to a record. -/
theorem twins_set (hr : (K.table s.store).lookup (K.key r) = some r)
    {k : Ref V → Prog signature α} {k' : Ref V → Prog signature β}
    (hk : ∀ s' t', K.Drafted (K.apply r a) s' t' → t'.store = s.store →
      Twins E order (k (.stored (K.key (K.apply r a)))) (k' (.own (K.apply r a))) s' t' Q) :
    Twins E order (K.set (.stored (K.key r)) a >>= k) (K.set (.own r) a >>= k') s s Q := by
  refine couples_run K.set_memory K.set_copies ?_
  rw [← K.key_apply (a := a)]
  refine hk _ s.tick ?_ rfl
  rw [K.key_apply, K.assign_eq hr]
  rfl

/-- A record both handlers have made. -/
theorem twins_put {k : Except StoreError (Ref V) → Prog signature α}
    {k' : Except StoreError (Ref V) → Prog signature β}
    (hk : ∀ s', (K.table s'.store).lookup (K.key r) = some r →
      Twins E order (k (.ok (.stored (K.key r)))) (k' (.ok (.own r))) s' s' Q) :
    Twins E order (K.put (.own r) >>= k) (K.put (.own r) >>= k') s s Q :=
  couples_run K.put_memory_own K.put_copies (hk _ K.lookup_insert)

/-- Each program has its reference to the record it is changing. -/
def Drafts (x : Ref V) (s : Server Tables) (y : Ref V) (t : Server Tables) : Prop :=
  ∃ r, x = .stored (K.key r) ∧ y = .own r ∧ K.Drafted r s t

namespace Drafted

variable {K}

theorem load (h : K.Drafted r s t) {k : V → Prog signature α} {k' : V → Prog signature β}
    (hk : ∀ s' t', K.Drafted r s' t' → Twins E order (k r) (k' r) s' t' Q) :
    Twins E order (K.load (.stored (K.key r)) >>= k) (K.load (.own r) >>= k') s t Q := by
  subst h
  exact couples_run (K.run_load K.lookup_insert) K.load_copies (hk _ t.tick rfl)

theorem set (h : K.Drafted r s t) {k : Ref V → Prog signature α} {k' : Ref V → Prog signature β}
    (hk : ∀ s' t', K.Drafted (K.apply r a) s' t' →
      Twins E order (k (.stored (K.key (K.apply r a)))) (k' (.own (K.apply r a))) s' t' Q) :
    Twins E order (K.set (.stored (K.key r)) a >>= k) (K.set (.own r) a >>= k') s t Q := by
  subst h
  refine couples_run K.set_memory K.set_copies ?_
  rw [← K.key_apply (a := a)]
  refine hk _ t.tick ?_
  rw [K.key_apply, K.assign_eq K.lookup_insert, K.insert_insert K.key_apply]
  rfl

/-- The copy is stored, and the stores are the same again. -/
theorem put (h : K.Drafted r s t) {k : Except StoreError (Ref V) → Prog signature α}
    {k' : Except StoreError (Ref V) → Prog signature β}
    (hk : ∀ s', s'.store = K.insert t.store r → (K.table s'.store).lookup (K.key r) = some r →
      Twins E order (k (.ok (.stored (K.key r)))) (k' (.ok (.own r))) s' s' Q) :
    Twins E order (K.put (.stored (K.key r)) >>= k) (K.put (.own r) >>= k') s t Q := by
  subst h
  exact couples_run K.put_memory K.put_copies (hk _ rfl K.lookup_insert)

end Drafted

end Kind

/-! ## Sessions -/

theorem twins_putSessionAnd (h : sessionKind.Drafted r s t) {resp : Response} :
    Twins E order (putSessionAnd (.stored r.id) resp) (putSessionAnd (.own r) resp) s t Same :=
  h.put fun _ _ _ => twins_ret

theorem twins_setNonempty (h : sessionKind.Drafted r s t) (v : String) (f : String → SessionAssign) :
    Twins E order (setNonempty v f (.stored r.id)) (setNonempty v f (.own r)) s t
      sessionKind.Drafts := by
  unfold Registry.setNonempty
  split
  · exact h.set fun _ _ h' => couples_ret ⟨_, rfl, rfl, h'⟩
  · exact couples_ret ⟨r, rfl, rfl, h⟩

theorem twins_setReported (h : sessionKind.Drafted r s t) (req : UpdateSessionStatusRequest) :
    Twins E order (setReported req (.stored r.id)) (setReported req (.own r)) s t
      sessionKind.Drafts := by
  refine Couples.bind ((twins_setNonempty h _ _).mono ?_)
  rintro _ s₁ _ t₁ ⟨r₁, rfl, rfl, h₁⟩
  refine Couples.bind ((twins_setNonempty h₁ _ _).mono ?_)
  rintro _ s₂ _ t₂ ⟨r₂, rfl, rfl, h₂⟩
  refine Couples.bind ((twins_setNonempty h₂ _ _).mono ?_)
  rintro _ s₃ _ t₃ ⟨r₃, rfl, rfl, h₃⟩
  exact twins_setNonempty h₃ _ _

theorem twins_closeOut (h : sessionKind.Drafted r s t) (id : String) :
    Twins E order (closeOut id (.stored r.id)) (closeOut id (.own r)) s t sessionKind.Drafts := by
  refine h.act (by trivial) fun _ s₁ t₁ h₁ => h₁.act (by trivial) fun now s₂ t₂ h₂ => ?_
  exact Kind.Drafted.set h₂ fun s₃ t₃ h₃ => h₃.act (by trivial) fun _ s₄ t₄ h₄ =>
    couples_ret ⟨_, rfl, rfl, h₄⟩

/-- The same results, and if `b` is false the same servers. -/
def SameUnless {α : Type} (b : Bool) (x : α) (s : Server Tables) (y : α) (t : Server Tables) :
    Prop :=
  x = y ∧ (b = false → s = t)

theorem twins_unless {p q : Prog signature α} (b : Bool) (h : Twins E order p q s t Same) :
    Twins E order p q s t (SameUnless b) :=
  h.mono fun _ _ _ _ h' => ⟨h'.1, fun _ => h'.2⟩

/-- The request is for a session to be running, without an endpoint. -/
def refused (req : UpdateSessionStatusRequest) : Bool :=
  req.status = "running" && req.wgEndpoint = ""

theorem twins_finishUpdate (h : sessionKind.Drafted r s t) (req : UpdateSessionStatusRequest) :
    Twins E order (finishUpdate req (.stored r.id)) (finishUpdate req (.own r)) s t
      (SameUnless (refused req)) := by
  unfold Registry.finishUpdate
  split
  next hrunning =>
    split
    next hendpoint =>
      -- the assignments stay in the store that hands out its records
      refine couples_ret ⟨rfl, fun hreq => ?_⟩
      simp [refused, hrunning, hendpoint] at hreq
    next =>
      refine h.load fun s₁ t₁ h₁ => ?_
      split
      · exact h₁.set fun s₂ t₂ h₂ => twins_unless _ (twins_putSessionAnd h₂)
      · exact twins_unless _ (twins_putSessionAnd h₁)
  next => exact twins_unless _ (twins_putSessionAnd h)

/-- The call is refused once it has changed the record it has found. -/
def spurned (order : Nat → Order String) (s : Server Tables) : Event → Bool
  | .rpc (.updateSessionStatus req) =>
    refused req && (memoryLookup (order s.clock) s.store.sessions req.sessionID).isOk
  | _ => false

theorem twins_updateSessionStatus (req : UpdateSessionStatusRequest) :
    Twins E order (updateSessionStatus req) (updateSessionStatus req) s s
      (SameUnless (spurned order s (.rpc (.updateSessionStatus req)))) := by
  refine sessionKind.twins_get (fun _ _ => twins_unless _ twins_ret) fun r s₁ hfound hr => ?_
  have hfound : memoryLookup (order s.clock) s.store.sessions req.sessionID = .ok r.id := hfound
  have hspurned : spurned order s (.rpc (.updateSessionStatus req)) = refused req := by
    simp [spurned, hfound, Except.isOk, Except.toBool]
  have hrest : ∀ x s' y t', sessionKind.Drafts x s' y t' → Twins E order
      (setReported req x >>= finishUpdate req) (setReported req y >>= finishUpdate req) s' t'
        (SameUnless (refused req)) := by
    rintro _ s₄ _ t₄ ⟨r₄, rfl, rfl, h₄⟩
    refine Couples.bind ((twins_setReported h₄ req).mono ?_)
    rintro _ s₅ _ t₅ ⟨r₅, rfl, rfl, h₅⟩
    exact twins_finishUpdate h₅ req
  rw [hspurned]
  refine sessionKind.twins_load hr fun s₂ hs₂ => ?_
  rw [← hs₂] at hr
  refine sessionKind.twins_set hr fun s₃ t₃ h₃ _ => ?_
  dsimp only
  split
  · exact Couples.bind ((twins_closeOut h₃ r.id).mono hrest)
  · exact hrest _ s₃ _ t₃ ⟨_, rfl, rfl, h₃⟩

theorem twins_terminateSession (req : TerminateSessionRequest) :
    Twins E order (terminateSession req) (terminateSession req) s s Same := by
  refine sessionKind.twins_get (fun _ _ => twins_ret) fun r s₁ _ hr => ?_
  refine sessionKind.twins_set hr fun s₂ t₂ h₂ _ => h₂.act (by trivial) fun now s₃ t₃ h₃ => ?_
  refine Kind.Drafted.set h₃ fun s₄ t₄ h₄ => h₄.put fun s₅ _ hr₅ => ?_
  exact sessionKind.twins_load hr₅ fun s₆ _ =>
    twins_of_uses (uses_cleanUp _ trivial trivial trivial trivial)

theorem twins_getSession (req : GetSessionRequest) :
    Twins E order (getSession req) (getSession req) s s Same :=
  sessionKind.twins_get (fun _ _ => twins_ret) fun _ _ _ hr =>
    sessionKind.twins_load hr fun _ _ => twins_ret

theorem twins_exchangeCandidates (req : ExchangeCandidatesRequest) :
    Twins E order (exchangeCandidates req) (exchangeCandidates req) s s Same := by
  refine sessionKind.twins_get (fun _ _ => twins_ret) fun r _ _ hr =>
    sessionKind.twins_load hr fun _ _ => twins_of_uses ?_
  refine ⟨trivial, fun _ => ⟨trivial, fun other => ?_⟩⟩
  cases other with
  | none => trivial
  | some cs => trivial

theorem twins_reportConnectionResult (req : ReportConnectionResultRequest) :
    Twins E order (reportConnectionResult req) (reportConnectionResult req) s s Same := by
  refine sessionKind.twins_get (fun _ _ => twins_ret) fun r s₁ _ hr => ?_
  change Twins E order (if req.useRelay then _ else _) (if req.useRelay then _ else _) s₁ s₁ Same
  split
  · refine sessionKind.twins_set hr fun s₂ t₂ h₂ _ => h₂.load fun s₃ t₃ h₃ => ?_
    exact h₃.act (by trivial) fun _ s₄ t₄ h₄ => twins_putSessionAnd h₄
  · exact sessionKind.twins_set hr fun s₂ t₂ h₂ _ => twins_putSessionAnd h₂

theorem twins_listSessions {filter : SessionFilter}
    {k : Except StoreError (List (Ref SessionRecord)) → Prog signature α}
    {k' : Except StoreError (List (Ref SessionRecord)) → Prog signature β}
    (hk : ∀ (rs : List SessionRecord) s', (∀ r ∈ rs, s'.store.sessions.lookup r.id = some r) →
      Twins E order (k (.ok (rs.map fun r => .stored r.id))) (k' (.ok (rs.map .own))) s' s' Q) :
    Twins E order (Call.listSessions filter >>= k) (Call.listSessions filter >>= k') s s Q := by
  obtain ⟨-, hmem⟩ := listed_keys (p := filter.admits) (order s.clock) s.store.session_id
  refine couples_perform ?_ rfl (hk (listed s.store.sessions _ filter.admits) s.tick fun r hr =>
    ((hmem r).mp hr).1)
  exact congrArg (fun refs => some (Except.ok refs, s.tick)) (stored_listed s.store.session_id)

theorem twins_loadSessions {rs : List SessionRecord}
    (hrs : ∀ r ∈ rs, s.store.sessions.lookup r.id = some r) :
    Twins E order (loadSessions (rs.map fun r => .stored r.id))
      (loadSessions (rs.map .own)) s s Same := by
  induction rs generalizing s with
  | nil => exact twins_ret
  | cons r rs ih =>
    refine sessionKind.twins_load (hrs r (.head _)) fun s₁ hs₁ => ?_
    rw [← hs₁] at hrs
    refine Couples.bind ((ih fun r' hr' => hrs r' (.tail _ hr')).mono ?_)
    rintro out s' _ _ ⟨rfl, rfl⟩
    exact twins_ret

theorem twins_listProviderSessions (req : ListProviderSessionsRequest) :
    Twins E order (listProviderSessions req) (listProviderSessions req) s s Same := by
  refine twins_listSessions fun rs s₁ hrs => Couples.bind ((twins_loadSessions hrs).mono ?_)
  rintro out s' _ _ ⟨rfl, rfl⟩
  exact twins_ret

end

/-! ## Providers -/

section

variable {E : Env} {order : Nat → Order String} {s t : Server Tables} {α β : Type}
  {Q : α → Server Tables → β → Server Tables → Prop} {r : ProviderRecord}

theorem twins_getProvider {id : String}
    {k : Except StoreError (Ref ProviderRecord) → Prog signature α}
    {k' : Except StoreError (Ref ProviderRecord) → Prog signature β}
    (herror : ∀ e s', Twins E order (k (.error e)) (k' (.error e)) s' s' Q)
    (hok : ∀ r s', s'.store.providers.lookup r.id = some r →
      Twins E order (k (.ok (.stored r.id))) (k' (.ok (.own r))) s' s' Q) :
    Twins E order (Call.getProvider id >>= k) (Call.getProvider id >>= k') s s Q := by
  refine couples_perform (m := s.tick) (n := s.tick) rfl rfl ?_
  cases hlookup : s.store.providers.lookup id with
  | none =>
    simp only [memoryStore, fullCopies, hlookup, Option.isSome_none]
    exact herror _ s.tick
  | some r =>
    simp only [memoryStore, fullCopies, hlookup, Option.isSome_some]
    obtain rfl := s.store.provider_id hlookup
    exact hok r s.tick hlookup

theorem twins_setProviders_drafted (h : providerKind.Drafted r s t) (as : List ProviderAssign) :
    Twins E order (setProviders as (.stored r.id)) (setProviders as (.own r)) s t
      providerKind.Drafts := by
  induction as generalizing r s t with
  | nil => exact couples_ret ⟨r, rfl, rfl, h⟩
  | cons a as ih => exact h.set fun _ _ h' => ih h'

theorem twins_setProviders (hr : s.store.providers.lookup r.id = some r) (a : ProviderAssign)
    (as : List ProviderAssign) :
    Twins E order (setProviders (a :: as) (.stored r.id))
      (setProviders (a :: as) (.own r)) s s providerKind.Drafts :=
  providerKind.twins_set hr fun _ _ h _ => twins_setProviders_drafted h as

theorem twins_finishRegistration {ref : Ref ProviderRecord} {id : String} {m : Server Tables}
    (hmemory : exec E (memoryStore order) (.putProvider ref) s =
      some (Except.ok (Ref.stored r.id), m))
    (hcopy : exec E (fullCopies order).toStore (.putProvider (.own r)) t =
      some (Except.ok (Ref.own r), m))
    (hr : m.store.providers.lookup r.id = some r) :
    Twins E order (finishRegistration ref id) (finishRegistration (.own r) id) s t Same := by
  refine couples_perform hmemory hcopy ?_
  refine twins_act (a := .onProviderRegistered id) trivial fun x s₁ hs₁ => ?_
  cases x with
  | error e => exact twins_ret
  | ok u =>
    rw [← hs₁] at hr
    exact providerKind.twins_load hr fun _ _ => twins_ret

theorem twins_finishRegistration_drafted (h : providerKind.Drafted r s t) (id : String) :
    Twins E order (finishRegistration (.stored r.id) id)
      (finishRegistration (.own r) id) s t Same := by
  subst h
  exact twins_finishRegistration (m := { t.tick with store := t.store.insertProvider r }) rfl rfl
    providerKind.lookup_insert

theorem twins_registerNewProvider (req : RegisterProviderRequest) (now : Int) :
    Twins E order (registerNewProvider req now) (registerNewProvider req now) s s Same :=
  twins_act (by trivial) fun _ s₁ _ => twins_finishRegistration
    (m := { s₁.tick with store := s₁.store.insertProvider _ }) rfl rfl
    providerKind.lookup_insert

theorem twins_registerProvider (ctx : Metadata) (req : RegisterProviderRequest) :
    Twins E order (registerProvider ctx req) (registerProvider ctx req) s s Same := by
  refine twins_act (by trivial) fun now s₁ _ => ?_
  dsimp only
  split
  · exact twins_registerNewProvider req now
  · refine twins_getProvider (fun e s₂ => ?_) fun r s₂ hr => ?_
    · cases e with
      | notFound => exact twins_registerNewProvider req now
      | ambiguousPrefix => exact twins_ret
      | other message => exact twins_ret
    · refine Couples.bind ((twins_setProviders hr _ _).mono ?_)
      rintro _ s₃ _ t₃ ⟨r₃, rfl, rfl, h₃⟩
      exact twins_finishRegistration_drafted h₃ _

theorem twins_finishHeartbeat (req : HeartbeatRequest) (id : String) :
    Twins E order (finishHeartbeat req id) (finishHeartbeat req id) s s Same :=
  twins_of_uses (uses_finishHeartbeat req id trivial)

theorem twins_heartbeat (req : HeartbeatRequest) :
    Twins E order (heartbeat req) (heartbeat req) s s Same := by
  refine providerKind.twins_get (fun _ _ => twins_ret) fun r s₁ _ hr =>
    providerKind.twins_load hr fun s₂ hs₂ => twins_act (by trivial) fun now s₃ hs₃ => ?_
  split
  · rw [← hs₂, ← hs₃] at hr
    refine Couples.bind ((twins_setProviders hr _ _).mono ?_)
    rintro _ s₄ _ t₄ ⟨r₄, rfl, rfl, h₄⟩
    exact h₄.put fun s₅ _ _ => twins_finishHeartbeat req r.id
  · refine twins_of_uses ⟨trivial, fun x => ?_⟩
    cases x with
    | error e => trivial
    | ok u => exact uses_finishHeartbeat req r.id trivial

theorem twins_onlineProviders {stale : Int} {rs : List ProviderRecord}
    (hnodup : (rs.map ProviderRecord.id).Nodup)
    (hrs : ∀ r ∈ rs, s.store.providers.lookup r.id = some r) :
    Twins E order (onlineProviders stale (rs.map fun r => .stored r.id))
      (onlineProviders stale (rs.map .own)) s s Same := by
  induction rs generalizing s with
  | nil => exact twins_ret
  | cons r rs ih =>
    obtain ⟨hr, hnodup⟩ := List.nodup_cons.mp hnodup
    refine providerKind.twins_load (hrs r (.head _)) fun s₁ hs₁ => ?_
    have hrs₁ : ∀ r' ∈ r :: rs, s₁.store.providers.lookup r'.id = some r' := by
      rw [hs₁]
      exact hrs
    split
    · -- the records that are still to come are other ones
      refine providerKind.twins_set (hrs₁ r (.head _)) fun s₂ t₂ h₂ hstore => h₂.put fun s₃ hs₃ _ => ?_
      refine ih hnodup fun r' hr' => ?_
      have hne : r'.id ≠ r.id := fun h => hr (h ▸ List.mem_map_of_mem hr')
      rw [hs₃, hstore, ← hrs₁ r' (.tail _ hr')]
      exact AList.lookup_insert_ne hne
    · split
      · exact ih hnodup fun r' hr' => hrs₁ r' (.tail _ hr')
      · refine Couples.bind ((ih hnodup fun r' hr' => hrs₁ r' (.tail _ hr')).mono ?_)
        rintro out s' _ _ ⟨rfl, rfl⟩
        exact twins_ret

theorem twins_listProviders (req : ListProvidersRequest) :
    Twins E order (listProviders req) (listProviders req) s s Same := by
  obtain ⟨hnodup, hmem⟩ := listed_keys (p := ProviderFilter.admits
    { minCPU := req.minCPU, minMemory := req.minMemoryMB, minGPU := req.minGPU }) (order s.clock)
    s.store.provider_id
  refine couples_perform (m := s.tick) (n := s.tick)
    (congrArg (fun refs => some (Except.ok refs, s.tick)) (stored_listed s.store.provider_id)) rfl ?_
  refine twins_act (by trivial) fun now s₁ hs₁ => Couples.bind ?_
  refine (twins_onlineProviders hnodup fun r hr => ?_).mono ?_
  · rw [hs₁]
    exact ((hmem r).mp hr).1
  · rintro out s' _ _ ⟨rfl, rfl⟩
    exact twins_ret

theorem twins_finishCreateSession (req : CreateSessionRequest) (r : SessionRecord) :
    Twins E order (finishCreateSession req r) (finishCreateSession req r) s s Same := by
  refine sessionKind.twins_put fun s₁ hr => ?_
  dsimp only
  split
  · refine twins_act (by trivial) fun _ s₂ hs₂ => ?_
    rw [← hs₂] at hr
    exact sessionKind.twins_load hr fun _ _ => twins_ret
  · exact sessionKind.twins_load hr fun _ _ => twins_ret

theorem twins_createSession (ctx : Metadata) (req : CreateSessionRequest) :
    Twins E order (createSession ctx req) (createSession ctx req) s s Same := by
  unfold createSession
  dsimp only
  split
  · exact twins_ret
  refine providerKind.twins_get (fun _ _ => twins_ret) fun p s₁ _ hp =>
    providerKind.twins_load hp fun s₂ _ => ?_
  split
  · exact twins_ret
  refine twins_act (by trivial) fun (x : Except String Bool) s₃ _ => ?_
  match x with
  | .error e => exact twins_ret
  | .ok false => exact twins_ret
  | .ok true =>
    refine twins_act (by trivial) fun relayToken s₄ _ => ?_
    refine twins_act (by trivial) fun sessionID s₅ _ => ?_
    refine twins_act (by trivial) fun (y : Except TunnelError (String × String)) s₆ _ => ?_
    cases y with
    | error e => exact twins_ret
    | ok ips => exact twins_act (by trivial) fun createdAt s₇ _ => twins_finishCreateSession req _

theorem twins_handler (c : Rpc) :
    Twins E order c.handler c.handler s s (SameUnless (spurned order s (.rpc c))) := by
  cases c with
  | registerProvider ctx req => exact twins_unless _ (twins_registerProvider ctx req)
  | heartbeat req => exact twins_unless _ (twins_heartbeat req)
  | listProviders req => exact twins_unless _ (twins_listProviders req)
  | createSession ctx req => exact twins_unless _ (twins_createSession ctx req)
  | getSession req => exact twins_unless _ (twins_getSession req)
  | terminateSession req => exact twins_unless _ (twins_terminateSession req)
  | listProviderSessions req => exact twins_unless _ (twins_listProviderSessions req)
  | updateSessionStatus req => exact twins_updateSessionStatus req
  | exchangeCandidates req => exact twins_unless _ (twins_exchangeCandidates req)
  | reportConnectionResult req => exact twins_unless _ (twins_reportConnectionResult req)

/-- What an event answers; the inner `none` is a call that never returns. -/
def answers (E : Env) (S : Store Tables) (s : Server Tables) :
    Event → List (Option (Except Status Response))
  | .rpc c => [(c.handler.run (exec E S) s).map Prod.fst]
  | _ => []

theorem answers_memory (s : Server Tables) (e : Event) :
    answers E (memoryStore order) s e = answers E (fullCopies order).toStore s e := by
  cases e with
  | rpc c =>
    exact congrArg (fun x => [x]) (Couples.result_eq ((twins_handler c).mono fun _ _ _ _ h => h.1))
  | restart relayAddr => rfl
  | relay e h => rfl

theorem step_memory {e : Event} (he : spurned order s e = false) :
    step E (memoryStore order) s e = step E (fullCopies order).toStore s e := by
  cases e with
  | rpc c =>
    refine congrArg (Option.map Prod.snd) (Couples.run_eq ((twins_handler c).mono ?_))
    exact fun _ _ _ _ h => ⟨h.1, h.2 he⟩
  | restart relayAddr => rfl
  | relay e h => rfl

/-- While calls are executed one at a time, a store that hands out its own records and one that
keeps full copies cannot be told apart, up to the first request that is refused when its assignments
have been made. -/
theorem sharing_unseen {es : List Event}
    (hes : Step.Along (step E (memoryStore order)) (fun s e => spurned order s e = false) es s)
    (e : Event) :
    Step.run (step E (memoryStore order)) es s = Step.run (step E (fullCopies order).toStore) es s ∧
      Step.output (step E (memoryStore order)) (answers E (memoryStore order)) (es ++ [e]) s =
        Step.output (step E (fullCopies order).toStore) (answers E (fullCopies order).toStore)
          (es ++ [e]) s :=
  ⟨Step.run_congr (fun _ _ => step_memory) hes,
    Step.output_congr (fun _ _ => step_memory) answers_memory hes e⟩

end

/-- A session is made and runs, and an update of a session that does not exist is refused. -/
def servedInMemory : List Event :=
  .rpc (.registerProvider none { name := "provider", address := "192.0.2.1", capacity := none }) ::
  .rpc (.createSession none { providerID := "session-1", renterID := "renter", requested := none
                              image := "ubuntu", wgPublicKey := "key" }) ::
  .rpc (.updateSessionStatus { sessionID := "session-9", status := "running"
                               wgEndpoint := "192.0.2.1:51820" }) ::
  .rpc (.updateSessionStatus { sessionID := "session-8", status := "running" }) ::
  .rpc (.listProviders { minCPU := 0, minMemoryMB := 0, minGPU := 0 }) :: []

/-- The last request is refused, and changes the session all the same. -/
theorem sharing_unseen_refused :
    (Step.run (step countingEnv (memoryStore fun _ => Order.id)) servedInMemory
        { relay := none, store := Tables.empty }).map
          (fun s => (s.store.sessions.lookup "session-9").map SessionRecord.status) =
      some (some "running") ∧
    Step.output (step countingEnv (memoryStore fun _ => Order.id))
        (answers countingEnv (memoryStore fun _ => Order.id))
        (servedInMemory ++ [.rpc (.updateSessionStatus
          { sessionID := "session-9", status := "running", containerID := "c" })])
        { relay := none, store := Tables.empty } =
      Step.output (step countingEnv (fullCopies fun _ => Order.id).toStore)
        (answers countingEnv (fullCopies fun _ => Order.id).toStore)
        (servedInMemory ++ [.rpc (.updateSessionStatus
          { sessionID := "session-9", status := "running", containerID := "c" })])
        { relay := none, store := Tables.empty } :=
  ⟨by decide +kernel, (sharing_unseen (by decide +kernel) _).2⟩

end PeerCompute.Registry
