import PeerCompute.Interleaving.Expand
import PeerCompute.Interleaving.Trace
import PeerCompute.Registry.Handlers
import PeerCompute.Store.Statements

/-! The handlers over a store whose lookups by prefix are two statements: other calls may come
between them. -/

namespace PeerCompute.Registry

open PeerCompute.Data PeerCompute.Interleaving PeerCompute.Plugin PeerCompute.Computev1
  PeerCompute.PostgresStore Prog

/-- The steps of the handlers. -/
inductive Statement
  | action (a : Action)
  | findProvider (p : String)
  | likeProvider (p : String)
  | findSession (p : String)
  | likeSession (p : String)

def Statement.Res : Statement → Type
  | action a => a.Res
  | findProvider _ | likeProvider _ => Except StoreError (Ref ProviderRecord)
  | findSession _ | likeSession _ => Except StoreError (Ref SessionRecord)

def statementSignature : Signature := ⟨Statement, Statement.Res⟩

/-- The first statement of a lookup settles it if it finds something. -/
def settled {α : Type} : Except StoreError α → Option (Except StoreError α)
  | .ok x => some (.ok x)
  | .error _ => none

/-- `GetProviderByPrefix`. -/
def lookupProvider (p : String) : Prog statementSignature (Except StoreError (Ref ProviderRecord)) :=
  firstOf (S := statementSignature) (.findProvider p) (.likeProvider p) settled id

/-- `GetSessionByPrefix`. -/
def lookupSession (p : String) : Prog statementSignature (Except StoreError (Ref SessionRecord)) :=
  firstOf (S := statementSignature) (.findSession p) (.likeSession p) settled id

def Action.statements : (a : Action) → Prog statementSignature a.Res
  | .getProviderByPrefix p => lookupProvider p
  | .getSessionByPrefix p => lookupSession p
  | a => perform (S := statementSignature) (.action a)

variable {σ τ : Type}

def execStatement (E : Env) (S : Statements σ) : Exec statementSignature (Server σ)
  | .action a, s => exec E S.toStore a s
  | .findProvider p, s => some (S.findProvider s.clock s.store p, { s with clock := s.clock + 1 })
  | .likeProvider p, s => some (S.likeProvider s.clock s.store p, { s with clock := s.clock + 1 })
  | .findSession p, s => some (S.findSession s.clock s.store p, { s with clock := s.clock + 1 })
  | .likeSession p, s => some (S.likeSession s.clock s.store p, { s with clock := s.clock + 1 })

def Turn.statements : Turn → Pool.Event statementSignature (Except Status Response)
  | .call c => .start (c.handler.expand Action.statements)
  | .step i => .step i

/-- The calls in progress, statement by statement. -/
abbrev StatementCalls (σ : Type) := Pool statementSignature (Except Status Response) (Server σ)

def interleaveStatements (E : Env) (S : Statements σ) (turns : List Turn) (P : StatementCalls σ) :
    Option (StatementCalls σ) :=
  P.play (execStatement E S) (turns.map Turn.statements)

/-- The statements of some turns, with their answers. -/
def statementTrace (E : Env) (S : Statements σ) (turns : List Turn) (P : StatementCalls σ) :
    List (Σ a : Statement, a.Res) :=
  Pool.trace (execStatement E S) (turns.map Turn.statements) P

/-- The server over another store. -/
def Server.onStore (f : σ → τ) (s : Server σ) : Server τ where
  candidates := s.candidates
  tunnels := s.tunnels
  relay := s.relay
  store := f s.store
  outcomes := s.outcomes
  clock := s.clock

section

variable {E : Env} {T : Statements τ} {S : Statements σ} {f : σ → τ}

theorem stored_onStore {α : Type} (s : Server σ) (x : Except StoreError (α × σ)) :
    (s.onStore f).stored (x.map (Prod.map id f)) =
      ((s.stored x).1, (s.stored x).2.onStore f) := by
  cases x with
  | error e => rfl
  | ok x => rfl

theorem act_onStore (h : T.Represents S f) (s : Server σ) (a : Action) :
    (s.onStore f).act E T.toStore a = (s.act E S.toStore a).map (fun x => (x.1, x.2.onStore f)) := by
  cases a with
  | putProvider ref =>
    refine congrArg some (Eq.trans ?_ (stored_onStore s _))
    exact congrArg (s.onStore f).stored (h.put_provider _ _ ref)
  | putSession ref =>
    refine congrArg some (Eq.trans ?_ (stored_onStore s _))
    exact congrArg (s.onStore f).stored (h.put_session _ _ ref)
  | updateHeartbeat id heartbeat =>
    refine congrArg some (Eq.trans ?_ (stored_onStore s _))
    have hbeat : T.updateHeartbeat s.clock (f s.store) id heartbeat =
        (S.updateHeartbeat s.clock s.store id heartbeat).map f := h.update_heartbeat _ _ id heartbeat
    refine congrArg (s.onStore f).stored ((congrArg (Except.map _) hbeat).trans ?_)
    cases S.updateHeartbeat s.clock s.store id heartbeat <;> rfl
  | getProvider id => exact congrArg (fun x => some (x, s.onStore f)) (h.get_provider _ _ id)
  | getProviderByPrefix p =>
    have hlookup : T.getProviderByPrefix s.clock (f s.store) p =
        S.getProviderByPrefix s.clock s.store p := by
      rw [T.lookup_provider, S.lookup_provider, h.find_provider, h.like_provider]
    exact congrArg (fun x => some (x, s.onStore f)) hlookup
  | getSessionByPrefix p =>
    have hlookup : T.getSessionByPrefix s.clock (f s.store) p =
        S.getSessionByPrefix s.clock s.store p := by
      rw [T.lookup_session, S.lookup_session, h.find_session, h.like_session]
    exact congrArg (fun x => some (x, s.onStore f)) hlookup
  | listProviders filter =>
    exact congrArg (fun x => some (x, s.onStore f)) (h.list_providers _ _ filter)
  | listSessions filter =>
    exact congrArg (fun x => some (x, s.onStore f)) (h.list_sessions _ _ filter)
  | getTerminatedSessionIDs ids providerID =>
    exact congrArg (fun x => some (x, s.onStore f)) (h.terminated _ _ ids providerID)
  | loadProvider ref =>
    cases ref with
    | own r => rfl
    | stored id => exact congrArg (fun x => some (x.getD {}, s.onStore f)) (h.provider _ id)
  | loadSession ref =>
    cases ref with
    | own r => rfl
    | stored id => exact congrArg (fun x => some (x.getD {}, s.onStore f)) (h.session _ id)
  | setProvider ref b =>
    cases ref with
    | own r => rfl
    | stored id =>
      exact congrArg (fun st => some (Ref.stored id, { s.onStore f with store := st }))
        (h.assign_provider _ id b)
  | setSession ref b =>
    cases ref with
    | own r => rfl
    | stored id =>
      exact congrArg (fun st => some (Ref.stored id, { s.onStore f with store := st }))
        (h.assign_session _ id b)
  | allocateTunnelIPs id =>
    simp only [Server.act, Option.map_map]
    rfl
  | registerRelay token id =>
    have hrelay : (s.onStore f).relay = s.relay := rfl
    simp only [Server.act, hrelay]
    cases s.relay with
    | none => rfl
    | some rs =>
      simp only [Option.map_map]
      rfl
  | _ => rfl

/-- A statement on the image of a state. -/
theorem execStatement_onStore (h : T.Represents S f) (a : Statement) (s : Server σ) :
    execStatement E T a (s.onStore f) =
      (execStatement E S a s).map (fun x => (x.1, x.2.onStore f)) := by
  cases a with
  | action a =>
    simp only [execStatement, exec, act_onStore h]
    cases s.act E S.toStore a <;> rfl
  | findProvider p => exact congrArg (fun x => some (x, _)) (h.find_provider _ _ p)
  | likeProvider p => exact congrArg (fun x => some (x, _)) (h.like_provider _ _ p)
  | findSession p => exact congrArg (fun x => some (x, _)) (h.find_session _ _ p)
  | likeSession p => exact congrArg (fun x => some (x, _)) (h.like_session _ _ p)

end

end PeerCompute.Registry
