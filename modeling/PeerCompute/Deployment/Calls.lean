import PeerCompute.Deployment.System

/-! What a call of a client does at the registry. -/

namespace PeerCompute.Deployment

open PeerCompute.Interleaving PeerCompute.Computev1 Prog

def liftRegistry (y : Σ a : Registry.signature.Act, Registry.signature.Res a) :
    Σ a : signature.Act, signature.Res a := ⟨.registry y.1, y.2⟩

def send? : Action → Option Registry.Rpc
  | .send c => some c
  | _ => none

/-- The requests that have been sent. -/
def sends (L : Journal signature) : List Registry.Rpc := L.filterMap (fun y => send? y.1)

theorem mem_sends {c : Registry.Rpc} {L : Journal signature} (h : c ∈ sends L) :
    ∃ ok, ⟨.send c, ok⟩ ∈ L := by
  obtain ⟨⟨a, r⟩, hmem, heq⟩ := List.mem_filterMap.mp h
  cases a with
  | send c' =>
    cases heq
    exact ⟨r, hmem⟩
  | _ => cases heq

theorem sends_append (L L' : Journal signature) : sends (L ++ L') = sends L ++ sends L' :=
  List.filterMap_append

theorem sends_concat {a : Action} (ha : send? a = none) (L : Journal signature) (r : a.Res) :
    sends (L ++ [⟨a, r⟩]) = sends L := by
  simp [sends, ha]

theorem sends_send (L : Journal signature) (c : Registry.Rpc) (ok : Bool) :
    sends (L ++ [⟨.send c, ok⟩]) = sends L ++ [c] := by
  simp [sends, send?]

variable {c : Registry.Rpc} {L : Journal signature} {x : Except Status Response}

/-- The registry comes to an action in the call `c`. -/
def Serving (c : Registry.Rpc) (L : Journal signature) (b : Registry.Action) : Prop :=
  ∃ l k, c.handler.Leaves l (.act b k) ∧ l.map liftRegistry <:+ L

/-- The answer to the call `c`, or an error. -/
def Answer (c : Registry.Rpc) (L : Journal signature) (x : Except Status Response) : Prop :=
  (∃ e, x = .error e) ∨ ∃ l, c.handler.Leaves l (.ret x) ∧ l.map liftRegistry <:+: L

theorem Answer.among {L' : Journal signature} (h : Answer c L x) (hL : L <:+: L') :
    Answer c L' x := by
  obtain h | ⟨l, hl, hpart⟩ := h
  · exact .inl h
  · exact .inr ⟨l, hl, hpart.trans hL⟩

/-- What a call does: it sends its request three times at most, and the registry executes it. -/
def Attempts (c : Registry.Rpc) (L : Journal signature) : Action → Prop
  | .send c' => c' = c ∧ ∃ n < 3, sends L = .replicate n c
  | .registry b => Serving c L b
  | .done => True
  | .own _ | .returns _ _ => False

theorem along_handling (c : Registry.Rpc) (L : Journal signature) :
    (handling c).Along
      (fun L' (b : Action) => ∃ l b', L' = L ++ l.map liftRegistry ∧ b = .registry b' ∧
        ∃ k, c.handler.Leaves l (.act b' k))
      (fun x L' => ∃ l, L' = L ++ l.map liftRegistry ∧ c.handler.Leaves l (.ret x)) L :=
  Along.expand_map (S := Registry.signature) (T := signature) (f := Call.registry) (g := .registry)
    (e := liftRegistry) (fun _ _ => ⟨⟨rfl, rfl⟩, fun _ => rfl⟩) (along_leaves c.handler) L

theorem sends_registry (L : Journal signature) (l : Journal Registry.signature) :
    sends (L ++ l.map liftRegistry) = sends L := by
  have hnil : sends (l.map liftRegistry) = [] := by
    rw [sends, List.filterMap_map, List.filterMap_eq_nil_iff]
    exact fun _ _ => rfl
  rw [sends_append, hnil, List.append_nil]

theorem along_attempt {n : Nat} (hn : n < 3) (hL : sends L = .replicate n c) :
    (attempt c).Along (Attempts c)
      (fun x L' => sends L' = .replicate (n + 1) c ∧ Answer c L' x) L := by
  refine ⟨⟨rfl, n, hn, hL⟩, fun ok => ?_⟩
  have hsent : sends (L ++ [⟨.send c, ok⟩]) = .replicate (n + 1) c :=
    (sends_send L c ok).trans (by rw [hL, List.replicate_succ'])
  cases ok with
  | false => exact ⟨hsent, .inl ⟨_, rfl⟩⟩
  | true =>
    refine ((along_handling c _).imp ?_).mono ?_
    · rintro _ _ ⟨l, b, rfl, rfl, k, hk⟩
      exact ⟨l, k, hk, List.suffix_append _ _⟩
    rintro x _ ⟨l, rfl, hl⟩
    exact ⟨(sends_registry _ l).trans hsent, .inr ⟨l, hl, (List.suffix_append _ _).isInfix⟩⟩

/-- What one attempt has done: nothing has been answered, or the call has been executed. -/
theorem leaves_attempt_ret (h : (attempt c).Leaves L (.ret x)) :
    L = [⟨.send c, false⟩] ∧ x = .error connectionLost ∨
      ∃ l, L = ⟨.send c, true⟩ :: l.map liftRegistry ∧ c.handler.Leaves l (.ret x) := by
  obtain ⟨-, heq⟩ | ⟨ok, L', rfl, hrest⟩ := leaves_act.mp h
  · cases heq
  cases ok with
  | false =>
    obtain ⟨rfl, heq⟩ := leaves_ret.mp hrest
    cases heq
    exact .inl ⟨rfl, rfl⟩
  | true =>
    obtain ⟨l, rfl, hl⟩ := Leaves.along hrest (along_handling c [])
    exact .inr ⟨l, rfl, hl⟩

theorem along_persist (c : Registry.Rpc) :
    (persist c).Along (Attempts c) (fun x L => Answer c L x) [] := by
  have hdone : ∀ {J : Journal signature → Prop} {L : Journal signature},
      (∀ r, J (L ++ [⟨.done, r⟩])) → Call.done.Along (Attempts c) (fun _ => J) L :=
    fun h => ⟨trivial, h⟩
  have hkeep : ∀ {n : Nat} {x : Except Status Response} {L : Journal signature},
      sends L = .replicate n c ∧ Answer c L x → ∀ r, sends (L ++ [⟨.done, r⟩]) = .replicate n c ∧
        Answer c (L ++ [⟨.done, r⟩]) x :=
    fun h r => ⟨(sends_concat (a := .done) rfl _ r).trans h.1,
      h.2.among (List.prefix_append _ _).isInfix⟩
  refine Along.bind ((Retry.along_loop
    (J := fun n x L => sends L = .replicate n c ∧ Answer c L x) ?_ ?_ ?_ 3 0 none
    (x := .error connectionLost) ⟨rfl, .inl ⟨_, rfl⟩⟩).mono (fun y L h => ?_))
  · intro n x L hn h
    refine Along.bind ((along_attempt (hn.resolve_left (by decide)) h.1).mono (fun y L h => ?_))
    cases y with
    | ok resp => exact h
    | error e => exact h
  · exact fun n x L h => hdone (hkeep h)
  · exact fun _ n x L h => hdone (hkeep h)
  · obtain ⟨n, -, h⟩ := h
    exact h

theorem along_prog {α : Type} (q : Request α) :
    q.prog.Along (Attempts q.rpc) (fun x L => Answer q.rpc L x) [] := by
  unfold Request.prog
  split
  · exact along_persist q.rpc
  · exact (along_attempt (n := 0) (by decide) rfl).mono (fun _ _ h => h.2)

/-! ## The actions of a client -/

section

variable {cfg : Agent.Config} {available : Option Resources} {a : ClientAction}

/-- What stands for an action does. -/
def Serves (cfg : Agent.Config) (available : Option Resources) (a : ClientAction)
    (L : Journal signature) : Action → Prop
  | .own a' => a' = a ∧ request? cfg available a = none ∧ L = []
  | .returns a' r => ∃ q x, request? cfg available a = some q ∧ Answer q.rpc L x ∧
      (⟨a', r⟩ : Σ a : ClientAction, a.Res) = ⟨a, q.read x⟩
  | b => ∃ q, request? cfg available a = some q ∧ Attempts q.rpc L b

/-- What has been done when an action has been performed. -/
def Served (cfg : Agent.Config) (available : Option Resources) (a : ClientAction) (r : a.Res)
    (L : Journal signature) : Prop :=
  request? cfg available a = none ∧ L = [⟨.own a, r⟩] ∨
    ∃ q x L', request? cfg available a = some q ∧ r = q.read x ∧ q.prog.Leaves L' (.ret x) ∧
      L = L' ++ [⟨.returns a r, ()⟩]

theorem serve_own (h : request? cfg available a = none) : serve cfg available a = Call.own a := by
  unfold serve
  rw [h]

theorem serve_call {q : Request a.Res} (h : request? cfg available a = some q) :
    serve cfg available a = q.prog >>= fun x => Call.returns a (q.read x) >>= fun _ =>
      .ret (q.read x) := by
  unfold serve
  rw [h]
  rfl

theorem serves_of_attempts {q : Request a.Res} (hq : request? cfg available a = some q)
    {b : Action} (hb : Attempts q.rpc L b) : Serves cfg available a L b := by
  cases b with
  | own | returns => cases hb
  | _ => exact ⟨q, hq, hb⟩

theorem along_serve (a : ClientAction) :
    (serve cfg available a).Along (Serves cfg available a) (fun _ _ => True) [] := by
  cases hq : request? cfg available a with
  | none =>
    rw [serve_own hq]
    exact ⟨⟨rfl, hq, rfl⟩, fun _ => trivial⟩
  | some q =>
    rw [serve_call hq]
    refine Along.bind (((along_prog q).imp (fun _ _ => serves_of_attempts hq)).mono
      (fun x L hx => ?_))
    exact ⟨⟨q, x, hq, hx, rfl⟩, fun _ => trivial⟩

theorem leaves_serve_ret {r : a.Res} (h : (serve cfg available a).Leaves L (.ret r)) :
    Served cfg available a r L := by
  cases hq : request? cfg available a with
  | none =>
    rw [serve_own hq] at h
    obtain ⟨-, heq⟩ | ⟨r', l', rfl, hrest⟩ := leaves_act.mp h
    · cases heq
    · obtain ⟨rfl, heq⟩ := leaves_ret.mp hrest
      cases heq
      exact .inl ⟨hq, rfl⟩
  | some q =>
    rw [serve_call hq] at h
    obtain ⟨L₁, L₂, x, rfl, hprog, hreturn⟩ := leaves_bind_ret h
    obtain ⟨-, heq⟩ | ⟨u, l', rfl, hrest⟩ := leaves_act.mp hreturn
    · cases heq
    · obtain ⟨rfl, heq⟩ := leaves_ret.mp hrest
      cases heq
      exact .inr ⟨q, x, L₁, hq, rfl, hprog, rfl⟩

/-- What stands for an action has done. -/
theorem serves_mem {p : Prog signature a.Res} (h : (serve cfg available a).Leaves L p)
    {y : Σ b : signature.Act, signature.Res b} (hy : y ∈ L) :
    ∃ L', Serves cfg available a L' y.1 := by
  obtain ⟨L₁, L₂, rfl⟩ := List.append_of_mem hy
  obtain ⟨k, hk⟩ := h.before
  exact ⟨L₁, (hk.along (along_serve a)).1⟩

/-! What the program of a client has done. -/

variable {l : Journal clients} (h : Expands (S := clients) (serve cfg available) l L)

include h

/-- A call has returned. -/
theorem returned_of_expands {y : Σ a : clients.Act, clients.Res a} (hy : y ∈ l)
    {q : Request (ClientAction.Res y.1)} (hq : request? cfg available y.1 = some q) :
    ⟨.returns y.1 y.2, ()⟩ ∈ L ∧ ∃ x, y.2 = q.read x ∧ Answer q.rpc L x := by
  obtain ⟨l₁, l₂, rfl⟩ := List.append_of_mem hy
  obtain ⟨L₁, L', L₂, rfl, -, hserve, -⟩ := h.split
  obtain ⟨hnone, -⟩ | ⟨q', x, L'', hq', hread, hprog, rfl⟩ := leaves_serve_ret hserve
  · rw [hq] at hnone
    cases hnone
  · rw [hq] at hq'
    cases hq'
    refine ⟨by simp, x, hread, (hprog.along (along_prog q)).among ?_⟩
    exact ⟨L₁, [⟨.returns y.1 y.2, ()⟩] ++ L₂, by simp⟩

theorem own_of_expands {y : Σ a : clients.Act, clients.Res a} (hy : y ∈ l)
    (hown : request? cfg available y.1 = none) : ⟨.own y.1, y.2⟩ ∈ L := by
  obtain ⟨l₁, l₂, rfl⟩ := List.append_of_mem hy
  obtain ⟨L₁, L', L₂, rfl, -, hserve, -⟩ := h.split
  obtain ⟨-, rfl⟩ | ⟨q', _, _, hq', -⟩ := leaves_serve_ret hserve
  · simp
  · rw [hown] at hq'
    cases hq'

theorem mem_of_own {a : ClientAction} {r : a.Res} (hr : ⟨.own a, r⟩ ∈ L) : ⟨a, r⟩ ∈ l := by
  obtain ⟨⟨a', r'⟩, hy, L', hserve, hmem, -⟩ := h.mem hr
  obtain ⟨-, rfl⟩ | ⟨q, _, _, hq, -⟩ := leaves_serve_ret hserve
  · cases List.mem_singleton.mp hmem
    exact hy
  · obtain ⟨-, -, hnone, -⟩ := serves_mem hserve hmem
    rw [hq] at hnone
    cases hnone

/-- What has been done stands for an action. -/
theorem serves_of_expands {z : Σ b : signature.Act, signature.Res b} (hz : z ∈ L) :
    ∃ y ∈ l, ∃ L', Serves cfg available y.1 L' z.1 := by
  obtain ⟨y, hy, L', hserve, hmem, -⟩ := h.mem hz
  exact ⟨y, hy, serves_mem hserve hmem⟩

end

end PeerCompute.Deployment
