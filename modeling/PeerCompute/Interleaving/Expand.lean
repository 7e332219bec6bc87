import PeerCompute.Interleaving.Contract
import PeerCompute.Interleaving.History

/-! Programs over a finer signature: each action becomes a program of its own. -/

universe u v w

namespace PeerCompute.Interleaving

variable {S T : Signature.{u}} {α : Type u}

/-- The program with `f a` in the place of each action `a`. -/
def Prog.expand (f : (a : S.Act) → Prog T (S.Res a)) : Prog S α → Prog T α
  | .ret x => .ret x
  | .act a k => f a >>= fun r => (k r).expand f

/-- What holds of every `ret` and is kept by `>>=` holds of an expanded program, if it holds of what
takes the place of the actions. -/
theorem Prog.expand_closed {C : {α : Type u} → Prog T α → Prop} (hret : ∀ {α} (x : α), C (.ret x))
    (hbind : ∀ {α β} {p : Prog T α} {f : α → Prog T β}, C p → (∀ x, C (f x)) → C (p >>= f))
    {f : (a : S.Act) → Prog T (S.Res a)} (hf : ∀ a, C (f a)) (p : Prog S α) : C (p.expand f) := by
  induction p with
  | ret x => exact hret x
  | act a k ih => exact hbind (hf a) ih

/-- The answer of `a` if it settles the matter, and that of `b` otherwise. -/
def Prog.firstOf {β : Type u} (a b : S.Act) (settled : S.Res a → Option β) (answer : S.Res b → β) :
    Prog S β :=
  .act a (fun r => match settled r with
    | some x => .ret x
    | none => .act b (fun r => .ret (answer r)))

/-- A program keeps to a contract when it is expanded, if what takes the place of an action keeps to
it wherever the action does. -/
theorem Contract.Follows.expand {W : Type v} [Preorder W] {G : Type w} {C : Contract S W G}
    {D : Contract T W G} {f : (a : S.Act) → Prog T (S.Res a)}
    (hact : ∀ {w g} a (k : S.Res a → Prog T α), (∀ w', w ≤ w' → ∀ r, C.Answers w' a r →
      ∃ w'' g', C.Move w' g a r w'' g' ∧ D.Follows w'' g' (k r)) → D.Follows w g (f a >>= k))
    (hdone : ∀ g, C.Done g → D.Done g) {w : W} {g : G} {p : Prog S α} (h : C.Follows w g p) :
    D.Follows w g (p.expand f) := by
  induction p generalizing w g with
  | ret x => exact follows_ret.mpr (hdone g (follows_ret.mp h))
  | act a k ih =>
    refine hact a _ (fun w' hw r hr => ?_)
    obtain ⟨w'', g', hm, hk⟩ := follows_act.mp h w' hw r hr
    exact ⟨w'', g', hm, ih r hk⟩

/-- What holds along a program holds along its expansion, if what takes the place of an action keeps
to it and to a relation between the two journals. -/
theorem Prog.Along.expand {f : (a : S.Act) → Prog T (S.Res a)} {ok : Journal S → S.Act → Prop}
    {ok' : Journal T → T.Act → Prop} {J : Journal S → Journal T → Prop}
    (hact : ∀ {l L a}, J l L → ok l a →
      (f a).Along ok' (fun r L' => J (l ++ [⟨a, r⟩]) L') L)
    {p : Prog S α} {Q : α → Journal S → Prop} {l : Journal S} {L : Journal T} (h : p.Along ok Q l)
    (hJ : J l L) : (p.expand f).Along ok' (fun x L' => ∃ l', J l' L' ∧ Q x l') L := by
  induction p generalizing l L with
  | ret x => exact ⟨l, hJ, h⟩
  | act a k ih => exact Prog.Along.bind ((hact hJ h.1).mono (fun r L' hJ' => ih r (h.2 r) hJ'))

/-- One action takes the place of one action. -/
theorem Prog.Along.expand_map {f : (a : S.Act) → Prog T (S.Res a)} {g : S.Act → T.Act}
    {e : (Σ a : S.Act, S.Res a) → Σ b : T.Act, T.Res b}
    (hf : ∀ a L, (f a).Along (fun L' b => L' = L ∧ b = g a) (fun r L' => L' = L ++ [e ⟨a, r⟩]) L)
    {ok : Journal S → S.Act → Prop} {p : Prog S α} {Q : α → Journal S → Prop} (h : p.Along ok Q [])
    (L : Journal T) :
    (p.expand f).Along (fun L' b => ∃ l a, L' = L ++ l.map e ∧ b = g a ∧ ok l a)
      (fun x L' => ∃ l, L' = L ++ l.map e ∧ Q x l) L := by
  refine h.expand (J := fun l L' => L' = L ++ l.map e) ?_ (List.append_nil L).symm
  rintro l _ a rfl hok
  refine ((hf a _).imp ?_).mono ?_
  · rintro _ _ ⟨rfl, rfl⟩
    exact ⟨l, a, rfl, rfl, hok⟩
  · rintro r _ rfl
    rw [List.map_append, List.append_assoc]
    rfl

/-- Two actions that change nothing, and what goes on with the answer of one of them. -/
theorem Contract.follows_firstOf {W : Type v} [Preorder W] {G : Type w} {C : Contract S W G}
    {β : Type u} {a b : S.Act} {settled : S.Res a → Option β} {answer : S.Res b → β}
    {Q : W → β → Prop} {g : G}
    (ha : ∀ {w r}, C.Answers w a r → C.Move w g a r w g ∧ ∀ x, settled r = some x → Q w x)
    (hb : ∀ {w r}, C.Answers w b r → C.Move w g b r w g ∧ Q w (answer r))
    {k : β → Prog S α} {w : W} (hk : ∀ w', w ≤ w' → ∀ x, Q w' x → C.Follows w' g (k x)) :
    C.Follows w g (Prog.firstOf a b settled answer >>= k) := by
  refine follows_act.mpr (fun w₁ hw₁ r hr => ?_)
  obtain ⟨hmove, hsettled⟩ := ha hr
  refine ⟨w₁, g, hmove, ?_⟩
  dsimp only
  cases hx : settled r with
  | some x => exact hk w₁ hw₁ x (hsettled x hx)
  | none =>
    refine follows_act.mpr (fun w₂ hw₂ r' hr' => ?_)
    obtain ⟨hmove', hanswer⟩ := hb hr'
    exact ⟨w₂, g, hmove', hk w₂ (le_trans hw₁ hw₂) _ hanswer⟩

end PeerCompute.Interleaving
