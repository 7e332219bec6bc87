import PeerCompute.Interleaving.Guard

/-! What a program that runs alone writes down: its actions, each with the answer it got. -/

universe u v

namespace PeerCompute.Interleaving.Prog

/-- Actions with their answers. -/
abbrev Journal (S : Signature.{u}) := List (Σ a : S.Act, S.Res a)

variable {S : Signature.{u}} {α β : Type u} {σ : Type v} {exec : Exec S σ}

def journal (exec : Exec S σ) : Prog S α → σ → Journal S
  | .ret _, _ => []
  | .act a k, s => match exec a s with
    | none => []
    | some (r, s') => ⟨a, r⟩ :: (k r).journal exec s'

theorem journal_act {a : S.Act} {k : S.Res a → Prog S α} {s s' : σ} {r : S.Res a}
    (h : exec a s = some (r, s')) :
    (Prog.act a k).journal exec s = ⟨a, r⟩ :: (k r).journal exec s' := by
  simp only [journal, h]

/-- A machine that answers every action brings every program to its end. -/
theorem exists_run (hexec : ∀ a s, exec a s ≠ none) (p : Prog S α) (s : σ) :
    ∃ x t, p.run exec s = some (x, t) := by
  induction p generalizing s with
  | ret x => exact ⟨x, s, rfl⟩
  | act a k ih =>
    obtain ⟨⟨r, s'⟩, ha⟩ := Option.ne_none_iff_exists'.mp (hexec a s)
    obtain ⟨x, t, hrun⟩ := ih r s'
    refine ⟨x, t, ?_⟩
    rw [run_act, ha]
    exact hrun

/-- `Q` holds of the answer, the state and the journal whenever the program returns. -/
@[irreducible] def Logs (exec : Exec S σ) (p : Prog S α) (s : σ)
    (Q : α → σ → Journal S → Prop) : Prop :=
  ∀ x s', p.run exec s = some (x, s') → Q x s' (p.journal exec s)

section

variable {p : Prog S α} {s : σ} {Q Q' : α → σ → Journal S → Prop}

theorem logs_iff :
    Logs exec p s Q ↔ ∀ x s', p.run exec s = some (x, s') → Q x s' (p.journal exec s) := by
  unfold Logs
  rfl

@[simp] theorem logs_ret {x : α} : Logs exec (.ret x) s Q ↔ Q x s [] := by
  rw [logs_iff]
  constructor
  · intro h
    exact h x s rfl
  · intro h y s' hr
    cases hr
    exact h

theorem logs_act {a : S.Act} {k : S.Res a → Prog S α} :
    Logs exec (.act a k) s Q ↔ ∀ r s', exec a s = some (r, s') →
      Logs exec (k r) s' (fun x t l => Q x t (⟨a, r⟩ :: l)) := by
  simp only [logs_iff]
  constructor
  · intro h r s' ha x t hr
    have hrun : (Prog.act a k).run exec s = some (x, t) := by
      rw [run_act, ha]
      exact hr
    exact journal_act ha ▸ h x t hrun
  · intro h x t hr
    rw [run_act, Option.bind_eq_some_iff] at hr
    obtain ⟨⟨r, s'⟩, ha, hr⟩ := hr
    exact journal_act ha ▸ h r s' ha x t hr

theorem Logs.mono (h : Logs exec p s Q) (hq : ∀ x t l, Q x t l → Q' x t l) : Logs exec p s Q' :=
  logs_iff.mpr (fun x t hr => hq x t _ (logs_iff.mp h x t hr))

theorem Logs.bind {f : α → Prog S β} {Q : β → σ → Journal S → Prop}
    (h : Logs exec p s (fun x t l => Logs exec (f x) t (fun y u l' => Q y u (l ++ l')))) :
    Logs exec (p >>= f) s Q := by
  induction p generalizing s Q with
  | ret x =>
    rw [logs_ret] at h
    exact h
  | act a k ih =>
    refine logs_act.mpr (fun r s' ha => ih r ?_)
    exact logs_act.mp h r s' ha

/-- The actions of a journal are actions of the program. -/
theorem Uses.journal {allowed : S.Act → Prop} (hp : p.Uses allowed) (s : σ) :
    ∀ y ∈ p.journal exec s, allowed y.1 := by
  induction p generalizing s with
  | ret x => exact fun y hy => by cases hy
  | act a k ih =>
    intro y hy
    unfold Prog.journal at hy
    split at hy
    · cases hy
    next r s' ha =>
      obtain rfl | hy := List.mem_cons.mp hy
      · exact hp.1
      · exact ih r (hp.2 r) s' y hy

theorem Uses.logs {allowed : S.Act → Prop} (hp : p.Uses allowed) (s : σ) :
    Logs exec p s (fun _ _ l => ∀ y ∈ l, allowed y.1) :=
  logs_iff.mpr (fun _ _ _ => hp.journal s)

theorem Leads.logs {Q : α → σ → Prop} (h : Leads exec p s Q) :
    Logs exec p s (fun x t _ => Q x t) :=
  logs_iff.mpr (leads_iff.mp h)

theorem Logs.and (h : Logs exec p s Q) (h' : Logs exec p s Q') :
    Logs exec p s (fun x t l => Q x t l ∧ Q' x t l) :=
  logs_iff.mpr (fun x t hr => ⟨logs_iff.mp h x t hr, logs_iff.mp h' x t hr⟩)

/-- A run whose journal meets a condition is one of the machine that is held to it. -/
theorem run_guarded_of_journal {ok : (a : S.Act) → S.Res a → Prop}
    (hok : ∀ y ∈ p.journal exec s, ok y.1 y.2) {x : α} {t : σ} (h : p.run exec s = some (x, t)) :
    p.run (guarded exec (fun a _ r => ok a r)) s = some (x, t) ∧
      p.journal (guarded exec (fun a _ r => ok a r)) s = p.journal exec s := by
  induction p generalizing s with
  | ret x => exact ⟨h, rfl⟩
  | act a k ih =>
    rw [run_act, Option.bind_eq_some_iff] at h
    obtain ⟨⟨r, s'⟩, ha, h⟩ := h
    rw [journal_act ha] at hok ⊢
    have hguarded : guarded exec (fun a _ r => ok a r) a s = some (r, s') :=
      guarded_eq_some.mpr ⟨ha, hok _ (.head _)⟩
    obtain ⟨hrun, hjournal⟩ := ih r (fun y hy => hok y (.tail _ hy)) h
    rw [run_act, hguarded, journal_act hguarded, hjournal]
    exact ⟨hrun, rfl⟩

/-- The program returns an answer in a state, and has written down a journal. -/
def Runs (exec : Exec S σ) (p : Prog S α) (s : σ) (x : α) (t : σ) (l : Journal S) : Prop :=
  p.run exec s = some (x, t) ∧ p.journal exec s = l

theorem runs_ret {x y : α} {t : σ} {l : Journal S} :
    Runs exec (.ret x) s y t l ↔ x = y ∧ s = t ∧ [] = l := by
  simp [Runs, Prog.journal, and_assoc]

theorem runs_act {a : S.Act} {k : S.Res a → Prog S α} {x : α} {t : σ} {l : Journal S} :
    Runs exec (.act a k) s x t l ↔
      ∃ r s' l', exec a s = some (r, s') ∧ Runs exec (k r) s' x t l' ∧ ⟨a, r⟩ :: l' = l := by
  constructor
  · rintro ⟨hrun, hjournal⟩
    rw [run_act, Option.bind_eq_some_iff] at hrun
    obtain ⟨⟨r, s'⟩, ha, hrun⟩ := hrun
    rw [journal_act ha] at hjournal
    exact ⟨r, s', _, ha, ⟨hrun, rfl⟩, hjournal⟩
  · rintro ⟨r, s', l', ha, ⟨hrun, rfl⟩, rfl⟩
    refine ⟨?_, journal_act ha⟩
    rw [run_act, ha]
    exact hrun

theorem runs_bind {f : α → Prog S β} {y : β} {t : σ} {l : Journal S} :
    Runs exec (p >>= f) s y t l ↔ ∃ x u before after,
      Runs exec p s x u before ∧ Runs exec (f x) u y t after ∧ before ++ after = l := by
  induction p generalizing s l with
  | ret x =>
    constructor
    · intro h
      exact ⟨x, s, [], l, runs_ret.mpr ⟨rfl, rfl, rfl⟩, h, rfl⟩
    · rintro ⟨x', u, before, after, hp, hf, rfl⟩
      obtain ⟨rfl, rfl, rfl⟩ := runs_ret.mp hp
      exact hf
  | act a k ih =>
    rw [act_bind, runs_act]
    constructor
    · rintro ⟨r, s', l', ha, h, rfl⟩
      obtain ⟨x, u, before, after, hp, hf, rfl⟩ := (ih r).mp h
      exact ⟨x, u, ⟨a, r⟩ :: before, after, runs_act.mpr ⟨r, s', before, ha, hp, rfl⟩, hf, rfl⟩
    · rintro ⟨x, u, before, after, hp, hf, rfl⟩
      obtain ⟨r, s', l', ha, hk, rfl⟩ := runs_act.mp hp
      exact ⟨r, s', l' ++ after, ha, (ih r).mpr ⟨x, u, l', after, hk, hf, rfl⟩, rfl⟩

/-- The second of two programs is replaced. -/
theorem Runs.bind_mono {f g : α → Prog S β} {y : β} {t : σ} {l : Journal S}
    (h : Runs exec (p >>= f) s y t l)
    (hfg : ∀ x u after, Runs exec (f x) u y t after → Runs exec (g x) u y t after) :
    Runs exec (p >>= g) s y t l := by
  obtain ⟨x, u, before, after, hp, hf, rfl⟩ := runs_bind.mp h
  exact runs_bind.mpr ⟨x, u, before, after, hp, hfg x u after hf, rfl⟩

end

end PeerCompute.Interleaving.Prog
