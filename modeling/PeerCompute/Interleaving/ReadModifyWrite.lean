import Mathlib.Logic.Function.Basic

/-! Threads that each read a register, compute on the copy they have read and write the result
back.  Between the two accesses of one thread the others may read and write. -/

universe u

namespace PeerCompute.Interleaving

inductive Access
  | read
  | write
  deriving DecidableEq

namespace Access

/-- The accesses of a thread, out of those of all of them. -/
def own {O : Type u} (i : Nat) (h : List (Nat × O)) : List O :=
  h.filterMap (fun e => if e.1 = i then some e.2 else none)

section

variable {O : Type u} {h : List (Nat × O)} {i j : Nat} {a b : O} {as bs : List O}

@[simp] theorem own_nil : own i ([] : List (Nat × O)) = [] := rfl

@[simp] theorem own_cons_self : own i ((i, a) :: h) = a :: own i h := by simp [own]

theorem own_cons_ne (hij : j ≠ i) : own i ((j, a) :: h) = own i h := by simp [own, hij]

theorem own_append (h h' : List (Nat × O)) : own i (h ++ h') = own i h ++ own i h' :=
  List.filterMap_append

/-- Two threads have accessed the register, and one of them was the first. -/
theorem own_head (hij : i ≠ j) (hmem : ∀ e ∈ h, e.1 = i ∨ e.1 = j) (hi : own i h = a :: as)
    (hj : own j h = b :: bs) :
    ∃ h', (∀ e ∈ h', e.1 = i ∨ e.1 = j) ∧
      (h = (i, a) :: h' ∧ own i h' = as ∧ own j h' = b :: bs ∨
        h = (j, b) :: h' ∧ own i h' = a :: as ∧ own j h' = bs) := by
  cases h with
  | nil => cases hi
  | cons e h =>
    obtain ⟨k, c⟩ := e
    refine ⟨h, fun e he => hmem e (.tail _ he), ?_⟩
    obtain rfl | rfl := hmem _ (.head _)
    · rw [own_cons_self] at hi
      rw [own_cons_ne hij] at hj
      cases hi
      exact .inl ⟨rfl, rfl, hj⟩
    · rw [own_cons_self] at hj
      rw [own_cons_ne hij.symm] at hi
      cases hj
      exact .inr ⟨rfl, hi, rfl⟩

/-- Only one thread is left. -/
theorem eq_of_own_nil (hmem : ∀ e ∈ h, e.1 = i ∨ e.1 = j) (hi : own i h = []) :
    h = (own j h).map (Prod.mk j) := by
  induction h with
  | nil => rfl
  | cons e h ih =>
    obtain ⟨k, c⟩ := e
    obtain rfl | rfl := hmem _ (.head _)
    · rw [own_cons_self] at hi
      cases hi
    · have hne : k ≠ i := by
        rintro rfl
        rw [own_cons_self] at hi
        cases hi
      rw [own_cons_ne hne] at hi
      rw [own_cons_self, List.map_cons, ← ih (fun e he => hmem e (.tail _ he)) hi]

end

end Access

open Access

variable {ρ : Type u}

/-- A register, and the copies that the threads have read from it. -/
structure Cell (ρ : Type u) where
  value : ρ
  copy : Nat → Option ρ

namespace Cell

/-- Thread `i` writes what `f i` makes of its copy. -/
def access (f : Nat → ρ → ρ) (c : Cell ρ) : Nat × Access → Cell ρ
  | (i, .read) => ⟨c.value, Function.update c.copy i (some c.value)⟩
  | (i, .write) => ⟨((c.copy i).map (f i)).getD c.value, c.copy⟩

def replay (f : Nat → ρ → ρ) (x : ρ) (h : List (Nat × Access)) : Cell ρ :=
  h.foldl (access f) ⟨x, fun _ => none⟩

@[simp] theorem replay_concat (f : Nat → ρ → ρ) (x : ρ) (h : List (Nat × Access))
    (e : Nat × Access) : replay f x (h ++ [e]) = (replay f x h).access f e := by
  simp [replay]

/-- A thread reads, and then writes unless it gives up. -/
def attempt (writes : Bool) : List Access := if writes then [.read, .write] else [.read]

/-- Both threads read before either writes, and `l` writes last. -/
def Overlap (h : List (Nat × Access)) (l : Nat) : Prop :=
  ∃ k, k ≠ l ∧ (h = [(k, .read), (l, .read), (k, .write), (l, .write)] ∨
    h = [(l, .read), (k, .read), (k, .write), (l, .write)])

variable {f : Nat → ρ → ρ} {x : ρ} {h : List (Nat × Access)} {i j : Nat}

theorem overlap_or_serial (hij : i ≠ j) (hmem : ∀ e ∈ h, e.1 = i ∨ e.1 = j)
    (hi : own i h = attempt true) (hj : own j h = attempt true) :
    h = [(i, .read), (i, .write), (j, .read), (j, .write)] ∨
    h = [(j, .read), (j, .write), (i, .read), (i, .write)] ∨
    ∃ l, Overlap h l := by
  -- once both have read and neither has written
  have hread : ∀ {h : List (Nat × Access)}, (∀ e ∈ h, e.1 = i ∨ e.1 = j) →
      own i h = [.write] → own j h = [.write] →
      h = [(i, .write), (j, .write)] ∨ h = [(j, .write), (i, .write)] := by
    intro h hmem hi hj
    obtain ⟨h', hmem', ⟨rfl, hi', hj'⟩ | ⟨rfl, hi', hj'⟩⟩ := own_head hij hmem hi hj
    · refine .inl (congrArg _ ?_)
      rw [eq_of_own_nil hmem' hi', hj']
      rfl
    · refine .inr (congrArg _ ?_)
      rw [eq_of_own_nil (fun e he => (hmem' e he).symm) hj', hi']
      rfl
  obtain ⟨h₁, hmem₁, ⟨rfl, hi₁, hj₁⟩ | ⟨rfl, hi₁, hj₁⟩⟩ := own_head hij hmem hi hj
  · obtain ⟨h₂, hmem₂, ⟨rfl, hi₂, hj₂⟩ | ⟨rfl, hi₂, hj₂⟩⟩ := own_head hij hmem₁ hi₁ hj₁
    · rw [eq_of_own_nil hmem₂ hi₂, hj₂]
      exact .inl rfl
    · obtain rfl | rfl := hread hmem₂ hi₂ hj₂
      · exact .inr (.inr ⟨j, i, hij, .inl rfl⟩)
      · exact .inr (.inr ⟨i, j, hij.symm, .inr rfl⟩)
  · obtain ⟨h₂, hmem₂, ⟨rfl, hi₂, hj₂⟩ | ⟨rfl, hi₂, hj₂⟩⟩ := own_head hij hmem₁ hi₁ hj₁
    · obtain rfl | rfl := hread hmem₂ hi₂ hj₂
      · exact .inr (.inr ⟨j, i, hij, .inr rfl⟩)
      · exact .inr (.inr ⟨i, j, hij.symm, .inl rfl⟩)
    · rw [eq_of_own_nil (fun e he => (hmem₂ e he).symm) hj₂, hi₂]
      exact .inr (.inl rfl)

@[simp] theorem access_read (c : Cell ρ) (i : Nat) :
    c.access f (i, .read) = ⟨c.value, Function.update c.copy i (some c.value)⟩ := rfl

@[simp] theorem access_write (c : Cell ρ) (i : Nat) :
    c.access f (i, .write) = ⟨((c.copy i).map (f i)).getD c.value, c.copy⟩ := rfl

/-- A thread on its own. -/
theorem value_alone {writes : Bool} (hgive : writes = false → f i x = x) (hmem : ∀ e ∈ h, e.1 = i)
    (hown : own i h = attempt writes) : (replay f x h).value = f i x := by
  have hnil : own (i + 1) h = [] := by
    refine List.filterMap_eq_nil_iff.mpr (fun e he => if_neg ?_)
    rw [hmem e he]
    exact Nat.ne_of_lt (Nat.lt_succ_self i)
  rw [eq_of_own_nil (fun e he => .inr (hmem e he)) hnil, hown]
  cases writes with
  | false => exact (hgive rfl).symm
  | true => simp [attempt, replay]

/-- A thread that only reads changes nothing for the other one. -/
theorem value_of_reads (hij : i ≠ j) (hmem : ∀ e ∈ h, e.1 = i ∨ e.1 = j)
    (hi : own i h = attempt false) {writes : Bool} (hj : own j h = attempt writes)
    (hgive : writes = false → f j x = x) : (replay f x h).value = f j x := by
  cases writes with
  | false =>
    rw [hgive rfl]
    obtain ⟨h', hmem', ⟨rfl, hi', hj'⟩ | ⟨rfl, hi', hj'⟩⟩ := own_head hij hmem hi hj
    · rw [eq_of_own_nil hmem' hi', hj']
      rfl
    · rw [eq_of_own_nil (fun e he => (hmem' e he).symm) hj', hi']
      rfl
  | true =>
    obtain ⟨h₁, hmem₁, ⟨rfl, hi₁, hj₁⟩ | ⟨rfl, hi₁, hj₁⟩⟩ := own_head hij hmem hi hj
    · rw [eq_of_own_nil hmem₁ hi₁, hj₁]
      simp [replay]
    · obtain ⟨h₂, hmem₂, ⟨rfl, hi₂, hj₂⟩ | ⟨rfl, hi₂, hj₂⟩⟩ := own_head hij hmem₁ hi₁ hj₁
      · rw [eq_of_own_nil hmem₂ hi₂, hj₂]
        simp [replay, hij.symm]
      · rw [eq_of_own_nil (fun e he => (hmem₂ e he).symm) hj₂, hi₂]
        simp [replay]

/-- The last writer has not seen what the other one wrote. -/
theorem value_of_overlap {l : Nat} (hover : Overlap h l) : (replay f x h).value = f l x := by
  obtain ⟨k, hkl, rfl | rfl⟩ := hover
  · simp [replay]
  · simp [replay, hkl.symm]

/-- Two threads that do not overlap leave what they leave one after the other, in one of the two
orders. -/
theorem value_serial (hij : i ≠ j) (hmem : ∀ e ∈ h, e.1 = i ∨ e.1 = j) {wi wj : Bool}
    (hi : own i h = attempt wi) (hj : own j h = attempt wj)
    (hgi : wi = false → ∀ x, f i x = x) (hgj : wj = false → ∀ x, f j x = x)
    (hover : ∀ l, ¬Overlap h l) :
    (replay f x h).value = f j (f i x) ∨ (replay f x h).value = f i (f j x) := by
  cases wi with
  | false =>
    rw [hgi rfl]
    exact .inl (value_of_reads hij hmem hi hj (fun hw => hgj hw x))
  | true =>
    cases wj with
    | false =>
      rw [hgj rfl x]
      exact .inr (value_of_reads hij.symm (fun e he => (hmem e he).symm) hj hi
        (fun hw => hgi hw x))
    | true =>
      obtain rfl | rfl | ⟨l, hl⟩ := overlap_or_serial hij hmem hi hj
      · exact .inl (by simp [replay])
      · exact .inr (by simp [replay])
      · exact absurd hl (hover l)

end Cell

end PeerCompute.Interleaving
