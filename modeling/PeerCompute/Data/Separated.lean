import Mathlib.Data.List.Basic

/-! Texts made of decimal numbers and separators are read back in only one way. -/

universe u

namespace PeerCompute.Data

theorem append_sep_inj {α : Type u} {c : α} {l l' r r' : List α} (hl : c ∉ l) (hl' : c ∉ l')
    (h : l ++ c :: r = l' ++ c :: r') : l = l' ∧ r = r' := by
  induction l generalizing l' with
  | nil =>
    cases l' with
    | nil =>
      cases h
      exact ⟨rfl, rfl⟩
    | cons x l' =>
      cases h
      exact absurd (List.mem_cons_self) hl'
  | cons x l ih =>
    cases l' with
    | nil =>
      cases h
      exact absurd (List.mem_cons_self) hl
    | cons y l' =>
      simp only [List.cons_append, List.cons.injEq] at h
      obtain ⟨rfl, h⟩ := h
      obtain ⟨rfl, rfl⟩ := ih (fun hc => hl (.tail _ hc)) (fun hc => hl' (.tail _ hc)) h
      exact ⟨rfl, rfl⟩

theorem notMem_intercalate {α : Type u} {c sep : α} {ls : List (List α)} (hsep : c ≠ sep)
    (hls : ∀ l ∈ ls, c ∉ l) : c ∉ [sep].intercalate ls := by
  induction ls with
  | nil => simp
  | cons l ls ih =>
    have hrest := ih (fun l' hl' => hls l' (.tail _ hl'))
    cases ls with
    | nil =>
      rw [List.intercalate_singleton]
      exact hls l (.head _)
    | cons l' ls =>
      simp only [List.intercalate_cons_cons, List.mem_append, List.mem_singleton]
      rintro ((hc | hc) | hc)
      · exact hls l (.head _) hc
      · exact hsep hc
      · exact hrest hc

theorem notMem_repr {c : Char} (hc : c.isDigit = false) (n : Nat) : c ∉ n.repr.toList := by
  intro h
  rw [Nat.toList_repr] at h
  have hd := Nat.isDigit_of_mem_toDigits (by omega) (by omega) h
  rw [hc] at hd
  cases hd

theorem repr_inj {m n : Nat} (h : m.repr.toList = n.repr.toList) : m = n := by
  have h' := congrArg (fun l => Nat.ofDigitChars 10 l 0) h
  simpa only [Nat.toList_repr, Nat.ofDigitChars_ten_toDigits] using h'

end PeerCompute.Data
