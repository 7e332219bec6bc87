import Mathlib.Data.List.Basic

/-! A buffer that is read into again and again: what a read does not overwrite stays. -/

universe u

namespace PeerCompute.Data

variable {α : Type u}

/-- The number of elements read, and the buffer afterwards. -/
def readInto (buf data : List α) : Nat × List α :=
  (min data.length buf.length, data.take buf.length ++ buf.drop data.length)

@[simp] theorem length_readInto (buf data : List α) : (readInto buf data).2.length = buf.length := by
  simp only [readInto, List.length_append, List.length_take, List.length_drop]
  omega

/-- Up to what was read, the buffer holds the data. -/
theorem take_readInto {buf data : List α} {k : Nat} (hk : k ≤ (readInto buf data).1) :
    (readInto buf data).2.take k = data.take k := by
  have hmin : k ≤ min data.length buf.length := hk
  simp only [readInto]
  rw [List.take_append_of_le_length (by rw [List.length_take]; omega), List.take_take,
    Nat.min_eq_left (by omega)]

theorem take_readInto_self (buf data : List α) :
    (readInto buf data).2.take (readInto buf data).1 = data.take buf.length := by
  rw [take_readInto (Nat.le_refl _)]
  simp only [readInto]
  rw [Nat.min_comm, ← List.take_take, List.take_length]

end PeerCompute.Data
