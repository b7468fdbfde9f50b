import Mathlib.Data.List.Basic
import Mathlib.Data.List.Range
import Mathlib.Logic.Function.Basic

/-!
# Arrays read up to a length

A C array together with a length field is a total memory `ℕ → α` of which only the first `n`
cells count. `Mem.read` is that prefix as a list; the lemmas say how a store at the end, a
`memcpy` and a copy from a list change it.
-/

/-- The cells of an array. -/
abbrev Mem (α : Type*) := ℕ → α

namespace Mem

variable {α : Type*}

/-- The first `n` cells. -/
def read (m : Mem α) (n : ℕ) : List α := (List.range n).map m

/-- `memcpy` of the first `n` cells of `src` over `dst`. -/
def copy (dst src : Mem α) (n : ℕ) : Mem α := fun i => if i < n then src i else dst i

/-- A copy of the list `l` to the start of the array. -/
def load (m : Mem α) (l : List α) : Mem α := fun i => l.getD i (m i)

@[simp] theorem length_read (m : Mem α) (n : ℕ) : (m.read n).length = n := by simp [read]

theorem read_succ (m : Mem α) (n : ℕ) : m.read (n + 1) = m.read n ++ [m n] := by
  simp [read, List.range_succ]

theorem read_congr {m m' : Mem α} {n : ℕ} (h : ∀ i < n, m i = m' i) : m.read n = m'.read n := by
  unfold read
  exact List.map_congr_left fun i hi => h i (List.mem_range.mp hi)

/-- A store behind the prefix extends it by one element. -/
@[simp] theorem read_update_succ (m : Mem α) (n : ℕ) (a : α) :
    read (Function.update m n a) (n + 1) = m.read n ++ [a] := by
  rw [read_succ, Function.update_self]
  congr 1
  exact read_congr fun i hi => Function.update_of_ne (by omega) _ _

@[simp] theorem read_copy (dst src : Mem α) (n : ℕ) : (dst.copy src n).read n = src.read n :=
  read_congr fun i hi => by simp [copy, hi]

@[simp] theorem read_load (m : Mem α) (l : List α) : (m.load l).read l.length = l := by
  apply List.ext_getElem
  · simp
  · intro i h₁ h₂
    simp [read, load, h₂]

theorem read_prefix (m : Mem α) {n k : ℕ} (h : n ≤ k) : m.read n <+: m.read k := by
  obtain ⟨d, rfl⟩ := Nat.exists_eq_add_of_le h
  rw [read, read, List.range_add, List.map_append]
  exact List.prefix_append _ _

end Mem
