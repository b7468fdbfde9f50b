import Mathlib.Data.Nat.Bitwise

/-!
# Bits of a register

`Fields.insert mask value old` is `old` with the bits of `mask` taken from `value`. What it is on
the mask and off it (`and_insert`, `insert_outside`) is all there is to a word (`eq_of_and`).
-/

namespace Fields

variable {a b m : UInt32}

theorem or_and (a b m : UInt32) : (a ||| b) &&& m = (a &&& m) ||| (b &&& m) := by
  apply UInt32.toBitVec_inj.mp
  ext i
  simp [Bool.and_or_distrib_right]

theorem or_and_eq_zero {a b m : UInt32} : (a ||| b) &&& m = 0 ↔ a &&& m = 0 ∧ b &&& m = 0 := by
  rw [or_and, UInt32.or_eq_zero_iff]

/-- A raised bit stays raised. -/
theorem or_and_ne_zero {a b m : UInt32} (h : a &&& m ≠ 0 ∨ b &&& m ≠ 0) : (a ||| b) &&& m ≠ 0 := by
  rw [Ne, or_and_eq_zero, not_and_or]
  exact h

theorem and_or_self (a b : UInt32) : a &&& (b ||| a) = a := by
  apply UInt32.toBitVec_inj.mp
  ext i
  simp only [UInt32.toBitVec_and, UInt32.toBitVec_or, BitVec.getElem_and, BitVec.getElem_or]
  grind

/-- What lies within a mask still does with fewer bits. -/
theorem and_within (h : a &&& m = a) (w : UInt32) : a &&& w &&& m = a &&& w := by
  rw [UInt32.and_assoc, UInt32.and_comm w m, ← UInt32.and_assoc, h]

theorem or_within (ha : a &&& m = a) (hb : b &&& m = b) : (a ||| b) &&& m = a ||| b := by
  rw [or_and, ha, hb]

/-! ## Fields -/

def insert (mask value old : UInt32) : UInt32 := (old &&& ~~~mask) ||| (value &&& mask)

theorem and_insert (mask value old : UInt32) : insert mask value old &&& mask = value &&& mask := by
  apply UInt32.toBitVec_inj.mp
  ext i
  simp only [insert, UInt32.toBitVec_and, UInt32.toBitVec_or, UInt32.toBitVec_not,
    BitVec.getElem_and, BitVec.getElem_or, BitVec.getElem_not]
  grind

theorem insert_self (mask value : UInt32) : insert mask value value = value := by
  apply UInt32.toBitVec_inj.mp
  ext i
  simp only [insert, UInt32.toBitVec_and, UInt32.toBitVec_or, UInt32.toBitVec_not,
    BitVec.getElem_and, BitVec.getElem_or, BitVec.getElem_not]
  grind

theorem insert_outside (mask value old : UInt32) :
    insert mask value old &&& ~~~mask = old &&& ~~~mask := by
  apply UInt32.toBitVec_inj.mp
  ext i
  simp only [insert, UInt32.toBitVec_and, UInt32.toBitVec_or, UInt32.toBitVec_not,
    BitVec.getElem_and, BitVec.getElem_or, BitVec.getElem_not]
  grind

/-- What agrees with the old word is not changed by the rest of the new one. -/
theorem insert_and {mask value old : UInt32} (h : value &&& m = old &&& m) :
    insert mask value old &&& m = old &&& m := by
  have hsplit : insert mask value old &&& m = (old &&& m &&& ~~~mask) ||| (value &&& m &&& mask) := by
    apply UInt32.toBitVec_inj.mp
    ext i
    simp only [insert, UInt32.toBitVec_and, UInt32.toBitVec_or, UInt32.toBitVec_not,
      BitVec.getElem_and, BitVec.getElem_or, BitVec.getElem_not]
    grind
  rw [hsplit, h]
  exact insert_self mask (old &&& m)

/-- A word is what it is on a mask and off it. -/
theorem eq_of_and (hin : a &&& m = b &&& m) (hout : a &&& ~~~m = b &&& ~~~m) : a = b := by
  have hsplit : ∀ w : UInt32, w = (w &&& m) ||| (w &&& ~~~m) := by
    intro w
    apply UInt32.toBitVec_inj.mp
    ext i
    simp only [UInt32.toBitVec_and, UInt32.toBitVec_or, UInt32.toBitVec_not,
      BitVec.getElem_and, BitVec.getElem_or, BitVec.getElem_not]
    grind
  rw [hsplit a, hsplit b, hin, hout]

theorem xor_and (a b m : UInt32) : (a ^^^ b) &&& m = (a &&& m) ^^^ (b &&& m) := by
  apply UInt32.toBitVec_inj.mp
  ext i
  simp only [UInt32.toBitVec_and, UInt32.toBitVec_xor, BitVec.getElem_and, BitVec.getElem_xor]
  grind

/-- Two words agree on a mask. -/
theorem xor_and_eq_zero : (a ^^^ b) &&& m = 0 ↔ a &&& m = b &&& m := by
  rw [xor_and, UInt32.xor_eq_zero_iff]

/-- The whole word is written if it differs from the old one only in what can be written. -/
theorem insert_eq {mask value old : UInt32} (hm : m &&& mask = m)
    (h : value &&& ~~~m = old &&& ~~~m) : insert mask value old = value := by
  refine eq_of_and (m := m) ?_ ((insert_and h).trans h.symm)
  have hin := congrArg (· &&& m) (and_insert mask value old)
  simp only [UInt32.and_assoc, UInt32.and_comm mask m, hm] at hin
  exact hin

end Fields
