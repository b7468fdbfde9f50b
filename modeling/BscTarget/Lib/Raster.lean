import BscTarget.Lib.Memory
import Mathlib.Data.List.Nodup
import Mathlib.Data.List.ProdSigma
import Mathlib.Data.Nat.Bitwise
import Mathlib.Tactic.Ring

/-!
# Rasters

A raster is painted by storing a word for each of its points, and scanned by setting a bit for each
point that is on. Both are folds over the points row by row, so a word reads back what was painted
there (`getWord_stores`), and a bit is set where some point that sets it is on (`testBit_marks`).
-/

namespace Raster

/-! ## Points -/

/-- The points of a raster, row by row. -/
def points (rows columns : ℕ) : List (ℕ × ℕ) := List.range rows ×ˢ List.range columns

theorem mem_points {rows columns : ℕ} {p : ℕ × ℕ} :
    p ∈ points rows columns ↔ p.1 < rows ∧ p.2 < columns := by
  rw [points, List.mem_product, List.mem_range, List.mem_range]

theorem nodup_points (rows columns : ℕ) : (points rows columns).Nodup :=
  List.nodup_range.product List.nodup_range

/-- A loop in a loop is a loop over the points. -/
theorem foldl_points {β : Type*} (f : β → ℕ × ℕ → β) (b : β) (rows columns : ℕ) :
    (List.range rows).foldl (fun b y => (List.range columns).foldl (fun b x => f b (y, x)) b) b =
      (points rows columns).foldl f b := by
  show _ = ((List.range rows).flatMap fun y => (List.range columns).map (Prod.mk y)).foldl f b
  rw [List.foldl_flatMap]
  simp only [List.foldl_map]

theorem foldlM_points {β : Type*} (f : β → ℕ × ℕ → Option β) (b : β)
    (rows columns : ℕ) :
    (List.range rows).foldlM (fun b y => (List.range columns).foldlM (fun b x => f b (y, x)) b) b =
      (points rows columns).foldlM f b := by
  unfold points
  generalize List.range rows = l
  induction l generalizing b with
  | nil => rfl
  | cons y l ih =>
    rw [List.product_cons, List.foldlM_append, List.foldlM_map, List.foldlM_cons]
    exact bind_congr ih

/-- The sample in the middle of a point of an enlarged raster shows that point. -/
theorem sample_center {n width x : ℕ} (hn : 0 < n) (h : n ≤ width) :
    (2 * ((2 * x + 1) * width / (2 * n)) + 1) * n / (2 * width) = x := by
  obtain ⟨q, hq⟩ : ∃ q, q = (2 * x + 1) * width / (2 * n) := ⟨_, rfl⟩
  rw [← hq]
  have hlow : 2 * n * q ≤ (2 * x + 1) * width := by
    rw [hq]
    exact Nat.mul_div_le _ _
  have hhigh : (2 * x + 1) * width < 2 * n * (q + 1) := by
    rw [hq]
    exact Nat.lt_mul_div_succ _ (by omega)
  apply Nat.div_eq_of_lt_le
  · calc x * (2 * width) = (2 * x + 1) * width - width := by
          rw [Nat.add_mul, Nat.one_mul, Nat.add_sub_cancel]
          ring
      _ ≤ 2 * n * (q + 1) - n := by omega
      _ = (2 * q + 1) * n := by
          rw [show 2 * n * (q + 1) = (2 * q + 1) * n + n by ring, Nat.add_sub_cancel]
  · rcases Nat.lt_or_eq_of_le h with hlt | rfl
    · calc (2 * q + 1) * n = 2 * n * q + n := by ring
        _ < (2 * x + 1) * width + width := by omega
        _ = (x + 1) * (2 * width) := by ring
    · have hqx : q = x := by
        rw [hq, Nat.mul_comm 2 n, Nat.mul_comm _ n, Nat.mul_div_mul_left _ _ hn]
        omega
      rw [hqx]
      calc (2 * x + 1) * n < (2 * x + 2) * n := Nat.mul_lt_mul_of_pos_right (by omega) hn
        _ = (x + 1) * (2 * n) := by ring

/-! ## Words in memory -/

/-- A store of four bytes, the lowest first. -/
def putWord (m : Mem UInt8) (a : ℕ) (w : UInt32) : Mem UInt8 := fun i =>
  if a ≤ i ∧ i < a + 4 then UInt8.ofNat (w.toNat / 256 ^ (i - a)) else m i

def getWord (m : Mem UInt8) (a : ℕ) : UInt32 :=
  UInt32.ofNat ((m a).toNat + 256 * (m (a + 1)).toNat + 256 ^ 2 * (m (a + 2)).toNat +
    256 ^ 3 * (m (a + 3)).toNat)

theorem putWord_outside (m : Mem UInt8) {a i : ℕ} (w : UInt32) (h : i < a ∨ a + 4 ≤ i) :
    putWord m a w i = m i :=
  if_neg (by omega)

theorem toNat_putWord (m : Mem UInt8) (a : ℕ) {k : ℕ} (w : UInt32) (h : k < 4) :
    (putWord m a w (a + k)).toNat = w.toNat / 256 ^ k % 256 := by
  rw [putWord, if_pos (by omega), UInt8.toNat_ofNat', Nat.add_sub_cancel_left]

theorem getWord_congr {m m' : Mem UInt8} {a : ℕ} (h : ∀ k < 4, m (a + k) = m' (a + k)) :
    getWord m a = getWord m' a := by
  have h₀ : m a = m' a := h 0 (by decide)
  rw [getWord, getWord, h₀, h 1 (by decide), h 2 (by decide), h 3 (by decide)]

@[simp] theorem getWord_putWord (m : Mem UInt8) (a : ℕ) (w : UInt32) :
    getWord (putWord m a w) a = w := by
  have h₀ : (putWord m a w a).toNat = w.toNat / 256 ^ 0 % 256 :=
    toNat_putWord m a w (by decide : 0 < 4)
  have hw : w.toNat < 2 ^ 32 := w.toNat_lt
  apply UInt32.toNat_inj.mp
  rw [getWord, h₀, toNat_putWord m a w (by decide : 1 < 4), toNat_putWord m a w (by decide : 2 < 4),
    toNat_putWord m a w (by decide : 3 < 4), UInt32.toNat_ofNat']
  omega

/-! ## Painting -/

section Stores

variable {α : Type*} (addr : α → ℕ) (value : α → UInt32)

/-- The stores of a list of points. -/
def stores (m : Mem UInt8) (l : List α) : Mem UInt8 :=
  l.foldl (fun m p => putWord m (addr p) (value p)) m

variable {addr value}

theorem stores_outside {m : Mem UInt8} {l : List α} {i : ℕ}
    (h : ∀ p ∈ l, i < addr p ∨ addr p + 4 ≤ i) : stores addr value m l i = m i := by
  induction l generalizing m with
  | nil => rfl
  | cons p l ih =>
    calc stores addr value (putWord m (addr p) (value p)) l i
        = putWord m (addr p) (value p) i := ih fun q hq => h q (List.mem_cons_of_mem p hq)
      _ = m i := putWord_outside m _ (h p List.mem_cons_self)

/-- Where no two words overlap, every point has the word that was stored for it. -/
theorem getWord_stores {m : Mem UInt8} {l : List α} (hl : l.Nodup)
    (h : ∀ p ∈ l, ∀ q ∈ l, p ≠ q → addr p + 4 ≤ addr q ∨ addr q + 4 ≤ addr p) {p : α}
    (hp : p ∈ l) : getWord (stores addr value m l) (addr p) = value p := by
  induction l generalizing m with
  | nil => cases hp
  | cons q l ih =>
    obtain ⟨hq, hnodup⟩ := List.nodup_cons.mp hl
    rcases List.mem_cons.mp hp with rfl | hmem
    · have hlater : ∀ k < 4, stores addr value (putWord m (addr p) (value p)) l (addr p + k) =
          putWord m (addr p) (value p) (addr p + k) := by
        intro k hk
        apply stores_outside
        intro r hr
        have hne : p ≠ r := fun heq => hq (heq ▸ hr)
        have := h p List.mem_cons_self r (List.mem_cons_of_mem p hr) hne
        omega
      exact (getWord_congr hlater).trans (getWord_putWord m _ _)
    · exact ih hnodup
        (fun r hr t ht => h r (List.mem_cons_of_mem q hr) t (List.mem_cons_of_mem q ht)) hmem

end Stores

/-! ## Scanning -/

section Marks

variable {n : ℕ}

/-- Sets the bit `b` of the byte `c`. -/
def mark (f : Vector UInt8 n) (c b : ℕ) : Vector UInt8 n :=
  Vector.ofFn fun i => if i.val = c then f.get i ||| 1 <<< UInt8.ofNat b else f.get i

theorem toNat_one_shiftLeft {b : ℕ} (hb : b < 8) : (1 <<< UInt8.ofNat b : UInt8).toNat = 2 ^ b := by
  have hlt : 2 ^ b < 2 ^ 8 := Nat.pow_lt_pow_right (by decide) hb
  have hmod : b % 2 ^ 8 % 8 = b := by omega
  rw [UInt8.toNat_shiftLeft, UInt8.toNat_ofNat', hmod]
  show 1 <<< b % 2 ^ 8 = 2 ^ b
  rw [Nat.one_shiftLeft, Nat.mod_eq_of_lt hlt]

/-- The test of one bit. -/
theorem and_shiftLeft_ne_zero (b : UInt8) {k : ℕ} (hk : k < 8) :
    b &&& 1 <<< UInt8.ofNat k ≠ 0 ↔ b.toNat.testBit k = true := by
  have hpos : 0 < 2 ^ k := Nat.two_pow_pos k
  rw [← UInt8.toNat_inj.ne, UInt8.toNat_and, toNat_one_shiftLeft hk, Nat.and_two_pow]
  cases b.toNat.testBit k with
  | true => simp
  | false => simp

theorem testBit_mark (f : Vector UInt8 n) {c b : ℕ} (hb : b < 8) {i : ℕ} (hi : i < n) (k : ℕ) :
    (mark f c b)[i].toNat.testBit k = (f[i].toNat.testBit k || decide (c = i ∧ b = k)) := by
  unfold mark
  rw [Vector.getElem_ofFn]
  show (if i = c then f[i] ||| 1 <<< UInt8.ofNat b else f[i]).toNat.testBit k = _
  by_cases hc : i = c
  · rw [if_pos hc, UInt8.toNat_or, toNat_one_shiftLeft hb, Nat.testBit_or, Nat.testBit_two_pow]
    simp only [hc, true_and]
  · rw [if_neg hc, decide_eq_false fun h => hc h.1.symm, Bool.or_false]

variable {α : Type*} (on : α → Option Bool) (cell bit : α → ℕ)

/-- A scan gives up at a point that is neither on nor off. -/
def marks (f : Vector UInt8 n) (l : List α) : Option (Vector UInt8 n) :=
  l.foldlM (fun f p => (on p).map fun lit => if lit then mark f (cell p) (bit p) else f) f

variable {on cell bit}

/-- A scan that sees every point sets the bits of those that are on, and no others. -/
theorem testBit_marks (value : α → Bool) {l : List α} (hon : ∀ p ∈ l, on p = some (value p))
    (hbit : ∀ p ∈ l, bit p < 8) (f : Vector UInt8 n) :
    ∃ g, marks on cell bit f l = some g ∧ ∀ (i : ℕ) (hi : i < n) (k : ℕ),
      g[i].toNat.testBit k =
        (f[i].toNat.testBit k || l.any fun p => value p && decide (cell p = i ∧ bit p = k)) := by
  induction l generalizing f with
  | nil => exact ⟨f, rfl, fun i hi k => (Bool.or_false _).symm⟩
  | cons p l ih =>
    have hp : on p = some (value p) := hon p List.mem_cons_self
    obtain ⟨g, hg, hbits⟩ := ih (fun q hq => hon q (List.mem_cons_of_mem p hq))
      (fun q hq => hbit q (List.mem_cons_of_mem p hq))
      (if value p then mark f (cell p) (bit p) else f)
    refine ⟨g, ?_, fun i hi k => ?_⟩
    · rw [← hg, marks, List.foldlM_cons, hp]
      rfl
    · rw [hbits i hi k, List.any_cons, ← Bool.or_assoc]
      congr 1
      cases value p with
      | true => exact testBit_mark f (hbit p List.mem_cons_self) hi k
      | false => exact (Bool.or_false _).symm

/-- A scan that comes to its end has seen every point. -/
theorem on_of_marks {l : List α} {f g : Vector UInt8 n} (h : marks on cell bit f l = some g) :
    ∀ p ∈ l, ∃ lit, on p = some lit := by
  induction l generalizing f with
  | nil => exact fun p hp => by cases hp
  | cons p l ih =>
    rw [marks, List.foldlM_cons] at h
    obtain ⟨f', hstep, hrest⟩ := Option.bind_eq_some_iff.mp h
    obtain ⟨lit, hlit, -⟩ := Option.map_eq_some_iff.mp hstep
    intro q hq
    rcases List.mem_cons.mp hq with rfl | hmem
    · exact ⟨lit, hlit⟩
    · exact ih hrest q hmem

end Marks

end Raster
