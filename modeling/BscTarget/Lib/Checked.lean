import Mathlib.Data.List.Basic
import BscTarget.Lib.Memory

/-!
# Checked operations

Indices, ranges and unsigned arithmetic that panic where they leave their bounds, as operations in
`Except Panic`, and the accesses to an array of a fixed size. Each has one lemma, for operands
within the bounds.
-/

inductive Panic
  /-- An index or a range that leaves its slice. -/
  | bounds
  /-- A copy between slices of different lengths. -/
  | length
  /-- Arithmetic that leaves its type. -/
  | overflow
  /-- A loop that goes on. -/
  | endless
  deriving DecidableEq

namespace Checked

variable {α β : Type}

/-- `l[i]` -/
def index (l : List α) (i : ℕ) : Except Panic α :=
  match l[i]? with
  | some a => .ok a
  | none => .error .bounds

/-- `l[start..stop]` -/
def slice (l : List α) (start stop : ℕ) : Except Panic (List α) :=
  if start ≤ stop ∧ stop ≤ l.length then .ok ((l.drop start).take (stop - start))
  else .error .bounds

/-- What `l.drain(..count)` leaves. -/
def drain (l : List α) (count : ℕ) : Except Panic (List α) :=
  if count ≤ l.length then .ok (l.drop count) else .error .bounds

/-- What `l.remove(0)` leaves. -/
def removeFirst : List α → Except Panic (List α)
  | [] => .error .bounds
  | _ :: l => .ok l

def add (max a b : ℕ) : Except Panic ℕ := if a + b ≤ max then .ok (a + b) else .error .overflow

def mul (max a b : ℕ) : Except Panic ℕ := if a * b ≤ max then .ok (a * b) else .error .overflow

def sub (a b : ℕ) : Except Panic ℕ := if b ≤ a then .ok (a - b) else .error .overflow

/-- `1 << amount` on bytes -/
def bit (amount : UInt8) : Except Panic UInt8 :=
  if amount.toNat < 8 then .ok (1 <<< amount) else .error .overflow

@[simp] theorem ok_bind (a : α) (f : α → Except Panic β) : (Except.ok a >>= f) = f a := rfl

theorem index_of_lt {l : List α} {i : ℕ} (h : i < l.length) (d : α) :
    index l i = .ok (l.getD i d) := by
  rw [index, List.getD_eq_getElem?_getD, List.getElem?_eq_getElem h]
  rfl

theorem slice_of_le {l : List α} {start stop : ℕ} (h : start ≤ stop) (hl : stop ≤ l.length) :
    slice l start stop = .ok ((l.drop start).take (stop - start)) := if_pos ⟨h, hl⟩

theorem drain_of_le {l : List α} {count : ℕ} (h : count ≤ l.length) :
    drain l count = .ok (l.drop count) := if_pos h

theorem removeFirst_of_ne {l : List α} (h : l ≠ []) : removeFirst l = .ok l.tail := by
  obtain ⟨a, l, rfl⟩ := List.exists_cons_of_ne_nil h
  rfl

theorem add_of_le {max a b : ℕ} (h : a + b ≤ max) : add max a b = .ok (a + b) := if_pos h

theorem mul_of_le {max a b : ℕ} (h : a * b ≤ max) : mul max a b = .ok (a * b) := if_pos h

theorem sub_of_le {a b : ℕ} (h : b ≤ a) : sub a b = .ok (a - b) := if_pos h

theorem bit_of_lt {amount : UInt8} (h : amount.toNat < 8) : bit amount = .ok (1 <<< amount) :=
  if_pos h

/-! ## Arrays of a fixed size -/

/-- `m[i]` -/
def fetch (size : ℕ) (m : Mem α) (i : ℕ) : Except Panic α :=
  if i < size then .ok (m i) else .error .bounds

/-- `m[i] = a` -/
def store (size : ℕ) (m : Mem α) (i : ℕ) (a : α) : Except Panic (Mem α) :=
  if i < size then .ok (Function.update m i a) else .error .bounds

/-- `memcpy` of the first `n` cells of `src` over `dst`. -/
def copy (dstSize : ℕ) (dst : Mem α) (srcSize : ℕ) (src : Mem α) (n : ℕ) :
    Except Panic (Mem α) :=
  if n ≤ dstSize ∧ n ≤ srcSize then .ok (dst.copy src n) else .error .bounds

/-- A copy of the list `l` to the start of the array. -/
def load (size : ℕ) (m : Mem α) (l : List α) : Except Panic (Mem α) :=
  if l.length ≤ size then .ok (m.load l) else .error .bounds

/-- The first `n` cells. -/
def read (size : ℕ) (m : Mem α) (n : ℕ) : Except Panic (List α) :=
  if n ≤ size then .ok (m.read n) else .error .bounds

theorem fetch_of_lt {size i : ℕ} (h : i < size) (m : Mem α) : fetch size m i = .ok (m i) :=
  if_pos h

theorem store_of_lt {size i : ℕ} (h : i < size) (m : Mem α) (a : α) :
    store size m i a = .ok (Function.update m i a) := if_pos h

theorem copy_of_le {dstSize srcSize n : ℕ} (hd : n ≤ dstSize) (hs : n ≤ srcSize)
    (dst src : Mem α) : copy dstSize dst srcSize src n = .ok (dst.copy src n) := if_pos ⟨hd, hs⟩

theorem load_of_le {size : ℕ} {l : List α} (h : l.length ≤ size) (m : Mem α) :
    load size m l = .ok (m.load l) := if_pos h

theorem read_of_le {size n : ℕ} (h : n ≤ size) (m : Mem α) : read size m n = .ok (m.read n) :=
  if_pos h

/-! ## Loops -/

/-- A loop whose rounds succeed computes what its rounds compute. -/
theorem foldlM_ok {f : β → α → Except Panic β} {g : β → α → β} {l : List α}
    (h : ∀ b, ∀ a ∈ l, f b a = .ok (g b a)) (b : β) : l.foldlM f b = .ok (l.foldl g b) := by
  induction l generalizing b with
  | nil => rfl
  | cons a l ih =>
    rw [List.foldlM_cons, h b a List.mem_cons_self, ok_bind, List.foldl_cons]
    exact ih (fun b a ha => h b a (List.mem_cons_of_mem _ ha)) (g b a)

end Checked
