import Mathlib.Data.List.Basic
import Mathlib.Data.List.Range
import Mathlib.Logic.Function.Basic
import Mathlib.Data.Nat.ModEq

/-!
# Ring buffers and the queues they hold

`Ring.contents` is the list held by a ring of `cap` slots from `head` on; storing at the tail
appends to it and advancing the head drops its first element. `Ring.Holds` says that the numbers
of a ring agree and that a property holds of all it contains. `Ledger` is the queue itself with
the fate of every element that has left it: whatever was enqueued is, in order, what left
followed by what is still queued.
-/

namespace Ring

variable {α : Type*} {cap : ℕ}

/-- The `count` slots from `head` on, wrapping at `cap`. -/
def contents (cap : ℕ) (slots : ℕ → α) (head count : ℕ) : List α :=
  (List.range count).map fun i => slots ((head + i) % cap)

@[simp] theorem length_contents (slots : ℕ → α) (head count : ℕ) :
    (contents cap slots head count).length = count := by simp [contents]

/-- Two different offsets below the capacity name two different slots. -/
theorem index_ne {head i j : ℕ} (hi : i < cap) (hj : j < cap) (h : i ≠ j) :
    (head + i) % cap ≠ (head + j) % cap := by
  intro he
  have hm : i % cap = j % cap := Nat.ModEq.add_left_cancel' head he
  rw [Nat.mod_eq_of_lt hi, Nat.mod_eq_of_lt hj] at hm
  exact h hm

/-- A store at the tail of a ring that is not full appends. -/
theorem contents_store (slots : ℕ → α) {head count : ℕ} (h : count < cap) (a : α) :
    contents cap (Function.update slots ((head + count) % cap) a) head (count + 1) =
      contents cap slots head count ++ [a] := by
  unfold contents
  rw [List.range_succ, List.map_append, List.map_cons, List.map_nil, Function.update_self]
  congr 1
  refine List.map_congr_left fun i hi => Function.update_of_ne ?_ _ _
  have hi' := List.mem_range.mp hi
  exact index_ne (by omega) h (by omega)

/-- The head slot and the ring behind it. -/
theorem contents_advance (slots : ℕ → α) {head count : ℕ} (h : head < cap) :
    contents cap slots head (count + 1) =
      slots head :: contents cap slots ((head + 1) % cap) count := by
  unfold contents
  rw [List.range_succ_eq_map, List.map_cons, List.map_map, Nat.add_zero, Nat.mod_eq_of_lt h]
  congr 1
  refine List.map_congr_left fun i _ => ?_
  show slots ((head + (i + 1)) % cap) = slots (((head + 1) % cap + i) % cap)
  rw [Nat.mod_add_mod]
  congr 2
  omega

/-- The tail stays `count` slots behind the head when a slot is stored. -/
theorem tail_store (head count : ℕ) :
    ((head + count) % cap + 1) % cap = (head + (count + 1)) % cap := by
  rw [Nat.mod_add_mod, Nat.add_assoc]

/-- The tail stays `count` slots behind the head when the head advances. -/
theorem tail_advance (head count : ℕ) :
    ((head + 1) % cap + count) % cap = (head + (count + 1)) % cap := by
  rw [Nat.mod_add_mod]
  congr 1
  omega

/-- A ring whose numbers agree and whose elements all satisfy `P`. -/
structure Holds (P : α → Prop) (cap : ℕ) (slots : ℕ → α) (head tail count : ℕ) : Prop where
  head_lt : head < cap
  wrap : tail = (head + count) % cap
  count_le : count ≤ cap
  all : ∀ a ∈ contents cap slots head count, P a

namespace Holds

variable {P : α → Prop} {slots : ℕ → α} {head tail count : ℕ}

theorem empty (hcap : 0 < cap) (slots : ℕ → α) : Holds P cap slots 0 0 0 where
  head_lt := hcap
  wrap := (Nat.mod_eq_of_lt hcap).symm
  count_le := Nat.zero_le cap
  all := fun a ha => by simp [contents] at ha

theorem tail_lt (h : Holds P cap slots head tail count) : tail < cap := by
  rw [h.wrap]
  exact Nat.mod_lt _ (Nat.zero_lt_of_lt h.head_lt)

/-- The head slot of a ring that is not empty. -/
theorem at_head (h : Holds P cap slots head tail count) (hc : count ≠ 0) : P (slots head) := by
  obtain ⟨n, rfl⟩ := Nat.exists_eq_succ_of_ne_zero hc
  apply h.all
  rw [Nat.succ_eq_add_one, contents_advance slots h.head_lt]
  exact List.mem_cons_self

/-- The oldest element leaves. -/
theorem advance (h : Holds P cap slots head tail count) (hc : count ≠ 0) :
    Holds P cap slots ((head + 1) % cap) tail (count - 1) := by
  obtain ⟨n, rfl⟩ := Nat.exists_eq_succ_of_ne_zero hc
  refine ⟨Nat.mod_lt _ (Nat.zero_lt_of_lt h.head_lt), ?_, Nat.le_of_succ_le h.count_le, ?_⟩
  · rw [Nat.succ_sub_one, tail_advance]
    exact h.wrap
  · intro a ha
    apply h.all
    rw [Nat.succ_eq_add_one, contents_advance slots h.head_lt]
    exact List.mem_cons_of_mem _ ha

/-- A ring with room takes an element at its tail. -/
theorem store (h : Holds P cap slots head tail count) (hc : count < cap) {a : α} (ha : P a) :
    Holds P cap (Function.update slots tail a) head ((tail + 1) % cap) (count + 1) := by
  refine ⟨h.head_lt, ?_, hc, ?_⟩
  · rw [h.wrap, tail_store]
  · intro b hb
    rw [h.wrap, contents_store slots hc, List.mem_append, List.mem_singleton] at hb
    rcases hb with hb | rfl
    · exact h.all b hb
    · exact ha

end Holds

end Ring

/-- A queue together with the elements that have left it, each with its fate. -/
structure Ledger (τ α : Type*) where
  gone : List (τ × α)
  queue : List α

namespace Ledger

variable {τ α : Type*}

/-- Nothing enqueued yet. -/
def empty : Ledger τ α := ⟨[], []⟩

def enqueue (q : Ledger τ α) (a : α) : Ledger τ α := { q with queue := q.queue ++ [a] }

/-- The oldest element leaves with fate `t`. -/
def remove (q : Ledger τ α) (t : τ) : Ledger τ α :=
  match q.queue with
  | [] => q
  | a :: rest => ⟨q.gone ++ [(t, a)], rest⟩

/-- Every queued element leaves with fate `t`. -/
def clear (q : Ledger τ α) (t : τ) : Ledger τ α := ⟨q.gone ++ q.queue.map fun a => (t, a), []⟩

/-- Everything ever enqueued, in order. -/
def all (q : Ledger τ α) : List α := q.gone.map Prod.snd ++ q.queue

/-- The elements that left with fate `t`, in order. -/
def leftAs [DecidableEq τ] (q : Ledger τ α) (t : τ) : List α :=
  (q.gone.filter fun x => x.1 = t).map Prod.snd

@[simp] theorem all_enqueue (q : Ledger τ α) (a : α) : (q.enqueue a).all = q.all ++ [a] := by
  simp [all, enqueue]

@[simp] theorem all_remove (q : Ledger τ α) (t : τ) : (q.remove t).all = q.all := by
  unfold remove
  cases h : q.queue <;> simp [all, h]

@[simp] theorem all_clear (q : Ledger τ α) (t : τ) : (q.clear t).all = q.all := by
  simp [all, clear, Function.comp_def]

theorem remove_cons {q : Ledger τ α} {a : α} {rest : List α} (h : q.queue = a :: rest) (t : τ) :
    q.remove t = ⟨q.gone ++ [(t, a)], rest⟩ := by
  unfold remove
  rw [h]

theorem queue_remove (q : Ledger τ α) (t : τ) : (q.remove t).queue = q.queue.tail := by
  unfold remove
  cases h : q.queue <;> simp [h]

section LeftAs

variable [DecidableEq τ]

theorem leftAs_remove_ne (q : Ledger τ α) {t t' : τ} (h : t ≠ t') :
    (q.remove t).leftAs t' = q.leftAs t' := by
  unfold remove
  cases q.queue <;> simp [leftAs, h]

theorem leftAs_clear_ne (q : Ledger τ α) {t t' : τ} (h : t ≠ t') :
    (q.clear t).leftAs t' = q.leftAs t' := by
  simp [leftAs, clear, List.filter_map, Function.comp_def, h]

theorem leftAs_remove_cons {q : Ledger τ α} {a : α} {rest : List α} (h : q.queue = a :: rest)
    (t : τ) : (q.remove t).leftAs t = q.leftAs t ++ [a] := by
  simp [remove_cons h, leftAs]

/-- Where every element left with one fate, these are all that left. -/
theorem leftAs_eq (q : Ledger τ α) {t : τ} (h : ∀ x ∈ q.gone, x.1 = t) :
    q.leftAs t = q.gone.map Prod.snd := by
  rw [leftAs, List.filter_eq_self.mpr fun x hx => decide_eq_true (h x hx)]

end LeftAs

/-- The queue is what was enqueued last. -/
theorem queue_eq_drop (q : Ledger τ α) : q.queue = q.all.drop (q.all.length - q.queue.length) := by
  simp [all]

end Ledger
