import Mathlib.Data.List.Basic
import Mathlib.Data.List.Infix
import Mathlib.Order.Defs.PartialOrder

/-!
# Growing histories

A history is a list with its newest entry first. `Grows p l l'`: `l'` is `l` and newer entries,
all of the kind `p`. What ignores entries of that kind says the same of both (`Grows.frame`).
`collected f l` is what the entries of `l` carry, and `latest f b l` what the newest of them says
that says anything. `Throughout P l`: every entry of `l` stands in the relation `P` to the entries
before it.
-/

/-- `l'` adds entries of the kind `p` to `l`. -/
def Grows {ε : Type*} (p : ε → Prop) (l l' : List ε) : Prop :=
  ∃ new, l' = new ++ l ∧ ∀ e ∈ new, p e

namespace Grows

variable {ε : Type*} {p p' : ε → Prop} {l l' l'' : List ε}

theorem refl (l : List ε) : Grows p l l := ⟨[], rfl, fun e he => by cases he⟩

theorem cons (h : Grows p l l') {e : ε} (he : p e) : Grows p l (e :: l') := by
  obtain ⟨new, rfl, hnew⟩ := h
  refine ⟨e :: new, rfl, ?_⟩
  intro e' he'
  rcases List.mem_cons.mp he' with rfl | he'
  · exact he
  · exact hnew e' he'

theorem trans (h : Grows p l l') (h' : Grows p l' l'') : Grows p l l'' := by
  obtain ⟨new, rfl, hnew⟩ := h
  obtain ⟨new', rfl, hnew'⟩ := h'
  refine ⟨new' ++ new, (List.append_assoc _ _ _).symm, fun e he => ?_⟩
  exact (List.mem_append.mp he).elim (hnew' e) (hnew e)

theorem mono (h : Grows p l l') (hp : ∀ e, p e → p' e) : Grows p' l l' := by
  obtain ⟨new, rfl, hnew⟩ := h
  exact ⟨new, rfl, fun e he => hp e (hnew e he)⟩

theorem suffix (h : Grows p l l') : l <:+ l' := by
  obtain ⟨new, rfl, -⟩ := h
  exact List.suffix_append new l

/-- What every entry of the kind keeps, the growth keeps. -/
theorem keep {P : List ε → Prop} (hP : ∀ e l, p e → P l → P (e :: l)) (h : Grows p l l')
    (hl : P l) : P l' := by
  obtain ⟨new, rfl, hnew⟩ := h
  induction new with
  | nil => exact hl
  | cons e new ih =>
    exact hP e _ (hnew e List.mem_cons_self) (ih fun e' he' => hnew e' (List.mem_cons_of_mem _ he'))

/-- What ignores entries of the kind is the same before and after. -/
theorem frame {β : Type*} {f : List ε → β} (hf : ∀ e l, p e → f (e :: l) = f l)
    (h : Grows p l l') : f l' = f l :=
  h.keep (P := fun l' => f l' = f l) (fun e l' he hl => (hf e l' he).trans hl) rfl

theorem of_suffix (h : l <:+ l') : Grows (fun _ => True) l l' := by
  obtain ⟨new, rfl⟩ := h
  exact ⟨new, rfl, fun _ _ => trivial⟩

/-- A measure that no entry lowers grows with the history. -/
theorem measure_le {β : Type*} [Preorder β] {f : List ε → β} (hf : ∀ e l, f l ≤ f (e :: l))
    (h : l <:+ l') : f l ≤ f l' :=
  (of_suffix h).keep (P := fun l' => f l ≤ f l') (fun e l' _ hl => hl.trans (hf e l')) le_rfl

end Grows

section Carried

variable {ε β : Type*}

/-- What the entries carry, the oldest first. -/
def collected (f : ε → Option β) : List ε → List β
  | [] => []
  | e :: l =>
    match f e with
    | some b => collected f l ++ [b]
    | none => collected f l

/-- What the newest entry says that says anything, and `b` where none does. -/
def latest (f : ε → Option β) (b : β) : List ε → β
  | [] => b
  | e :: l =>
    match f e with
    | some b' => b'
    | none => latest f b l

variable {f : ε → Option β} {l l' : List ε}

theorem collected_cons (e : ε) : collected f (e :: l) = collected f l ++ (f e).toList := by
  rw [collected]
  cases f e with
  | none => exact (List.append_nil _).symm
  | some b => rfl

theorem collected_mono (h : l <:+ l') : collected f l <+: collected f l' := by
  refine (Grows.of_suffix h).keep (P := fun l' => collected f l <+: collected f l') ?_
    (List.prefix_refl _)
  intro e l' _ hl
  rw [collected_cons]
  exact hl.trans (List.prefix_append _ _)

end Carried

/-- Every entry is as `P` says, relative to the history before it. -/
def Throughout {ε : Type*} (P : ε → List ε → Prop) (l : List ε) : Prop :=
  ∀ e older, e :: older <:+ l → P e older

namespace Throughout

variable {ε : Type*} {P : ε → List ε → Prop} {l l' : List ε} {e : ε}

theorem nil : Throughout P [] := fun _ _ h => by simp at h

theorem of_suffix (h : Throughout P l') (hl : l <:+ l') : Throughout P l :=
  fun e older he => h e older (he.trans hl)

theorem cons_iff : Throughout P (e :: l) ↔ P e l ∧ Throughout P l := by
  constructor
  · exact fun h => ⟨h e l (List.suffix_refl _), h.of_suffix (List.suffix_cons e l)⟩
  · rintro ⟨he, h⟩ e' older ho
    rcases List.suffix_cons_iff.mp ho with heq | ho
    · cases heq
      exact he
    · exact h e' older ho

/-- Entries that `P` does not speak of may be added. -/
theorem grows {p : ε → Prop} (hp : ∀ e older, p e → P e older) (hl : Grows p l l')
    (h : Throughout P l) : Throughout P l' :=
  hl.keep (P := Throughout P) (fun e older he ho => cons_iff.mpr ⟨hp e older he, ho⟩) h

end Throughout
