import Mathlib.Logic.Relation
import Mathlib.Order.Basic

/-!
# Invariants of step relations

`Steps r a b`: from `a` finitely many steps of `r` lead to `b`. A property that every step keeps
holds after any number of steps; a program whose pieces are such paths is one.
-/

/-- Finitely many steps. -/
abbrev Steps {σ : Type*} (r : σ → σ → Prop) : σ → σ → Prop := Relation.ReflTransGen r

namespace Steps

variable {σ : Type*} {r : σ → σ → Prop} {a b c : σ}

/-- A property kept by every step is kept by every path. -/
theorem keep {P : σ → Prop} (hstep : ∀ {a b}, r a b → P a → P b) (h : Steps r a b) (ha : P a) :
    P b := by
  induction h with
  | refl => exact ha
  | tail _ hbc ih => exact hstep hbc ih

/-- A preorder that contains every step contains every path. -/
theorem lift {R : σ → σ → Prop} (hrefl : ∀ a, R a a) (htrans : ∀ {a b c}, R a b → R b c → R a c)
    (hstep : ∀ {a b}, r a b → R a b) (h : Steps r a b) : R a b := by
  induction h with
  | refl => exact hrefl a
  | tail _ hbc ih => exact htrans ih (hstep hbc)

/-- What no step changes, no path changes. -/
theorem frame {β : Type*} {f : σ → β} (hstep : ∀ {a b}, r a b → f b = f a) (h : Steps r a b) :
    f b = f a :=
  keep (P := fun c => f c = f a) (fun hbc hb => (hstep hbc).trans hb) h rfl

/-- A property kept by every step that leaves a measure alone is kept by every path that does, if
no step lowers the measure. -/
theorem keep_while {β : Type*} [PartialOrder β] {P : σ → Prop} {f : σ → β}
    (hmono : ∀ {a b}, r a b → f a ≤ f b) (hstep : ∀ {a b}, r a b → f b = f a → P a → P b)
    (h : Steps r a b) (hf : f b = f a) (ha : P a) : P b := by
  induction h with
  | refl => exact ha
  | tail hab hbc ih =>
    have hle := lift (R := fun a b => f a ≤ f b) (fun a => le_refl (f a)) le_trans hmono hab
    have hle' := hmono hbc
    have hmid := le_antisymm (hle'.trans hf.le) hle
    exact hstep hbc (hf.trans hmid.symm) (ih hmid)

/-- A fold of paths over a list is a path. -/
theorem foldl {ι : Type*} {f : σ → ι → σ} (hf : ∀ a i, Steps r a (f a i)) :
    ∀ (l : List ι) (a : σ), Steps r a (l.foldl f a)
  | [], _ => .refl
  | i :: l, a => (hf a i).trans (foldl hf l (f a i))

end Steps
