import Mathlib.Data.List.Basic

/-!
# Incremental readers

A reader takes items from the front of a buffer that grows at its end. If every step it takes is
taken the same way when more has arrived, then what it makes of a stream does not depend on how
the stream was cut into chunks (`Feeds.reads`).
-/

namespace BscTarget

/-- A state with a buffer, and the steps that read from it; a state that cannot step waits for
more. -/
structure Reader (σ α ω : Type*) where
  extend : σ → List α → σ
  extend_nil : ∀ s, extend s [] = s
  extend_append : ∀ s p q, extend (extend s p) q = extend s (p ++ q)
  step : σ → Option (σ × ω)
  stable : ∀ {s s' o} q, step s = some (s', o) → step (extend s q) = some (extend s' q, o)

variable {σ α ω : Type*} {m : Reader σ α ω} {s t u : σ} {os os' : List ω}

/-- From `s` the reader emits `os` and then waits in `t`. -/
inductive Reads (m : Reader σ α ω) : σ → List ω → σ → Prop
  | wait {s : σ} (h : m.step s = none) : Reads m s [] s
  | next {s s' t : σ} {o : ω} {os : List ω} (h : m.step s = some (s', o)) (ht : Reads m s' os t) :
      Reads m s (o :: os) t

namespace Reads

theorem waits (h : Reads m s os t) : m.step t = none := by
  induction h with
  | wait h => exact h
  | next _ _ ih => exact ih

theorem unique (h : Reads m s os t) (h' : Reads m s os' u) : os = os' ∧ t = u := by
  induction h generalizing os' u with
  | wait h =>
    cases h' with
    | wait => exact ⟨rfl, rfl⟩
    | next h' _ => rw [h] at h'; cases h'
  | next h _ ih =>
    cases h' with
    | wait h' => rw [h] at h'; cases h'
    | next h' ht' =>
      rw [h] at h'
      cases h'
      obtain ⟨rfl, rfl⟩ := ih ht'
      exact ⟨rfl, rfl⟩

/-- Reading on when more has arrived is reading it all at once. -/
theorem append (h : Reads m s os t) {q : List α} (h' : Reads m (m.extend t q) os' u) :
    Reads m (m.extend s q) (os ++ os') u := by
  induction h with
  | wait => exact h'
  | next h _ ih => exact .next (m.stable q h) (ih h')

end Reads

/-- From `s` the reader emits `os` on its way to `t`, which need not wait. -/
inductive Emits (m : Reader σ α ω) : σ → List ω → σ → Prop
  | nil (s : σ) : Emits m s [] s
  | cons {s s' t : σ} {o : ω} {os : List ω} (h : m.step s = some (s', o)) (ht : Emits m s' os t) :
      Emits m s (o :: os) t

namespace Emits

theorem single {o : ω} (h : m.step s = some (t, o)) : Emits m s [o] t := .cons h (.nil t)

theorem trans (h : Emits m s os t) (h' : Emits m t os' u) : Emits m s (os ++ os') u := by
  induction h with
  | nil => exact h'
  | cons h _ ih => exact .cons h (ih h')

theorem reads (h : Emits m s os t) (h' : Reads m t os' u) : Reads m s (os ++ os') u := by
  induction h with
  | nil => exact h'
  | cons h _ ih => exact .next h (ih h')

/-- What is read goes on from wherever the reader has got to. -/
theorem remains (h : Emits m s os t) (h' : Reads m s os' u) :
    ∃ os'', os' = os ++ os'' ∧ Reads m t os'' u := by
  induction h generalizing os' with
  | nil => exact ⟨os', rfl, h'⟩
  | cons h _ ih =>
    cases h' with
    | wait h' => rw [h] at h'; cases h'
    | next h' ht =>
      rw [h] at h'
      cases h'
      obtain ⟨os'', rfl, hreads⟩ := ih ht
      exact ⟨os'', rfl, hreads⟩

end Emits

theorem Reads.emits (h : Reads m s os t) : Emits m s os t := by
  induction h with
  | wait => exact .nil _
  | next h _ ih => exact .cons h ih

/-- From `s` the reader is fed chunk by chunk, waiting after each. -/
inductive Feeds (m : Reader σ α ω) : σ → List (List α) → List ω → σ → Prop
  | nil (s : σ) : Feeds m s [] [] s
  | cons {s t u : σ} {chunk : List α} {chunks : List (List α)} {os os' : List ω}
      (h : Reads m (m.extend s chunk) os t) (ht : Feeds m t chunks os' u) :
      Feeds m s (chunk :: chunks) (os ++ os') u

/-- A waiting reader fed in chunks reads what it would have read in one. -/
theorem Feeds.reads {chunks : List (List α)} (h : Feeds m s chunks os t)
    (hs : m.step s = none) : Reads m (m.extend s chunks.flatten) os t := by
  induction h with
  | nil s =>
    rw [List.flatten_nil, m.extend_nil]
    exact .wait hs
  | cons h _ ih =>
    rw [List.flatten_cons, ← m.extend_append]
    exact h.append (ih h.waits)

end BscTarget
