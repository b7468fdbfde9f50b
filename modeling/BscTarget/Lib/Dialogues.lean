import Mathlib.Data.Nat.Notation

/-!
# Dialogues

A program that asks questions and goes on with the answers until it returns a value or raises an
error. Who answers is left open: `run` takes a handler with a state of its own. What a program asks
is told by its text alone (`Within`), and then holds with every handler (`Within.run`). `Always`
says what one handler's state is between all questions, and then also where the program is killed
between two of them (`Always.mortal`).
-/

inductive Dialogue (Q : Type) (A : Q → Type) (ε β : Type) : Type
  | done (v : β)
  | raise (e : ε)
  | ask (q : Q) (next : A q → Dialogue Q A ε β)

namespace Dialogue

variable {Q : Type} {A : Q → Type} {ε β γ σ : Type}

protected def bind : Dialogue Q A ε β → (β → Dialogue Q A ε γ) → Dialogue Q A ε γ
  | done v, f => f v
  | raise e, _ => raise e
  | ask q next, f => ask q fun a => (next a).bind f

instance : Monad (Dialogue Q A ε) where
  pure := done
  bind := Dialogue.bind

/-- One question. -/
def call (q : Q) : Dialogue Q A ε (A q) := ask q done

/-- A handler answers a question or fails. -/
abbrev Handler (Q : Type) (A : Q → Type) (ε σ : Type) : Type := (q : Q) → σ → Except ε (A q) × σ

def run (h : Handler Q A ε σ) : Dialogue Q A ε β → σ → Except ε β × σ
  | done v, s => (.ok v, s)
  | raise e, s => (.error e, s)
  | ask q next, s =>
    match h q s with
    | (.ok a, s) => (next a).run h s
    | (.error e, s) => (.error e, s)

/-- Every question is as `P` says, whatever has been answered, and every value as `R` says. -/
def Within (P : Q → Prop) (R : β → Prop) : Dialogue Q A ε β → Prop
  | done v => R v
  | raise _ => True
  | ask q next => P q ∧ ∀ a, (next a).Within P R

/-! ## Running -/

section

variable {h : Handler Q A ε σ} {s s' : σ}

@[simp] theorem run_pure (v : β) : (pure v : Dialogue Q A ε β).run h s = (.ok v, s) := rfl

theorem run_call (q : Q) : (call q : Dialogue Q A ε (A q)).run h s = h q s := by
  rw [call, run]
  rcases h q s with ⟨_ | _, _⟩ <;> rfl

theorem run_bind (d : Dialogue Q A ε β) (f : β → Dialogue Q A ε γ) :
    (d >>= f).run h s = match d.run h s with
      | (.ok v, s) => (f v).run h s
      | (.error e, s) => (.error e, s) := by
  show (d.bind f).run h s = _
  induction d generalizing s with
  | done v => rfl
  | raise e => rfl
  | ask q next ih =>
    rw [Dialogue.bind, run, run]
    rcases h q s with ⟨_ | a, s'⟩
    · rfl
    · exact ih a

/-- What follows a part that returns. -/
theorem run_bind_ok {d : Dialogue Q A ε β} {f : β → Dialogue Q A ε γ} {v : β}
    (hd : d.run h s = (.ok v, s')) : (d >>= f).run h s = (f v).run h s' := by
  rw [run_bind, hd]

/-- What follows an answer. -/
theorem run_call_bind {q : Q} {a : A q} {f : A q → Dialogue Q A ε γ} (hq : h q s = (.ok a, s')) :
    (call q >>= f).run h s = (f a).run h s' :=
  run_bind_ok ((run_call q).trans hq)

end

/-! ## What is asked -/

namespace Within

variable {P : Q → Prop} {R : β → Prop} {S : γ → Prop}

theorem pure {v : β} (hv : R v) : (Pure.pure v : Dialogue Q A ε β).Within P R := hv

theorem call {q : Q} (hq : P q) : (Dialogue.call q : Dialogue Q A ε (A q)).Within P fun _ => True :=
  ⟨hq, fun _ => trivial⟩

theorem bind {d : Dialogue Q A ε β} {f : β → Dialogue Q A ε γ} (hd : d.Within P R)
    (hf : ∀ v, R v → (f v).Within P S) : (d >>= f).Within P S := by
  show (d.bind f).Within P S
  induction d with
  | done v => exact hf v hd
  | raise e => trivial
  | ask q next ih => exact ⟨hd.1, fun a => ih a (hd.2 a)⟩

theorem mono {R' : β → Prop} {d : Dialogue Q A ε β} (hd : d.Within P R) (hR : ∀ v, R v → R' v) :
    d.Within P R' := by
  induction d with
  | done v => exact hR v hd
  | raise e => trivial
  | ask q next ih => exact ⟨hd.1, fun a => ih a (hd.2 a)⟩

/-- An invariant of the handler, and what is known of the value. -/
theorem run {h : Handler Q A ε σ} {I : σ → Prop} (hI : ∀ q s, P q → I s → I (h q s).2)
    {d : Dialogue Q A ε β} (hd : d.Within P R) {s : σ} (hs : I s) :
    I (d.run h s).2 ∧ ∀ v, (d.run h s).1 = .ok v → R v := by
  induction d generalizing s with
  | done v =>
    refine ⟨hs, ?_⟩
    rintro _ ⟨⟩
    exact hd
  | raise e => exact ⟨hs, (by rintro _ ⟨⟩)⟩
  | ask q next ih =>
    have hq := hI q s hd.1 hs
    rw [Dialogue.run]
    rcases hanswer : h q s with ⟨e | a, s'⟩ <;> rw [hanswer] at hq
    · exact ⟨hq, (by rintro _ ⟨⟩)⟩
    · exact ih a (hd.2 a) hq

end Within

/-! ## What holds all the time -/

/-- `I` holds before and after every question, and `R` of the value and the last state. -/
def Always (h : Handler Q A ε σ) (I : σ → Prop) (R : β → σ → Prop) : Dialogue Q A ε β → σ → Prop
  | done v, s => I s ∧ R v s
  | raise _, s => I s
  | ask q next, s => I s ∧ I (h q s).2 ∧ ∀ a, (h q s).1 = .ok a → (next a).Always h I R (h q s).2

/-- The program is killed when it has asked so many questions; `none` is never. -/
def mortal (h : Handler Q A ε σ) (killed : ε) : Handler Q A ε (Option ℕ × σ) := fun q p =>
  match p.1 with
  | some 0 => (.error killed, p)
  | left => ((h q p.2).1, left.map Nat.pred, (h q p.2).2)

theorem run_mortal_none {h : Handler Q A ε σ} {killed : ε} (d : Dialogue Q A ε β) (s : σ) :
    d.run (mortal h killed) (none, s) = ((d.run h s).1, none, (d.run h s).2) := by
  induction d generalizing s with
  | done v => rfl
  | raise e => rfl
  | ask q next ih =>
    have hasked : mortal h killed q (none, s) = ((h q s).1, none, (h q s).2) := rfl
    rw [run, run, hasked]
    rcases h q s with ⟨e | a, s'⟩
    · rfl
    · exact ih a s'

namespace Always

variable {h : Handler Q A ε σ} {I : σ → Prop} {R : β → σ → Prop} {S : γ → σ → Prop} {s : σ}

theorem pure {v : β} (hs : I s) (hv : R v s) :
    (Pure.pure v : Dialogue Q A ε β).Always h I R s := ⟨hs, hv⟩

/-- One question: what it does, and its answer. -/
theorem call {q : Q} {R : A q → σ → Prop} (hs : I s) (hI : I (h q s).2)
    (hR : ∀ a, (h q s).1 = .ok a → R a (h q s).2) :
    (Dialogue.call q : Dialogue Q A ε (A q)).Always h I R s :=
  ⟨hs, hI, fun a ha => ⟨hI, hR a ha⟩⟩

theorem bind {d : Dialogue Q A ε β} {f : β → Dialogue Q A ε γ} (hd : d.Always h I R s)
    (hf : ∀ v s, I s → R v s → (f v).Always h I S s) : (d >>= f).Always h I S s := by
  show (d.bind f).Always h I S s
  induction d generalizing s with
  | done v => exact hf v s hd.1 hd.2
  | raise e => exact hd
  | ask q next ih =>
    obtain ⟨hs, hI, hnext⟩ := hd
    exact ⟨hs, hI, fun a ha => ih a (hnext a ha)⟩

/-- Wherever the program is killed. -/
theorem mortal {killed : ε} {d : Dialogue Q A ε β} (hd : d.Always h I R s) (left : Option ℕ) :
    I (d.run (Dialogue.mortal h killed) (left, s)).2.2 ∧
      ∀ v, (d.run (Dialogue.mortal h killed) (left, s)).1 = .ok v →
        R v (d.run (Dialogue.mortal h killed) (left, s)).2.2 := by
  induction d generalizing s left with
  | done v =>
    refine ⟨hd.1, ?_⟩
    rintro _ ⟨⟩
    exact hd.2
  | raise e => exact ⟨hd, (by rintro _ ⟨⟩)⟩
  | ask q next ih =>
    obtain ⟨hs, hI, hnext⟩ := hd
    rw [Dialogue.run]
    by_cases hleft : left = some 0
    · subst hleft
      exact ⟨hs, (by rintro _ ⟨⟩)⟩
    · have hasked : Dialogue.mortal h killed q (left, s) =
          ((h q s).1, left.map Nat.pred, (h q s).2) := by
        rcases left with _ | _ | n
        · rfl
        · exact absurd rfl hleft
        · rfl
      rw [hasked]
      rcases hanswer : (h q s).1 with e | a
      · exact ⟨hI, (by rintro _ ⟨⟩)⟩
      · exact ih a (hnext a hanswer) _

end Always

end Dialogue
