import Mathlib.Data.List.Basic
import Mathlib.Data.List.Infix

/-!
# Streams that arrive in fragments

A stream is a list of fragments, none of them empty, and then its end. `recv` hands out at most one
fragment at a time; a program that reads exact counts sees only the contents. `Consumes` says of
such a program what it takes from the front of a stream, and that it starves if the stream ends
before; programs are put together by `Consumes.bind`.
-/

structure Fragments (α : Type) where
  parts : List (List α)
  nonempty : ∀ part ∈ parts, part ≠ []

namespace Fragments

variable {α : Type}

def contents (s : Fragments α) : List α := s.parts.flatten

/-- Up to `count` items of the next fragment; nothing is the end of the stream. -/
def recv (count : ℕ) (s : Fragments α) : List α × Fragments α :=
  match h : s.parts with
  | [] => ([], s)
  | part :: rest =>
    if hc : part.length ≤ count then
      (part, ⟨rest, fun p hp => s.nonempty p (h ▸ List.mem_cons_of_mem part hp)⟩)
    else
      (part.take count, ⟨part.drop count :: rest, fun p hp => by
        rcases List.mem_cons.mp hp with rfl | hp
        · exact fun hnil => hc (List.drop_eq_nil_iff.mp hnil)
        · exact s.nonempty p (h ▸ List.mem_cons_of_mem part hp)⟩)

theorem recv_append (count : ℕ) (s : Fragments α) :
    (s.recv count).1 ++ (s.recv count).2.contents = s.contents := by
  unfold recv
  split
  · rfl
  · next part rest h =>
    split_ifs
    · simp [contents, h]
    · simp [contents, h, ← List.append_assoc]

theorem length_recv_le (count : ℕ) (s : Fragments α) : (s.recv count).1.length ≤ count := by
  unfold recv
  split
  · exact Nat.zero_le _
  · split_ifs with hc
    · exact hc
    · exact (List.length_take_le _ _)

/-- Only the end of the stream delivers nothing. -/
theorem contents_of_recv {count : ℕ} (hc : 0 < count) {s : Fragments α}
    (h : (s.recv count).1 = []) : s.contents = [] := by
  unfold recv at h
  split at h
  · next hs => simp [contents, hs]
  · next part rest hs =>
    have hne : part ≠ [] := s.nonempty part (hs ▸ List.mem_cons_self)
    split_ifs at h with hle
    · exact absurd h hne
    · rcases List.take_eq_nil_iff.mp h with h0 | h0
      · omega
      · exact absurd h0 hne

/-- `while len(data) < count`: receives what is missing. -/
def takeLoop (count : ℕ) : ℕ → List α → Fragments α → Option (List α) × Fragments α
  | 0, data, s => (some data, s)
  | fuel + 1, data, s =>
    if data.length < count then
      match s.recv (count - data.length) with
      | ([], s) => (none, s)
      | (part, s) => takeLoop count fuel (data ++ part) s
    else (some data, s)

/-- Every round adds an item, so `count` rounds are enough. -/
def takeExactly (count : ℕ) (s : Fragments α) : Option (List α) × Fragments α :=
  takeLoop count count [] s

theorem takeLoop_spec {count : ℕ} : ∀ (fuel : ℕ) (data : List α) (s : Fragments α),
    data.length ≤ count → count ≤ data.length + fuel →
    (count ≤ data.length + s.contents.length → ∃ s',
      takeLoop count fuel data s = (some (data ++ s.contents.take (count - data.length)), s') ∧
        s'.contents = s.contents.drop (count - data.length)) ∧
    (data.length + s.contents.length < count → ∃ s',
      takeLoop count fuel data s = (none, s') ∧ s'.contents = []) := by
  intro fuel
  induction fuel with
  | zero =>
    intro data s hle hfuel
    have hzero : count - data.length = 0 := by omega
    refine ⟨fun _ => ⟨s, ?_, ?_⟩, fun h => by omega⟩
    · rw [takeLoop, hzero, List.take_zero, List.append_nil]
    · rw [hzero, List.drop_zero]
  | succ fuel ih =>
    intro data s hle hfuel
    rw [takeLoop]
    by_cases hlt : data.length < count
    swap
    · have hzero : count - data.length = 0 := by omega
      rw [if_neg hlt]
      exact ⟨fun _ => ⟨s, by rw [hzero, List.take_zero, List.append_nil],
        by rw [hzero, List.drop_zero]⟩, fun h => by omega⟩
    rw [if_pos hlt]
    have happ := s.recv_append (count - data.length)
    have hlen := s.length_recv_le (count - data.length)
    rcases hr : s.recv (count - data.length) with ⟨_ | ⟨a, part⟩, s'⟩
    · -- the stream has ended
      have hnil : s.contents = [] :=
        contents_of_recv (Nat.sub_pos_of_lt hlt) (congrArg Prod.fst hr)
      rw [hr, hnil] at happ
      refine ⟨fun h => ?_, fun _ => ⟨s', rfl, happ⟩⟩
      rw [hnil, List.length_nil] at h
      omega
    · rw [hr] at happ hlen
      dsimp only at happ hlen
      have hlen' : (data ++ a :: part).length = data.length + (a :: part).length :=
        List.length_append
      have hpos : 0 < (a :: part).length := Nat.succ_pos _
      obtain ⟨hok, hend⟩ := ih (data ++ a :: part) s' (by omega) (by omega)
      have hcontents : s.contents.length = (a :: part).length + s'.contents.length := by
        rw [← happ, List.length_append]
      have hrest : count - (data ++ a :: part).length =
          count - data.length - (a :: part).length := by omega
      have hpart : (a :: part).take (count - data.length) = a :: part :=
        List.take_of_length_le hlen
      rw [hlen'] at hok hend
      refine ⟨fun h => ?_, fun h => hend (by omega)⟩
      obtain ⟨s'', hs'', hc''⟩ := hok (by omega)
      refine ⟨s'', ?_, ?_⟩
      · simp only [hs'', ← happ, List.take_append, hpart, ← hlen', hrest, List.append_assoc]
      · rw [hc'', ← happ, List.drop_append, ← hlen', hrest, List.drop_of_length_le hlen,
          List.nil_append]

theorem takeExactly_of_le {count : ℕ} {s : Fragments α} (h : count ≤ s.contents.length) :
    ∃ s', s.takeExactly count = (some (s.contents.take count), s') ∧
      s'.contents = s.contents.drop count := by
  have hspec := (takeLoop_spec count [] s (Nat.zero_le _) (Nat.le_add_left _ _)).1
  rw [takeExactly]
  simpa using hspec (by simpa using h)

theorem takeExactly_of_lt {count : ℕ} {s : Fragments α} (h : s.contents.length < count) :
    ∃ s', s.takeExactly count = (none, s') ∧ s'.contents = [] :=
  (takeLoop_spec count [] s (Nat.zero_le _) (Nat.le_add_left _ _)).2 (by simpa using h)

end Fragments

/-! ## Programs that read a stream -/

/-- A program that reads a stream and returns a value or raises an error. -/
abbrev Reading (α ε β : Type) := ExceptT ε (StateM (Fragments α)) β

namespace Reading

variable {α ε β γ : Type}

theorem run_bind (f : Reading α ε β) (g : β → Reading α ε γ) (s : Fragments α) :
    (f >>= g) s = match f s with
      | (.ok v, s) => g v s
      | (.error e, s) => (.error e, s) := by
  simp only [bind, ExceptT.bind, ExceptT.mk, StateT.bind]
  rcases f s with ⟨_ | _, s'⟩ <;> rfl

end Reading

/-- On streams shorter than `bound`, `f` takes `items` from the front and returns `v`; where the
stream ends before, it takes everything and raises `eof`. -/
structure Consumes {α ε β : Type} (eof : ε) (bound : ℕ) (f : Reading α ε β) (items : List α)
    (v : β) : Prop where
  whole : ∀ (s : Fragments α) (rest : List α), s.contents = items ++ rest →
    s.contents.length < bound → ∃ s', f s = (.ok v, s') ∧ s'.contents = rest
  part : ∀ s : Fragments α, s.contents <+: items → s.contents ≠ items →
    s.contents.length < bound → ∃ s', f s = (.error eof, s') ∧ s'.contents = []

namespace Consumes

variable {α ε β γ : Type} {eof : ε} {bound : ℕ}

theorem zero (f : Reading α ε β) (items : List α) (v : β) : Consumes eof 0 f items v where
  whole := fun _ _ _ h => absurd h (Nat.not_lt_zero _)
  part := fun _ _ _ h => absurd h (Nat.not_lt_zero _)

theorem pure (v : β) : Consumes eof bound (Pure.pure v : Reading α ε β) [] v where
  whole := fun s _ h _ => ⟨s, rfl, h⟩
  part := fun _ h hne _ => absurd (List.prefix_nil.mp h) hne

/-- A prefix of two pieces ends in the first one, or is the first one and a prefix of the second. -/
theorem prefix_append_cases {p xs ys : List α} (h : p <+: xs ++ ys) (hne : p ≠ xs ++ ys) :
    (p <+: xs ∧ p ≠ xs) ∨ ∃ q, p = xs ++ q ∧ q <+: ys ∧ q ≠ ys := by
  rcases List.prefix_or_prefix_of_prefix h (List.prefix_append xs ys) with hp | ⟨q, rfl⟩
  · by_cases heq : p = xs
    · refine .inr ⟨[], by rw [heq, List.append_nil], List.nil_prefix, ?_⟩
      rintro rfl
      exact hne (by rw [heq, List.append_nil])
    · exact .inl ⟨hp, heq⟩
  · exact .inr ⟨q, rfl, (List.prefix_append_right_inj xs).mp h, fun hq => hne (by rw [hq])⟩

/-- The second program only has to read what the first one leaves. -/
theorem bind_of_le {bound' : ℕ} {f : Reading α ε β} {g : β → Reading α ε γ} {xs ys : List α} {v : β}
    {w : γ} (hle : bound ≤ bound' + xs.length) (hf : Consumes eof bound f xs v)
    (hg : Consumes eof bound' (g v) ys w) : Consumes eof bound (f >>= g) (xs ++ ys) w where
  whole := fun s rest h hb => by
    obtain ⟨s', hs', hc'⟩ := hf.whole s (ys ++ rest) (by rw [h, List.append_assoc]) hb
    have hb' : s'.contents.length < bound' := by
      rw [h, List.append_assoc, List.length_append] at hb
      rw [hc']
      omega
    obtain ⟨s'', hs'', hc''⟩ := hg.whole s' rest hc' hb'
    exact ⟨s'', by rw [Reading.run_bind, hs']; exact hs'', hc''⟩
  part := fun s h hne hb => by
    rcases prefix_append_cases h hne with ⟨hp, hp'⟩ | ⟨q, hq, hqp, hqne⟩
    · obtain ⟨s', hs', hc'⟩ := hf.part s hp hp' hb
      exact ⟨s', by rw [Reading.run_bind, hs'], hc'⟩
    · obtain ⟨s', hs', hc'⟩ := hf.whole s q hq hb
      have hb' : s'.contents.length < bound' := by
        rw [hq, List.length_append] at hb
        rw [hc']
        omega
      obtain ⟨s'', hs'', hc''⟩ := hg.part s' (hc' ▸ hqp) (hc' ▸ hqne) hb'
      exact ⟨s'', by rw [Reading.run_bind, hs']; exact hs'', hc''⟩

theorem bind {f : Reading α ε β} {g : β → Reading α ε γ} {xs ys : List α} {v : β} {w : γ}
    (hf : Consumes eof bound f xs v) (hg : Consumes eof bound (g v) ys w) :
    Consumes eof bound (f >>= g) (xs ++ ys) w :=
  hf.bind_of_le (Nat.le_add_right _ _) hg

/-- A program that takes nothing, and another one. -/
theorem bind_nil {f : Reading α ε β} {g : β → Reading α ε γ} {ys : List α} {v : β} {w : γ}
    (hf : Consumes eof bound f [] v) (hg : Consumes eof bound (g v) ys w) :
    Consumes eof bound (f >>= g) ys w :=
  hf.bind hg

/-- A program, and another one that takes nothing. -/
theorem bind_end {f : Reading α ε β} {g : β → Reading α ε γ} {xs : List α} {v : β} {w : γ}
    (hf : Consumes eof bound f xs v) (hg : Consumes eof bound (g v) [] w) :
    Consumes eof bound (f >>= g) xs w := by
  have h := hf.bind hg
  rwa [List.append_nil] at h

end Consumes
