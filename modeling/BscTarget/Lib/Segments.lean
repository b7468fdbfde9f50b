import Mathlib.Data.List.Basic
import Mathlib.Data.List.Flatten

/-!
# Regrouping a list of segments

`bs` regroups `ws` when each element of `bs` is the concatenation of consecutive elements of
`ws`. It suffices that every prefix of `bs` ends where some element of `ws` ends
(`exists_groups`).
-/

namespace Segments

variable {α : Type*}

theorem flatten_take_mono (ws : List (List α)) {j k : ℕ} (h : j ≤ k) :
    (ws.take j).flatten <+: (ws.take k).flatten := by
  obtain ⟨rest, hrest⟩ := List.take_prefix_take_left (l := ws) h
  exact ⟨rest.flatten, by rw [← List.flatten_append, hrest]⟩

theorem flatten_take_part (ws : List (List α)) (k : ℕ) : (ws.take k).flatten <+: ws.flatten := by
  refine ⟨(ws.drop k).flatten, ?_⟩
  rw [← List.flatten_append, List.take_append_drop]

/-- A segment that is not empty adds to what is before it. -/
theorem length_flatten_take_lt {ws : List (List α)} (hne : ∀ w ∈ ws, w ≠ []) {i : ℕ}
    (hi : i < ws.length) :
    (ws.take i).flatten.length < (ws.take (i + 1)).flatten.length := by
  rw [List.take_succ_eq_append_getElem hi, List.flatten_append, List.length_append]
  have := List.length_pos_iff.mpr (hne _ (List.getElem_mem hi))
  simpa using this

/-- A prefix that has not reached the end of a segment yet stays within it with one element
more. -/
theorem prefix_take_succ {ws : List (List α)} {xs : List α} {a : α} {i : ℕ}
    (hxs : xs <+: (ws.take (i + 1)).flatten) (hne : xs ≠ (ws.take (i + 1)).flatten)
    (ha : xs ++ [a] <+: ws.flatten) : xs ++ [a] <+: (ws.take (i + 1)).flatten := by
  refine List.prefix_of_prefix_length_le ha (flatten_take_part ws (i + 1)) ?_
  have hlt : xs.length < (ws.take (i + 1)).flatten.length :=
    Nat.lt_of_le_of_ne hxs.length_le fun h => hne (hxs.eq_of_length h)
  rw [List.length_append]
  exact hlt

/-- Between the ends of two consecutive segments there is no third end. -/
theorem eq_take_succ {ws : List (List α)} {xs : List α} {i k : ℕ}
    (hlt : (ws.take i).flatten.length < xs.length) (hxs : xs <+: (ws.take (i + 1)).flatten)
    (hk : xs = (ws.take k).flatten) : xs = (ws.take (i + 1)).flatten := by
  have hik : i < k := by
    by_contra hki
    have := (flatten_take_mono ws (Nat.le_of_not_lt hki)).length_le
    rw [hk] at hlt
    omega
  have hle := (flatten_take_mono ws hik).length_le
  rw [← hk] at hle
  exact hxs.eq_of_length (Nat.le_antisymm hxs.length_le hle)

/-- The end of a longer prefix can be found behind the end of a shorter one. -/
theorem flatten_eq_drop {ws : List (List α)} {k j : ℕ} {rest : List α}
    (h : (ws.take k).flatten ++ rest = (ws.take j).flatten) :
    ∃ i, rest = ((ws.drop k).take i).flatten := by
  rcases Nat.le_total k j with hkj | hjk
  · refine ⟨j - k, ?_⟩
    have hsplit : ws.take j = ws.take k ++ (ws.drop k).take (j - k) := by
      rw [← List.take_add, Nat.add_sub_cancel' hkj]
    rw [hsplit, List.flatten_append] at h
    exact List.append_cancel_left h
  · refine ⟨0, ?_⟩
    have hle := (flatten_take_mono ws hjk).length_le
    rw [← h, List.length_append] at hle
    have : rest.length = 0 := by omega
    simpa using this

/-- If every prefix of `bs` ends at an end in `ws`, then `bs` regroups `ws`. -/
theorem exists_groups : ∀ (bs ws : List (List α)), (∀ b ∈ bs, b ≠ []) →
    (∀ os, os <+: bs → ∃ k, os.flatten = (ws.take k).flatten) →
    ∃ gs : List (List (List α)),
      gs.map List.flatten = bs ∧ gs.flatten <+: ws ∧ ∀ g ∈ gs, g ≠ [] := by
  intro bs
  induction bs with
  | nil => exact fun ws _ _ => ⟨[], rfl, List.nil_prefix, by simp⟩
  | cons b bs ih =>
    intro ws hne hends
    obtain ⟨k, hk⟩ := hends [b] (by simp)
    have hb : b = (ws.take k).flatten := by simpa using hk
    obtain ⟨gs, hmap, hpre, hgne⟩ := ih (ws.drop k) (fun c hc => hne c (List.mem_cons_of_mem _ hc))
      fun os hos => by
        obtain ⟨j, hj⟩ := hends (b :: os) (by simpa using hos)
        rw [List.flatten_cons, hb] at hj
        exact flatten_eq_drop hj
    refine ⟨ws.take k :: gs, by rw [List.map_cons, hmap, ← hb], ?_, ?_⟩
    · obtain ⟨rest, hrest⟩ := hpre
      exact ⟨rest, by rw [List.flatten_cons, List.append_assoc, hrest, List.take_append_drop]⟩
    · intro g hg
      rcases List.mem_cons.mp hg with rfl | hg
      · intro hnil
        exact hne b List.mem_cons_self (by rw [hb, hnil, List.flatten_nil])
      · exact hgne g hg

/-- Leaving out a segment that is not empty shortens the whole. -/
theorem length_flatten_filter_lt (p : List α → Bool) {ws : List (List α)} {w : List α}
    (hw : w ∈ ws) (hne : w ≠ []) (hp : p w = false) :
    (ws.filter p).flatten.length < ws.flatten.length := by
  obtain ⟨l, r, rfl⟩ := List.append_of_mem hw
  have hpos := List.length_pos_iff.mpr hne
  have hl : (l.filter p).flatten.length ≤ l.flatten.length :=
    (List.filter_sublist.flatten).length_le
  have hr : (r.filter p).flatten.length ≤ r.flatten.length :=
    (List.filter_sublist.flatten).length_le
  rw [List.filter_append, List.filter_cons_of_neg (by simp [hp])]
  simp only [List.flatten_append, List.flatten_cons, List.length_append]
  omega

/-- The segments of one kind and those of the other make up the whole. -/
theorem length_flatten_partition {ι : Type*} (f : ι → List α) (p : ι → Bool) (l : List ι) :
    (l.map f).flatten.length =
      ((l.filter p).map f).flatten.length + ((l.filter fun i => !p i).map f).flatten.length := by
  induction l with
  | nil => rfl
  | cons i l ih =>
    cases hi : p i with
    | true =>
      rw [List.filter_cons_of_pos hi, List.filter_cons_of_neg (by simp [hi])]
      simp only [List.map_cons, List.flatten_cons, List.length_append, ih]
      omega
    | false =>
      rw [List.filter_cons_of_neg (by simp [hi]), List.filter_cons_of_pos (by simp [hi])]
      simp only [List.map_cons, List.flatten_cons, List.length_append, ih]
      omega

end Segments
