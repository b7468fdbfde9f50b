import BscTarget.Display.Parser

/-!
# Drawing

The loops of the data readers copy a payload row by row. Seen from the framebuffer they give each
cell of a window the byte of the payload that belongs there, and leave every other cell alone
(`foldl_copy`, `copy_row`).
-/

namespace BscTarget

namespace Framebuffer

/-- Whether a cell of the framebuffer lies in a window. -/
def Inside (w : Window) (i : ℕ) : Prop :=
  w.page ≤ i / displayWidth ∧ i / displayWidth < w.page + w.pages ∧
    w.x ≤ i % displayWidth ∧ i % displayWidth < w.x + w.width

instance (w : Window) (i : ℕ) : Decidable (Inside w i) := inferInstanceAs (Decidable (_ ∧ _))

/-- The place of a cell in the payload of its window. -/
def place (w : Window) (i : ℕ) : ℕ :=
  (i / displayWidth - w.page) * w.width + (i % displayWidth - w.x)

/-- The cells of a window take the bytes of `data`, row by row. -/
def draw (w : Window) (data : List UInt8) (f : Framebuffer) : Framebuffer :=
  Vector.ofFn fun i => if Inside w i then data.getD (place w i) 0 else f.get i

theorem getElem_draw (w : Window) (data : List UInt8) (f : Framebuffer) {i : ℕ}
    (h : i < framebufferSize) :
    (f.draw w data)[i] = if Inside w i then data.getD (place w i) 0 else f[i] := by
  unfold draw
  rw [Vector.getElem_ofFn]
  rfl

theorem getElem_copy (f : Framebuffer) (target : ℕ) (source : List UInt8) {i : ℕ}
    (h : i < framebufferSize) :
    (f.copy target source)[i] =
      if target ≤ i ∧ i < target + source.length then source.getD (i - target) 0 else f[i] := by
  simp [copy]

/-- A cell of a row, by its page and its column. -/
theorem row_iff {row x width i : ℕ} (h : x + width ≤ displayWidth) :
    (row * displayWidth + x ≤ i ∧ i < row * displayWidth + x + width) ↔
      i / displayWidth = row ∧ x ≤ i % displayWidth ∧ i % displayWidth < x + width := by
  simp only [displayWidth] at *
  omega

/-- Copying the first `n` rows of a payload fills the first `n` pages of the window. -/
theorem getElem_rows {w : Window} {data : List UInt8} {f : Framebuffer} {n : ℕ}
    (hn : n ≤ w.pages) (hlen : data.length = w.width * w.pages) {i : ℕ}
    (h : i < framebufferSize) :
    ((List.range n).foldl (fun f offset =>
      f.copy ((w.page + offset) * displayWidth + w.x)
        ((data.drop (offset * w.width)).take w.width)) f)[i] =
      if Inside w i ∧ i / displayWidth < w.page + n then data.getD (place w i) 0 else f[i] := by
  induction n with
  | zero =>
    rw [if_neg fun hi => by unfold Inside at hi; omega]
    rfl
  | succ n ih =>
    have hrow : n * w.width + w.width ≤ data.length := by
      have := Nat.mul_le_mul_right w.width hn
      rw [hlen, Nat.mul_comm w.width, Nat.succ_mul] at *
      exact this
    have hsource : ((data.drop (n * w.width)).take w.width).length = w.width := by
      rw [List.length_take, List.length_drop]
      omega
    rw [List.range_succ, List.foldl_append, List.foldl_cons, List.foldl_nil, getElem_copy _ _ _ h,
      hsource, ih (by omega)]
    simp only [row_iff w.x_fits]
    by_cases hhere : i / displayWidth = w.page + n ∧
        w.x ≤ i % displayWidth ∧ i % displayWidth < w.x + w.width
    · have hin : Inside w i ∧ i / displayWidth < w.page + (n + 1) := by
        unfold Inside
        omega
      have hplace : n * w.width + (i - ((w.page + n) * displayWidth + w.x)) = place w i := by
        have hpage : i / displayWidth - w.page = n := by omega
        have hdiv := Nat.div_add_mod i displayWidth
        rw [place, hpage]
        rw [hhere.1, Nat.mul_comm] at hdiv
        omega
      have hlt : i - ((w.page + n) * displayWidth + w.x) < w.width := by
        have hdiv := Nat.div_add_mod i displayWidth
        rw [hhere.1, Nat.mul_comm] at hdiv
        omega
      rw [if_pos hhere, if_pos hin, ← hplace, List.getD_eq_getElem?_getD,
        List.getElem?_take_of_lt hlt, List.getElem?_drop, ← List.getD_eq_getElem?_getD]
    · rw [if_neg hhere]
      refine if_congr ?_ rfl rfl
      unfold Inside
      omega

/-- The loop of `read_ssd1306_data` draws its window. -/
theorem foldl_copy {w : Window} {data : List UInt8} (hlen : data.length = w.width * w.pages)
    (f : Framebuffer) :
    (List.range w.pages).foldl (fun f offset =>
      f.copy ((w.page + offset) * displayWidth + w.x)
        ((data.drop (offset * w.width)).take w.width)) f = f.draw w data := by
  refine Vector.ext fun i h => ?_
  rw [getElem_rows (Nat.le_refl _) hlen h, getElem_draw _ _ _ h]
  refine if_congr ?_ rfl rfl
  unfold Inside
  tauto

end Framebuffer

/-- The window of a page command. -/
def Span.window (page : Page) (span : Span) : Window where
  x := span.x
  width := span.width
  page := page.val.toNat
  pages := 1
  width_pos := span.width_pos
  x_fits := span.x_fits
  pages_pos := Nat.one_pos
  page_fits := page.property

/-- The copy in `read_sh1106_page_data` draws its window. -/
theorem Framebuffer.copy_row (page : Page) (span : Span) {data : List UInt8}
    (hlen : data.length = span.width) (f : Framebuffer) :
    f.copy (page.val.toNat * displayWidth + span.x) data = f.draw (span.window page) data := by
  have hsize : data.length = (span.window page).width * (span.window page).pages := by
    rw [hlen]
    exact (Nat.mul_one _).symm
  have hrows := Framebuffer.foldl_copy hsize f
  rw [← hrows]
  show _ = f.copy ((page.val.toNat + 0) * displayWidth + span.x)
    ((data.drop (0 * span.width)).take span.width)
  rw [Nat.add_zero, Nat.zero_mul, List.drop_zero, ← hlen, List.take_length]

end BscTarget
