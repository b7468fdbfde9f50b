import BscTarget.Display.Lookahead

/-!
# Commands

The bytes that address a window, for either controller. A command that the parser accepts is the
command of the window it names, and conversely (`addressWindow_eq_some`, `pageRange_eq_some`).
-/

namespace BscTarget

/-! ## SSD1306 -/

def addressCommand (w : Window) : List UInt8 :=
  [0x00, 0x21, .ofNat w.x, .ofNat (w.x + w.width - 1), 0x22, .ofNat w.page,
    .ofNat (w.page + w.pages - 1)]

theorem addressWindow_eq_some {x endX mark page endPage : UInt8} {w : Window} :
    addressWindow x endX mark page endPage = some w ↔
      [0x00, 0x21, x, endX, mark, page, endPage] = addressCommand w := by
  have hx := w.x_fits
  have hwidth := w.width_pos
  have hpage := w.page_fits
  have hpages := w.pages_pos
  simp only [displayWidth, displayHeight] at hx hpage
  unfold addressWindow addressCommand
  constructor
  · intro h
    split_ifs at h with hc
    obtain rfl := Option.some.inj h
    obtain ⟨rfl, hx, -, hp, -⟩ := hc
    have hend : x.toNat + (endX.toNat - x.toNat + 1) - 1 = endX.toNat := by omega
    have hendPage : page.toNat + (endPage.toNat - page.toNat + 1) - 1 = endPage.toNat := by omega
    simp only [hend, hendPage, UInt8.ofNat_toNat]
  · intro h
    simp only [List.cons.injEq, true_and, and_true] at h
    obtain ⟨rfl, rfl, rfl, rfl, rfl⟩ := h
    have hbyte : ∀ n < 256, (UInt8.ofNat n).toNat = n := fun n hn => UInt8.toNat_ofNat_of_lt' hn
    have h₁ := hbyte w.x (by omega)
    have h₂ := hbyte (w.x + w.width - 1) (by omega)
    have h₃ := hbyte w.page (by omega)
    have h₄ := hbyte (w.page + w.pages - 1) (by omega)
    have hcond : (0x22 : UInt8) = 0x22 ∧ w.x ≤ w.x + w.width - 1 ∧
        w.x + w.width - 1 < displayWidth ∧ w.page ≤ w.page + w.pages - 1 ∧
        w.page + w.pages - 1 < displayHeight / 8 := by
      simp only [displayWidth, displayHeight, true_and]
      omega
    rw [dif_pos (by rw [h₁, h₂, h₃, h₄]; exact hcond)]
    obtain ⟨x, width, page, pages, _, _, _, _⟩ := w
    simp only [Option.some.injEq, Window.mk.injEq, h₁, h₂, h₃, h₄, true_and]
    dsimp only at *
    omega

/-! ## SH1106 -/

/-- The two bytes that name a column: its low nibble, and its high one behind the marker 0x10. -/
def columnPair (column : ℕ) : UInt8 × UInt8 :=
  (.ofNat (column % 16), .ofNat (16 + column / 16))

theorem decodeColumn_eq_some {low high : UInt8} {column : ℕ} :
    decodeColumn low high = some column ↔ column < 256 ∧ (low, high) = columnPair column := by
  have hvalue : low.toNat < 16 →
      ((high.toNat &&& 0x0f) <<< 4) ||| low.toNat = high.toNat % 16 * 16 + low.toNat := by
    intro hlow
    rw [← Nat.shiftLeft_add_eq_or_of_lt (by simpa using hlow),
      show (0x0f : ℕ) = 2 ^ 4 - 1 from rfl, Nat.and_two_pow_sub_one_eq_mod, Nat.shiftLeft_eq]
  have hbytes : (low ≤ 0x0f ∧ 0x10 ≤ high ∧ high ≤ 0x1f) ↔
      low.toNat < 16 ∧ 16 ≤ high.toNat ∧ high.toNat < 32 := by
    simp only [UInt8.le_iff_toNat_le, UInt8.reduceToNat]
    omega
  unfold decodeColumn columnPair
  rw [Prod.mk.injEq, ← UInt8.toNat_inj, ← UInt8.toNat_inj, UInt8.toNat_ofNat',
    UInt8.toNat_ofNat']
  split_ifs with h
  · have hrange := hbytes.mp h
    rw [hvalue hrange.1, Option.some.injEq]
    omega
  · refine iff_of_false (by simp) fun hc => h (hbytes.mpr ?_)
    omega

/-- The page command that goes on with a range of columns, the last one first; the visible columns
begin at column 2 of the controller. -/
def rangedCommand (page : Page) (span : Span) : List UInt8 :=
  [0x00, 0xb0 ||| page.val, (columnPair (span.x + span.width + 1)).1,
    (columnPair (span.x + span.width + 1)).2, (columnPair (span.x + 2)).1,
    (columnPair (span.x + 2)).2]

def Span.full : Span := ⟨0, displayWidth, displayWidth_pos, displayWidth_fits⟩

/-- The page command that goes on with the data of a whole page. -/
def legacyCommand (page : Page) : List UInt8 := [0x00, 0xb0 ||| page.val, 0x02, 0x10]

theorem pageOf_command (page : Page) : pageOf (0xb0 ||| page.val) = page := by
  have hall : ∀ n < 8, (0xb0 ||| UInt8.ofNat n) &&& 7 = UInt8.ofNat n := by decide
  have hpage := hall page.val.toNat page.property
  rw [UInt8.ofNat_toNat] at hpage
  exact Subtype.ext hpage

theorem command_range (page : Page) :
    0xb0 ≤ 0xb0 ||| page.val ∧ 0xb0 ||| page.val ≤ 0xb7 := by
  have hall : ∀ n < 8, 0xb0 ≤ 0xb0 ||| UInt8.ofNat n ∧ 0xb0 ||| UInt8.ofNat n ≤ 0xb7 := by
    decide
  have hpage := hall page.val.toNat page.property
  rw [UInt8.ofNat_toNat] at hpage
  exact hpage

theorem command_pageOf {command : UInt8} (h : 0xb0 ≤ command ∧ command ≤ 0xb7) :
    0xb0 ||| (pageOf command).val = command := by
  have h₁ : 176 ≤ command.toNat := h.1
  have h₂ : command.toNat ≤ 183 := h.2
  have hcommand : command = UInt8.ofNat (176 + (command.toNat - 176)) := by
    rw [Nat.add_sub_cancel' h₁, UInt8.ofNat_toNat]
  have hall : ∀ n < 8, 0xb0 ||| (UInt8.ofNat (176 + n) &&& 7) = UInt8.ofNat (176 + n) := by decide
  rw [hcommand]
  exact hall _ (by omega)

/-- What a page command that the parser accepts looks like. -/
theorem pageRange_eq_some {endLow endHigh mark startHigh : UInt8} {n : ℕ} {span : Span} :
    pageRange endLow endHigh mark startHigh = some (n, span) ↔
      (mark = 0x40 ∧ n = 4 ∧ span = .full ∧ (endLow, endHigh) = (0x02, 0x10)) ∨
      (n = 6 ∧ (endLow, endHigh) = columnPair (span.x + span.width + 1) ∧
        (mark, startHigh) = columnPair (span.x + 2)) := by
  have hfits := span.x_fits
  have hpos := span.width_pos
  simp only [displayWidth] at hfits
  have hmark : (mark, startHigh) = columnPair (span.x + 2) → mark ≠ 0x40 := by
    intro h
    rw [columnPair, Prod.mk.injEq] at h
    rw [h.1, Ne, ← UInt8.toNat_inj, UInt8.toNat_ofNat']
    show ¬ _ = 64
    omega
  unfold pageRange
  dsimp only
  split_ifs with h
  · constructor
    · intro hs
      obtain ⟨c, hc, hs⟩ := Option.map_eq_some_iff.mp hs
      obtain ⟨hcol, htwo⟩ := Option.filter_eq_some_iff.mp hc
      obtain rfl : c = 2 := by simpa using htwo
      rw [Prod.mk.injEq] at hs
      exact .inl ⟨h, hs.1.symm, hs.2.symm, (decodeColumn_eq_some.mp hcol).2⟩
    · rintro (⟨-, rfl, rfl, hpair⟩ | ⟨-, -, hpair⟩)
      · have hcol : decodeColumn endLow endHigh = some 2 :=
          decodeColumn_eq_some.mpr ⟨by decide, hpair⟩
        rw [hcol]
        rfl
      · exact absurd h (hmark hpair)
  · constructor
    · intro hs
      obtain ⟨e, he, hs⟩ := Option.bind_eq_some_iff.mp hs
      obtain ⟨s, hstart, hs⟩ := Option.bind_eq_some_iff.mp hs
      split_ifs at hs with hrange
      simp only [Option.some.injEq, Prod.mk.injEq] at hs
      obtain ⟨rfl, rfl⟩ := hs
      dsimp only
      refine .inr ⟨rfl, ?_, ?_⟩
      · rw [show s - 2 + (e - s + 1) + 1 = e by omega]
        exact (decodeColumn_eq_some.mp he).2
      · rw [show s - 2 + 2 = s by omega]
        exact (decodeColumn_eq_some.mp hstart).2
    · rintro (⟨hc, -⟩ | ⟨rfl, he, hs⟩)
      · exact absurd hc h
      · rw [decodeColumn_eq_some.mpr ⟨by omega, he⟩, decodeColumn_eq_some.mpr ⟨by omega, hs⟩]
        simp only [Option.bind_some]
        rw [dif_pos (by simp only [displayWidth]; omega)]
        obtain ⟨x, width, _, _⟩ := span
        simp only [Option.some.injEq, Prod.mk.injEq, Span.mk.injEq, true_and]
        dsimp only at *
        omega

end BscTarget
