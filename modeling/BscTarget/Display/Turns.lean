import BscTarget.Display.Moves

/-!
# Turns on given bytes

The moves the other way round: which turn the parser takes where its buffer begins with a pattern,
a command or a payload.
-/

namespace BscTarget

namespace DisplayParser

variable {p p' : DisplayParser} {bytes rest : List UInt8} {page : Page} {span : Span}

theorem step_of_advance {r : Progress} (h : p.advance .none = r) (hg : Goes r) :
    reader.step p = some (r.2.2, r.2.1, r.2.2.framebuffer) := by
  subst h
  exact emitStep_goes hg

theorem step_of_scan {r : Progress} (hs : p.state = .scan) (h : p.scan .none = r) (hg : Goes r) :
    reader.step p = some (r.2.2, r.2.1, r.2.2.framebuffer) := by
  refine step_of_advance ?_ hg
  rw [advance, hs]
  exact h

theorem scan_ssd1306 {r : Progress} (hc : p.controller = .ssd1306)
    (h : p.scanSsd1306 .none = some r) : p.scan .none = r := by
  rw [scan, hc]
  dsimp only
  rw [h]
  rfl

theorem scan_sh1106 {r : Progress} (hc : p.controller = .sh1106)
    (h : p.scanSh1106 .none = some r) : p.scan .none = r := by
  rw [scan, hc]
  dsimp only
  rw [h]
  rfl

/-- A pattern at the front is taken. -/
theorem consumePattern_append (hp : p.pending = bytes ++ rest) :
    p.consumePattern bytes = (true, { p with pending := rest }) := by
  rw [consumePattern_of_begins (by rw [hp]; exact List.prefix_append _ _), hp, List.drop_left]

/-- What begins with one sequence does not begin with one that disagrees with it. -/
theorem consumePattern_conflict {pattern : List UInt8} (hp : p.pending = bytes ++ rest)
    (hc : ¬ (bytes <+: pattern ∨ pattern <+: bytes)) : p.consumePattern pattern = (false, p) := by
  have hfront : bytes <+: p.pending := by
    rw [hp]
    exact List.prefix_append _ _
  exact consumePattern_of_not (not_prefix_of_conflict hfront hc)

theorem controller_cases (p : DisplayParser) :
    p.controller = .ssd1306 ∨ p.controller = .sh1106 := by
  cases p.controller
  · exact .inl rfl
  · exact .inr rfl

theorem pattern_step (hs : p.state = .scan) (hb : bytes ∈ patterns p.controller)
    (hp : p.pending = bytes ++ rest) :
    reader.step p = some ({ p with pending := rest }, .none, p.framebuffer) := by
  have hgoes : Goes (true, .none, { p with pending := rest }) := .inl rfl
  have htaken := consumePattern_append hp
  rcases controller_cases p with hc | hc
  · rw [hc] at hb
    obtain rfl := List.mem_singleton.mp hb
    refine step_of_scan hs (scan_ssd1306 hc ?_) hgoes
    rw [scanSsd1306, htaken]
    rfl
  · rw [hc] at hb
    rcases List.mem_pair.mp hb with rfl | rfl
    · refine step_of_scan hs (scan_sh1106 hc ?_) hgoes
      rw [scanSh1106, htaken]
      rfl
    · refine step_of_scan hs (scan_sh1106 hc ?_) hgoes
      rw [scanSh1106, htaken, consumePattern_conflict hp (by decide)]
      rfl

theorem address_step {w : Window} (hs : p.state = .scan) (hc : p.controller = .ssd1306)
    (hp : p.pending = addressCommand w ++ rest) :
    reader.step p = some ({ p with pending := rest, state := .ssd1306Data w }, .none,
      p.framebuffer) := by
  refine step_of_scan hs (scan_ssd1306 hc (r := (true, .none,
    { p with pending := rest, state := .ssd1306Data w })) ?_) (.inl rfl)
  have hmark : [0x00, 0x21] <+: p.pending := by
    rw [hp]
    exact List.prefix_append [0x00, 0x21] _
  have hlen : ¬ p.pending.length < 7 := by
    rw [hp, List.length_append, addressCommand]
    simp
  have hw : addressWindow ((addressCommand w).getD 2 0) ((addressCommand w).getD 3 0)
      ((addressCommand w).getD 4 0) ((addressCommand w).getD 5 0) ((addressCommand w).getD 6 0) =
        some w := addressWindow_eq_some.mpr rfl
  rw [scanSsd1306, consumePattern_of_not (not_prefix_of_conflict hmark (by decide)),
    if_neg Bool.false_ne_true, if_neg fun h => hlen h.2, if_pos hmark,
    byte_eq hp (by simp [addressCommand]), byte_eq hp (by simp [addressCommand]),
    byte_eq hp (by simp [addressCommand]), byte_eq hp (by simp [addressCommand]),
    byte_eq hp (by simp [addressCommand]), hw, hp]
  rfl

/-! ## Page commands -/

/-- What the parser reads of a page command with its data behind it. -/
structure Selects (p : DisplayParser) (size : ℕ) (page : Page) (span : Span) : Prop where
  front : [0x00] <+: p.pending
  page : p.byte 1 = 0xb0 ||| page.val
  column : (decodeColumn (p.byte 2) (p.byte 3)).isSome = true
  length : 5 ≤ p.pending.length
  known : ¬ (p.byte 4 ≠ 0x40 ∧ p.pending.length < 6)
  range : pageRange (p.byte 2) (p.byte 3) (p.byte 4) (p.byte 5) = some (size, span)

theorem column_of_range {a b c d : UInt8} {n : ℕ}
    (h : pageRange a b c d = some (n, span)) : (decodeColumn a b).isSome = true := by
  have hfits := span.x_fits
  simp only [displayWidth] at hfits
  rcases pageRange_eq_some.mp h with ⟨-, -, -, hpair⟩ | ⟨-, hpair, -⟩
  · have hcolumn : decodeColumn a b = some 2 := decodeColumn_eq_some.mpr ⟨by omega, hpair⟩
    rw [hcolumn]
    rfl
  · rw [decodeColumn_eq_some.mpr ⟨by omega, hpair⟩]
    rfl

theorem selects (hb : PageCommand bytes page span) (hp : p.pending = bytes ++ 0x40 :: rest) :
    Selects p bytes.length page span := by
  have hlen : p.pending.length = bytes.length + (rest.length + 1) := by
    rw [hp, List.length_append, List.length_cons]
  have hbyte : ∀ i, p.byte i = (bytes ++ 0x40 :: rest).getD i 0 := fun i => by rw [byte, hp]
  cases hb with
  | ranged =>
    have hsix : (rangedCommand page span).length = 6 := rfl
    have hrange : pageRange (p.byte 2) (p.byte 3) (p.byte 4) (p.byte 5) = some (6, span) := by
      rw [hbyte, hbyte, hbyte, hbyte]
      exact pageRange_eq_some.mpr (.inr ⟨rfl, rfl, rfl⟩)
    exact ⟨by rw [hp]; exact List.prefix_append [0x00] _, hbyte 1, column_of_range hrange,
      by omega, fun h => by omega, hrange⟩
  | legacy =>
    have hfour : (legacyCommand page).length = 4 := rfl
    have hrange : pageRange (p.byte 2) (p.byte 3) (p.byte 4) (p.byte 5) = some (4, .full) := by
      rw [hbyte 2, hbyte 3, hbyte 4]
      exact pageRange_eq_some.mpr (.inl ⟨rfl, rfl, rfl, rfl⟩)
    exact ⟨by rw [hp]; exact List.prefix_append [0x00] _, hbyte 1, column_of_range hrange,
      by omega, fun h => h.1 (hbyte 4), hrange⟩

/-- Where a page command stands, `scan` does what `scan_page_command` does. -/
theorem scan_page {r : Progress} (hc : p.controller = .sh1106) (h₀ : [0x00] <+: p.pending)
    (hlen : 2 ≤ p.pending.length) (hb : 0xb0 ≤ p.byte 1 ∧ p.byte 1 ≤ 0xb7)
    (h : p.scanPageCommand .none = some r) : p.scan .none = r := by
  refine scan_sh1106 hc ?_
  rw [scanSh1106, consumePattern_of_not (not_prefix_of_page (by decide) (by decide) hb),
    consumePattern_of_not (not_prefix_of_page (by decide) (by decide) hb),
    if_neg Bool.false_ne_true, if_neg Bool.false_ne_true, if_neg fun h => by omega,
    if_pos ⟨h₀, hb⟩, h]

namespace Selects

variable {size : ℕ} {r : Progress}

theorem step_of_command (hsel : Selects p size page span) (hs : p.state = .scan)
    (hc : p.controller = .sh1106) (h : p.scanPageCommand .none = some r) (hg : Goes r) :
    reader.step p = some (r.2.2, r.2.1, r.2.2.framebuffer) := by
  have hlen := hsel.length
  refine step_of_scan hs (scan_page hc hsel.front (by omega) ?_ h) hg
  rw [hsel.page]
  exact command_range page

/-- A page before the last one ends the frame first. -/
theorem boundary_step (hsel : Selects p size page span) (hs : p.state = .scan)
    (hc : p.controller = .sh1106) (hl : p.sh1106LastPageCommand.any (page.val < ·) = true) :
    reader.step p = some (p.untracked, .boundary, p.framebuffer) := by
  refine hsel.step_of_command hs hc (r := (false, .boundary, p.untracked)) ?_ (.inr rfl)
  have hlen := hsel.length
  unfold scanPageCommand
  rw [hsel.page, pageOf_command, if_pos ⟨by omega, hsel.column, hl⟩]
  rfl

theorem page_step (hsel : Selects p size page span) (hs : p.state = .scan)
    (hc : p.controller = .sh1106) (hl : ¬ p.sh1106LastPageCommand.any (page.val < ·) = true) :
    reader.step p = some (p.select page span (p.pending.drop size), .none, p.framebuffer) := by
  refine hsel.step_of_command hs hc
    (r := (true, .none, p.select page span (p.pending.drop size))) ?_ (.inl rfl)
  have hlen := hsel.length
  unfold scanPageCommand
  rw [hsel.page, pageOf_command, if_neg fun h => hl h.2.2, if_neg (by omega), if_neg hsel.known,
    hsel.range]
  rfl

end Selects

/-! ## Data -/

theorem abandon_step {byte : UInt8} (hs : p.state ≠ .scan) (hp : p.pending = byte :: rest)
    (hb : byte ≠ 0x40) :
    reader.step p = some ({ p with state := .scan }, .none, p.framebuffer) := by
  refine step_of_advance (r := (true, .none, { p with state := .scan })) ?_ (.inl rfl)
  rw [advance]
  cases hstate : p.state with
  | scan => exact absurd hstate hs
  | ssd1306Data w => exact readSsd1306Data_mark hp hb
  | sh1106PageData page span => exact readSh1106PageData_mark hp hb

theorem window_step {w : Window} {data : List UInt8} (hs : p.state = .ssd1306Data w)
    (hp : p.pending = 0x40 :: data ++ rest) (hd : data.length = w.width * w.pages) :
    reader.step p = some
      ({ p with framebuffer := p.framebuffer.draw w data, pending := rest, state := .scan },
        if w.Full then .completed else .ended, p.framebuffer.draw w data) := by
  refine step_of_advance (r := (true, _, _)) ?_ (.inl rfl)
  rw [advance, hs]
  exact readSsd1306Data_data hp hd

theorem span_step {data : List UInt8} (hs : p.state = .sh1106PageData page span)
    (hp : p.pending = 0x40 :: data ++ rest) (hd : data.length = span.width) :
    reader.step p = some (p.paint page span data rest, p.pageUpdate page span,
      (p.paint page span data rest).framebuffer) := by
  refine step_of_advance (r := (true, _, _)) ?_ (.inl rfl)
  rw [advance, hs]
  exact readSh1106PageData_data hp hd

/-- Nothing pending leaves nothing to do. -/
theorem drained_of_nil (hs : p.state = .scan) (hp : p.pending = []) : p.Drained := by
  have hwait : p.advance .none = (false, .none, p) := by
    rw [advance, hs]
    show p.scan .none = _
    rcases controller_cases p with hc | hc
    · refine scan_ssd1306 hc ?_
      simp [scanSsd1306, consumePattern, hp, ssd1306Init]
    · refine scan_sh1106 hc ?_
      simp [scanSh1106, consumePattern, hp, sh1106Init, sh1106DisplayOn]
  rw [Drained, hwait]
  exact not_goes_wait p

end DisplayParser

end BscTarget
