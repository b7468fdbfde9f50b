import BscTarget.Display.Accounting
import BscTarget.Display.Bounds
import BscTarget.Display.Raw

/-!
# Safety of the display buffers

The parser whose states carry their bounds computes what the parser with its checks computes, and
no check fails (`push_raw`): a state that is reached is one that carries its bounds.
-/

namespace BscTarget

open Checked

def ParseState.raw : ParseState → Raw.ParseState
  | .scan => .scan
  | .ssd1306Data w => .ssd1306Data w.x w.width w.page w.pages
  | .sh1106PageData page span => .sh1106PageData page.val span.x span.width

/-- The parser without the bounds. -/
def DisplayParser.raw (p : DisplayParser) : Raw.DisplayParser where
  controller := p.controller
  pending := p.pending
  state := p.state.raw
  framebuffer := p.framebuffer
  sh1106Pages := p.sh1106Pages
  sh1106FrameStarted := p.sh1106FrameStarted
  sh1106LastPageCommand := p.sh1106LastPageCommand

def rawProgress (r : Progress) : Raw.Progress := (r.1, r.2.1, r.2.2.raw)

/-- What the bounds of a state say of its numbers. -/
def Raw.ParseState.InBounds : Raw.ParseState → Prop
  | .scan => True
  | .ssd1306Data x width page pages => 1 ≤ width ∧ 1 ≤ pages ∧ x + width ≤ 128 ∧ page + pages ≤ 8
  | .sh1106PageData page x width => 1 ≤ width ∧ x + width ≤ 128 ∧ page.toNat ≤ 7

theorem inBounds_raw (s : ParseState) : s.raw.InBounds := by
  cases s with
  | scan => trivial
  | ssd1306Data w => exact ⟨w.width_pos, w.pages_pos, w.x_fits, w.page_fits⟩
  | sh1106PageData page span => exact ⟨span.width_pos, span.x_fits, Nat.le_of_lt_succ page.property⟩

namespace DisplayParser

variable {p : DisplayParser} {update : ParseUpdate}

@[simp] theorem raw_pending (p : DisplayParser) : p.raw.pending = p.pending := rfl

/-! ## Arithmetic -/

theorem add_usize {a b : ℕ} (h : a + b ≤ 65536) : add Raw.usizeMax a b = .ok (a + b) :=
  add_of_le (h.trans (by decide))

theorem mul_usize {a b : ℕ} (h : a * b ≤ 65536) : mul Raw.usizeMax a b = .ok (a * b) :=
  mul_of_le (h.trans (by decide))

/-! ## Scanning -/

theorem index_byte {i : ℕ} (h : i < p.pending.length) :
    index p.pending i = .ok (p.byte i) := index_of_lt h 0

theorem consumePattern_raw (pattern : List UInt8) (p : DisplayParser) :
    p.raw.consumePattern pattern =
      .ok ((p.consumePattern pattern).1, (p.consumePattern pattern).2.raw) := by
  unfold Raw.DisplayParser.consumePattern consumePattern
  rw [raw_pending]
  by_cases h : p.pending.length < pattern.length ∨ ¬ pattern <+: p.pending
  · rw [if_pos h, if_pos h]
  · rw [if_neg h, if_neg h, drain_of_le (Nat.le_of_not_lt fun hlt => h (.inl hlt)), ok_bind]
    rfl

/-- The address command alone. -/
theorem scanAddress_raw (update : ParseUpdate) (p : DisplayParser) :
    p.raw.scanAddress update = .ok ((
      if [0x00, 0x21] <+: p.pending then
        if p.pending.length < 7 then some (false, update, p)
        else (addressWindow (p.byte 2) (p.byte 3) (p.byte 4) (p.byte 5) (p.byte 6)).map fun w =>
          (true, update, { p with pending := p.pending.drop 7, state := .ssd1306Data w })
      else none).map rawProgress) := by
  unfold Raw.DisplayParser.scanAddress
  rw [raw_pending]
  by_cases hhead : [0x00, 0x21] <+: p.pending
  swap
  · rw [if_neg hhead, if_neg hhead]
    rfl
  rw [if_pos hhead, if_pos hhead]
  by_cases hshort : p.pending.length < 7
  · rw [if_pos hshort, if_pos hshort]
    rfl
  rw [if_neg hshort, if_neg hshort]
  have hindex : ∀ i < 7, index p.pending i = .ok (p.byte i) := fun i hi =>
    index_byte (by omega)
  rw [hindex 2 (by decide), hindex 3 (by decide), hindex 4 (by decide), hindex 5 (by decide),
    hindex 6 (by decide)]
  simp only [ok_bind]
  unfold addressWindow
  split_ifs with hwindow
  · obtain ⟨-, hx, -, hpage, -⟩ := hwindow
    have hendX := (p.byte 3).toNat_lt
    have hendPage := (p.byte 6).toNat_lt
    rw [drain_of_le (by omega), ok_bind, sub_of_le hx, ok_bind, add_usize (by omega), ok_bind,
      sub_of_le hpage, ok_bind, add_usize (by omega), ok_bind]
    rfl
  · rfl

theorem turnsBack_raw (page : UInt8) (p : DisplayParser) :
    p.raw.turnsBack page = .ok (decide (4 ≤ p.pending.length ∧
      (decodeColumn (p.byte 2) (p.byte 3)).isSome = true ∧
      p.sh1106LastPageCommand.any (page < ·) = true)) := by
  unfold Raw.DisplayParser.turnsBack
  rw [raw_pending]
  by_cases h : 4 ≤ p.pending.length
  · rw [if_pos h, index_byte (by omega), ok_bind, index_byte (by omega), ok_bind]
    simp only [h, true_and, Bool.decide_and, Bool.decide_eq_true]
    rfl
  · rw [if_neg h]
    simp [h]

/-- A range without its bounds. -/
def rawRange (range : Option (ℕ × Span)) : Option (ℕ × ℕ × ℕ) :=
  range.map fun r => (r.1, r.2.x, r.2.width)

theorem legacyRange_raw (a b d : UInt8) :
    Raw.DisplayParser.legacyRange (decodeColumn a b) = rawRange (pageRange a b 0x40 d) := by
  rw [Raw.DisplayParser.legacyRange, pageRange, if_pos rfl, rawRange, Option.map_map]
  rfl

theorem columnRange_raw (a b d : UInt8) {c : UInt8} (hc : c ≠ 0x40) :
    Raw.DisplayParser.columnRange (decodeColumn a b) (decodeColumn c d) =
      .ok (rawRange (pageRange a b c d)) := by
  rw [pageRange, if_neg hc]
  cases decodeColumn a b with
  | none => rfl
  | some e =>
    cases decodeColumn c d with
    | none => rfl
    | some s =>
      rw [Raw.DisplayParser.columnRange, Option.bind_some, Option.bind_some]
      by_cases h : 2 ≤ s ∧ s ≤ e ∧ e < displayWidth + 2
      · have hlt := h.2.2
        simp only [displayWidth] at hlt
        rw [if_pos h, dif_pos h, sub_of_le h.1, ok_bind, sub_of_le h.2.1, ok_bind,
          add_usize (by omega), ok_bind]
        rfl
      · rw [if_neg h, dif_neg h]
        rfl

theorem selectPage_raw (page : Page) (range : Option (ℕ × Span)) (update : ParseUpdate)
    (h : ∀ r ∈ range, r.1 ≤ p.pending.length) :
    p.raw.selectPage page.val (rawRange range) update = .ok ((range.map fun (commandSize, span) =>
      (true, update, { p with
        pending := p.pending.drop commandSize
        sh1106Pages := if page.val = 0 then 0 else p.sh1106Pages
        sh1106FrameStarted := if page.val = 0 then true else p.sh1106FrameStarted
        sh1106LastPageCommand := some page.val
        state := .sh1106PageData page span })).map rawProgress) := by
  cases range with
  | none => rfl
  | some r =>
    rw [rawRange, Option.map_some, Raw.DisplayParser.selectPage, raw_pending,
      drain_of_le (h r rfl), ok_bind]
    rfl

theorem scanPage_raw (update : ParseUpdate) (p : DisplayParser) :
    p.raw.scanPage (pageOf (p.byte 1)).val update =
      .ok ((p.scanPageCommand update).map rawProgress) := by
  unfold Raw.DisplayParser.scanPage scanPageCommand
  rw [turnsBack_raw, ok_bind, raw_pending]
  dsimp only
  by_cases hlast : 4 ≤ p.pending.length ∧ (decodeColumn (p.byte 2) (p.byte 3)).isSome = true ∧
      p.sh1106LastPageCommand.any ((pageOf (p.byte 1)).val < ·) = true
  · rw [if_pos (decide_eq_true hlast), if_pos hlast]
    rfl
  rw [if_neg (by simpa using hlast), if_neg hlast]
  by_cases hfive : p.pending.length < 5
  · rw [if_pos hfive, if_pos hfive]
    rfl
  rw [if_neg hfive, if_neg hfive, index_byte (by omega), ok_bind, index_byte (by omega), ok_bind,
    index_byte (by omega), ok_bind]
  by_cases hmark : p.byte 4 = 0x40
  · rw [if_pos hmark, if_neg fun h => h.1 hmark, hmark,
      legacyRange_raw (p.byte 2) (p.byte 3) (p.byte 5)]
    apply selectPage_raw
    intro r hr
    rcases pageRange_size hr with hn | ⟨-, hc⟩
    · omega
    · exact absurd rfl hc
  · rw [if_neg hmark]
    by_cases hsix : p.pending.length < 6
    · rw [if_pos hsix, if_pos ⟨hmark, hsix⟩]
      rfl
    rw [if_neg hsix, if_neg fun h => hsix h.2, ok_bind, index_byte (by omega), ok_bind,
      columnRange_raw _ _ _ hmark, ok_bind]
    apply selectPage_raw
    intro r hr
    rcases pageRange_size hr with hn | ⟨hn, -⟩ <;> omega

/-- The page command alone. -/
theorem scanPageCommand_raw (update : ParseUpdate) (p : DisplayParser) :
    p.raw.scanPageCommand update = .ok ((
      if [0x00] <+: p.pending then
        if p.pending.length < 2 then some (false, update, p)
        else if 0xb0 ≤ p.byte 1 ∧ p.byte 1 ≤ 0xb7 then p.scanPageCommand update
        else none
      else none).map rawProgress) := by
  unfold Raw.DisplayParser.scanPageCommand
  rw [raw_pending]
  by_cases hhead : [0x00] <+: p.pending
  swap
  · rw [if_neg hhead, if_neg hhead]
    rfl
  rw [if_pos hhead, if_pos hhead]
  by_cases hshort : p.pending.length < 2
  · rw [if_pos hshort, if_pos hshort]
    rfl
  rw [if_neg hshort, if_neg hshort, index_byte (by omega), ok_bind]
  by_cases hcommand : 0xb0 ≤ p.byte 1 ∧ p.byte 1 ≤ 0xb7
  · rw [if_pos hcommand, if_pos hcommand]
    exact scanPage_raw update p
  · rw [if_neg hcommand, if_neg hcommand]
    rfl

theorem discard_raw (update : ParseUpdate) (p : DisplayParser) :
    p.raw.discard update = .ok (rawProgress (p.discard update)) := by
  unfold Raw.DisplayParser.discard discard
  rw [raw_pending]
  by_cases h : p.pending = []
  · rw [if_pos h, if_pos h]
    rfl
  · rw [if_neg h, if_neg h, removeFirst_of_ne h, ok_bind]
    rfl

theorem scanRest_raw (a b : List UInt8) (update : ParseUpdate) (p : DisplayParser) :
    p.raw.scanRest [a, b] update = .ok (rawProgress
      ((if p.pending <+: a ∨ p.pending <+: b then some (false, update, p) else none).getD
        (p.discard update))) := by
  unfold Raw.DisplayParser.scanRest
  rw [raw_pending]
  by_cases h : p.pending <+: a ∨ p.pending <+: b
  · rw [if_pos (by simpa using h), if_pos h]
    rfl
  · rw [if_neg (by simpa using h), if_neg h]
    exact discard_raw update p

theorem scanSsd1306_raw (update : ParseUpdate) (hc : p.controller = .ssd1306) :
    p.raw.scan update = .ok (rawProgress (p.scan update)) := by
  unfold Raw.DisplayParser.scan scan
  rw [show p.raw.controller = p.controller from rfl, hc]
  dsimp only
  unfold scanSsd1306
  rw [consumePattern_raw, ok_bind]
  dsimp only
  by_cases hinit : (p.consumePattern ssd1306Init).1 = true
  · rw [if_pos hinit, if_pos hinit]
    rfl
  rw [if_neg hinit, if_neg hinit, scanAddress_raw, ok_bind]
  by_cases hhead : [0x00, 0x21] <+: p.pending
  swap
  · rw [if_neg hhead, if_neg fun h => hhead h.1, if_neg hhead]
    exact scanRest_raw _ _ update p
  rw [if_pos hhead]
  by_cases hshort : p.pending.length < 7
  · rw [if_pos hshort, if_pos ⟨hhead, hshort⟩]
    rfl
  rw [if_neg hshort, if_neg fun h => hshort h.2, if_pos hhead]
  cases addressWindow (p.byte 2) (p.byte 3) (p.byte 4) (p.byte 5) (p.byte 6) with
  | some w => rfl
  | none => exact scanRest_raw _ _ update p

theorem scanSh1106_raw (update : ParseUpdate) (hc : p.controller = .sh1106) :
    p.raw.scan update = .ok (rawProgress (p.scan update)) := by
  unfold Raw.DisplayParser.scan scan
  rw [show p.raw.controller = p.controller from rfl, hc]
  dsimp only
  unfold scanSh1106
  rw [consumePattern_raw, ok_bind]
  dsimp only
  by_cases hinit : (p.consumePattern sh1106Init).1 = true
  · rw [if_pos hinit, if_pos hinit]
    rfl
  rw [if_neg hinit, if_neg hinit, consumePattern_raw, ok_bind]
  by_cases hon : (p.consumePattern sh1106DisplayOn).1 = true
  · rw [if_pos hon, if_pos hon]
    rfl
  rw [if_neg hon, if_neg hon, scanPageCommand_raw, ok_bind]
  by_cases hhead : [0x00] <+: p.pending
  swap
  · rw [if_neg hhead, if_neg fun h => hhead h.1, if_neg fun h => hhead h.1]
    exact scanRest_raw _ _ update p
  rw [if_pos hhead]
  by_cases hshort : p.pending.length < 2
  · rw [if_pos hshort, if_pos ⟨hhead, hshort⟩]
    rfl
  have hlong : ¬ ([0x00] <+: p.pending ∧ p.pending.length < 2) := fun h => hshort h.2
  rw [if_neg hshort, if_neg hlong]
  by_cases hcommand : 0xb0 ≤ p.byte 1 ∧ p.byte 1 ≤ 0xb7
  swap
  · rw [if_neg hcommand, if_neg fun h => hcommand h.2]
    exact scanRest_raw _ _ update p
  rw [if_pos hcommand, if_pos ⟨hhead, hcommand⟩]
  cases p.scanPageCommand update with
  | some r => rfl
  | none => exact scanRest_raw _ _ update p

/-! ## Data -/

/-- A row of a window comes from the buffer and goes into the framebuffer. -/
theorem copyRow_raw (w : Window) {pending : List UInt8} (h : w.width * w.pages < pending.length)
    (f : Framebuffer) {offset : ℕ} (ho : offset < w.pages) :
    Raw.DisplayParser.copyRow w.x w.width w.page pending f offset =
      .ok (f.copy ((w.page + offset) * displayWidth + w.x)
        ((pending.drop (1 + offset * w.width)).take w.width)) := by
  have hslice := w.slice_le ho
  have hsize := size_le w
  have hrow : offset * w.width + w.width ≤ w.width * w.pages := by
    calc offset * w.width + w.width = (offset + 1) * w.width := (Nat.succ_mul _ _).symm
      _ ≤ w.pages * w.width := Nat.mul_le_mul_right _ ho
      _ = w.width * w.pages := Nat.mul_comm _ _
  have hlt : framebufferSize ≤ 1024 := by decide
  have hpage : w.page + offset ≤ (w.page + offset) * displayWidth :=
    Nat.le_mul_of_pos_right _ (by decide)
  rw [Raw.DisplayParser.copyRow, add_usize (by omega), ok_bind, mul_usize (by omega), ok_bind,
    add_usize (by omega), ok_bind, mul_usize (by omega), ok_bind, add_usize (by omega), ok_bind,
    add_usize (by omega), ok_bind, slice_of_le (by omega) (by omega), ok_bind,
    add_usize (by omega), ok_bind, Nat.add_sub_cancel_left, Raw.copyFromSlice,
    if_pos ⟨by omega, hslice⟩, if_pos]
  rw [List.length_take, List.length_drop]
  omega

theorem readSsd1306Data_raw (w : Window) (update : ParseUpdate) (p : DisplayParser) :
    p.raw.readSsd1306Data w.x w.width w.page w.pages update =
      .ok (rawProgress (p.readSsd1306Data w update)) := by
  have hsize := size_le w
  have hlt : framebufferSize ≤ 1024 := by decide
  unfold Raw.DisplayParser.readSsd1306Data readSsd1306Data
  rw [raw_pending, mul_usize (by omega), ok_bind, add_usize (by omega), ok_bind]
  dsimp only
  by_cases hnil : p.pending = []
  · rw [if_pos hnil, if_pos hnil]
    rfl
  rw [if_neg hnil, if_neg hnil, index_byte (List.length_pos_of_ne_nil hnil), ok_bind]
  by_cases hmark : p.byte 0 ≠ 0x40
  · rw [if_pos hmark, if_pos hmark]
    rfl
  rw [if_neg hmark, if_neg hmark]
  by_cases hshort : p.pending.length < w.width * w.pages + 1
  · rw [if_pos hshort, if_pos hshort]
    rfl
  rw [if_neg hshort, if_neg hshort]
  have hlen : w.width * w.pages < p.pending.length := by omega
  rw [foldlM_ok fun f offset ho => copyRow_raw w hlen f (List.mem_range.mp ho), ok_bind,
    drain_of_le (by omega), ok_bind]
  by_cases hfull : w.x = 0 ∧ w.width = displayWidth ∧ w.page = 0 ∧ w.pages = displayHeight / 8
  · rw [if_pos hfull, if_pos hfull]
    rfl
  · rw [if_neg hfull, if_neg hfull]
    rfl

theorem pagesDrawn_raw (page : Page) (span : Span) (p : DisplayParser) :
    p.raw.pagesDrawn page.val span.x span.width =
      .ok (if span.x = 0 ∧ span.width = displayWidth then p.sh1106Pages ||| (1 <<< page.val)
        else p.sh1106Pages) := by
  unfold Raw.DisplayParser.pagesDrawn
  rw [bit_of_lt page.property, ok_bind]
  split_ifs <;> rfl

theorem pageDrawn_raw (page : Page) (span : Span) (update : ParseUpdate) (p : DisplayParser) :
    p.raw.pageDrawn page.val span.x span.width update = .ok (rawProgress (
      let pages := if span.x = 0 ∧ span.width = displayWidth then
        p.sh1106Pages ||| (1 <<< page.val) else p.sh1106Pages
      if page.val = 7 then
        (true, if p.sh1106FrameStarted = true ∧ pages = 0xff then
            { update with completedFrames := update.completedFrames + 1 }
          else { update with partialFrameBoundary := true },
          { p with sh1106FrameStarted := false, sh1106Pages := 0, sh1106LastPageCommand := none })
      else (true, update, { p with sh1106Pages := pages }))) := by
  unfold Raw.DisplayParser.pageDrawn
  rw [pagesDrawn_raw, ok_bind]
  dsimp only
  by_cases hlast : page.val = 7
  · rw [if_pos hlast, if_pos hlast]
    rfl
  · rw [if_neg hlast, if_neg hlast]
    rfl

theorem readSh1106PageData_raw (page : Page) (span : Span) (update : ParseUpdate)
    (p : DisplayParser) :
    p.raw.readSh1106PageData page.val span.x span.width update =
      .ok (rawProgress (p.readSh1106PageData page span update)) := by
  have hslice := span.slice_le page
  have hlt : framebufferSize ≤ 1024 := by decide
  unfold Raw.DisplayParser.readSh1106PageData readSh1106PageData
  rw [raw_pending, add_usize (by omega), ok_bind]
  dsimp only
  by_cases hnil : p.pending = []
  · rw [if_pos hnil, if_pos hnil]
    rfl
  rw [if_neg hnil, if_neg hnil, index_byte (List.length_pos_of_ne_nil hnil), ok_bind]
  by_cases hmark : p.byte 0 ≠ 0x40
  · rw [if_pos hmark, if_pos hmark]
    rfl
  rw [if_neg hmark, if_neg hmark]
  by_cases hshort : p.pending.length < span.width + 1
  · rw [if_pos hshort, if_pos hshort]
    rfl
  rw [if_neg hshort, if_neg hshort, mul_usize (by omega), ok_bind, add_usize (by omega), ok_bind,
    add_usize (by omega), ok_bind, slice_of_le (by omega) (by omega), ok_bind,
    Nat.add_sub_cancel, Raw.copyFromSlice, if_pos ⟨by omega, hslice⟩, if_pos, ok_bind,
    drain_of_le (by omega), ok_bind]
  · exact pageDrawn_raw page span { update with displayUpdates := update.displayUpdates + 1 }
      { p with
        framebuffer := p.framebuffer.copy (page.val.toNat * displayWidth + span.x)
          ((p.pending.drop 1).take span.width)
        pending := p.pending.drop (span.width + 1), state := .scan }
  · rw [List.length_take, List.length_drop]
    omega

/-! ## Pushing -/

theorem advance_raw (update : ParseUpdate) (p : DisplayParser) :
    p.raw.advance update = .ok (rawProgress (p.advance update)) := by
  unfold Raw.DisplayParser.advance advance
  rw [show p.raw.state = p.state.raw from rfl]
  cases p.state with
  | scan =>
    cases hc : p.controller with
    | ssd1306 => exact scanSsd1306_raw update hc
    | sh1106 => exact scanSh1106_raw update hc
  | ssd1306Data w => exact readSsd1306Data_raw w update p
  | sh1106PageData page span => exact readSh1106PageData_raw page span update p

/-- However many turns are allowed, if they are enough. -/
theorem pushLoop_raw {r : ParseUpdate × DisplayParser} (h : PushEnds update p r) :
    ∀ {fuel : ℕ}, p.size < fuel → p.raw.pushLoop fuel update = .ok (r.1, r.2.raw) := by
  induction h with
  | present hpresent =>
    intro fuel hfuel
    obtain ⟨n, rfl⟩ : ∃ n, fuel = n + 1 := ⟨fuel - 1, by omega⟩
    rw [Raw.DisplayParser.pushLoop, advance_raw, ok_bind]
    exact if_pos hpresent
  | stuck hpresent hstuck =>
    intro fuel hfuel
    obtain ⟨n, rfl⟩ : ∃ n, fuel = n + 1 := ⟨fuel - 1, by omega⟩
    rw [Raw.DisplayParser.pushLoop, advance_raw, ok_bind]
    exact (if_neg (Bool.eq_false_iff.mp hpresent)).trans (if_neg (Bool.eq_false_iff.mp hstuck))
  | @next u p r hpresent hprogress _ ih =>
    intro fuel hfuel
    obtain ⟨n, rfl⟩ : ∃ n, fuel = n + 1 := ⟨fuel - 1, by omega⟩
    have hsize := advance_size hprogress
    rw [Raw.DisplayParser.pushLoop, advance_raw, ok_bind]
    exact (if_neg (Bool.eq_false_iff.mp hpresent)).trans
      ((if_pos hprogress).trans (ih (by omega)))

theorem push_raw (p : DisplayParser) (input : List UInt8) :
    p.raw.push input = .ok ((p.push input).1, (p.push input).2.raw) := by
  have hsize : (p.extend input).size < 3 * (p.extend input).pending.length + 3 := by
    rw [size]
    split_ifs <;> omega
  exact pushLoop_raw (parser_push_ends p input) hsize

/-! ## Counters -/

/-- A counter goes up for bytes that are taken. -/
theorem Moves.counters {m : Move} {u : ParseUpdate} {p' : DisplayParser} (h : Moves p m u p') :
    u.discardedBytes + u.displayUpdates ≤ m.bytes.length ∧
      u.completedFrames ≤ u.displayUpdates := by
  cases h with
  | window =>
    split_ifs <;> exact ⟨Nat.succ_pos _, by decide⟩
  | span =>
    rw [pageUpdate]
    split_ifs <;> exact ⟨Nat.succ_pos _, by decide⟩
  | discard => exact ⟨le_rfl, le_rfl⟩
  | _ => exact ⟨Nat.zero_le _, le_rfl⟩

theorem emits_counters {p' : DisplayParser} {os : List Emission} (h : Emits reader p os p') :
    (total os).discardedBytes + (total os).displayUpdates + p'.pending.length ≤ p.pending.length ∧
      (total os).completedFrames ≤ (total os).displayUpdates := by
  induction h with
  | nil => exact ⟨by rw [total]; exact (Nat.zero_add _).le, le_rfl⟩
  | @cons s s' t o os hstep _ ih =>
    obtain ⟨m, hm, -⟩ := step_moves hstep
    obtain ⟨hbytes, hframes⟩ := hm.counters
    have hpending := congrArg List.length hm.pending
    rw [List.length_append] at hpending
    simp only [total, ParseUpdate.plus]
    omega

theorem push_counters (p : DisplayParser) (input : List UInt8) :
    (p.push input).1.discardedBytes + (p.push input).1.displayUpdates ≤
        p.pending.length + input.length ∧
      (p.push input).1.completedFrames ≤ (p.push input).1.displayUpdates := by
  obtain ⟨os, hemits, htotal⟩ := push_emits p input
  obtain ⟨hbytes, hframes⟩ := emits_counters hemits
  have hlen : (p.extend input).pending.length = p.pending.length + input.length :=
    List.length_append
  rw [htotal]
  exact ⟨by omega, hframes⟩

end DisplayParser

/-! ## Reachable states -/

namespace Raw

/-- The states of a parser that is pushed, those between the turns of a push included. -/
inductive Reachable (c : DisplayController) : DisplayParser → Prop
  | new : Reachable c (.new c)
  | extend {p : DisplayParser} (h : Reachable c p) (input : List UInt8) :
      Reachable c (p.extend input)
  | turn {p p' : DisplayParser} {update update' : ParseUpdate} {progressed : Bool}
      (h : Reachable c p) (ht : p.advance update = .ok (progressed, update', p')) : Reachable c p'

variable {c : DisplayController} {p : DisplayParser}

/-- What is reached is a parser whose state carries its bounds. -/
theorem Reachable.exists_raw (h : Reachable c p) : ∃ q : BscTarget.DisplayParser, q.raw = p := by
  induction h with
  | new => exact ⟨.new c, rfl⟩
  | extend _ input ih =>
    obtain ⟨q, rfl⟩ := ih
    exact ⟨q.extend input, rfl⟩
  | turn _ hturn ih =>
    obtain ⟨q, rfl⟩ := ih
    rw [q.advance_raw] at hturn
    exact ⟨_, congrArg (fun r : Progress => r.2.2) (Except.ok.inj hturn)⟩

theorem Reachable.pushLoop {fuel : ℕ} {update : ParseUpdate} {r : ParseUpdate × DisplayParser}
    (h : Reachable c p) (hr : p.pushLoop fuel update = .ok r) : Reachable c r.2 := by
  induction fuel generalizing p update with
  | zero => cases hr
  | succ fuel ih =>
    rw [DisplayParser.pushLoop] at hr
    cases hturn : p.advance update with
    | error e =>
      rw [hturn] at hr
      cases hr
    | ok turned =>
      obtain ⟨progressed, update', p'⟩ := turned
      rw [hturn, ok_bind] at hr
      dsimp only at hr
      split_ifs at hr
      · cases hr
        exact h.turn hturn
      · exact ih (h.turn hturn) hr
      · cases hr
        exact h.turn hturn

/-- The bytes of a stream, pushed in any chunks. -/
def pushes (chunks : List (List UInt8)) (p : DisplayParser) : Except Panic DisplayParser :=
  chunks.foldlM (fun p chunk => do
    let (_, p) ← p.push chunk
    return p) p

theorem pushes_raw (chunks : List (List UInt8)) (q : BscTarget.DisplayParser) :
    ∃ q' : BscTarget.DisplayParser, pushes chunks q.raw = .ok q'.raw := by
  induction chunks generalizing q with
  | nil => exact ⟨q, rfl⟩
  | cons chunk chunks ih =>
    obtain ⟨q', hq'⟩ := ih (q.push chunk).2
    refine ⟨q', ?_⟩
    rw [pushes, List.foldlM_cons, q.push_raw]
    exact hq'

end Raw

/-- In every state that is reached the bounds hold, and no turn and no push fails a check; what an
update counts are bytes of its buffer. -/
theorem buffers_safe (c : DisplayController) {p : Raw.DisplayParser} (h : Raw.Reachable c p) :
    p.state.InBounds ∧ (∀ update, ∃ r, p.advance update = .ok r) ∧
      (∀ input, ∃ u p', p.push input = .ok (u, p') ∧ Raw.Reachable c p' ∧
        u.discardedBytes + u.displayUpdates ≤ p.pending.length + input.length ∧
        u.completedFrames ≤ u.displayUpdates) ∧
      ∀ chunks, ∃ p', Raw.pushes chunks p = .ok p' := by
  obtain ⟨q, rfl⟩ := h.exists_raw
  refine ⟨inBounds_raw q.state, fun update => ⟨_, q.advance_raw update⟩, fun input => ?_,
    fun chunks => ?_⟩
  · exact ⟨_, _, q.push_raw input, (h.extend input).pushLoop (q.push_raw input),
      q.push_counters input⟩
  · obtain ⟨q', hq'⟩ := Raw.pushes_raw chunks q
    exact ⟨q'.raw, hq'⟩

/-- Behind the command that addresses the lower right corner. -/
def cornered : Raw.DisplayParser := { Raw.DisplayParser.new .ssd1306 with
  state := .ssd1306Data 120 8 7 1 }

theorem buffers_safe_cornered :
    cornered.state.InBounds ∧ (∀ update, ∃ r, cornered.advance update = .ok r) ∧
      (∀ input, ∃ u p', cornered.push input = .ok (u, p') ∧ Raw.Reachable .ssd1306 p' ∧
        u.discardedBytes + u.displayUpdates ≤ cornered.pending.length + input.length ∧
        u.completedFrames ≤ u.displayUpdates) ∧
      ∀ chunks, ∃ p', Raw.pushes chunks cornered = .ok p' := by
  have hturn : ((Raw.DisplayParser.new .ssd1306).extend
      [0x00, 0x21, 0x78, 0x7f, 0x22, 0x07, 0x07]).advance .none =
        .ok (true, .none, cornered) := rfl
  exact buffers_safe .ssd1306 ((Raw.Reachable.new.extend _).turn hturn)

end BscTarget
