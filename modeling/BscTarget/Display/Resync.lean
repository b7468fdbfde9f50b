import BscTarget.Display.Accounting
import BscTarget.Display.Garbage

/-!
# Resynchronisation

Two complete frames bring the parser back from whatever it was fed before. The first one may be
drawn, swallowed as the payload of a lost command or skipped, but it leaves nothing that a command
could begin in (`Settled`); from there the second one is drawn as it is.
-/

namespace BscTarget

/-! ## Frames -/

/-- The window of the whole display. -/
def Window.whole : Window :=
  ⟨0, displayWidth, 0, displayHeight / 8, displayWidth_pos, displayWidth_fits, by decide, by decide⟩

/-- The bytes of a page. -/
def Framebuffer.row (f : Framebuffer) (page : ℕ) : List UInt8 :=
  (f.toList.drop (page * displayWidth)).take displayWidth

def pageMessage (f : Framebuffer) (page : ℕ) : List UInt8 :=
  [0x00, 0xb0 ||| .ofNat page, 0x02, 0x10, 0x40] ++ f.row page

/-- The pages of a frame from one on. -/
def pagesFrom (f : Framebuffer) (page : ℕ) : List UInt8 :=
  ((List.range 8).drop page).flatMap (pageMessage f)

/-- A complete frame. -/
def frame : DisplayController → Framebuffer → List UInt8
  | .ssd1306, f => [0x00, 0x21, 0x00, 0x7f, 0x22, 0x00, 0x07, 0x40] ++ f.toList
  | .sh1106, f => (List.range 8).flatMap (pageMessage f)

open DisplayParser in
/-- No two bytes of a payload look like the beginning of a command. -/
def Plain : DisplayController → Framebuffer → Prop
  | .ssd1306, f => Unmarked .ssd1306 f.toList
  | .sh1106, f => ∀ page < 8, Unmarked .sh1106 (f.row page)

theorem pagesFrom_eq (f : Framebuffer) {page : ℕ} (h : page < 8) :
    pagesFrom f page = pageMessage f page ++ pagesFrom f (page + 1) := by
  rw [pagesFrom, List.drop_eq_getElem_cons (by rw [List.length_range]; exact h),
    List.getElem_range, List.flatMap_cons, pagesFrom]

theorem length_row (f : Framebuffer) {page : ℕ} (h : page < 8) :
    (f.row page).length = displayWidth := by
  rw [Framebuffer.row, List.length_take, List.length_drop, Vector.length_toList]
  simp only [displayWidth, framebufferSize, displayHeight]
  omega

/-- Page `n`. -/
def pageAt (n : ℕ) (h : n < 8) : Page :=
  ⟨.ofNat n, by rw [UInt8.toNat_ofNat_of_lt' (show n < 256 by omega)]; exact h⟩

theorem pageMessage_eq (f : Framebuffer) {page : ℕ} (h : page < 8) :
    pageMessage f page = legacyCommand (pageAt page h) ++ 0x40 :: f.row page := rfl

theorem pageAt_toNat {n : ℕ} (h : n < 8) : (pageAt n h).val.toNat = n :=
  UInt8.toNat_ofNat_of_lt' (show n < 256 by omega)

/-- A whole payload replaces whatever it is drawn over. -/
theorem draw_whole (f g : Framebuffer) : g.draw .whole f.toList = f := by
  refine Vector.ext fun i hi => ?_
  have hlt : i < 1024 := hi
  have hin : Framebuffer.Inside .whole i := by
    simp only [Framebuffer.Inside, Window.whole, displayWidth, displayHeight]
    omega
  have hplace : Framebuffer.place .whole i = i := by
    simp only [Framebuffer.place, Window.whole, displayWidth]
    omega
  rw [Framebuffer.getElem_draw _ _ _ hi, if_pos hin, hplace, List.getD_eq_getElem _ _ (by
    rw [Vector.length_toList]; exact hi), Vector.getElem_toList]

theorem draw_row (f g : Framebuffer) {page : ℕ} (h : page < 8) {i : ℕ}
    (hi : i < framebufferSize) :
    (g.draw (Span.full.window (pageAt page h)) (f.row page))[i] =
      if i / displayWidth = page then f[i] else g[i] := by
  have hlt : i < 1024 := hi
  rw [Framebuffer.getElem_draw _ _ _ hi]
  have hin : Framebuffer.Inside (Span.full.window (pageAt page h)) i ↔ i / displayWidth = page := by
    simp only [Framebuffer.Inside, Span.window, Span.full, pageAt_toNat h, displayWidth]
    omega
  by_cases hpage : i / displayWidth = page
  · rw [if_pos (hin.mpr hpage), if_pos hpage]
    have hplace : Framebuffer.place (Span.full.window (pageAt page h)) i = i % displayWidth := by
      simp only [Framebuffer.place, Span.window, Span.full, pageAt_toNat h, displayWidth] at *
      omega
    have hcolumn : i % displayWidth < displayWidth := Nat.mod_lt _ (by decide)
    have hindex : page * displayWidth + i % displayWidth = i := by
      rw [← hpage, Nat.mul_comm]
      exact Nat.div_add_mod i displayWidth
    rw [hplace, Framebuffer.row, List.getD_eq_getElem?_getD, List.getElem?_take_of_lt hcolumn,
      List.getElem?_drop, hindex, ← List.getD_eq_getElem?_getD,
      List.getD_eq_getElem _ _ (by rw [Vector.length_toList]; exact hi), Vector.getElem_toList]
  · rw [if_neg fun h => hpage (hin.mp h), if_neg hpage]

namespace DisplayParser

variable {c : DisplayController} {p q q' : DisplayParser} {f : Framebuffer} {rest : List UInt8}
  {os : List Emission}

theorem frame_headed (c : DisplayController) (f : Framebuffer) : Headed c (frame c f) := by
  cases c with
  | ssd1306 => exact ⟨_, _, rfl, rfl⟩
  | sh1106 =>
    rw [frame, show (List.range 8).flatMap (pageMessage f) = pagesFrom f 0 from rfl,
      pagesFrom_eq f (by omega)]
    exact ⟨_, _, rfl, by decide⟩

/-- The mark before a payload keeps it apart from what is before. -/
theorem Unmarked.payload {l l' : List UInt8} (h : Unmarked c l) (h' : Unmarked c l')
    (hl : l.getLast? = some 0x40) : Unmarked c (l ++ l') := by
  refine List.IsChain.append h h' fun a ha b hb hmark => ?_
  rw [hl] at ha
  cases ha
  cases hmark.1

/-! ## A frame from anywhere -/

theorem paint_last {page : Page} (h : page.val = 7) (p : DisplayParser) (span : Span)
    (data rest : List UInt8) : (p.paint page span data rest).sh1106LastPageCommand = none := by
  rw [paint, if_pos h]
  rfl

/-- Pages up to the last are read whatever the tracker says, and reset it. -/
theorem pages_emits {page : ℕ} (hpage : page ≤ 8) (hs : q.state = .scan)
    (hc : q.controller = .sh1106) (hp : q.pending = pagesFrom f page ++ rest) :
    ∃ os q', Emits reader q os q' ∧ q'.state = .scan ∧ q'.controller = .sh1106 ∧
      q'.pending = rest ∧
      (page < 8 ∨ q.sh1106LastPageCommand = none → q'.sh1106LastPageCommand = none) := by
  induction hn : 8 - page generalizing page q with
  | zero =>
    obtain rfl : page = 8 := by omega
    exact ⟨[], q, .nil q, hs, hc, hp, fun h => h.resolve_left (by omega)⟩
  | succ n ih =>
    have hlt : page < 8 := by omega
    have hnext : q.pending = legacyCommand (pageAt page hlt) ++
        (0x40 :: f.row page ++ (pagesFrom f (page + 1) ++ rest)) := by
      rw [hp, pagesFrom_eq f hlt, pageMessage_eq f hlt, List.append_assoc, List.append_assoc]
    obtain ⟨os, r, hemits, hcontroller, -⟩ :=
      page_emits hs hc (.legacy (pageAt page hlt)) hnext (length_row f hlt)
    obtain ⟨hc', hs', hp', -⟩ := paint_eq r (pageAt page hlt) .full (f.row page)
      (pagesFrom f (page + 1) ++ rest)
    obtain ⟨os', q', hemits', hs'', hc'', hp'', hlast⟩ :=
      ih (by omega) hs' (hc'.trans (hcontroller.trans hc)) hp' (by omega)
    refine ⟨_, q', hemits.trans hemits', hs'', hc'', hp'', fun _ => hlast ?_⟩
    by_cases hseven : page = 7
    · subst hseven
      exact .inr (paint_last rfl r _ _ _)
    · exact .inl (by omega)

/-- Nothing is left that a command could begin in, and no page that one could be lower than. -/
structure Settled (q : DisplayParser) : Prop where
  state : q.state = .scan
  unmarked : Unmarked q.controller q.pending
  last : q.controller = .sh1106 → q.sh1106LastPageCommand = none

theorem frame_settles (hs : q.state = .scan) (hc : q.controller = c)
    (hp : q.pending = frame c f) :
    ∃ os q', Emits reader q os q' ∧ Settled q' ∧ q'.controller = c := by
  cases c with
  | ssd1306 =>
    have hwhole : q.pending = addressCommand .whole ++ (0x40 :: f.toList ++ []) := by
      rw [hp, List.append_nil]
      rfl
    obtain ⟨os, q', hdecoded⟩ := rectangle_decoded hs hc hwhole f.length_toList
    have hc' := hdecoded.controller.trans hc
    refine ⟨os, q', hdecoded.emits, ⟨hdecoded.state, ?_, fun h => ?_⟩, hc'⟩
    · rw [hdecoded.pending]
      exact .nil
    · rw [hc'] at h
      cases h
  | sh1106 =>
    have hpages : q.pending = pagesFrom f 0 ++ [] := by
      rw [hp, List.append_nil]
      rfl
    obtain ⟨os, q', hemits, hs', hc', hp', hlast⟩ := pages_emits (Nat.zero_le 8) hs hc hpages
    refine ⟨os, q', hemits, ⟨hs', ?_, fun _ => hlast (.inl (by omega))⟩, hc'⟩
    rw [hp']
    exact .nil

namespace Settled

theorem turn {m : Move} {u : ParseUpdate} (h : Settled q) (hm : Moves q m u q') :
    Settled q' ∧ q'.controller = q.controller := by
  have hstate := h.state
  have hunmarked := h.unmarked
  cases hm with
  | pattern hs hb hp =>
    rw [hp] at hunmarked
    exact ⟨⟨hs, hunmarked.suffix (List.suffix_append _ _), h.last⟩, rfl⟩
  | discard hs hp =>
    rw [hp] at hunmarked
    exact ⟨⟨hs, hunmarked.suffix (List.suffix_cons _ _), h.last⟩, rfl⟩
  | address hs hc hp =>
    rw [hc, hp] at hunmarked
    exact absurd hunmarked (not_unmarked (g := []) ⟨_, _, rfl, rfl⟩)
  | page hs hc hb hp =>
    rw [hc, hp] at hunmarked
    refine absurd hunmarked (not_unmarked (g := []) ?_)
    cases hb with
    | ranged => exact ⟨_, _, rfl, command_range _⟩
    | legacy => exact ⟨_, _, rfl, command_range _⟩
  | boundary hs hc hl =>
    rw [h.last hc] at hl
    cases hl
  | abandon hs => exact absurd hstate hs
  | window hs => rw [hs] at hstate; cases hstate
  | span hs => rw [hs] at hstate; cases hstate

/-- Reading on keeps it so. -/
theorem reads (h : Settled q) (hr : Reads reader q os q') :
    Settled q' ∧ q'.controller = q.controller := by
  induction hr with
  | wait => exact ⟨h, rfl⟩
  | next hstep _ ih =>
    obtain ⟨m, hm, -⟩ := step_moves hstep
    obtain ⟨h', hc⟩ := h.turn hm
    obtain ⟨h'', hc'⟩ := ih h'
    exact ⟨h'', hc'.trans hc⟩

end Settled

/-! ## The first frame -/

theorem pageRange_none {a b m d : UInt8} (hm : m ≠ 0x40)
    (h : decodeColumn a b = none ∨ decodeColumn m d = none) : pageRange a b m d = none := by
  rw [pageRange, if_neg hm]
  rcases h with h | h
  · rw [h]
    rfl
  · rw [h]
    cases decodeColumn a b <;> rfl

/-- How many bytes before a frame are certainly too few for a command. -/
def scarce : DisplayController → ℕ
  | .ssd1306 => 5
  | .sh1106 => 4

theorem scarce_refused (c : DisplayController) (f : Framebuffer) (byte : UInt8) (g : List UInt8)
    (hlen : (byte :: g).length ≤ scarce c) (hh : Headed c (byte :: g ++ frame c f)) :
    Refused c (byte :: g ++ frame c f) := by
  cases c with
  | ssd1306 =>
    have hlong : 7 ≤ (byte :: g ++ frame .ssd1306 f).length := by
      simp only [frame, List.length_append, List.length_cons]
      omega
    refine ⟨hlong, ?_⟩
    have hmark : ∀ a b m p p' : UInt8, m ≠ 0x22 ∨ p' = 0x21 → addressWindow a b m p p' = none := by
      intro a b m p p' h
      refine dif_neg fun hc => ?_
      rcases h with h | rfl
      · exact h hc.1
      · exact absurd hc.2.2.2.2 (by decide)
    match g, hlen with
    | [], _ => obtain ⟨b, rest, h, hb⟩ := hh; cases h; exact absurd hb (not_marks_zero _)
    | [_], _ => exact hmark _ _ 0x00 _ _ (.inl (by decide))
    | [_, _], _ => exact hmark _ _ 0x21 _ _ (.inl (by decide))
    | [_, _, _], _ => exact hmark _ _ 0x00 _ _ (.inl (by decide))
    | [_, _, _, _], _ => exact hmark _ _ _ _ _ (.inr rfl)
    | _ :: _ :: _ :: _ :: _ :: _, hlen =>
      simp only [scarce, List.length_cons] at hlen
      omega
  | sh1106 =>
    obtain ⟨rest, hframe⟩ : ∃ rest, frame .sh1106 f = [0x00, 0xb0, 0x02, 0x10, 0x40] ++ rest := by
      refine ⟨f.row 0 ++ pagesFrom f 1, ?_⟩
      show pagesFrom f 0 = _
      rw [pagesFrom_eq f (by omega)]
      rfl
    rw [hframe] at hh ⊢
    refine ⟨by simp only [List.length_append, List.length_cons]; omega, ?_⟩
    match g, hlen with
    | [], _ => obtain ⟨b, rest, h, hb⟩ := hh; cases h; exact absurd hb (not_marks_zero _)
    | [_], _ => exact pageRange_none (m := 0x02) (by decide) (.inl rfl)
    | [_, a], _ =>
      exact pageRange_none (b := 0x00) (m := 0xb0) (by decide)
        (.inl (if_neg fun h => absurd h.2.1 (by decide)))
    | [_, _, _], _ => exact pageRange_none (m := 0x00) (by decide) (.inr rfl)
    | _ :: _ :: _ :: _ :: _, hlen =>
      simp only [scarce, List.length_cons] at hlen
      omega

/-- After a few bytes of any kind a frame settles the parser. -/
theorem scarce_settles {g : List UInt8} (hs : q.state = .scan) (hc : q.controller = c)
    (hp : q.pending = g ++ frame c f) (hlen : g.length ≤ scarce c) :
    ∃ os q', Emits reader q os q' ∧ Settled q' ∧ q'.controller = c := by
  obtain ⟨os, r, hemits, hs', hc', hp'⟩ := short_skipped hs hlen hp (hc ▸ frame_headed c f)
    (by rw [hc]; exact fun byte g => scarce_refused c f byte g)
  obtain ⟨os', q', hemits', hsettled⟩ := frame_settles hs' (hc'.trans hc) hp'
  exact ⟨_, q', hemits.trans hemits', hsettled⟩

/-- An SSD1306 frame without its first byte is no frame. -/
theorem tail_unmarked (h : Plain .ssd1306 f) : Unmarked .ssd1306 (frame .ssd1306 f).tail :=
  Unmarked.payload (l := [0x21, 0x00, 0x7f, 0x22, 0x00, 0x07, 0x40]) (by decide) h rfl

theorem row_unmarked (h : Plain .sh1106 f) {page : ℕ} (hpage : page < 8) :
    Unmarked .sh1106 (pageMessage f page).tail := by
  refine Unmarked.payload (l := [0xb0 ||| .ofNat page, 0x02, 0x10, 0x40]) ?_ (h page hpage) rfl
  exact List.isChain_cons_cons.mpr ⟨fun hmark => absurd hmark.2 (by decide), by decide⟩

/-- An address command that lacks one byte takes the first one of the frame, if it is one at all;
no data follows then, and the rest of the frame is no frame. -/
theorem address_settles {x endX mark page : UInt8} (hs : p.state = .scan)
    (hc : p.controller = .ssd1306) (hp : p.pending = [0x00, 0x21, x, endX, mark, page])
    (hf : Plain .ssd1306 f) :
    ∃ os q, Emits reader (p.extend (frame .ssd1306 f)) os q ∧ Settled q ∧
      q.controller = .ssd1306 := by
  have htail : (p.extend (frame .ssd1306 f)).pending =
      [0x00, 0x21, x, endX, mark, page, 0x00] ++ (frame .ssd1306 f).tail := by
    rw [extend_pending, hp]
    rfl
  cases hw : addressWindow x endX mark page 0x00 with
  | some w =>
    rw [addressWindow_eq_some.mp hw] at htail
    have haddress := address_step (p := p.extend (frame .ssd1306 f)) hs hc htail
    have hbyte : (frame .ssd1306 f).tail =
        0x21 :: ([0x00, 0x7f, 0x22, 0x00, 0x07, 0x40] ++ f.toList) := rfl
    have habandon := abandon_step (p := { p.extend (frame .ssd1306 f) with
      pending := (frame .ssd1306 f).tail, state := .ssd1306Data w })
      (fun h => by cases h) hbyte (by decide)
    refine ⟨_, _, .cons haddress (.single habandon), ⟨rfl, ?_, fun h => ?_⟩, hc⟩
    · show Unmarked p.controller _
      rw [hc]
      exact tail_unmarked hf
    · rw [show p.controller = .sh1106 from h] at hc
      cases hc
  | none =>
    have hbyte : (p.extend (frame .ssd1306 f)).pending =
        0x00 :: ([0x21, x, endX, mark, page] ++ frame .ssd1306 f) := by
      rw [extend_pending, hp]
      rfl
    have hcontroller : (p.extend (frame .ssd1306 f)).controller = .ssd1306 := hc
    have hheaded : Headed (p.extend (frame .ssd1306 f)).controller
        (p.extend (frame .ssd1306 f)).pending := by
      rw [hcontroller, hbyte]
      exact ⟨_, _, rfl, rfl⟩
    have hrefused : Refused (p.extend (frame .ssd1306 f)).controller
        (p.extend (frame .ssd1306 f)).pending := by
      rw [hcontroller, htail]
      refine ⟨?_, hw⟩
      simp only [List.length_append, List.length_cons]
      omega
    obtain ⟨os, q, hemits, hqs, hqc, hqp⟩ :=
      refused_emits (p := p.extend (frame .ssd1306 f)) hs hbyte hheaded hrefused
    obtain ⟨os', q', hemits', hsettled⟩ :=
      scarce_settles hqs (hqc.trans hc) hqp (Nat.le_refl 5)
    exact ⟨_, q', hemits.trans hemits', hsettled⟩

/-- A page command that lacks one byte is none with the first one of the frame. -/
theorem page_settles {b endLow endHigh mark : UInt8} (hs : p.state = .scan)
    (hc : p.controller = .sh1106) (hp : p.pending = [0x00, b, endLow, endHigh, mark])
    (hb : Marks .sh1106 b) (hmark : mark ≠ 0x40) :
    ∃ os q, Emits reader (p.extend (frame .sh1106 f)) os q ∧ Settled q ∧
      q.controller = .sh1106 := by
  obtain ⟨t, rest, hframe, -⟩ := frame_headed .sh1106 f
  have hpending : (p.extend (frame .sh1106 f)).pending =
      [0x00, b, endLow, endHigh, mark, 0x00] ++ t :: rest := by
    rw [extend_pending, hp, hframe]
    rfl
  have hcolumn : decodeColumn mark 0x00 = none := if_neg fun h => absurd h.2.1 (by decide)
  have hbyte : (p.extend (frame .sh1106 f)).pending =
      0x00 :: ([b, endLow, endHigh, mark] ++ frame .sh1106 f) := by
    rw [extend_pending, hp]
    rfl
  have hcontroller : (p.extend (frame .sh1106 f)).controller = .sh1106 := hc
  have hheaded : Headed (p.extend (frame .sh1106 f)).controller
      (p.extend (frame .sh1106 f)).pending := by
    rw [hcontroller, hbyte]
    exact ⟨_, _, rfl, hb⟩
  have hrefused : Refused (p.extend (frame .sh1106 f)).controller
      (p.extend (frame .sh1106 f)).pending := by
    rw [hcontroller, hpending]
    refine ⟨?_, pageRange_none hmark (.inr hcolumn)⟩
    simp only [List.length_append, List.length_cons]
    omega
  obtain ⟨os, q, hemits, hqs, hqc, hqp⟩ :=
    refused_emits (p := p.extend (frame .sh1106 f)) hs hbyte hheaded hrefused
  obtain ⟨os', q', hemits', hsettled⟩ := scarce_settles hqs (hqc.trans hc) hqp (Nat.le_refl 4)
  exact ⟨_, q', hemits.trans hemits', hsettled⟩

/-- A frame settles a parser that scans. -/
theorem scan_settles (hd : p.Drained) (hs : p.state = .scan) (hc : p.controller = c)
    (hf : Plain c f) :
    ∃ os q, Emits reader (p.extend (frame c f)) os q ∧ Settled q ∧ q.controller = c := by
  have hwaiting := hd.waiting hs
  rw [hc] at hwaiting
  rcases hwaiting with ⟨pattern, hmem, hbegins, -⟩ | ⟨⟨b, g, hp, hb⟩, hshort⟩
  · have hunmarked : Unmarked c p.pending := (patterns_unmarked pattern hmem).of_begins hbegins
    obtain ⟨os, hemits, -⟩ := unmarked_skipped (p := p.extend (frame c f)) hs
      (hc ▸ hunmarked) (extend_pending p _) (hc ▸ frame_headed c f)
    obtain ⟨os', q, hemits', hsettled⟩ :=
      frame_settles (q := { p.extend (frame c f) with pending := frame c f }) hs hc rfl
    exact ⟨_, q, hemits.trans hemits', hsettled⟩
  · by_cases hscarce : p.pending.length ≤ scarce c
    · exact scarce_settles hs hc rfl hscarce
    -- one byte is missing
    cases c with
    | ssd1306 =>
      have hlt : p.pending.length < 7 := hshort
      simp only [scarce, hp, List.length_cons] at hscarce hlt
      obtain rfl : b = 0x21 := hb
      match g, hscarce, hlt with
      | [x, endX, mark, page], _, _ => exact address_settles hs hc hp hf
      | [], h, _ | [_], h, _ | [_, _], h, _ | [_, _, _], h, _ =>
        simp only [List.length_cons, List.length_nil] at h
        omega
      | _ :: _ :: _ :: _ :: _ :: _, _, h =>
        simp only [List.length_cons] at h
        omega
    | sh1106 =>
      have hmark : p.pending.getD 4 0 ≠ 0x40 ∧ p.pending.length < 6 := by
        refine hshort.resolve_left fun hlt => hscarce ?_
        exact Nat.le_of_lt_succ hlt
      simp only [scarce, hp, List.length_cons] at hscarce hmark
      match g, hscarce, hmark with
      | [endLow, endHigh, mark], _, h => exact page_settles hs hc hp hb h.1
      | [], h, _ | [_], h, _ | [_, _], h, _ =>
        simp only [List.length_cons, List.length_nil] at h
        omega
      | _ :: _ :: _ :: _ :: _, _, h =>
        simp only [List.length_cons] at h
        omega

/-- Data in part takes what it lacks from the stream, one byte at least. -/
theorem swallowed {size : ℕ} {data stream : List UInt8} (h : data.length < size)
    (hs : size ≤ stream.length) :
    ∃ n < size, (data ++ stream.take (n + 1)).length = size ∧
      data ++ stream = data ++ stream.take (n + 1) ++ stream.tail.drop n := by
  refine ⟨size - data.length - 1, by omega, ?_, ?_⟩
  · rw [List.length_append, List.length_take]
    omega
  · rw [List.drop_tail, List.append_assoc, List.take_append_drop]

/-- A frame settles a parser that waits for data. -/
theorem data_settles (hd : p.Drained) (hs : p.state ≠ .scan) (hc : p.controller = c)
    (hfits : match p.state with
      | .scan => True
      | .ssd1306Data _ => c = .ssd1306
      | .sh1106PageData _ _ => c = .sh1106) (hf : Plain c f) :
    ∃ os q, Emits reader (p.extend (frame c f)) os q ∧ Settled q ∧ q.controller = c := by
  obtain ⟨t, rest, hframe, -⟩ := frame_headed c f
  rcases hd.data hs with hp | ⟨data, hp, hlt⟩
  · -- the data did not even begin
    have hbyte : (p.extend (frame c f)).pending = 0x00 :: t :: rest := by
      rw [extend_pending, hp, hframe]
      rfl
    have habandon := abandon_step (p := p.extend (frame c f)) hs hbyte (by decide)
    obtain ⟨os, q, hemits, hsettled⟩ := frame_settles (c := c) (f := f)
      (q := { p.extend (frame c f) with state := .scan }) rfl hc
      (by show p.pending ++ _ = _; rw [hp]; rfl)
    exact ⟨_, q, .cons habandon hemits, hsettled⟩
  · cases hstate : p.state with
    | scan => exact absurd hstate hs
    | ssd1306Data w =>
      rw [hstate] at hlt hfits
      dsimp only at hlt hfits
      subst hfits
      have hlen : w.width * w.pages ≤ (frame .ssd1306 f).length := by
        have hsize := size_le w
        rw [frame, List.length_append, f.length_toList]
        omega
      obtain ⟨n, -, hdata, hstream⟩ := swallowed hlt hlen
      have hwindow := window_step (p := p.extend (frame .ssd1306 f)) hstate
        (by rw [extend_pending, hp, List.cons_append, hstream]; rfl) hdata
      refine ⟨_, _, .single hwindow, ⟨rfl, ?_, fun h => ?_⟩, hc⟩
      · show Unmarked p.controller _
        rw [hc]
        exact (tail_unmarked hf).suffix (List.drop_suffix n _)
      · rw [show p.controller = .sh1106 from h] at hc
        cases hc
    | sh1106PageData page span =>
      rw [hstate] at hlt hfits
      dsimp only at hlt hfits
      subst hfits
      have hwidth : span.width ≤ displayWidth := by
        have := span.x_fits
        omega
      have hfirst : frame .sh1106 f = pageMessage f 0 ++ pagesFrom f 1 :=
        pagesFrom_eq f (Nat.succ_pos 7)
      have hlen : (pageMessage f 0).length = 5 + displayWidth := by
        rw [pageMessage, List.length_append, length_row f (by omega)]
        rfl
      have henough : span.width ≤ (frame .sh1106 f).length := by
        rw [hfirst, List.length_append]
        omega
      obtain ⟨n, hn, hdata, hstream⟩ := swallowed hlt henough
      have hspan := span_step (p := p.extend (frame .sh1106 f)) hstate
        (by rw [extend_pending, hp, List.cons_append, hstream]; rfl) hdata
      obtain ⟨hqc, hqs, hqp, -⟩ := paint_eq (p.extend (frame .sh1106 f)) page span
        (data ++ (frame .sh1106 f).take (n + 1)) ((frame .sh1106 f).tail.drop n)
      generalize paint (p.extend (frame .sh1106 f)) page span
        (data ++ (frame .sh1106 f).take (n + 1)) ((frame .sh1106 f).tail.drop n) = q at *
      have hqc : q.controller = .sh1106 := hqc.trans hc
      have hrest : (frame .sh1106 f).tail.drop n =
          (pageMessage f 0).tail.drop n ++ pagesFrom f 1 := by
        rw [hfirst, List.tail_append_of_ne_nil (List.ne_nil_of_length_pos (by omega)),
          List.drop_append_of_le_length (by rw [List.length_tail]; omega)]
      have hheaded : Headed .sh1106 (pagesFrom f 1) := by
        rw [pagesFrom_eq f (by omega)]
        exact ⟨_, _, rfl, by decide⟩
      obtain ⟨os, hskipped, -⟩ := unmarked_skipped hqs
        (by rw [hqc]; exact (row_unmarked hf (by omega)).suffix (List.drop_suffix n _))
        (hqp.trans hrest) (by rw [hqc]; exact hheaded)
      have hpages : ({ q with pending := pagesFrom f 1 } : DisplayParser).pending =
          pagesFrom f 1 ++ [] := (List.append_nil _).symm
      obtain ⟨os', q', hemits, hs', hc', hp', hlast⟩ :=
        pages_emits (q := { q with pending := pagesFrom f 1 }) (by omega) hqs hqc hpages
      refine ⟨_, q', .cons hspan (hskipped.trans hemits), ⟨hs', ?_, fun _ => ?_⟩, hc'⟩
      · rw [hp']
        exact .nil
      · exact hlast (.inl (by omega))

/-! ## The second frame -/

/-- Somewhere in the pages of a frame, with the tracker and the framebuffer to show for it. -/
structure Midway (f : Framebuffer) (page : ℕ) (q : DisplayParser) : Prop where
  state : q.state = .scan
  controller : q.controller = .sh1106
  pending : q.pending = pagesFrom f page
  last : ∀ last, q.sh1106LastPageCommand = some last → last.toNat < page
  started : 0 < page → q.sh1106FrameStarted = true
  pages : 0 < page → q.sh1106Pages = .ofNat (2 ^ page - 1)
  drawn : ∀ i (hi : i < framebufferSize), i / displayWidth < page → q.framebuffer[i] = f[i]

namespace Midway

variable {page : ℕ}

/-- The pages and the framebuffer behind the next page. -/
theorem next (h : Midway f page q) (hpage : page < 8) :
    let r := q.select (pageAt page hpage) .full (0x40 :: f.row page ++ pagesFrom f (page + 1))
    Emits reader q [(.none, q.framebuffer), (r.pageUpdate (pageAt page hpage) .full,
        q.framebuffer.draw (Span.full.window (pageAt page hpage)) (f.row page))]
        (r.paint (pageAt page hpage) .full (f.row page) (pagesFrom f (page + 1))) ∧
      r.sh1106FrameStarted = true ∧
      r.stored (pageAt page hpage) .full = .ofNat (2 ^ (page + 1) - 1) := by
  intro r
  have hpending := h.pending
  rw [pagesFrom_eq f hpage, pageMessage_eq f hpage, List.append_assoc] at hpending
  refine ⟨selected_emits h.state h.controller (.legacy _) hpending (length_row f hpage) ?_, ?_, ?_⟩
  · rw [Option.any_eq_true]
    rintro ⟨last, hlast, hlt⟩
    have hbelow := h.last last hlast
    have hlt : (pageAt page hpage).val.toNat < last.toNat := of_decide_eq_true hlt
    rw [pageAt_toNat] at hlt
    omega
  · show (if _ then true else q.sh1106FrameStarted) = true
    split_ifs with h0
    · rfl
    · refine h.started (Nat.pos_of_ne_zero fun hz => h0 ?_)
      subst hz
      rfl
  · have hbits : ∀ n < 8, (UInt8.ofNat (2 ^ n - 1) ||| 1 <<< UInt8.ofNat n) =
        UInt8.ofNat (2 ^ (n + 1) - 1) := by decide
    have hselected : r.sh1106Pages = .ofNat (2 ^ page - 1) := by
      show (if (pageAt page hpage).val = 0 then (0 : UInt8) else q.sh1106Pages) = _
      split_ifs with h0
      · have hzero := congrArg UInt8.toNat h0
        rw [pageAt_toNat] at hzero
        subst hzero
        rfl
      · refine h.pages (Nat.pos_of_ne_zero fun hz => h0 ?_)
        subst hz
        rfl
    rw [stored, if_pos ⟨rfl, rfl⟩, hselected]
    exact hbits page hpage

theorem draws (h : Midway f page q) (hpage : page < 8) {i : ℕ} (hi : i < framebufferSize)
    (hle : i / displayWidth < page + 1) :
    (q.framebuffer.draw (Span.full.window (pageAt page hpage)) (f.row page))[i] = f[i] := by
  rw [draw_row f _ hpage hi]
  split_ifs with hhere
  · rfl
  · exact h.drawn i hi (by omega)

/-- The pages up to the last one, which present nothing. -/
theorem emits (h : Midway f 0 q) (hpage : page < 8) :
    ∃ os q', Emits reader q os q' ∧ Quiet os ∧ Midway f page q' := by
  induction page with
  | zero => exact ⟨[], q, .nil q, ⟨rfl, rfl⟩, h⟩
  | succ page ih =>
    obtain ⟨os, q', hemits, hquiet, hmid⟩ := ih (by omega)
    have hlt : page < 8 := by omega
    obtain ⟨hnext, hstarted, hstored⟩ := hmid.next hlt
    have hnot : ¬ (pageAt page hlt).val = 7 := by
      intro heq
      have := congrArg UInt8.toNat heq
      rw [pageAt_toNat] at this
      have : page = 7 := this
      omega
    rw [pageUpdate, if_neg hnot] at hnext
    refine ⟨_, _, hemits.trans hnext, hquiet.append ⟨rfl, rfl⟩, ?_⟩
    rw [paint, if_neg hnot]
    refine ⟨rfl, hmid.controller, rfl, ?_, fun _ => hstarted, fun _ => hstored, ?_⟩
    · intro last hlast
      obtain rfl := Option.some.inj hlast
      rw [pageAt_toNat]
      omega
    · intro i hi hle
      exact hmid.draws hlt hi hle

end Midway

/-- The parser is done with a frame, and has presented it once. -/
structure Presents (q : DisplayParser) (f : Framebuffer) (os : List Emission)
    (q' : DisplayParser) : Prop where
  emits : Emits reader q os q'
  state : q'.state = .scan
  pending : q'.pending = []
  framebuffer : q'.framebuffer = f
  completed : (total os).completedFrames = 1
  shown : snapshots os = [f]

theorem whole_presents (hs : q.state = .scan) (hc : q.controller = .ssd1306)
    (hp : q.pending = frame .ssd1306 f) : ∃ os q', Presents q f os q' := by
  have hwhole : q.pending = addressCommand .whole ++ (0x40 :: f.toList ++ []) := by
    rw [hp, List.append_nil]
    rfl
  have haddress := address_step hs hc hwhole
  have hwindow := window_step (p := { q with
    pending := 0x40 :: f.toList ++ [], state := .ssd1306Data .whole }) rfl rfl f.length_toList
  rw [draw_whole, if_pos (by decide)] at hwindow
  exact ⟨_, _, .cons haddress (.single hwindow), rfl, rfl, rfl, rfl, rfl⟩

theorem pages_present (h : Midway f 0 q) : ∃ os q', Presents q f os q' := by
  have hseven : 7 < 8 := by omega
  obtain ⟨os, r, hemits, hquiet, hmid⟩ := h.emits hseven
  obtain ⟨hnext, hstarted, hstored⟩ := hmid.next hseven
  have hdrawn : r.framebuffer.draw (Span.full.window (pageAt 7 hseven)) (f.row 7) = f := by
    refine Vector.ext fun i hi => hmid.draws hseven hi ?_
    have hlt : i < 1024 := hi
    simp only [displayWidth]
    omega
  have hpage : (pageAt 7 hseven).val = 7 := rfl
  rw [pageUpdate, if_pos hpage, if_pos ⟨hstarted, hstored⟩, hdrawn, paint, if_pos hpage] at hnext
  refine ⟨_, _, hemits.trans hnext, rfl, rfl, hdrawn, ?_, ?_⟩
  · rw [total_append, ParseUpdate.plus, hquiet.1]
    rfl
  · rw [snapshots_append, hquiet.2]
    rfl

/-- A settled parser draws a frame, and presents it once. -/
theorem Settled.presents (h : Settled q) (hc : q.controller = c) :
    ∃ os q', Presents (q.extend (frame c f)) f os q' := by
  subst hc
  obtain ⟨os, hskipped, hquiet⟩ := unmarked_skipped (p := q.extend (frame q.controller f))
    h.state h.unmarked (extend_pending q _) (frame_headed _ f)
  have hframe : ∃ os q', Presents { q with pending := frame q.controller f } f os q' := by
    rcases controller_cases q with hc | hc
    · exact whole_presents h.state hc (by rw [hc])
    · refine pages_present ⟨h.state, hc, by rw [hc]; rfl, ?_, ?_, ?_, ?_⟩
      · intro last hlast
        rw [show q.sh1106LastPageCommand = none from h.last hc] at hlast
        cases hlast
      · exact fun h => absurd h (Nat.lt_irrefl 0)
      · exact fun h => absurd h (Nat.lt_irrefl 0)
      · exact fun i _ h => absurd h (Nat.not_lt_zero _)
  obtain ⟨os', q', hpresents⟩ := hframe
  refine ⟨os ++ os', q', hskipped.trans hpresents.emits, hpresents.state, hpresents.pending,
    hpresents.framebuffer, ?_, ?_⟩
  · rw [total_append, ParseUpdate.plus, hquiet.1, hpresents.completed]
  · rw [snapshots_append, hquiet.2, hpresents.shown]
    rfl

end DisplayParser

namespace DisplayRuntime

open DisplayParser

variable {f : Framebuffer}

/-- A display that was fed anything is settled by a frame. -/
theorem frame_settles (c : DisplayController) (garbage : List (List UInt8)) (hf : Plain c f) :
    let r := garbage.foldl (fun r chunk => r.push chunk) (start c)
    Settled (r.push (frame c f)).parser ∧ (r.push (frame c f)).parser.controller = c := by
  intro r
  have hdrained : r.parser.Drained := pushes_drained (start c) (start_drained c) garbage
  obtain ⟨log, p, htraced, hr⟩ := pushes_traced (start c) garbage
  have haccounted : Accounted c garbage.flatten log p := .of_traced htraced
  have hparser : r.parser = p := congrArg parser hr
  have hsettles : ∃ os q, Emits reader (r.parser.extend (frame c f)) os q ∧ Settled q ∧
      q.controller = c := by
    by_cases hs : r.parser.state = .scan
    · exact scan_settles hdrained hs (hparser ▸ haccounted.controller) hf
    · refine data_settles hdrained hs (hparser ▸ haccounted.controller) ?_ hf
      have hawaits := haccounted.awaits
      rw [← hparser] at hawaits
      cases hstate : r.parser.state with
      | scan => trivial
      | ssd1306Data w => rw [hstate] at hawaits; exact hawaits.1
      | sh1106PageData page span => rw [hstate] at hawaits; exact hawaits.1
  obtain ⟨os, q, hemits, hsettled, hcontroller⟩ := hsettles
  obtain ⟨os', p', hreads, hpush⟩ := push_reads r (frame c f)
  obtain ⟨os'', -, hrest⟩ := hemits.remains hreads
  obtain ⟨hsettled', hcontroller'⟩ := hsettled.reads hrest
  rw [hpush]
  exact ⟨hsettled', hcontroller'.trans hcontroller⟩

/-- Whatever a display was fed before, two complete frames in any chunks leave it with the second
one, which is presented once and last. -/
theorem resynchronization (c : DisplayController) (garbage chunks : List (List UInt8))
    (f₁ f₂ : Framebuffer) (hf : Plain c f₁) (hchunks : chunks.flatten = frame c f₁ ++ frame c f₂) :
    let r := garbage.foldl (fun r chunk => r.push chunk) (start c)
    let r₁ := r.push (frame c f₁)
    let r₂ := chunks.foldl (fun r chunk => r.push chunk) r
    r₂.parser.state = .scan ∧ r₂.parser.pending = [] ∧ r₂.parser.framebuffer = f₂ ∧
      r₂.completedFrames = r₁.completedFrames + 1 ∧ r₂.renders = r₁.renders ++ [f₂] := by
  intro r r₁ r₂
  have hdrained : r.parser.Drained := pushes_drained (start c) (start_drained c) garbage
  obtain ⟨hsettled, hcontroller⟩ := frame_settles c garbage hf
  obtain ⟨os, q, hpresents⟩ := hsettled.presents (f := f₂) hcontroller
  have hwaits := emitStep_drained.mpr (drained_of_nil hpresents.state hpresents.pending)
  obtain ⟨os₁, p₁, hreads₁, hr₁⟩ := push_reads r (frame c f₁)
  obtain ⟨os₂, p₂, hreads₂, hr₂⟩ := pushes_reads r hdrained chunks
  have hr₁ : r₁ = r.after os₁ p₁ := hr₁
  have hr₂ : r₂ = r.after os₂ p₂ := hr₂
  have hp₁ : r₁.parser = p₁ := congrArg parser hr₁
  have hsecond : Reads reader (p₁.extend (frame c f₂)) (os ++ []) q := by
    rw [← hp₁]
    exact hpresents.emits.reads (.wait hwaits)
  have hall := hreads₁.append hsecond
  have hextend : reader.extend (r.parser.extend (frame c f₁)) (frame c f₂) =
      r.parser.extend chunks.flatten := by
    rw [hchunks]
    exact reader.extend_append _ _ _
  rw [hextend, List.append_nil] at hall
  obtain ⟨rfl, rfl⟩ := hreads₂.unique hall
  rw [hr₂, hr₁]
  refine ⟨hpresents.state, hpresents.pending, hpresents.framebuffer, ?_, ?_⟩
  · show _ + (total (os₁ ++ os)).completedFrames = _ + _ + 1
    rw [total_append, ParseUpdate.plus, hpresents.completed, Nat.add_assoc]
  · show _ ++ snapshots (os₁ ++ os) = _ ++ _ ++ _
    rw [snapshots_append, hpresents.shown, List.append_assoc]

/-- A lost SSD1306 command that two blank frames follow. -/
theorem resynchronization_blank :
    let blank : Framebuffer := Vector.replicate framebufferSize 0
    let r := [[0x00, 0x21, 0x05]].foldl (fun r chunk => r.push chunk) (start .ssd1306)
    let r₁ := r.push (frame .ssd1306 blank)
    let r₂ := [frame .ssd1306 blank ++ frame .ssd1306 blank].foldl
      (fun r chunk => r.push chunk) r
    r₂.parser.state = .scan ∧ r₂.parser.pending = [] ∧ r₂.parser.framebuffer = blank ∧
      r₂.completedFrames = r₁.completedFrames + 1 ∧ r₂.renders = r₁.renders ++ [blank] := by
  intro blank
  have hplain : Plain .ssd1306 blank := by
    have hrow : blank.toList = List.replicate framebufferSize 0 := Vector.toList_replicate
    show List.IsChain _ _
    rw [hrow]
    exact List.isChain_replicate_of_rel _ fun h => not_marks_zero .ssd1306 h.2
  exact resynchronization .ssd1306 [[0x00, 0x21, 0x05]]
    [frame .ssd1306 blank ++ frame .ssd1306 blank] blank blank hplain (List.append_nil _)

end DisplayRuntime

end BscTarget
