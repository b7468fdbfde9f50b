import BscTarget.Display.Canvas
import BscTarget.Display.Commands
import BscTarget.Display.Fragment

/-!
# Moves

What a turn of the parser does, said once: it takes a segment off the stream, gives up a command
that no data follows, or ends a frame before a lower page. Every turn that goes on is one of these
moves (`advance_moves`), with its guard, its update and the parser behind it.
-/

namespace BscTarget

/-- A piece of the stream that the parser takes at once. -/
inductive Segment
  | pattern (bytes : List UInt8)
  | command (bytes : List UInt8) (w : Window)
  | payload (w : Window) (data : List UInt8)
  | discarded (byte : UInt8)

def Segment.bytes : Segment → List UInt8
  | .pattern bytes => bytes
  | .command bytes _ => bytes
  | .payload _ data => 0x40 :: data
  | .discarded byte => [byte]

inductive Move
  | take (segment : Segment)
  | abandon
  | boundary

def Move.bytes : Move → List UInt8
  | .take segment => segment.bytes
  | _ => []

/-- The sequences a controller accepts beside commands. -/
def patterns : DisplayController → List (List UInt8)
  | .ssd1306 => [ssd1306Init]
  | .sh1106 => [sh1106Init, sh1106DisplayOn]

/-- The bytes of a page command. -/
inductive PageCommand : List UInt8 → Page → Span → Prop
  | ranged (page : Page) (span : Span) : PageCommand (rangedCommand page span) page span
  | legacy (page : Page) : PageCommand (legacyCommand page) page .full

/-- The bytes that address a window. -/
inductive Addresses : DisplayController → List UInt8 → Window → Prop
  | address (w : Window) : Addresses .ssd1306 (addressCommand w) w
  | page {bytes : List UInt8} {page : Page} {span : Span} (h : PageCommand bytes page span) :
      Addresses .sh1106 bytes (span.window page)

/-! ## The updates -/

namespace ParseUpdate

def discarded : ParseUpdate := ⟨0, false, 1, 0⟩
def boundary : ParseUpdate := ⟨0, true, 0, 0⟩
/-- A payload in the midst of a frame. -/
def drawn : ParseUpdate := ⟨0, false, 0, 1⟩
def completed : ParseUpdate := ⟨1, false, 0, 1⟩
/-- A payload that ends a frame without completing it. -/
def ended : ParseUpdate := ⟨0, true, 0, 1⟩

end ParseUpdate

/-- The window that fills the display. -/
def Window.Full (w : Window) : Prop :=
  w.x = 0 ∧ w.width = displayWidth ∧ w.page = 0 ∧ w.pages = displayHeight / 8

instance (w : Window) : Decidable w.Full := inferInstanceAs (Decidable (_ ∧ _))

namespace DisplayParser

/-- The tracker of SH1106 pages as a new frame finds it. -/
def untracked (p : DisplayParser) : DisplayParser :=
  { p with sh1106Pages := 0, sh1106FrameStarted := false, sh1106LastPageCommand := none }

/-- An accepted page command. -/
def select (p : DisplayParser) (page : Page) (span : Span) (rest : List UInt8) : DisplayParser :=
  { p with
    pending := rest
    sh1106Pages := if page.val = 0 then 0 else p.sh1106Pages
    sh1106FrameStarted := if page.val = 0 then true else p.sh1106FrameStarted
    sh1106LastPageCommand := some page.val
    state := .sh1106PageData page span }

/-- The pages written once the payload of a page command is in. -/
def stored (p : DisplayParser) (page : Page) (span : Span) : UInt8 :=
  if span.x = 0 ∧ span.width = displayWidth then p.sh1106Pages ||| (1 <<< page.val)
  else p.sh1106Pages

/-- The update of a page payload. -/
def pageUpdate (p : DisplayParser) (page : Page) (span : Span) : ParseUpdate :=
  if page.val = 7 then
    if p.sh1106FrameStarted = true ∧ p.stored page span = 0xff then .completed else .ended
  else .drawn

/-- A page payload is drawn; page 7 ends the frame. -/
def paint (p : DisplayParser) (page : Page) (span : Span) (data rest : List UInt8) :
    DisplayParser :=
  let p := { p with
    framebuffer := p.framebuffer.draw (span.window page) data
    pending := rest, state := .scan, sh1106Pages := p.stored page span }
  if page.val = 7 then p.untracked else p

/-! ## The moves -/

inductive Moves : DisplayParser → Move → ParseUpdate → DisplayParser → Prop
  | pattern {p : DisplayParser} {bytes rest : List UInt8} (hs : p.state = .scan)
      (hb : bytes ∈ patterns p.controller) (hp : p.pending = bytes ++ rest) :
      Moves p (.take (.pattern bytes)) .none { p with pending := rest }
  | discard {p : DisplayParser} {byte : UInt8} {rest : List UInt8} (hs : p.state = .scan)
      (hp : p.pending = byte :: rest) :
      Moves p (.take (.discarded byte)) .discarded { p with pending := rest }
  | address {p : DisplayParser} {w : Window} {rest : List UInt8} (hs : p.state = .scan)
      (hc : p.controller = .ssd1306) (hp : p.pending = addressCommand w ++ rest) :
      Moves p (.take (.command (addressCommand w) w)) .none
        { p with pending := rest, state := .ssd1306Data w }
  | page {p : DisplayParser} {page : Page} {span : Span} {bytes rest : List UInt8}
      (hs : p.state = .scan) (hc : p.controller = .sh1106) (hb : PageCommand bytes page span)
      (hp : p.pending = bytes ++ rest) :
      Moves p (.take (.command bytes (span.window page))) .none (p.select page span rest)
  | boundary {p : DisplayParser} (hs : p.state = .scan) (hc : p.controller = .sh1106)
      (hl : p.sh1106LastPageCommand.isSome = true) : Moves p .boundary .boundary p.untracked
  | abandon {p : DisplayParser} {byte : UInt8} {rest : List UInt8} (hs : p.state ≠ .scan)
      (hp : p.pending = byte :: rest) (hb : byte ≠ 0x40) :
      Moves p .abandon .none { p with state := .scan }
  | window {p : DisplayParser} {w : Window} {data rest : List UInt8}
      (hs : p.state = .ssd1306Data w) (hp : p.pending = 0x40 :: data ++ rest)
      (hd : data.length = w.width * w.pages) :
      Moves p (.take (.payload w data)) (if w.Full then .completed else .ended)
        { p with framebuffer := p.framebuffer.draw w data, pending := rest, state := .scan }
  | span {p : DisplayParser} {page : Page} {span : Span} {data rest : List UInt8}
      (hs : p.state = .sh1106PageData page span) (hp : p.pending = 0x40 :: data ++ rest)
      (hd : data.length = span.width) :
      Moves p (.take (.payload (span.window page) data)) (p.pageUpdate page span)
        (p.paint page span data rest)

variable {p : DisplayParser}

/-- `r` is the result of a move. -/
def Moved (p : DisplayParser) (r : Progress) : Prop := ∃ m, Moves p m r.2.1 r.2.2

/-- A buffer, by its first `n` bytes. -/
theorem pending_split {pattern : List UInt8} (h : pattern <+: p.pending) :
    p.pending = pattern ++ p.pending.drop pattern.length := by
  obtain ⟨rest, hrest⟩ := h
  rw [← hrest, List.drop_left]

theorem byte_eq {bytes rest : List UInt8} (h : p.pending = bytes ++ rest) {i : ℕ}
    (hi : i < bytes.length) : p.byte i = bytes.getD i 0 := by
  rw [byte, h]
  exact List.getD_append _ _ _ _ hi

theorem pattern_moved {pattern : List UInt8} (hs : p.state = .scan)
    (hb : pattern ∈ patterns p.controller) (h : (p.consumePattern pattern).1 = true) :
    Moved p (true, .none, (p.consumePattern pattern).2) := by
  have hp := consumePattern_fst.mp h
  rw [consumePattern_of_begins hp]
  exact ⟨_, .pattern hs hb (pending_split hp)⟩

theorem discard_moved (hs : p.state = .scan) (h : Goes (p.discard .none)) :
    Moved p (p.discard .none) := by
  unfold discard at h ⊢
  split_ifs at h ⊢ with hp
  · exact absurd h (not_goes_wait p)
  · obtain ⟨byte, rest, hp⟩ := List.exists_cons_of_ne_nil hp
    rw [hp]
    exact ⟨_, .discard hs hp⟩

/-- A buffer of seven bytes or more. -/
theorem pending_seven (h : ¬ p.pending.length < 7) :
    ∃ b₀ b₁ b₂ b₃ b₄ b₅ b₆ rest, p.pending = [b₀, b₁, b₂, b₃, b₄, b₅, b₆] ++ rest := by
  match hp : p.pending with
  | b₀ :: b₁ :: b₂ :: b₃ :: b₄ :: b₅ :: b₆ :: rest =>
    exact ⟨b₀, b₁, b₂, b₃, b₄, b₅, b₆, rest, rfl⟩
  | [] | [_] | [_, _] | [_, _, _] | [_, _, _, _] | [_, _, _, _, _] | [_, _, _, _, _, _] =>
    rw [hp] at h
    simp at h

/-- What the SSD1306 part of `scan` decides. -/
theorem scanSsd1306_cases {r : Progress} (h : p.scanSsd1306 .none = some r) :
    ((p.consumePattern ssd1306Init).1 = true ∧
      r = (true, .none, (p.consumePattern ssd1306Init).2)) ∨
    (∃ w, [0x00, 0x21] <+: p.pending ∧ ¬ p.pending.length < 7 ∧
      addressWindow (p.byte 2) (p.byte 3) (p.byte 4) (p.byte 5) (p.byte 6) = some w ∧
      r = (true, .none, { p with pending := p.pending.drop 7, state := .ssd1306Data w })) ∨
    (([0x00, 0x21] <+: p.pending ∧ p.pending.length < 7 ∨
      p.pending <+: ssd1306Init ∧ ¬ ssd1306Init <+: p.pending) ∧ r = (false, .none, p)) := by
  unfold scanSsd1306 at h
  dsimp only at h
  by_cases hinit : (p.consumePattern ssd1306Init).1 = true
  · rw [if_pos hinit] at h
    exact .inl ⟨hinit, (Option.some.inj h).symm⟩
  rw [if_neg hinit] at h
  have hinit : ¬ ssd1306Init <+: p.pending := fun hp => hinit (consumePattern_fst.mpr hp)
  by_cases hshort : [0x00, 0x21] <+: p.pending ∧ p.pending.length < 7
  · rw [if_pos hshort] at h
    exact .inr (.inr ⟨.inl hshort, (Option.some.inj h).symm⟩)
  rw [if_neg hshort] at h
  have hwaits : (if p.pending <+: ssd1306Init ∨ p.pending <+: [0x00, 0x21] then
      some ((false, .none, p) : Progress) else none) = some r →
      p.pending <+: ssd1306Init ∧ r = (false, .none, p) := by
    intro h
    split_ifs at h with hwait
    refine ⟨hwait.elim id fun hmark => ?_, (Option.some.inj h).symm⟩
    rcases List.prefix_concat_iff.mp (show p.pending <+: [0x00] ++ [0x21] from hmark) with
      heq | hzero
    · exact absurd ⟨by rw [heq]; exact List.prefix_refl _, by rw [heq]; decide⟩ hshort
    · exact hzero.trans (by decide)
  by_cases haddr : [0x00, 0x21] <+: p.pending
  · rw [if_pos haddr] at h
    cases hw : addressWindow (p.byte 2) (p.byte 3) (p.byte 4) (p.byte 5) (p.byte 6) with
    | some w =>
      rw [hw] at h
      exact .inr (.inl ⟨w, haddr, fun hlt => hshort ⟨haddr, hlt⟩, rfl, (Option.some.inj h).symm⟩)
    | none =>
      rw [hw] at h
      obtain ⟨hwait, hr⟩ := hwaits h
      exact .inr (.inr ⟨.inr ⟨hwait, hinit⟩, hr⟩)
  · rw [if_neg haddr] at h
    obtain ⟨hwait, hr⟩ := hwaits h
    exact .inr (.inr ⟨.inr ⟨hwait, hinit⟩, hr⟩)

theorem scanSsd1306_moved (hs : p.state = .scan) (hc : p.controller = .ssd1306) {r : Progress}
    (h : p.scanSsd1306 .none = some r) (hg : Goes r) : Moved p r := by
  rcases scanSsd1306_cases h with ⟨hinit, rfl⟩ | ⟨w, haddr, hlen, hw, rfl⟩ | ⟨-, rfl⟩
  · exact pattern_moved hs (by rw [hc]; exact List.mem_singleton_self _) hinit
  · obtain ⟨b₀, b₁, b₂, b₃, b₄, b₅, b₆, rest, hp⟩ := pending_seven hlen
    have hb : b₀ = 0x00 ∧ b₁ = 0x21 := by
      rw [hp] at haddr
      simpa [eq_comm] using haddr
    obtain ⟨rfl, rfl⟩ := hb
    rw [byte_eq hp (by simp), byte_eq hp (by simp), byte_eq hp (by simp), byte_eq hp (by simp),
      byte_eq hp (by simp)] at hw
    have hcommand : p.pending = addressCommand w ++ rest := by
      rw [hp]
      exact congrArg (· ++ rest) (addressWindow_eq_some.mp hw)
    have hrest : p.pending.drop 7 = rest := by rw [hp]; rfl
    rw [hrest]
    exact ⟨_, .address hs hc hcommand⟩
  · exact absurd hg (not_goes_wait p)

/-- A buffer that a page command of `n` bytes begins. -/
theorem pending_page {n : ℕ} {page : Page} {span : Span} (h₀ : [0x00] <+: p.pending)
    (hlen : 5 ≤ p.pending.length) (hlen' : p.byte 4 = 0x40 ∨ 6 ≤ p.pending.length)
    (hpage : p.byte 1 = 0xb0 ||| page.val)
    (hrange : pageRange (p.byte 2) (p.byte 3) (p.byte 4) (p.byte 5) = some (n, span)) :
    ∃ bytes, PageCommand bytes page span ∧ p.pending = bytes ++ p.pending.drop n := by
  rcases pageRange_eq_some.mp hrange with ⟨hmark, rfl, rfl, hpair⟩ | ⟨rfl, hend, hstart⟩
  · refine ⟨_, .legacy page, ?_⟩
    rcases hp : p.pending with _ | ⟨b₀, _ | ⟨b₁, _ | ⟨b₂, _ | ⟨b₃, rest⟩⟩⟩⟩
    case cons.cons.cons.cons =>
      rw [hp] at h₀
      simp only [byte, hp, List.getD_cons_succ, List.getD_cons_zero, Prod.mk.injEq] at hpage hpair
      obtain rfl : b₀ = 0x00 := by simpa [eq_comm] using h₀
      rw [legacyCommand, hpage, hpair.1, hpair.2]
      rfl
    all_goals
      rw [hp] at hlen
      simp at hlen
  · have hsix : 6 ≤ p.pending.length := by
      refine hlen'.resolve_left fun hmark => ?_
      have hne : (pageRange (p.byte 2) (p.byte 3) 0x40 (p.byte 5)).map Prod.fst ≠ some 6 := by
        unfold pageRange
        cases decodeColumn (p.byte 2) (p.byte 3) with
        | none => simp
        | some c => simp [Option.filter_some]
      rw [← hmark, hrange] at hne
      exact hne rfl
    refine ⟨_, .ranged page span, ?_⟩
    rcases hp : p.pending with
      _ | ⟨b₀, _ | ⟨b₁, _ | ⟨b₂, _ | ⟨b₃, _ | ⟨b₄, _ | ⟨b₅, rest⟩⟩⟩⟩⟩⟩
    case cons.cons.cons.cons.cons.cons =>
      rw [hp] at h₀
      simp only [byte, hp, List.getD_cons_succ, List.getD_cons_zero] at hpage hend hstart
      obtain rfl : b₀ = 0x00 := by simpa [eq_comm] using h₀
      rw [rangedCommand, hpage, ← hend, ← hstart]
      rfl
    all_goals
      rw [hp] at hsix
      simp at hsix

/-- A page command turns back, waits for its rest, or is decided. -/
theorem scanPageCommand_cases (p : DisplayParser) :
    (p.sh1106LastPageCommand.isSome = true ∧
      p.scanPageCommand .none = some (false, .boundary, p.untracked)) ∨
    ((p.pending.length < 5 ∨ p.byte 4 ≠ 0x40 ∧ p.pending.length < 6) ∧
      p.scanPageCommand .none = some (false, .none, p)) ∨
    (5 ≤ p.pending.length ∧ (p.byte 4 = 0x40 ∨ 6 ≤ p.pending.length) ∧
      p.scanPageCommand .none = (pageRange (p.byte 2) (p.byte 3) (p.byte 4) (p.byte 5)).map
        fun r => (true, .none, p.select (pageOf (p.byte 1)) r.2 (p.pending.drop r.1))) := by
  unfold scanPageCommand
  dsimp only
  by_cases hlast : 4 ≤ p.pending.length ∧ (decodeColumn (p.byte 2) (p.byte 3)).isSome = true ∧
      p.sh1106LastPageCommand.any ((pageOf (p.byte 1)).val < ·) = true
  · rw [if_pos hlast]
    refine .inl ⟨?_, rfl⟩
    obtain ⟨-, -, hany⟩ := hlast
    cases hl : p.sh1106LastPageCommand with
    | none => rw [hl] at hany; cases hany
    | some _ => rfl
  rw [if_neg hlast]
  by_cases hfive : p.pending.length < 5
  · rw [if_pos hfive]
    exact .inr (.inl ⟨.inl hfive, rfl⟩)
  rw [if_neg hfive]
  by_cases hsix : p.byte 4 ≠ 0x40 ∧ p.pending.length < 6
  · rw [if_pos hsix]
    exact .inr (.inl ⟨.inr hsix, rfl⟩)
  rw [if_neg hsix]
  refine .inr (.inr ⟨by omega, ?_, rfl⟩)
  by_contra hnot
  rw [not_or] at hnot
  exact hsix ⟨hnot.1, by omega⟩

theorem scanPageCommand_moved (hs : p.state = .scan) (hc : p.controller = .sh1106)
    (h₀ : [0x00] <+: p.pending) (hb : 0xb0 ≤ p.byte 1 ∧ p.byte 1 ≤ 0xb7) {r : Progress}
    (h : p.scanPageCommand .none = some r) (hg : Goes r) : Moved p r := by
  rcases scanPageCommand_cases p with ⟨hlast, heq⟩ | ⟨-, heq⟩ | ⟨hfive, hsix, heq⟩
  · obtain rfl := Option.some.inj (heq.symm.trans h)
    exact ⟨_, .boundary hs hc hlast⟩
  · obtain rfl := Option.some.inj (heq.symm.trans h)
    exact absurd hg (not_goes_wait p)
  · obtain ⟨⟨n, span⟩, hrange, rfl⟩ := Option.map_eq_some_iff.mp (heq.symm.trans h)
    obtain ⟨bytes, hcommand, hp⟩ := pending_page h₀ hfive hsix (command_pageOf hb).symm hrange
    exact ⟨_, .page hs hc hcommand hp⟩

/-- What the SH1106 part of `scan` decides. -/
theorem scanSh1106_cases {r : Progress} (h : p.scanSh1106 .none = some r) :
    (∃ pattern ∈ patterns .sh1106, (p.consumePattern pattern).1 = true ∧
      r = (true, .none, (p.consumePattern pattern).2)) ∨
    ([0x00] <+: p.pending ∧ ¬ p.pending.length < 2 ∧ (0xb0 ≤ p.byte 1 ∧ p.byte 1 ≤ 0xb7) ∧
      p.scanPageCommand .none = some r) ∨
    ((∃ pattern ∈ patterns .sh1106, p.pending <+: pattern ∧ ¬ pattern <+: p.pending) ∧
      r = (false, .none, p)) := by
  unfold scanSh1106 at h
  dsimp only at h
  by_cases hinit : (p.consumePattern sh1106Init).1 = true
  · rw [if_pos hinit] at h
    exact .inl ⟨_, List.mem_cons_self, hinit, (Option.some.inj h).symm⟩
  rw [if_neg hinit] at h
  by_cases hon : (p.consumePattern sh1106DisplayOn).1 = true
  · rw [if_pos hon] at h
    exact .inl ⟨_, List.mem_cons_of_mem _ List.mem_cons_self, hon, (Option.some.inj h).symm⟩
  rw [if_neg hon] at h
  have hinit : ¬ sh1106Init <+: p.pending := fun hp => hinit (consumePattern_fst.mpr hp)
  have hon : ¬ sh1106DisplayOn <+: p.pending := fun hp => hon (consumePattern_fst.mpr hp)
  by_cases hshort : [0x00] <+: p.pending ∧ p.pending.length < 2
  · rw [if_pos hshort] at h
    have hzero : [0x00] = p.pending := hshort.1.eq_of_length_le (Nat.le_of_lt_succ hshort.2)
    exact .inr (.inr ⟨⟨_, List.mem_cons_self, hzero ▸ by decide, hinit⟩, (Option.some.inj h).symm⟩)
  rw [if_neg hshort] at h
  have hwaits : (if p.pending <+: sh1106Init ∨ p.pending <+: sh1106DisplayOn then
      some ((false, .none, p) : Progress) else none) = some r →
      (∃ pattern ∈ patterns .sh1106, p.pending <+: pattern ∧ ¬ pattern <+: p.pending) ∧
        r = (false, .none, p) := by
    intro h
    split_ifs at h with hwait
    refine ⟨?_, (Option.some.inj h).symm⟩
    rcases hwait with hwait | hwait
    · exact ⟨_, List.mem_cons_self, hwait, hinit⟩
    · exact ⟨_, List.mem_cons_of_mem _ List.mem_cons_self, hwait, hon⟩
  by_cases hpage : [0x00] <+: p.pending ∧ 0xb0 ≤ p.byte 1 ∧ p.byte 1 ≤ 0xb7
  · rw [if_pos hpage] at h
    cases hfound : p.scanPageCommand .none with
    | some r' =>
      rw [hfound] at h
      exact .inr (.inl ⟨hpage.1, fun hlt => hshort ⟨hpage.1, hlt⟩, hpage.2, h⟩)
    | none =>
      rw [hfound] at h
      exact .inr (.inr (hwaits h))
  · rw [if_neg hpage] at h
    exact .inr (.inr (hwaits h))

theorem scanSh1106_moved (hs : p.state = .scan) (hc : p.controller = .sh1106) {r : Progress}
    (h : p.scanSh1106 .none = some r) (hg : Goes r) : Moved p r := by
  rcases scanSh1106_cases h with ⟨pattern, hmem, htaken, rfl⟩ | ⟨h₀, -, hb, hfound⟩ | ⟨-, rfl⟩
  · exact pattern_moved hs (by rw [hc]; exact hmem) htaken
  · exact scanPageCommand_moved hs hc h₀ hb hfound hg
  · exact absurd hg (not_goes_wait p)

theorem scan_moved (hs : p.state = .scan) (hg : Goes (p.scan .none)) : Moved p (p.scan .none) := by
  have hfound : ∀ found : Option Progress, (∀ r, found = some r → Goes r → Moved p r) →
      Goes (found.getD (p.discard .none)) → Moved p (found.getD (p.discard .none)) := by
    intro found hmoved hgoes
    cases found with
    | some r => exact hmoved r rfl hgoes
    | none => exact discard_moved hs hgoes
  unfold scan at hg ⊢
  cases hc : p.controller with
  | ssd1306 =>
    rw [hc] at hg
    exact hfound _ (fun r hr => scanSsd1306_moved hs hc hr) hg
  | sh1106 =>
    rw [hc] at hg
    exact hfound _ (fun r hr => scanSh1106_moved hs hc hr) hg

/-! ## Data -/

/-- What may be pending where a payload of `size` bytes is due. -/
theorem message_cases (p : DisplayParser) (size : ℕ) :
    (p.pending = [] ∨ ∃ rest, p.pending = 0x40 :: rest ∧ rest.length < size) ∨
    (∃ byte rest, p.pending = byte :: rest ∧ byte ≠ 0x40) ∨
    ∃ data rest, p.pending = 0x40 :: data ++ rest ∧ data.length = size := by
  match hp : p.pending with
  | [] => exact .inl (.inl rfl)
  | byte :: rest =>
    by_cases hbyte : byte = 0x40
    · subst hbyte
      by_cases hlen : rest.length < size
      · exact .inl (.inr ⟨rest, rfl, hlen⟩)
      · refine .inr (.inr ⟨rest.take size, rest.drop size, ?_, List.length_take_of_le (by omega)⟩)
        rw [List.cons_append, List.take_append_drop]
    · exact .inr (.inl ⟨byte, rest, rfl, hbyte⟩)

theorem readSsd1306Data_wait {w : Window}
    (h : p.pending = [] ∨ ∃ rest, p.pending = 0x40 :: rest ∧ rest.length < w.width * w.pages) :
    p.readSsd1306Data w .none = (false, .none, p) := by
  unfold readSsd1306Data
  rcases h with h | ⟨rest, h, hlen⟩
  · exact if_pos h
  · dsimp only
    rw [if_neg (by simp [h]), if_neg (by simp [DisplayParser.byte, h]), if_pos (by simp [h, hlen])]

theorem readSsd1306Data_mark {w : Window} {byte : UInt8} {rest : List UInt8}
    (hp : p.pending = byte :: rest) (hb : byte ≠ 0x40) :
    p.readSsd1306Data w .none = (true, .none, { p with state := .scan }) := by
  unfold readSsd1306Data
  dsimp only
  rw [if_neg (by simp [hp]), if_pos (by simpa [DisplayParser.byte, hp] using hb)]

theorem readSsd1306Data_data {w : Window} {data rest : List UInt8}
    (hp : p.pending = 0x40 :: data ++ rest) (hd : data.length = w.width * w.pages) :
    p.readSsd1306Data w .none = (true, if w.Full then .completed else .ended,
      { p with framebuffer := p.framebuffer.draw w data, pending := rest, state := .scan }) := by
  have hdraw : (List.range w.pages).foldl (fun f offset =>
      f.copy ((w.page + offset) * displayWidth + w.x)
        ((p.pending.drop (1 + offset * w.width)).take w.width)) p.framebuffer =
      p.framebuffer.draw w data := by
    rw [← Framebuffer.foldl_copy hd]
    apply List.foldl_ext
    intro f offset hoffset
    have hrow := row_le (List.mem_range.mp hoffset)
    rw [hp, Nat.add_comm 1, List.cons_append, List.drop_succ_cons,
      List.drop_append_of_le_length (by omega),
      List.take_append_of_le_length (by rw [List.length_drop]; omega)]
  have hdrop : p.pending.drop (w.width * w.pages + 1) = rest := by
    rw [hp, List.cons_append, List.drop_succ_cons, ← hd, List.drop_left]
  unfold readSsd1306Data
  dsimp only
  rw [if_neg (by simp [hp]), if_neg (by simp [DisplayParser.byte, hp]),
    if_neg (by simp [hp, hd]), hdraw, hdrop]
  by_cases hfull : w.Full
  · rw [if_pos hfull, if_pos (show _ ∧ _ from hfull)]
    rfl
  · rw [if_neg hfull, if_neg (show ¬ (_ ∧ _) from hfull)]
    rfl

theorem readSh1106PageData_wait {page : Page} {span : Span}
    (h : p.pending = [] ∨ ∃ rest, p.pending = 0x40 :: rest ∧ rest.length < span.width) :
    p.readSh1106PageData page span .none = (false, .none, p) := by
  unfold readSh1106PageData
  rcases h with h | ⟨rest, h, hlen⟩
  · exact if_pos h
  · dsimp only
    rw [if_neg (by simp [h]), if_neg (by simp [DisplayParser.byte, h]), if_pos (by simp [h, hlen])]

theorem readSh1106PageData_mark {page : Page} {span : Span} {byte : UInt8} {rest : List UInt8}
    (hp : p.pending = byte :: rest) (hb : byte ≠ 0x40) :
    p.readSh1106PageData page span .none = (true, .none, { p with state := .scan }) := by
  unfold readSh1106PageData
  dsimp only
  rw [if_neg (by simp [hp]), if_pos (by simpa [DisplayParser.byte, hp] using hb)]

theorem readSh1106PageData_data {page : Page} {span : Span} {data rest : List UInt8}
    (hp : p.pending = 0x40 :: data ++ rest) (hd : data.length = span.width) :
    p.readSh1106PageData page span .none =
      (true, p.pageUpdate page span, p.paint page span data rest) := by
  have htake : (p.pending.drop 1).take span.width = data := by
    rw [hp, List.cons_append, List.drop_succ_cons, List.drop_zero, ← hd, List.take_left]
  have hdrop : p.pending.drop (span.width + 1) = rest := by
    rw [hp, List.cons_append, List.drop_succ_cons, ← hd, List.drop_left]
  have hstored : (if span.x = 0 ∧ span.width = displayWidth then
      p.sh1106Pages ||| (1 <<< page.val) else p.sh1106Pages) = p.stored page span := rfl
  unfold readSh1106PageData pageUpdate paint
  dsimp only
  rw [if_neg (by simp [hp]), if_neg (by simp [DisplayParser.byte, hp]),
    if_neg (by simp [hp, hd]), htake, hdrop, Framebuffer.copy_row page span hd, hstored]
  by_cases hseven : page.val = 7
  · rw [if_pos hseven, if_pos hseven, if_pos hseven]
    by_cases hframe : p.sh1106FrameStarted = true ∧ p.stored page span = 0xff
    · rw [if_pos hframe, if_pos hframe]
      rfl
    · rw [if_neg hframe, if_neg hframe]
      rfl
  · rw [if_neg hseven, if_neg hseven, if_neg hseven]
    rfl

theorem readSsd1306Data_moved {w : Window} (hs : p.state = .ssd1306Data w)
    (hg : Goes (p.readSsd1306Data w .none)) : Moved p (p.readSsd1306Data w .none) := by
  have hscan : p.state ≠ .scan := by rw [hs]; exact fun h => by cases h
  rcases message_cases p (w.width * w.pages) with h | ⟨byte, rest, hp, hb⟩ | ⟨data, rest, hp, hd⟩
  · rw [readSsd1306Data_wait h] at hg
    exact absurd hg (not_goes_wait p)
  · rw [readSsd1306Data_mark hp hb]
    exact ⟨_, .abandon hscan hp hb⟩
  · rw [readSsd1306Data_data hp hd]
    exact ⟨_, .window hs hp hd⟩

theorem readSh1106PageData_moved {page : Page} {span : Span}
    (hs : p.state = .sh1106PageData page span) (hg : Goes (p.readSh1106PageData page span .none)) :
    Moved p (p.readSh1106PageData page span .none) := by
  have hscan : p.state ≠ .scan := by rw [hs]; exact fun h => by cases h
  rcases message_cases p span.width with h | ⟨byte, rest, hp, hb⟩ | ⟨data, rest, hp, hd⟩
  · rw [readSh1106PageData_wait h] at hg
    exact absurd hg (not_goes_wait p)
  · rw [readSh1106PageData_mark hp hb]
    exact ⟨_, .abandon hscan hp hb⟩
  · rw [readSh1106PageData_data hp hd]
    exact ⟨_, .span hs hp hd⟩

/-- Every turn that goes on is a move. -/
theorem advance_moved (hg : Goes (p.advance .none)) : Moved p (p.advance .none) := by
  unfold advance at hg ⊢
  cases hs : p.state with
  | scan =>
    rw [hs] at hg
    exact scan_moved hs hg
  | ssd1306Data w =>
    rw [hs] at hg
    exact readSsd1306Data_moved hs hg
  | sh1106PageData page span =>
    rw [hs] at hg
    exact readSh1106PageData_moved hs hg

theorem step_moves {p' : DisplayParser} {o : Emission} (h : reader.step p = some (p', o)) :
    ∃ m, Moves p m o.1 p' ∧ o.2 = p'.framebuffer := by
  by_cases hg : Goes (p.advance .none)
  · obtain ⟨m, hm⟩ := advance_moved hg
    rw [emitStep_goes hg] at h
    cases h
    exact ⟨m, hm, rfl⟩
  · rw [emitStep_drained.mpr hg] at h
    cases h

end DisplayParser

end BscTarget
