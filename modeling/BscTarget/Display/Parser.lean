import Mathlib.Data.List.Basic
import Mathlib.Data.Nat.Bitwise

/-!
# The display parser

`DisplayParser` of `display_protocol.rs`, which finds SSD1306 or SH1106 traffic in a byte stream
and draws it into a framebuffer, and the loop of `DisplayRuntime::push` that feeds it. A window
of the framebuffer carries the bounds under which the source slices it.
-/

namespace BscTarget

def displayWidth : ℕ := 128
def displayHeight : ℕ := 64
def framebufferSize : ℕ := displayWidth * displayHeight / 8

def ssd1306Init : List UInt8 :=
  [0x00, 0xae, 0xd5, 0x80, 0xa8, 0x3f, 0xd3, 0x00, 0x40, 0x8d, 0x14, 0x20, 0x00, 0xa1, 0xc8, 0xda,
    0x12, 0x81, 0xcf, 0xd9, 0xf1, 0xdb, 0x40, 0xa4, 0xa6, 0xaf]

def sh1106Init : List UInt8 :=
  [0x00, 0xae, 0x02, 0x10, 0x40, 0x81, 0xa0, 0xa1, 0xc8, 0xa6, 0xa8, 0x3f, 0xd3, 0x00, 0xd5, 0x80,
    0xd9, 0xf1, 0xda, 0x12, 0xdb, 0x40, 0x20, 0x02, 0xa4, 0xa6]

def sh1106DisplayOn : List UInt8 := [0x00, 0xaf]

inductive DisplayController
  | ssd1306
  | sh1106
  deriving DecidableEq

structure ParseUpdate where
  completedFrames : ℕ
  partialFrameBoundary : Bool
  discardedBytes : ℕ
  displayUpdates : ℕ
  deriving DecidableEq

/-- `ParseUpdate::default` -/
def ParseUpdate.none : ParseUpdate := ⟨0, false, 0, 0⟩

/-- Whether an update ends a `push`: a complete frame, or a boundary after a partial one. -/
def ParseUpdate.present (u : ParseUpdate) : Bool := 0 < u.completedFrames || u.partialFrameBoundary

/-! ## Framebuffer windows -/

abbrev Framebuffer := Vector UInt8 framebufferSize

/-- `copy_from_slice` of `source` to the cells from `target` on. -/
def Framebuffer.copy (f : Framebuffer) (target : ℕ) (source : List UInt8) : Framebuffer :=
  Vector.ofFn fun i =>
    if target ≤ i.val ∧ i.val < target + source.length then source.getD (i.val - target) 0
    else f[i.val]

/-- The rectangle of an SSD1306 address command. -/
structure Window where
  x : ℕ
  width : ℕ
  page : ℕ
  pages : ℕ
  width_pos : 0 < width
  x_fits : x + width ≤ displayWidth
  pages_pos : 0 < pages
  page_fits : page + pages ≤ displayHeight / 8
  deriving DecidableEq

/-- The part of a page that an SH1106 page command addresses. -/
structure Span where
  x : ℕ
  width : ℕ
  width_pos : 0 < width
  x_fits : x + width ≤ displayWidth
  deriving DecidableEq

/-- A page number of the SH1106. -/
abbrev Page := { page : UInt8 // page.toNat < displayHeight / 8 }

/-- Every slice of the framebuffer that a window is copied to lies within it. -/
theorem Window.slice_le (w : Window) {offset : ℕ} (h : offset < w.pages) :
    (w.page + offset) * displayWidth + w.x + w.width ≤ framebufferSize := by
  have hfits := w.x_fits
  have hpages := w.page_fits
  simp only [displayWidth, displayHeight, framebufferSize] at *
  omega

theorem Span.slice_le (span : Span) (page : Page) :
    page.val.toNat * displayWidth + span.x + span.width ≤ framebufferSize := by
  have hfits := span.x_fits
  have hpage := page.property
  simp only [displayWidth, displayHeight, framebufferSize] at *
  omega

/-! ## The parser -/

inductive ParseState
  | scan
  | ssd1306Data (w : Window)
  | sh1106PageData (page : Page) (span : Span)
  deriving DecidableEq

structure DisplayParser where
  controller : DisplayController
  pending : List UInt8
  state : ParseState
  framebuffer : Framebuffer
  sh1106Pages : UInt8
  sh1106FrameStarted : Bool
  sh1106LastPageCommand : Option UInt8
  deriving DecidableEq

/-- `DisplayParser::new` -/
def DisplayParser.new (controller : DisplayController) : DisplayParser where
  controller := controller
  pending := []
  state := .scan
  framebuffer := Vector.replicate framebufferSize 0
  sh1106Pages := 0
  sh1106FrameStarted := false
  sh1106LastPageCommand := none

/-- Whether a parser function made progress, its update and the parser behind it. -/
abbrev Progress := Bool × ParseUpdate × DisplayParser

def decodeColumn (low high : UInt8) : Option ℕ :=
  if low ≤ 0x0f ∧ 0x10 ≤ high ∧ high ≤ 0x1f then some (((high.toNat &&& 0x0f) <<< 4) ||| low.toNat)
  else none

/-- The window of the seven bytes of an address command. -/
def addressWindow (x endX mark page endPage : UInt8) : Option Window :=
  if h : mark = 0x22 ∧ x.toNat ≤ endX.toNat ∧ endX.toNat < displayWidth ∧
      page.toNat ≤ endPage.toNat ∧ endPage.toNat < displayHeight / 8 then
    some ⟨x.toNat, endX.toNat - x.toNat + 1, page.toNat, endPage.toNat - page.toNat + 1,
      Nat.succ_pos _, by omega, Nat.succ_pos _, by omega⟩
  else none

theorem displayWidth_pos : 0 < displayWidth := by decide

theorem displayWidth_fits : 0 + displayWidth ≤ displayWidth := (Nat.zero_add _).le

/-- The size of a page command and the columns it addresses. A legacy stream goes on with its
data, and is unambiguous for complete visible pages only. -/
def pageRange (endLow endHigh mark startHigh : UInt8) : Option (ℕ × Span) :=
  let endColumn := decodeColumn endLow endHigh
  if mark = 0x40 then
    (endColumn.filter (· = 2)).map fun _ =>
      (4, ⟨0, displayWidth, displayWidth_pos, displayWidth_fits⟩)
  else
    endColumn.bind fun e => (decodeColumn mark startHigh).bind fun s =>
      if h : 2 ≤ s ∧ s ≤ e ∧ e < displayWidth + 2 then
        some (6, ⟨s - 2, e - s + 1, Nat.succ_pos _, by omega⟩)
      else none

/-- `page_command & 7` -/
def pageOf (command : UInt8) : Page :=
  ⟨command &&& 7, by
    rw [UInt8.toNat_and]
    exact Nat.lt_of_le_of_lt Nat.and_le_right (by decide)⟩

namespace DisplayParser

/-- `self.pending[i]`, behind a test of the length. -/
def byte (p : DisplayParser) (i : ℕ) : UInt8 := p.pending.getD i 0

def consumePattern (pattern : List UInt8) (p : DisplayParser) : Bool × DisplayParser :=
  if p.pending.length < pattern.length ∨ ¬ pattern <+: p.pending then (false, p)
  else (true, { p with pending := p.pending.drop pattern.length })

/-- The SSD1306 part of `scan`; `none` falls through to the discarding of a byte. -/
def scanSsd1306 (update : ParseUpdate) (p : DisplayParser) : Option Progress :=
  if (p.consumePattern ssd1306Init).1 then some (true, update, (p.consumePattern ssd1306Init).2)
  else if [0x00, 0x21] <+: p.pending ∧ p.pending.length < 7 then some (false, update, p)
  else
    let window :=
      if [0x00, 0x21] <+: p.pending then
        addressWindow (p.byte 2) (p.byte 3) (p.byte 4) (p.byte 5) (p.byte 6)
      else none
    match window with
    | some w =>
      some (true, update, { p with pending := p.pending.drop 7, state := .ssd1306Data w })
    | none =>
      if p.pending <+: ssd1306Init ∨ p.pending <+: [0x00, 0x21] then some (false, update, p)
      else none

/-- A page command of the SH1106. A page before the last one ends a frame first. -/
def scanPageCommand (update : ParseUpdate) (p : DisplayParser) : Option Progress :=
  let page := pageOf (p.byte 1)
  if 4 ≤ p.pending.length ∧ (decodeColumn (p.byte 2) (p.byte 3)).isSome = true ∧
      p.sh1106LastPageCommand.any (page.val < ·) = true then
    some (false, { update with partialFrameBoundary := true },
      { p with sh1106Pages := 0, sh1106FrameStarted := false, sh1106LastPageCommand := none })
  else if p.pending.length < 5 then some (false, update, p)
  else if p.byte 4 ≠ 0x40 ∧ p.pending.length < 6 then some (false, update, p)
  else
    (pageRange (p.byte 2) (p.byte 3) (p.byte 4) (p.byte 5)).map fun (commandSize, span) =>
      (true, update, { p with
        pending := p.pending.drop commandSize
        sh1106Pages := if page.val = 0 then 0 else p.sh1106Pages
        sh1106FrameStarted := if page.val = 0 then true else p.sh1106FrameStarted
        sh1106LastPageCommand := some page.val
        state := .sh1106PageData page span })

/-- The SH1106 part of `scan`; `none` falls through to the discarding of a byte. -/
def scanSh1106 (update : ParseUpdate) (p : DisplayParser) : Option Progress :=
  if (p.consumePattern sh1106Init).1 then some (true, update, (p.consumePattern sh1106Init).2)
  else if (p.consumePattern sh1106DisplayOn).1 then
    some (true, update, (p.consumePattern sh1106DisplayOn).2)
  else if [0x00] <+: p.pending ∧ p.pending.length < 2 then some (false, update, p)
  else
    let command :=
      if [0x00] <+: p.pending ∧ 0xb0 ≤ p.byte 1 ∧ p.byte 1 ≤ 0xb7 then p.scanPageCommand update
      else none
    match command with
    | some r => some r
    | none =>
      if p.pending <+: sh1106Init ∨ p.pending <+: sh1106DisplayOn then some (false, update, p)
      else none

/-- A byte that no message begins with is dropped. -/
def discard (update : ParseUpdate) (p : DisplayParser) : Progress :=
  if p.pending = [] then (false, update, p)
  else (true, { update with discardedBytes := update.discardedBytes + 1 },
    { p with pending := p.pending.tail })

def scan (update : ParseUpdate) (p : DisplayParser) : Progress :=
  match p.controller with
  | .ssd1306 => (p.scanSsd1306 update).getD (p.discard update)
  | .sh1106 => (p.scanSh1106 update).getD (p.discard update)

def readSsd1306Data (w : Window) (update : ParseUpdate) (p : DisplayParser) : Progress :=
  let messageSize := w.width * w.pages + 1
  if p.pending = [] then (false, update, p)
  else if p.byte 0 ≠ 0x40 then (true, update, { p with state := .scan })
  else if p.pending.length < messageSize then (false, update, p)
  else
    let framebuffer := (List.range w.pages).foldl (fun f offset =>
      f.copy ((w.page + offset) * displayWidth + w.x)
        ((p.pending.drop (1 + offset * w.width)).take w.width)) p.framebuffer
    let p := { p with
      framebuffer := framebuffer, pending := p.pending.drop messageSize, state := .scan }
    let update := { update with displayUpdates := update.displayUpdates + 1 }
    if w.x = 0 ∧ w.width = displayWidth ∧ w.page = 0 ∧ w.pages = displayHeight / 8 then
      (true, { update with completedFrames := update.completedFrames + 1 }, p)
    else (true, { update with partialFrameBoundary := true }, p)

def readSh1106PageData (page : Page) (span : Span) (update : ParseUpdate) (p : DisplayParser) :
    Progress :=
  let messageSize := span.width + 1
  if p.pending = [] then (false, update, p)
  else if p.byte 0 ≠ 0x40 then (true, update, { p with state := .scan })
  else if p.pending.length < messageSize then (false, update, p)
  else
    let p := { p with
      framebuffer := p.framebuffer.copy (page.val.toNat * displayWidth + span.x)
        ((p.pending.drop 1).take span.width)
      pending := p.pending.drop messageSize, state := .scan
      sh1106Pages := if span.x = 0 ∧ span.width = displayWidth then
        p.sh1106Pages ||| (1 <<< page.val) else p.sh1106Pages }
    let update := { update with displayUpdates := update.displayUpdates + 1 }
    if page.val = 7 then
      let update :=
        if p.sh1106FrameStarted = true ∧ p.sh1106Pages = 0xff then
          { update with completedFrames := update.completedFrames + 1 }
        else { update with partialFrameBoundary := true }
      (true, update,
        { p with sh1106FrameStarted := false, sh1106Pages := 0, sh1106LastPageCommand := none })
    else (true, update, p)

/-- One turn of the loop in `push`. -/
def advance (update : ParseUpdate) (p : DisplayParser) : Progress :=
  match p.state with
  | .scan => p.scan update
  | .ssd1306Data w => p.readSsd1306Data w update
  | .sh1106PageData page span => p.readSh1106PageData page span update

def pushLoop : ℕ → ParseUpdate → DisplayParser → ParseUpdate × DisplayParser
  | 0, update, p => (update, p)
  | fuel + 1, update, p =>
    let (progressed, update, p) := p.advance update
    if update.present then (update, p)
    else if progressed then pushLoop fuel update p else (update, p)

def extend (p : DisplayParser) (input : List UInt8) : DisplayParser :=
  { p with pending := p.pending ++ input }

/-- Every turn of the loop that goes on makes this smaller (`size_lt`). -/
def size (p : DisplayParser) : ℕ :=
  3 * p.pending.length + (if p.state = .scan then 0 else 1) +
    (if p.sh1106LastPageCommand.isSome then 1 else 0)

def push (input : List UInt8) (p : DisplayParser) : ParseUpdate × DisplayParser :=
  pushLoop ((p.extend input).size + 1) .none (p.extend input)

end DisplayParser

/-! ## The runtime -/

/-- `DisplayRuntime` without its window, buttons and clock; `renders` are the snapshots that were
presented. -/
structure DisplayRuntime where
  parser : DisplayParser
  renders : List Framebuffer
  completedFrames : ℕ
  discardedBytes : ℕ
  displayUpdates : ℕ

namespace DisplayRuntime

def start (controller : DisplayController) : DisplayRuntime :=
  ⟨.new controller, [], 0, 0, 0⟩

/-- The counting and presenting of one update. -/
def absorb (r : DisplayRuntime) (update : ParseUpdate) (parser : DisplayParser) :
    DisplayRuntime where
  parser := parser
  renders := if update.present then r.renders ++ [parser.framebuffer] else r.renders
  completedFrames := r.completedFrames + update.completedFrames
  discardedBytes := r.discardedBytes + update.discardedBytes
  displayUpdates := r.displayUpdates + update.displayUpdates

/-- The parser is pushed again, with no input, for as long as there is something to present. -/
def pushLoop : ℕ → List UInt8 → DisplayRuntime → DisplayRuntime
  | 0, _, r => r
  | fuel + 1, input, r =>
    let (update, parser) := r.parser.push input
    let r := r.absorb update parser
    if update.present then pushLoop fuel [] r else r

def push (input : List UInt8) (r : DisplayRuntime) : DisplayRuntime :=
  pushLoop ((r.parser.extend input).size + 1) input r

end DisplayRuntime

end BscTarget
