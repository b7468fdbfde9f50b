import BscTarget.Lib.Checked
import BscTarget.Display.Parser

/-!
# The display parser with its checks

`DisplayParser` once more, on plain numbers: no state carries a bound, and every index, range,
drain and sum of `display_protocol.rs` is one that panics where it leaves its bounds.
-/

namespace BscTarget.Raw

open Checked

/-- The largest `usize` of a 32-bit target; a wider one only fails later. -/
def usizeMax : ℕ := 2 ^ 32 - 1

inductive ParseState
  | scan
  | ssd1306Data (x width page pages : ℕ)
  | sh1106PageData (page : UInt8) (x width : ℕ)
  deriving DecidableEq

structure DisplayParser where
  controller : DisplayController
  pending : List UInt8
  state : ParseState
  framebuffer : Framebuffer
  sh1106Pages : UInt8
  sh1106FrameStarted : Bool
  sh1106LastPageCommand : Option UInt8
  deriving DecidableEq

/-- Whether a parser function made progress, its update and the parser behind it. -/
abbrev Progress := Bool × ParseUpdate × DisplayParser

/-- `framebuffer[target..stop].copy_from_slice(source)` -/
def copyFromSlice (f : Framebuffer) (target stop : ℕ) (source : List UInt8) :
    Except Panic Framebuffer :=
  if target ≤ stop ∧ stop ≤ framebufferSize then
    if source.length = stop - target then .ok (f.copy target source) else .error .length
  else .error .bounds

namespace DisplayParser

/-- `DisplayParser::new` -/
def new (controller : DisplayController) : DisplayParser where
  controller := controller
  pending := []
  state := .scan
  framebuffer := Vector.replicate framebufferSize 0
  sh1106Pages := 0
  sh1106FrameStarted := false
  sh1106LastPageCommand := none

def consumePattern (pattern : List UInt8) (p : DisplayParser) :
    Except Panic (Bool × DisplayParser) :=
  if p.pending.length < pattern.length ∨ ¬ pattern <+: p.pending then .ok (false, p)
  else do
    let pending ← drain p.pending pattern.length
    return (true, { p with pending := pending })

/-- The address command of `scan`; `none` falls through. -/
def scanAddress (update : ParseUpdate) (p : DisplayParser) : Except Panic (Option Progress) :=
  if [0x00, 0x21] <+: p.pending then
    if p.pending.length < 7 then .ok (some (false, update, p))
    else do
      let x := (← index p.pending 2).toNat
      let endX := (← index p.pending 3).toNat
      let page := (← index p.pending 5).toNat
      let endPage := (← index p.pending 6).toNat
      if (← index p.pending 4) = 0x22 ∧ x ≤ endX ∧ endX < displayWidth ∧ page ≤ endPage ∧
          endPage < displayHeight / 8 then
        let pending ← drain p.pending 7
        let width ← add usizeMax (← sub endX x) 1
        let pages ← add usizeMax (← sub endPage page) 1
        return some (true, update,
          { p with pending := pending, state := .ssd1306Data x width page pages })
      else return none
  else .ok none

/-- The columns of a legacy page command, which its data follows at once. -/
def legacyRange (endColumn : Option ℕ) : Option (ℕ × ℕ × ℕ) :=
  (endColumn.filter (· = 2)).map fun _ => (4, 0, displayWidth)

def columnRange (endColumn startColumn : Option ℕ) : Except Panic (Option (ℕ × ℕ × ℕ)) :=
  match endColumn, startColumn with
  | some e, some s =>
    if 2 ≤ s ∧ s ≤ e ∧ e < displayWidth + 2 then do
      let x ← sub s 2
      let width ← add usizeMax (← sub e s) 1
      return some (6, x, width)
    else .ok none
  | _, _ => .ok none

/-- `if let Some((command_size, x, width)) = range` -/
def selectPage (page : UInt8) (range : Option (ℕ × ℕ × ℕ)) (update : ParseUpdate)
    (p : DisplayParser) : Except Panic (Option Progress) :=
  match range with
  | none => .ok none
  | some (commandSize, x, width) => do
    let pending ← drain p.pending commandSize
    return some (true, update, { p with
      pending := pending
      sh1106Pages := if page = 0 then 0 else p.sh1106Pages
      sh1106FrameStarted := if page = 0 then true else p.sh1106FrameStarted
      sh1106LastPageCommand := some page
      state := .sh1106PageData page x width })

/-- Whether a page command turns back to a page before the last one. -/
def turnsBack (page : UInt8) (p : DisplayParser) : Except Panic Bool :=
  if 4 ≤ p.pending.length then do
    let endColumn := decodeColumn (← index p.pending 2) (← index p.pending 3)
    return endColumn.isSome && p.sh1106LastPageCommand.any (page < ·)
  else .ok false

/-- A page command whose page is `page`. -/
def scanPage (page : UInt8) (update : ParseUpdate) (p : DisplayParser) :
    Except Panic (Option Progress) := do
  if ← p.turnsBack page then
    return some (false, { update with partialFrameBoundary := true },
      { p with sh1106Pages := 0, sh1106FrameStarted := false, sh1106LastPageCommand := none })
  else if p.pending.length < 5 then return some (false, update, p)
  else
    let endColumn := decodeColumn (← index p.pending 2) (← index p.pending 3)
    if (← index p.pending 4) = 0x40 then p.selectPage page (legacyRange endColumn) update
    else if p.pending.length < 6 then return some (false, update, p)
    else
      let startColumn := decodeColumn (← index p.pending 4) (← index p.pending 5)
      p.selectPage page (← columnRange endColumn startColumn) update

/-- The page command of `scan`; `none` falls through. -/
def scanPageCommand (update : ParseUpdate) (p : DisplayParser) : Except Panic (Option Progress) :=
  if [0x00] <+: p.pending then
    if p.pending.length < 2 then .ok (some (false, update, p))
    else do
      let pageCommand ← index p.pending 1
      if 0xb0 ≤ pageCommand ∧ pageCommand ≤ 0xb7 then p.scanPage (pageCommand &&& 7) update
      else return none
  else .ok none

def discard (update : ParseUpdate) (p : DisplayParser) : Except Panic Progress :=
  if p.pending = [] then .ok (false, update, p)
  else do
    let pending ← removeFirst p.pending
    return (true, { update with discardedBytes := update.discardedBytes + 1 },
      { p with pending := pending })

/-- What follows the commands of `scan`: bytes that may begin a pattern wait. -/
def scanRest (beginnings : List (List UInt8)) (update : ParseUpdate) (p : DisplayParser) :
    Except Panic Progress :=
  if ∃ pattern ∈ beginnings, p.pending <+: pattern then .ok (false, update, p)
  else p.discard update

def scan (update : ParseUpdate) (p : DisplayParser) : Except Panic Progress :=
  match p.controller with
  | .ssd1306 => do
    let (consumed, q) ← p.consumePattern ssd1306Init
    if consumed then return (true, update, q)
    else match ← p.scanAddress update with
      | some r => return r
      | none => p.scanRest [ssd1306Init, [0x00, 0x21]] update
  | .sh1106 => do
    let (consumed, q) ← p.consumePattern sh1106Init
    if consumed then return (true, update, q)
    else
      let (consumed, q) ← p.consumePattern sh1106DisplayOn
      if consumed then return (true, update, q)
      else match ← p.scanPageCommand update with
        | some r => return r
        | none => p.scanRest [sh1106Init, sh1106DisplayOn] update

/-- One round of the copying loop. -/
def copyRow (x width page : ℕ) (pending : List UInt8) (f : Framebuffer) (offset : ℕ) :
    Except Panic Framebuffer := do
  let target ← add usizeMax (← mul usizeMax (← add usizeMax page offset) displayWidth) x
  let source ← add usizeMax 1 (← mul usizeMax offset width)
  let row ← slice pending source (← add usizeMax source width)
  copyFromSlice f target (← add usizeMax target width) row

def readSsd1306Data (x width page pages : ℕ) (update : ParseUpdate) (p : DisplayParser) :
    Except Panic Progress := do
  let messageSize ← add usizeMax (← mul usizeMax width pages) 1
  if p.pending = [] then return (false, update, p)
  else if (← index p.pending 0) ≠ 0x40 then return (true, update, { p with state := .scan })
  else if p.pending.length < messageSize then return (false, update, p)
  else
    let framebuffer ← (List.range pages).foldlM (copyRow x width page p.pending) p.framebuffer
    let pending ← drain p.pending messageSize
    let p := { p with framebuffer := framebuffer, pending := pending, state := .scan }
    let update := { update with displayUpdates := update.displayUpdates + 1 }
    if x = 0 ∧ width = displayWidth ∧ page = 0 ∧ pages = displayHeight / 8 then
      return (true, { update with completedFrames := update.completedFrames + 1 }, p)
    else return (true, { update with partialFrameBoundary := true }, p)

/-- The pages drawn whole, with this one if it was. -/
def pagesDrawn (page : UInt8) (x width : ℕ) (p : DisplayParser) : Except Panic UInt8 :=
  if x = 0 ∧ width = displayWidth then do
    let drawn ← bit page
    return p.sh1106Pages ||| drawn
  else .ok p.sh1106Pages

/-- The bookkeeping of a page. -/
def pageDrawn (page : UInt8) (x width : ℕ) (update : ParseUpdate) (p : DisplayParser) :
    Except Panic Progress := do
  let pages ← p.pagesDrawn page x width
  if page = 7 then
    let update :=
      if p.sh1106FrameStarted = true ∧ pages = 0xff then
        { update with completedFrames := update.completedFrames + 1 }
      else { update with partialFrameBoundary := true }
    return (true, update,
      { p with sh1106FrameStarted := false, sh1106Pages := 0, sh1106LastPageCommand := none })
  else return (true, update, { p with sh1106Pages := pages })

def readSh1106PageData (page : UInt8) (x width : ℕ) (update : ParseUpdate) (p : DisplayParser) :
    Except Panic Progress := do
  let messageSize ← add usizeMax width 1
  if p.pending = [] then return (false, update, p)
  else if (← index p.pending 0) ≠ 0x40 then return (true, update, { p with state := .scan })
  else if p.pending.length < messageSize then return (false, update, p)
  else
    let start ← add usizeMax (← mul usizeMax page.toNat displayWidth) x
    let stop ← add usizeMax start width
    let framebuffer ← copyFromSlice p.framebuffer start stop (← slice p.pending 1 messageSize)
    let pending ← drain p.pending messageSize
    pageDrawn page x width { update with displayUpdates := update.displayUpdates + 1 }
      { p with framebuffer := framebuffer, pending := pending, state := .scan }

/-- One turn of the loop in `push`. -/
def advance (update : ParseUpdate) (p : DisplayParser) : Except Panic Progress :=
  match p.state with
  | .scan => p.scan update
  | .ssd1306Data x width page pages => p.readSsd1306Data x width page pages update
  | .sh1106PageData page x width => p.readSh1106PageData page x width update

def pushLoop : ℕ → ParseUpdate → DisplayParser → Except Panic (ParseUpdate × DisplayParser)
  | 0, _, _ => .error .endless
  | fuel + 1, update, p => do
    let (progressed, update, p) ← p.advance update
    if update.present then return (update, p)
    else if progressed then pushLoop fuel update p else return (update, p)

def extend (p : DisplayParser) (input : List UInt8) : DisplayParser :=
  { p with pending := p.pending ++ input }

/-- A byte is dropped, or a command before it, or a frame is given up: three turns a byte and
two more are enough. -/
def push (input : List UInt8) (p : DisplayParser) : Except Panic (ParseUpdate × DisplayParser) :=
  pushLoop (3 * (p.extend input).pending.length + 3) .none (p.extend input)

end DisplayParser

end BscTarget.Raw
