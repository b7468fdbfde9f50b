import Mathlib.Data.List.Basic

/-!
# Mouse and buttons

The third of the window that the mouse is held in decides which of two open-drain outputs are
driven. `ButtonOutputs` is `GpioButtonOutputs` with the values last written to its lines, which are
those of the state it remembers (`ButtonOutputs.Driven`).
-/

namespace BscTarget

structure ButtonState where
  left : Bool
  right : Bool
  deriving DecidableEq

/-- `ButtonState::default()` -/
def ButtonState.released : ButtonState := ⟨false, false⟩

/-- `mouse_buttons_for_x`, with the product as a release build makes it. -/
def mouseButtonsForX (x width : Int32) : ButtonState :=
  if x < width / 3 then ⟨true, false⟩
  else if width * 2 / 3 ≤ x then ⟨false, true⟩
  else ⟨true, true⟩

structure SdlInput where
  close : Bool
  buttons : ButtonState
  deriving DecidableEq

/-- What SDL has to tell: the types of the events in its queue, and where the mouse is. -/
structure Polled where
  events : List UInt32
  mouseMask : UInt32
  mouseX : Int32
  width : Int32

def sdlQuit : UInt32 := 0x100

/-- `SdlDisplay::poll_input` -/
def Polled.input (p : Polled) : SdlInput where
  close := p.events.any (· = sdlQuit)
  buttons := if p.mouseMask &&& 1 ≠ 0 then mouseButtonsForX p.mouseX p.width else .released

/-- The values of the two lines: a held button pulls its line low. -/
def ButtonState.bits (state : ButtonState) : UInt64 :=
  (!state.left).toUInt64 ||| ((!state.right).toUInt64 <<< 1)

structure ButtonOutputs where
  state : ButtonState
  lines : UInt64
  deriving DecidableEq

namespace ButtonOutputs

/-- The lines as `new` requests them. -/
def new : ButtonOutputs := ⟨.released, 3⟩

/-- `set`, and whether it succeeds; `fails` is the outcome of the ioctl, if there is one. -/
def set (state : ButtonState) (fails : Bool) (o : ButtonOutputs) : Bool × ButtonOutputs :=
  if state = o.state then (true, o)
  else if fails then (false, o)
  else (true, ⟨state, state.bits⟩)

/-- The lines are as the remembered state says. -/
def Driven (o : ButtonOutputs) : Prop := o.lines = o.state.bits

theorem driven_new : new.Driven := by
  show (3 : UInt64) = ButtonState.released.bits
  decide

theorem Driven.set {o : ButtonOutputs} (h : o.Driven) (state : ButtonState) (fails : Bool) :
    (o.set state fails).2.Driven := by
  unfold ButtonOutputs.set
  split_ifs
  · exact h
  · exact h
  · rfl

end ButtonOutputs

end BscTarget
