import Mathlib.Data.List.Basic
import Mathlib.Data.Nat.Bitwise

/-!
# The BSC peripheral

The registers the driver uses and what stands behind them: a 16-byte receive FIFO, and a
transmit serializer fed by a 16-byte FIFO. A DR write fills an empty serializer and otherwise
the FIFO, a controller clock takes the serializer byte and pulls the next one, and an enable
transition of CR discards the serializer byte and pulls the next one; a plain disable clears
neither place.
-/

namespace BscTarget

/-! ## Register constants -/

def rsrOe : UInt32 := 0x1
def rsrUe : UInt32 := 0x2

def crEn : UInt32 := 0x1
def crI2c : UInt32 := 0x4
def crTxe : UInt32 := 0x100
def crRxe : UInt32 := 0x200
def crI2cTarget : UInt32 := crEn ||| crI2c ||| crTxe ||| crRxe

def frTxflevelMask : ℕ := 0x1f

def irqRx : UInt32 := 0x1
def irqTx : UInt32 := 0x2
def irqBreak : UInt32 := 0x4
def irqOe : UInt32 := 0x8
def irqBase : UInt32 := irqRx ||| irqBreak ||| irqOe
def irqAll : UInt32 := irqBase ||| irqTx

def iflsTxSevenEighths : UInt32 := 4
def iflsRxThreeQuarters : UInt32 := (3 : UInt32) <<< 3
def iflsDefault : UInt32 := iflsTxSevenEighths ||| iflsRxThreeQuarters

def bscFifoSize : ℕ := 16
def bscMaxTransfer : ℕ := 8192
def bscRxSlots : ℕ := 1024

/-! ## The transmit side -/

/-- The serializer and the FIFO that feeds it. -/
structure TxSide where
  serializer : Option UInt8
  fifo : List UInt8
  fifo_le : fifo.length ≤ bscFifoSize
  fed : serializer = none → fifo = []
  deriving DecidableEq

namespace TxSide

/-- Both places empty. -/
def empty : TxSide := ⟨none, [], by decide, fun _ => rfl⟩

/-- Every byte still to be clocked, the serializer byte first. -/
def held (t : TxSide) : List UInt8 := t.serializer.toList ++ t.fifo

/-- A DR write. The driver never writes to a full FIFO; the peripheral would drop the byte. -/
def push (t : TxSide) (byte : UInt8) : TxSide :=
  if hs : t.serializer = none then
    ⟨some byte, t.fifo, t.fifo_le, fun h => by cases h⟩
  else if hf : t.fifo.length < bscFifoSize then
    ⟨t.serializer, t.fifo ++ [byte], by simpa using Nat.succ_le_of_lt hf, fun h => absurd h hs⟩
  else t

/-- The serializer byte leaves and the next FIFO byte takes its place. -/
def shift (t : TxSide) : TxSide :=
  match h : t.fifo with
  | [] => empty
  | byte :: rest =>
    ⟨some byte, rest, by have := t.fifo_le; rw [h] at this; exact Nat.le_of_succ_le this,
      fun h => by cases h⟩

theorem held_eq_nil {t : TxSide} : t.held = [] ↔ t.serializer = none := by
  unfold held
  rcases h : t.serializer with _ | b
  · simp [t.fed h]
  · simp

theorem length_held_le (t : TxSide) : t.held.length ≤ t.fifo.length + 1 := by
  unfold held
  rcases t.serializer with _ | b <;> simp

theorem held_push {t : TxSide} (h : t.fifo.length < bscFifoSize) (byte : UInt8) :
    (t.push byte).held = t.held ++ [byte] := by
  unfold push
  split_ifs with hs
  · simp [held, hs, t.fed hs]
  · simp [held]

theorem held_shift (t : TxSide) : t.shift.held = t.held.tail := by
  unfold shift
  split
  · next h =>
    rcases hs : t.serializer with _ | b <;> simp [held, empty, h, hs]
  · next b r h =>
    rcases hs : t.serializer with _ | c
    · have := t.fed hs
      simp [h] at this
    · simp [held, h, hs]

theorem held_of_serializer {t : TxSide} {byte : UInt8} (h : t.serializer = some byte) :
    t.held = byte :: t.shift.held := by
  rw [held_shift]
  simp [held, h]

theorem length_fifo_shift_le (t : TxSide) : t.shift.fifo.length ≤ t.fifo.length := by
  unfold shift
  split
  · simp [empty]
  · next h => simp [h]

theorem length_held_some {t : TxSide} {byte : UInt8} (h : t.serializer = some byte) :
    t.held.length = t.fifo.length + 1 := by
  simp [held, h]

theorem length_fifo_shift (t : TxSide) : t.shift.fifo.length = t.fifo.length - 1 := by
  unfold shift
  split
  · next h => simp [empty, h]
  · next h => simp [h]

end TxSide

/-! ## The peripheral -/

/-- The bits of an FR snapshot that the driver looks at. -/
structure Fr where
  rxbusy : Bool
  rxfe : Bool
  txff : Bool
  txflevel : ℕ
  deriving DecidableEq

structure Hw where
  rxFifo : List UInt8
  rxBusy : Bool
  tx : TxSide
  rsr : UInt32
  slv : UInt32
  cr : UInt32
  ifls : UInt32
  imsc : UInt32
  /-- The level of the READY line: `true` while it is asserted. -/
  ready : Bool
  deriving DecidableEq

namespace Hw

/-- What a read of FR returns. -/
def fr (h : Hw) : Fr where
  rxbusy := h.rxBusy
  rxfe := h.rxFifo.isEmpty
  txff := h.tx.fifo.length == bscFifoSize
  txflevel := h.tx.fifo.length

/-- The peripheral out of reset. -/
def reset : Hw := ⟨[], false, .empty, 0, 0, 0, 0, 0, false⟩

/-- A write to CR: an enable transition discards the serializer byte. -/
def writeCr (h : Hw) (value : UInt32) : Hw :=
  if h.cr &&& crEn = 0 ∧ value &&& crEn ≠ 0 then { h with cr := value, tx := h.tx.shift }
  else { h with cr := value }

end Hw

/-- What the bus does while the driver runs: FR_RXBUSY changes, a received byte reaches the RX
FIFO, or the controller clocks a byte out. -/
inductive HwEvent
  | busy (on : Bool)
  | byte (b : UInt8)
  | clock
  deriving DecidableEq

end BscTarget
