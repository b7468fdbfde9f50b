import BscTarget.Lib.Memory
import BscTarget.Driver.Hardware

/-!
# Driver state and history

`Bsc` is `struct bsc_target` without its handles into the kernel. `Sys` puts it beside the
peripheral, together with what the bus is going to do before each coming register access (`env`)
and what has happened so far (`log`, newest event first). Nothing the driver computes depends on
the log.
-/

namespace BscTarget

/-- A received record or a response. -/
abbrev Bytes := List UInt8

/-- The source counts in `u64`; here the counts go on, and what is proved of them is to be read
modulo `2 ^ 64`. Nothing but the attribute reads them. -/
structure Stats where
  rxTransactions : ℕ
  rxBytes : ℕ
  rxOverruns : ℕ
  rxDropped : ℕ
  txTransactions : ℕ
  txBytes : ℕ
  txUnderruns : ℕ
  txDiscarded : ℕ
  interrupts : ℕ
  timerRuns : ℕ
  deriving DecidableEq

structure BscRxSlot where
  len : ℕ
  data : Mem UInt8

/-- The record stored in a slot. -/
def BscRxSlot.bytes (slot : BscRxSlot) : Bytes := slot.data.read slot.len

structure Bsc where
  address : UInt32
  /-- Whether the optional READY GPIO is configured. -/
  readyGpio : Bool
  dead : Bool
  active : Bool
  rxWork : Mem UInt8
  rxWorkLen : ℕ
  rxOverflowed : Bool
  /-- Counted as `Stats` counts. -/
  recoveries : ℕ
  rxSlots : Mem BscRxSlot
  rxRead : Mem UInt8
  rxHead : ℕ
  rxTail : ℕ
  rxCount : ℕ
  txData : Mem UInt8
  txLen : ℕ
  txLoaded : ℕ
  txQueued : Bool
  requestGeneration : UInt64
  workerGeneration : UInt64
  workerPending : Bool
  stats : Stats

/-- The structure as `devm_kzalloc` returns it, with the configuration of `bsc_probe`. -/
def Bsc.allocated (address : UInt32) (readyGpio : Bool) : Bsc where
  address := address
  readyGpio := readyGpio
  dead := false
  active := false
  rxWork := fun _ => 0
  rxWorkLen := 0
  rxOverflowed := false
  recoveries := 0
  rxSlots := fun _ => ⟨0, fun _ => 0⟩
  rxRead := fun _ => 0
  rxHead := 0
  rxTail := 0
  rxCount := 0
  txData := fun _ => 0
  txLen := 0
  txLoaded := 0
  txQueued := false
  requestGeneration := 0
  workerGeneration := 0
  workerPending := false
  stats := ⟨0, 0, 0, 0, 0, 0, 0, 0, 0, 0⟩

/-- The bytes of the burst being assembled. -/
def Bsc.workBytes (b : Bsc) : Bytes := b.rxWork.read b.rxWorkLen

/-- The response in the transmit buffer. -/
def Bsc.txBytes (b : Bsc) : Bytes := b.txData.read b.txLen

/-- One entry of the history. -/
inductive Event
  /-- FR_RXBUSY was set or cleared. -/
  | busy (on : Bool)
  /-- A received byte entered the RX FIFO. -/
  | arrived (b : UInt8)
  /-- A received byte found the RX FIFO full. -/
  | lost (b : UInt8)
  /-- The controller clocked a byte out of the serializer. -/
  | clocked (b : UInt8)
  /-- The controller clocked an empty serializer. -/
  | underrun
  /-- The first byte of a burst was drained. -/
  | began
  /-- READY mode dropped the queued request in favour of the one that began. -/
  | superseded
  /-- A byte was read from DR. -/
  | drained (b : UInt8)
  /-- The oldest record made room for a new one. -/
  | evicted
  /-- A burst ended: its record was published, or it was too long and dropped. -/
  | finished (record : Option Bytes)
  /-- A byte was written to DR. -/
  | loaded (b : UInt8)
  /-- The READY line was set. -/
  | ready (level : Bool)
  /-- The pulse of an acknowledgement is over. -/
  | acked
  /-- `read` dequeued a record, and the copy to the user's buffer failed or not. -/
  | took (record : Bytes) (fault : Bool)
  /-- `write` asked for a response to be published. -/
  | asked (data : Bytes)
  /-- The response was refused with an error. -/
  | refused
  /-- The response was consumed without publication. -/
  | discarded
  /-- The response was published on the evidence of this FR snapshot. -/
  | published (data : Bytes) (snapshot : Fr)
  /-- Recovery was granted on the evidence of this FR snapshot. -/
  | recovered (snapshot : Fr)
  deriving DecidableEq

structure Sys where
  bsc : Bsc
  hw : Hw
  env : List (List HwEvent)
  log : List Event

namespace Sys

def note (s : Sys) (e : Event) : Sys := { s with log := e :: s.log }

@[simp] theorem note_bsc (s : Sys) (e : Event) : (s.note e).bsc = s.bsc := rfl
@[simp] theorem note_hw (s : Sys) (e : Event) : (s.note e).hw = s.hw := rfl
@[simp] theorem note_env (s : Sys) (e : Event) : (s.note e).env = s.env := rfl
@[simp] theorem note_log (s : Sys) (e : Event) : (s.note e).log = e :: s.log := rfl

/-- One bus event. A byte that finds the RX FIFO full is lost and raises RSR_OE; clocking an
empty serializer raises RSR_UE. -/
def bus (s : Sys) : HwEvent → Sys
  | .busy on => { s with hw.rxBusy := on, log := .busy on :: s.log }
  | .byte b =>
    if s.hw.rxFifo.length < bscFifoSize then
      { s with hw.rxFifo := s.hw.rxFifo ++ [b], log := .arrived b :: s.log }
    else { s with hw.rsr := s.hw.rsr ||| rsrOe, log := .lost b :: s.log }
  | .clock =>
    match s.hw.tx.serializer with
    | some b => { s with hw.tx := s.hw.tx.shift, log := .clocked b :: s.log }
    | none => { s with hw.rsr := s.hw.rsr ||| rsrUe, log := .underrun :: s.log }

/-- What the bus does up to the next register access. -/
def tick (s : Sys) : Sys :=
  match s.env with
  | [] => s
  | batch :: rest => batch.foldl bus { s with env := rest }

end Sys

end BscTarget
