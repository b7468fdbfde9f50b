import BscTarget.Lib.Checked
import BscTarget.Driver.Device

/-!
# The driver on arrays of a fixed size

The functions of `bcm27xx_bsc_target.c` that access `rx_work`, `rx_slots`, `rx_read` or `tx_data`
once more, and those that call them. An access outside of its array fails, and so does a loop
that goes on when its fuel is used up.
-/

namespace BscTarget.Sanitized

open Checked

/-! ## Reception -/

def storeByte (byte : UInt8) (s : Sys) : Except Panic Sys :=
  if s.bsc.rxWorkLen < bscMaxTransfer then do
    let rxWork ← store bscMaxTransfer s.bsc.rxWork s.bsc.rxWorkLen byte
    return { s with
      bsc.rxWork := rxWork
      bsc.rxWorkLen := s.bsc.rxWorkLen + 1
      log := .drained byte :: s.log }
  else .ok { s with bsc.rxOverflowed := true, log := .drained byte :: s.log }

def drainByte (s : Sys) : Except Panic Sys :=
  let byte := s.hw.rxFifo.headD 0
  let s := { s with hw.rxFifo := s.hw.rxFifo.tail }
  let s := if s.bsc.rxWorkLen = 0 ∧ s.bsc.rxOverflowed = false then beginBurst s else s
  storeByte byte s

def drainLoop : ℕ → Sys → Except Panic Sys
  | 0, _ => .error .endless
  | fuel + 1, s =>
    let s := s.tick
    if s.hw.fr.rxfe then .ok s
    else do
      let s ← drainByte s.tick
      drainLoop fuel s

def bscDrainRxLocked (s : Sys) : Except Panic Sys := drainLoop (s.inbound + 1) s

/-- `slot = &bsc->rx_slots[bsc->rx_tail]` is filled from `rx_work`. -/
def publishRecord (s : Sys) : Except Panic Sys := do
  let slot ← fetch bscRxSlots s.bsc.rxSlots s.bsc.rxTail
  let data ← copy bscMaxTransfer slot.data bscMaxTransfer s.bsc.rxWork s.bsc.rxWorkLen
  let slot : BscRxSlot := ⟨s.bsc.rxWorkLen, data⟩
  let rxSlots ← store bscRxSlots s.bsc.rxSlots s.bsc.rxTail slot
  return { s with
    bsc.rxSlots := rxSlots
    bsc.rxTail := (s.bsc.rxTail + 1) % bscRxSlots
    bsc.rxCount := s.bsc.rxCount + 1
    bsc.stats.rxTransactions := s.bsc.stats.rxTransactions + 1
    bsc.stats.rxBytes := s.bsc.stats.rxBytes + s.bsc.rxWorkLen
    log := .finished (some slot.bytes) :: s.log }

/-- A burst is dropped or published. -/
def settleBurst (s : Sys) : Except Panic Sys :=
  if s.bsc.rxOverflowed then .ok (dropBurst s) else publishRecord (evictOldest s)

def finishBurst (s : Sys) : Except Panic Sys := do
  let s :=
    if s.bsc.readyGpio then bscAckRequestLocked { s with bsc.txLen := 0, bsc.txLoaded := 0 } else s
  let s ← settleBurst s
  return { s with bsc.rxWorkLen := 0, bsc.rxOverflowed := false }

def bscFinishRxLocked (s : Sys) : Except Panic Sys :=
  if s.bsc.rxWorkLen = 0 ∧ s.bsc.rxOverflowed = false then .ok s else finishBurst s

/-! ## Transmission -/

def loadByte (s : Sys) : Except Panic Sys := do
  let byte ← fetch bscMaxTransfer s.bsc.txData s.bsc.txLoaded
  let s := bscWrite .DR byte.toUInt32 s
  return { s with bsc.txLoaded := s.bsc.txLoaded + 1, log := .loaded byte :: s.log }

def refillLoop : ℕ → Sys → Except Panic Sys
  | 0, _ => .error .endless
  | fuel + 1, s =>
    if s.bsc.txQueued = true ∧ s.bsc.txLoaded < s.bsc.txLen then
      let s := s.tick
      if s.hw.fr.txff then .ok s
      else do
        let s ← loadByte s
        refillLoop fuel s
    else .ok s

def bscRefillTxLocked (s : Sys) : Except Panic Sys := do
  let s ← refillLoop (s.bsc.txLen - s.bsc.txLoaded + 1) s
  return bscSetInterruptsLocked s

/-! ## Service passes -/

/-- The end of a burst, where FR shows that reception is over. -/
def finishIdle (s : Sys) : Except Panic Sys :=
  if s.hw.fr.rxbusy = false ∧ s.hw.fr.rxfe = true then bscFinishRxLocked s else .ok s

def bscServiceLocked (s : Sys) : Except Panic Sys := do
  let s ← bscDrainRxLocked (readStatus s)
  let s ← finishIdle s.tick
  bscRefillTxLocked s

def bscRecoverResponseLocked (s : Sys) : Except Panic (Except Errno ℕ × Sys) := do
  let s ← bscServiceLocked s
  if s.bsc.readyGpio = false ∨ s.bsc.workerPending = false then return (.error .EPROTO, s)
  else
    let (stale, s) := workerStale s
    return if stale then (.error .EAGAIN, s) else (.ok 0, grantRecovery s)

/-- The response is copied from a buffer of its own size. -/
def queueData (data : Bytes) (s : Sys) : Except Panic Sys := do
  let txData ← load bscMaxTransfer s.bsc.txData data
  return { s with
    bsc.txData := txData, bsc.txLen := data.length, bsc.txLoaded := 0
    bsc.txQueued := true
    log := .published data s.hw.fr :: s.log }

/-- A response that is not stale goes out. -/
def publishData (data : Bytes) (s : Sys) : Except Panic Sys := do
  let s ← queueData data s
  let s ← bscRefillTxLocked s
  return announce s data.length

def bscPublishResponseLocked (data : Bytes) (s : Sys) :
    Except Panic (Except Errno ℕ × Sys) := do
  let s ← bscServiceLocked (s.note (.asked data))
  if s.bsc.readyGpio = false then return (.error .EOPNOTSUPP, s.note .refused)
  else if s.bsc.workerPending = false then return (.error .EPROTO, s.note .refused)
  else
    let (stale, s) := workerStale { s with bsc.workerPending := false }
    if stale then return (.ok data.length, discardData s)
    else
      let s ← publishData data s
      return (.ok data.length, s)

/-! ## Entry points -/

def bscIrq (mis : UInt32) (s : Sys) : Except Panic Sys :=
  let pending := mis &&& irqAll
  if pending = 0 ∨ s.bsc.active = false then .ok s
  else do
    let s ← bscServiceLocked { s with bsc.stats.interrupts := s.bsc.stats.interrupts + 1 }
    return bscWrite .ICR pending s

def bscTimer (s : Sys) : Except Panic Sys :=
  if s.bsc.dead = true ∨ s.bsc.active = false then .ok s
  else bscServiceLocked { s with bsc.stats.timerRuns := s.bsc.stats.timerRuns + 1 }

/-- The dequeue of `slot`, which `rx_head` names. -/
def dequeue (slot : BscRxSlot) (fault : Bool) (s : Sys) : Except Panic (Bytes × Sys) := do
  let rxRead ← copy bscMaxTransfer s.bsc.rxRead bscMaxTransfer slot.data slot.len
  let bytes ← read bscMaxTransfer rxRead slot.len
  return (bytes, { s with
    bsc.rxRead := rxRead
    bsc.rxHead := (s.bsc.rxHead + 1) % bscRxSlots
    bsc.rxCount := s.bsc.rxCount - 1
    bsc.workerGeneration := s.bsc.requestGeneration
    bsc.workerPending := true
    log := .took bytes fault :: s.log })

/-- `bsc_read_message` behind its test of `rx_count`. -/
def readHead (r : ReadArgs) (s : Sys) : Except Panic (ReadResult × Sys) := do
  let slot ← fetch bscRxSlots s.bsc.rxSlots s.bsc.rxHead
  if r.count < slot.len then return (.error .EMSGSIZE, s)
  else
    let (bytes, s) ← dequeue slot r.fault s
    if r.fault then return (.error .EFAULT, s) else return (.record bytes, s)

def bscReadMessage (r : ReadArgs) (s : Sys) : Except Panic (ReadResult × Sys) :=
  if r.lockInterrupted then .ok (.error .ERESTARTSYS, s)
  else if s.bsc.dead then .ok (.error .ENODEV, s)
  else if s.bsc.rxCount = 0 then
    .ok (if r.nonblock then (.error .EAGAIN, s)
      else if r.waitInterrupted then (.error .ERESTARTSYS, s) else (.asleep, s))
  else readHead r s

def bscQueueResponse (w : WriteArgs) (s : Sys) : Except Panic (Except Errno ℕ × Sys) :=
  if w.data.length = 0 ∨ bscMaxTransfer < w.data.length then .ok (.error .EMSGSIZE, s)
  else if w.fault then .ok (.error .EFAULT, s)
  else if w.interrupted then .ok (.error .ERESTARTSYS, s)
  else if s.bsc.dead = true ∨ s.bsc.active = false then .ok (.error .ENODEV, s)
  else bscPublishResponseLocked w.data s

def bscIoctlRecover (s : Sys) : Except Panic (Except Errno ℕ × Sys) :=
  if s.bsc.dead = true ∨ s.bsc.active = false then .ok (.error .ENODEV, s)
  else bscRecoverResponseLocked s

def exec (s : Sys) : Call → Except Panic Sys
  | .irq mis => bscIrq mis s
  | .timer => bscTimer s
  | .read r => do
    let (_, s) ← bscReadMessage r s
    return s
  | .write w => do
    let (_, s) ← bscQueueResponse w s
    return s
  | .recover => do
    let (_, s) ← bscIoctlRecover s
    return s
  | .bus e => .ok (s.bus e)

/-- Only a call accesses the arrays. -/
def step (d : Device) : Action → Except Panic Device
  | .call c => do
    let s ← exec d.sys c
    return { d with sys := s }
  | a => .ok (d.step a)

def run (d : Device) (actions : List Action) : Except Panic Device := actions.foldlM step d

end BscTarget.Sanitized
