import BscTarget.Driver.State

/-!
# The driver's locked sections

The functions of `bcm27xx_bsc_target.c` that run under the spinlock, and the system calls around
them. A register read is a `tick`, after which the peripheral shows the value read; a register
write is `bscWrite`. Loops whose length the hardware decides run on fuel that suffices
(`bscDrainRxLocked_eq`, `bscRefillTxLocked_eq`).
-/

namespace BscTarget

/-- The registers the driver writes. -/
inductive Reg
  | DR | RSR | SLV | CR | IFLS | IMSC | ICR
  deriving DecidableEq

/-- The effect of a register write on the peripheral. -/
def Hw.write (h : Hw) (value : UInt32) : Reg → Hw
  | .DR => { h with tx := h.tx.push value.toUInt8 }
  | .RSR => { h with rsr := value }
  | .SLV => { h with slv := value }
  | .CR => h.writeCr value
  | .IFLS => { h with ifls := value }
  | .IMSC => { h with imsc := value }
  | .ICR => h

def bscWrite (reg : Reg) (value : UInt32) (s : Sys) : Sys :=
  let s := s.tick
  { s with hw := s.hw.write value reg }

def bscSetReady (ready : Bool) (s : Sys) : Sys :=
  if s.bsc.readyGpio then { s with hw.ready := ready, log := .ready ready :: s.log } else s

def bscSetInterruptsLocked (s : Sys) : Sys :=
  bscWrite .IMSC
    (if s.bsc.txQueued = true ∧ s.bsc.txLoaded < s.bsc.txLen then irqBase ||| irqTx else irqBase) s

/-! ## Configuration -/

/-- `while (count--)`: one enable transition each. -/
def purgeLoop : ℕ → Sys → Sys
  | 0, s => s
  | count + 1, s => purgeLoop count (bscWrite .CR 0 (bscWrite .CR (crEn ||| crTxe) s))

def bscPurgeTxFifoLocked (s : Sys) : Sys :=
  let s := s.tick
  let count := (s.hw.fr.txflevel &&& frTxflevelMask) + 1
  purgeLoop count (bscWrite .CR 0 s)

def bscConfigureLocked (s : Sys) : Sys :=
  let s := bscWrite .IMSC 0 s
  let s := bscPurgeTxFifoLocked s
  let s := bscWrite .RSR 0 s
  let s := bscWrite .SLV s.bsc.address s
  let s := bscWrite .IFLS iflsDefault s
  let s := bscWrite .ICR irqAll s
  let s := bscWrite .CR crI2cTarget s
  bscSetInterruptsLocked s

/-- The fields `bsc_reset_io_locked` clears. -/
def Bsc.resetIo (b : Bsc) : Bsc :=
  { b with
    rxWorkLen := 0, rxOverflowed := false, rxHead := 0, rxTail := 0, rxCount := 0
    txLen := 0, txLoaded := 0, txQueued := false
    requestGeneration := 0, workerGeneration := 0, workerPending := false }

def bscResetIoLocked (s : Sys) : Sys := bscSetReady false { s with bsc := s.bsc.resetIo }

def bscDisableLocked (s : Sys) : Sys :=
  let s := bscWrite .IMSC 0 s
  let s := bscWrite .CR 0 s
  let s := bscWrite .RSR 0 s
  let s := bscWrite .SLV 0 s
  bscResetIoLocked s

/-! ## Reception -/

/-- The first byte of a burst invalidates older work, also while its worker is executing. -/
def beginBurst (s : Sys) : Sys :=
  let s := { s with
    bsc.requestGeneration := s.bsc.requestGeneration + 1, bsc.txQueued := false,
    log := .began :: s.log }
  if s.bsc.readyGpio = true ∧ s.bsc.rxCount ≠ 0 then
    { s with
      bsc.stats.rxDropped := s.bsc.stats.rxDropped + s.bsc.rxCount
      bsc.rxHead := 0, bsc.rxTail := 0, bsc.rxCount := 0
      log := .superseded :: s.log }
  else s

/-- Room in `rx_work` takes the byte; without it the burst is marked as overflowed. -/
def storeByte (byte : UInt8) (s : Sys) : Sys :=
  if s.bsc.rxWorkLen < bscMaxTransfer then
    { s with
      bsc.rxWork := Function.update s.bsc.rxWork s.bsc.rxWorkLen byte
      bsc.rxWorkLen := s.bsc.rxWorkLen + 1
      log := .drained byte :: s.log }
  else { s with bsc.rxOverflowed := true, log := .drained byte :: s.log }

/-- The body of the drain loop behind the FR read: DR is read and the byte kept. -/
def drainByte (s : Sys) : Sys :=
  let byte := s.hw.rxFifo.headD 0
  let s := { s with hw.rxFifo := s.hw.rxFifo.tail }
  let s := if s.bsc.rxWorkLen = 0 ∧ s.bsc.rxOverflowed = false then beginBurst s else s
  storeByte byte s

def drainLoop : ℕ → Sys → Sys
  | 0, s => s
  | fuel + 1, s =>
    let s := s.tick
    if s.hw.fr.rxfe then s else drainLoop fuel (drainByte s.tick)

/-- The bytes that can still be drained: those in the RX FIFO and those the bus may yet send. -/
def Sys.inbound (s : Sys) : ℕ := s.hw.rxFifo.length + s.env.flatten.length

def bscDrainRxLocked (s : Sys) : Sys := drainLoop (s.inbound + 1) s

def bscAckRequestLocked (s : Sys) : Sys := (bscSetReady false (bscSetReady true s)).note .acked

/-- The oldest record makes room when the ring is full. -/
def evictOldest (s : Sys) : Sys :=
  if s.bsc.rxCount = bscRxSlots then
    { s with
      bsc.rxHead := (s.bsc.rxHead + 1) % bscRxSlots
      bsc.rxCount := s.bsc.rxCount - 1
      bsc.stats.rxDropped := s.bsc.stats.rxDropped + 1
      log := .evicted :: s.log }
  else s

/-- The slot a publication fills: its length and the bytes copied from `rx_work`. -/
def filledSlot (b : Bsc) : BscRxSlot :=
  ⟨b.rxWorkLen, (b.rxSlots b.rxTail).data.copy b.rxWork b.rxWorkLen⟩

def publishRecord (s : Sys) : Sys :=
  let slot := filledSlot s.bsc
  { s with
    bsc.rxSlots := Function.update s.bsc.rxSlots s.bsc.rxTail slot
    bsc.rxTail := (s.bsc.rxTail + 1) % bscRxSlots
    bsc.rxCount := s.bsc.rxCount + 1
    bsc.stats.rxTransactions := s.bsc.stats.rxTransactions + 1
    bsc.stats.rxBytes := s.bsc.stats.rxBytes + s.bsc.rxWorkLen
    log := .finished (some slot.bytes) :: s.log }

def dropBurst (s : Sys) : Sys :=
  { s with
    bsc.stats.rxOverruns := s.bsc.stats.rxOverruns + 1
    log := .finished none :: s.log }

/-- The end of a burst that has bytes. -/
def finishBurst (s : Sys) : Sys :=
  let s :=
    if s.bsc.readyGpio then bscAckRequestLocked { s with bsc.txLen := 0, bsc.txLoaded := 0 } else s
  let s := if s.bsc.rxOverflowed then dropBurst s else publishRecord (evictOldest s)
  { s with bsc.rxWorkLen := 0, bsc.rxOverflowed := false }

def bscFinishRxLocked (s : Sys) : Sys :=
  if s.bsc.rxWorkLen = 0 ∧ s.bsc.rxOverflowed = false then s else finishBurst s

/-! ## Transmission -/

/-- `bsc_write(bsc, DR, bsc->tx_data[bsc->tx_loaded++])` -/
def loadByte (s : Sys) : Sys :=
  let byte := s.bsc.txData s.bsc.txLoaded
  let s := bscWrite .DR byte.toUInt32 s
  { s with bsc.txLoaded := s.bsc.txLoaded + 1, log := .loaded byte :: s.log }

def refillLoop : ℕ → Sys → Sys
  | 0, s => s
  | fuel + 1, s =>
    if s.bsc.txQueued = true ∧ s.bsc.txLoaded < s.bsc.txLen then
      let s := s.tick
      if s.hw.fr.txff then s else refillLoop fuel (loadByte s)
    else s

def bscRefillTxLocked (s : Sys) : Sys :=
  bscSetInterruptsLocked (refillLoop (s.bsc.txLen - s.bsc.txLoaded) s)

/-! ## Service passes -/

/-- The counters that RSR feeds, for the value just read. -/
def countStatus (s : Sys) : Sys :=
  { s with
    bsc.stats.rxOverruns :=
      s.bsc.stats.rxOverruns + (if s.hw.rsr &&& rsrOe ≠ 0 then 1 else 0)
    bsc.stats.txUnderruns :=
      s.bsc.stats.txUnderruns + (if s.hw.rsr &&& rsrUe ≠ 0 then 1 else 0) }

/-- The first part of a pass: RSR is read, counted and cleared. -/
def readStatus (s : Sys) : Sys :=
  let s := s.tick
  let status := s.hw.rsr
  let s := countStatus s
  if status ≠ 0 then bscWrite .RSR 0 s else s

def bscServiceLocked (s : Sys) : Sys :=
  let s := bscDrainRxLocked (readStatus s)
  let s := s.tick
  let s := if s.hw.fr.rxbusy = false ∧ s.hw.fr.rxfe = true then bscFinishRxLocked s else s
  bscRefillTxLocked s

inductive Errno
  | EBUSY | ENODEV | EAGAIN | ERESTARTSYS | EMSGSIZE | EFAULT | EOPNOTSUPP | EPROTO
  deriving DecidableEq

/-- The ownership test of publication and recovery. FR is read only when the generations agree
and no burst is being assembled. -/
def workerStale (s : Sys) : Bool × Sys :=
  if s.bsc.workerGeneration ≠ s.bsc.requestGeneration ∨ s.bsc.rxWorkLen ≠ 0 then (true, s)
  else (s.tick.hw.fr.rxbusy, s.tick)

/-- The worker's request is still the latest one: its transmit state is dropped and the
peripheral configured anew. -/
def grantRecovery (s : Sys) : Sys :=
  let s := { s with
    bsc.txQueued := false, bsc.txLen := 0, bsc.txLoaded := 0
    log := .recovered s.hw.fr :: s.log }
  let s := bscConfigureLocked s
  let s := { s with bsc.recoveries := s.bsc.recoveries + 1 }
  bscSetReady false s

def bscRecoverResponseLocked (s : Sys) : Except Errno ℕ × Sys :=
  let s := bscServiceLocked s
  if s.bsc.readyGpio = false ∨ s.bsc.workerPending = false then (.error .EPROTO, s)
  else
    let (stale, s) := workerStale s
    if stale then (.error .EAGAIN, s) else (.ok 0, grantRecovery s)

/-- The transmit buffer takes a response. -/
def queueData (data : Bytes) (s : Sys) : Sys :=
  { s with
    bsc.txData := s.bsc.txData.load data, bsc.txLen := data.length, bsc.txLoaded := 0
    bsc.txQueued := true
    log := .published data s.hw.fr :: s.log }

/-- The counters of a publication, and the announcement on the READY line. -/
def announce (s : Sys) (count : ℕ) : Sys :=
  bscSetReady true { s with
    bsc.stats.txTransactions := s.bsc.stats.txTransactions + 1
    bsc.stats.txBytes := s.bsc.stats.txBytes + count }

/-- A superseded result is consumed, never published or retried. -/
def discardData (s : Sys) : Sys :=
  { s with bsc.stats.txDiscarded := s.bsc.stats.txDiscarded + 1, log := .discarded :: s.log }

def bscPublishResponseLocked (data : Bytes) (s : Sys) : Except Errno ℕ × Sys :=
  let s := bscServiceLocked (s.note (.asked data))
  if s.bsc.readyGpio = false then (.error .EOPNOTSUPP, s.note .refused)
  else if s.bsc.workerPending = false then (.error .EPROTO, s.note .refused)
  else
    let (stale, s) := workerStale { s with bsc.workerPending := false }
    if stale then (.ok data.length, discardData s)
    else (.ok data.length, announce (bscRefillTxLocked (queueData data s)) data.length)

/-! ## Entry points -/

/-- What `bsc_probe` leaves behind with the default address. -/
def bscProbe (readyGpio : Bool) : Sys :=
  bscDisableLocked ⟨.allocated 0x13 readyGpio, .reset, [], []⟩

/-- A hard interrupt whose MIS read returned `mis`. -/
def bscIrq (mis : UInt32) (s : Sys) : Sys :=
  let pending := mis &&& irqAll
  if pending = 0 ∨ s.bsc.active = false then s
  else
    let s := { s with bsc.stats.interrupts := s.bsc.stats.interrupts + 1 }
    bscWrite .ICR pending (bscServiceLocked s)

def bscTimer (s : Sys) : Sys :=
  if s.bsc.dead = true ∨ s.bsc.active = false then s
  else bscServiceLocked { s with bsc.stats.timerRuns := s.bsc.stats.timerRuns + 1 }

/-- The session part of `bsc_activate`, after the active pin state was selected. -/
def bscActivate (s : Sys) : Sys :=
  let s := bscResetIoLocked s
  bscConfigureLocked { s with bsc.active := true }

def bscDeactivate (s : Sys) : Sys :=
  if s.bsc.active = false then s else bscDisableLocked { s with bsc.active := false }

/-- What a `read` call brings along: the buffer size, whether the descriptor is non-blocking,
whether a signal interrupts the wait for the read lock or for a record, and whether the copy to
the buffer fails. -/
structure ReadArgs where
  count : ℕ
  nonblock : Bool
  lockInterrupted : Bool
  waitInterrupted : Bool
  fault : Bool
  deriving DecidableEq

inductive ReadResult
  | record (bytes : Bytes)
  | error (e : Errno)
  /-- The caller still sleeps on `rx_wait`. -/
  | asleep
  deriving DecidableEq

/-- The dequeue: the head record moves to `rx_read` and its request to the worker. -/
def dequeue (fault : Bool) (s : Sys) : Sys :=
  let slot := s.bsc.rxSlots s.bsc.rxHead
  let rxRead := s.bsc.rxRead.copy slot.data slot.len
  { s with
    bsc.rxRead := rxRead
    bsc.rxHead := (s.bsc.rxHead + 1) % bscRxSlots
    bsc.rxCount := s.bsc.rxCount - 1
    bsc.workerGeneration := s.bsc.requestGeneration
    bsc.workerPending := true
    log := .took (rxRead.read slot.len) fault :: s.log }

def bscReadMessage (r : ReadArgs) (s : Sys) : ReadResult × Sys :=
  if r.lockInterrupted then (.error .ERESTARTSYS, s)
  else if s.bsc.dead then (.error .ENODEV, s)
  else if s.bsc.rxCount = 0 then
    if r.nonblock then (.error .EAGAIN, s)
    else if r.waitInterrupted then (.error .ERESTARTSYS, s) else (.asleep, s)
  else
    let len := (s.bsc.rxSlots s.bsc.rxHead).len
    if r.count < len then (.error .EMSGSIZE, s)
    else
      let s := dequeue r.fault s
      if r.fault then (.error .EFAULT, s) else (.record (s.bsc.rxRead.read len), s)

/-- What a `write` call brings along: the bytes, whether copying them in fails, and whether a
signal interrupts the wait for the write lock. `memdup_user` that finds no memory is counted as a
copy that fails: it returns `ENOMEM` at the same place. -/
structure WriteArgs where
  data : Bytes
  fault : Bool
  interrupted : Bool
  deriving DecidableEq

def bscQueueResponse (w : WriteArgs) (s : Sys) : Except Errno ℕ × Sys :=
  if w.data.length = 0 ∨ bscMaxTransfer < w.data.length then (.error .EMSGSIZE, s)
  else if w.fault then (.error .EFAULT, s)
  else if w.interrupted then (.error .ERESTARTSYS, s)
  else if s.bsc.dead = true ∨ s.bsc.active = false then (.error .ENODEV, s)
  else bscPublishResponseLocked w.data s

/-- `BSC_TARGET_IOC_RECOVER` -/
def bscIoctlRecover (s : Sys) : Except Errno ℕ × Sys :=
  if s.bsc.dead = true ∨ s.bsc.active = false then (.error .ENODEV, s)
  else bscRecoverResponseLocked s

def epollIn : UInt32 := 0x1
def epollOut : UInt32 := 0x4
def epollErr : UInt32 := 0x8
def epollHup : UInt32 := 0x10
def epollRdNorm : UInt32 := 0x40
def epollWrNorm : UInt32 := 0x100

def bscPoll (s : Sys) : UInt32 :=
  if s.bsc.dead then epollErr ||| epollHup
  else
    (if s.bsc.rxCount ≠ 0 then epollIn ||| epollRdNorm else 0) |||
      (if s.bsc.workerPending then epollOut ||| epollWrNorm else 0)

end BscTarget
