import BscTarget.Driver.Recovery

/-!
# The registers that only the driver writes

The bus moves the FIFOs, FR_RXBUSY and RSR; the other registers and the READY line are what the
driver wrote last (`Controls`).
-/

namespace BscTarget

/-- What the bus leaves alone. -/
structure Controls where
  slv : UInt32
  cr : UInt32
  ifls : UInt32
  imsc : UInt32
  ready : Bool
  deriving DecidableEq

def Hw.controls (h : Hw) : Controls := ⟨h.slv, h.cr, h.ifls, h.imsc, h.ready⟩

/-- The effect of a register write on them. -/
def Controls.write (c : Controls) (value : UInt32) : Reg → Controls
  | .SLV => { c with slv := value }
  | .CR => { c with cr := value }
  | .IFLS => { c with ifls := value }
  | .IMSC => { c with imsc := value }
  | .DR | .RSR | .ICR => c

theorem controls_write (h : Hw) (value : UInt32) (reg : Reg) :
    (h.write value reg).controls = h.controls.write value reg := by
  cases reg with
  | CR =>
    simp only [Hw.write, Hw.writeCr]
    split_ifs <;> rfl
  | _ => rfl

theorem controls_bus (s : Sys) (e : HwEvent) : (s.bus e).hw.controls = s.hw.controls := by
  rcases Sys.bus_cases s e with ⟨_, _, h⟩ | ⟨_, _, _, h⟩ | ⟨_, _, h⟩ | ⟨_, _, _, h⟩ | ⟨_, _, h⟩ <;>
    rw [h] <;> rfl

@[simp] theorem controls_tick (s : Sys) : s.tick.hw.controls = s.hw.controls :=
  Sys.tick_lift (R := fun s t => t.hw.controls = s.hw.controls) (fun _ => rfl)
    (fun h h' => h'.trans h) (fun _ _ => rfl) controls_bus s

@[simp] theorem controls_bscWrite (reg : Reg) (value : UInt32) (s : Sys) :
    (bscWrite reg value s).hw.controls = s.hw.controls.write value reg := by
  rw [← controls_tick s]
  exact controls_write s.tick.hw value reg

theorem ready_bscWrite (reg : Reg) (value : UInt32) (s : Sys) :
    (bscWrite reg value s).hw.ready = s.hw.ready := by
  have h := congrArg Controls.ready (controls_bscWrite reg value s)
  cases reg <;> exact h

theorem controls_bscSetReady (ready : Bool) (s : Sys) :
    (bscSetReady ready s).hw.controls =
      { s.hw.controls with ready := if s.bsc.readyGpio then ready else s.hw.ready } := by
  unfold bscSetReady
  split_ifs <;> rfl

theorem controls_purgeLoop (count : ℕ) {s : Sys} (h : s.hw.cr = 0) :
    (purgeLoop count s).hw.controls = s.hw.controls := by
  induction count generalizing s with
  | zero => rfl
  | succ count ih =>
    have hw : (bscWrite .CR 0 (bscWrite .CR (crEn ||| crTxe) s)).hw.controls = s.hw.controls := by
      simp only [controls_bscWrite, Controls.write]
      rw [Hw.controls, h]
    rw [purgeLoop, ih (congrArg Controls.cr hw |>.trans h), hw]

/-- The mask that `bsc_set_interrupts_locked` writes. -/
def Bsc.interruptMask (b : Bsc) : UInt32 :=
  if b.txQueued = true ∧ b.txLoaded < b.txLen then irqBase ||| irqTx else irqBase

theorem controls_bscSetInterruptsLocked (s : Sys) :
    (bscSetInterruptsLocked s).hw.controls = { s.hw.controls with imsc := s.bsc.interruptMask } :=
  controls_bscWrite _ _ s

/-- A configured peripheral is enabled at the driver's address. -/
theorem controls_bscConfigureLocked (s : Sys) :
    (bscConfigureLocked s).hw.controls =
      ⟨s.bsc.address, crI2cTarget, iflsDefault, s.bsc.interruptMask, s.hw.ready⟩ := by
  have hpurge : ∀ t : Sys,
      (bscPurgeTxFifoLocked t).hw.controls = { t.hw.controls with cr := 0 } := by
    intro t
    have hcr : (bscWrite .CR 0 t.tick).hw.controls = { t.hw.controls with cr := 0 } := by
      rw [controls_bscWrite, controls_tick]
      rfl
    rw [bscPurgeTxFifoLocked, controls_purgeLoop _ (congrArg Controls.cr hcr), hcr]
  have hbsc : ∀ t : Sys, (bscPurgeTxFifoLocked t).bsc = t.bsc := by
    intro t
    exact Steps.frame (f := Sys.bsc) Setup.bsc (bscPurgeTxFifoLocked_steps t)
  simp only [bscConfigureLocked, controls_bscSetInterruptsLocked, controls_bscWrite,
    bscWrite_bsc, hpurge, hbsc, Controls.write]
  rfl

theorem controls_bscResetIoLocked (s : Sys) :
    (bscResetIoLocked s).hw.controls =
      { s.hw.controls with ready := if s.bsc.readyGpio then false else s.hw.ready } :=
  controls_bscSetReady false _

/-- A disabled peripheral takes no part in the bus. -/
theorem controls_bscDisableLocked (s : Sys) :
    (bscDisableLocked s).hw.controls =
      ⟨0, 0, s.hw.ifls, 0, if s.bsc.readyGpio then false else s.hw.ready⟩ := by
  simp only [bscDisableLocked, controls_bscResetIoLocked, controls_bscWrite, bscWrite_bsc,
    Controls.write]
  rw [ready_bscWrite, ready_bscWrite, ready_bscWrite, ready_bscWrite]
  rfl

end BscTarget
