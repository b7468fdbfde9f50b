import BscTarget.Driver.Counters

/-!
# States that differ in stale contents

Two states are alike if they differ only where no length or flag covers an array, and in the
cumulative counters. Nothing the driver does depends on the difference.
-/

namespace BscTarget

/-! ## The relation -/

/-- The structure without its arrays and cumulative counters. -/
def Bsc.blank (b : Bsc) : Bsc :=
  { b with
    rxWork := fun _ => 0, rxSlots := fun _ => ⟨0, fun _ => 0⟩, rxRead := fun _ => 0
    txData := fun _ => 0, recoveries := 0, stats := ⟨0, 0, 0, 0, 0, 0, 0, 0, 0, 0⟩ }

structure Bsc.Alike (b b' : Bsc) : Prop where
  same : b'.blank = b.blank
  work : b'.workBytes = b.workBytes
  /-- The occupied slots hold the same records. -/
  slots : ∀ i < b.rxCount, (b'.rxSlots ((b.rxHead + i) % bscRxSlots)).bytes =
    (b.rxSlots ((b.rxHead + i) % bscRxSlots)).bytes
  bound : b.rxHead < bscRxSlots
  wrap : b.rxTail = (b.rxHead + b.rxCount) % bscRxSlots
  response : b'.txBytes = b.txBytes

structure Alike (s t : Sys) : Prop where
  hw : t.hw = s.hw
  env : t.env = s.env
  log : t.log = s.log
  bsc : s.bsc.Alike t.bsc

namespace Bsc.Alike

variable {b b' : Bsc}

/-- Whatever does not look at arrays and counters is the same. -/
theorem field (h : b.Alike b') {α : Type} {f : Bsc → α} (hf : ∀ b : Bsc, f b.blank = f b) :
    f b' = f b := by
  rw [← hf b', h.same, hf b]

theorem address (h : b.Alike b') : b'.address = b.address := h.field fun _ => rfl
theorem readyGpio (h : b.Alike b') : b'.readyGpio = b.readyGpio := h.field fun _ => rfl
theorem dead (h : b.Alike b') : b'.dead = b.dead := h.field fun _ => rfl
theorem active (h : b.Alike b') : b'.active = b.active := h.field fun _ => rfl
theorem rxWorkLen (h : b.Alike b') : b'.rxWorkLen = b.rxWorkLen := h.field fun _ => rfl
theorem rxOverflowed (h : b.Alike b') : b'.rxOverflowed = b.rxOverflowed := h.field fun _ => rfl
theorem rxHead (h : b.Alike b') : b'.rxHead = b.rxHead := h.field fun _ => rfl
theorem rxTail (h : b.Alike b') : b'.rxTail = b.rxTail := h.field fun _ => rfl
theorem rxCount (h : b.Alike b') : b'.rxCount = b.rxCount := h.field fun _ => rfl
theorem txLen (h : b.Alike b') : b'.txLen = b.txLen := h.field fun _ => rfl
theorem txLoaded (h : b.Alike b') : b'.txLoaded = b.txLoaded := h.field fun _ => rfl
theorem txQueued (h : b.Alike b') : b'.txQueued = b.txQueued := h.field fun _ => rfl
theorem requestGeneration (h : b.Alike b') : b'.requestGeneration = b.requestGeneration :=
  h.field fun _ => rfl
theorem workerGeneration (h : b.Alike b') : b'.workerGeneration = b.workerGeneration :=
  h.field fun _ => rfl
theorem workerPending (h : b.Alike b') : b'.workerPending = b.workerPending := h.field fun _ => rfl

theorem interruptMask (h : b.Alike b') : b'.interruptMask = b.interruptMask := by
  rw [Bsc.interruptMask, Bsc.interruptMask, h.txQueued, h.txLoaded, h.txLen]

/-- Fields that cover no array change in the same way. -/
theorem map (h : b.Alike b') (f : Bsc → Bsc)
    (hf : ∀ b, (f b).blank = (f b.blank).blank := by intro; rfl)
    (hwork : ∀ b, (f b).rxWork = b.rxWork ∧ (f b).rxWorkLen = b.rxWorkLen := by
      intro; exact ⟨rfl, rfl⟩)
    (hring : ∀ b, (f b).rxSlots = b.rxSlots ∧ (f b).rxHead = b.rxHead ∧
      (f b).rxTail = b.rxTail ∧ (f b).rxCount = b.rxCount := by
      intro; exact ⟨rfl, rfl, rfl, rfl⟩)
    (htx : ∀ b, (f b).txData = b.txData ∧ (f b).txLen = b.txLen := by
      intro; exact ⟨rfl, rfl⟩) : (f b).Alike (f b') := by
  refine ⟨?_, ?_, ?_, ?_, ?_, ?_⟩
  · rw [hf b', hf b, h.same]
  · rw [Bsc.workBytes, Bsc.workBytes, (hwork b').1, (hwork b').2, (hwork b).1, (hwork b).2]
    exact h.work
  · rw [(hring b').1, (hring b).1, (hring b).2.1, (hring b).2.2.2]
    exact h.slots
  · rw [(hring b).2.1]
    exact h.bound
  · rw [(hring b).2.1, (hring b).2.2.1, (hring b).2.2.2]
    exact h.wrap
  · rw [Bsc.txBytes, Bsc.txBytes, (htx b').1, (htx b').2, (htx b).1, (htx b).2]
    exact h.response

/-- A byte goes into `rx_work`. -/
theorem store (h : b.Alike b') (byte : UInt8) :
    Bsc.Alike
      { b with
        rxWork := Function.update b.rxWork b.rxWorkLen byte, rxWorkLen := b.rxWorkLen + 1 }
      { b' with
        rxWork := Function.update b'.rxWork b'.rxWorkLen byte, rxWorkLen := b'.rxWorkLen + 1 }
    where
  same := congrArg (fun b : Bsc => { b with rxWorkLen := b.rxWorkLen + 1 }) h.same
  work := by
    have hwork := h.work
    simp only [Bsc.workBytes] at hwork ⊢
    rw [Mem.read_update_succ, Mem.read_update_succ, hwork]
  slots := h.slots
  bound := h.bound
  wrap := h.wrap
  response := h.response

/-- The queued records are dropped. -/
theorem supersede (h : b.Alike b') (n n' : ℕ) :
    Bsc.Alike
      { b with stats.rxDropped := n, rxHead := 0, rxTail := 0, rxCount := 0 }
      { b' with stats.rxDropped := n', rxHead := 0, rxTail := 0, rxCount := 0 } where
  same := congrArg (fun b : Bsc => { b with rxHead := 0, rxTail := 0, rxCount := 0 }) h.same
  work := h.work
  slots := fun i hi => absurd hi (Nat.not_lt_zero i)
  bound := (by decide : 0 < bscRxSlots)
  wrap := rfl
  response := h.response

/-- The head slot becomes free. -/
theorem advance (h : b.Alike b') (hc : b.rxCount ≠ 0) :
    Bsc.Alike
      { b with rxHead := (b.rxHead + 1) % bscRxSlots, rxCount := b.rxCount - 1 }
      { b' with rxHead := (b'.rxHead + 1) % bscRxSlots, rxCount := b'.rxCount - 1 } where
  same := congrArg (fun b : Bsc =>
    { b with rxHead := (b.rxHead + 1) % bscRxSlots, rxCount := b.rxCount - 1 }) h.same
  work := h.work
  slots := by
    intro i hi
    have hi' : i < b.rxCount - 1 := hi
    have hslot := h.slots (i + 1) (by omega)
    dsimp only
    rw [Nat.mod_add_mod, Nat.add_assoc, Nat.add_comm 1 i]
    exact hslot
  bound := Nat.mod_lt _ (by decide)
  wrap := by
    dsimp only
    rw [Ring.tail_advance, Nat.sub_add_cancel (Nat.pos_of_ne_zero hc)]
    exact h.wrap
  response := h.response

theorem filledSlot (h : b.Alike b') : (filledSlot b').bytes = (filledSlot b).bytes := by
  rw [bytes_filledSlot, bytes_filledSlot]
  exact h.work

/-- The assembled burst goes into the tail slot. -/
theorem publish (h : b.Alike b') :
    Bsc.Alike
      { b with
        rxSlots := Function.update b.rxSlots b.rxTail (BscTarget.filledSlot b)
        rxTail := (b.rxTail + 1) % bscRxSlots, rxCount := b.rxCount + 1 }
      { b' with
        rxSlots := Function.update b'.rxSlots b'.rxTail (BscTarget.filledSlot b')
        rxTail := (b'.rxTail + 1) % bscRxSlots, rxCount := b'.rxCount + 1 } where
  same := congrArg (fun b : Bsc =>
    { b with rxTail := (b.rxTail + 1) % bscRxSlots, rxCount := b.rxCount + 1 }) h.same
  work := h.work
  slots := by
    intro i hi
    dsimp only at hi ⊢
    rw [h.rxTail]
    by_cases hslot : (b.rxHead + i) % bscRxSlots = b.rxTail
    · rw [hslot, Function.update_self, Function.update_self]
      exact h.filledSlot
    · have hne : i ≠ b.rxCount := by
        rintro rfl
        exact hslot h.wrap.symm
      rw [Function.update_of_ne hslot, Function.update_of_ne hslot]
      exact h.slots i (by omega)
  bound := h.bound
  wrap := by
    dsimp only
    rw [h.wrap, Ring.tail_store]
  response := h.response

/-- The head record goes into `rx_read`. -/
theorem head (h : b.Alike b') (hc : b.rxCount ≠ 0) :
    (b'.rxSlots b'.rxHead).bytes = (b.rxSlots b.rxHead).bytes := by
  have hslot := h.slots 0 (Nat.pos_of_ne_zero hc)
  rw [Nat.add_zero, Nat.mod_eq_of_lt h.bound] at hslot
  rw [h.rxHead]
  exact hslot

/-- The transmit buffer takes a response. -/
theorem load (h : b.Alike b') (data : Bytes) :
    Bsc.Alike
      { b with
        txData := b.txData.load data, txLen := data.length, txLoaded := 0, txQueued := true }
      { b' with
        txData := b'.txData.load data, txLen := data.length, txLoaded := 0, txQueued := true }
    where
  same := congrArg (fun b : Bsc =>
    { b with txLen := data.length, txLoaded := 0, txQueued := true }) h.same
  work := h.work
  slots := h.slots
  bound := h.bound
  wrap := h.wrap
  response := by
    simp only [Bsc.txBytes]
    rw [Mem.read_load, Mem.read_load]

/-- The response is dropped. -/
theorem unload (h : b.Alike b') :
    Bsc.Alike { b with txLen := 0, txLoaded := 0 } { b' with txLen := 0, txLoaded := 0 } where
  same := congrArg (fun b : Bsc => { b with txLen := 0, txLoaded := 0 }) h.same
  work := h.work
  slots := h.slots
  bound := h.bound
  wrap := h.wrap
  response := rfl

/-- `rx_work` is emptied. -/
theorem empty (h : b.Alike b') :
    Bsc.Alike { b with rxWorkLen := 0, rxOverflowed := false }
      { b' with rxWorkLen := 0, rxOverflowed := false } where
  same := congrArg (fun b : Bsc => { b with rxWorkLen := 0, rxOverflowed := false }) h.same
  work := rfl
  slots := h.slots
  bound := h.bound
  wrap := h.wrap
  response := h.response

/-- The next byte to load is the same. -/
theorem next (h : b.Alike b') (hl : b.txLoaded < b.txLen) :
    b'.txData b'.txLoaded = b.txData b.txLoaded := by
  have hr := h.response
  simp only [Bsc.txBytes, h.txLen] at hr
  have hget := congrArg (fun l : Bytes => l[b.txLoaded]?) hr
  simp only [Mem.read, List.getElem?_map] at hget
  rw [List.getElem?_range hl] at hget
  rw [h.txLoaded]
  simpa using hget

end Bsc.Alike

/-! ## What the driver does to alike states -/

namespace Alike

variable {s t : Sys}

theorem eq (h : Alike s t) : t = { s with bsc := t.bsc } := by
  rcases t with ⟨b, hw, env, log⟩
  obtain ⟨rfl, rfl, rfl, -⟩ := h
  rfl

/-- Alike states take the same branch. -/
theorem ite {s' t' : Sys} {p q : Prop} [Decidable p] [Decidable q] (hpq : q ↔ p)
    (hpos : p → Alike s t) (hneg : ¬ p → Alike s' t') :
    Alike (if p then s else s') (if q then t else t') := by
  by_cases hp : p
  · rw [if_pos hp, if_pos (hpq.mpr hp)]
    exact hpos hp
  · rw [if_neg hp, if_neg (fun hq => hp (hpq.mp hq))]
    exact hneg hp

theorem with_bsc (h : Alike s t) {b b' : Bsc} (hb : b.Alike b') :
    Alike { s with bsc := b } { t with bsc := b' } :=
  ⟨h.hw, h.env, h.log, hb⟩

theorem note (h : Alike s t) (e : Event) : Alike (s.note e) (t.note e) :=
  ⟨h.hw, h.env, congrArg (e :: ·) h.log, h.bsc⟩

/-- What is noted of FR is the same. -/
theorem note_fr (h : Alike s t) (e : Fr → Event) :
    Alike (s.note (e s.hw.fr)) (t.note (e t.hw.fr)) := by
  rw [h.hw]
  exact h.note _

theorem with_hw (h : Alike s t) (f : Hw → Hw) :
    Alike { s with hw := f s.hw } { t with hw := f t.hw } :=
  ⟨congrArg f h.hw, h.env, h.log, h.bsc⟩

theorem schedule (h : Alike s t) (env : List (List HwEvent)) :
    Alike { s with env := env } { t with env := env } :=
  ⟨h.hw, rfl, h.log, h.bsc⟩

theorem bus (h : Alike s t) (e : HwEvent) : Alike (s.bus e) (t.bus e) := by
  have he : t.bus e = { s.bus e with bsc := t.bsc } := by rw [← Sys.bus_with_bsc, ← h.eq]
  rw [he]
  exact ⟨rfl, rfl, rfl, by rw [Sys.bus_bsc]; exact h.bsc⟩

theorem tick (h : Alike s t) : Alike s.tick t.tick := by
  have he : t.tick = { s.tick with bsc := t.bsc } := by rw [← Sys.tick_with_bsc, ← h.eq]
  rw [he]
  exact ⟨rfl, rfl, rfl, by rw [Sys.tick_bsc]; exact h.bsc⟩

theorem write (h : Alike s t) (reg : Reg) (value : UInt32) :
    Alike (bscWrite reg value s) (bscWrite reg value t) :=
  h.tick.with_hw fun hw => hw.write value reg

theorem setReady (h : Alike s t) (level : Bool) :
    Alike (bscSetReady level s) (bscSetReady level t) := by
  refine ite (by rw [h.bsc.readyGpio]) (fun _ => ?_) (fun _ => h)
  exact (h.with_hw fun hw => { hw with ready := level }).note (.ready level)

theorem setInterrupts (h : Alike s t) :
    Alike (bscSetInterruptsLocked s) (bscSetInterruptsLocked t) := by
  have hmask : ∀ u : Sys, bscSetInterruptsLocked u = bscWrite .IMSC u.bsc.interruptMask u :=
    fun _ => rfl
  rw [hmask, hmask, h.bsc.interruptMask]
  exact h.write .IMSC _

/-! ### Configuration -/

theorem purgeLoop (h : Alike s t) (count : ℕ) :
    Alike (purgeLoop count s) (purgeLoop count t) := by
  induction count generalizing s t with
  | zero => exact h
  | succ count ih => exact ih ((h.write .CR _).write .CR 0)

theorem purge (h : Alike s t) : Alike (bscPurgeTxFifoLocked s) (bscPurgeTxFifoLocked t) := by
  unfold bscPurgeTxFifoLocked
  dsimp only
  rw [h.tick.hw]
  exact (h.tick.write .CR 0).purgeLoop _

theorem configure (h : Alike s t) : Alike (bscConfigureLocked s) (bscConfigureLocked t) := by
  have hpurged := (h.write .IMSC 0).purge.write .RSR 0
  unfold bscConfigureLocked
  dsimp only
  rw [hpurged.bsc.address]
  exact ((((hpurged.write .SLV _).write .IFLS _).write .ICR _).write .CR _).setInterrupts

/-! ### Reception -/

theorem beginBurst (h : Alike s t) : Alike (beginBurst s) (beginBurst t) := by
  have hbegun := (h.with_bsc (h.bsc.map fun b =>
    { b with requestGeneration := b.requestGeneration + 1, txQueued := false })).note .began
  refine ite ?_ (fun _ => ?_) (fun _ => hbegun)
  · dsimp only
    rw [h.bsc.readyGpio, h.bsc.rxCount]
  · exact (hbegun.with_bsc (hbegun.bsc.supersede _ _)).note .superseded

theorem storeByte (h : Alike s t) (byte : UInt8) :
    Alike (storeByte byte s) (storeByte byte t) := by
  refine ite (by rw [h.bsc.rxWorkLen]) (fun _ => ?_) (fun _ => ?_)
  · exact (h.with_bsc (h.bsc.store byte)).note (.drained byte)
  · exact (h.with_bsc (h.bsc.map fun b => { b with rxOverflowed := true })).note (.drained byte)

theorem drainByte (h : Alike s t) : Alike (drainByte s) (drainByte t) := by
  have hpopped := h.with_hw fun hw => { hw with rxFifo := hw.rxFifo.tail }
  unfold BscTarget.drainByte
  dsimp only
  rw [show t.hw.rxFifo.headD 0 = s.hw.rxFifo.headD 0 by rw [h.hw]]
  refine storeByte (ite ?_ (fun _ => hpopped.beginBurst) (fun _ => hpopped)) _
  rw [h.bsc.rxWorkLen, h.bsc.rxOverflowed]

theorem drainLoop (h : Alike s t) (fuel : ℕ) : Alike (drainLoop fuel s) (drainLoop fuel t) := by
  induction fuel generalizing s t with
  | zero => exact h
  | succ fuel ih =>
    refine ite (by rw [h.tick.hw]) (fun _ => h.tick) (fun _ => ?_)
    exact ih h.tick.tick.drainByte

theorem drain (h : Alike s t) : Alike (bscDrainRxLocked s) (bscDrainRxLocked t) := by
  have hinbound : t.inbound = s.inbound := by rw [Sys.inbound, Sys.inbound, h.hw, h.env]
  unfold bscDrainRxLocked
  rw [hinbound]
  exact h.drainLoop _

theorem acknowledge (h : Alike s t) : Alike (bscAckRequestLocked s) (bscAckRequestLocked t) :=
  ((h.setReady true).setReady false).note .acked

/-- The counters do not matter. -/
theorem count (h : Alike s t) (x y : Stats) :
    Alike { s with bsc.stats := x } { t with bsc.stats := y } :=
  h.with_bsc ⟨h.bsc.same, h.bsc.work, h.bsc.slots, h.bsc.bound, h.bsc.wrap, h.bsc.response⟩

theorem evictOldest (h : Alike s t) : Alike (evictOldest s) (evictOldest t) := by
  refine ite (by rw [h.bsc.rxCount]) (fun hc => ?_) (fun _ => h)
  have hne : s.bsc.rxCount ≠ 0 := by
    rw [hc]
    decide
  exact ((h.with_bsc (h.bsc.advance hne)).count _ _).note .evicted

theorem publishRecord (h : Alike s t) : Alike (publishRecord s) (publishRecord t) := by
  have hbsc : (BscTarget.publishRecord s).bsc.Alike (BscTarget.publishRecord t).bsc :=
    ((h.with_bsc h.bsc.publish).count _ _).bsc
  refine ⟨h.hw, h.env, ?_, hbsc⟩
  show Event.finished (some (filledSlot t.bsc).bytes) :: t.log = _
  rw [h.bsc.filledSlot, h.log]
  rfl

theorem dropBurst (h : Alike s t) : Alike (dropBurst s) (dropBurst t) :=
  (h.count _ _).note (.finished none)

theorem outcome (h : Alike s t) :
    Alike (if s.bsc.rxOverflowed then BscTarget.dropBurst s
        else BscTarget.publishRecord (BscTarget.evictOldest s))
      (if t.bsc.rxOverflowed then BscTarget.dropBurst t
        else BscTarget.publishRecord (BscTarget.evictOldest t)) :=
  ite (by rw [h.bsc.rxOverflowed]) (fun _ => h.dropBurst) (fun _ => h.evictOldest.publishRecord)

theorem finishBurst (h : Alike s t) : Alike (finishBurst s) (finishBurst t) := by
  have hack := ite (p := s.bsc.readyGpio = true) (q := t.bsc.readyGpio = true)
    (by rw [h.bsc.readyGpio]) (fun _ => (h.with_bsc h.bsc.unload).acknowledge) (fun _ => h)
  exact hack.outcome.with_bsc hack.outcome.bsc.empty

theorem finish (h : Alike s t) : Alike (bscFinishRxLocked s) (bscFinishRxLocked t) :=
  ite (by rw [h.bsc.rxWorkLen, h.bsc.rxOverflowed]) (fun _ => h) (fun _ => h.finishBurst)

/-! ### Transmission and passes -/

theorem loadByte (h : Alike s t) (hl : s.bsc.txLoaded < s.bsc.txLen) :
    Alike (loadByte s) (loadByte t) := by
  have hbyte := h.bsc.next hl
  unfold BscTarget.loadByte
  dsimp only
  rw [hbyte]
  have hw := h.write .DR (s.bsc.txData s.bsc.txLoaded).toUInt32
  exact (hw.with_bsc (hw.bsc.map fun b => { b with txLoaded := b.txLoaded + 1 })).note (.loaded _)

theorem refillLoop (h : Alike s t) (fuel : ℕ) :
    Alike (refillLoop fuel s) (refillLoop fuel t) := by
  induction fuel generalizing s t with
  | zero => exact h
  | succ fuel ih =>
    refine ite (by rw [h.bsc.txQueued, h.bsc.txLoaded, h.bsc.txLen]) (fun hc => ?_) (fun _ => h)
    refine ite (by rw [h.tick.hw]) (fun _ => h.tick) (fun _ => ?_)
    exact ih (h.tick.loadByte (by rw [Sys.tick_bsc]; exact hc.2))

theorem refill (h : Alike s t) : Alike (bscRefillTxLocked s) (bscRefillTxLocked t) := by
  unfold bscRefillTxLocked
  rw [h.bsc.txLen, h.bsc.txLoaded]
  exact (h.refillLoop _).setInterrupts

theorem readStatus (h : Alike s t) : Alike (readStatus s) (readStatus t) := by
  have hcount : Alike (countStatus s.tick) (countStatus t.tick) := h.tick.count _ _
  refine ite (by rw [h.tick.hw]) (fun _ => ?_) (fun _ => hcount)
  exact hcount.write .RSR 0

/-- A pass keeps alike states alike. -/
theorem service (h : Alike s t) : Alike (bscServiceLocked s) (bscServiceLocked t) := by
  have hd := h.readStatus.drain.tick
  have hf := ite
    (p := (bscDrainRxLocked (BscTarget.readStatus s)).tick.hw.fr.rxbusy = false ∧
      (bscDrainRxLocked (BscTarget.readStatus s)).tick.hw.fr.rxfe = true)
    (q := (bscDrainRxLocked (BscTarget.readStatus t)).tick.hw.fr.rxbusy = false ∧
      (bscDrainRxLocked (BscTarget.readStatus t)).tick.hw.fr.rxfe = true)
    (by rw [hd.hw]) (fun _ => hd.finish) (fun _ => hd)
  exact hf.refill

/-! ### Calls -/

theorem grantRecovery (h : Alike s t) : Alike (grantRecovery s) (grantRecovery t) := by
  have hdropped : s.bsc.Alike t.bsc → Bsc.Alike
      { s.bsc with txQueued := false, txLen := 0, txLoaded := 0 }
      { t.bsc with txQueued := false, txLen := 0, txLoaded := 0 } :=
    fun hb => (hb.map fun b => { b with txQueued := false }).unload
  have hnoted := (h.with_bsc (hdropped h.bsc)).note_fr .recovered
  have hconf := hnoted.configure
  have hcounted : ∀ {u v : Sys}, Alike u v → Alike
      { u with bsc.recoveries := u.bsc.recoveries + 1 }
      { v with bsc.recoveries := v.bsc.recoveries + 1 } := fun hu =>
    hu.with_bsc ⟨hu.bsc.same, hu.bsc.work, hu.bsc.slots, hu.bsc.bound, hu.bsc.wrap,
      hu.bsc.response⟩
  exact (hcounted hconf).setReady false

theorem queueData (h : Alike s t) (data : Bytes) :
    Alike (queueData data s) (queueData data t) :=
  (h.with_bsc (h.bsc.load data)).note_fr (.published data)

theorem announce (h : Alike s t) (n : ℕ) : Alike (announce s n) (announce t n) :=
  (h.count _ _).setReady true

theorem discardData (h : Alike s t) : Alike (discardData s) (discardData t) :=
  (h.count _ _).note .discarded

theorem dequeue (h : Alike s t) (hc : s.bsc.rxCount ≠ 0) (fault : Bool) :
    Alike (dequeue fault s) (dequeue fault t) := by
  have hb := (h.bsc.advance hc).map fun b =>
    { b with workerGeneration := b.requestGeneration, workerPending := true }
  have hlog : ∀ u : Sys, (BscTarget.dequeue fault u).log =
      .took (u.bsc.rxSlots u.bsc.rxHead).bytes fault :: u.log := by
    intro u
    simp only [BscTarget.dequeue, Mem.read_copy]
    rfl
  refine ⟨h.hw, h.env, ?_, ⟨hb.same, hb.work, hb.slots, hb.bound, hb.wrap, hb.response⟩⟩
  rw [hlog, hlog, h.bsc.head hc, h.log]

end Alike

/-- Two outcomes agree: the same value is returned, in alike states. -/
structure Agree {α : Type} (x y : α × Sys) : Prop where
  value : y.1 = x.1
  state : Alike x.2 y.2

namespace Agree

variable {s t : Sys} {α : Type}

theorem ite {x y x' y' : α × Sys} {p q : Prop} [Decidable p] [Decidable q] (hpq : q ↔ p)
    (hpos : p → Agree x y) (hneg : ¬ p → Agree x' y') :
    Agree (if p then x else x') (if q then y else y') := by
  by_cases hp : p
  · rw [if_pos hp, if_pos (hpq.mpr hp)]
    exact hpos hp
  · rw [if_neg hp, if_neg (fun hq => hp (hpq.mp hq))]
    exact hneg hp

theorem of_alike (h : Alike s t) (a : α) : Agree (a, s) (a, t) := ⟨rfl, h⟩

theorem workerStale (h : Alike s t) : Agree (workerStale s) (workerStale t) := by
  refine ite ?_ (fun _ => of_alike h true) (fun _ => ⟨?_, h.tick⟩)
  · rw [h.bsc.workerGeneration, h.bsc.requestGeneration, h.bsc.rxWorkLen]
  · rw [h.tick.hw]

/-- What follows the ownership test agrees if both of its branches do. -/
theorem decided {x y : Bool × Sys} (hxy : Agree x y) {f g : Sys → α × Sys}
    (hf : Alike x.2 y.2 → Agree (f x.2) (f y.2)) (hg : Alike x.2 y.2 → Agree (g x.2) (g y.2)) :
    Agree (match x with | (stale, u) => if stale then f u else g u)
      (match y with | (stale, u) => if stale then f u else g u) :=
  ite (by rw [hxy.value]) (fun _ => hf hxy.state) (fun _ => hg hxy.state)

theorem recover (h : Alike s t) :
    Agree (bscRecoverResponseLocked s) (bscRecoverResponseLocked t) := by
  have hs := h.service
  refine ite (by rw [hs.bsc.readyGpio, hs.bsc.workerPending]) (fun _ => of_alike hs _)
    (fun _ => ?_)
  exact decided (workerStale hs) (f := fun u => ((.error .EAGAIN : Except Errno ℕ), u))
    (g := fun u => (.ok 0, grantRecovery u))
    (fun hu => of_alike hu _) (fun hu => of_alike hu.grantRecovery _)

theorem publish (h : Alike s t) (data : Bytes) :
    Agree (bscPublishResponseLocked data s) (bscPublishResponseLocked data t) := by
  have hs := (h.note (.asked data)).service
  refine ite (by rw [hs.bsc.readyGpio]) (fun _ => of_alike (hs.note .refused) _) (fun _ => ?_)
  refine ite (by rw [hs.bsc.workerPending]) (fun _ => of_alike (hs.note .refused) _) (fun _ => ?_)
  have hreleased := hs.with_bsc (hs.bsc.map fun b => { b with workerPending := false })
  exact decided (workerStale hreleased)
    (f := fun u => ((.ok data.length : Except Errno ℕ), discardData u))
    (g := fun u => (.ok data.length, announce (bscRefillTxLocked (queueData data u)) data.length))
    (fun hu => of_alike hu.discardData _)
    (fun hu => of_alike ((hu.queueData data).refill.announce _) _)

theorem read (h : Alike s t) (r : ReadArgs) : Agree (bscReadMessage r s) (bscReadMessage r t) := by
  refine ite Iff.rfl (fun _ => of_alike h _) (fun _ => ?_)
  refine ite (by rw [h.bsc.dead]) (fun _ => of_alike h _) (fun _ => ?_)
  refine ite (by rw [h.bsc.rxCount]) (fun _ => ?_) (fun hc => ?_)
  · refine ite Iff.rfl (fun _ => of_alike h _) (fun _ => ?_)
    exact ite Iff.rfl (fun _ => of_alike h _) (fun _ => of_alike h _)
  · have hslot := h.bsc.head hc
    have hlen : (t.bsc.rxSlots t.bsc.rxHead).len = (s.bsc.rxSlots s.bsc.rxHead).len := by
      have hl := congrArg List.length hslot
      simpa only [BscRxSlot.bytes, Mem.length_read] using hl
    have hrecord : ∀ u : Sys, (dequeue r.fault u).bsc.rxRead.read
        (u.bsc.rxSlots u.bsc.rxHead).len = (u.bsc.rxSlots u.bsc.rxHead).bytes :=
      fun u => Mem.read_copy _ _ _
    refine ite (by rw [hlen]) (fun _ => of_alike h _) (fun _ => ?_)
    refine ite Iff.rfl (fun _ => of_alike (h.dequeue hc r.fault) _) (fun _ => ⟨?_, ?_⟩)
    · exact congrArg ReadResult.record ((hrecord t).trans (hslot.trans (hrecord s).symm))
    · exact h.dequeue hc r.fault

theorem write (h : Alike s t) (w : WriteArgs) :
    Agree (bscQueueResponse w s) (bscQueueResponse w t) := by
  refine ite Iff.rfl (fun _ => of_alike h _) (fun _ => ?_)
  refine ite Iff.rfl (fun _ => of_alike h _) (fun _ => ?_)
  refine ite Iff.rfl (fun _ => of_alike h _) (fun _ => ?_)
  exact ite (by rw [h.bsc.dead, h.bsc.active]) (fun _ => of_alike h _) (fun _ => publish h w.data)

theorem ioctl (h : Alike s t) : Agree (bscIoctlRecover s) (bscIoctlRecover t) :=
  ite (by rw [h.bsc.dead, h.bsc.active]) (fun _ => of_alike h _) (fun _ => recover h)

end Agree

/-- No call can tell alike states apart, and each leaves them alike. -/
theorem Alike.exec {s t : Sys} (h : Alike s t) (c : Call) :
    answer t c = answer s c ∧ Alike (exec s c) (exec t c) := by
  cases c with
  | irq mis =>
    refine ⟨by rw [answer, answer, h.bsc.active], ?_⟩
    refine Alike.ite (by rw [h.bsc.active]) (fun _ => h) (fun _ => ?_)
    exact (h.count _ _).service.write .ICR _
  | timer =>
    refine ⟨by rw [answer, answer, h.bsc.dead, h.bsc.active], ?_⟩
    refine Alike.ite (by rw [h.bsc.dead, h.bsc.active]) (fun _ => h) (fun _ => ?_)
    exact (h.count _ _).service
  | read r => exact ⟨congrArg Answer.read (Agree.read h r).value, (Agree.read h r).state⟩
  | write w => exact ⟨congrArg Answer.write (Agree.write h w).value, (Agree.write h w).state⟩
  | recover => exact ⟨congrArg Answer.recover (Agree.ioctl h).value, (Agree.ioctl h).state⟩
  | bus e => exact ⟨rfl, h.bus e⟩

end BscTarget
