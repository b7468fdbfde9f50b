import BscTarget.Driver.Receive

/-!
# Passes without bus activity

While the schedule is empty and RSR clear, a timer pass takes the bytes that are in the RX FIFO,
ends the burst if reception is idle, and does nothing else.
-/

namespace BscTarget

/-- An open session whose bus rests, with nothing to receive and nothing to load. -/
structure Calm (s : Sys) : Prop where
  env : s.env = []
  rsr : s.hw.rsr = 0
  rxFifo : s.hw.rxFifo = []
  queued : s.bsc.txQueued = false
  alive : s.bsc.dead = false
  active : s.bsc.active = true

theorem tick_calm {s : Sys} (h : s.env = []) : s.tick = s := by
  rw [Sys.tick, h]

theorem bscWrite_calm {s : Sys} (h : s.env = []) (reg : Reg) (value : UInt32) :
    bscWrite reg value s = { s with hw := s.hw.write value reg } := by
  rw [bscWrite, tick_calm h]

theorem readStatus_calm {s : Sys} (h : s.env = []) (hr : s.hw.rsr = 0) : readStatus s = s := by
  rw [readStatus, tick_calm h]
  simp [countStatus, hr]

theorem bscDrainRxLocked_nil {s : Sys} (h : s.env = []) (hf : s.hw.rxFifo = []) :
    bscDrainRxLocked s = s := by
  rw [bscDrainRxLocked_eq, tick_calm h, if_pos ((rxfe_iff _).mpr hf)]

theorem bscDrainRxLocked_one {s : Sys} (h : s.env = []) {b : UInt8} (hf : s.hw.rxFifo = [b]) :
    bscDrainRxLocked s = drainByte s := by
  have hne : ¬ s.hw.fr.rxfe = true := fun h' => by
    rw [rxfe_iff, hf] at h'
    cases h'
  rw [bscDrainRxLocked_eq, tick_calm h, tick_calm h, if_neg hne]
  exact bscDrainRxLocked_nil (by rw [drainByte_env, h]) (by rw [drainByte_rxFifo, hf]; rfl)

theorem bscRefillTxLocked_calm {s : Sys} (h : s.env = []) (hq : s.bsc.txQueued = false) :
    bscRefillTxLocked s = { s with hw.imsc := irqBase } := by
  rw [bscRefillTxLocked, refillLoop_eq, if_neg (by simp [hq]), bscSetInterruptsLocked,
    if_neg (by simp [hq]), bscWrite_calm h]
  rfl

theorem finishBurst_calm (s : Sys) :
    (finishBurst s).env = s.env ∧ (finishBurst s).bsc.txQueued = s.bsc.txQueued := by
  have ha : (acknowledged s).env = s.env ∧ (acknowledged s).bsc.txQueued = s.bsc.txQueued := by
    unfold acknowledged
    split_ifs <;> exact ⟨rfl, rfl⟩
  rcases finishBurst_cases s with ⟨-, h⟩ | ⟨-, -, h⟩ | ⟨-, -, h⟩ <;> rw [h] <;> exact ha

theorem bscFinishRxLocked_calm (s : Sys) :
    (bscFinishRxLocked s).env = s.env ∧
      (bscFinishRxLocked s).bsc.txQueued = s.bsc.txQueued := by
  unfold bscFinishRxLocked
  split_ifs
  · exact ⟨rfl, rfl⟩
  · exact finishBurst_calm s

/-- A pass whose drain ends in `t`. -/
theorem bscServiceLocked_calm {s t : Sys} (h : s.env = []) (hr : s.hw.rsr = 0)
    (hd : bscDrainRxLocked s = t) (ht : t.env = []) (hq : t.bsc.txQueued = false)
    (hf : t.hw.rxFifo = []) :
    bscServiceLocked s =
      { (if t.hw.rxBusy then t else bscFinishRxLocked t) with hw.imsc := irqBase } := by
  unfold bscServiceLocked
  simp only [readStatus_calm h hr, hd, tick_calm ht]
  obtain ⟨he, hq'⟩ := bscFinishRxLocked_calm t
  cases hb : t.hw.rxBusy
  · rw [if_pos ⟨hb, (rxfe_iff _).mpr hf⟩, if_neg (by simp)]
    exact bscRefillTxLocked_calm (by rw [he, ht]) (by rw [hq', hq])
  · rw [if_neg (by simp [Hw.fr, hb]), if_pos rfl]
    exact bscRefillTxLocked_calm ht hq

/-- A timer pass has been counted. -/
def expired (s : Sys) : Sys :=
  { s with bsc.stats.timerRuns := s.bsc.stats.timerRuns + 1 }

theorem bscTimer_eq {s : Sys} (hd : s.bsc.dead = false) (ha : s.bsc.active = true) :
    bscTimer s = bscServiceLocked (expired s) := by
  rw [bscTimer, if_neg (by simp [hd, ha]), expired]

/-- The state in which a timer pass finds a byte that has just arrived. -/
def heard (s : Sys) (b : UInt8) : Sys :=
  expired { s with hw.rxFifo := [b], log := .arrived b :: s.log }

theorem drainByte_txQueued {s : Sys} (h : s.bsc.txQueued = false) :
    (drainByte s).bsc.txQueued = false := by
  rcases drainByte_cases s with ⟨-, -, -, -, h'⟩ | ⟨-, -, -, h'⟩ | ⟨-, -, h'⟩ | ⟨-, -, h'⟩ <;>
    rw [h']
  · exact h
  · exact h

/-- A byte arrives and a timer pass takes it. -/
theorem run_byte {s : Sys} (h : Calm s) (b : UInt8) :
    run s [.bus (.byte b), .timer] =
      { (if s.hw.rxBusy then drainByte (heard s b) else bscFinishRxLocked (drainByte (heard s b)))
        with hw.imsc := irqBase } := by
  have hbyte : s.bus (.byte b) = { s with hw.rxFifo := [b], log := .arrived b :: s.log } := by
    simp only [Sys.bus, h.rxFifo]
    rfl
  have hbusy : (drainByte (heard s b)).hw.rxBusy = s.hw.rxBusy := by
    rw [drainByte_hw]
    rfl
  have hrun : run s [.bus (.byte b), .timer] = bscServiceLocked (heard s b) := by
    rw [run_cons, run_cons, run_nil, exec, exec, hbyte]
    exact bscTimer_eq h.alive h.active
  rw [hrun, bscServiceLocked_calm (s := heard s b) h.env h.rsr
    (bscDrainRxLocked_one h.env (b := b) rfl) (by rw [drainByte_env]; exact h.env)
    (drainByte_txQueued h.queued) (by rw [drainByte_rxFifo]; rfl), hbusy]

/-- A timer pass that finds nothing new. -/
theorem run_timer {s : Sys} (h : Calm s) :
    run s [.timer] =
      { (if s.hw.rxBusy then expired s else bscFinishRxLocked (expired s))
        with hw.imsc := irqBase } := by
  have hrun : run s [.timer] = bscServiceLocked (expired s) := by
    rw [run_cons, run_nil, exec]
    exact bscTimer_eq h.alive h.active
  rw [hrun, bscServiceLocked_calm (s := expired s) h.env h.rsr
    (bscDrainRxLocked_nil (s := expired s) h.env h.rxFifo) h.env h.queued h.rxFifo]
  rfl

/-- What a timer pass makes of a byte in the middle of a write. -/
theorem run_byte_busy {s : Sys} (h : Calm s) (hb : s.hw.rxBusy = true) (b : UInt8) :
    Calm (run s [.bus (.byte b), .timer]) ∧
      (run s [.bus (.byte b), .timer]).hw.rxBusy = true ∧
      ∃ pre, (pre = [] ∨ pre = [.began] ∨ pre = [.superseded, .began]) ∧
        (run s [.bus (.byte b), .timer]).log = .drained b :: (pre ++ .arrived b :: s.log) := by
  obtain ⟨he, hr, hf, hq, hd, ha⟩ := h
  rw [run_byte ⟨he, hr, hf, hq, hd, ha⟩, if_pos hb]
  rcases drainByte_cases (heard s b) with ⟨-, -, -, -, h⟩ | ⟨-, -, -, h⟩ | ⟨-, -, h⟩ | ⟨-, -, h⟩ <;>
    rw [h]
  · exact ⟨⟨he, hr, rfl, rfl, hd, ha⟩, hb, [.superseded, .began], by simp, rfl⟩
  · exact ⟨⟨he, hr, rfl, rfl, hd, ha⟩, hb, [.began], by simp, rfl⟩
  · exact ⟨⟨he, hr, rfl, hq, hd, ha⟩, hb, [], by simp, rfl⟩
  · exact ⟨⟨he, hr, rfl, hq, hd, ha⟩, hb, [], by simp, rfl⟩

end BscTarget
