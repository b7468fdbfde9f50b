import BscTarget.Lib.Histories
import BscTarget.Lib.Steps
import BscTarget.Driver.Loops

/-!
# Atomic steps

Every locked section is a path of small steps, between any two of which the bus may move. The
steps are layered: `Quiet` steps touch registers and the bus, `Setup` adds the writes to CR,
`Fill` the loading of a response byte, `Pass` what else a service pass does, `Tend` what every
call but `write` may do, and `Micro` what `write` does. Each step carries the guard under which
the code takes it. An invariant is proved once per step kind and then holds at every lock release
(`exec_steps`, `run_steps`).
-/

namespace BscTarget

/-- The response that `write` asked to publish and that is not answered yet. -/
def openAsk : List Event → Option Bytes
  | [] => none
  | .asked data :: _ => some data
  | .refused :: _ => none
  | .discarded :: _ => none
  | .published _ _ :: _ => none
  | _ :: log => openAsk log

/-- The response published last, while at most the bus and the refill have moved since. -/
def unannounced : List Event → Option Bytes
  | .published data _ :: _ => some data
  | .busy _ :: log => unannounced log
  | .arrived _ :: log => unannounced log
  | .lost _ :: log => unannounced log
  | .clocked _ :: log => unannounced log
  | .underrun :: log => unannounced log
  | .loaded _ :: log => unannounced log
  | _ => none

/-- Whether the peripheral may be in configuration: since the session opened or a recovery was
granted only the bus has moved and READY was set. -/
def configuring : List Event → Bool
  | [] => true
  | .recovered _ :: _ => true
  | .ready _ :: log => configuring log
  | .busy _ :: log => configuring log
  | .arrived _ :: log => configuring log
  | .lost _ :: log => configuring log
  | .clocked _ :: log => configuring log
  | .underrun :: log => configuring log
  | _ => false

/-! ## The step relations -/

/-- The bus moves, or a register other than DR and CR is written. -/
inductive Quiet : Sys → Sys → Prop
  | bus (s : Sys) (e : HwEvent) : Quiet s (s.bus e)
  | env (s : Sys) (env : List (List HwEvent)) : Quiet s { s with env := env }
  | reg (s : Sys) (value : UInt32) (reg : Reg) (h : reg ≠ .DR ∧ reg ≠ .CR)
      (hv : reg = .RSR → value = 0) : Quiet s { s with hw := s.hw.write value reg }

/-- The steps of configuration. -/
inductive Setup : Sys → Sys → Prop
  | quiet {s t : Sys} (h : Quiet s t) : Setup s t
  | cr (s : Sys) (value : UInt32) : Setup s { s with hw := s.hw.writeCr value }

/-- `loadByte` behind its tick. -/
def putByte (s : Sys) : Sys :=
  { s with
    hw := s.hw.write (s.bsc.txData s.bsc.txLoaded).toUInt32 .DR
    bsc.txLoaded := s.bsc.txLoaded + 1
    log := .loaded (s.bsc.txData s.bsc.txLoaded) :: s.log }

inductive Fill : Sys → Sys → Prop
  | quiet {s t : Sys} (h : Quiet s t) : Fill s t
  | load (s : Sys) (hq : s.bsc.txQueued = true) (hl : s.bsc.txLoaded < s.bsc.txLen)
      (hf : s.hw.tx.fifo.length < bscFifoSize) : Fill s (putByte s)

inductive Pass : Sys → Sys → Prop
  | fill {s t : Sys} (h : Fill s t) : Pass s t
  | status (s : Sys) : Pass s (countStatus s)
  | drain (s : Sys) (h : s.hw.rxFifo ≠ []) : Pass s (drainByte s)
  | finish (s : Sys) (hb : s.hw.rxBusy = false) (he : s.hw.rxFifo = [])
      (hw : ¬ (s.bsc.rxWorkLen = 0 ∧ s.bsc.rxOverflowed = false)) : Pass s (finishBurst s)

/-- What publication and recovery require of the state at their FR read. -/
structure Owns (s : Sys) : Prop where
  ready : s.bsc.readyGpio = true
  pending : s.bsc.workerPending = true
  generation : s.bsc.workerGeneration = s.bsc.requestGeneration
  work : s.bsc.rxWorkLen = 0
  busy : s.hw.rxBusy = false

inductive Tend : Sys → Sys → Prop
  | pass {s t : Sys} (h : Pass s t) : Tend s t
  | cr (s : Sys) (value : UInt32) (h : configuring s.log = true) :
      Tend s { s with hw := s.hw.writeCr value }
  | tally (s : Sys) (interrupts timerRuns : ℕ) :
      Tend s { s with bsc.stats.interrupts := interrupts, bsc.stats.timerRuns := timerRuns }
  | take (s : Sys) (fault : Bool) (h : s.bsc.rxCount ≠ 0) : Tend s (dequeue fault s)
  | recover (s : Sys) (h : Owns s) :
      Tend s { s with
        bsc.txQueued := false, bsc.txLen := 0, bsc.txLoaded := 0
        log := .recovered s.hw.fr :: s.log }
  | release (s : Sys) (h : s.bsc.workerPending = true) (n : ℕ) :
      Tend s (bscSetReady false { s with bsc.recoveries := n })

inductive Micro : Sys → Sys → Prop
  | tend {s t : Sys} (h : Tend s t) : Micro s t
  | ask (s : Sys) (data : Bytes) (h₀ : data.length ≠ 0) (h₁ : data.length ≤ bscMaxTransfer) :
      Micro s (s.note (.asked data))
  | refuse (s : Sys) (h : s.bsc.readyGpio = false ∨ s.bsc.workerPending = false)
      (ho : (openAsk s.log).isSome) : Micro s (s.note .refused)
  | discard (s : Sys) (hr : s.bsc.readyGpio = true) (hp : s.bsc.workerPending = true)
      (h : s.bsc.workerGeneration ≠ s.bsc.requestGeneration ∨ s.bsc.rxWorkLen ≠ 0 ∨
        s.hw.rxBusy = true) (ho : (openAsk s.log).isSome) :
      Micro s (discardData { s with bsc.workerPending := false })
  | publish (s : Sys) (data : Bytes) (h : Owns s) (ho : openAsk s.log = some data)
      (h₀ : data.length ≠ 0) (h₁ : data.length ≤ bscMaxTransfer) :
      Micro s (queueData data { s with bsc.workerPending := false })
  | announce (s : Sys) (data : Bytes) (h : unannounced s.log = some data) :
      Micro s (announce s data.length)

theorem toSetup {s t : Sys} (h : Steps Quiet s t) : Steps Setup s t :=
  Relation.ReflTransGen.mono (fun _ _ => .quiet) _ _ h

theorem toFill {s t : Sys} (h : Steps Quiet s t) : Steps Fill s t :=
  Relation.ReflTransGen.mono (fun _ _ => .quiet) _ _ h

theorem toPass {s t : Sys} (h : Steps Fill s t) : Steps Pass s t :=
  Relation.ReflTransGen.mono (fun _ _ => .fill) _ _ h

theorem toTend {s t : Sys} (h : Steps Pass s t) : Steps Tend s t :=
  Relation.ReflTransGen.mono (fun _ _ => .pass) _ _ h

theorem toMicro {s t : Sys} (h : Steps Tend s t) : Steps Micro s t :=
  Relation.ReflTransGen.mono (fun _ _ => .tend) _ _ h

/-! ## Service passes -/

theorem tick_steps (s : Sys) : Steps Quiet s s.tick :=
  Sys.tick_lift (R := Steps Quiet) (fun _ => .refl) .trans (fun s env => .single (.env s env))
    (fun s e => .single (.bus s e)) s

theorem bscWrite_steps {reg : Reg} (h : reg ≠ .DR ∧ reg ≠ .CR) {value : UInt32}
    (hv : reg = .RSR → value = 0) (s : Sys) : Steps Quiet s (bscWrite reg value s) :=
  (tick_steps s).tail (.reg _ value reg h hv)

theorem bscWrite_setup {reg : Reg} (h : reg ≠ .DR) {value : UInt32}
    (hv : reg = .RSR → value = 0) (s : Sys) : Steps Setup s (bscWrite reg value s) := by
  by_cases hc : reg = .CR
  · subst hc
    exact (toSetup (tick_steps s)).tail (.cr _ value)
  · exact toSetup (bscWrite_steps ⟨h, hc⟩ hv s)

theorem purgeLoop_steps : ∀ (count : ℕ) (s : Sys), Steps Setup s (purgeLoop count s)
  | 0, _ => .refl
  | count + 1, s =>
    ((bscWrite_setup (by decide) (by simp) s).trans (bscWrite_setup (by decide) (by simp) _)).trans
      (purgeLoop_steps count _)

/-- What `bsc_configure_locked` does once the transmit side is purged and RSR clear. -/
theorem bscConfigureLocked_rest (s : Sys) :
    Steps Setup (bscWrite .RSR 0 (bscPurgeTxFifoLocked (bscWrite .IMSC 0 s)))
      (bscConfigureLocked s) := by
  unfold bscConfigureLocked bscSetInterruptsLocked
  dsimp only
  refine .trans ?_ (bscWrite_setup (by decide) (by simp) _)
  refine .trans ?_ (bscWrite_setup (by decide) (by simp) _)
  refine .trans ?_ (bscWrite_setup (by decide) (by simp) _)
  refine .trans ?_ (bscWrite_setup (by decide) (by simp) _)
  exact bscWrite_setup (by decide) (by simp) _

theorem bscPurgeTxFifoLocked_steps (s : Sys) : Steps Setup s (bscPurgeTxFifoLocked s) := by
  unfold bscPurgeTxFifoLocked
  dsimp only
  refine .trans ?_ (purgeLoop_steps _ _)
  exact (toSetup (tick_steps s)).trans (bscWrite_setup (by decide) (by simp) _)

theorem bscConfigureLocked_steps (s : Sys) : Steps Setup s (bscConfigureLocked s) := by
  refine .trans ?_ (bscConfigureLocked_rest s)
  refine .trans ?_ (bscWrite_setup (by decide) (by simp) _)
  exact (bscWrite_setup (by decide) (by simp) _).trans (bscPurgeTxFifoLocked_steps _)

theorem loadByte_eq (s : Sys) : loadByte s = putByte s.tick := by
  unfold loadByte putByte bscWrite
  simp

theorem loadByte_steps {s : Sys} (hq : s.bsc.txQueued = true) (hl : s.bsc.txLoaded < s.bsc.txLen)
    (hf : s.tick.hw.tx.fifo.length < bscFifoSize) : Steps Fill s (loadByte s.tick) := by
  rw [loadByte_eq]
  refine (toFill ((tick_steps s).trans (tick_steps s.tick))).tail (.load _ ?_ ?_ ?_)
  · simpa using hq
  · simpa using hl
  · exact Nat.lt_of_le_of_lt (Sys.length_txFifo_tick _) hf

theorem bscRefillTxLocked_steps (s : Sys) : Steps Fill s (bscRefillTxLocked s) := by
  refine .trans ?_ (toFill (bscWrite_steps (by decide) (by simp) _))
  refine refill_induction (P := Steps Fill) (fun _ _ => .refl) ?_ ?_ s
  · exact fun s _ _ _ => toFill (tick_steps s)
  · exact fun s hq hl hf t ht => (loadByte_steps hq hl hf).trans ht

theorem bscDrainRxLocked_steps (s : Sys) : Steps Pass s (bscDrainRxLocked s) := by
  refine drain_induction (P := Steps Pass) ?_ ?_ s
  · exact fun s _ => toPass (toFill (tick_steps s))
  · intro s hne t ht
    refine .trans ?_ ht
    exact (toPass (toFill ((tick_steps s).trans (tick_steps _)))).tail
      (.drain _ (Sys.rxFifo_tick_ne_nil hne))

theorem readStatus_steps (s : Sys) : Steps Pass s (readStatus s) := by
  unfold readStatus
  dsimp only
  split_ifs
  · exact ((toPass (toFill (tick_steps s))).tail (.status _)).trans
      (toPass (toFill (bscWrite_steps (by decide) (by simp) _)))
  · exact (toPass (toFill (tick_steps s))).tail (.status _)

theorem bscFinishRxLocked_steps {s : Sys} (hb : s.hw.fr.rxbusy = false)
    (he : s.hw.fr.rxfe = true) : Steps Pass s (bscFinishRxLocked s) := by
  unfold bscFinishRxLocked
  split_ifs with hw
  · exact .refl
  · exact .single (.finish s hb ((rxfe_iff _).mp he) hw)

/-- The part of a pass behind the drain. -/
theorem bscServiceLocked_rest (s : Sys) :
    Steps Pass (bscDrainRxLocked (readStatus s)) (bscServiceLocked s) := by
  unfold bscServiceLocked
  dsimp only
  refine .trans ?_ (toPass (bscRefillTxLocked_steps _))
  refine .trans (toPass (toFill (tick_steps _))) ?_
  split_ifs with h
  · exact bscFinishRxLocked_steps h.1 h.2
  · exact .refl

theorem bscServiceLocked_steps (s : Sys) : Steps Pass s (bscServiceLocked s) :=
  ((readStatus_steps s).trans (bscDrainRxLocked_steps _)).trans (bscServiceLocked_rest s)

theorem tick_pass (s : Sys) : Steps Pass s s.tick := toPass (toFill (tick_steps s))

/-! ## What the layers leave alone -/

/-- What the bus notes in the history. -/
def Event.OfBus : Event → Prop
  | .busy _ | .arrived _ | .lost _ | .clocked _ | .underrun => True
  | _ => False

/-- What the bus and the refill note. -/
def Event.OfFill : Event → Prop
  | .loaded _ => True
  | e => e.OfBus

/-- What draining a byte notes. -/
def Event.OfDrain : Event → Prop
  | .began | .superseded | .drained _ => True
  | _ => False

/-- What a service pass notes. -/
def Event.OfPass : Event → Prop
  | .began | .superseded | .drained _ | .evicted | .finished _ | .ready _ | .acked => True
  | e => e.OfFill

theorem grows_bus (s : Sys) (e : HwEvent) : Grows Event.OfBus s.log (s.bus e).log := by
  rcases Sys.bus_cases s e with ⟨_, _, h⟩ | ⟨_, _, _, h⟩ | ⟨_, _, h⟩ | ⟨_, _, _, h⟩ | ⟨_, _, h⟩ <;>
    rw [h] <;> exact (Grows.refl _).cons trivial

theorem Quiet.grows {s t : Sys} (h : Quiet s t) : Grows Event.OfBus s.log t.log := by
  cases h with
  | bus e => exact grows_bus s e
  | env => exact .refl _
  | reg => exact .refl _

theorem Setup.grows {s t : Sys} (h : Setup s t) : Grows Event.OfBus s.log t.log := by
  cases h with
  | quiet h => exact h.grows
  | cr => exact .refl _

theorem Fill.grows {s t : Sys} (h : Fill s t) : Grows Event.OfFill s.log t.log := by
  cases h with
  | quiet h => exact h.grows.mono fun e he => by cases e <;> first | exact he | cases he
  | load => exact (Grows.refl _).cons trivial

theorem Quiet.bsc {s t : Sys} (h : Quiet s t) : t.bsc = s.bsc := by
  cases h with
  | bus e => exact Sys.bus_bsc s e
  | env => rfl
  | reg => rfl

theorem Setup.bsc {s t : Sys} (h : Setup s t) : t.bsc = s.bsc := by
  cases h with
  | quiet h => exact h.bsc
  | cr => rfl

theorem Setup.configuring {s t : Sys} (h : Setup s t) :
    configuring t.log = configuring s.log :=
  h.grows.frame fun e _ he => by cases e <;> first | rfl | cases he

theorem Fill.unannounced {s t : Sys} (h : Fill s t) : unannounced t.log = unannounced s.log :=
  h.grows.frame fun e _ he => by cases e <;> first | rfl | cases he

/-- Configuration is a path of atomic steps where it may take place. -/
theorem setup_tend {s t : Sys} (hc : configuring s.log = true) (h : Steps Setup s t) :
    Steps Tend s t := by
  have key : Steps Tend s t ∧ configuring t.log = true := by
    induction h with
    | refl => exact ⟨.refl, hc⟩
    | tail _ h ih =>
      refine ⟨ih.1.tail ?_, h.configuring.trans ih.2⟩
      cases h with
      | quiet h => exact .pass (.fill (.quiet h))
      | cr value => exact .cr _ value ih.2
  exact key.1

/-- What draining a byte can do: begin a burst, superseding a queued request or not, extend one,
or overflow it. -/
theorem drainByte_cases (s : Sys) :
    (s.bsc.rxWorkLen = 0 ∧ s.bsc.rxOverflowed = false ∧
      s.bsc.readyGpio = true ∧ s.bsc.rxCount ≠ 0 ∧
      drainByte s = { s with
        hw.rxFifo := s.hw.rxFifo.tail
        bsc.requestGeneration := s.bsc.requestGeneration + 1, bsc.txQueued := false
        bsc.stats.rxDropped := s.bsc.stats.rxDropped + s.bsc.rxCount
        bsc.rxHead := 0, bsc.rxTail := 0, bsc.rxCount := 0
        bsc.rxWork := Function.update s.bsc.rxWork 0 (s.hw.rxFifo.headD 0), bsc.rxWorkLen := 1
        log := .drained (s.hw.rxFifo.headD 0) :: .superseded :: .began :: s.log }) ∨
    (s.bsc.rxWorkLen = 0 ∧ s.bsc.rxOverflowed = false ∧
      ¬ (s.bsc.readyGpio = true ∧ s.bsc.rxCount ≠ 0) ∧
      drainByte s = { s with
        hw.rxFifo := s.hw.rxFifo.tail
        bsc.requestGeneration := s.bsc.requestGeneration + 1, bsc.txQueued := false
        bsc.rxWork := Function.update s.bsc.rxWork 0 (s.hw.rxFifo.headD 0), bsc.rxWorkLen := 1
        log := .drained (s.hw.rxFifo.headD 0) :: .began :: s.log }) ∨
    (¬ (s.bsc.rxWorkLen = 0 ∧ s.bsc.rxOverflowed = false) ∧ s.bsc.rxWorkLen < bscMaxTransfer ∧
      drainByte s = { s with
        hw.rxFifo := s.hw.rxFifo.tail
        bsc.rxWork := Function.update s.bsc.rxWork s.bsc.rxWorkLen (s.hw.rxFifo.headD 0)
        bsc.rxWorkLen := s.bsc.rxWorkLen + 1
        log := .drained (s.hw.rxFifo.headD 0) :: s.log }) ∨
    (¬ (s.bsc.rxWorkLen = 0 ∧ s.bsc.rxOverflowed = false) ∧ bscMaxTransfer ≤ s.bsc.rxWorkLen ∧
      drainByte s = { s with
        hw.rxFifo := s.hw.rxFifo.tail
        bsc.rxOverflowed := true
        log := .drained (s.hw.rxFifo.headD 0) :: s.log }) := by
  by_cases hf : s.bsc.rxWorkLen = 0 ∧ s.bsc.rxOverflowed = false
  · by_cases hs : s.bsc.readyGpio = true ∧ s.bsc.rxCount ≠ 0
    · refine .inl ⟨hf.1, hf.2, hs.1, hs.2, ?_⟩
      simp [drainByte, beginBurst, storeByte, hf.1, hf.2, hs.1, hs.2, bscMaxTransfer]
    · refine .inr (.inl ⟨hf.1, hf.2, hs, ?_⟩)
      simp only [drainByte, beginBurst, storeByte, hf.1, hf.2, if_neg hs, and_self, if_true]
      simp [bscMaxTransfer]
  · refine .inr (.inr ?_)
    by_cases hl : s.bsc.rxWorkLen < bscMaxTransfer
    · exact .inl ⟨hf, hl, by simp only [drainByte, storeByte, if_neg hf, if_pos hl]⟩
    · exact .inr ⟨hf, by omega, by simp only [drainByte, storeByte, if_neg hf, if_neg hl]⟩

/-- `finishBurst` up to the acknowledgement. -/
def acknowledged (s : Sys) : Sys :=
  if s.bsc.readyGpio then
    { s with
      bsc.txLen := 0, bsc.txLoaded := 0
      hw.ready := false, log := .acked :: .ready false :: .ready true :: s.log }
  else s

theorem acknowledged_eq (s : Sys) :
    (if s.bsc.readyGpio then bscAckRequestLocked { s with bsc.txLen := 0, bsc.txLoaded := 0 }
      else s) = acknowledged s := by
  unfold acknowledged
  split_ifs with hr
  · simp only [bscAckRequestLocked, bscSetReady, hr, if_true]
    rfl
  · rfl

/-- What the end of a burst can do behind the acknowledgement: drop the burst, or publish its
record into a full ring or one with room. -/
theorem finishBurst_cases (s : Sys) :
    let t := acknowledged s
    (s.bsc.rxOverflowed = true ∧
      finishBurst s = { t with
        bsc.stats.rxOverruns := t.bsc.stats.rxOverruns + 1
        bsc.rxWorkLen := 0, bsc.rxOverflowed := false
        log := .finished none :: t.log }) ∨
    (s.bsc.rxOverflowed = false ∧ s.bsc.rxCount = bscRxSlots ∧
      finishBurst s = { t with
        bsc.rxHead := (t.bsc.rxHead + 1) % bscRxSlots
        bsc.rxCount := t.bsc.rxCount - 1 + 1
        bsc.stats.rxDropped := t.bsc.stats.rxDropped + 1
        bsc.rxSlots := Function.update t.bsc.rxSlots t.bsc.rxTail (filledSlot t.bsc)
        bsc.rxTail := (t.bsc.rxTail + 1) % bscRxSlots
        bsc.stats.rxTransactions := t.bsc.stats.rxTransactions + 1
        bsc.stats.rxBytes := t.bsc.stats.rxBytes + t.bsc.rxWorkLen
        bsc.rxWorkLen := 0, bsc.rxOverflowed := false
        log := .finished (some (filledSlot t.bsc).bytes) :: .evicted :: t.log }) ∨
    (s.bsc.rxOverflowed = false ∧ s.bsc.rxCount ≠ bscRxSlots ∧
      finishBurst s = { t with
        bsc.rxCount := t.bsc.rxCount + 1
        bsc.rxSlots := Function.update t.bsc.rxSlots t.bsc.rxTail (filledSlot t.bsc)
        bsc.rxTail := (t.bsc.rxTail + 1) % bscRxSlots
        bsc.stats.rxTransactions := t.bsc.stats.rxTransactions + 1
        bsc.stats.rxBytes := t.bsc.stats.rxBytes + t.bsc.rxWorkLen
        bsc.rxWorkLen := 0, bsc.rxOverflowed := false
        log := .finished (some (filledSlot t.bsc).bytes) :: t.log }) := by
  by_cases ho : s.bsc.rxOverflowed = true
  · refine .inl ⟨ho, ?_⟩
    by_cases hr : s.bsc.readyGpio = true <;>
      simp [finishBurst, acknowledged, bscAckRequestLocked, bscSetReady, dropBurst, ho, hr]
  · have ho' : s.bsc.rxOverflowed = false := by simpa using ho
    refine .inr ?_
    by_cases hc : s.bsc.rxCount = bscRxSlots
    · refine .inl ⟨ho', hc, ?_⟩
      by_cases hr : s.bsc.readyGpio = true <;>
        simp [finishBurst, acknowledged, bscAckRequestLocked, bscSetReady, publishRecord,
          evictOldest, filledSlot, ho', hr, hc]
    · refine .inr ⟨ho', hc, ?_⟩
      by_cases hr : s.bsc.readyGpio = true <;>
        simp [finishBurst, acknowledged, bscAckRequestLocked, bscSetReady, publishRecord,
          evictOldest, filledSlot, ho', hr, hc]

theorem grows_drainByte (s : Sys) : Grows Event.OfDrain s.log (drainByte s).log := by
  rcases drainByte_cases s with ⟨-, -, -, -, h⟩ | ⟨-, -, -, h⟩ | ⟨-, -, h⟩ | ⟨-, -, h⟩ <;> rw [h]
  · exact (((Grows.refl _).cons trivial).cons trivial).cons trivial
  · exact ((Grows.refl _).cons trivial).cons trivial
  · exact (Grows.refl _).cons trivial
  · exact (Grows.refl _).cons trivial

theorem grows_acknowledged (s : Sys) : Grows Event.OfPass s.log (acknowledged s).log := by
  unfold acknowledged
  split_ifs
  · exact (((Grows.refl _).cons trivial).cons trivial).cons trivial
  · exact .refl _

theorem grows_finishBurst (s : Sys) : Grows Event.OfPass s.log (finishBurst s).log := by
  have ha := grows_acknowledged s
  rcases finishBurst_cases s with ⟨-, h⟩ | ⟨-, -, h⟩ | ⟨-, -, h⟩ <;> rw [h]
  · exact ha.cons (e := .finished none) trivial
  · exact (ha.cons (e := .evicted) trivial).cons (e := .finished (some _)) trivial
  · exact ha.cons (e := .finished (some _)) trivial

theorem Pass.grows {s t : Sys} (h : Pass s t) : Grows Event.OfPass s.log t.log := by
  cases h with
  | fill h => exact h.grows.mono fun e he => by cases e <;> first | exact he | cases he
  | status => exact .refl _
  | drain _ => exact (grows_drainByte s).mono fun e he => by cases e <;> first | exact he | cases he
  | finish _ _ _ => exact grows_finishBurst s

theorem grows_steps {s t : Sys} (h : Steps Pass s t) : Grows Event.OfPass s.log t.log :=
  h.lift (R := fun s t : Sys => Grows Event.OfPass s.log t.log) (fun s => .refl s.log)
    (fun h h' => Grows.trans h h') Pass.grows

theorem Pass.openAsk {s t : Sys} (h : Pass s t) : openAsk t.log = openAsk s.log :=
  h.grows.frame fun e _ he => by cases e <;> first | rfl | cases he

theorem Quiet.openAsk {s t : Sys} (h : Quiet s t) : openAsk t.log = openAsk s.log :=
  Pass.openAsk (.fill (.quiet h))

end BscTarget
