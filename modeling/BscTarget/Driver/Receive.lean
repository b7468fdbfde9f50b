import BscTarget.Lib.Segments
import BscTarget.Driver.History

/-!
# Receive segmentation

`rx_work` holds the current burst up to its capacity (`Assembling`), so a burst is published
whole when it fits and dropped when it does not. Bursts end only where reception is idle with an
empty RX FIFO, hence at the end of a controller write.
-/

namespace BscTarget

/-! ## The receive side of a step -/

/-- `log'` tells the same of bursts, records and generations as `log`. -/
structure SameStory (log log' : List Event) : Prop where
  burst : burst log' = burst log
  outcomes : outcomes log' = outcomes log
  drained : drainedBytes log' = drainedBytes log
  ledger : ledger log' = ledger log
  taken : ∀ fault, taken fault log' = taken fault log
  evictions : evictions log' = evictions log
  full : EvictedFull log' = EvictedFull log
  starts : starts log' = starts log
  startsTaken : startsTaken log' = startsTaken log
  drainedSinceTake : drainedSinceTake log' = drainedSinceTake log

/-- `t` has the receive side of `s`, in its state and in its history. -/
structure SameReceive (s t : Sys) : Prop where
  ready : t.bsc.readyGpio = s.bsc.readyGpio
  dead : t.bsc.dead = s.bsc.dead
  active : t.bsc.active = s.bsc.active
  work : t.bsc.rxWork = s.bsc.rxWork
  len : t.bsc.rxWorkLen = s.bsc.rxWorkLen
  overflow : t.bsc.rxOverflowed = s.bsc.rxOverflowed
  slots : t.bsc.rxSlots = s.bsc.rxSlots
  head : t.bsc.rxHead = s.bsc.rxHead
  tail : t.bsc.rxTail = s.bsc.rxTail
  count : t.bsc.rxCount = s.bsc.rxCount
  dropped : t.bsc.stats.rxDropped = s.bsc.stats.rxDropped
  request : t.bsc.requestGeneration = s.bsc.requestGeneration
  worker : t.bsc.workerGeneration = s.bsc.workerGeneration
  rxFifo : t.hw.rxFifo = s.hw.rxFifo
  rxBusy : t.hw.rxBusy = s.hw.rxBusy
  story : SameStory s.log t.log
  arrived : arrivals t.log = arrivals s.log
  busy : ∀ b, busyFrom b t.log = busyFrom b s.log

theorem SameStory.refl (log : List Event) : SameStory log log := by
  constructor <;> intros <;> rfl

theorem SameReceive.setReady {s t : Sys} (h : SameReceive s t) (level : Bool) :
    SameReceive s (bscSetReady level t) := by
  unfold bscSetReady
  split_ifs
  · have hs := h.story
    exact { h with
      story := ⟨hs.burst, hs.outcomes, hs.drained, hs.ledger, hs.taken, hs.evictions, hs.full,
        hs.starts, hs.startsTaken, hs.drainedSinceTake⟩ }
  · exact h

/-- A step that adds nothing to the history and changes neither the driver nor reception. -/
theorem SameReceive.of_eq {s t : Sys} (hb : t.bsc = s.bsc) (hf : t.hw.rxFifo = s.hw.rxFifo)
    (hr : t.hw.rxBusy = s.hw.rxBusy) (hl : t.log = s.log) : SameReceive s t := by
  constructor
  case story => rw [hl]; exact .refl _
  case busy => exact fun _ => by rw [hl]
  all_goals first | rw [hb] | rw [hl] | assumption

theorem sameReceive_reg (s : Sys) (value : UInt32) (reg : Reg) :
    SameReceive s { s with hw := s.hw.write value reg } := by
  have h : (s.hw.write value reg).rxFifo = s.hw.rxFifo ∧
      (s.hw.write value reg).rxBusy = s.hw.rxBusy := by
    cases reg <;> try exact ⟨rfl, rfl⟩
    unfold Hw.write Hw.writeCr
    split_ifs <;> exact ⟨rfl, rfl⟩
  exact .of_eq rfl h.1 h.2 rfl

/-- Beside the bus, only draining a byte, finishing a burst and a dequeue touch the receive
side. -/
theorem Micro.receive {s t : Sys} (h : Micro s t) :
    SameReceive s t ∨ (∃ e, t = s.bus e) ∨ (s.hw.rxFifo ≠ [] ∧ t = drainByte s) ∨
    (s.hw.rxBusy = false ∧ s.hw.rxFifo = [] ∧
      ¬ (s.bsc.rxWorkLen = 0 ∧ s.bsc.rxOverflowed = false) ∧ t = finishBurst s) ∨
    (s.bsc.rxCount ≠ 0 ∧ ∃ fault, t = dequeue fault s) := by
  cases h with
  | tend h =>
    cases h with
    | pass h =>
      cases h with
      | fill h =>
        cases h with
        | quiet h =>
          cases h with
          | bus e => exact .inr (.inl ⟨e, rfl⟩)
          | env => exact .inl (.of_eq rfl rfl rfl rfl)
          | reg value reg => exact .inl (sameReceive_reg s value reg)
        | load =>
          refine .inl ?_
          constructor <;> first | rfl | exact fun _ => rfl | constructor <;> intros <;> rfl
      | status =>
        refine .inl ?_
        constructor <;> first | rfl | exact fun _ => rfl | constructor <;> intros <;> rfl
      | drain h => exact .inr (.inr (.inl ⟨h, rfl⟩))
      | finish hb he hw => exact .inr (.inr (.inr (.inl ⟨hb, he, hw, rfl⟩)))
    | cr value => exact .inl (sameReceive_reg s value .CR)
    | take fault h => exact .inr (.inr (.inr (.inr ⟨h, fault, rfl⟩)))
    | release _ n =>
      refine .inl (SameReceive.setReady ?_ false)
      constructor <;> first | rfl | exact fun _ => rfl | constructor <;> intros <;> rfl
    | _ =>
      refine .inl ?_
      constructor <;> first | rfl | exact fun _ => rfl | constructor <;> intros <;> rfl
  | announce data _ =>
    refine .inl (SameReceive.setReady ?_ true)
    constructor <;> first | rfl | exact fun _ => rfl | constructor <;> intros <;> rfl
  | _ =>
    refine .inl ?_
    constructor <;> first | rfl | exact fun _ => rfl | constructor <;> intros <;> rfl

theorem acknowledged_bsc (s : Sys) :
    (acknowledged s).bsc.readyGpio = s.bsc.readyGpio ∧
      (acknowledged s).bsc.dead = s.bsc.dead ∧ (acknowledged s).bsc.active = s.bsc.active ∧
      (acknowledged s).bsc.rxCount = s.bsc.rxCount := by
  unfold acknowledged
  split_ifs <;> exact ⟨rfl, rfl, rfl, rfl⟩

/-- What no step changes: whether READY is configured, and whether the device is gone or open. -/
def Bsc.standing (b : Bsc) : Bool × Bool × Bool := (b.readyGpio, b.dead, b.active)

theorem Micro.standing {s t : Sys} (h : Micro s t) : t.bsc.standing = s.bsc.standing := by
  rcases h.receive with h | ⟨e, rfl⟩ | ⟨-, rfl⟩ | ⟨-, -, -, rfl⟩ | ⟨-, fault, rfl⟩
  · simp only [Bsc.standing, h.ready, h.dead, h.active]
  · rw [Sys.bus_bsc]
  · rcases drainByte_cases s with ⟨-, -, -, -, h⟩ | ⟨-, -, -, h⟩ | ⟨-, -, h⟩ | ⟨-, -, h⟩ <;>
      rw [h] <;> rfl
  · obtain ⟨h₁, h₂, h₃, -⟩ := acknowledged_bsc s
    rcases finishBurst_cases s with ⟨-, h⟩ | ⟨-, -, h⟩ | ⟨-, -, h⟩ <;> rw [h] <;>
      simp only [Bsc.standing, h₁, h₂, h₃]
  · rfl

theorem standing_steps {s t : Sys} (h : Steps Micro s t) : t.bsc.standing = s.bsc.standing :=
  Steps.frame (f := fun s : Sys => s.bsc.standing) Micro.standing h

theorem dead_exec (s : Sys) (c : Call) : (exec s c).bsc.dead = s.bsc.dead :=
  congrArg (fun p : Bool × Bool × Bool => p.2.1) (standing_steps (exec_steps s c))

theorem active_exec (s : Sys) (c : Call) : (exec s c).bsc.active = s.bsc.active :=
  congrArg (fun p : Bool × Bool × Bool => p.2.2) (standing_steps (exec_steps s c))

theorem standing_bscRefillTxLocked (s : Sys) :
    (bscRefillTxLocked s).bsc.standing = s.bsc.standing :=
  standing_steps (toMicro (toTend (toPass (bscRefillTxLocked_steps s))))

theorem Micro.readyGpio {s t : Sys} (h : Micro s t) : t.bsc.readyGpio = s.bsc.readyGpio :=
  congrArg Prod.fst h.standing

/-- An open session is open for good. -/
theorem standing_run (s : Sys) (calls : List Call) :
    (run (openSession s) calls).bsc.standing = (s.bsc.readyGpio, s.bsc.dead, true) := by
  rw [standing_steps (run_steps _ calls), openSession_bsc]
  rfl

/-- A bus event adds nothing to the story. -/
theorem story_bus (s : Sys) (e : HwEvent) : SameStory s.log (s.bus e).log := by
  rcases Sys.bus_cases s e with ⟨_, _, h⟩ | ⟨_, _, _, h⟩ | ⟨_, _, h⟩ | ⟨_, _, _, h⟩ | ⟨_, _, h⟩ <;>
    rw [h] <;> constructor <;> intros <;> rfl

theorem burst_drainByte (s : Sys) :
    burst (drainByte s).log = burst s.log ++ [s.hw.rxFifo.headD 0] := by
  rcases drainByte_cases s with ⟨-, -, -, -, h⟩ | ⟨-, -, -, h⟩ | ⟨-, -, h⟩ | ⟨-, -, h⟩ <;>
    rw [h] <;> rfl

theorem outcomes_drainByte (s : Sys) : outcomes (drainByte s).log = outcomes s.log := by
  rcases drainByte_cases s with ⟨-, -, -, -, h⟩ | ⟨-, -, -, h⟩ | ⟨-, -, h⟩ | ⟨-, -, h⟩ <;>
    rw [h] <;> rfl

/-- Room in `rx_work` takes a byte; without it the burst overflows. -/
theorem work_drainByte (s : Sys) :
    (s.bsc.rxWorkLen < bscMaxTransfer ∧
      (drainByte s).bsc.workBytes = s.bsc.workBytes ++ [s.hw.rxFifo.headD 0] ∧
      (drainByte s).bsc.rxWorkLen = s.bsc.rxWorkLen + 1 ∧
      (drainByte s).bsc.rxOverflowed = s.bsc.rxOverflowed) ∨
    (bscMaxTransfer ≤ s.bsc.rxWorkLen ∧ (drainByte s).bsc.workBytes = s.bsc.workBytes ∧
      (drainByte s).bsc.rxWorkLen = s.bsc.rxWorkLen ∧
      (drainByte s).bsc.rxOverflowed = true) := by
  rcases drainByte_cases s with ⟨h0, -, -, -, h⟩ | ⟨h0, -, -, h⟩ | ⟨-, hl, h⟩ | ⟨-, hl, h⟩ <;>
    rw [h]
  · exact .inl ⟨by rw [h0]; decide, by simp [Bsc.workBytes, h0], by simp [h0], rfl⟩
  · exact .inl ⟨by rw [h0]; decide, by simp [Bsc.workBytes, h0], by simp [h0], rfl⟩
  · exact .inl ⟨hl, by simp [Bsc.workBytes], rfl, rfl⟩
  · exact .inr ⟨hl, rfl, rfl, rfl⟩

@[simp] theorem bytes_filledSlot (b : Bsc) : (filledSlot b).bytes = b.workBytes :=
  Mem.read_copy _ _ _

/-- The end of a burst publishes what `rx_work` holds, unless the burst overflowed. -/
theorem log_finishBurst (s : Sys) :
    ∃ log, (finishBurst s).log =
      .finished (if s.bsc.rxOverflowed then none else some s.bsc.workBytes) :: log ∧
      burst log = burst s.log ∧ outcomes log = outcomes s.log := by
  have hb : (acknowledged s).bsc.workBytes = s.bsc.workBytes := by
    unfold acknowledged
    split_ifs <;> rfl
  have hl : burst (acknowledged s).log = burst s.log ∧
      outcomes (acknowledged s).log = outcomes s.log := by
    unfold acknowledged
    split_ifs <;> exact ⟨rfl, rfl⟩
  rcases finishBurst_cases s with ⟨ho, h⟩ | ⟨ho, -, h⟩ | ⟨ho, -, h⟩ <;> rw [h, ho]
  · exact ⟨_, rfl, hl⟩
  · exact ⟨.evicted :: (acknowledged s).log, by simp [hb], hl⟩
  · exact ⟨(acknowledged s).log, by simp [hb], hl⟩

theorem outcomes_finishBurst (s : Sys) :
    outcomes (finishBurst s).log = outcomes s.log ++
      [(burst s.log, if s.bsc.rxOverflowed then none else some s.bsc.workBytes)] := by
  obtain ⟨log, h, hb, ho⟩ := log_finishBurst s
  rw [h, outcomes, hb, ho]

theorem burst_finishBurst (s : Sys) : burst (finishBurst s).log = [] := by
  obtain ⟨log, h, -, -⟩ := log_finishBurst s
  rw [h, burst]

theorem work_finishBurst (s : Sys) :
    (finishBurst s).bsc.rxWorkLen = 0 ∧ (finishBurst s).bsc.rxOverflowed = false := by
  rcases finishBurst_cases s with ⟨-, h⟩ | ⟨-, -, h⟩ | ⟨-, -, h⟩ <;> rw [h] <;> exact ⟨rfl, rfl⟩

/-! ## Assembling bursts -/

/-- `rx_work` holds the current burst up to its capacity, and every finished burst was published
exactly when it fitted. -/
structure Assembling (s : Sys) : Prop where
  len : s.bsc.rxWorkLen = min (burst s.log).length bscMaxTransfer
  overflow : s.bsc.rxOverflowed = decide (bscMaxTransfer < (burst s.log).length)
  work : s.bsc.workBytes = (burst s.log).take bscMaxTransfer
  sound : ∀ o ∈ outcomes s.log,
    o.1 ≠ [] ∧ o.2 = if o.1.length ≤ bscMaxTransfer then some o.1 else none

namespace Assembling

variable {s t : Sys}

theorem of_same (h : SameReceive s t) (hi : Assembling s) : Assembling t where
  len := by rw [h.len, h.story.burst, hi.len]
  overflow := by rw [h.overflow, h.story.burst, hi.overflow]
  work := by rw [Bsc.workBytes, h.work, h.len, h.story.burst, ← hi.work, Bsc.workBytes]
  sound := by rw [h.story.outcomes]; exact hi.sound

theorem drainByte (hi : Assembling s) : Assembling (drainByte s) := by
  have hb := burst_drainByte s
  have hlen := hi.len
  refine ⟨?_, ?_, ?_, ?_⟩
  · rcases work_drainByte s with ⟨hl, -, h, -⟩ | ⟨hl, -, h, -⟩ <;>
      rw [h, hb, List.length_append, List.length_singleton] <;> omega
  · rcases work_drainByte s with ⟨hl, -, -, h⟩ | ⟨hl, -, -, h⟩ <;>
      rw [h, hb, List.length_append, List.length_singleton]
    · rw [hi.overflow]
      congr 1
      apply propext
      omega
    · symm
      rw [decide_eq_true_eq]
      omega
  · rcases work_drainByte s with ⟨hl, h, -, -⟩ | ⟨hl, h, -, -⟩ <;> rw [h, hi.work, hb]
    · rw [List.take_of_length_le (by omega), List.take_of_length_le (by simp; omega)]
    · rw [List.take_append_of_le_length (by omega)]
  · rw [outcomes_drainByte]
    exact hi.sound

/-- A burst that has bytes and did not overflow is in `rx_work` whole. -/
theorem workBytes_eq (hi : Assembling s) (h : s.bsc.rxOverflowed = false) :
    (burst s.log).length ≤ bscMaxTransfer ∧ s.bsc.workBytes = burst s.log := by
  have hle : (burst s.log).length ≤ bscMaxTransfer := by
    have ho := hi.overflow
    rw [h, eq_comm, decide_eq_false_iff_not] at ho
    omega
  exact ⟨hle, by rw [hi.work, List.take_of_length_le hle]⟩

theorem burst_ne_nil (hi : Assembling s)
    (hw : ¬ (s.bsc.rxWorkLen = 0 ∧ s.bsc.rxOverflowed = false)) : burst s.log ≠ [] := by
  intro h
  refine hw ⟨?_, ?_⟩
  · rw [hi.len, h]; rfl
  · rw [hi.overflow, h]; rfl

theorem finishBurst (hi : Assembling s)
    (hw : ¬ (s.bsc.rxWorkLen = 0 ∧ s.bsc.rxOverflowed = false)) : Assembling (finishBurst s) := by
  obtain ⟨h₁, h₂⟩ := work_finishBurst s
  have hb := burst_finishBurst s
  refine ⟨by rw [h₁, hb]; rfl, by rw [h₂, hb]; rfl, by rw [Bsc.workBytes, h₁, hb]; rfl, ?_⟩
  rw [outcomes_finishBurst]
  intro o ho
  rcases List.mem_append.mp ho with ho | ho
  · exact hi.sound o ho
  · rw [List.mem_singleton] at ho
    subst ho
    refine ⟨hi.burst_ne_nil hw, ?_⟩
    cases hov : s.bsc.rxOverflowed
    · obtain ⟨hle, heq⟩ := hi.workBytes_eq hov
      simp [hle, heq]
    · have h := hi.overflow
      rw [hov, eq_comm, decide_eq_true_eq] at h
      simp [Nat.not_le.mpr h]

theorem bus (e : HwEvent) (hi : Assembling s) : Assembling (s.bus e) := by
  have h := story_bus s e
  exact ⟨by rw [Sys.bus_bsc, h.burst, hi.len], by rw [Sys.bus_bsc, h.burst, hi.overflow],
    by rw [Sys.bus_bsc, h.burst, hi.work], by rw [h.outcomes]; exact hi.sound⟩

theorem micro (h : Micro s t) (hi : Assembling s) : Assembling t := by
  rcases h.receive with h | ⟨e, rfl⟩ | ⟨-, rfl⟩ | ⟨-, -, hw, rfl⟩ | ⟨-, fault, rfl⟩
  · exact hi.of_same h
  · exact hi.bus e
  · exact hi.drainByte
  · exact hi.finishBurst hw
  · exact ⟨hi.len, hi.overflow, hi.work, hi.sound⟩

theorem cleared (s : Sys) : Assembling (cleared s) := by
  rcases cleared_cases s with h | h <;> rw [h] <;>
    exact ⟨rfl, rfl, rfl, by simp [BscTarget.outcomes]⟩

theorem run (s : Sys) (calls : List Call) : Assembling (run (openSession s) calls) :=
  (session_steps s calls).keep micro (cleared s)

end Assembling

/-- A burst that has bytes has some in `rx_work`. -/
theorem rxWorkLen_ne_zero {s : Sys} (ha : Assembling s)
    (hw : ¬ (s.bsc.rxWorkLen = 0 ∧ s.bsc.rxOverflowed = false)) : s.bsc.rxWorkLen ≠ 0 := by
  intro hl
  refine hw ⟨hl, ?_⟩
  rw [ha.overflow, decide_eq_false_iff_not]
  have hmin := ha.len
  have : bscMaxTransfer = 8192 := rfl
  omega

end BscTarget
