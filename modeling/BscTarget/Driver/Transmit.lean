import BscTarget.Driver.Ownership

/-!
# The transmit side

What is written to DR is a prefix of the response published last (`Serving`), and what the
controller clocks comes out in the order it went in (`Flow`).
-/

namespace BscTarget

/-! ## The transmit side of a step -/

/-- `t` has the response of `s` and has loaded as much of it. -/
structure SameServing (s t : Sys) : Prop where
  work : t.bsc.rxWorkLen = s.bsc.rxWorkLen
  data : t.bsc.txData = s.bsc.txData
  len : t.bsc.txLen = s.bsc.txLen
  loaded : t.bsc.txLoaded = s.bsc.txLoaded
  queued : t.bsc.txQueued = s.bsc.txQueued
  since : loadedSince t.log = loadedSince s.log
  current : current t.log = current s.log
  loads : LoadsCurrent t.log = LoadsCurrent s.log

theorem sameServing_bus (s : Sys) (e : HwEvent) : SameServing s (s.bus e) := by
  rcases Sys.bus_cases s e with ⟨_, _, h⟩ | ⟨_, _, _, h⟩ | ⟨_, _, h⟩ | ⟨_, _, _, h⟩ | ⟨_, _, h⟩ <;>
    rw [h] <;> exact ⟨rfl, rfl, rfl, rfl, rfl, rfl, rfl, rfl⟩

theorem SameServing.setReady {s t : Sys} (h : SameServing s t) (level : Bool) :
    SameServing s (bscSetReady level t) := by
  unfold bscSetReady
  split_ifs
  · exact ⟨h.work, h.data, h.len, h.loaded, h.queued, h.since, h.current, h.loads⟩
  · exact h

/-- What was loaded of a response that may still be loaded is its beginning; while a burst is
being assembled nothing may. -/
structure Serving (s : Sys) : Prop where
  assembling : Assembling s
  quiet : s.bsc.rxWorkLen ≠ 0 → s.bsc.txQueued = false
  current : s.bsc.txQueued = true → current s.log = some s.bsc.txBytes
  loaded : s.bsc.txQueued = true → s.bsc.txLoaded ≤ s.bsc.txLen ∧
    loadedSince s.log = s.bsc.txData.read s.bsc.txLoaded
  loads : LoadsCurrent s.log

namespace Serving

variable {s t : Sys}

theorem of_same (hi : Serving s) (ha : Assembling t) (h : SameServing s t) : Serving t where
  assembling := ha
  quiet := by rw [h.work, h.queued]; exact hi.quiet
  current := by rw [h.queued, h.current, Bsc.txBytes, h.data, h.len]; exact hi.current
  loaded := by rw [h.queued, h.loaded, h.len, h.since, h.data]; exact hi.loaded
  loads := by rw [h.loads]; exact hi.loads

/-- A step after which nothing may be loaded. -/
theorem of_quiet (ha : Assembling t) (hq : t.bsc.txQueued = false) (hl : LoadsCurrent t.log) :
    Serving t where
  assembling := ha
  quiet := fun _ => hq
  current := fun h => by rw [hq] at h; cases h
  loaded := fun h => by rw [hq] at h; cases h
  loads := hl

theorem putByte (ha : Assembling (putByte s)) (hq : s.bsc.txQueued = true)
    (hl : s.bsc.txLoaded < s.bsc.txLen) (hi : Serving s) : Serving (putByte s) := by
  obtain ⟨hle, hsince⟩ := hi.loaded hq
  have hcur := hi.current hq
  have hnext : loadedSince s.log ++ [s.bsc.txData s.bsc.txLoaded] =
      s.bsc.txData.read (s.bsc.txLoaded + 1) := by
    rw [hsince, Mem.read_succ]
  refine ⟨ha, hi.quiet, hi.current, fun _ => ⟨hl, hnext⟩, ⟨_, hcur, ?_⟩, hi.loads⟩
  rw [hnext]
  exact Mem.read_prefix _ hl

theorem drainByte (ha : Assembling (drainByte s)) (hi : Serving s) : Serving (drainByte s) := by
  rcases drainByte_cases s with ⟨-, -, -, -, h⟩ | ⟨-, -, -, h⟩ | ⟨hw, -, h⟩ | ⟨-, hlen, h⟩ <;>
    rw [h] at ha ⊢
  · exact of_quiet ha rfl hi.loads
  · exact of_quiet ha rfl hi.loads
  · exact of_quiet ha (hi.quiet (rxWorkLen_ne_zero hi.assembling hw)) hi.loads
  · refine of_quiet ha (hi.quiet fun hl => ?_) hi.loads
    rw [hl] at hlen
    cases hlen

theorem finishBurst (ha : Assembling (finishBurst s))
    (hw : ¬ (s.bsc.rxWorkLen = 0 ∧ s.bsc.rxOverflowed = false)) (hi : Serving s) :
    Serving (finishBurst s) := by
  have hq := hi.quiet (rxWorkLen_ne_zero hi.assembling hw)
  have hack : (acknowledged s).bsc.txQueued = false ∧ LoadsCurrent (acknowledged s).log := by
    unfold acknowledged
    split_ifs <;> exact ⟨hq, hi.loads⟩
  rcases finishBurst_cases s with ⟨-, h⟩ | ⟨-, -, h⟩ | ⟨-, -, h⟩ <;> rw [h] at ha ⊢ <;>
    exact of_quiet ha hack.1 hack.2

theorem queueData {data : Bytes}
    (ha : Assembling (queueData data { s with bsc.workerPending := false })) (ho : Owns s)
    (hi : Serving s) :
    Serving (queueData data { s with bsc.workerPending := false }) where
  assembling := ha
  quiet := fun h => absurd ho.work h
  current := fun _ => by
    show some data = some ((s.bsc.txData.load data).read data.length)
    rw [Mem.read_load]
  loaded := fun _ => ⟨Nat.zero_le _, rfl⟩
  loads := hi.loads

theorem micro (h : Micro s t) (hi : Serving s) : Serving t := by
  have ha := hi.assembling.micro h
  cases h with
  | tend h =>
    cases h with
    | pass h =>
      cases h with
      | fill h =>
        cases h with
        | quiet h =>
          cases h with
          | bus e => exact hi.of_same ha (sameServing_bus s e)
          | env => exact hi.of_same ha ⟨rfl, rfl, rfl, rfl, rfl, rfl, rfl, rfl⟩
          | reg => exact hi.of_same ha ⟨rfl, rfl, rfl, rfl, rfl, rfl, rfl, rfl⟩
        | load hq hl _ => exact hi.putByte ha hq hl
      | status => exact hi.of_same ha ⟨rfl, rfl, rfl, rfl, rfl, rfl, rfl, rfl⟩
      | drain => exact hi.drainByte ha
      | finish _ _ hw => exact hi.finishBurst ha hw
    | recover => exact of_quiet ha rfl hi.loads
    | release _ n =>
      refine hi.of_same ha (SameServing.setReady ?_ false)
      exact ⟨rfl, rfl, rfl, rfl, rfl, rfl, rfl, rfl⟩
    | _ => exact hi.of_same ha ⟨rfl, rfl, rfl, rfl, rfl, rfl, rfl, rfl⟩
  | publish data ho _ _ _ => exact hi.queueData ha ho
  | announce data _ =>
    refine hi.of_same ha (SameServing.setReady ?_ true)
    exact ⟨rfl, rfl, rfl, rfl, rfl, rfl, rfl, rfl⟩
  | _ => exact hi.of_same ha ⟨rfl, rfl, rfl, rfl, rfl, rfl, rfl, rfl⟩

theorem cleared (s : Sys) : Serving (cleared s) := by
  have ha := Assembling.cleared s
  rcases cleared_cases s with h | h <;> rw [h] at ha ⊢ <;> exact of_quiet ha rfl trivial

theorem run (s : Sys) (calls : List Call) : Serving (run (openSession s) calls) :=
  (session_steps s calls).keep micro (cleared s)

end Serving

/-! ## First in, first out -/

/-- What the controller clocked since the last publication and what the peripheral still holds is
what was loaded since, in order. -/
def Flow (s : Sys) : Prop := clockedSince s.log ++ s.hw.tx.held = loadedSince s.log

theorem tx_write {reg : Reg} (hne : reg ≠ .DR ∧ reg ≠ .CR) (h : Hw) (value : UInt32) :
    (h.write value reg).tx = h.tx := by
  cases reg <;> first | rfl | exact absurd rfl hne.1 | exact absurd rfl hne.2

namespace Flow

variable {s t : Sys}

theorem quiet (h : Quiet s t) (hi : Flow s) : Flow t := by
  cases h with
  | bus e =>
    rcases Sys.bus_cases s e with
      ⟨_, _, h⟩ | ⟨_, _, _, h⟩ | ⟨_, _, h⟩ | ⟨b, _, hser, h⟩ | ⟨_, _, h⟩ <;> rw [h]
    · exact hi
    · exact hi
    · exact hi
    · show (clockedSince s.log ++ [b]) ++ s.hw.tx.shift.held = loadedSince s.log
      rw [List.append_assoc, List.singleton_append, ← TxSide.held_of_serializer hser]
      exact hi
    · exact hi
  | env => exact hi
  | reg value reg hne _ =>
    show clockedSince s.log ++ (s.hw.write value reg).tx.held = loadedSince s.log
    rw [tx_write hne]
    exact hi

theorem putByte (hf : s.hw.tx.fifo.length < bscFifoSize) (hi : Flow s) : Flow (putByte s) := by
  show clockedSince s.log ++
    (s.hw.tx.push (s.bsc.txData s.bsc.txLoaded).toUInt32.toUInt8).held =
      loadedSince s.log ++ [s.bsc.txData s.bsc.txLoaded]
  rw [TxSide.held_push hf, UInt8.toUInt8_toUInt32, ← List.append_assoc, hi]

/-- What a response that may still be loaded is made of: the bytes clocked, those held and those
still to be loaded. -/
theorem parts (hs : Serving s) (hq : s.bsc.txQueued = true) (hi : Flow s) :
    clockedSince s.log ++ s.hw.tx.held ++ s.bsc.txBytes.drop s.bsc.txLoaded = s.bsc.txBytes := by
  obtain ⟨hle, hsince⟩ := hs.loaded hq
  have h := List.prefix_iff_eq_append.mp (Mem.read_prefix s.bsc.txData hle)
  rw [Mem.length_read] at h
  rw [hi, hsince]
  exact h

end Flow

end BscTarget
