import BscTarget.Driver.Acceptance

/-!
# Ownership of the latest request

In READY mode the generation counters count bursts modulo 2⁶⁴ (`Fresh`). Until they wrap, the
worker's request is the latest one exactly when nothing has been drained since it was dequeued.
-/

namespace BscTarget

/-- The generation counters follow the history, and whatever was drained since the last dequeue
began a new burst. -/
structure Fresh (s : Sys) : Prop where
  ready : s.bsc.readyGpio = true
  latest : Latest s
  request : s.bsc.requestGeneration = UInt64.ofNat (starts s.log)
  worker : s.bsc.workerGeneration = UInt64.ofNat (startsTaken s.log)
  since : drainedSinceTake s.log = true ↔ startsTaken s.log < starts s.log
  clean : drainedSinceTake s.log = false → s.bsc.rxWorkLen = 0 ∧ s.bsc.rxOverflowed = false
  queued : s.bsc.rxCount ≠ 0 → drainedSinceTake s.log = true

namespace Fresh

variable {s t : Sys}

/-- The story of a burst that begins. -/
theorem drainByte_story (s : Sys) :
    drainedSinceTake (drainByte s).log = true ∧ startsTaken (drainByte s).log = startsTaken s.log ∧
    (drainByte s).bsc.workerGeneration = s.bsc.workerGeneration ∧
    ((s.bsc.rxWorkLen = 0 ∧ s.bsc.rxOverflowed = false ∧
        starts (drainByte s).log = starts s.log + 1 ∧
        (drainByte s).bsc.requestGeneration = s.bsc.requestGeneration + 1) ∨
      (¬ (s.bsc.rxWorkLen = 0 ∧ s.bsc.rxOverflowed = false) ∧
        starts (drainByte s).log = starts s.log ∧
        (drainByte s).bsc.requestGeneration = s.bsc.requestGeneration)) := by
  rcases drainByte_cases s with ⟨hl, ho, -, -, h⟩ | ⟨hl, ho, -, h⟩ | ⟨hw, -, h⟩ | ⟨hw, -, h⟩ <;>
    rw [h]
  · exact ⟨rfl, rfl, rfl, .inl ⟨hl, ho, rfl, rfl⟩⟩
  · exact ⟨rfl, rfl, rfl, .inl ⟨hl, ho, rfl, rfl⟩⟩
  · exact ⟨rfl, rfl, rfl, .inr ⟨hw, rfl, rfl⟩⟩
  · exact ⟨rfl, rfl, rfl, .inr ⟨hw, rfl, rfl⟩⟩

theorem drainByte (hl : Latest (drainByte s)) (hr : (drainByte s).bsc.readyGpio = true)
    (hi : Fresh s) : Fresh (drainByte s) := by
  obtain ⟨hsince, htaken, hworker, hbegan⟩ := drainByte_story s
  have hclean : drainedSinceTake (BscTarget.drainByte s).log = false →
      (BscTarget.drainByte s).bsc.rxWorkLen = 0 ∧
        (BscTarget.drainByte s).bsc.rxOverflowed = false := fun h => by
    rw [hsince] at h
    cases h
  rcases hbegan with ⟨-, -, hs, hg⟩ | ⟨hw, hs, hg⟩
  · refine ⟨hr, hl, ?_, by rw [hworker, htaken, hi.worker], ?_, hclean, fun _ => hsince⟩
    · rw [hg, hs, hi.request, UInt64.ofNat_add]
      rfl
    · have hle := startsTaken_le s.log
      exact ⟨fun _ => by omega, fun _ => hsince⟩
  · -- The burst has bytes already, all of them drained behind the last dequeue.
    have hold : drainedSinceTake s.log = true := by
      by_contra hnot
      exact hw (hi.clean (by simpa using hnot))
    have hlt := hi.since.mp hold
    refine ⟨hr, hl, by rw [hg, hs, hi.request], by rw [hworker, htaken, hi.worker], ?_, hclean,
      fun _ => hsince⟩
    exact ⟨fun _ => by omega, fun _ => hsince⟩

theorem finishBurst_story (s : Sys) :
    drainedSinceTake (finishBurst s).log = drainedSinceTake s.log ∧
    startsTaken (finishBurst s).log = startsTaken s.log ∧
    starts (finishBurst s).log = starts s.log ∧
    (finishBurst s).bsc.workerGeneration = s.bsc.workerGeneration ∧
    (finishBurst s).bsc.requestGeneration = s.bsc.requestGeneration := by
  have ha : drainedSinceTake (acknowledged s).log = drainedSinceTake s.log ∧
      startsTaken (acknowledged s).log = startsTaken s.log ∧
      starts (acknowledged s).log = starts s.log ∧
      (acknowledged s).bsc.workerGeneration = s.bsc.workerGeneration ∧
      (acknowledged s).bsc.requestGeneration = s.bsc.requestGeneration := by
    unfold acknowledged
    split_ifs <;> exact ⟨rfl, rfl, rfl, rfl, rfl⟩
  rcases finishBurst_cases s with ⟨-, h⟩ | ⟨-, -, h⟩ | ⟨-, -, h⟩ <;> rw [h] <;> exact ha

theorem finishBurst (hl : Latest (finishBurst s)) (hr : (finishBurst s).bsc.readyGpio = true)
    (hw : ¬ (s.bsc.rxWorkLen = 0 ∧ s.bsc.rxOverflowed = false)) (hi : Fresh s) :
    Fresh (finishBurst s) := by
  obtain ⟨hsince, htaken, hs, hworker, hrequest⟩ := finishBurst_story s
  have hold : drainedSinceTake s.log = true := by
    by_contra hnot
    exact hw (hi.clean (by simpa using hnot))
  exact ⟨hr, hl, by rw [hrequest, hs, hi.request], by rw [hworker, htaken, hi.worker],
    by rw [hsince, htaken, hs]; exact hi.since, fun _ => work_finishBurst s,
    fun _ => by rw [hsince, hold]⟩

theorem dequeue {fault : Bool} (hl : Latest (dequeue fault s)) (hc : s.bsc.rxCount ≠ 0)
    (hi : Fresh s) : Fresh (dequeue fault s) := by
  have hone := hi.latest.count hi.ready
  refine ⟨hi.ready, hl, hi.request, hi.request, ?_, fun _ => hi.latest.alone hi.ready hc, ?_⟩
  · simp [BscTarget.dequeue, drainedSinceTake, startsTaken, starts]
  · intro hc'
    have hc'' : s.bsc.rxCount - 1 ≠ 0 := hc'
    omega

theorem of_same (hl : Latest t) (h : SameReceive s t) (hi : Fresh s) : Fresh t where
  ready := by rw [h.ready, hi.ready]
  latest := hl
  request := by rw [h.request, h.story.starts, hi.request]
  worker := by rw [h.worker, h.story.startsTaken, hi.worker]
  since := by rw [h.story.drainedSinceTake, h.story.startsTaken, h.story.starts]; exact hi.since
  clean := by rw [h.story.drainedSinceTake, h.len, h.overflow]; exact hi.clean
  queued := by rw [h.story.drainedSinceTake, h.count]; exact hi.queued

theorem bus (e : HwEvent) (hl : Latest (s.bus e)) (hi : Fresh s) : Fresh (s.bus e) := by
  have h := story_bus s e
  have hb := Sys.bus_bsc s e
  exact ⟨by rw [hb, hi.ready], hl, by rw [hb, h.starts, hi.request],
    by rw [hb, h.startsTaken, hi.worker],
    by rw [h.drainedSinceTake, h.startsTaken, h.starts]; exact hi.since,
    by rw [hb, h.drainedSinceTake]; exact hi.clean,
    by rw [hb, h.drainedSinceTake]; exact hi.queued⟩

theorem micro (h : Micro s t) (hi : Fresh s) : Fresh t := by
  have hl := hi.latest.micro h
  have hr : t.bsc.readyGpio = true := by rw [h.readyGpio, hi.ready]
  rcases h.receive with h | ⟨e, rfl⟩ | ⟨-, rfl⟩ | ⟨-, -, hw, rfl⟩ | ⟨hc, fault, rfl⟩
  · exact hi.of_same hl h
  · exact hi.bus e hl
  · exact hi.drainByte hl hr
  · exact hi.finishBurst hl hr hw
  · exact hi.dequeue hl hc

theorem cleared (hr : s.bsc.readyGpio = true) : Fresh (cleared s) := by
  have hl := Latest.cleared s
  rw [cleared_wired hr] at hl ⊢
  exact ⟨hr, hl, rfl, rfl, by simp [drainedSinceTake, starts, startsTaken], fun _ => ⟨rfl, rfl⟩,
    fun hc => absurd rfl hc⟩

/-! ## Before the counters wrap -/

/-- Before the counters wrap, equal generations mean that nothing was drained since the
dequeue. -/
theorem generation_eq_iff (hi : Fresh s) (hwrap : starts s.log < 2 ^ 64) :
    s.bsc.workerGeneration = s.bsc.requestGeneration ↔ drainedSinceTake s.log = false := by
  have hle := startsTaken_le s.log
  rw [hi.worker, hi.request, ← UInt64.toNat_inj, UInt64.toNat_ofNat', UInt64.toNat_ofNat',
    Nat.mod_eq_of_lt (by omega), Nat.mod_eq_of_lt hwrap, ← Bool.not_eq_true, hi.since]
  omega

/-- The test of `bsc_publish_response_locked` before its FR read. -/
theorem stale_iff (hi : Fresh s) (hwrap : starts s.log < 2 ^ 64) :
    (s.bsc.workerGeneration ≠ s.bsc.requestGeneration ∨ s.bsc.rxWorkLen ≠ 0) ↔
      drainedSinceTake s.log = true := by
  rw [Ne, hi.generation_eq_iff hwrap, Bool.not_eq_false]
  constructor
  · rintro (h | h)
    · exact h
    · by_contra hnot
      exact h (hi.clean (by simpa using hnot)).1
  · exact .inl

/-- An owner of the latest request finds no other one queued. -/
theorem rxCount_of_owns (hi : Fresh s) (hwrap : starts s.log < 2 ^ 64) (ho : Owns s) :
    drainedSinceTake s.log = false ∧ s.bsc.rxCount = 0 := by
  have hfresh := (hi.generation_eq_iff hwrap).mp ho.generation
  refine ⟨hfresh, ?_⟩
  by_contra hc
  rw [hi.queued hc] at hfresh
  cases hfresh

end Fresh

end BscTarget
