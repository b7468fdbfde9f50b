import BscTarget.Driver.Bounded
import BscTarget.Driver.Sanitized

/-!
# Safety of the driver's buffers

Within the bounds of `Bounded` no access leaves its array and every loop ends, so that the driver
on arrays of a fixed size does what the driver on unbounded ones does (`exec_ok`). Each section
keeps the bounds for the next one, whichever part of the driver relies on them there.
-/

namespace BscTarget

namespace Sanitized

open Checked

variable {s : Sys}

/-! ## Reception -/

/-- The store checks the length itself. -/
theorem storeByte_ok (byte : UInt8) (s : Sys) :
    storeByte byte s = .ok (BscTarget.storeByte byte s) := by
  unfold storeByte BscTarget.storeByte
  by_cases h : s.bsc.rxWorkLen < bscMaxTransfer
  · rw [if_pos h, if_pos h, store_of_lt h, ok_bind]
    rfl
  · rw [if_neg h, if_neg h]

theorem drainByte_ok (s : Sys) : drainByte s = .ok (BscTarget.drainByte s) := storeByte_ok _ _

/-- Fuel beyond the bytes to come suffices. -/
theorem drainLoop_ok : ∀ (fuel : ℕ) (s : Sys), s.inbound < fuel →
    drainLoop fuel s = .ok (BscTarget.drainLoop fuel s) := by
  intro fuel
  induction fuel with
  | zero => intro s h; omega
  | succ fuel ih =>
    intro s h
    unfold drainLoop BscTarget.drainLoop
    dsimp only
    by_cases hfe : s.tick.hw.fr.rxfe = true
    · rw [if_pos hfe, if_pos hfe]
    · have hlt := inbound_drainByte_lt (s := s) fun he => hfe ((rxfe_iff _).mpr he)
      rw [if_neg hfe, if_neg hfe, drainByte_ok, ok_bind]
      exact ih _ (by omega)

theorem bscDrainRxLocked_ok (s : Sys) :
    bscDrainRxLocked s = .ok (BscTarget.bscDrainRxLocked s) :=
  drainLoop_ok _ s (Nat.lt_succ_self _)

theorem publishRecord_ok (ht : s.bsc.rxTail < bscRxSlots) (hw : s.bsc.rxWorkLen ≤ bscMaxTransfer) :
    publishRecord s = .ok (BscTarget.publishRecord s) := by
  unfold publishRecord
  rw [fetch_of_lt ht, ok_bind, copy_of_le hw hw, ok_bind]
  dsimp only
  rw [store_of_lt ht, ok_bind]
  rfl

/-- Behind the last slot there is none to publish into. -/
example : publishRecord { bscProbe true with bsc.rxTail := bscRxSlots } = .error .bounds := rfl

/-- Making room moves neither the tail nor the burst. -/
theorem evictOldest_frame (s : Sys) :
    (evictOldest s).bsc.rxTail = s.bsc.rxTail ∧
      (evictOldest s).bsc.rxWorkLen = s.bsc.rxWorkLen := by
  unfold evictOldest
  split_ifs <;> exact ⟨rfl, rfl⟩

theorem settleBurst_ok (ht : s.bsc.rxTail < bscRxSlots) (hw : s.bsc.rxWorkLen ≤ bscMaxTransfer) :
    settleBurst s = .ok (if s.bsc.rxOverflowed then dropBurst s
      else BscTarget.publishRecord (evictOldest s)) := by
  obtain ⟨htail, hlen⟩ := evictOldest_frame s
  unfold settleBurst
  split_ifs
  · rfl
  · exact publishRecord_ok (htail ▸ ht) (hlen ▸ hw)

theorem bscFinishRxLocked_ok (hi : Bounded s.bsc) :
    bscFinishRxLocked s = .ok (BscTarget.bscFinishRxLocked s) := by
  unfold bscFinishRxLocked BscTarget.bscFinishRxLocked
  split_ifs with hw
  · rfl
  · have ha := hi.acknowledged (hi.rxWorkLen_ne_zero hw)
    unfold finishBurst BscTarget.finishBurst
    rw [acknowledged_eq]
    dsimp only
    rw [settleBurst_ok ha.ring.tail_lt ha.work, ok_bind]
    rfl

/-! ## Transmission -/

theorem loadByte_ok (h : s.bsc.txLoaded < bscMaxTransfer) :
    loadByte s = .ok (BscTarget.loadByte s) := by
  unfold loadByte
  rw [fetch_of_lt h, ok_bind]
  rfl

/-- One round more than there are bytes to load suffices. -/
theorem refillLoop_ok : ∀ (fuel : ℕ) (s : Sys), s.bsc.txLen ≤ bscMaxTransfer →
    s.bsc.txLen - s.bsc.txLoaded ≤ fuel →
    refillLoop (fuel + 1) s = .ok (BscTarget.refillLoop fuel s) := by
  intro fuel
  induction fuel with
  | zero =>
    intro s _ hf
    unfold refillLoop BscTarget.refillLoop
    rw [if_neg fun h => by omega]
  | succ fuel ih =>
    intro s hlen hf
    unfold refillLoop BscTarget.refillLoop
    dsimp only
    by_cases hc : s.bsc.txQueued = true ∧ s.bsc.txLoaded < s.bsc.txLen
    · rw [if_pos hc, if_pos hc]
      by_cases hff : s.tick.hw.fr.txff = true
      · rw [if_pos hff, if_pos hff]
      · have hlt := hc.2
        rw [if_neg hff, if_neg hff, loadByte_ok (by rw [Sys.tick_bsc]; omega), ok_bind]
        refine ih _ ?_ ?_
        · rw [loadByte_bsc, Sys.tick_bsc]
          exact hlen
        · rw [loadByte_bsc, Sys.tick_bsc]
          show s.bsc.txLen - (s.bsc.txLoaded + 1) ≤ fuel
          omega
    · rw [if_neg hc, if_neg hc]

theorem bscRefillTxLocked_ok (h : s.bsc.txLen ≤ bscMaxTransfer) :
    bscRefillTxLocked s = .ok (BscTarget.bscRefillTxLocked s) := by
  unfold bscRefillTxLocked
  rw [refillLoop_ok _ s h le_rfl, ok_bind]
  rfl

/-! ## Service passes -/

theorem finishIdle_ok (hi : Bounded s.bsc) :
    finishIdle s = .ok (if s.hw.fr.rxbusy = false ∧ s.hw.fr.rxfe = true then
      BscTarget.bscFinishRxLocked s else s) := by
  unfold finishIdle
  split_ifs
  · exact bscFinishRxLocked_ok hi
  · rfl

/-- A pass finds the bounds that it keeps. -/
theorem bscServiceLocked_ok (hi : Bounded s.bsc) :
    bscServiceLocked s = .ok (BscTarget.bscServiceLocked s) := by
  have hdrained : Bounded (BscTarget.bscDrainRxLocked (readStatus s)).tick.bsc := by
    rw [Sys.tick_bsc]
    exact hi.passes ((readStatus_steps s).trans (bscDrainRxLocked_steps _))
  unfold bscServiceLocked BscTarget.bscServiceLocked
  rw [bscDrainRxLocked_ok, ok_bind]
  dsimp only
  generalize (BscTarget.bscDrainRxLocked (readStatus s)).tick = u at hdrained ⊢
  rw [finishIdle_ok hdrained, ok_bind]
  split_ifs with h
  · exact bscRefillTxLocked_ok (hdrained.passes (bscFinishRxLocked_steps h.1 h.2)).len
  · exact bscRefillTxLocked_ok hdrained.len

theorem bscRecoverResponseLocked_ok (hi : Bounded s.bsc) :
    bscRecoverResponseLocked s = .ok (BscTarget.bscRecoverResponseLocked s) := by
  unfold bscRecoverResponseLocked BscTarget.bscRecoverResponseLocked
  rw [bscServiceLocked_ok hi, ok_bind]
  dsimp only
  split_ifs <;> rfl

theorem publishData_ok {data : Bytes} (h : data.length ≤ bscMaxTransfer) (s : Sys) :
    publishData data s =
      .ok (announce (BscTarget.bscRefillTxLocked (BscTarget.queueData data s)) data.length) := by
  have hqueue : queueData data s = .ok (BscTarget.queueData data s) := by
    unfold queueData
    rw [load_of_le h, ok_bind]
    rfl
  unfold publishData
  rw [hqueue, ok_bind, bscRefillTxLocked_ok h, ok_bind]
  rfl

theorem bscPublishResponseLocked_ok (hi : Bounded s.bsc) {data : Bytes}
    (h : data.length ≤ bscMaxTransfer) :
    bscPublishResponseLocked data s = .ok (BscTarget.bscPublishResponseLocked data s) := by
  unfold bscPublishResponseLocked BscTarget.bscPublishResponseLocked
  rw [bscServiceLocked_ok (s := s.note (.asked data)) hi, ok_bind]
  dsimp only
  split_ifs
  · rfl
  · rfl
  · rfl
  · rw [publishData_ok h, ok_bind]
    rfl

/-! ## Entry points -/

theorem bscIrq_ok (mis : UInt32) (hi : Bounded s.bsc) :
    bscIrq mis s = .ok (BscTarget.bscIrq mis s) := by
  unfold bscIrq BscTarget.bscIrq
  dsimp only
  split_ifs
  · rfl
  · have hb : Bounded { s with
        bsc.stats.interrupts := s.bsc.stats.interrupts + 1 }.bsc := { hi with }
    rw [bscServiceLocked_ok hb, ok_bind]
    rfl

theorem bscTimer_ok (hi : Bounded s.bsc) : bscTimer s = .ok (BscTarget.bscTimer s) := by
  unfold bscTimer BscTarget.bscTimer
  split_ifs
  · rfl
  · have hb : Bounded { s with
        bsc.stats.timerRuns := s.bsc.stats.timerRuns + 1 }.bsc := { hi with }
    exact bscServiceLocked_ok hb

/-- The head slot of a ring that is not empty is one whose length was bounded when it was filled. -/
theorem readHead_ok (hi : Bounded s.bsc) (hc : s.bsc.rxCount ≠ 0) (r : ReadArgs) :
    readHead r s = .ok (
      if r.count < (s.bsc.rxSlots s.bsc.rxHead).len then (.error .EMSGSIZE, s)
      else if r.fault then (.error .EFAULT, BscTarget.dequeue r.fault s)
      else (.record ((BscTarget.dequeue r.fault s).bsc.rxRead.read
        (s.bsc.rxSlots s.bsc.rxHead).len), BscTarget.dequeue r.fault s)) := by
  have hlen := (hi.ring.at_head hc).2
  unfold readHead
  rw [fetch_of_lt hi.ring.head_lt, ok_bind]
  split_ifs with hm hf
  · rfl
  all_goals
    unfold dequeue
    rw [copy_of_le hlen hlen, ok_bind, read_of_le hlen, ok_bind]
    simp only [hf]
    rfl

theorem bscReadMessage_ok (hi : Bounded s.bsc) (r : ReadArgs) :
    bscReadMessage r s = .ok (BscTarget.bscReadMessage r s) := by
  unfold bscReadMessage BscTarget.bscReadMessage
  dsimp only
  by_cases hc : s.bsc.rxCount = 0
  · rw [if_pos hc, if_pos hc]
    split_ifs <;> rfl
  · rw [if_neg hc, if_neg hc, readHead_ok hi hc]
    split_ifs <;> rfl

/-- `write` bounds the response before anything is copied. -/
theorem bscQueueResponse_ok (hi : Bounded s.bsc) (w : WriteArgs) :
    bscQueueResponse w s = .ok (BscTarget.bscQueueResponse w s) := by
  unfold bscQueueResponse BscTarget.bscQueueResponse
  split_ifs with h
  · rfl
  · rfl
  · rfl
  · rfl
  · exact bscPublishResponseLocked_ok hi (Nat.le_of_not_lt fun hlt => h (.inr hlt))

theorem bscIoctlRecover_ok (hi : Bounded s.bsc) :
    bscIoctlRecover s = .ok (BscTarget.bscIoctlRecover s) := by
  unfold bscIoctlRecover BscTarget.bscIoctlRecover
  split_ifs
  · rfl
  · exact bscRecoverResponseLocked_ok hi

theorem exec_ok (hi : Bounded s.bsc) (c : Call) : exec s c = .ok (BscTarget.exec s c) := by
  cases c with
  | irq mis => exact bscIrq_ok mis hi
  | timer => exact bscTimer_ok hi
  | read r =>
    rw [exec, bscReadMessage_ok hi, ok_bind]
    rfl
  | write w =>
    rw [exec, bscQueueResponse_ok hi, ok_bind]
    rfl
  | recover =>
    rw [exec, bscIoctlRecover_ok hi, ok_bind]
    rfl
  | bus e => rfl

/-! ## Runs -/

theorem step_ok {d : Device} (hi : Bounded d.sys.bsc) (a : Action) :
    step d a = .ok (d.step a) := by
  cases a with
  | call c =>
    rw [step, exec_ok hi, ok_bind]
    rfl
  | _ => rfl

/-- Every action keeps the bounds that the next one needs. -/
theorem run_ok {d : Device} (hi : Bounded d.sys.bsc) (actions : List Action) :
    run d actions = .ok (d.run actions) := by
  unfold run
  induction actions generalizing d with
  | nil => rfl
  | cons a actions ih =>
    rw [List.foldlM_cons, step_ok hi, ok_bind]
    exact ih (hi.step a)

end Sanitized

/-- No record is longer than a buffer of the maximal size. -/
theorem Bounded.read_fits {s : Sys} (hi : Bounded s.bsc) {r : ReadArgs}
    (h : bscMaxTransfer ≤ r.count) : (bscReadMessage r s).1 ≠ .error .EMSGSIZE := by
  unfold bscReadMessage
  dsimp only
  by_cases hc : s.bsc.rxCount = 0
  · rw [if_pos hc]
    split_ifs <;> nofun
  · have hlen := (hi.ring.at_head hc).2
    rw [if_neg hc, if_neg (Nat.not_lt.mpr (hlen.trans h))]
    split_ifs <;> nofun

namespace Device

/-- In every reachable state the lengths of the buffers are within their bounds, nothing that
happens from there on accesses an array outside of it, and a buffer of the maximal size takes any
record. -/
theorem buffers_bounded (address : UInt32) (readyGpio : Bool) (hw : Hw)
    (env : List (List HwEvent)) (actions : List Action) :
    let d := (probe address readyGpio hw env).run actions
    Bounded d.sys.bsc ∧ (∀ later, Sanitized.run d later = .ok (d.run later)) ∧
      ∀ r : ReadArgs, bscMaxTransfer ≤ r.count → (bscReadMessage r d.sys).1 ≠ .error .EMSGSIZE := by
  intro d
  have hi : Bounded d.sys.bsc := (Bounded.probe address readyGpio hw env).run actions
  exact ⟨hi, Sanitized.run_ok hi, fun _ => hi.read_fits⟩

/-- A record that waits for its worker. -/
theorem buffers_bounded_waiting :
    (bscReadMessage ⟨8192, true, false, false, false⟩ ((probe 0x13 true .reset []).run
      [.openClaim 0, .openSection 0 none, .call (.bus (.byte 7)), .call .timer]).sys).1 ≠
        .error .EMSGSIZE :=
  (buffers_bounded 0x13 true .reset [] _).2.2 _ (by decide)

end Device

end BscTarget
