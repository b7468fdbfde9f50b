import BscTarget.Driver.Run

/-!
# Nothing depends on the history

States that differ in their histories only are taken by a service pass to such states again.
-/

namespace BscTarget

/-- `t` is `s` but for the history. -/
structure SameState (s t : Sys) : Prop where
  bsc : t.bsc = s.bsc
  hw : t.hw = s.hw
  env : t.env = s.env

namespace SameState

variable {s t u : Sys}

theorem refl (s : Sys) : SameState s s := ⟨rfl, rfl, rfl⟩

theorem trans (h : SameState s t) (h' : SameState t u) : SameState s u :=
  ⟨h'.bsc.trans h.bsc, h'.hw.trans h.hw, h'.env.trans h.env⟩

theorem note (s : Sys) (e : Event) : SameState s (s.note e) := ⟨rfl, rfl, rfl⟩

/-- What has the same effect whatever the history, keeps such states together. -/
theorem of_log {f : Sys → Sys} (hf : ∀ s log, SameState (f s) (f { s with log := log }))
    (h : SameState s t) : SameState (f s) (f t) := by
  obtain ⟨b, hw, env, log⟩ := t
  obtain ⟨rfl, rfl, rfl⟩ := h
  exact hf s log

theorem ite {s' t' : Sys} {p q : Prop} [Decidable p] [Decidable q] (hpq : q ↔ p)
    (hpos : SameState s t) (hneg : SameState s' t') :
    SameState (if p then s else s') (if q then t else t') := by
  by_cases hp : p
  · rw [if_pos hp, if_pos (hpq.mpr hp)]
    exact hpos
  · rw [if_neg hp, if_neg (fun hq => hp (hpq.mp hq))]
    exact hneg

theorem bus (h : SameState s t) (e : HwEvent) : SameState (s.bus e) (t.bus e) := by
  refine of_log (f := fun s => s.bus e) (fun s log => ?_) h
  cases e with
  | busy on => exact ⟨rfl, rfl, rfl⟩
  | byte b =>
    simp only [Sys.bus]
    split_ifs <;> exact ⟨rfl, rfl, rfl⟩
  | clock =>
    simp only [Sys.bus]
    split <;> exact ⟨rfl, rfl, rfl⟩

theorem foldl_bus (h : SameState s t) (batch : List HwEvent) :
    SameState (batch.foldl Sys.bus s) (batch.foldl Sys.bus t) := by
  induction batch generalizing s t with
  | nil => exact h
  | cons e batch ih => exact ih (h.bus e)

theorem tick (h : SameState s t) : SameState s.tick t.tick := by
  unfold Sys.tick
  rw [h.env]
  split
  · exact h
  · next batch rest _ =>
    have hpast : SameState { s with env := rest } { t with env := rest } := ⟨h.bsc, h.hw, rfl⟩
    exact hpast.foldl_bus batch

theorem write (h : SameState s t) (reg : Reg) (value : UInt32) :
    SameState (bscWrite reg value s) (bscWrite reg value t) :=
  ⟨h.tick.bsc, congrArg (fun hw : Hw => hw.write value reg) h.tick.hw, h.tick.env⟩

theorem setInterrupts (h : SameState s t) :
    SameState (bscSetInterruptsLocked s) (bscSetInterruptsLocked t) := by
  unfold bscSetInterruptsLocked
  rw [h.bsc]
  exact h.write .IMSC _

/-! ### Passes -/

theorem readStatus (h : SameState s t) : SameState (readStatus s) (readStatus t) := by
  have hcount : SameState (countStatus s.tick) (countStatus t.tick) :=
    of_log (f := countStatus) (fun _ _ => ⟨rfl, rfl, rfl⟩) h.tick
  exact ite (by rw [h.tick.hw]) (hcount.write .RSR 0) hcount

theorem drainByte (h : SameState s t) : SameState (drainByte s) (drainByte t) := by
  refine of_log (fun s log => ?_) h
  unfold BscTarget.drainByte storeByte beginBurst
  dsimp only
  split_ifs <;> exact ⟨rfl, rfl, rfl⟩

theorem drainLoop (h : SameState s t) (fuel : ℕ) :
    SameState (drainLoop fuel s) (drainLoop fuel t) := by
  induction fuel generalizing s t with
  | zero => exact h
  | succ fuel ih => exact ite (by rw [h.tick.hw]) h.tick (ih h.tick.tick.drainByte)

theorem drain (h : SameState s t) : SameState (bscDrainRxLocked s) (bscDrainRxLocked t) := by
  have hinbound : t.inbound = s.inbound := by rw [Sys.inbound, Sys.inbound, h.hw, h.env]
  unfold bscDrainRxLocked
  rw [hinbound]
  exact h.drainLoop _

theorem setReady (h : SameState s t) (level : Bool) :
    SameState (bscSetReady level s) (bscSetReady level t) := by
  refine of_log (f := bscSetReady level) (fun s log => ?_) h
  exact ite Iff.rfl ⟨rfl, rfl, rfl⟩ ⟨rfl, rfl, rfl⟩

theorem outcome (h : SameState s t) :
    SameState (if s.bsc.rxOverflowed then dropBurst s else publishRecord (evictOldest s))
      (if t.bsc.rxOverflowed then dropBurst t else publishRecord (evictOldest t)) := by
  have hevicted : SameState (evictOldest s) (evictOldest t) :=
    of_log (fun _ _ => ite Iff.rfl ⟨rfl, rfl, rfl⟩ ⟨rfl, rfl, rfl⟩) h
  refine ite (by rw [h.bsc]) ?_ ?_
  · exact of_log (f := dropBurst) (fun _ _ => ⟨rfl, rfl, rfl⟩) h
  · exact of_log (f := publishRecord) (fun _ _ => ⟨rfl, rfl, rfl⟩) hevicted

theorem finishBurst (h : SameState s t) : SameState (finishBurst s) (finishBurst t) := by
  have hdropped : SameState { s with bsc.txLen := 0, bsc.txLoaded := 0 }
      { t with bsc.txLen := 0, bsc.txLoaded := 0 } := ⟨by rw [h.bsc], h.hw, h.env⟩
  have hready := (hdropped.setReady true).setReady false
  have hack : SameState
      (if s.bsc.readyGpio then
        bscAckRequestLocked { s with bsc.txLen := 0, bsc.txLoaded := 0 } else s)
      (if t.bsc.readyGpio then
        bscAckRequestLocked { t with bsc.txLen := 0, bsc.txLoaded := 0 } else t) :=
    ite (by rw [h.bsc]) ⟨hready.bsc, hready.hw, hready.env⟩ h
  exact ⟨by rw [BscTarget.finishBurst, BscTarget.finishBurst, hack.outcome.bsc], hack.outcome.hw,
    hack.outcome.env⟩

theorem finish (h : SameState s t) : SameState (bscFinishRxLocked s) (bscFinishRxLocked t) :=
  ite (by rw [h.bsc]) h h.finishBurst

theorem loadByte (h : SameState s t) : SameState (loadByte s) (loadByte t) := by
  have hw := h.write .DR (s.bsc.txData s.bsc.txLoaded).toUInt32
  unfold BscTarget.loadByte
  dsimp only
  rw [h.bsc]
  exact ⟨by rw [hw.bsc], hw.hw, hw.env⟩

theorem refillLoop (h : SameState s t) (fuel : ℕ) :
    SameState (refillLoop fuel s) (refillLoop fuel t) := by
  induction fuel generalizing s t with
  | zero => exact h
  | succ fuel ih =>
    refine ite (by rw [h.bsc]) (ite (by rw [h.tick.hw]) h.tick ?_) h
    exact ih h.tick.loadByte

theorem refill (h : SameState s t) : SameState (bscRefillTxLocked s) (bscRefillTxLocked t) := by
  unfold bscRefillTxLocked
  rw [h.bsc]
  exact (h.refillLoop _).setInterrupts

theorem service (h : SameState s t) : SameState (bscServiceLocked s) (bscServiceLocked t) := by
  have hd := h.readStatus.drain.tick
  exact (ite (by rw [hd.hw]) hd.finish hd).refill

end SameState

end BscTarget
