import BscTarget.Driver.Lifecycle

/-!
# Bounds of the buffers

`Bounded` is what every section of the driver keeps of its buffers: the lengths it works with do
not exceed the arrays they belong to. The drain bounds the burst, `write` the response, and the
slots of the ring inherit their bounds from the burst.
-/

namespace BscTarget

/-- An occupied slot has bytes, and no more than it can hold. -/
def BscRxSlot.Fits (slot : BscRxSlot) : Prop := 1 ≤ slot.len ∧ slot.len ≤ bscMaxTransfer

/-- The lengths that the driver works with, against the sizes of its buffers. -/
structure Bounded (b : Bsc) : Prop where
  work : b.rxWorkLen ≤ bscMaxTransfer
  overflow : b.rxOverflowed = true → b.rxWorkLen = bscMaxTransfer
  ring : Ring.Holds BscRxSlot.Fits bscRxSlots b.rxSlots b.rxHead b.rxTail b.rxCount
  loaded : b.txLoaded ≤ b.txLen
  len : b.txLen ≤ bscMaxTransfer
  queued : b.txQueued = true → 1 ≤ b.txLen
  /-- The first byte of a burst withdrew the response that was queued. -/
  withdrawn : b.rxWorkLen ≠ 0 → b.txQueued = false

namespace Bounded

variable {s t : Sys} {b : Bsc}

/-- Cleared fields are within any bounds. -/
theorem resetIo (b : Bsc) : Bounded b.resetIo where
  work := Nat.zero_le _
  overflow := nofun
  ring := .empty (by decide) _
  loaded := Nat.le_refl 0
  len := Nat.zero_le _
  queued := nofun
  withdrawn := fun _ => rfl

/-- A burst that has begun has bytes, also where it overflowed. -/
theorem rxWorkLen_ne_zero (hi : Bounded b)
    (hw : ¬ (b.rxWorkLen = 0 ∧ b.rxOverflowed = false)) : b.rxWorkLen ≠ 0 := by
  intro hl
  have ho : b.rxOverflowed = true := by simpa using fun h => hw ⟨hl, h⟩
  have hmax := hi.overflow ho
  rw [hl] at hmax
  cases hmax

/-! ## Reception -/

theorem drainByte (hi : Bounded s.bsc) : Bounded (drainByte s).bsc := by
  rcases drainByte_cases s with ⟨-, ho, -, -, h⟩ | ⟨-, ho, -, h⟩ | ⟨hw, hl, h⟩ | ⟨hw, hl, h⟩ <;>
    rw [h]
  · exact { hi with
      work := (by decide : 1 ≤ bscMaxTransfer)
      overflow := fun h => absurd h (ne_true_of_eq_false ho)
      ring := .empty (by decide) _
      queued := nofun
      withdrawn := fun _ => rfl }
  · exact { hi with
      work := (by decide : 1 ≤ bscMaxTransfer)
      overflow := fun h => absurd h (ne_true_of_eq_false ho)
      queued := nofun
      withdrawn := fun _ => rfl }
  · exact { hi with
      work := hl
      overflow := fun h => absurd (hi.overflow h) (Nat.ne_of_lt hl)
      withdrawn := fun _ => hi.withdrawn (hi.rxWorkLen_ne_zero hw) }
  · exact { hi with overflow := fun _ => Nat.le_antisymm hi.work hl }

/-- With READY the end of a burst empties the transmit buffer, from which nothing is queued. -/
theorem acknowledged (hi : Bounded s.bsc) (hw : s.bsc.rxWorkLen ≠ 0) :
    Bounded (acknowledged s).bsc := by
  have hq := hi.withdrawn hw
  unfold BscTarget.acknowledged
  split_ifs
  · exact { hi with
      loaded := Nat.le_refl 0
      len := Nat.zero_le _
      queued := fun h => absurd h (ne_true_of_eq_false hq) }
  · exact hi

/-- What a burst that has begun leaves in a slot fits it. -/
theorem filledSlot_fits (hi : Bounded b) (hw : b.rxWorkLen ≠ 0) : (filledSlot b).Fits :=
  ⟨Nat.one_le_iff_ne_zero.mpr hw, hi.work⟩

theorem finishBurst (hi : Bounded s.bsc)
    (hw : ¬ (s.bsc.rxWorkLen = 0 ∧ s.bsc.rxOverflowed = false)) :
    Bounded (finishBurst s).bsc := by
  have hne := hi.rxWorkLen_ne_zero hw
  have ha := hi.acknowledged hne
  obtain ⟨-, -, -, hcount⟩ := acknowledged_bsc s
  have hlen : (BscTarget.acknowledged s).bsc.rxWorkLen = s.bsc.rxWorkLen := by
    unfold BscTarget.acknowledged
    split_ifs <;> rfl
  have hfits := ha.filledSlot_fits (hlen ▸ hne)
  rcases finishBurst_cases s with ⟨-, h⟩ | ⟨-, hc, h⟩ | ⟨-, hc, h⟩ <;> rw [h]
  · exact { ha with
      work := Nat.zero_le _
      overflow := nofun
      withdrawn := fun h => absurd rfl h }
  · have hfull : (BscTarget.acknowledged s).bsc.rxCount = bscRxSlots := hcount.trans hc
    refine { ha with
      work := Nat.zero_le _
      overflow := nofun
      ring := (ha.ring.advance ?_).store ?_ hfits
      withdrawn := fun h => absurd rfl h }
    · rw [hfull]
      decide
    · rw [hfull]
      decide
  · have hroom : (BscTarget.acknowledged s).bsc.rxCount < bscRxSlots :=
      Nat.lt_of_le_of_ne ha.ring.count_le (hcount ▸ hc)
    exact { ha with
      work := Nat.zero_le _
      overflow := nofun
      ring := ha.ring.store hroom hfits
      withdrawn := fun h => absurd rfl h }

theorem dequeue (hi : Bounded s.bsc) (hc : s.bsc.rxCount ≠ 0) (fault : Bool) :
    Bounded (dequeue fault s).bsc :=
  { hi with ring := hi.ring.advance hc }

/-! ## Transmission -/

theorem putByte (hi : Bounded s.bsc) (hl : s.bsc.txLoaded < s.bsc.txLen) :
    Bounded (putByte s).bsc :=
  { hi with loaded := hl }

/-- A response is queued only where no burst is being assembled. -/
theorem queueData {data : Bytes} (hi : Bounded s.bsc) (hw : s.bsc.rxWorkLen = 0)
    (h₀ : data.length ≠ 0) (h₁ : data.length ≤ bscMaxTransfer) :
    Bounded (queueData data s).bsc :=
  { hi with
    loaded := Nat.zero_le _
    len := h₁
    queued := fun _ => Nat.one_le_iff_ne_zero.mpr h₀
    withdrawn := fun h => absurd hw h }

/-- Giving the transmit buffer up. -/
theorem recover (hi : Bounded s.bsc) :
    Bounded { s.bsc with txQueued := false, txLen := 0, txLoaded := 0 } :=
  { hi with
    loaded := Nat.le_refl 0
    len := Nat.zero_le _
    queued := nofun
    withdrawn := fun _ => rfl }

/-! ## Steps and runs -/

theorem fill (h : Fill s t) (hi : Bounded s.bsc) : Bounded t.bsc := by
  cases h with
  | quiet h =>
    rw [h.bsc]
    exact hi
  | load _ hl _ => exact hi.putByte hl

theorem pass (h : Pass s t) (hi : Bounded s.bsc) : Bounded t.bsc := by
  cases h with
  | fill h => exact hi.fill h
  | status => exact { hi with }
  | drain => exact hi.drainByte
  | finish _ _ hw => exact hi.finishBurst hw

theorem passes (h : Steps Pass s t) (hi : Bounded s.bsc) : Bounded t.bsc :=
  h.keep (P := fun s => Bounded s.bsc) pass hi

theorem micro (h : Micro s t) (hi : Bounded s.bsc) : Bounded t.bsc := by
  cases h with
  | tend h =>
    cases h with
    | pass h => exact hi.pass h
    | cr => exact hi
    | tally => exact { hi with }
    | take fault hc => exact hi.dequeue hc fault
    | recover => exact hi.recover
    | release =>
      rw [bscSetReady_bsc]
      exact { hi with }
  | ask => exact hi
  | refuse => exact hi
  | discard => exact { hi with }
  | publish data ho _ h₀ h₁ =>
    exact queueData { hi with } ho.work h₀ h₁
  | announce =>
    rw [announce, bscSetReady_bsc]
    exact { hi with }

theorem steps (h : Steps Micro s t) (hi : Bounded s.bsc) : Bounded t.bsc :=
  h.keep (P := fun s => Bounded s.bsc) micro hi

theorem bscDeactivate (hi : Bounded s.bsc) : Bounded (bscDeactivate s).bsc := by
  unfold BscTarget.bscDeactivate
  split_ifs
  · exact hi
  · rw [bscDisableLocked_bsc]
    exact resetIo _

theorem step {d : Device} (hi : Bounded d.sys.bsc) (a : Action) :
    Bounded (d.step a).sys.bsc := by
  rcases d.step_sys_cases a with h | ⟨env, h⟩ | ⟨c, h⟩ | h | ⟨-, h⟩ | ⟨-, h⟩ | h <;> rw [h]
  · exact hi
  · exact hi
  · exact hi.steps (exec_steps d.sys c)
  · exact { hi with }
  · rw [openSession_bsc]
    exact { resetIo d.sys.bsc with }
  · exact hi.bscDeactivate
  · exact bscDeactivate { hi with }

theorem probe (address : UInt32) (readyGpio : Bool) (hw : Hw) (env : List (List HwEvent)) :
    Bounded (Device.probe address readyGpio hw env).sys.bsc := by
  rw [Device.probe, bscDisableLocked_bsc]
  exact resetIo _

theorem run {d : Device} (hi : Bounded d.sys.bsc) (actions : List Action) :
    Bounded (d.run actions).sys.bsc :=
  Device.run_keep (P := fun d => Bounded d.sys.bsc) (fun _ a h => h.step a) hi actions

end Bounded

end BscTarget
