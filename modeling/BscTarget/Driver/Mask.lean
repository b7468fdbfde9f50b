import BscTarget.Driver.Lifecycle

/-!
# The interrupt mask and the refill

At every lock release IMSC enables the TX interrupt exactly while bytes of a queued response are
left to load (`Masked`), and such bytes are left only where the last FR read of the refill showed
a full TX FIFO.
-/

namespace BscTarget

/-- Bytes of a queued response are left to load. -/
def Bsc.Unloaded (b : Bsc) : Prop := b.txQueued = true ∧ b.txLoaded < b.txLen

/-- IMSC is what `bsc_set_interrupts_locked` would write now. -/
def Masked (s : Sys) : Prop := s.hw.imsc = s.bsc.interruptMask

/-! ## The mask -/

/-- The part of the driver's state that decides on the mask. -/
def Bsc.transmit (b : Bsc) : Bool × ℕ × ℕ := (b.txQueued, b.txLoaded, b.txLen)

theorem interruptMask_congr {b b' : Bsc} (h : b'.transmit = b.transmit) :
    b'.interruptMask = b.interruptMask := by
  simp only [Bsc.transmit, Prod.mk.injEq] at h
  rw [Bsc.interruptMask, Bsc.interruptMask, h.1, h.2.1, h.2.2]

/-- The mask enables the TX interrupt while bytes are left to load, and no longer. -/
theorem interruptMask_tx (b : Bsc) : b.interruptMask &&& irqTx ≠ 0 ↔ b.Unloaded := by
  unfold Bsc.interruptMask Bsc.Unloaded
  split_ifs with h
  · exact ⟨fun _ => h, fun _ => by decide⟩
  · exact ⟨fun h' => absurd rfl h', fun h' => absurd h' h⟩

namespace Masked

variable {s t : Sys}

theorem congr (h : Masked s) (hc : t.hw.controls.imsc = s.hw.controls.imsc)
    (hb : t.bsc.transmit = s.bsc.transmit) : Masked t :=
  hc.trans (h.trans (interruptMask_congr hb).symm)

theorem tick (h : Masked s) : Masked s.tick :=
  h.congr (by rw [controls_tick]) (by rw [Sys.tick_bsc])

theorem write (h : Masked s) {reg : Reg} (value : UInt32) (hr : reg ≠ .IMSC) :
    Masked (bscWrite reg value s) := by
  refine h.congr ?_ (by rw [bscWrite_bsc])
  rw [controls_bscWrite]
  cases reg with
  | IMSC => exact absurd rfl hr
  | _ => rfl

theorem setReady (h : Masked s) (level : Bool) : Masked (bscSetReady level s) := by
  unfold bscSetReady
  split_ifs
  · exact h
  · exact h

theorem note (h : Masked s) (e : Event) : Masked (s.note e) := h

theorem discard (h : Masked s) : Masked (discardData { s with bsc.workerPending := false }) :=
  h.congr rfl rfl

theorem announce (h : Masked s) (count : ℕ) : Masked (announce s count) := by
  have ht : Masked { s with
      bsc.stats.txTransactions := s.bsc.stats.txTransactions + 1
      bsc.stats.txBytes := s.bsc.stats.txBytes + count } := h.congr rfl rfl
  exact ht.setReady true

end Masked

theorem masked_bscSetInterruptsLocked (s : Sys) : Masked (bscSetInterruptsLocked s) := by
  have hc := congrArg Controls.imsc (controls_bscSetInterruptsLocked s)
  refine hc.trans (interruptMask_congr ?_)
  rw [bscSetInterruptsLocked, bscWrite_bsc]

/-- The last thing a pass does is to set the mask. -/
theorem masked_bscServiceLocked (s : Sys) : Masked (bscServiceLocked s) :=
  masked_bscSetInterruptsLocked _

theorem masked_bscConfigureLocked (s : Sys) : Masked (bscConfigureLocked s) :=
  masked_bscSetInterruptsLocked _

theorem masked_bscPublishResponseLocked (data : Bytes) (s : Sys) :
    Masked (bscPublishResponseLocked data s).2 := by
  have hm : Masked (beforeDecision data s) := masked_bscServiceLocked _
  rcases bscPublishResponseLocked_cases data s with
    ⟨-, h⟩ | ⟨-, -, h⟩ | ⟨-, -, -, h⟩ | ⟨-, -, -, -, -, h⟩ | ⟨-, h⟩ <;> rw [h]
  · exact hm.note _
  · exact hm.note _
  · exact hm.discard
  · exact hm.tick.discard
  · exact Masked.announce (masked_bscSetInterruptsLocked _) _

theorem masked_grantRecovery (s : Sys) : Masked (grantRecovery s) := by
  have hc := masked_bscConfigureLocked { s with
    bsc.txQueued := false, bsc.txLen := 0, bsc.txLoaded := 0
    log := .recovered s.hw.fr :: s.log }
  have hn : ∀ {t : Sys} (n : ℕ), Masked t → Masked { t with bsc.recoveries := n } :=
    fun _ ht => ht.congr rfl rfl
  exact (hn _ hc).setReady false

theorem masked_bscRecoverResponseLocked (s : Sys) : Masked (bscRecoverResponseLocked s).2 := by
  have hm := masked_bscServiceLocked s
  rcases bscRecoverResponseLocked_cases s with ⟨-, h⟩ | ⟨-, -, -, h⟩ | ⟨-, -, -, h⟩ | ⟨-, h⟩ <;>
    rw [h]
  · exact hm
  · exact hm
  · exact hm.tick
  · exact masked_grantRecovery _

/-- Every lock section leaves the mask right. -/
theorem Masked.exec {s : Sys} (h : Masked s) (c : Call) : Masked (exec s c) := by
  cases c with
  | irq mis =>
    simp only [BscTarget.exec, bscIrq]
    split_ifs
    · exact h
    · exact (masked_bscServiceLocked _).write _ (by simp)
  | timer =>
    simp only [BscTarget.exec, bscTimer]
    split_ifs
    · exact h
    · exact masked_bscServiceLocked _
  | read r =>
    simp only [BscTarget.exec, bscReadMessage]
    split_ifs <;> exact h
  | write w =>
    simp only [BscTarget.exec, bscQueueResponse]
    split_ifs
    all_goals first | exact h | exact masked_bscPublishResponseLocked _ _
  | recover =>
    simp only [BscTarget.exec, bscIoctlRecover]
    split_ifs
    · exact h
    · exact masked_bscRecoverResponseLocked s
  | bus e =>
    exact h.congr (by rw [BscTarget.exec, controls_bus]) (by rw [BscTarget.exec, Sys.bus_bsc])

namespace Device

variable {d : Device}

theorem masked_step (h : d.sys.bsc.active = true → Masked d.sys) (a : Action)
    (ha : (d.step a).sys.bsc.active = true) : Masked (d.step a).sys := by
  rcases step_sys_cases d a with h' | ⟨env, h'⟩ | ⟨c, h'⟩ | h' | ⟨-, h'⟩ | ⟨-, h'⟩ | h' <;>
    rw [h'] at ha ⊢
  · exact h ha
  · exact (h ha).congr rfl rfl
  · exact (h ((active_exec d.sys c).symm.trans ha)).exec c
  · exact (h ha).congr rfl rfl
  · exact masked_bscConfigureLocked _
  · exact absurd (bscDeactivate_active _) (ne_false_of_eq_true ha)
  · exact absurd (bscDeactivate_active _) (ne_false_of_eq_true ha)

/-- A session is opened with the right mask, and no action spoils it. -/
theorem masked_run (h : d.sys.bsc.active = true → Masked d.sys) (actions : List Action) :
    (d.run actions).sys.bsc.active = true → Masked (d.run actions).sys :=
  run_keep (P := fun d => d.sys.bsc.active = true → Masked d.sys) (fun _ a h => masked_step h a) h
    actions

end Device

/-! ## What a pass reads from FR -/

/-- The values that the drain loop reads, in order. -/
def drainReads : ℕ → Sys → List Fr
  | 0, _ => []
  | fuel + 1, s =>
    let s := s.tick
    s.hw.fr :: if s.hw.fr.rxfe then [] else drainReads fuel (drainByte s.tick)

/-- The values that the refill loop reads, in order. -/
def refillReads : ℕ → Sys → List Fr
  | 0, _ => []
  | fuel + 1, s =>
    if s.bsc.txQueued = true ∧ s.bsc.txLoaded < s.bsc.txLen then
      let s := s.tick
      s.hw.fr :: if s.hw.fr.txff then [] else refillReads fuel (loadByte s)
    else []

/-- The values that a service pass reads. -/
def serviceReads (s : Sys) : List Fr :=
  let s := readStatus s
  let t := (bscDrainRxLocked s).tick
  let u := if t.hw.fr.rxbusy = false ∧ t.hw.fr.rxfe = true then bscFinishRxLocked t else t
  drainReads (s.inbound + 1) s ++ t.hw.fr :: refillReads (u.bsc.txLen - u.bsc.txLoaded) u

/-- The values that a publication reads behind its service pass. -/
def publicationReads (data : Bytes) (s : Sys) : List Fr :=
  let s := s.tick
  let t := queueData data { s with bsc.workerPending := false }
  s.hw.fr :: refillReads (t.bsc.txLen - t.bsc.txLoaded) t

/-- The refill loop leaves bytes behind only where the value it read last showed a full FIFO. -/
theorem getLast_refillReads (n : ℕ) {s : Sys} (hn : s.bsc.txLen - s.bsc.txLoaded ≤ n)
    (h : (refillLoop n s).bsc.Unloaded) :
    ∃ fr, (refillReads n s).getLast? = some fr ∧ fr.txff = true := by
  induction n generalizing s with
  | zero =>
    have hlt : s.bsc.txLoaded < s.bsc.txLen := h.2
    omega
  | succ n ih =>
    by_cases hc : s.bsc.txQueued = true ∧ s.bsc.txLoaded < s.bsc.txLen
    · by_cases hf : s.tick.hw.fr.txff = true
      · refine ⟨s.tick.hw.fr, ?_, hf⟩
        simp only [refillReads, if_pos hc, if_pos hf]
        rfl
      · have hn' : (loadByte s.tick).bsc.txLen - (loadByte s.tick).bsc.txLoaded ≤ n := by
          simp only [loadByte_bsc, Sys.tick_bsc]
          omega
        rw [refillLoop, if_pos hc] at h
        simp only [if_neg hf] at h
        obtain ⟨fr, hfr, hfull⟩ := ih hn' h
        refine ⟨fr, ?_, hfull⟩
        simp only [refillReads, if_pos hc, if_neg hf]
        rw [List.getLast?_cons, hfr]
        rfl
    · rw [refillLoop, if_neg hc] at h
      exact absurd h hc

theorem unloaded_bscRefillTxLocked {s : Sys} (h : (bscRefillTxLocked s).bsc.Unloaded)
    (first : List Fr) :
    ∃ fr, (first ++ refillReads (s.bsc.txLen - s.bsc.txLoaded) s).getLast? = some fr ∧
      fr.txff = true := by
  rw [bscRefillTxLocked, bscSetInterruptsLocked, bscWrite_bsc] at h
  obtain ⟨fr, hfr, hfull⟩ := getLast_refillReads _ (Nat.le_refl _) h
  refine ⟨fr, ?_, hfull⟩
  rw [List.getLast?_append, hfr]
  rfl

/-- After a pass bytes are left to load only if it last saw a full FIFO. -/
theorem unloaded_bscServiceLocked {s : Sys} (h : (bscServiceLocked s).bsc.Unloaded) :
    ∃ fr, (serviceReads s).getLast? = some fr ∧ fr.txff = true := by
  have hlast := unloaded_bscRefillTxLocked h
    (drainReads ((readStatus s).inbound + 1) (readStatus s) ++
      [(bscDrainRxLocked (readStatus s)).tick.hw.fr])
  rw [List.append_assoc] at hlast
  exact hlast

theorem Bsc.Unloaded.congr {b b' : Bsc} (h : b'.Unloaded) (hb : b'.transmit = b.transmit) :
    b.Unloaded := by
  simp only [Bsc.transmit, Prod.mk.injEq] at hb
  unfold Bsc.Unloaded at h ⊢
  rw [← hb.1, ← hb.2.1, ← hb.2.2]
  exact h

theorem transmit_discard (s : Sys) :
    (discardData { s with bsc.workerPending := false }).bsc.transmit = s.bsc.transmit := rfl

theorem transmit_announce (s : Sys) (count : ℕ) :
    (announce s count).bsc.transmit = s.bsc.transmit := by
  rw [BscTarget.announce, bscSetReady_bsc]
  rfl

/-- After a publication bytes are left to load only if it last saw a full FIFO; a response that
was not published leaves those behind that its pass did. -/
theorem unloaded_bscPublishResponseLocked {data : Bytes} {s : Sys}
    (h : (bscPublishResponseLocked data s).2.bsc.Unloaded) :
    (Owns (beforeDecision data s).tick ∧
      ∃ fr, (publicationReads data (beforeDecision data s)).getLast? = some fr ∧
        fr.txff = true) ∨
    (¬ Owns (beforeDecision data s).tick ∧
      ∃ fr, (serviceReads (s.note (.asked data))).getLast? = some fr ∧ fr.txff = true) := by
  have hpass : (beforeDecision data s).bsc.Unloaded →
      ∃ fr, (serviceReads (s.note (.asked data))).getLast? = some fr ∧ fr.txff = true :=
    unloaded_bscServiceLocked
  rcases bscPublishResponseLocked_cases data s with
    ⟨hr, h'⟩ | ⟨-, hp, h'⟩ | ⟨-, -, hg, h'⟩ | ⟨-, -, hb, -, -, h'⟩ | ⟨ho, h'⟩ <;>
    rw [h'] at h <;> dsimp only at h
  · rw [Sys.note_bsc] at h
    refine .inr ⟨fun ho => ?_, hpass h⟩
    have hready := ho.ready
    rw [Sys.tick_bsc, hr] at hready
    cases hready
  · rw [Sys.note_bsc] at h
    refine .inr ⟨fun ho => ?_, hpass h⟩
    have hpending := ho.pending
    rw [Sys.tick_bsc, hp] at hpending
    cases hpending
  · refine .inr ⟨fun ho => ?_, hpass (h.congr (transmit_discard _))⟩
    have hgeneration := ho.generation
    have hwork := ho.work
    rw [Sys.tick_bsc] at hgeneration hwork
    exact hg.elim (fun hne => hne hgeneration) (fun hne => hne hwork)
  · have ht : (beforeDecision data s).tick.bsc.Unloaded := h.congr (transmit_discard _)
    rw [Sys.tick_bsc] at ht
    refine .inr ⟨fun ho => ?_, hpass ht⟩
    rw [ho.busy] at hb
    cases hb
  · refine .inl ⟨ho, ?_⟩
    exact unloaded_bscRefillTxLocked (h.congr (transmit_announce _ _))
      [(beforeDecision data s).tick.hw.fr]

/-! ## The mask and the remaining work agree -/

structure MaskAgrees (d : Device) : Prop where
  active : d.sys.bsc.active = true → d.sys.hw.imsc =
    if d.sys.bsc.txQueued = true ∧ d.sys.bsc.txLoaded < d.sys.bsc.txLen then
      irqRx ||| irqBreak ||| irqOe ||| irqTx
    else irqRx ||| irqBreak ||| irqOe
  inactive : d.sys.bsc.active = false → d.sys.hw.imsc = 0
  /-- The TX interrupt is enabled exactly while there is something to load. -/
  enabled : d.sys.hw.imsc &&& irqTx ≠ 0 ↔
    d.sys.bsc.txQueued = true ∧ d.sys.bsc.txLoaded < d.sys.bsc.txLen

theorem Device.Sound.maskAgrees {d : Device} (h : d.Sound)
    (hm : d.sys.bsc.active = true → Masked d.sys) : MaskAgrees d := by
  refine ⟨hm, fun ha => (h.idle ha).imsc, ?_⟩
  by_cases ha : d.sys.bsc.active = true
  · rw [hm ha]
    exact interruptMask_tx _
  · have hi := h.idle (by simpa using ha)
    rw [hi.imsc, ← hi.reset]
    exact ⟨fun hne => absurd rfl hne, fun hq => by cases hq.1⟩

/-- At every lock release the mask agrees with the remaining work, and work remains only behind a
full FIFO. -/
theorem mask_agrees (address : UInt32) (readyGpio : Bool) (hw : Hw)
    (env : List (List HwEvent)) (actions : List Action) :
    MaskAgrees ((Device.probe address readyGpio hw env).run actions) ∧
    (∀ s : Sys, (bscServiceLocked s).bsc.Unloaded →
      ∃ fr, (serviceReads s).getLast? = some fr ∧ fr.txff = true) ∧
    (∀ (data : Bytes) (s : Sys), (bscPublishResponseLocked data s).2.bsc.Unloaded →
      (Owns (beforeDecision data s).tick ∧
        ∃ fr, (publicationReads data (beforeDecision data s)).getLast? = some fr ∧
          fr.txff = true) ∨
      (¬ Owns (beforeDecision data s).tick ∧
        ∃ fr, (serviceReads (s.note (.asked data))).getLast? = some fr ∧ fr.txff = true)) := by
  have hs := Device.Sound.probe address readyGpio hw env
  refine ⟨(hs.run actions).maskAgrees (Device.masked_run (fun ha => ?_) actions), ?_, ?_⟩
  · have hd : (Device.probe address readyGpio hw env).sys.bsc.active = false :=
      congrArg Bsc.active (bscDisableLocked_bsc _)
    exact absurd hd (ne_false_of_eq_true ha)
  · exact fun _ => unloaded_bscServiceLocked
  · exact fun _ _ => unloaded_bscPublishResponseLocked

end BscTarget
