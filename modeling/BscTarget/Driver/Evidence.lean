import BscTarget.Driver.Decision

/-!
# What a decision has seen

Publication and recovery are decided on FR_RXBUSY alone. A byte that enters the RX FIFO behind
the drain of the same call, with its write over before the deciding FR read, is not looked at
(`not_evident_late`); but for such a byte and a wrap of the generation counters every decision
saw a device without a newer request (`decisions_evident`).
-/

namespace BscTarget

/-! ## Decisions -/

/-- The snapshot and the history up to it show no newer request in any form. -/
def Shows (fr : Fr) (log : List Event) : Prop :=
  fr.rxbusy = false ∧ fr.rxfe = true ∧ drainedSinceTake log = false

instance (fr : Fr) (log : List Event) : Decidable (Shows fr log) :=
  inferInstanceAs (Decidable (_ ∧ _ ∧ _))

/-- No publication and no recovery overlooked a newer request. -/
def Evident : List Event → Prop
  | [] => True
  | .published _ fr :: log => Shows fr log ∧ Evident log
  | .recovered fr :: log => Shows fr log ∧ Evident log
  | _ :: log => Evident log

instance decidableEvident : (log : List Event) → Decidable (Evident log)
  | [] => .isTrue trivial
  | e :: log =>
    have := decidableEvident log
    match e with
    | .published _ fr => inferInstanceAs (Decidable (Shows fr log ∧ Evident log))
    | .recovered fr => inferInstanceAs (Decidable (Shows fr log ∧ Evident log))
    | .busy _ | .arrived _ | .lost _ | .clocked _ | .underrun | .began | .superseded | .drained _
    | .evicted | .finished _ | .loaded _ | .ready _ | .acked | .took _ _ | .asked _ | .refused
    | .discarded => this

/-- Where the drain of a pass from `s` has ended, the RX FIFO empty. -/
def drainedAt (s : Sys) : Sys := bscDrainRxLocked (readStatus s)

/-- Where the FR read behind a pass from `s` decides. -/
def decidedAt (s : Sys) : Sys := (bscServiceLocked s).tick

/-- The state from which a call makes its pass and then decides, if it gets that far. -/
def Call.attempt (s : Sys) : Call → Option Sys
  | .write w =>
    if w.data.length = 0 ∨ bscMaxTransfer < w.data.length ∨ w.fault = true ∨
        w.interrupted = true ∨ s.bsc.dead = true ∨ s.bsc.active = false then none
    else some (s.note (.asked w.data))
  | .recover => if s.bsc.dead = true ∨ s.bsc.active = false then none else some s
  | _ => none

/-- A worker that passes the ownership test does so without a byte between drain and decision,
and before the counters wrap past the generation of its request. -/
def Unhurried (s : Sys) : Prop :=
  Owns (decidedAt s) → arrivals (decidedAt s).log = arrivals (drainedAt s).log ∧
    starts (decidedAt s).log < startsTaken (decidedAt s).log + 2 ^ 64

/-- Every decision of a run is unhurried. -/
def Undisturbed (s : Sys) : List Call → Prop
  | [] => True
  | c :: calls => (∀ t ∈ c.attempt s, Unhurried t) ∧ Undisturbed (exec s c) calls

/-! ## Between drain and decision -/

/-- What arrived from `s` to `t` is still in the RX FIFO. -/
def Gathers (s t : Sys) : Prop :=
  ∃ new, t.hw.rxFifo = s.hw.rxFifo ++ new ∧ arrivals t.log = arrivals s.log ++ new

namespace Gathers

variable {s t u : Sys}

theorem of_eq (hf : t.hw.rxFifo = s.hw.rxFifo) (ha : arrivals t.log = arrivals s.log) :
    Gathers s t := ⟨[], by rw [hf, List.append_nil], by rw [ha, List.append_nil]⟩

theorem trans (h : Gathers s t) (h' : Gathers t u) : Gathers s u := by
  obtain ⟨new, hf, ha⟩ := h
  obtain ⟨new', hf', ha'⟩ := h'
  refine ⟨new ++ new', ?_, ?_⟩
  · rw [hf', hf, List.append_assoc]
  · rw [ha', ha, List.append_assoc]

theorem fill (h : Fill s t) : Gathers s t := by
  cases h with
  | quiet h =>
    cases h with
    | bus e =>
      rcases Sys.bus_cases s e with
        ⟨_, _, h⟩ | ⟨b, _, _, h⟩ | ⟨_, _, h⟩ | ⟨_, _, _, h⟩ | ⟨_, _, h⟩ <;> rw [h]
      · exact of_eq rfl rfl
      · exact ⟨[b], rfl, rfl⟩
      all_goals exact of_eq rfl rfl
    | env => exact of_eq rfl rfl
    | reg value reg => exact of_eq (sameReceive_reg s value reg).rxFifo rfl
  | load => exact of_eq (sameReceive_reg s _ .DR).rxFifo rfl

theorem steps (h : Steps Fill s t) : Gathers s t := by
  induction h with
  | refl => exact of_eq rfl rfl
  | tail _ h ih => exact ih.trans (fill h)

theorem finish (s : Sys) : Gathers s (bscFinishRxLocked s) := by
  have ha : (acknowledged s).hw.rxFifo = s.hw.rxFifo ∧
      arrivals (acknowledged s).log = arrivals s.log := by
    unfold acknowledged
    split_ifs <;> exact ⟨rfl, rfl⟩
  unfold bscFinishRxLocked
  split_ifs
  · exact of_eq rfl rfl
  · rcases finishBurst_cases s with ⟨-, h⟩ | ⟨-, -, h⟩ | ⟨-, -, h⟩ <;> rw [h] <;>
      exact of_eq ha.1 ha.2

theorem decided (s : Sys) : Gathers (drainedAt s) (decidedAt s) := by
  have htick (s : Sys) : Gathers s s.tick := steps (toFill (tick_steps s))
  have hfinish : Gathers (drainedAt s) (if (drainedAt s).tick.hw.fr.rxbusy = false ∧
      (drainedAt s).tick.hw.fr.rxfe = true then bscFinishRxLocked (drainedAt s).tick
      else (drainedAt s).tick) := by
    split_ifs
    · exact (htick _).trans (finish _)
    · exact htick _
  exact (hfinish.trans (steps (bscRefillTxLocked_steps _))).trans (htick _)

/-- Nothing gathers exactly when no byte came. -/
theorem empty_iff (h : Gathers s t) (he : s.hw.rxFifo = []) :
    t.hw.rxFifo = [] ↔ arrivals t.log = arrivals s.log := by
  obtain ⟨new, hf, ha⟩ := h
  rw [hf, ha, he, List.nil_append]
  exact List.self_eq_append_right.symm.trans eq_comm

end Gathers

/-- The RX FIFO is empty at the decision exactly when no byte came behind the drain. -/
theorem rxFifo_decidedAt (s : Sys) :
    (decidedAt s).hw.rxFifo = [] ↔ arrivals (decidedAt s).log = arrivals (drainedAt s).log :=
  (Gathers.decided s).empty_iff (rxFifo_bscDrainRxLocked _)

/-- An owner's request is the latest one unless the counters wrapped past it. -/
theorem Fresh.paired_iff {s : Sys} (hi : Fresh s)
    (h : s.bsc.workerGeneration = s.bsc.requestGeneration) :
    drainedSinceTake s.log = false ↔ starts s.log < startsTaken s.log + 2 ^ 64 := by
  have hle := startsTaken_le s.log
  rw [hi.worker, hi.request, ← UInt64.toNat_inj, UInt64.toNat_ofNat', UInt64.toNat_ofNat'] at h
  rw [← Bool.not_eq_true, hi.since]
  omega

/-- An owner's decision shows what its evidence says exactly when it was unhurried. -/
theorem shows_iff {s : Sys} (hi : Fresh (decidedAt s)) (ho : Owns (decidedAt s)) :
    Shows (decidedAt s).hw.fr (decidedAt s).log ↔ Unhurried s := by
  unfold Shows Unhurried
  rw [rxfe_iff, rxFifo_decidedAt, hi.paired_iff ho.generation]
  constructor
  · exact fun h _ => h.2
  · exact fun h => ⟨ho.busy, h ho⟩

/-! ## Calls -/

theorem Pass.evident {s t : Sys} (h : Pass s t) : Evident t.log = Evident s.log :=
  h.grows.frame fun e _ he => by cases e <;> first | rfl | cases he

theorem evident_pass {s t : Sys} (h : Steps Pass s t) : Evident t.log = Evident s.log :=
  Steps.frame (f := fun s : Sys => Evident s.log) Pass.evident h

theorem evident_setup {s t : Sys} (h : Steps Setup s t) : Evident t.log = Evident s.log := by
  refine Steps.frame (f := fun s : Sys => Evident s.log) ?_ h
  intro s t h
  cases h with
  | quiet h => exact Pass.evident (.fill (.quiet h))
  | cr => rfl

theorem evident_decidedAt (s : Sys) : Evident (decidedAt s).log = Evident s.log :=
  (evident_pass (tick_pass _)).trans (evident_pass (bscServiceLocked_steps s))

theorem evident_bscSetReady (level : Bool) (s : Sys) :
    Evident (bscSetReady level s).log = Evident s.log := by
  unfold bscSetReady
  split_ifs <;> rfl

theorem unhurried_of_stale {s : Sys} (h : ¬ Owns (decidedAt s)) : Unhurried s :=
  fun ho => absurd ho h

theorem owns_decidedAt {s : Sys} (ho : Owns (decidedAt s)) :
    (bscServiceLocked s).bsc.readyGpio = true ∧ (bscServiceLocked s).bsc.workerPending = true ∧
      (bscServiceLocked s).bsc.workerGeneration = (bscServiceLocked s).bsc.requestGeneration ∧
      (bscServiceLocked s).bsc.rxWorkLen = 0 := by
  obtain ⟨hr, hp, hg, hw, -⟩ := ho
  unfold decidedAt at hr hp hg hw
  rw [Sys.tick_bsc] at hr hp hg hw
  exact ⟨hr, hp, hg, hw⟩

theorem fresh_decidedAt {s : Sys} (hi : Answering s) : Fresh (decidedAt s) := by
  have h : Steps Micro s (decidedAt s) :=
    toMicro (toTend ((bscServiceLocked_steps s).trans (tick_pass _)))
  exact h.keep Fresh.micro hi.fresh

theorem evident_publish {data : Bytes} (h₀ : data.length ≠ 0) (h₁ : data.length ≤ bscMaxTransfer)
    {s : Sys} (hi : Answering s) :
    Evident (bscPublishResponseLocked data s).2.log ↔
      Evident s.log ∧ Unhurried (s.note (.asked data)) := by
  have hold : Evident (beforeDecision data s).log = Evident s.log :=
    (evident_pass (bscServiceLocked_steps (s.note (.asked data)))).trans rfl
  have hfree (hno : ¬ Owns (decidedAt (s.note (.asked data)))) :
      Evident (beforeDecision data s).log ↔
        Evident s.log ∧ Unhurried (s.note (.asked data)) := by
    rw [hold]
    exact (and_iff_left (unhurried_of_stale hno)).symm
  rcases bscPublishResponseLocked_cases data s with
    ⟨hr, h⟩ | ⟨-, hp, h⟩ | ⟨-, -, hg, h⟩ | ⟨-, -, hb, -, -, h⟩ | ⟨ho, h⟩ <;> rw [h]
  · simp only [Sys.note_log]
    exact hfree fun ho => absurd hr (ne_false_of_eq_true (owns_decidedAt ho).1)
  · simp only [Sys.note_log]
    exact hfree fun ho => absurd hp (ne_false_of_eq_true (owns_decidedAt ho).2.1)
  · simp only [log_discard]
    refine hfree fun ho => ?_
    obtain ⟨-, -, hgen, hwork⟩ := owns_decidedAt ho
    exact hg.elim (fun h => h hgen) fun h => h hwork
  · have hfree' := hfree fun ho => absurd hb (ne_true_of_eq_false ho.busy)
    rw [← hfree', ← evident_pass (tick_pass (beforeDecision data s))]
    simp only [log_discard]
    exact Iff.rfl
  · have hask : Answering (s.note (.asked data)) := hi.micro (.ask s data h₀ h₁)
    have hlog : Evident (announce (bscRefillTxLocked (queueData data
        { (beforeDecision data s).tick with bsc.workerPending := false })) data.length).log =
        (Shows (decidedAt (s.note (.asked data))).hw.fr
          (decidedAt (s.note (.asked data))).log ∧
          Evident (decidedAt (s.note (.asked data))).log) :=
      (evident_bscSetReady _ _).trans (evident_pass (toPass (bscRefillTxLocked_steps _)))
    rw [hlog, shows_iff (fresh_decidedAt hask) ho, evident_decidedAt]
    exact and_comm

theorem evident_recover {s : Sys} (hi : Answering s) :
    Evident (bscRecoverResponseLocked s).2.log ↔ Evident s.log ∧ Unhurried s := by
  have hfree (hno : ¬ Owns (decidedAt s)) :
      Evident (bscServiceLocked s).log ↔ Evident s.log ∧ Unhurried s := by
    rw [evident_pass (bscServiceLocked_steps s)]
    exact (and_iff_left (unhurried_of_stale hno)).symm
  rcases bscRecoverResponseLocked_cases s with
    ⟨hrp, h⟩ | ⟨-, -, hg, h⟩ | ⟨-, -, hb, h⟩ | ⟨ho, h⟩ <;> rw [h]
  · refine hfree fun ho => ?_
    obtain ⟨hready, hpending, -⟩ := owns_decidedAt ho
    rcases hrp with hr | hp
    · exact absurd hr (ne_false_of_eq_true hready)
    · exact absurd hp (ne_false_of_eq_true hpending)
  · refine hfree fun ho => ?_
    obtain ⟨-, -, hgen, hwork⟩ := owns_decidedAt ho
    exact hg.elim (fun h => h hgen) fun h => h hwork
  · have hfree' := hfree fun ho => absurd hb (ne_true_of_eq_false ho.busy)
    rw [← hfree']
    exact iff_of_eq (evident_pass (tick_pass _))
  · have hlog : Evident (grantRecovery (decidedAt s)).log =
        (Shows (decidedAt s).hw.fr (decidedAt s).log ∧ Evident (decidedAt s).log) :=
      (evident_bscSetReady _ _).trans (evident_setup (bscConfigureLocked_steps _))
    show Evident (grantRecovery (decidedAt s)).log ↔ _
    rw [hlog, shows_iff (fresh_decidedAt hi) ho, evident_decidedAt]
    exact and_comm

theorem evident_exec {s : Sys} (hi : Answering s) (c : Call) :
    Evident (exec s c).log ↔ Evident s.log ∧ ∀ t ∈ c.attempt s, Unhurried t := by
  have hnone (h : c.attempt s = none) : Evident s.log ↔
      Evident s.log ∧ ∀ t ∈ c.attempt s, Unhurried t := by
    rw [h]
    exact (and_iff_left fun _ ht => by cases ht).symm
  cases c with
  | irq mis =>
    rw [← hnone rfl]
    simp only [exec, bscIrq]
    split_ifs
    · rfl
    · have hicr : Reg.ICR ≠ .DR ∧ Reg.ICR ≠ .CR := by decide
      rw [evident_pass (toPass (toFill (bscWrite_steps hicr (fun h => by cases h) _))),
        evident_pass (bscServiceLocked_steps _)]
  | timer =>
    rw [← hnone rfl]
    simp only [exec, bscTimer]
    split_ifs
    · rfl
    · rw [evident_pass (bscServiceLocked_steps _)]
  | read r =>
    rw [← hnone rfl]
    simp only [exec, bscReadMessage]
    split_ifs <;> rfl
  | write w =>
    by_cases ha : w.data.length = 0 ∨ bscMaxTransfer < w.data.length ∨ w.fault = true ∨
        w.interrupted = true ∨ s.bsc.dead = true ∨ s.bsc.active = false
    · rw [← hnone (by rw [Call.attempt, if_pos ha])]
      simp only [exec, bscQueueResponse]
      split_ifs with h₁ h₂ h₃ h₄
      · rfl
      · rfl
      · rfl
      · rfl
      · exfalso
        simp only [Bool.not_eq_true] at h₂ h₃
        rw [h₂, h₃] at ha
        simp only [not_or] at h₁ h₄
        simp [h₁, h₄] at ha
    · have hwrite : exec s (.write w) = (bscPublishResponseLocked w.data s).2 := by
        simp only [not_or] at ha
        simp [exec, bscQueueResponse, ha]
      rw [hwrite, evident_publish (fun h => ha (.inl h))
        (Nat.le_of_not_lt fun h => ha (.inr (.inl h))) hi, Call.attempt, if_neg ha]
      simp
  | recover =>
    by_cases ha : s.bsc.dead = true ∨ s.bsc.active = false
    · rw [← hnone (by rw [Call.attempt, if_pos ha])]
      simp only [exec, bscIoctlRecover, if_pos ha]
    · simp only [exec, bscIoctlRecover, if_neg ha]
      rw [evident_recover hi, Call.attempt, if_neg ha]
      simp
  | bus e =>
    rw [← hnone rfl]
    exact iff_of_eq (Pass.evident (.fill (.quiet (.bus s e))))

theorem evident_run {s : Sys} (hi : Answering s) (calls : List Call) :
    Evident (run s calls).log ↔ Evident s.log ∧ Undisturbed s calls := by
  induction calls generalizing s with
  | nil => exact (and_iff_left trivial).symm
  | cons c calls ih =>
    rw [run_cons, ih ((exec_steps s c).keep Answering.micro hi), evident_exec hi c]
    exact and_assoc

theorem evident_openSession (s : Sys) : Evident (openSession s).log := by
  rw [evident_setup (openSession_steps s)]
  rcases cleared_cases s with h | h <;> rw [h] <;> trivial

/-- In every READY session, every publication and every recovery shows reception idle, an empty
RX FIFO and nothing drained since the dequeue, if and only if every decision that passes the
ownership test is unhurried. What is loaded or announced was published. -/
theorem decisions_evident (s : Sys) (calls : List Call) (hr : s.bsc.readyGpio = true) :
    (Evident (run (openSession s) calls).log ↔ Undisturbed (openSession s) calls) ∧
    LoadsCurrent (run (openSession s) calls).log ∧
    (starts (run (openSession s) calls).log < 2 ^ 64 →
      (run (openSession s) calls).hw.ready = true →
      answered (run (openSession s) calls).log = true) := by
  have hopen : Answering (openSession s) := Answering.run hr []
  refine ⟨?_, (Serving.run s calls).loads, fun hwrap hready => ?_⟩
  · rw [evident_run hopen calls]
    exact and_iff_right (evident_openSession s)
  · have hline := (Answering.run hr calls).line hwrap
    rw [hline.gpio] at hready
    exact hline.asserted hready

theorem decisions_evident_answered :
    Undisturbed (openSession (bscProbe true)) [.bus (.byte 1), .timer,
      .read ⟨8192, true, false, false, false⟩, .write ⟨[9], false, false⟩] :=
  (decisions_evident (bscProbe true) _ (by decide +kernel)).1.mp (by decide +kernel)

/-- Reception of the next request begins while `write` makes its pass, its only byte arrives
behind the drain, and its write is over at the deciding FR read: the older response is
published. -/
theorem not_evident_late :
    ¬ Evident (run (openSession { bscProbe true with
        env := List.replicate 19 [] ++ [[.busy true], [.byte 2], [.busy false]] })
      [.bus (.byte 1), .timer, .read ⟨8192, true, false, false, false⟩,
        .write ⟨[9], false, false⟩]).log := by
  decide +kernel

end BscTarget
