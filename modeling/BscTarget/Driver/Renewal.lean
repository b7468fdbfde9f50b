import BscTarget.Driver.Evidence
import BscTarget.Driver.Headroom

/-!
# What a recovery restores

A recovery is decided on FR_RXBUSY alone, as a publication is. A byte that enters the RX FIFO
behind its drain does not keep it from returning 0, but the next `write` drains that byte and is
discarded (`not_clean_overlooked`). A recovery that hears nothing behind its drain restores a
clean exchange, and only such a one does (`recovery_restores`).
-/

namespace BscTarget

/-! ## Behind the drain -/

/-- Behind its drain a recovery from `s` hears nothing: up to its return no byte enters the RX
FIFO, and FR_RXBUSY is clear when it returns. -/
def Unheard (s : Sys) : Prop :=
  arrivals (bscIoctlRecover s).2.log = arrivals (drainedAt s).log ∧
    (bscIoctlRecover s).2.hw.rxBusy = false

namespace Gathers

variable {s t : Sys}

theorem setup (h : Setup s t) : Gathers s t := by
  cases h with
  | quiet h => exact fill (.quiet h)
  | cr value => exact of_eq (sameReceive_reg s value .CR).rxFifo rfl

theorem configured (s : Sys) : Gathers s (bscConfigureLocked s) :=
  (bscConfigureLocked_steps s).lift (fun _ => of_eq rfl rfl) trans setup

theorem setReady (level : Bool) (s : Sys) : Gathers s (bscSetReady level s) := by
  unfold bscSetReady
  split_ifs <;> exact of_eq rfl rfl

theorem granted (s : Sys) : Gathers s (grantRecovery s) := by
  have hcleared : Gathers s { s with
      bsc.txQueued := false, bsc.txLen := 0, bsc.txLoaded := 0
      log := .recovered s.hw.fr :: s.log } := of_eq rfl rfl
  exact ((hcleared.trans (configured _)).trans (of_eq rfl rfl)).trans (setReady _ _)

end Gathers

/-- A granted recovery was unheard exactly when nothing is pending at its return. -/
theorem unheard_iff {s : Sys} (hv : (bscIoctlRecover s).2 = grantRecovery (decidedAt s)) :
    Unheard s ↔
      (bscIoctlRecover s).2.hw.rxFifo = [] ∧ (bscIoctlRecover s).2.hw.rxBusy = false := by
  have h : Gathers (drainedAt s) (grantRecovery (decidedAt s)) :=
    (Gathers.decided s).trans (Gathers.granted _)
  unfold Unheard
  rw [hv, h.empty_iff (rxFifo_bscDrainRxLocked _)]

/-! ## A `write` while the bus rests -/

/-- While the bus rests nothing is heard and FR_RXBUSY stays. -/
structure Rests (s t : Sys) : Prop where
  env : t.env = []
  busy : t.hw.rxBusy = s.hw.rxBusy
  inputs : inputs t.log = inputs s.log

namespace Rests

variable {s t u : Sys}

theorem trans (h : Rests s t) (h' : Rests t u) : Rests s u :=
  ⟨h'.env, h'.busy.trans h.busy, h'.inputs.trans h.inputs⟩

theorem write (h : s.env = []) (reg : Reg) (value : UInt32) : Rests s (bscWrite reg value s) := by
  rw [bscWrite_calm h]
  exact ⟨h, (sameReceive_reg s value reg).rxBusy, rfl⟩

theorem status (h : s.env = []) : Rests s (readStatus s) := by
  have hcount : Rests s (countStatus s) := ⟨h, rfl, rfl⟩
  rw [readStatus, tick_calm h]
  split_ifs
  · exact hcount.trans (write hcount.env .RSR 0)
  · exact hcount

theorem drainByte (h : s.env = []) : Rests s (drainByte s) := by
  refine ⟨(drainByte_env s).trans h, drainByte_rxBusy s, ?_⟩
  rcases drainByte_cases s with ⟨-, -, -, -, h⟩ | ⟨-, -, -, h⟩ | ⟨-, -, h⟩ | ⟨-, -, h⟩ <;> rw [h] <;>
    rfl

theorem drain (s : Sys) : s.env = [] → Rests s (bscDrainRxLocked s) := by
  refine drain_induction (P := fun s t => s.env = [] → Rests s t) ?_ ?_ s
  · intro s _ h
    rw [tick_calm h]
    exact ⟨h, rfl, rfl⟩
  · intro s _ t ht h
    rw [tick_calm h, tick_calm h] at ht
    have hbyte := drainByte h
    exact hbyte.trans (ht hbyte.env)

theorem finish (h : s.env = []) : Rests s (bscFinishRxLocked s) := by
  refine ⟨(bscFinishRxLocked_calm s).1.trans h, ?_, ?_⟩
  · unfold bscFinishRxLocked
    split_ifs
    · rfl
    · exact (finishBurst_hw s).2.1
  · have ha : BscTarget.inputs (acknowledged s).log = BscTarget.inputs s.log := by
      unfold acknowledged
      split_ifs <;> rfl
    unfold bscFinishRxLocked
    split_ifs
    · rfl
    · rcases finishBurst_cases s with ⟨-, h⟩ | ⟨-, -, h⟩ | ⟨-, -, h⟩ <;> rw [h] <;> exact ha

theorem load (h : s.env = []) : Rests s (loadByte s) := by
  rw [loadByte_eq, tick_calm h]
  exact ⟨h, (sameReceive_reg s _ .DR).rxBusy, rfl⟩

theorem refill (h : s.env = []) : Rests s (bscRefillTxLocked s) := by
  have hloop : Rests s (refillLoop (s.bsc.txLen - s.bsc.txLoaded) s) := by
    refine refill_induction (P := fun s t => s.env = [] → Rests s t) ?_ ?_ ?_ s h
    · exact fun s _ h => ⟨h, rfl, rfl⟩
    · intro s _ _ _ h
      rw [tick_calm h]
      exact ⟨h, rfl, rfl⟩
    · intro s _ _ _ t ht h
      rw [tick_calm h] at ht
      exact (load h).trans (ht (load h).env)
  exact hloop.trans (write hloop.env _ _)

theorem service (h : s.env = []) : Rests s (bscServiceLocked s) := by
  have hstatus := status h
  have hdrain := hstatus.trans (drain _ hstatus.env)
  unfold bscServiceLocked
  dsimp only
  rw [tick_calm hdrain.env]
  split_ifs
  · have hfinish := hdrain.trans (finish hdrain.env)
    exact hfinish.trans (refill hfinish.env)
  · exact hdrain.trans (refill hdrain.env)

/-- A `write` hears nothing while the bus rests, whatever becomes of it. -/
theorem publish (data : Bytes) (h : s.env = []) :
    BscTarget.inputs (bscPublishResponseLocked data s).2.log = BscTarget.inputs s.log := by
  have hpass : Rests (s.note (.asked data)) (beforeDecision data s) := service h
  have htick : (beforeDecision data s).tick = beforeDecision data s := tick_calm hpass.env
  have hin : BscTarget.inputs (beforeDecision data s).log = BscTarget.inputs s.log := hpass.inputs
  rcases bscPublishResponseLocked_cases data s with
    ⟨-, h⟩ | ⟨-, -, h⟩ | ⟨-, -, -, h⟩ | ⟨-, -, -, -, -, h⟩ | ⟨-, h⟩ <;> rw [h]
  · exact hin
  · exact hin
  · exact hin
  · rw [htick]
    exact hin
  · rw [htick, announce, (inputs_bscSetReady _ _).1]
    have hqueued : (queueData data
      { beforeDecision data s with bsc.workerPending := false }).env = [] := hpass.env
    exact (refill hqueued).inputs.trans hin

end Rests

/-! ## A byte that is pending -/

/-- A pass that finds the first byte of a burst takes the request from its worker: the generation
counter moves on by one. -/
theorem drain_outdates (s : Sys) :
    let t := bscDrainRxLocked s
    t.bsc.workerGeneration = s.bsc.workerGeneration ∧
      (¬ (s.bsc.rxWorkLen = 0 ∧ s.bsc.rxOverflowed = false) →
        t.bsc.requestGeneration = s.bsc.requestGeneration) ∧
      (s.hw.rxFifo ≠ [] → s.bsc.rxWorkLen = 0 ∧ s.bsc.rxOverflowed = false →
        t.bsc.requestGeneration = s.bsc.requestGeneration + 1) := by
  refine drain_induction (P := fun s t => t.bsc.workerGeneration = s.bsc.workerGeneration ∧
      (¬ (s.bsc.rxWorkLen = 0 ∧ s.bsc.rxOverflowed = false) →
        t.bsc.requestGeneration = s.bsc.requestGeneration) ∧
      (s.hw.rxFifo ≠ [] → s.bsc.rxWorkLen = 0 ∧ s.bsc.rxOverflowed = false →
        t.bsc.requestGeneration = s.bsc.requestGeneration + 1)) ?_ ?_ s
  · intro s hf
    rw [Sys.tick_bsc]
    exact ⟨rfl, fun _ => rfl, fun hne => absurd hf (Sys.rxFifo_tick_ne_nil hne)⟩
  · -- The first byte begins a burst, and the later ones belong to it.
    rintro s - t ⟨hworker, hlater, -⟩
    obtain ⟨-, -, hsame, hbegan⟩ := Fresh.drainByte_story s.tick.tick
    have hwork : ¬ ((drainByte s.tick.tick).bsc.rxWorkLen = 0 ∧
        (drainByte s.tick.tick).bsc.rxOverflowed = false) := by
      rcases work_drainByte s.tick.tick with ⟨-, -, h, -⟩ | ⟨-, -, -, h⟩ <;> rw [h] <;> simp
    rw [Sys.tick_bsc, Sys.tick_bsc] at hsame hbegan
    refine ⟨hworker.trans hsame, fun hno => ?_, fun _ hyes => ?_⟩
    · rcases hbegan with ⟨hlen, hover, -, -⟩ | ⟨-, -, hgen⟩
      · exact absurd ⟨hlen, hover⟩ hno
      · exact (hlater hwork).trans hgen
    · rcases hbegan with ⟨-, -, -, hgen⟩ | ⟨hno, -, -⟩
      · exact (hlater hwork).trans hgen
      · exact absurd hyes hno

/-- The generation of the worker's request and that of the latest one. -/
def Bsc.generations (b : Bsc) : UInt64 × UInt64 := (b.workerGeneration, b.requestGeneration)

theorem generations_readStatus (s : Sys) :
    (readStatus s).bsc.generations = s.bsc.generations := by
  have hcount : (countStatus s.tick).bsc.generations = s.bsc.generations := by
    rw [countStatus, Sys.tick_bsc]
    rfl
  unfold readStatus
  dsimp only
  split_ifs
  · rw [bscWrite_bsc, hcount]
  · exact hcount

theorem generations_bscFinishRxLocked (s : Sys) :
    (bscFinishRxLocked s).bsc.generations = s.bsc.generations := by
  unfold bscFinishRxLocked
  split_ifs
  · rfl
  · obtain ⟨-, -, -, hworker, hrequest⟩ := Fresh.finishBurst_story s
    exact Prod.ext hworker hrequest

theorem generations_bscRefillTxLocked (s : Sys) :
    (bscRefillTxLocked s).bsc.generations = s.bsc.generations := by
  refine (bscRefillTxLocked_steps s).frame (f := fun s : Sys => s.bsc.generations) ?_
  intro s t h
  cases h with
  | quiet h => rw [h.bsc]
  | load => rfl

/-- Behind the drain a pass leaves both generations. -/
theorem generations_bscServiceLocked (s : Sys) :
    (bscServiceLocked s).bsc.generations = (drainedAt s).bsc.generations := by
  unfold bscServiceLocked drainedAt
  dsimp only
  rw [generations_bscRefillTxLocked]
  split_ifs
  · rw [generations_bscFinishRxLocked, Sys.tick_bsc]
  · rw [Sys.tick_bsc]

/-- A pass that finds the first byte of a burst outdates the worker's request. -/
theorem outdated {s : Sys} (he : s.env = []) (hf : s.hw.rxFifo ≠ [])
    (hw : s.bsc.rxWorkLen = 0 ∧ s.bsc.rxOverflowed = false)
    (hg : s.bsc.workerGeneration = s.bsc.requestGeneration) :
    (bscServiceLocked s).bsc.workerGeneration ≠ (bscServiceLocked s).bsc.requestGeneration := by
  obtain ⟨-, hrx, hlen, hover, -⟩ := env_readStatus he
  obtain ⟨hworker, -, hrequest⟩ := drain_outdates (readStatus s)
  have hstatus := generations_readStatus s
  have hpass := generations_bscServiceLocked s
  simp only [Bsc.generations, Prod.mk.injEq] at hstatus hpass
  have hnext : (drainedAt s).bsc.requestGeneration = (drainedAt s).bsc.workerGeneration + 1 := by
    rw [drainedAt, hrequest (hrx.symm ▸ hf) ⟨hlen.trans hw.1, hover.trans hw.2⟩, hworker,
      hstatus.1, hstatus.2, hg]
  rw [hpass.1, hpass.2, hnext]
  simp

/-! ## Clean recoveries -/

/-- A `write` that publishes while the bus rests finds nothing pending. -/
theorem published_idle {data : Bytes} {s : Sys} (he : s.env = [])
    (hw : s.bsc.rxWorkLen = 0 ∧ s.bsc.rxOverflowed = false)
    (hg : s.bsc.workerGeneration = s.bsc.requestGeneration)
    (hpub : publications (bscPublishResponseLocked data s).2.log = publications s.log ++ [data]) :
    s.hw.rxFifo = [] ∧ s.hw.rxBusy = false := by
  have hpass : Rests (s.note (.asked data)) (beforeDecision data s) := Rests.service he
  have htick : (beforeDecision data s).tick = beforeDecision data s := tick_calm hpass.env
  have hold : publications (beforeDecision data s).log = publications s.log :=
    congrArg (fun w => w.2.2) (worker_steps (bscServiceLocked_steps (s.note (.asked data))))
  -- Every other outcome publishes nothing.
  have hkept : publications (bscPublishResponseLocked data s).2.log ≠ publications s.log := by
    rw [hpub]
    exact fun h => List.cons_ne_nil _ _ (List.append_right_eq_self.mp h)
  rcases bscPublishResponseLocked_cases data s with
    ⟨-, h⟩ | ⟨-, -, h⟩ | ⟨-, -, -, h⟩ | ⟨-, -, -, -, -, h⟩ | ⟨ho, -⟩
  · rw [h] at hkept
    exact absurd hold hkept
  · rw [h] at hkept
    exact absurd hold hkept
  · rw [h] at hkept
    exact absurd hold hkept
  · rw [h, htick] at hkept
    exact absurd hold hkept
  · rw [htick] at ho
    refine ⟨by_contra fun hne => ?_, hpass.busy.symm.trans ho.busy⟩
    exact outdated (s := s.note (.asked data)) he hne hw hg ho.generation

/-- A bus that rests is enough to tell: where the next `write` is sure to publish, nothing is
pending. -/
theorem CleanExchange.idle {v : Sys} (hc : CleanExchange v) (hd : v.bsc.dead = false)
    (ha : v.bsc.active = true) (hw : v.bsc.rxWorkLen = 0 ∧ v.bsc.rxOverflowed = false)
    (hg : v.bsc.workerGeneration = v.bsc.requestGeneration) :
    v.hw.rxFifo = [] ∧ v.hw.rxBusy = false := by
  have hlen : ([0] : Bytes).length ≠ 0 ∧ ([0] : Bytes).length ≤ bscMaxTransfer := by decide
  have hask := hc [] [] [0] (fun c h => by cases h) hlen.1 hlen.2
  dsimp only [run_nil] at hask
  rw [bscQueueResponse_open (s := { v with env := [] }) hlen.1 hlen.2 hd ha] at hask
  obtain ⟨-, hpub, -⟩ := hask (Rests.publish [0] rfl)
  exact published_idle (s := { v with env := [] }) rfl hw hg hpub

/-- In every READY session, whatever happened before: a recovery that returns 0 leaves both
transmit places empty, READY released and the worker with its request. The exchange that follows
is clean if and only if the recovery heard nothing behind its drain, as it does when no input
arrives during the call. -/
theorem recovery_restores (s : Sys) (before : List Call) (hr : s.bsc.readyGpio = true) :
    let t := run (openSession s) before
    let v := (bscIoctlRecover t).2
    (bscIoctlRecover t).1 = .ok 0 →
    Restored v ∧ (CleanExchange v ↔ Unheard t) ∧ (inputs v.log = inputs t.log → Unheard t) := by
  intro t v hok
  obtain ⟨hdead, ho, hv⟩ := bscIoctlRecover_ok hok
  replace hv : v = grantRecovery (bscServiceLocked t).tick := hv
  have hrun : v = run (openSession s) (before ++ [.recover]) := by
    rw [run_append, run_cons]
    rfl
  have hans : Answering v := hrun ▸ Answering.run hr _
  have hserv : Serving v := hrun ▸ Serving.run s _
  have hstand : v.bsc.standing = (s.bsc.readyGpio, s.bsc.dead, true) := by
    rw [hrun]
    exact standing_run s _
  have hstand' : t.bsc.standing = (s.bsc.readyGpio, s.bsc.dead, true) := standing_run s before
  simp only [Bsc.standing, Prod.mk.injEq] at hstand hstand'
  have hd : v.bsc.dead = false := hstand.2.1.trans (hstand'.2.1.symm.trans hdead)
  obtain ⟨hrest, hqueued⟩ := grantRecovery_restores ho (hv ▸ hans.fresh)
  rw [← hv] at hrest hqueued
  have hover : v.bsc.rxOverflowed = false := by
    by_contra hover
    exact rxWorkLen_ne_zero hserv.assembling (fun h => hover h.2) hrest.work
  have hiff : Unheard t ↔ v.hw.rxFifo = [] ∧ v.hw.rxBusy = false := unheard_iff hv
  refine ⟨hrest, ⟨fun hc => ?_, fun hu => ?_⟩, fun hn => ?_⟩
  · exact hiff.mpr (hc.idle hd hstand.2.2 ⟨hrest.work, hover⟩ hrest.generation)
  · obtain ⟨hf, hb⟩ := hiff.mp hu
    refine Poised.clean hserv hd hstand.2.2 ⟨?_, hrest.pending, hrest.generation⟩
    exact ⟨hans.fresh.ready, ⟨hrest.work, hover⟩, hf, hb, hrest.held, hqueued⟩
  · rw [hv] at hn hiff
    exact hiff.mpr (unheard_recovery ho hn)

/-- The response to one request is abandoned after its first byte, and the next one recovered. -/
def abandoned : List Call :=
  [.bus (.byte 1), .timer, .read ⟨8192, true, false, false, false⟩,
    .write ⟨[5, 6, 7], false, false⟩, .bus .clock, .bus (.byte 2), .timer,
    .read ⟨8192, true, false, false, false⟩]

theorem recovery_restores_abandoned :
    let t := run (openSession (bscProbe true)) abandoned
    Restored (bscIoctlRecover t).2 ∧ CleanExchange (bscIoctlRecover t).2 := by
  obtain ⟨hrest, hclean, hunheard⟩ := recovery_restores (bscProbe true) abandoned
    (by decide +kernel) (by decide +kernel)
  exact ⟨hrest, hclean.mpr (hunheard (by decide +kernel))⟩

/-- Reception of a newer request begins while a recovery makes its pass, its only byte arrives
behind the drain, and its write is over at the deciding FR read. -/
def overlooked : Sys :=
  { bscProbe true with env := List.replicate 19 [] ++ [[.busy true], [.byte 2], [.busy false]] }

/-- The recovery returns 0 with the byte pending, and without further input the next `write` is
discarded. -/
theorem not_clean_overlooked :
    let t := run (openSession overlooked) requested
    let v := (bscIoctlRecover t).2
    let x := bscQueueResponse ⟨[9], false, false⟩ v
    (bscIoctlRecover t).1 = .ok 0 ∧ ¬ CleanExchange v ∧ inputs x.2.log = inputs v.log ∧
      x.1 = .ok 1 ∧ publications x.2.log = [] ∧ x.2.bsc.stats.txDiscarded = 1 := by
  refine ⟨by decide +kernel, fun h => ?_, by decide +kernel, by decide +kernel, by decide +kernel,
    by decide +kernel⟩
  have hnext := h [] [] [9] (fun c hc => by cases hc) (by decide) (by decide) (by decide +kernel)
  exact absurd hnext.2.1 (by decide +kernel)

end BscTarget
