import BscTarget.Driver.Decision

/-!
# Recovery

The TXFLEVEL + 1 enable transitions of `bsc_purge_tx_fifo_locked` empty the serializer and its
FIFO whatever they hold (`held_bscConfigureLocked`). A granted recovery therefore leaves a worker
whose next response starts on an empty transmit side (`Poised.clean`).
-/

namespace BscTarget

/-! ## Purging -/

theorem held_bus {s : Sys} (e : HwEvent) (h : s.hw.tx.held = []) : (s.bus e).hw.tx.held = [] := by
  rcases Sys.tx_bus s e with h' | h' <;> rw [h']
  · exact h
  · rw [TxSide.held_shift, h]
    rfl

theorem held_writeCr {h : Hw} (value : UInt32) (hh : h.tx.held = []) :
    (h.writeCr value).tx.held = [] := by
  unfold Hw.writeCr
  split_ifs
  · show h.tx.shift.held = []
    rw [TxSide.held_shift, hh]
    rfl
  · exact hh

theorem held_quiet {s t : Sys} (h : Quiet s t) (hh : s.hw.tx.held = []) : t.hw.tx.held = [] := by
  cases h with
  | bus e => exact held_bus e hh
  | env => exact hh
  | reg value reg hne _ =>
    show (s.hw.write value reg).tx.held = []
    rw [tx_write hne]
    exact hh

/-- Configuration never fills the transmit side. -/
theorem held_setup {s t : Sys} (h : Setup s t) (hh : s.hw.tx.held = []) : t.hw.tx.held = [] := by
  cases h with
  | quiet h => exact held_quiet h hh
  | cr value => exact held_writeCr value hh

theorem cr_tick (s : Sys) : s.tick.hw.cr = s.hw.cr :=
  Sys.tick_lift (R := fun s t => t.hw.cr = s.hw.cr) (fun _ => rfl) (fun h h' => h'.trans h)
    (fun _ _ => rfl) (fun s e => by
      rcases Sys.bus_cases s e with
        ⟨_, _, h⟩ | ⟨_, _, _, h⟩ | ⟨_, _, h⟩ | ⟨_, _, _, h⟩ | ⟨_, _, h⟩ <;> rw [h]) s

/-- A plain disable clears neither place. -/
theorem disable (s : Sys) :
    (bscWrite .CR 0 s).hw.cr = 0 ∧
      (bscWrite .CR 0 s).hw.tx.held.length ≤ s.hw.tx.held.length := by
  have h : (bscWrite .CR 0 s).hw = { s.tick.hw with cr := 0 } := by
    show s.tick.hw.writeCr 0 = _
    rw [Hw.writeCr, if_neg (by simp)]
  rw [h]
  exact ⟨rfl, Sys.length_held_tick s⟩

/-- An enable transition discards one byte. -/
theorem enable {s : Sys} (h : s.hw.cr &&& crEn = 0) :
    (bscWrite .CR (crEn ||| crTxe) s).hw.tx.held.length ≤ s.hw.tx.held.length - 1 := by
  have hw : (bscWrite .CR (crEn ||| crTxe) s).hw.tx = s.tick.hw.tx.shift := by
    show (s.tick.hw.writeCr (crEn ||| crTxe)).tx = _
    rw [Hw.writeCr, cr_tick, if_pos ⟨h, by decide⟩]
  have hle := Sys.length_held_tick s
  rw [hw, TxSide.held_shift, List.length_tail]
  omega

theorem held_purgeLoop (count : ℕ) {s : Sys} (hcr : s.hw.cr &&& crEn = 0)
    (hle : s.hw.tx.held.length ≤ count) : (purgeLoop count s).hw.tx.held = [] := by
  induction count generalizing s with
  | zero => exact List.length_eq_zero_iff.mp (Nat.le_zero.mp hle)
  | succ count ih =>
    have hon := enable hcr
    obtain ⟨hoff, hle'⟩ := disable (bscWrite .CR (crEn ||| crTxe) s)
    refine ih ?_ (by omega)
    rw [hoff]
    decide

/-- TXFLEVEL + 1 transitions suffice for every level of the FIFO. -/
theorem held_bscPurgeTxFifoLocked (s : Sys) : (bscPurgeTxFifoLocked s).hw.tx.held = [] := by
  obtain ⟨hcr, hle⟩ := disable s.tick
  refine held_purgeLoop _ (by rw [hcr]; decide) ?_
  have hlevel : s.tick.hw.fr.txflevel &&& frTxflevelMask = s.tick.hw.tx.fifo.length := by
    have hmask := Nat.and_two_pow_sub_one_eq_mod s.tick.hw.tx.fifo.length 5
    have hfifo : s.tick.hw.tx.fifo.length ≤ 16 := s.tick.hw.tx.fifo_le
    exact hmask.trans (Nat.mod_eq_of_lt (by omega))
  rw [hlevel]
  exact hle.trans (TxSide.length_held_le _)

theorem held_bscConfigureLocked (s : Sys) : (bscConfigureLocked s).hw.tx.held = [] := by
  refine (bscConfigureLocked_rest s).keep (P := fun s => s.hw.tx.held = []) held_setup ?_
  have hrsr : Reg.RSR ≠ .DR ∧ Reg.RSR ≠ .CR := by decide
  exact (bscWrite_steps hrsr (fun _ => rfl) _).keep (P := fun s => s.hw.tx.held = []) held_quiet
    (held_bscPurgeTxFifoLocked _)

/-! ## No further input -/

theorem inputs_mono {l l' : List Event} (h : l <:+ l') : inputs l ≤ inputs l' := by
  refine Grows.measure_le (fun e log => ?_) h
  cases e with
  | arrived b => exact Nat.le_succ _
  | busy on => cases on <;> first | exact Nat.le_succ _ | exact Nat.le_refl _
  | _ => exact Nat.le_refl _

theorem renewals_mono {l l' : List Event} (h : l <:+ l') : renewals l ≤ renewals l' :=
  Grows.measure_le (fun e _ => by cases e <;> first | exact Nat.le_succ _ | exact Nat.le_refl _) h

/-- Without input a bus event leaves an empty RX FIFO empty and an idle line idle. -/
theorem unheard_bus {s : Sys} {e : HwEvent} (h : inputs (s.bus e).log = inputs s.log) :
    (s.bus e).hw.rxFifo = s.hw.rxFifo ∧ (s.hw.rxBusy = false → (s.bus e).hw.rxBusy = false) := by
  rcases Sys.bus_cases s e with
    ⟨on, _, h'⟩ | ⟨_, _, _, h'⟩ | ⟨_, _, h'⟩ | ⟨_, _, _, h'⟩ | ⟨_, _, h'⟩ <;> rw [h'] at h ⊢
  · cases on with
    | false => exact ⟨rfl, fun _ => rfl⟩
    | true => exact absurd h (Nat.succ_ne_self _)
  · exact absurd h (Nat.succ_ne_self _)
  · exact ⟨rfl, fun h => h⟩
  · exact ⟨rfl, fun h => h⟩
  · exact ⟨rfl, fun h => h⟩

theorem drainByte_rxBusy (s : Sys) : (drainByte s).hw.rxBusy = s.hw.rxBusy := by
  rw [drainByte_hw]

/-- The end of a burst touches nothing of the peripheral but READY. -/
theorem finishBurst_hw (s : Sys) :
    (finishBurst s).hw.rxFifo = s.hw.rxFifo ∧ (finishBurst s).hw.rxBusy = s.hw.rxBusy ∧
      (finishBurst s).hw.tx = s.hw.tx := by
  have ha : (acknowledged s).hw.rxFifo = s.hw.rxFifo ∧
      (acknowledged s).hw.rxBusy = s.hw.rxBusy ∧ (acknowledged s).hw.tx = s.hw.tx := by
    unfold acknowledged
    split_ifs <;> exact ⟨rfl, rfl, rfl⟩
  rcases finishBurst_cases s with ⟨-, h⟩ | ⟨-, -, h⟩ | ⟨-, -, h⟩ <;> rw [h] <;> exact ha

theorem Micro.unheard {s t : Sys} (h : Micro s t) (hn : inputs t.log = inputs s.log) :
    (s.hw.rxFifo = [] → t.hw.rxFifo = []) ∧ (s.hw.rxBusy = false → t.hw.rxBusy = false) := by
  rcases h.receive with h | ⟨e, rfl⟩ | ⟨hf, rfl⟩ | ⟨-, -, -, rfl⟩ | ⟨-, fault, rfl⟩
  · rw [h.rxFifo, h.rxBusy]
    exact ⟨fun h => h, fun h => h⟩
  · obtain ⟨hf, hb⟩ := unheard_bus hn
    rw [hf]
    exact ⟨fun h => h, hb⟩
  · rw [drainByte_rxBusy]
    exact ⟨fun h => absurd h hf, fun h => h⟩
  · obtain ⟨hf, hb, -⟩ := finishBurst_hw s
    rw [hf, hb]
    exact ⟨fun h => h, fun h => h⟩
  · exact ⟨fun h => h, fun h => h⟩

theorem unheard_steps {s t : Sys} (h : Steps Micro s t) (hn : inputs t.log = inputs s.log) :
    (s.hw.rxFifo = [] → t.hw.rxFifo = []) ∧ (s.hw.rxBusy = false → t.hw.rxBusy = false) :=
  ⟨h.keep_while (P := fun s => s.hw.rxFifo = []) (f := fun s : Sys => inputs s.log)
      (fun h => inputs_mono h.log) (fun h hn => (h.unheard hn).1) hn,
    h.keep_while (P := fun s => s.hw.rxBusy = false) (f := fun s : Sys => inputs s.log)
      (fun h => inputs_mono h.log) (fun h hn => (h.unheard hn).2) hn⟩

/-! ## A worker about to answer -/

/-- Nothing is being received, and the transmit side is empty. -/
structure Resting (s : Sys) : Prop where
  ready : s.bsc.readyGpio = true
  work : s.bsc.rxWorkLen = 0 ∧ s.bsc.rxOverflowed = false
  rxFifo : s.hw.rxFifo = []
  rxBusy : s.hw.rxBusy = false
  held : s.hw.tx.held = []
  queued : s.bsc.txQueued = false

theorem Resting.tend {s t : Sys} (h : Tend s t) (hn : inputs t.log = inputs s.log)
    (hi : Resting s) : Resting t := by
  obtain ⟨hr, hw, hf, hb, hh, hq⟩ := hi
  cases h with
  | pass h =>
    cases h with
    | fill h =>
      cases h with
      | quiet h =>
        obtain ⟨hf', hb'⟩ := (Micro.tend (.pass (.fill (.quiet h)))).unheard hn
        have hbsc := h.bsc
        exact ⟨by rw [hbsc, hr], by rw [hbsc]; exact hw, hf' hf, hb' hb, held_quiet h hh,
          by rw [hbsc, hq]⟩
      | load hq' _ _ => exact absurd hq' (ne_true_of_eq_false hq)
    | status => exact ⟨hr, hw, hf, hb, hh, hq⟩
    | drain hne => exact absurd hf hne
    | finish _ _ hne => exact absurd hw hne
  | cr value =>
    have hsame := sameReceive_reg s value .CR
    exact ⟨hr, hw, hsame.rxFifo.trans hf, hsame.rxBusy.trans hb, held_writeCr value hh, hq⟩
  | recover => exact ⟨hr, hw, hf, hb, hh, rfl⟩
  | release =>
    unfold bscSetReady
    split_ifs <;> exact ⟨hr, hw, hf, hb, hh, hq⟩
  | _ => exact ⟨hr, hw, hf, hb, hh, hq⟩

/-- At rest the worker owns the latest request. -/
structure Poised (s : Sys) : Prop where
  rest : Resting s
  pending : s.bsc.workerPending = true
  generation : s.bsc.workerGeneration = s.bsc.requestGeneration

namespace Poised

variable {s t : Sys}

theorem owns (hi : Poised s) : Owns s :=
  ⟨hi.rest.ready, hi.pending, hi.generation, hi.rest.work.1, hi.rest.rxBusy⟩

theorem tend (h : Tend s t) (hn : inputs t.log = inputs s.log) (hi : Poised s) : Poised t := by
  refine ⟨hi.rest.tend h hn, h.pending hi.pending, ?_⟩
  cases h with
  | pass h =>
    cases h with
    | fill h =>
      cases h with
      | quiet h => rw [h.bsc, hi.generation]
      | load => exact hi.generation
    | status => exact hi.generation
    | drain hne => exact absurd hi.rest.rxFifo hne
    | finish _ _ hne => exact absurd hi.rest.work hne
  | take => rfl
  | release =>
    rw [bscSetReady_bsc]
    exact hi.generation
  | _ => exact hi.generation

theorem steps (h : Steps Tend s t) (hn : inputs t.log = inputs s.log) (hi : Poised s) :
    Poised t :=
  h.keep_while (f := fun s : Sys => inputs s.log) (fun h => inputs_mono (Micro.tend h).log)
    (fun h hn hi => hi.tend h hn) hn hi

end Poised

/-! ## A response under way -/

/-- A response is being loaded and clocked, with nothing before it on the transmit side. -/
structure Streaming (data : Bytes) (s : Sys) : Prop where
  serving : Serving s
  flow : Flow s
  queued : s.bsc.txQueued = true
  bytes : s.bsc.txBytes = data
  work : s.bsc.rxWorkLen = 0 ∧ s.bsc.rxOverflowed = false
  rxFifo : s.hw.rxFifo = []
  settled : configuring s.log = false

namespace Streaming

variable {data : Bytes} {s t : Sys}

theorem quiet (h : Quiet s t) (hn : inputs t.log = inputs s.log) (hi : Streaming data s) :
    Streaming data t := by
  have hm : Micro s t := .tend (.pass (.fill (.quiet h)))
  have hbsc := h.bsc
  exact ⟨hi.serving.micro hm, hi.flow.quiet h, by rw [hbsc, hi.queued],
    by rw [hbsc, hi.bytes], by rw [hbsc]; exact hi.work, (hm.unheard hn).1 hi.rxFifo,
    by rw [(Setup.quiet h).configuring, hi.settled]⟩

theorem fill (h : Fill s t) (hn : inputs t.log = inputs s.log) (hi : Streaming data s) :
    Streaming data t := by
  have hm : Micro s t := .tend (.pass (.fill h))
  cases h with
  | quiet h => exact hi.quiet h hn
  | load _ _ hf =>
    have hrx := (sameReceive_reg s (s.bsc.txData s.bsc.txLoaded).toUInt32 .DR).rxFifo
    exact ⟨hi.serving.micro hm, hi.flow.putByte hf, hi.queued, hi.bytes, hi.work,
      hrx.trans hi.rxFifo, rfl⟩

theorem micro (h : Micro s t) (hn : inputs t.log = inputs s.log)
    (hr : renewals t.log = renewals s.log) (hi : Streaming data s) : Streaming data t := by
  have hs := hi.serving.micro h
  cases h with
  | tend h =>
    cases h with
    | pass h =>
      cases h with
      | fill h => exact hi.fill h hn
      | status => exact ⟨hs, hi.flow, hi.queued, hi.bytes, hi.work, hi.rxFifo, hi.settled⟩
      | drain hne => exact absurd hi.rxFifo hne
      | finish _ _ hne => exact absurd hi.work hne
    | cr value hc => exact absurd hc (ne_true_of_eq_false hi.settled)
    | tally => exact ⟨hs, hi.flow, hi.queued, hi.bytes, hi.work, hi.rxFifo, hi.settled⟩
    | take => exact ⟨hs, hi.flow, hi.queued, hi.bytes, hi.work, hi.rxFifo, rfl⟩
    | recover => exact absurd hr (Nat.succ_ne_self _)
    | release =>
      unfold bscSetReady at hs ⊢
      split_ifs at hs ⊢ <;>
        exact ⟨hs, hi.flow, hi.queued, hi.bytes, hi.work, hi.rxFifo, hi.settled⟩
  | ask => exact ⟨hs, hi.flow, hi.queued, hi.bytes, hi.work, hi.rxFifo, rfl⟩
  | refuse => exact ⟨hs, hi.flow, hi.queued, hi.bytes, hi.work, hi.rxFifo, rfl⟩
  | discard => exact ⟨hs, hi.flow, hi.queued, hi.bytes, hi.work, hi.rxFifo, rfl⟩
  | publish => exact absurd hr (Nat.succ_ne_self _)
  | announce =>
    unfold announce bscSetReady at hs ⊢
    split_ifs at hs ⊢ <;>
      exact ⟨hs, hi.flow, hi.queued, hi.bytes, hi.work, hi.rxFifo, hi.settled⟩

theorem run (calls : List Call) (hn : inputs (run s calls).log = inputs s.log)
    (hr : renewals (run s calls).log = renewals s.log) (hi : Streaming data s) :
    Streaming data (run s calls) := by
  refine (run_steps s calls).keep_while (f := fun s : Sys => (inputs s.log, renewals s.log)) ?_ ?_
    (Prod.ext hn hr) hi
  · exact fun h => ⟨inputs_mono h.log, renewals_mono h.log⟩
  · exact fun h hf hi => hi.micro h (congrArg Prod.fst hf) (congrArg Prod.snd hf)

theorem parts (hi : Streaming data s) :
    clockedSince s.log ++ s.hw.tx.held ++ data.drop s.bsc.txLoaded = data := by
  rw [← hi.bytes]
  exact hi.flow.parts hi.serving hi.queued

end Streaming

/-! ## Clean exchanges -/

/-- What a granted recovery leaves behind. -/
structure Restored (s : Sys) : Prop where
  held : s.hw.tx.held = []
  released : s.hw.ready = false
  pending : s.bsc.workerPending = true
  generation : s.bsc.workerGeneration = s.bsc.requestGeneration
  work : s.bsc.rxWorkLen = 0
  latest : starts s.log < 2 ^ 64 → drainedSinceTake s.log = false

theorem grantRecovery_restores {s : Sys} (ho : Owns s) (hf : Fresh (grantRecovery s)) :
    Restored (grantRecovery s) ∧ (grantRecovery s).bsc.txQueued = false := by
  have hheld := held_bscConfigureLocked { s with
    bsc.txQueued := false, bsc.txLen := 0, bsc.txLoaded := 0
    log := .recovered s.hw.fr :: s.log }
  have hbsc : (grantRecovery s).bsc = { s.bsc with
      txQueued := false, txLen := 0, txLoaded := 0, recoveries := s.bsc.recoveries + 1 } := by
    unfold grantRecovery bscSetReady
    dsimp only
    split_ifs <;> rw [bscConfigureLocked_bsc]
  have hhw : (grantRecovery s).hw.tx.held = [] ∧ (grantRecovery s).hw.ready = false := by
    unfold grantRecovery bscSetReady
    dsimp only
    rw [bscConfigureLocked_bsc, if_pos ho.ready]
    exact ⟨hheld, rfl⟩
  have hgen : (grantRecovery s).bsc.workerGeneration =
      (grantRecovery s).bsc.requestGeneration := by rw [hbsc]; exact ho.generation
  refine ⟨⟨hhw.1, hhw.2, by rw [hbsc]; exact ho.pending, hgen, by rw [hbsc]; exact ho.work,
    fun hwrap => (hf.generation_eq_iff hwrap).mp hgen⟩, by rw [hbsc]⟩

/-- A successful recovery was granted behind its pass, on a worker that owns its request. -/
theorem bscIoctlRecover_ok {s : Sys} (h : (bscIoctlRecover s).1 = .ok 0) :
    s.bsc.dead = false ∧ Owns (bscServiceLocked s).tick ∧
      (bscIoctlRecover s).2 = grantRecovery (bscServiceLocked s).tick := by
  unfold bscIoctlRecover at h ⊢
  split_ifs at h ⊢ with hopen
  simp only [not_or, Bool.not_eq_true, Bool.not_eq_false] at hopen
  rcases bscRecoverResponseLocked_cases s with ⟨-, h'⟩ | ⟨-, -, -, h'⟩ | ⟨-, -, -, h'⟩ | ⟨ho, h'⟩
  · rw [h'] at h
    cases h
  · rw [h'] at h
    cases h
  · rw [h'] at h
    cases h
  · exact ⟨hopen.1, ho, congrArg Prod.snd h'⟩

/-- No input since the call began means an idle line and an empty RX FIFO at its end. -/
theorem unheard_recovery {s : Sys} (ho : Owns (bscServiceLocked s).tick)
    (hn : inputs (grantRecovery (bscServiceLocked s).tick).log = inputs s.log) :
    (grantRecovery (bscServiceLocked s).tick).hw.rxFifo = [] ∧
      (grantRecovery (bscServiceLocked s).tick).hw.rxBusy = false := by
  have hbefore : Steps Micro s (bscDrainRxLocked (readStatus s)) :=
    toMicro (toTend ((readStatus_steps s).trans (bscDrainRxLocked_steps _)))
  have hpass : Steps Micro (bscDrainRxLocked (readStatus s)) (bscServiceLocked s).tick :=
    toMicro (toTend ((bscServiceLocked_rest s).trans (tick_pass _)))
  have hgrant : Steps Micro (bscServiceLocked s).tick
      (grantRecovery (bscServiceLocked s).tick) := toMicro (grantRecovery_steps ho)
  have h₁ := inputs_mono (log_steps hbefore)
  have h₂ := inputs_mono (log_steps hpass)
  have h₃ := inputs_mono (log_steps hgrant)
  refine ⟨(unheard_steps (hpass.trans hgrant) (by omega)).1 (rxFifo_bscDrainRxLocked _), ?_⟩
  exact (unheard_steps hgrant (by omega)).2 ho.busy

theorem inputs_bscSetReady (level : Bool) (s : Sys) :
    inputs (bscSetReady level s).log = inputs s.log ∧
      renewals (bscSetReady level s).log = renewals s.log := by
  unfold bscSetReady
  split_ifs <;> exact ⟨rfl, rfl⟩

theorem inputs_discardData (s : Sys) :
    inputs (discardData { s with bsc.workerPending := false }).log = inputs s.log := rfl

theorem inputs_announced (s : Sys) (count : ℕ) :
    inputs s.log ≤ inputs (announce (bscRefillTxLocked s) count).log := by
  have hfill := inputs_mono (log_steps (toMicro (toTend (toPass (bscRefillTxLocked_steps s)))))
  rw [announce, (inputs_bscSetReady _ _).1]
  exact hfill

/-- A response that was just published onto an empty transmit side. -/
theorem Owns.streams {s : Sys} (data : Bytes) (hs : Serving s) (ho : Owns s)
    (hf : s.hw.rxFifo = []) (hh : s.hw.tx.held = []) :
    Streaming data (queueData data { s with bsc.workerPending := false }) := by
  have ha := hs.assembling
  have hover : s.bsc.rxOverflowed = false := by
    by_contra hover
    exact rxWorkLen_ne_zero ha (fun h => hover h.2) ho.work
  refine ⟨hs.queueData ⟨ha.len, ha.overflow, ha.work, ha.sound⟩ ho, ?_, rfl,
    Mem.read_load _ _, ⟨ho.work, hover⟩, hf, rfl⟩
  show [] ++ s.hw.tx.held = []
  rw [hh]
  rfl

theorem Poised.streams {s : Sys} (data : Bytes) (hs : Serving s) (hi : Poised s) :
    Streaming data (queueData data { s with bsc.workerPending := false }) :=
  hi.owns.streams data hs hi.rest.rxFifo hi.rest.held

/-- Loading and announcing a response that streams. -/
theorem Streaming.announced {data : Bytes} {s : Sys} (hu : unannounced s.log = some data)
    (hn : inputs (announce (bscRefillTxLocked s) data.length).log = inputs s.log)
    (hi : Streaming data s) :
    Streaming data (announce (bscRefillTxLocked s) data.length) := by
  obtain ⟨hin, hre⟩ := inputs_bscSetReady true { bscRefillTxLocked s with
    bsc.stats.txTransactions := (bscRefillTxLocked s).bsc.stats.txTransactions + 1
    bsc.stats.txBytes := (bscRefillTxLocked s).bsc.stats.txBytes + data.length }
  have hfill : Streaming data (bscRefillTxLocked s) := by
    refine (bscRefillTxLocked_steps s).keep_while (f := fun s : Sys => inputs s.log) ?_ ?_ ?_ hi
    · exact fun h => inputs_mono (Micro.tend (.pass (.fill h))).log
    · exact fun h hn hi => hi.fill h hn
    · exact hin.symm.trans hn
  exact hfill.micro (.announce _ data (by rw [bscRefillTxLocked_unannounced, hu])) hin hre

/-- A publication loads and announces its response, which streams unless input arrives. -/
theorem published_announced (data : Bytes) (s : Sys) :
    let x := announce
      (bscRefillTxLocked (queueData data { s with bsc.workerPending := false })) data.length
    inputs s.log ≤ inputs x.log ∧ publications x.log = publications s.log ++ [data] ∧
      (Poised s → Serving s → inputs x.log = inputs s.log → Streaming data x) := by
  intro x
  have hin := inputs_announced (queueData data { s with bsc.workerPending := false }) data.length
  exact ⟨hin, (published_worker data s).2, fun hi hs hn => (hi.streams data hs).announced rfl hn⟩

/-- A poised worker's `write` publishes, unless input arrives before its decision. -/
theorem Poised.publishes {data : Bytes} (h₀ : data.length ≠ 0)
    (h₁ : data.length ≤ bscMaxTransfer) {s : Sys} (hs : Serving s) (hi : Poised s)
    (hn : inputs (bscPublishResponseLocked data s).2.log = inputs s.log) :
    (bscPublishResponseLocked data s).1 = .ok data.length ∧
      publications (bscPublishResponseLocked data s).2.log = publications s.log ++ [data] ∧
      Streaming data (bscPublishResponseLocked data s).2 := by
  have hask : Poised (s.note (.asked data)) :=
    ⟨⟨hi.rest.ready, hi.rest.work, hi.rest.rxFifo, hi.rest.rxBusy, hi.rest.held, hi.rest.queued⟩,
      hi.pending, hi.generation⟩
  have hpass : Steps Pass (s.note (.asked data)) (beforeDecision data s) :=
    bscServiceLocked_steps _
  have hin₁ := inputs_mono (log_steps (beforeDecision_steps h₀ h₁ s))
  have hin₂ := inputs_mono (log_steps (decision_steps h₀ h₁ s))
  have hu : Poised (beforeDecision data s) := by
    refine hask.steps (toTend hpass) ?_
    show inputs (beforeDecision data s).log = inputs s.log
    omega
  have hv (h : inputs (beforeDecision data s).tick.log = inputs s.log) :
      Poised (beforeDecision data s).tick :=
    hu.steps (toTend (tick_pass _)) (show inputs (beforeDecision data s).tick.log = _ by omega)
  rcases bscPublishResponseLocked_cases data s with
    ⟨hr, -⟩ | ⟨-, hp, -⟩ | ⟨-, -, hg, -⟩ | ⟨-, -, hb, -, -, h⟩ | ⟨-, h⟩
  · exact absurd hr (ne_false_of_eq_true hu.rest.ready)
  · exact absurd hp (ne_false_of_eq_true hu.pending)
  · exact hg.elim (fun h => absurd hu.generation h) fun h => absurd hu.rest.work.1 h
  · rw [h] at hn
    have hin := (inputs_discardData (beforeDecision data s).tick).symm.trans hn
    exact absurd hb (ne_true_of_eq_false (hv hin).rest.rxBusy)
  · rw [h] at hn ⊢
    have htick := toMicro (toTend (tick_pass (beforeDecision data s)))
    have hin₃ := inputs_mono (log_steps htick)
    obtain ⟨hin₄, hpub, hstream⟩ := published_announced data (beforeDecision data s).tick
    rw [hn] at hin₄
    have hinv : inputs (beforeDecision data s).tick.log = inputs s.log := by omega
    have hserv : Serving (beforeDecision data s).tick :=
      htick.keep Serving.micro ((beforeDecision_steps h₀ h₁ s).keep Serving.micro hs)
    have hworker : (beforeDecision data s).tick.worker = (s.note (.asked data)).worker :=
      (worker_steps (tick_pass _)).trans (worker_steps hpass)
    have hold : publications (beforeDecision data s).tick.log = publications s.log :=
      congrArg (fun w => w.2.2) hworker
    refine ⟨rfl, ?_, hstream (hv hinv) hserv (hn.trans hinv.symm)⟩
    rw [hpub, hold]

/-- Whatever the bus does, unless input arrives: the next `write` publishes, and what the
controller clocks, what the peripheral holds and what is still to be loaded make up exactly that
response, until the next publication or recovery. -/
def CleanExchange (v : Sys) : Prop :=
  ∀ (bus : List (List HwEvent)) (between : List Call) (data : Bytes),
    (∀ c ∈ between, c.writes = false) → data.length ≠ 0 → data.length ≤ bscMaxTransfer →
    let w := run { v with env := bus } between
    let x := (bscQueueResponse ⟨data, false, false⟩ w).2
    inputs x.log = inputs v.log →
    (bscQueueResponse ⟨data, false, false⟩ w).1 = .ok data.length ∧
    publications x.log = publications w.log ++ [data] ∧
    ∀ after, inputs (run x after).log = inputs v.log →
      renewals (run x after).log = renewals x.log →
      clockedSince (run x after).log ++ (run x after).hw.tx.held ++
        data.drop (run x after).bsc.txLoaded = data

/-- The next exchange of a poised worker is clean. -/
theorem Poised.clean {v : Sys} (hs : Serving v) (hd : v.bsc.dead = false)
    (ha : v.bsc.active = true) (hi : Poised v) : CleanExchange v := by
  intro bus between data hbetween h₀ h₁ w x hn
  have hvw : Steps Tend v w :=
    .head (.pass (.fill (.quiet (.env v bus)))) (run_tend _ hbetween)
  have hin : inputs v.log ≤ inputs w.log := inputs_mono (log_steps (toMicro hvw))
  have hstand : w.bsc.standing = v.bsc.standing := standing_steps (toMicro hvw)
  simp only [Bsc.standing, Prod.mk.injEq] at hstand
  have hwrite : bscQueueResponse ⟨data, false, false⟩ w = bscPublishResponseLocked data w :=
    bscQueueResponse_open h₀ h₁ (hstand.2.1.trans hd) (hstand.2.2.trans ha)
  have hx : x = (bscPublishResponseLocked data w).2 := congrArg Prod.snd hwrite
  have hwx : inputs w.log ≤ inputs x.log := by
    rw [hx]
    exact inputs_mono (log_steps (bscPublishResponseLocked_steps h₀ h₁ w))
  have hw : Poised w := hi.steps hvw (by omega)
  have hwserv : Serving w := (toMicro hvw).keep Serving.micro hs
  rw [hx] at hn hwx ⊢
  rw [hwrite]
  obtain ⟨hres, hpub, hstream⟩ := hw.publishes h₀ h₁ hwserv (by omega)
  refine ⟨hres, hpub, fun after hn' hre => ?_⟩
  exact (Streaming.run after (hn'.trans hn.symm) hre hstream).parts

end BscTarget
