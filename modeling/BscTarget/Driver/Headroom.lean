import Mathlib.Data.List.TakeWhile
import BscTarget.Driver.Calm
import BscTarget.Driver.Recovery

/-!
# Transmit headroom

A pass leaves the transmit FIFO full as long as bytes remain unloaded (`Refilled`). From the
threshold of the TX interrupt on, the FIFO and the serializer cover as many clocks as the FIFO
holds there, so a pass that comes before they are used up keeps the controller supplied
(`transmit_headroom`).
-/

namespace BscTarget

/-! ## Passes between clocks -/

/-- A byte was written to DR. -/
def Event.IsLoad : Event → Prop
  | .loaded _ => True
  | _ => False

/-- What the refill leaves while the bus rests: either everything is loaded or the FIFO is
full. -/
structure Refilled (s t : Sys) : Prop where
  env : t.env = []
  rxFifo : t.hw.rxFifo = s.hw.rxFifo
  log : Grows Event.IsLoad s.log t.log
  full : t.bsc.txQueued = true → t.bsc.txLoaded < t.bsc.txLen → t.hw.tx.fifo.length = bscFifoSize

namespace Refilled

variable {s t : Sys}

/-- What ignores loading is as before. -/
theorem frame {β : Type*} {f : List Event → β} (hf : ∀ b l, f (.loaded b :: l) = f l)
    (h : Refilled s t) : f t.log = f s.log := by
  refine h.log.frame fun e l he => ?_
  cases e with
  | loaded b => exact hf b l
  | _ => cases he

theorem write (h : Refilled s t) {reg : Reg} (hr : reg ≠ .DR ∧ reg ≠ .CR) (value : UInt32) :
    Refilled s (bscWrite reg value t) := by
  rw [bscWrite_calm h.env]
  refine ⟨h.env, ?_, h.log, fun hq hl => ?_⟩
  · exact (sameReceive_reg t value reg).rxFifo.trans h.rxFifo
  · show (t.hw.write value reg).tx.fifo.length = bscFifoSize
    rw [tx_write hr]
    exact h.full hq hl

end Refilled

theorem refilled_refillLoop (s : Sys) (h : s.env = []) :
    Refilled s (refillLoop (s.bsc.txLen - s.bsc.txLoaded) s) := by
  refine refill_induction (P := fun s t => s.env = [] → Refilled s t) ?_ ?_ ?_ s h
  · exact fun s hn h => ⟨h, rfl, .refl _, fun hq hl => absurd ⟨hq, hl⟩ hn⟩
  · intro s _ _ hfull h
    rw [tick_calm h] at hfull ⊢
    exact ⟨h, rfl, .refl _, fun _ _ => hfull⟩
  · intro s _ _ _ t ht h
    rw [tick_calm h] at ht
    have hload : (loadByte s).env = [] ∧ (loadByte s).hw.rxFifo = s.hw.rxFifo ∧
        (loadByte s).log = .loaded (s.bsc.txData s.bsc.txLoaded) :: s.log := by
      rw [loadByte_eq, tick_calm h]
      exact ⟨h, (sameReceive_reg s _ .DR).rxFifo, rfl⟩
    obtain ⟨henv, hrx, hlog⟩ := hload
    obtain ⟨he, hr, ⟨new, hnew, hall⟩, hf⟩ := ht henv
    refine ⟨he, hr.trans hrx, ⟨new ++ [.loaded (s.bsc.txData s.bsc.txLoaded)], ?_, ?_⟩, hf⟩
    · rw [hnew, hlog, List.append_assoc]
      rfl
    · intro e he
      rcases List.mem_append.mp he with he | he
      · exact hall e he
      · rw [List.mem_singleton.mp he]
        trivial

theorem refilled_bscRefillTxLocked {s : Sys} (h : s.env = []) :
    Refilled s (bscRefillTxLocked s) :=
  (refilled_refillLoop s h).write (by decide) _

theorem env_readStatus {s : Sys} (h : s.env = []) :
    (readStatus s).env = [] ∧ (readStatus s).hw.rxFifo = s.hw.rxFifo ∧
      (readStatus s).bsc.rxWorkLen = s.bsc.rxWorkLen ∧
      (readStatus s).bsc.rxOverflowed = s.bsc.rxOverflowed ∧ (readStatus s).log = s.log := by
  have hcount : (countStatus s).env = [] := h
  rw [readStatus, tick_calm h]
  split_ifs
  · rw [bscWrite_calm hcount]
    exact ⟨h, rfl, rfl, rfl, rfl⟩
  · exact ⟨h, rfl, rfl, rfl, rfl⟩

theorem env_bscDrainRxLocked (s : Sys) : s.env = [] → (bscDrainRxLocked s).env = [] := by
  refine drain_induction (P := fun s t => s.env = [] → t.env = []) ?_ ?_ s
  · intro s _ h
    rw [tick_calm h]
    exact h
  · intro s _ t ht h
    rw [tick_calm h, tick_calm h, drainByte_env] at ht
    exact ht h

/-- A pass while the bus rests leaves an empty RX FIFO. -/
theorem bscServiceLocked_settles {s : Sys} (h : s.env = []) :
    (bscServiceLocked s).env = [] ∧ (bscServiceLocked s).hw.rxFifo = [] := by
  have hd := env_bscDrainRxLocked _ (env_readStatus h).1
  have hrx := rxFifo_bscDrainRxLocked (readStatus s)
  unfold bscServiceLocked
  dsimp only
  rw [tick_calm hd]
  generalize bscDrainRxLocked (readStatus s) = d at hd hrx
  have hfinish : (bscFinishRxLocked d).hw.rxFifo = [] := by
    unfold bscFinishRxLocked
    split_ifs
    · exact hrx
    · exact (finishBurst_hw d).1.trans hrx
  split_ifs
  · have hr := refilled_bscRefillTxLocked ((bscFinishRxLocked_calm d).1.trans hd)
    exact ⟨hr.env, hr.rxFifo.trans hfinish⟩
  · have hr := refilled_bscRefillTxLocked hd
    exact ⟨hr.env, hr.rxFifo.trans hrx⟩

/-- A pass that finds nothing to receive only refills. -/
theorem refilled_bscServiceLocked {s : Sys} (h : s.env = []) (hf : s.hw.rxFifo = [])
    (hw : s.bsc.rxWorkLen = 0 ∧ s.bsc.rxOverflowed = false) : Refilled s (bscServiceLocked s) := by
  obtain ⟨henv, hrx, hlen, hover, hlog⟩ := env_readStatus h
  have hpass : bscServiceLocked s = bscRefillTxLocked (readStatus s) := by
    have hfinish : bscFinishRxLocked (readStatus s) = readStatus s := by
      rw [bscFinishRxLocked, if_pos ⟨hlen.trans hw.1, hover.trans hw.2⟩]
    rw [bscServiceLocked, bscDrainRxLocked_nil henv (hrx.trans hf), tick_calm henv, hfinish,
      ite_self]
  have hr := refilled_bscRefillTxLocked henv
  rw [hpass]
  exact ⟨hr.env, hr.rxFifo.trans hrx, hlog ▸ hr.log, hr.full⟩

/-! ## Schedules -/

/-- What happens while a response is transmitted: a controller clock, an interrupt or a timer
expiry. -/
inductive Beat
  | clock
  | irq (mis : UInt32)
  | timer
  deriving DecidableEq

def Beat.call : Beat → Call
  | .clock => .bus .clock
  | .irq mis => .irq mis
  | .timer => .timer

/-- Whether a service pass runs. -/
def Beat.serves : Beat → Bool
  | .clock => false
  | .irq mis => mis &&& irqAll ≠ 0
  | .timer => true

/-- The number of bytes clocked. -/
def clocks (beats : List Beat) : ℕ := beats.count .clock

/-- The number of bytes clocked before the next pass. -/
def clocksAhead (beats : List Beat) : ℕ := clocks (beats.takeWhile fun b => !b.serves)

def play (s : Sys) (beats : List Beat) : Sys := run s (beats.map Beat.call)

/-- Seven eighths of the FIFO, the level at which the TX interrupt is raised. -/
def txThreshold : ℕ := bscFifoSize * 7 / 8

/-- Bytes remain unloaded and the FIFO is at or below the threshold. -/
def Starving (s : Sys) : Prop :=
  s.bsc.txLoaded < s.bsc.txLen ∧ s.hw.tx.fifo.length ≤ txThreshold

/-- Whenever the FIFO starves, a pass runs before more than 14 further bytes are clocked. -/
def Headroom (s : Sys) (beats : List Beat) : Prop :=
  ∀ before during after, beats = before ++ during ++ after → Starving (play s before) →
    (∀ b ∈ during, b.serves = false) → clocks during ≤ 14

theorem Headroom.tail {s : Sys} {b : Beat} {beats : List Beat} (h : Headroom s (b :: beats)) :
    Headroom (exec s b.call) beats := by
  intro before during after hsplit hstarving hquiet
  exact h (b :: before) during after (by rw [hsplit]; rfl) hstarving hquiet

theorem Headroom.clocksAhead_le {s : Sys} {beats : List Beat} (h : Headroom s beats)
    (hs : Starving s) : clocksAhead beats ≤ 14 := by
  refine h [] (beats.takeWhile fun b => !b.serves) (beats.dropWhile fun b => !b.serves) ?_ hs ?_
  · rw [List.nil_append, List.takeWhile_append_dropWhile]
  · intro b hb
    simpa using List.mem_takeWhile_imp hb

/-! ## The supply of the controller -/

/-- A response streams, `n` clocks into the schedule: the FIFO is above the threshold, or what
the peripheral holds outlasts the clocks before the next pass. -/
structure Supplied (data : Bytes) (n : ℕ) (beats : List Beat) (s : Sys) : Prop where
  streaming : Streaming data s
  env : s.env = []
  alive : s.bsc.dead = false
  active : s.bsc.active = true
  clocked : (clockedSince s.log).length = min n data.length
  ample : s.bsc.txLoaded < s.bsc.txLen →
    txThreshold < s.hw.tx.fifo.length ∨ clocksAhead beats < s.hw.tx.held.length

namespace Supplied

variable {data : Bytes} {n : ℕ} {beats : List Beat} {s t : Sys}

theorem length_txData (hi : Streaming data s) : s.bsc.txLen = data.length := by
  have h := congrArg List.length hi.bytes
  rwa [Bsc.txBytes, Mem.length_read] at h

/-- Before the end of the response the serializer is occupied. -/
theorem held_ne_nil (hi : Supplied data n beats s) (hn : n < data.length) :
    s.hw.tx.held ≠ [] := by
  intro hheld
  have hparts := congrArg List.length hi.streaming.parts
  have hlen := length_txData hi.streaming
  simp only [List.length_append, List.length_drop, hi.clocked, hheld, List.length_nil] at hparts
  have hfifo : s.hw.tx.fifo.length = 0 := by
    rw [s.hw.tx.fed (TxSide.held_eq_nil.mp hheld)]
    rfl
  rcases hi.ample (by omega) with h | h
  · omega
  · rw [hheld] at h
    exact absurd h (Nat.not_lt_zero _)

/-- What the serializer holds is the next byte of the response. -/
theorem serializer (hi : Supplied data n beats s) (hn : n < data.length) :
    s.hw.tx.serializer = data[n]? := by
  have hne := hi.held_ne_nil hn
  have hparts := hi.streaming.parts
  have hclocked := hi.clocked
  cases hs : s.hw.tx.serializer with
  | none => exact absurd (TxSide.held_eq_nil.mpr hs) hne
  | some b =>
    have hnth : (clockedSince s.log).length = n := by omega
    rw [TxSide.held_of_serializer hs] at hparts
    rw [← hparts, List.append_assoc, ← hnth, List.getElem?_append_right (Nat.le_refl _),
      Nat.sub_self]
    rfl

/-- What the controller obtained is the beginning of the response. -/
theorem clockedSince_eq (hi : Supplied data n beats s) :
    clockedSince s.log = data.take n := by
  have hprefix : clockedSince s.log <+: data := by
    refine ⟨s.hw.tx.held ++ data.drop s.bsc.txLoaded, ?_⟩
    rw [← List.append_assoc]
    exact hi.streaming.parts
  have h := List.prefix_iff_eq_take.mp hprefix
  rw [hi.clocked] at h
  rw [h, ← List.take_take, List.take_of_length_le (Nat.le_refl data.length)]

/-- A clock that finds the serializer empty comes after the end of the response. -/
theorem underrun (hi : Supplied data n (.clock :: beats) s) (hs : s.hw.tx.serializer = none) :
    Supplied data (n + 1) beats
      { s with hw.rsr := s.hw.rsr ||| rsrUe, log := .underrun :: s.log } := by
  have hheld := TxSide.held_eq_nil.mpr hs
  have hn : data.length ≤ n := by
    by_contra hlt
    exact hi.held_ne_nil (Nat.lt_of_not_le hlt) hheld
  have hlen := length_txData hi.streaming
  have hparts := congrArg List.length hi.streaming.parts
  have hclocked := hi.clocked
  simp only [List.length_append, List.length_drop, hclocked, hheld, List.length_nil] at hparts
  have hbus : s.bus .clock =
      { s with hw.rsr := s.hw.rsr ||| rsrUe, log := .underrun :: s.log } := by
    simp only [Sys.bus, hs]
  refine ⟨?_, hi.env, hi.alive, hi.active, ?_, fun hl => ?_⟩
  · rw [← hbus]
    refine hi.streaming.quiet (.bus s .clock) ?_
    rw [hbus]
    rfl
  · show (clockedSince s.log).length = min (n + 1) data.length
    omega
  · have hl' : s.bsc.txLoaded < s.bsc.txLen := hl
    omega

/-- A clock takes the serializer byte. -/
theorem shift (hi : Supplied data n (.clock :: beats) s) (hh : Headroom s (.clock :: beats))
    {b : UInt8} (hs : s.hw.tx.serializer = some b) :
    Supplied data (n + 1) beats { s with hw.tx := s.hw.tx.shift, log := .clocked b :: s.log } := by
  have hlen := length_txData hi.streaming
  have hparts := congrArg List.length hi.streaming.parts
  have hclocked := hi.clocked
  have hheld := congrArg List.length (TxSide.held_of_serializer hs)
  have hfifo := TxSide.length_held_some hs
  have hshift := TxSide.length_fifo_shift s.hw.tx
  simp only [List.length_append, List.length_drop, hclocked] at hparts
  rw [List.length_cons] at hheld
  have hbus : s.bus .clock = { s with hw.tx := s.hw.tx.shift, log := .clocked b :: s.log } := by
    simp only [Sys.bus, hs]
  have hahead : clocksAhead (.clock :: beats) = clocksAhead beats + 1 := by
    simp [clocksAhead, clocks, Beat.serves]
  have hnext := hh.tail.clocksAhead_le
  rw [show exec s Beat.clock.call = s.bus .clock from rfl, hbus] at hnext
  refine ⟨?_, hi.env, hi.alive, hi.active, ?_, fun hl => ?_⟩
  · rw [← hbus]
    refine hi.streaming.quiet (.bus s .clock) ?_
    rw [hbus]
    rfl
  · show (clockedSince s.log ++ [b]).length = min (n + 1) data.length
    rw [List.length_append, List.length_singleton]
    omega
  · have hl' : s.bsc.txLoaded < s.bsc.txLen := hl
    show txThreshold < s.hw.tx.shift.fifo.length ∨ clocksAhead beats < s.hw.tx.shift.held.length
    by_cases hlow : s.hw.tx.shift.fifo.length ≤ txThreshold
    · refine .inr ?_
      rcases hi.ample hl' with h | h
      · -- The clock that brings the FIFO down to the threshold.
        have hthreshold : txThreshold = 14 := rfl
        have hle := hnext ⟨hl', hlow⟩
        omega
      · omega
    · exact .inl (Nat.lt_of_not_le hlow)

theorem clock (hi : Supplied data n (.clock :: beats) s) (hh : Headroom s (.clock :: beats)) :
    Supplied data (n + 1) beats (s.bus .clock) := by
  cases hs : s.hw.tx.serializer with
  | none =>
    simp only [Sys.bus, hs]
    exact hi.underrun hs
  | some b =>
    simp only [Sys.bus, hs]
    exact hi.shift hh hs

/-- A pass fills the FIFO or loads the rest of the response. -/
theorem pass (hi : Supplied data n beats s) {c : Call} (hr : Refilled s (exec s c))
    (beats' : List Beat) : Supplied data n beats' (exec s c) := by
  have hin : inputs (exec s c).log = inputs s.log := hr.frame fun _ _ => rfl
  have hre : renewals (exec s c).log = renewals s.log := hr.frame fun _ _ => rfl
  have hstream : Streaming data (exec s c) := hi.streaming.run [c] hin hre
  refine ⟨hstream, hr.env, (dead_exec s c).trans hi.alive, (active_exec s c).trans hi.active, ?_,
    fun hl => .inl ?_⟩
  · rw [hr.frame (f := clockedSince) fun _ _ => rfl, hi.clocked]
  · rw [hr.full hstream.queued hl]
    decide

/-- What a pass of an interrupt or the timer leaves. -/
theorem refilled (hi : Supplied data n beats s) (stats : Stats) :
    Refilled s (bscServiceLocked { s with bsc.stats := stats }) := by
  have hr := refilled_bscServiceLocked (s := { s with bsc.stats := stats }) hi.env
    hi.streaming.rxFifo hi.streaming.work
  exact ⟨hr.env, hr.rxFifo, hr.log, hr.full⟩

theorem step {b : Beat} (hi : Supplied data n (b :: beats) s) (hh : Headroom s (b :: beats)) :
    Supplied data (n + clocks [b]) beats (exec s b.call) := by
  cases b with
  | clock => exact hi.clock hh
  | timer =>
    refine hi.pass ?_ beats
    rw [Beat.call, exec, bscTimer_eq hi.alive hi.active]
    exact hi.refilled _
  | irq mis =>
    by_cases hp : mis &&& irqAll = 0
    · have hirq : exec s (Beat.irq mis).call = s := if_pos (.inl hp)
      have hahead : clocksAhead (.irq mis :: beats) = clocksAhead beats := by
        simp [clocksAhead, clocks, Beat.serves, hp]
      rw [hirq]
      have hample := hi.ample
      rw [hahead] at hample
      exact { hi with ample := hample }
    · refine hi.pass ?_ beats
      have hactive : ¬ (mis &&& irqAll = 0 ∨ s.bsc.active = false) := by simp [hp, hi.active]
      rw [Beat.call, exec, bscIrq, if_neg hactive]
      exact (hi.refilled _).write (by decide) _

theorem play (hi : Supplied data n beats s) (hh : Headroom s beats) :
    ∀ before after, beats = before ++ after →
      Supplied data (n + clocks before) after (play s before) := by
  intro before
  induction before generalizing s n beats with
  | nil =>
    rintro after rfl
    exact hi
  | cons b before ih =>
    rintro after rfl
    have hnext := ih (hi.step hh) hh.tail after rfl
    have hclocks : clocks (b :: before) = clocks [b] + clocks before := by
      rw [clocks, ← List.singleton_append, List.count_append]
      rfl
    rwa [hclocks, ← Nat.add_assoc]

end Supplied

/-! ## The response -/

/-- Every clock up to the end of the response finds its next byte in the serializer. -/
structure Obtained (data : Bytes) (s : Sys) (beats : List Beat) : Prop where
  next : ∀ before after, beats = before ++ .clock :: after → clocks before < data.length →
    (play s before).hw.tx.serializer = data[clocks before]?
  bytes : clockedSince (play s beats).log = data.take (clocks beats)

/-- The refill and the announcement of a publication. -/
theorem supplied_announced {data : Bytes} {s : Sys} (hi : Streaming data s) (he : s.env = [])
    (hd : s.bsc.dead = false) (ha : s.bsc.active = true) (hc : clockedSince s.log = [])
    (hu : unannounced s.log = some data) (beats : List Beat) :
    Supplied data 0 beats (announce (bscRefillTxLocked s) data.length) := by
  have hr := refilled_bscRefillTxLocked he
  have hstand := standing_bscRefillTxLocked s
  simp only [Bsc.standing, Prod.mk.injEq] at hstand
  have hstream : Streaming data (announce (bscRefillTxLocked s) data.length) := by
    refine hi.announced hu ((inputs_bscSetReady true _).1.trans ?_)
    show inputs (bscRefillTxLocked s).log = inputs s.log
    exact hr.frame fun _ _ => rfl
  have hclocked : clockedSince (bscRefillTxLocked s).log = [] :=
    (hr.frame (f := clockedSince) fun _ _ => rfl).trans hc
  have hfull := hr.full
  have hqueued := hstream.queued
  unfold announce bscSetReady at hstream hqueued ⊢
  split_ifs at hstream hqueued ⊢
  all_goals
    refine ⟨hstream, hr.env, hstand.2.1.trans hd, hstand.2.2.trans ha, ?_, fun hl => .inl ?_⟩
    · show (clockedSince (bscRefillTxLocked s).log).length = min 0 data.length
      rw [hclocked, Nat.zero_min]
      rfl
    · show txThreshold < (bscRefillTxLocked s).hw.tx.fifo.length
      rw [hfull hqueued hl]
      decide

theorem supplied_queued {data : Bytes} {s : Sys} (hs : Serving s) (ho : Owns s)
    (hf : s.hw.rxFifo = []) (hh : s.hw.tx.held = []) (he : s.env = []) (hd : s.bsc.dead = false)
    (ha : s.bsc.active = true) (beats : List Beat) :
    Supplied data 0 beats (announce
      (bscRefillTxLocked (queueData data { s with bsc.workerPending := false })) data.length) :=
  supplied_announced (ho.streams data hs hf hh) he hd ha rfl rfl beats

/-- A publication onto an empty transmit side supplies the controller. -/
theorem supplied_published {data : Bytes} {s : Sys} (hs : Serving s) (he : s.env = [])
    (hd : s.bsc.dead = false) (ha : s.bsc.active = true) (h₀ : data.length ≠ 0)
    (h₁ : data.length ≤ bscMaxTransfer) (hheld : (beforeDecision data s).hw.tx.held = [])
    (hpub : publications (bscPublishResponseLocked data s).2.log = publications s.log ++ [data])
    (beats : List Beat) : Supplied data 0 beats (bscPublishResponseLocked data s).2 := by
  have hpass : Steps Pass (s.note (.asked data)) (beforeDecision data s) :=
    bscServiceLocked_steps _
  obtain ⟨henv, hrx⟩ := bscServiceLocked_settles (s := s.note (.asked data)) he
  have hworker := worker_steps hpass
  have hold : publications (beforeDecision data s).log = publications s.log :=
    congrArg (fun w => w.2.2) hworker
  have hstand := standing_steps (toMicro (toTend hpass))
  simp only [Bsc.standing, Prod.mk.injEq] at hstand
  have hserv : Serving (beforeDecision data s) :=
    (beforeDecision_steps h₀ h₁ s).keep Serving.micro hs
  have htick : (beforeDecision data s).tick = beforeDecision data s := tick_calm henv
  have hnot : ∀ l : List Bytes, l ≠ l ++ [data] := fun l h => by simp at h
  rcases bscPublishResponseLocked_cases data s with
    ⟨-, h⟩ | ⟨-, -, h⟩ | ⟨-, -, -, h⟩ | ⟨-, -, -, -, -, h⟩ | ⟨ho, h⟩ <;> rw [h] at hpub ⊢
  · exact absurd (hold.symm.trans hpub) (hnot _)
  · exact absurd (hold.symm.trans hpub) (hnot _)
  · exact absurd (hold.symm.trans hpub) (hnot _)
  · rw [htick] at hpub
    exact absurd (hold.symm.trans hpub) (hnot _)
  · rw [htick] at ho ⊢
    exact supplied_queued hserv ho hrx hheld henv (hstand.2.1.trans hd) (hstand.2.2.trans ha)
      beats

/-- A `write` that publishes found the device open. -/
theorem bscQueueResponse_published {data : Bytes} {s : Sys}
    (hpub : publications (bscQueueResponse ⟨data, false, false⟩ s).2.log ≠ publications s.log) :
    s.bsc.dead = false ∧ s.bsc.active = true ∧ data.length ≠ 0 ∧
      data.length ≤ bscMaxTransfer := by
  by_cases hlen : data.length = 0 ∨ bscMaxTransfer < data.length
  · rw [bscQueueResponse, if_pos hlen] at hpub
    exact absurd rfl hpub
  · by_cases hopen : s.bsc.dead = true ∨ s.bsc.active = false
    · rw [bscQueueResponse, if_neg hlen, if_neg Bool.false_ne_true, if_neg Bool.false_ne_true,
        if_pos hopen] at hpub
      exact absurd rfl hpub
    · rw [not_or, Bool.not_eq_true, Bool.not_eq_false] at hopen
      exact ⟨hopen.1, hopen.2, fun h => hlen (.inl h), Nat.le_of_not_lt fun h => hlen (.inr h)⟩

/-- Whenever the FIFO starves a pass runs before more than 14 further bytes are clocked: then the
controller obtains the response that was published onto an empty transmit side, byte by byte up
to its end. -/
theorem transmit_headroom (s : Sys) (before : List Call) (data : Bytes) (beats : List Beat) :
    let t := run (openSession s) before
    let x := (bscQueueResponse ⟨data, false, false⟩ t).2
    t.env = [] → (beforeDecision data t).hw.tx.held = [] →
    publications x.log = publications t.log ++ [data] → Headroom x beats →
    Obtained data x beats := by
  intro t x he hheld hpub hh
  have hnew : publications x.log ≠ publications t.log := by
    rw [hpub]
    simp
  obtain ⟨hd, ha, h₀, h₁⟩ := bscQueueResponse_published hnew
  have hi : Supplied data 0 beats x := by
    have hx : x = (bscPublishResponseLocked data t).2 :=
      congrArg Prod.snd (bscQueueResponse_open h₀ h₁ hd ha)
    rw [hx] at hpub ⊢
    exact supplied_published (Serving.run s before) he hd ha h₀ h₁ hheld hpub beats
  refine ⟨fun before after hsplit hn => ?_, ?_⟩
  · have hreach := hi.play hh before (.clock :: after) hsplit
    rw [Nat.zero_add] at hreach
    exact hreach.serializer hn
  · have hreach := hi.play hh beats [] (List.append_nil beats).symm
    rw [Nat.zero_add] at hreach
    exact hreach.clockedSince_eq

/-- A request is received and read. -/
def requested : List Call :=
  [.bus (.byte 1), .timer, .read ⟨8192, true, false, false, false⟩]

theorem transmit_headroom_delayed :
    let x := (bscQueueResponse ⟨List.replicate 40 7, false, false⟩
      (run (openSession (bscProbe true)) requested)).2
    Obtained (List.replicate 40 7) x (List.replicate 10 .clock ++ [.timer]) := by
  refine transmit_headroom (bscProbe true) requested (List.replicate 40 7) _ (by decide +kernel)
    (by decide +kernel) (by decide +kernel) ?_
  intro before during after hsplit _ _
  have hcount := congrArg clocks hsplit
  have hten : clocks (List.replicate 10 .clock ++ [.timer]) = 10 := by decide
  simp only [clocks, List.count_append] at hcount hten ⊢
  omega

end BscTarget
