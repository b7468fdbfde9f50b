import BscTarget.Driver.Calm
import BscTarget.Driver.Queue

/-!
# Acknowledgement, acceptance and merged writes

The end of a burst acknowledges it before the overflow flag decides whether it becomes a record,
and the flag depends on the length of the burst, not on that of its writes. Both therefore do
what they promise exactly as long as no burst outgrows `rx_work`.
-/

namespace BscTarget

/-! ## Acknowledgements -/

/-- The number of acknowledgements. -/
def acks : List Event → ℕ
  | [] => 0
  | .acked :: log => acks log + 1
  | _ :: log => acks log

/-- Every acknowledgement is followed, in the same pass, by the publication of its request as a
record, and there are no other records. -/
structure AckedAccepted (log : List Event) : Prop where
  published : ∀ l l', log = l ++ .acked :: l' → ∃ r, l.getLast? = some (.finished (some r))
  paired : acks log = (records log).length

/-- What follows an acknowledgement: its burst is published if it fits and dropped otherwise. -/
def AckOutcome (log : List Event) : Prop :=
  ∀ l l', log = l ++ .acked :: l' → l.getLast? =
    some (.finished (if (burst l').length ≤ bscMaxTransfer then some (burst l') else none))

theorem AckOutcome.cons {e : Event} {log : List Event} (he : e ≠ .acked) (hi : AckOutcome log) :
    AckOutcome (e :: log) := by
  intro l l' h
  rcases l with _ | ⟨e', l⟩
  · exact absurd (List.cons.inj h).1 he
  · rw [List.getLast?_cons, hi l l' (List.cons.inj h).2]
    rfl

/-! ## Records and bursts -/

/-- The records are the bursts that fit. -/
theorem records_eq {s : Sys} (hi : Assembling s) :
    records s.log = (bursts s.log).filter (·.length ≤ bscMaxTransfer) := by
  have key : ∀ os : List (Bytes × Option Bytes),
      (∀ o ∈ os, o.2 = if o.1.length ≤ bscMaxTransfer then some o.1 else none) →
      os.filterMap Prod.snd = (os.map Prod.fst).filter (·.length ≤ bscMaxTransfer) := by
    intro os
    induction os with
    | nil => exact fun _ => rfl
    | cons o os ih =>
      intro hos
      have ho := hos o List.mem_cons_self
      have htail := ih fun o' ho' => hos o' (List.mem_cons_of_mem _ ho')
      by_cases hfit : o.1.length ≤ bscMaxTransfer
      · rw [if_pos hfit] at ho
        simp [ho, hfit, htail]
      · rw [if_neg hfit] at ho
        simp [ho, hfit, htail]
  exact key _ fun o ho => (hi.sound o ho).2

theorem bursts_ne_nil {s : Sys} (hi : Assembling s) : ∀ b ∈ bursts s.log, b ≠ [] := by
  intro b hb
  obtain ⟨o, ho, rfl⟩ := List.mem_map.mp hb
  exact (hi.sound o ho).1

/-! ## Acknowledged means accepted -/

theorem outcomes_mono {log log' : List Event} (h : log <:+ log') :
    outcomes log <+: outcomes log' := by
  refine (Grows.of_suffix h).keep (P := fun log' => outcomes log <+: outcomes log') ?_
    (List.prefix_refl _)
  intro e log' _ hp
  cases e <;> first | exact hp | exact hp.trans (List.prefix_append _ _)

/-- In READY mode the end of a burst acknowledges it and then publishes or drops it. -/
theorem log_finishBurst_ready {s : Sys} (ha : Assembling s) (hl : Latest s)
    (hr : s.bsc.readyGpio = true) (hw : ¬ (s.bsc.rxWorkLen = 0 ∧ s.bsc.rxOverflowed = false)) :
    (finishBurst s).log =
      .finished (if (burst s.log).length ≤ bscMaxTransfer then some (burst s.log) else none) ::
        .acked :: .ready false :: .ready true :: s.log := by
  have hlog : (acknowledged s).log = .acked :: .ready false :: .ready true :: s.log := by
    rw [acknowledged, if_pos hr]
  have hbytes : (acknowledged s).bsc.workBytes = s.bsc.workBytes := by
    rw [acknowledged, if_pos hr]
    rfl
  have hov := ha.overflow
  rcases finishBurst_cases s with ⟨ho, h⟩ | ⟨-, hc, -⟩ | ⟨ho, -, h⟩
  · rw [ho, eq_comm, decide_eq_true_eq] at hov
    rw [h, hlog, if_neg (Nat.not_le.mpr hov)]
  · rw [hl.rxCount_eq_zero hr hw] at hc
    cases hc
  · obtain ⟨hle, heq⟩ := ha.workBytes_eq ho
    rw [h, hlog, if_pos hle, bytes_filledSlot, hbytes, heq]

/-- In READY mode acknowledgements and finished bursts come in pairs. -/
structure Acked (s : Sys) : Prop where
  assembling : Assembling s
  latest : Latest s
  ready : s.bsc.readyGpio = true
  outcome : AckOutcome s.log
  count : acks s.log = (outcomes s.log).length

namespace Acked

variable {s t : Sys}

theorem finishBurst (hw : ¬ (s.bsc.rxWorkLen = 0 ∧ s.bsc.rxOverflowed = false)) (hi : Acked s) :
    AckOutcome (finishBurst s).log ∧
      acks (finishBurst s).log = (outcomes (finishBurst s).log).length := by
  have hlog := log_finishBurst_ready hi.assembling hi.latest hi.ready hw
  have hold : AckOutcome (.ready false :: .ready true :: s.log) :=
    (hi.outcome.cons Event.noConfusion).cons Event.noConfusion
  constructor
  · intro l l' h
    rw [hlog] at h
    rcases l with _ | ⟨e, _ | ⟨e', l⟩⟩
    · simp at h
    · -- The acknowledgement of the burst that ends here.
      simp only [List.cons_append, List.nil_append, List.cons.injEq, true_and] at h
      obtain ⟨he, rfl⟩ := h
      rw [← he]
      rfl
    · simp only [List.cons_append, List.cons.injEq] at h
      have hlast := hold l l' h.2.2
      rw [List.getLast?_cons_cons]
      rcases l with _ | ⟨e'', l⟩
      · simp at hlast
      · rw [List.getLast?_cons_cons]
        exact hlast
  · rw [outcomes_finishBurst, List.length_append, ← hi.count, hlog]
    rfl

theorem micro (h : Micro s t) (hi : Acked s) : Acked t := by
  have hr : t.bsc.readyGpio = true := by rw [h.readyGpio, hi.ready]
  suffices hlog : AckOutcome t.log ∧ acks t.log = (outcomes t.log).length from
    ⟨hi.assembling.micro h, hi.latest.micro h, hr, hlog.1, hlog.2⟩
  rcases h.within with h | ⟨hw, rfl⟩
  · have hacks : acks t.log = acks s.log :=
      h.frame fun e _ he => by cases e <;> first | rfl | cases he
    have houtcomes : outcomes t.log = outcomes s.log :=
      h.frame fun e _ he => by cases e <;> first | rfl | cases he
    rw [hacks, houtcomes]
    refine ⟨h.keep (fun e l he hl => hl.cons ?_) hi.outcome, hi.count⟩
    rintro rfl
    exact he
  · exact hi.finishBurst hw

theorem cleared {s : Sys} (hr : s.bsc.readyGpio = true) : Acked (cleared s) := by
  refine ⟨.cleared s, .cleared s, ?_, ?_, ?_⟩ <;> rw [cleared_wired hr]
  · exact hr
  · have hnil : AckOutcome [] := fun l l' h => by simp at h
    exact hnil.cons Event.noConfusion
  · rfl

theorem run {s : Sys} (hr : s.bsc.readyGpio = true) (calls : List Call) :
    Acked (run (openSession s) calls) :=
  (session_steps s calls).keep micro (cleared hr)

/-- The burst behind an acknowledgement is among the finished ones. -/
theorem mem_bursts (hi : Acked s) {l l' : List Event} (h : s.log = l ++ .acked :: l') :
    burst l' ∈ bursts s.log := by
  obtain ⟨m, hm⟩ := List.getLast?_eq_some_iff.mp (hi.outcome l l' h)
  have hpre := outcomes_mono (List.suffix_append m (.finished (if (burst l').length ≤
    bscMaxTransfer then some (burst l') else none) :: .acked :: l'))
  rw [h, hm, List.append_assoc]
  refine List.mem_map.mpr ⟨_, hpre.mem (List.mem_append_right _ (List.mem_singleton_self _)), rfl⟩

theorem accepted_iff (hi : Acked s) :
    AckedAccepted s.log ↔ ∀ b ∈ bursts s.log, b.length ≤ bscMaxTransfer := by
  constructor
  · intro h b hb
    have hlen := h.paired
    rw [hi.count, records, eq_comm, List.filterMap_length_eq_length] at hlen
    obtain ⟨o, ho, rfl⟩ := List.mem_map.mp hb
    by_contra hlong
    have hsome := hlen o ho
    rw [(hi.assembling.sound o ho).2, if_neg hlong] at hsome
    cases hsome
  · intro hfit
    constructor
    · intro l l' h
      exact ⟨_, by rw [hi.outcome l l' h, if_pos (hfit _ (hi.mem_bursts h))]⟩
    · rw [hi.count, records, eq_comm, List.filterMap_length_eq_length]
      intro o ho
      rw [(hi.assembling.sound o ho).2, if_pos (hfit _ (List.mem_map.mpr ⟨o, ho, rfl⟩))]
      rfl

end Acked

/-- In every READY session each acknowledgement stands for exactly one published record if and
only if no finished burst was longer than `rx_work`. -/
theorem acknowledged_accepted (s : Sys) (calls : List Call) (hr : s.bsc.readyGpio = true) :
    let t := run (openSession s) calls
    AckedAccepted t.log ↔ ∀ b ∈ bursts t.log, b.length ≤ bscMaxTransfer :=
  (Acked.run hr calls).accepted_iff

theorem acknowledged_accepted_short :
    AckedAccepted (run (openSession (bscProbe true)) [.bus (.byte 1), .timer]).log :=
  (acknowledged_accepted (bscProbe true) [.bus (.byte 1), .timer] (by decide +kernel)).mpr
    (by decide +kernel)

/-! ## Merged writes -/

/-- Every byte received so far is in a record, in `rx_work` or still in the RX FIFO; `fifo` is
what the session found there. -/
def Retained (fifo : Bytes) (s : Sys) : Prop :=
  fifo ++ arrivals s.log = (records s.log).flatten ++ s.bsc.workBytes ++ s.hw.rxFifo

theorem Accounted.retained_iff {busy : Bool} {fifo : Bytes} {s : Sys}
    (hacc : Accounted busy fifo s) (ha : Assembling s) :
    Retained fifo s ↔ (∀ b ∈ bursts s.log, b.length ≤ bscMaxTransfer) ∧
      (burst s.log).length ≤ bscMaxTransfer := by
  rw [Retained, hacc.rxFifo, drainedBytes_eq, List.append_left_inj, records_eq ha, ha.work]
  constructor
  · intro h
    have hlen := congrArg List.length h
    rw [List.length_append, List.length_append, List.length_take] at hlen
    have hle := (List.filter_sublist (p := fun b : Bytes => decide (b.length ≤ bscMaxTransfer))
      (l := bursts s.log)).flatten.length_le
    refine ⟨fun b hb => ?_, by omega⟩
    by_contra hlong
    have hlt := Segments.length_flatten_filter_lt
      (fun b : Bytes => decide (b.length ≤ bscMaxTransfer)) hb (bursts_ne_nil ha b hb)
      (by simpa using hlong)
    omega
  · rintro ⟨hfit, hcur⟩
    rw [List.filter_eq_self.mpr (by simpa using hfit), List.take_of_length_le hcur]

/-- In every session no received byte is lost if and only if no burst, finished or not, has grown
longer than `rx_work`. -/
theorem merging_retains (s : Sys) (calls : List Call) :
    let t := run (openSession s) calls
    Retained s.hw.rxFifo t ↔ (∀ b ∈ bursts t.log, b.length ≤ bscMaxTransfer) ∧
      (burst t.log).length ≤ bscMaxTransfer :=
  (Accounted.run s calls).retained_iff (Assembling.run s calls)

/-! ## A burst that outgrows `rx_work` -/

/-- `n` zero bytes, each followed by a timer pass. -/
def feed (n : ℕ) : List Call := (List.replicate n [.bus (.byte 0), .timer]).flatten

theorem run_feed_succ (s : Sys) (n : ℕ) :
    run s (feed (n + 1)) = run (run s [.bus (.byte 0), .timer]) (feed n) := by
  rw [← run_append]
  rfl

/-- In the middle of a controller write, `n` zero bytes into a burst. -/
structure Midway (writes : List Bytes) (n : ℕ) (s : Sys) : Prop where
  calm : Calm s
  rxBusy : s.hw.rxBusy = true
  burst : burst s.log = List.replicate n 0
  arrived : arrivals s.log = List.replicate n 0
  outcomes : outcomes s.log = []
  lossless : Lossless s.log
  evictions : evictions s.log = 0
  covered : Covered false [] writes s.log
  busy : busyFrom false s.log = true

theorem Covered.cons {busy : Bool} {fifo : Bytes} {writes : List Bytes} {log : List Event}
    {e : Event} (hi : Covered busy fifo writes log)
    (he : busyFrom busy (e :: log) = false →
      ∃ k, fifo ++ arrivals (e :: log) = (writes.take k).flatten) :
    Covered busy fifo writes (e :: log) := by
  intro pre hpre
  rcases List.suffix_cons_iff.mp hpre with rfl | hpre
  · exact he
  · exact hi pre hpre

namespace Midway

variable {writes : List Bytes} {n : ℕ} {s : Sys}

theorem byte (h : Midway writes n s) :
    Midway writes (n + 1) (run s [.bus (.byte 0), .timer]) := by
  obtain ⟨hcalm, hbusy, pre, hpre, hlog⟩ := run_byte_busy h.calm h.rxBusy 0
  have hlast : List.replicate (n + 1) (0 : UInt8) = List.replicate n 0 ++ [0] :=
    List.replicate_succ'
  have hcov : Covered false [] writes (.arrived 0 :: s.log) :=
    h.covered.cons fun hb => absurd hb (ne_false_of_eq_true h.busy)
  have hnot {e : Event} {log : List Event} (hb : busyFrom false (e :: log) = true)
      (hi : Covered false [] writes log) : Covered false [] writes (e :: log) :=
    hi.cons fun hb' => absurd hb' (ne_false_of_eq_true hb)
  refine ⟨hcalm, hbusy, ?_, ?_, ?_, ?_, ?_, ?_, ?_⟩ <;> rw [hlog]
  · rcases hpre with rfl | rfl | rfl <;> simp [BscTarget.burst, h.burst, hlast]
  · rcases hpre with rfl | rfl | rfl <;>
      simp [arrivals_cons, Event.arrival, h.arrived, hlast]
  · rcases hpre with rfl | rfl | rfl <;> exact h.outcomes
  · intro b hb
    have hmem : Event.lost b ∈ s.log := by
      rcases hpre with rfl | rfl | rfl <;> simpa using hb
    exact h.lossless b hmem
  · rcases hpre with rfl | rfl | rfl <;> exact h.evictions
  · rcases hpre with rfl | rfl | rfl
    · exact hnot h.busy hcov
    · exact hnot h.busy (hnot h.busy hcov)
    · exact hnot h.busy (hnot h.busy (hnot h.busy hcov))
  · rcases hpre with rfl | rfl | rfl <;> exact h.busy

theorem feed (k : ℕ) : ∀ {n : ℕ} {s : Sys}, Midway writes n s →
    Midway writes (n + k) (run s (feed k)) := by
  induction k with
  | zero => exact fun h => h
  | succ k ih =>
    intro n s h
    rw [run_feed_succ, Nat.add_comm k 1, ← Nat.add_assoc]
    exact ih h.byte

/-- A write ends and the next one begins before any pass looks. -/
theorem gap (h : Midway writes n s) {k : ℕ}
    (hk : List.replicate n 0 = (writes.take k).flatten) :
    Midway writes n (run s [.bus (.busy false), .bus (.busy true)]) := by
  obtain ⟨⟨he, hr, hf, hq, hd, ha⟩, -, hburst, harr, hout, hloss, hev, hcov, -⟩ := h
  refine ⟨⟨he, hr, hf, hq, hd, ha⟩, rfl, hburst, harr, hout, ?_, hev, ?_, rfl⟩
  · intro b hb
    exact hloss b (by simpa [run, exec, Sys.bus] using hb)
  · refine Covered.cons (Covered.cons hcov fun _ => ⟨k, ?_⟩) fun hb => by cases hb
    rw [← hk, ← harr]
    rfl

theorem start (writes : List Bytes) (readyGpio : Bool) :
    Midway writes 0 (run (openSession (bscProbe readyGpio)) [.bus (.busy true)]) := by
  have hlog : (run (openSession (bscProbe readyGpio)) [.bus (.busy true)]).log =
      .busy true :: if readyGpio then [.ready false] else [] := by
    cases readyGpio <;> decide +kernel
  have hnil : Covered false [] writes [] := fun pre hpre _ => ⟨0, by
    rw [List.suffix_nil.mp hpre]
    rfl⟩
  refine ⟨⟨?_, ?_, ?_, ?_, ?_, ?_⟩, ?_, ?_, ?_, ?_, ?_, ?_, ?_, ?_⟩
  · cases readyGpio <;> decide +kernel
  · cases readyGpio <;> decide +kernel
  · cases readyGpio <;> decide +kernel
  · cases readyGpio <;> decide +kernel
  · cases readyGpio <;> decide +kernel
  · cases readyGpio <;> decide +kernel
  · cases readyGpio <;> decide +kernel
  all_goals rw [hlog]
  · cases readyGpio <;> rfl
  · cases readyGpio <;> rfl
  · cases readyGpio <;> rfl
  · cases readyGpio <;> simp [Lossless]
  · cases readyGpio <;> rfl
  · refine Covered.cons ?_ fun hb => by cases hb
    cases readyGpio
    · exact hnil
    · exact hnil.cons fun _ => ⟨0, rfl⟩
  · rfl

/-- The write ends and a pass notices. -/
theorem finish (h : Midway writes n s) (ha : Assembling s) (hn : n ≠ 0) :
    bursts (run s [.bus (.busy false), .timer]).log = [List.replicate n 0] := by
  obtain ⟨he, hr, hf, hq, hd, hact⟩ := h.calm
  have hidle : Calm (s.bus (.busy false)) := ⟨he, hr, hf, hq, hd, hact⟩
  have hrun : run s [.bus (.busy false), .timer] = run (s.bus (.busy false)) [.timer] := rfl
  have hw : ¬ ((expired (s.bus (.busy false))).bsc.rxWorkLen = 0 ∧
      (expired (s.bus (.busy false))).bsc.rxOverflowed = false) := by
    rintro ⟨hlen, -⟩
    have hlen' : min (BscTarget.burst s.log).length bscMaxTransfer = 0 := ha.len.symm.trans hlen
    rw [h.burst, List.length_replicate] at hlen'
    have : bscMaxTransfer = 8192 := rfl
    omega
  have hfin : (run (s.bus (.busy false)) [.timer]).log =
      (finishBurst (expired (s.bus (.busy false)))).log := by
    rw [run_timer hidle, if_neg (by simp [Sys.bus]), bscFinishRxLocked, if_neg hw]
  rw [hrun, hfin, bursts_finishBurst]
  show bursts s.log ++ [BscTarget.burst s.log] = _
  rw [bursts, h.outcomes, h.burst]
  rfl

end Midway

/-- Two writes without an observed gap: one that fills `rx_work`, and one byte more. -/
def mergedWrites : List Bytes := [List.replicate bscMaxTransfer 0, [0]]

def mergedCalls : List Call :=
  [.bus (.busy true)] ++ feed bscMaxTransfer ++ [.bus (.busy false), .bus (.busy true)] ++ feed 1

theorem midway_merged (readyGpio : Bool) :
    Midway mergedWrites (bscMaxTransfer + 1)
      (run (openSession (bscProbe readyGpio)) mergedCalls) := by
  unfold mergedCalls
  rw [run_append, run_append, run_append]
  have hfull := (Midway.start mergedWrites readyGpio).feed bscMaxTransfer
  rw [Nat.zero_add] at hfull
  exact (hfull.gap (k := 1) (by simp [mergedWrites])).feed 1

/-- A request that outgrew `rx_work` is acknowledged and dropped. -/
theorem overlong_acknowledged :
    ¬ AckedAccepted (run (openSession (bscProbe true))
      (mergedCalls ++ [.bus (.busy false), .timer])).log := by
  intro h
  have hacked : Acked (run (openSession (bscProbe true))
      (mergedCalls ++ [.bus (.busy false), .timer])) := Acked.run (by decide +kernel) _
  have hb := (midway_merged true).finish (Assembling.run _ _) (Nat.succ_ne_zero _)
  rw [← run_append] at hb
  have hle := hacked.accepted_iff.mp h (List.replicate (bscMaxTransfer + 1) 0) (by rw [hb]; simp)
  rw [List.length_replicate] at hle
  omega

/-- Two legal writes that merge into a burst of 8193 bytes lose the last one, although no byte
found the RX FIFO full and no record was evicted. -/
theorem merged_lost :
    (∀ w ∈ mergedWrites, 1 ≤ w.length ∧ w.length ≤ bscMaxTransfer) ∧
    (bscProbe false).bsc.readyGpio = false ∧
    Covered (bscProbe false).hw.rxBusy (bscProbe false).hw.rxFifo mergedWrites
      (run (openSession (bscProbe false)) mergedCalls).log ∧
    Lossless (run (openSession (bscProbe false)) mergedCalls).log ∧
    evictions (run (openSession (bscProbe false)) mergedCalls).log = 0 ∧
    ¬ Retained (bscProbe false).hw.rxFifo (run (openSession (bscProbe false)) mergedCalls) := by
  have h := midway_merged false
  refine ⟨?_, by decide +kernel, h.covered, h.lossless, h.evictions, fun hret => ?_⟩
  · intro w hw
    rcases List.mem_cons.mp hw with rfl | hw
    · rw [List.length_replicate]
      exact ⟨by decide, Nat.le_refl _⟩
    · rw [List.mem_singleton.mp hw]
      decide
  · have hle := ((Accounted.run (bscProbe false) mergedCalls).retained_iff
      (Assembling.run _ _) |>.mp hret).2
    rw [h.burst, List.length_replicate] at hle
    omega

end BscTarget
