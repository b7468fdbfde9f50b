import Mathlib.Data.List.Infix
import BscTarget.Driver.Receive

/-!
# Bursts and controller writes

What the driver makes of the bytes of a session. Assuming that FR_RXBUSY covers every controller
write (`Covered`), bursts regroup whole writes; a burst becomes a record exactly when it fits into
`rx_work`, whatever the acknowledgement said and however short its writes were.
-/

namespace BscTarget

/-! ## The log only grows -/

/-- What is noted while no burst ends. -/
def Event.Within : Event → Prop
  | .acked | .finished _ => False
  | _ => True

theorem within_setReady {s t : Sys} (h : t.log = s.log) (level : Bool) :
    Grows Event.Within s.log (bscSetReady level t).log := by
  unfold bscSetReady
  split_ifs
  · show Grows _ s.log (.ready level :: t.log)
    rw [h]
    exact (Grows.refl _).cons trivial
  · rw [h]
    exact .refl _

/-- Only the end of a burst acknowledges and finishes. -/
theorem Micro.within {s t : Sys} (h : Micro s t) : Grows Event.Within s.log t.log ∨
    (¬ (s.bsc.rxWorkLen = 0 ∧ s.bsc.rxOverflowed = false) ∧ t = finishBurst s) := by
  cases h with
  | tend h =>
    cases h with
    | pass h =>
      cases h with
      | fill h =>
        refine .inl (h.grows.mono fun e he => ?_)
        cases e <;> trivial
      | status => exact .inl (.refl _)
      | drain =>
        refine .inl ((grows_drainByte s).mono fun e he => ?_)
        cases e <;> trivial
      | finish hb he hw => exact .inr ⟨hw, rfl⟩
    | cr => exact .inl (.refl _)
    | tally => exact .inl (.refl _)
    | release _ n =>
      refine .inl (within_setReady ?_ false)
      rfl
    | _ => exact .inl ((Grows.refl _).cons trivial)
  | announce data _ =>
    refine .inl (within_setReady ?_ true)
    rfl
  | _ => exact .inl ((Grows.refl _).cons trivial)

theorem Micro.log {s t : Sys} (h : Micro s t) : s.log <:+ t.log := by
  rcases h.within with h | ⟨-, rfl⟩
  · exact h.suffix
  · exact (grows_finishBurst s).suffix

theorem log_steps {s t : Sys} (h : Steps Micro s t) : s.log <:+ t.log :=
  h.lift (R := fun s t : Sys => s.log <:+ t.log) (fun _ => List.suffix_refl _)
    List.IsSuffix.trans Micro.log

/-! ## What entered the FIFO -/

/-- The history accounts for FR_RXBUSY and for every byte in the RX FIFO; `busy` and `fifo` are
what the session found. -/
structure Accounted (busy : Bool) (fifo : Bytes) (s : Sys) : Prop where
  rxBusy : busyFrom busy s.log = s.hw.rxBusy
  rxFifo : fifo ++ arrivals s.log = drainedBytes s.log ++ s.hw.rxFifo

namespace Accounted

variable {busy : Bool} {fifo : Bytes} {s t : Sys}

theorem bus (e : HwEvent) (hi : Accounted busy fifo s) : Accounted busy fifo (s.bus e) := by
  obtain ⟨h₁, h₂⟩ := hi
  rcases Sys.bus_cases s e with
    ⟨on, -, h⟩ | ⟨b, -, -, h⟩ | ⟨b, -, h⟩ | ⟨b, -, -, h⟩ | ⟨-, -, h⟩ <;> rw [h]
  · exact ⟨rfl, h₂⟩
  · refine ⟨h₁, ?_⟩
    show fifo ++ (arrivals s.log ++ [b]) = drainedBytes s.log ++ (s.hw.rxFifo ++ [b])
    rw [← List.append_assoc, h₂, List.append_assoc]
  all_goals exact ⟨h₁, h₂⟩

theorem drainByte (hf : s.hw.rxFifo ≠ []) (hi : Accounted busy fifo s) :
    Accounted busy fifo (drainByte s) := by
  obtain ⟨h₁, h₂⟩ := hi
  obtain ⟨b, rest, hb⟩ := List.exists_cons_of_ne_nil hf
  rw [hb] at h₂
  rcases drainByte_cases s with ⟨-, -, -, -, h⟩ | ⟨-, -, -, h⟩ | ⟨-, -, h⟩ | ⟨-, -, h⟩ <;>
    rw [h] <;> exact ⟨h₁, by
      simp [arrivals_cons, drainedBytes_cons, Event.arrival, Event.drain, hb, h₂]⟩

theorem finishBurst (hi : Accounted busy fifo s) : Accounted busy fifo (finishBurst s) := by
  have ha : Accounted busy fifo (acknowledged s) := by
    unfold acknowledged
    split_ifs
    · exact ⟨hi.rxBusy, hi.rxFifo⟩
    · exact hi
  rcases finishBurst_cases s with ⟨-, h⟩ | ⟨-, -, h⟩ | ⟨-, -, h⟩ <;> rw [h] <;>
    exact ⟨ha.rxBusy, ha.rxFifo⟩

theorem micro (h : Micro s t) (hi : Accounted busy fifo s) : Accounted busy fifo t := by
  rcases h.receive with h | ⟨e, rfl⟩ | ⟨hf, rfl⟩ | ⟨-, -, -, rfl⟩ | ⟨-, fault, rfl⟩
  · exact ⟨by rw [h.busy, h.rxBusy, hi.rxBusy],
      by rw [h.arrived, h.story.drained, h.rxFifo, hi.rxFifo]⟩
  · exact hi.bus e
  · exact hi.drainByte hf
  · exact hi.finishBurst
  · exact ⟨hi.rxBusy, hi.rxFifo⟩

theorem cleared (s : Sys) : Accounted s.hw.rxBusy s.hw.rxFifo (cleared s) := by
  rcases cleared_cases s with h | h <;> rw [h] <;> exact ⟨rfl, List.append_nil _⟩

theorem run (s : Sys) (calls : List Call) :
    Accounted s.hw.rxBusy s.hw.rxFifo (run (openSession s) calls) :=
  (session_steps s calls).keep micro (cleared s)

end Accounted

/-! ## Bursts are whole writes -/

/-- FR_RXBUSY is set from before a write's first byte enters the RX FIFO until its last byte has
entered it: whenever it is clear, what entered so far are whole writes. -/
def Covered (busy : Bool) (fifo : Bytes) (writes : List Bytes) (log : List Event) : Prop :=
  ∀ pre, pre <:+ log → busyFrom busy pre = false →
    ∃ k, fifo ++ arrivals pre = (writes.take k).flatten

/-- Every burst ends where a write ends. -/
def Aligned (writes : List Bytes) (log : List Event) : Prop :=
  ∀ os, os <+: bursts log → ∃ k, os.flatten = (writes.take k).flatten

theorem bursts_bus (s : Sys) (e : HwEvent) : bursts (s.bus e).log = bursts s.log := by
  rw [bursts, (story_bus s e).outcomes, bursts]

theorem bursts_drainByte (s : Sys) : bursts (drainByte s).log = bursts s.log := by
  rw [bursts, outcomes_drainByte, bursts]

theorem bursts_finishBurst (s : Sys) :
    bursts (finishBurst s).log = bursts s.log ++ [burst s.log] := by
  simp [bursts, outcomes_finishBurst]

theorem Aligned.finishBurst {busy : Bool} {fifo : Bytes} {writes : List Bytes} {s : Sys}
    (hcov : Covered busy fifo writes s.log) (hacc : Accounted busy fifo s)
    (hb : s.hw.rxBusy = false) (he : s.hw.rxFifo = []) (hi : Aligned writes s.log) :
    Aligned writes (finishBurst s).log := by
  intro os hos
  rw [bursts_finishBurst] at hos
  rcases List.prefix_concat_iff.mp hos with rfl | hos
  · -- The burst that ends here: everything that entered has been drained.
    obtain ⟨k, hk⟩ := hcov s.log (List.suffix_refl _) (by rw [hacc.rxBusy, hb])
    refine ⟨k, ?_⟩
    rw [← hk, hacc.rxFifo, he, List.append_nil, drainedBytes_eq]
    simp
  · exact hi os hos

theorem Aligned.micro {busy : Bool} {fifo : Bytes} {writes : List Bytes} {s t : Sys}
    (h : Micro s t)
    (hi : Accounted busy fifo s ∧ (Covered busy fifo writes s.log → Aligned writes s.log)) :
    Accounted busy fifo t ∧ (Covered busy fifo writes t.log → Aligned writes t.log) := by
  obtain ⟨hacc, hal⟩ := hi
  refine ⟨hacc.micro h, fun hcov => ?_⟩
  have hcov' : Covered busy fifo writes s.log := fun pre hpre => hcov pre (hpre.trans h.log)
  have hs := hal hcov'
  rcases h.receive with h | ⟨e, rfl⟩ | ⟨-, rfl⟩ | ⟨hb, he, -, rfl⟩ | ⟨-, fault, rfl⟩
  · rw [Aligned, bursts, h.story.outcomes]
    exact hs
  · rw [Aligned, bursts_bus]
    exact hs
  · rw [Aligned, bursts_drainByte]
    exact hs
  · exact hs.finishBurst hcov' hacc hb he
  · exact hs

theorem Aligned.run {writes : List Bytes} {s : Sys} {calls : List Call}
    (hcov : Covered s.hw.rxBusy s.hw.rxFifo writes (run (openSession s) calls).log) :
    Aligned writes (run (openSession s) calls).log := by
  refine ((session_steps s calls).keep (P := fun t => Accounted s.hw.rxBusy s.hw.rxFifo t ∧
    (Covered s.hw.rxBusy s.hw.rxFifo writes t.log → Aligned writes t.log)) Aligned.micro
    ⟨Accounted.cleared s, fun _ => ?_⟩).2 hcov
  have hnil : bursts (cleared s).log = [] := cleared_log bursts rfl s
  intro os hos
  rw [hnil, List.prefix_nil] at hos
  exact ⟨0, by rw [hos]; rfl⟩

/-! ## The overrun counter -/

/-- The finished bursts that were too long. -/
def overlong (log : List Event) : ℕ := (bursts log).countP (bscMaxTransfer < ·.length)

/-- No byte found the RX FIFO full. -/
def Lossless (log : List Event) : Prop := ∀ b, Event.lost b ∉ log

theorem Lossless.of_suffix {l l' : List Event} (h : l <:+ l') (hl : Lossless l') : Lossless l :=
  fun b hb => hl b (h.mem hb)

theorem or_rsrUe_and_rsrOe (x : UInt32) : (x ||| rsrUe) &&& rsrOe = x &&& rsrOe := by
  apply UInt32.toBitVec_inj.mp
  simp only [UInt32.toBitVec_and, UInt32.toBitVec_or, BitVec.and_or_distrib_right]
  have : rsrUe.toBitVec &&& rsrOe.toBitVec = 0#32 := by decide
  rw [this, BitVec.or_zero]

/-- While nothing is lost, RSR_OE stays clear. -/
def OeClear (s : Sys) : Prop := Lossless s.log → s.hw.rsr &&& rsrOe = 0

theorem OeClear.bus {s : Sys} (e : HwEvent) (hi : OeClear s) : OeClear (s.bus e) := by
  intro hl
  have hs := hi (hl.of_suffix (Micro.log (.tend (.pass (.fill (.quiet (.bus s e)))))))
  rcases Sys.bus_cases s e with
    ⟨on, -, h⟩ | ⟨b, -, -, h⟩ | ⟨b, -, h⟩ | ⟨b, -, -, h⟩ | ⟨-, -, h⟩ <;> rw [h] at hl ⊢
  · exact hs
  · exact hs
  · exact absurd List.mem_cons_self (hl b)
  · exact hs
  · dsimp only
    rw [or_rsrUe_and_rsrOe, hs]

theorem OeClear.quiet {s t : Sys} (h : Quiet s t) (hi : OeClear s) : OeClear t := by
  cases h with
  | bus e => exact hi.bus e
  | env => exact hi
  | reg value reg hne hv =>
    intro hl
    cases reg with
    | RSR => simp [Hw.write, hv rfl]
    | CR => exact absurd rfl hne.2
    | _ => exact hi hl

theorem rsr_writeCr (h : Hw) (value : UInt32) : (h.writeCr value).rsr = h.rsr := by
  unfold Hw.writeCr
  split_ifs <;> rfl

theorem OeClear.setup {s t : Sys} (h : Setup s t) (hi : OeClear s) : OeClear t := by
  cases h with
  | quiet h => exact hi.quiet h
  | cr value => exact fun hl => by rw [rsr_writeCr, hi hl]

/-- Configuration clears RSR. -/
theorem oeClear_bscConfigureLocked (s : Sys) : OeClear (bscConfigureLocked s) :=
  (bscConfigureLocked_rest s).keep OeClear.setup fun _ => by simp [bscWrite, Hw.write]

/-- Without loss the counter grows by one for each burst that is too long. -/
structure Overruns (n : ℕ) (s : Sys) : Prop where
  assembling : Assembling s
  oe : OeClear s
  count : Lossless s.log → s.bsc.stats.rxOverruns = n + overlong s.log

theorem overlong_finishBurst {s : Sys} (hi : Assembling s) :
    overlong (finishBurst s).log =
      overlong s.log + (if s.bsc.rxOverflowed then 1 else 0) := by
  have ho := hi.overflow
  rw [overlong, bursts_finishBurst, List.countP_append, List.countP_singleton, ← ho, overlong]

theorem rxOverruns_finishBurst (s : Sys) :
    (finishBurst s).bsc.stats.rxOverruns =
      s.bsc.stats.rxOverruns + (if s.bsc.rxOverflowed then 1 else 0) := by
  have ha : (acknowledged s).bsc.stats = s.bsc.stats := by
    unfold acknowledged
    split_ifs <;> rfl
  rcases finishBurst_cases s with ⟨ho, h⟩ | ⟨ho, -, h⟩ | ⟨ho, -, h⟩ <;> rw [h, ho] <;>
    simp [ha]

theorem rsr_finishBurst (s : Sys) : (finishBurst s).hw.rsr = s.hw.rsr := by
  have ha : (acknowledged s).hw.rsr = s.hw.rsr := by
    unfold acknowledged
    split_ifs <;> rfl
  rcases finishBurst_cases s with ⟨-, h⟩ | ⟨-, -, h⟩ | ⟨-, -, h⟩ <;> rw [h] <;> exact ha

theorem rxOverruns_drainByte (s : Sys) :
    (drainByte s).bsc.stats.rxOverruns = s.bsc.stats.rxOverruns ∧
      (drainByte s).hw.rsr = s.hw.rsr := by
  rcases drainByte_cases s with ⟨-, -, -, -, h⟩ | ⟨-, -, -, h⟩ | ⟨-, -, h⟩ | ⟨-, -, h⟩ <;>
    rw [h] <;> exact ⟨rfl, rfl⟩

namespace Overruns

variable {n : ℕ} {s t : Sys}

/-- A step that leaves RSR, the counter and the bursts alone keeps the count. -/
theorem of_frame (h : Micro s t) (hrsr : t.hw.rsr = s.hw.rsr)
    (hcount : t.bsc.stats.rxOverruns = s.bsc.stats.rxOverruns) (hb : bursts t.log = bursts s.log)
    (hi : Overruns n s) : Overruns n t where
  assembling := hi.assembling.micro h
  oe := fun hl => by rw [hrsr, hi.oe (hl.of_suffix h.log)]
  count := fun hl => by rw [hcount, hi.count (hl.of_suffix h.log), overlong, overlong, hb]

theorem quiet (h : Quiet s t) (hi : Overruns n s) : Overruns n t where
  assembling := hi.assembling.micro (.tend (.pass (.fill (.quiet h))))
  oe := hi.oe.quiet h
  count := fun hl => by
    have hm : Micro s t := .tend (.pass (.fill (.quiet h)))
    have hb : bursts t.log = bursts s.log := by
      cases h with
      | bus e => exact bursts_bus s e
      | env => rfl
      | reg => rfl
    rw [h.bsc, hi.count (hl.of_suffix hm.log), overlong, overlong, hb]

theorem status (hi : Overruns n s) : Overruns n (countStatus s) where
  assembling := hi.assembling.micro (.tend (.pass (.status s)))
  oe := hi.oe
  count := fun hl => by
    have hrsr : s.hw.rsr &&& rsrOe = 0 := hi.oe hl
    simp only [countStatus, hrsr, ne_eq, not_true_eq_false, if_false, Nat.add_zero]
    exact hi.count hl

theorem finishBurst (h : Micro s (finishBurst s)) (hi : Overruns n s) :
    Overruns n (finishBurst s) where
  assembling := hi.assembling.micro h
  oe := fun hl => by rw [rsr_finishBurst, hi.oe (hl.of_suffix h.log)]
  count := fun hl => by
    rw [rxOverruns_finishBurst, hi.count (hl.of_suffix h.log), overlong_finishBurst hi.assembling,
      Nat.add_assoc]

theorem micro (h : Micro s t) (hi : Overruns n s) : Overruns n t := by
  cases h with
  | tend h =>
    cases h with
    | pass h =>
      cases h with
      | fill h =>
        cases h with
        | quiet h => exact hi.quiet h
        | load hq hl hf => exact hi.of_frame (.tend (.pass (.fill (.load s hq hl hf)))) rfl rfl rfl
      | status => exact hi.status
      | drain hf =>
        obtain ⟨hc, hr⟩ := rxOverruns_drainByte s
        exact hi.of_frame (.tend (.pass (.drain s hf))) hr hc (bursts_drainByte s)
      | finish hb he hw => exact hi.finishBurst (.tend (.pass (.finish s hb he hw)))
    | release hp k =>
      refine hi.of_frame (.tend (.release s hp k)) ?_ ?_ ?_ <;>
        (unfold bscSetReady; split_ifs <;> rfl)
    | cr value hc => exact hi.of_frame (.tend (.cr s value hc)) (rsr_writeCr _ _) rfl rfl
    | tally i k => exact hi.of_frame (.tend (.tally s i k)) rfl rfl rfl
    | take f hc => exact hi.of_frame (.tend (.take s f hc)) rfl rfl rfl
    | recover h => exact hi.of_frame (.tend (.recover s h)) rfl rfl rfl
  | announce data ho =>
    refine hi.of_frame (.announce s data ho) ?_ ?_ ?_ <;>
      (unfold announce bscSetReady; split_ifs <;> rfl)
  | ask data h₀ h₁ => exact hi.of_frame (.ask s data h₀ h₁) rfl rfl rfl
  | refuse h ho => exact hi.of_frame (.refuse s h ho) rfl rfl rfl
  | discard hr hp h ho => exact hi.of_frame (.discard s hr hp h ho) rfl rfl rfl
  | publish data h ho h₀ h₁ => exact hi.of_frame (.publish s data h ho h₀ h₁) rfl rfl rfl

/-- Nothing has finished when a session opens. -/
theorem outcomes_openSession (s : Sys) : outcomes (openSession s).log = [] := by
  refine (Steps.frame (f := fun t : Sys => outcomes t.log) ?_ (openSession_steps s)).trans ?_
  · intro s t h
    rcases h with h | _
    · cases h with
      | bus e => exact (story_bus s e).outcomes
      | env => rfl
      | reg => rfl
    · rfl
  · exact cleared_log outcomes rfl s

theorem openSession (s : Sys) : Overruns s.bsc.stats.rxOverruns (openSession s) where
  assembling := Assembling.run s []
  oe := oeClear_bscConfigureLocked _
  count := fun _ => by
    rw [overlong, bursts, outcomes_openSession, openSession_bsc]
    rfl

theorem run (s : Sys) (calls : List Call) :
    Overruns s.bsc.stats.rxOverruns (run (BscTarget.openSession s) calls) :=
  (run_steps _ calls).keep micro (openSession s)

end Overruns

/-! ## Segmentation -/

/-- Bursts regroup whole writes, in order. A burst that fits is published as one record with
exactly its bytes; one that does not publishes nothing and counts one overrun. -/
theorem segmentation (s : Sys) (calls : List Call) (writes : List Bytes)
    (hloss : Lossless (run (openSession s) calls).log)
    (hcov : Covered s.hw.rxBusy s.hw.rxFifo writes (run (openSession s) calls).log) :
    let t := run (openSession s) calls
    (∃ groups : List (List Bytes), groups.map List.flatten = bursts t.log ∧
      groups.flatten <+: writes ∧ ∀ g ∈ groups, g ≠ []) ∧
    (∀ o ∈ outcomes t.log, o.2 = if o.1.length ≤ bscMaxTransfer then some o.1 else none) ∧
    t.bsc.stats.rxOverruns = s.bsc.stats.rxOverruns + overlong t.log := by
  intro t
  have hsound := (Assembling.run s calls).sound
  refine ⟨?_, fun o ho => (hsound o ho).2, (Overruns.run s calls).count hloss⟩
  refine Segments.exists_groups _ writes (fun b hb => ?_) (Aligned.run hcov)
  obtain ⟨o, ho, rfl⟩ := List.mem_map.mp hb
  exact (hsound o ho).1

/-- Two writes merge into one record and a third one keeps its own, although it straddles the
first pass. -/
theorem segmentation_merged :
    let calls := [.bus (.busy true), .bus (.byte 1), .bus (.byte 2), .bus (.byte 3),
      .bus (.busy false), .timer, .bus (.busy true), .bus (.byte 4), .timer, .bus (.byte 5),
      .bus (.busy false), .timer]
    let t := run (openSession (bscProbe false)) calls
    (∃ groups : List (List Bytes), groups.map List.flatten = bursts t.log ∧
      groups.flatten <+: [[1], [2, 3], [4, 5]] ∧ ∀ g ∈ groups, g ≠ []) ∧
    (∀ o ∈ outcomes t.log, o.2 = if o.1.length ≤ bscMaxTransfer then some o.1 else none) ∧
    t.bsc.stats.rxOverruns = (bscProbe false).bsc.stats.rxOverruns + overlong t.log := by
  intro calls t
  have hlog : t.log =
      [.finished (some [4, 5]), .drained 5, .busy false, .arrived 5, .drained 4, .began,
        .arrived 4, .busy true, .finished (some [1, 2, 3]), .drained 3, .drained 2, .drained 1,
        .began, .busy false, .arrived 3, .arrived 2, .arrived 1, .busy true] := by
    decide +kernel
  refine segmentation (bscProbe false) calls _ ?_ ?_
  · intro b
    change Event.lost b ∉ t.log
    rw [hlog]
    simp
  · have hsub : ∀ pre ∈ t.log.tails, busyFrom false pre = false →
        ∃ k ∈ List.range 4,
          arrivals pre = (([[1], [2, 3], [4, 5]] : List Bytes).take k).flatten := by
      rw [hlog]
      decide +kernel
    intro pre hpre hb
    obtain ⟨k, -, hk⟩ := hsub pre ((List.mem_tails _ _).mpr hpre) hb
    exact ⟨k, hk⟩

end BscTarget
