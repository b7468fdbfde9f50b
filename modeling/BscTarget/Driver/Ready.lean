import BscTarget.Driver.Ownership

/-!
# The READY line

While the generation counters have not wrapped, READY is asserted exactly as long as a response
stands unanswered by a new burst (`Line`); every finished burst gives one falling edge, every
publication one rising edge, and recovery none.
-/

namespace BscTarget

/-! ## The line side of a step -/

/-- `t` has the READY line and the response of `s`, in its state and in its history. -/
structure SameLine (s t : Sys) : Prop where
  gpio : t.hw.ready = s.hw.ready
  count : t.bsc.rxCount = s.bsc.rxCount
  work : t.bsc.rxWorkLen = s.bsc.rxWorkLen
  txLen : t.bsc.txLen = s.bsc.txLen
  queued : t.bsc.txQueued = s.bsc.txQueued
  pending : t.bsc.workerPending = s.bsc.workerPending
  level : level t.log = level s.log
  answered : answered t.log = answered s.log
  awaiting : awaiting t.log = awaiting s.log
  falls : falls t.log = falls s.log
  outcomes : outcomes t.log = outcomes s.log
  rises : ∀ next, PublicationsRise next t.log = PublicationsRise next s.log
  recoveries : RecoveriesReleased t.log = RecoveriesReleased s.log

theorem sameLine_bus (s : Sys) (e : HwEvent) : SameLine s (s.bus e) := by
  rcases Sys.bus_cases s e with ⟨_, _, h⟩ | ⟨_, _, _, h⟩ | ⟨_, _, h⟩ | ⟨_, _, _, h⟩ | ⟨_, _, h⟩ <;>
    rw [h] <;> constructor <;> intros <;> rfl

theorem ready_write (h : Hw) (value : UInt32) (reg : Reg) :
    (h.write value reg).ready = h.ready := by
  cases reg <;> try rfl
  unfold Hw.write Hw.writeCr
  split_ifs <;> rfl

theorem sameLine_reg (s : Sys) (value : UInt32) (reg : Reg) :
    SameLine s { s with hw := s.hw.write value reg } := by
  constructor
  case gpio => exact ready_write _ _ _
  all_goals intros; rfl

theorem sameLine_load (s : Sys) : SameLine s (putByte s) := by
  constructor
  case gpio => exact ready_write _ _ .DR
  all_goals intros; rfl

theorem awaiting_of_unannounced {log : List Event} {data : Bytes}
    (h : unannounced log = some data) : awaiting log = true := by
  induction log with
  | nil => cases h
  | cons e log ih => cases e <;> first | rfl | exact ih h | cases h

/-! ## The invariant -/

/-- What READY says, while the generation counters have not wrapped. -/
structure Line (s : Sys) : Prop where
  gpio : s.hw.ready = level s.log
  asserted : level s.log = true → answered s.log = true
  announced : awaiting s.log = true → answered s.log = true
  waiting : answered s.log = true → level s.log = true ∨ awaiting s.log = true
  pending : answered s.log = true → s.bsc.workerPending = false
  count : answered s.log = true → s.bsc.rxCount = 0
  txLen : answered s.log = true → 1 ≤ s.bsc.txLen
  silent : s.bsc.workerPending = true ∨ s.bsc.rxCount ≠ 0 ∨ s.bsc.rxWorkLen ≠ 0 →
    s.bsc.txQueued = false
  falls : falls s.log = (outcomes s.log).length
  rises : PublicationsRise (if awaiting s.log then some true else none) s.log
  recoveries : RecoveriesReleased s.log

namespace Line

variable {s t : Sys}

theorem of_same (hi : Line s) (h : SameLine s t) : Line t where
  gpio := by rw [h.gpio, h.level, hi.gpio]
  asserted := by rw [h.level, h.answered]; exact hi.asserted
  announced := by rw [h.awaiting, h.answered]; exact hi.announced
  waiting := by rw [h.answered, h.level, h.awaiting]; exact hi.waiting
  pending := by rw [h.answered, h.pending]; exact hi.pending
  count := by rw [h.answered, h.count]; exact hi.count
  txLen := by rw [h.answered, h.txLen]; exact hi.txLen
  silent := by rw [h.pending, h.count, h.work, h.queued]; exact hi.silent
  falls := by rw [h.falls, h.outcomes, hi.falls]
  rises := by rw [h.awaiting, h.rises]; exact hi.rises
  recoveries := by rw [h.recoveries]; exact hi.recoveries

/-- Without an answer the line is released and nothing waits to be announced. -/
theorem released (hi : Line s) (h : answered s.log = false) :
    level s.log = false ∧ awaiting s.log = false := by
  constructor
  · by_contra hl
    rw [hi.asserted (by simpa using hl)] at h
    cases h
  · by_contra hl
    rw [hi.announced (by simpa using hl)] at h
    cases h

theorem answered_of_pending (hi : Line s) (hp : s.bsc.workerPending = true) :
    answered s.log = false := by
  by_contra h
  rw [hi.pending (by simpa using h)] at hp
  cases hp

theorem answered_of_count (hi : Line s) (hc : s.bsc.rxCount ≠ 0) : answered s.log = false := by
  by_contra h
  exact hc (hi.count (by simpa using h))

/-- Nothing is announced before a publication. -/
theorem rises_next (hi : Line s) (h : awaiting s.log = false) (next : Option Bool) :
    PublicationsRise next s.log := by
  have hr := hi.rises
  rw [h] at hr
  exact hr.of_none next

theorem drainByte (ha : Assembling s) (hi : Line s) : Line (drainByte s) := by
  rcases drainByte_cases s with ⟨-, -, -, -, h⟩ | ⟨-, -, -, h⟩ | ⟨hw, -, h⟩ | ⟨-, hlen, h⟩ <;>
    rw [h]
  · exact ⟨hi.gpio, hi.asserted, hi.announced, hi.waiting, hi.pending, fun _ => rfl, hi.txLen,
      fun _ => rfl, hi.falls, hi.rises, hi.recoveries⟩
  · exact ⟨hi.gpio, hi.asserted, hi.announced, hi.waiting, hi.pending, hi.count, hi.txLen,
      fun _ => rfl, hi.falls, hi.rises, hi.recoveries⟩
  · refine ⟨hi.gpio, hi.asserted, hi.announced, hi.waiting, hi.pending, hi.count, hi.txLen,
      fun _ => hi.silent (.inr (.inr (rxWorkLen_ne_zero ha hw))), hi.falls, hi.rises,
      hi.recoveries⟩
  · refine ⟨hi.gpio, hi.asserted, hi.announced, hi.waiting, hi.pending, hi.count, hi.txLen,
      fun _ => hi.silent (.inr (.inr fun hl => ?_)), hi.falls, hi.rises, hi.recoveries⟩
    rw [hl] at hlen
    cases hlen

/-- The end of a burst leaves READY released, whatever its level was. -/
theorem finishBurst (hf : Fresh s) (ha : Assembling s)
    (hw : ¬ (s.bsc.rxWorkLen = 0 ∧ s.bsc.rxOverflowed = false)) (hi : Line s) :
    Line (finishBurst s) := by
  have hlog := log_finishBurst_ready ha hf.latest hf.ready hw
  have hout := outcomes_finishBurst s
  have hwork := (work_finishBurst s).1
  have hbsc : (BscTarget.finishBurst s).hw.ready = false ∧
      (BscTarget.finishBurst s).bsc.workerPending = s.bsc.workerPending ∧
      (BscTarget.finishBurst s).bsc.txQueued = s.bsc.txQueued := by
    have hack : (acknowledged s).hw.ready = false ∧
        (acknowledged s).bsc.workerPending = s.bsc.workerPending ∧
        (acknowledged s).bsc.txQueued = s.bsc.txQueued := by
      rw [acknowledged, if_pos hf.ready]
      exact ⟨rfl, rfl, rfl⟩
    rcases finishBurst_cases s with ⟨-, h⟩ | ⟨-, -, h⟩ | ⟨-, -, h⟩ <;> rw [h] <;> exact hack
  have hquiet : s.bsc.txQueued = false := hi.silent (.inr (.inr (rxWorkLen_ne_zero ha hw)))
  have hans : answered (BscTarget.finishBurst s).log = false := by rw [hlog]; rfl
  refine ⟨?_, ?_, ?_, ?_, ?_, ?_, ?_, ?_, ?_, ?_, ?_⟩
  · rw [hbsc.1, hlog]
    rfl
  · rw [hlog]
    intro h
    cases h
  · rw [hlog]
    intro h
    cases h
  · exact fun h => absurd h (ne_true_of_eq_false hans)
  · exact fun h => absurd h (ne_true_of_eq_false hans)
  · exact fun h => absurd h (ne_true_of_eq_false hans)
  · exact fun h => absurd h (ne_true_of_eq_false hans)
  · exact fun _ => by rw [hbsc.2.2, hquiet]
  · rw [hout, List.length_append, ← hi.falls, hlog]
    rfl
  · rw [hlog]
    show PublicationsRise (some true) s.log
    cases haw : awaiting s.log
    · exact hi.rises_next haw _
    · have hr := hi.rises
      rw [haw] at hr
      exact hr
  · rw [hlog]
    exact hi.recoveries

theorem dequeue (hc : s.bsc.rxCount ≠ 0) (fault : Bool) (hi : Line s) :
    Line (dequeue fault s) := by
  have hans : answered s.log = false := hi.answered_of_count hc
  have hno : ¬ answered s.log = true := by simp [hans]
  exact ⟨hi.gpio, hi.asserted, hi.announced, hi.waiting, fun h => absurd h hno,
    fun h => absurd h hno, hi.txLen, fun _ => hi.silent (.inr (.inl hc)), hi.falls, hi.rises,
    hi.recoveries⟩

theorem discardData (hi : Line s) : Line (discardData { s with bsc.workerPending := false }) :=
  ⟨hi.gpio, hi.asserted, hi.announced, hi.waiting, fun _ => rfl, hi.count, hi.txLen,
    fun h => hi.silent (h.elim (fun h => by cases h) .inr), hi.falls, hi.rises, hi.recoveries⟩

/-- A publication finds READY released and no record queued. -/
theorem queueData (hf : Fresh s) (hwrap : starts s.log < 2 ^ 64) (ho : Owns s) {data : Bytes}
    (h₀ : data.length ≠ 0) (hi : Line s) :
    Line (queueData data { s with bsc.workerPending := false }) := by
  obtain ⟨hlevel, haw⟩ := hi.released (hi.answered_of_pending ho.pending)
  have hcount := (hf.rxCount_of_owns hwrap ho).2
  refine ⟨hi.gpio, fun _ => rfl, fun _ => rfl, fun _ => .inr rfl, fun _ => rfl, fun _ => hcount,
    fun _ => Nat.one_le_iff_ne_zero.mpr h₀, ?_, hi.falls, ?_, hi.recoveries⟩
  · rintro (h | h | h)
    · cases h
    · exact absurd hcount h
    · exact absurd ho.work h
  · exact ⟨hlevel, rfl, hi.rises_next haw _⟩

theorem announce (hr : s.bsc.readyGpio = true) {data : Bytes}
    (hdata : unannounced s.log = some data) (hi : Line s) : Line (announce s data.length) := by
  have haw : awaiting s.log = true := awaiting_of_unannounced hdata
  have hans := hi.announced haw
  rw [BscTarget.announce, bscSetReady, if_pos hr]
  refine ⟨rfl, fun _ => hans, fun h => ?_, fun _ => .inl rfl, hi.pending, hi.count, hi.txLen,
    hi.silent, hi.falls, ?_, hi.recoveries⟩
  · cases h
  · have hrise := hi.rises
    rw [haw] at hrise
    exact hrise

/-- A granted recovery finds READY released, and setting it again changes nothing. -/
theorem recover (ho : Owns s) (hi : Line s) :
    Line { s with
      bsc.txQueued := false, bsc.txLen := 0, bsc.txLoaded := 0
      log := .recovered s.hw.fr :: s.log } := by
  have hans := hi.answered_of_pending ho.pending
  have hno : ¬ answered s.log = true := by simp [hans]
  exact ⟨hi.gpio, hi.asserted, hi.announced, hi.waiting, hi.pending, hi.count,
    fun h => absurd h hno, fun _ => rfl, hi.falls, hi.rises, (hi.released hans).1, hi.recoveries⟩

theorem release (hr : s.bsc.readyGpio = true) (hp : s.bsc.workerPending = true) (n : ℕ)
    (hi : Line s) : Line (bscSetReady false { s with bsc.recoveries := n }) := by
  have hans := hi.answered_of_pending hp
  obtain ⟨hlevel, haw⟩ := hi.released hans
  have hno : ¬ answered s.log = true := by simp [hans]
  have hfalls : BscTarget.falls (.ready false :: s.log) = BscTarget.falls s.log := by
    rw [BscTarget.falls, hlevel]
    rfl
  rw [bscSetReady, if_pos hr]
  refine ⟨rfl, fun h => ?_, fun h => ?_, fun h => absurd h hno, hi.pending, hi.count, hi.txLen,
    hi.silent, hfalls.trans hi.falls, ?_, hi.recoveries⟩
  · cases h
  · cases h
  · exact hi.rises_next haw _

end Line

/-- The invariant of a READY session. -/
structure Answering (s : Sys) : Prop where
  fresh : Fresh s
  assembling : Assembling s
  line : starts s.log < 2 ^ 64 → Line s

namespace Answering

variable {s t : Sys}

theorem starts_mono {l l' : List Event} (h : l <:+ l') : starts l ≤ starts l' :=
  Grows.measure_le (fun e _ => by cases e <;> first | exact Nat.le_refl _ | exact Nat.le_succ _) h

theorem micro (h : Micro s t) (hi : Answering s) : Answering t := by
  obtain ⟨hf, ha, hl⟩ := hi
  refine ⟨hf.micro h, ha.micro h, fun hwrap => ?_⟩
  have hwrap' : starts s.log < 2 ^ 64 := Nat.lt_of_le_of_lt (starts_mono h.log) hwrap
  have hline := hl hwrap'
  cases h with
  | tend h =>
    cases h with
    | pass h =>
      cases h with
      | fill h =>
        cases h with
        | quiet h =>
          cases h with
          | bus e => exact hline.of_same (sameLine_bus s e)
          | env => exact hline.of_same (by constructor <;> intros <;> rfl)
          | reg value reg => exact hline.of_same (sameLine_reg s value reg)
        | load => exact hline.of_same (sameLine_load s)
      | status => exact hline.of_same (by constructor <;> intros <;> rfl)
      | drain => exact hline.drainByte ha
      | finish hb he hw => exact hline.finishBurst hf ha hw
    | cr value => exact hline.of_same (sameLine_reg s value .CR)
    | tally => exact hline.of_same (by constructor <;> intros <;> rfl)
    | take fault hc => exact hline.dequeue hc fault
    | recover ho => exact hline.recover ho
    | release hp n => exact hline.release hf.ready hp n
  | ask => exact hline.of_same (by constructor <;> intros <;> rfl)
  | refuse => exact hline.of_same (by constructor <;> intros <;> rfl)
  | discard => exact hline.discardData
  | publish data ho _ h₀ => exact hline.queueData hf hwrap' ho h₀
  | announce data hdata => exact hline.announce hf.ready hdata

theorem cleared (hr : s.bsc.readyGpio = true) : Answering (cleared s) := by
  refine ⟨.cleared hr, .cleared s, fun _ => ?_⟩
  rw [cleared_wired hr]
  refine ⟨rfl, ?_, ?_, ?_, ?_, ?_, ?_, fun _ => rfl, rfl, trivial, trivial⟩ <;> intro h <;> cases h

theorem run (hr : s.bsc.readyGpio = true) (calls : List Call) :
    Answering (run (openSession s) calls) :=
  (session_steps s calls).keep micro (cleared hr)

end Answering

/-! ## Lock releases -/

theorem rxCount_bscRefillTxLocked (s : Sys) :
    (bscRefillTxLocked s).bsc.rxCount = s.bsc.rxCount := by
  refine Steps.frame (f := fun s : Sys => s.bsc.rxCount) ?_ (bscRefillTxLocked_steps s)
  intro s t h
  cases h with
  | quiet h => rw [h.bsc]
  | load => rfl

theorem announce_ready {s : Sys} (hr : s.bsc.readyGpio = true) (count : ℕ) :
    (announce s count).hw.ready = true ∧ (announce s count).bsc.rxCount = s.bsc.rxCount := by
  unfold announce bscSetReady
  dsimp only
  rw [if_pos hr]
  exact ⟨rfl, rfl⟩

theorem log_bscSetReady {s : Sys} (hr : s.bsc.readyGpio = true) (level : Bool) :
    (bscSetReady level s).log = .ready level :: s.log := by
  rw [bscSetReady, if_pos hr]

theorem log_announce {s : Sys} (hr : s.bsc.readyGpio = true) (count : ℕ) :
    (announce s count).log = .ready true :: s.log := by
  refine log_bscSetReady ?_ true
  exact hr

theorem Pass.awaiting {s t : Sys} (h : Pass s t) (hs : awaiting s.log = false) :
    awaiting t.log = false :=
  h.grows.keep (P := fun log => BscTarget.awaiting log = false)
    (fun e _ he hl => by cases e <;> first | exact hl | rfl | cases he) hs

theorem awaiting_service {s : Sys} (hs : awaiting s.log = false) :
    awaiting (bscServiceLocked s).log = false :=
  (bscServiceLocked_steps s).keep (P := fun s => awaiting s.log = false) Pass.awaiting hs

theorem awaiting_tick {s : Sys} (hs : awaiting s.log = false) : awaiting s.tick.log = false :=
  (toPass (toFill (tick_steps s))).keep (P := fun s => awaiting s.log = false) Pass.awaiting hs

/-- A response that is published is announced at once. -/
theorem published_ready {s : Sys} (hr : s.bsc.readyGpio = true) (data : Bytes) :
    let x := announce
      (bscRefillTxLocked (queueData data { s with bsc.workerPending := false })) data.length
    x.hw.ready = true ∧ x.bsc.rxCount = s.bsc.rxCount ∧ awaiting x.log = false := by
  intro x
  have hstand := standing_bscRefillTxLocked (queueData data { s with bsc.workerPending := false })
  have hcount := rxCount_bscRefillTxLocked (queueData data { s with bsc.workerPending := false })
  have hready := (congrArg Prod.fst hstand).trans hr
  obtain ⟨h₁, h₂⟩ := announce_ready hready data.length
  refine ⟨h₁, h₂.trans hcount, ?_⟩
  rw [log_announce hready]
  rfl

theorem awaiting_publish {s : Sys} (hs : awaiting s.log = false) (data : Bytes) :
    awaiting (bscPublishResponseLocked data s).2.log = false := by
  have ht : awaiting (beforeDecision data s).log = false := awaiting_service hs
  rcases bscPublishResponseLocked_cases data s with
    ⟨-, h⟩ | ⟨-, -, h⟩ | ⟨-, -, -, h⟩ | ⟨-, -, -, -, -, h⟩ | ⟨ho, h⟩ <;> rw [h]
  · simp only [Sys.note_log]
    exact ht
  · simp only [Sys.note_log]
    exact ht
  · simp only [log_discard]
    exact ht
  · simp only [log_discard]
    exact awaiting_tick ht
  · exact (published_ready ho.ready data).2.2

theorem Tend.awaiting {s t : Sys} (h : Tend s t) (hs : awaiting s.log = false) :
    awaiting t.log = false := by
  cases h with
  | pass h => exact h.awaiting hs
  | release =>
    unfold bscSetReady
    split_ifs
    · rfl
    · exact hs
  | _ => exact hs

/-- A publication is announced before the lock is released. -/
theorem awaiting_exec {s : Sys} (hs : awaiting s.log = false) (c : Call) :
    awaiting (exec s c).log = false := by
  by_cases hc : c.writes = false
  · exact (exec_tend s hc).keep (P := fun s => awaiting s.log = false) Tend.awaiting hs
  · cases c with
    | write w =>
      simp only [exec, bscQueueResponse]
      split_ifs
      · exact hs
      · exact hs
      · exact hs
      · exact hs
      · exact awaiting_publish hs w.data
    | _ => exact absurd rfl hc

theorem awaiting_run (s : Sys) (calls : List Call) :
    awaiting (run (openSession s) calls).log = false := by
  have hopen : awaiting (openSession s).log = false := by
    refine (openSession_steps s).keep (P := fun s => awaiting s.log = false) ?_ ?_
    · intro s t h hs
      cases h with
      | quiet h => exact Pass.awaiting (.fill (.quiet h)) hs
      | cr => exact hs
    · exact cleared_log awaiting rfl s
  generalize openSession s = t at hopen
  induction calls generalizing t with
  | nil => exact hopen
  | cons c calls ih => exact ih (exec t c) (awaiting_exec hopen c)

/-! ## Edges -/

/-- The bus and the registers make no edge. -/
theorem edges_bscWrite (reg : Reg) (value : UInt32) (s : Sys) :
    falls (bscWrite reg value s).log = falls s.log ∧
      level (bscWrite reg value s).log = level s.log ∧
      outcomes (bscWrite reg value s).log = outcomes s.log := by
  refine Sys.tick_lift (R := fun s t => falls t.log = falls s.log ∧ level t.log = level s.log ∧
    outcomes t.log = outcomes s.log) (fun _ => ⟨rfl, rfl, rfl⟩) ?_ (fun _ _ => ⟨rfl, rfl, rfl⟩)
    (fun s e => ?_) s
  · exact fun h h' => ⟨h'.1.trans h.1, h'.2.1.trans h.2.1, h'.2.2.trans h.2.2⟩
  · have h := sameLine_bus s e
    exact ⟨h.falls, h.level, h.outcomes⟩

/-- Closing releases READY, which is a falling edge if it was asserted. -/
theorem falls_bscDeactivate {s : Sys} (ha : s.bsc.active = true) (hr : s.bsc.readyGpio = true) :
    falls (bscDeactivate s).log = falls s.log + (if level s.log then 1 else 0) ∧
      outcomes (bscDeactivate s).log = outcomes s.log := by
  have hlog : (bscDeactivate s).log = .ready false ::
      (bscWrite .SLV 0 (bscWrite .RSR 0 (bscWrite .CR 0 (bscWrite .IMSC 0
        { s with bsc.active := false })))).log := by
    rw [bscDeactivate, if_neg (by simp [ha])]
    unfold bscDisableLocked bscResetIoLocked
    dsimp only
    rw [log_bscSetReady (by simpa [Bsc.resetIo] using hr)]
  rw [hlog]
  constructor
  · show falls (bscWrite .SLV 0 _).log + (if level (bscWrite .SLV 0 _).log then 1 else 0) = _
    simp only [edges_bscWrite]
  · show outcomes (bscWrite .SLV 0 _).log = _
    simp only [edges_bscWrite]

/-- The READY edge protocol at a lock release. -/
structure ReadyEdges (s : Sys) : Prop where
  gpio : s.hw.ready = level s.log
  falls : falls s.log = (outcomes s.log).length
  close : BscTarget.falls (bscDeactivate s).log =
    (outcomes (bscDeactivate s).log).length + (if s.hw.ready then 1 else 0)
  rises : PublicationsRise none s.log
  recoveries : RecoveriesReleased s.log
  answered : s.hw.ready = true ↔ answered s.log = true
  idle : s.hw.ready = true → s.bsc.workerPending = false ∧ s.bsc.rxCount = 0 ∧ 1 ≤ s.bsc.txLen

/-- In every READY session in which the generation counters have not wrapped, READY follows the
edge protocol at every lock release. -/
theorem ready_edges (s : Sys) (calls : List Call) (hr : s.bsc.readyGpio = true)
    (hwrap : starts (run (openSession s) calls).log < 2 ^ 64) :
    ReadyEdges (run (openSession s) calls) := by
  have hline := (Answering.run hr calls).line hwrap
  have haw := awaiting_run s calls
  have hstand := standing_run s calls
  generalize run (openSession s) calls = t at hline haw hstand
  obtain ⟨hready, -, hactive⟩ : t.bsc.readyGpio = s.bsc.readyGpio ∧ t.bsc.dead = s.bsc.dead ∧
      t.bsc.active = true := by simpa [Bsc.standing] using hstand
  obtain ⟨hclose, hout⟩ := falls_bscDeactivate hactive (hready.trans hr)
  have hiff : t.hw.ready = true ↔ answered t.log = true := by
    rw [hline.gpio]
    constructor
    · exact hline.asserted
    · intro h
      rcases hline.waiting h with h | h
      · exact h
      · rw [haw] at h
        cases h
  refine ⟨hline.gpio, hline.falls, ?_, hline.rises_next haw none, hline.recoveries, hiff, ?_⟩
  · rw [hclose, hout, hline.falls, hline.gpio]
  · intro h
    have hans := hiff.mp h
    exact ⟨hline.pending hans, hline.count hans, hline.txLen hans⟩

theorem ready_edges_answered :
    ReadyEdges (run (openSession (bscProbe true)) [.bus (.byte 1), .timer,
      .read ⟨8192, true, false, false, false⟩, .write ⟨[9], false, false⟩]) :=
  ready_edges (bscProbe true) _ (by decide +kernel) (by decide +kernel)

/-! ## When the counters wrap -/

/-- A worker that keeps its request while `n` further ones arrive, one byte each. -/
structure Overtaken (n : ℕ) (s : Sys) : Prop where
  calm : Calm s
  rxBusy : s.hw.rxBusy = false
  ready : s.bsc.readyGpio = true
  pending : s.bsc.workerPending = true
  worker : s.bsc.workerGeneration = 1
  request : s.bsc.requestGeneration = 1 + UInt64.ofNat n
  work : s.bsc.rxWorkLen = 0 ∧ s.bsc.rxOverflowed = false
  count : s.bsc.rxCount = if n = 0 then 0 else 1

/-- The same when the next request has just been drained. -/
structure Overtaking (n : ℕ) (s : Sys) : Prop where
  calm : Calm s
  rxBusy : s.hw.rxBusy = false
  ready : s.bsc.readyGpio = true
  pending : s.bsc.workerPending = true
  worker : s.bsc.workerGeneration = 1
  request : s.bsc.requestGeneration = 1 + UInt64.ofNat n + 1
  len : s.bsc.rxWorkLen = 1
  fits : s.bsc.rxOverflowed = false
  count : s.bsc.rxCount = 0

namespace Overtaken

variable {n : ℕ} {s : Sys}

/-- The burst that the byte begins supersedes the queued record. -/
theorem drainByte (h : Overtaken n s) : Overtaking n (drainByte (heard s 0)) := by
  obtain ⟨⟨he, hr, -, -, hd, ha⟩, hb, hready, hp, hw, hreq, ⟨hl, ho⟩, -⟩ := h
  have hreq' : (heard s 0).bsc.requestGeneration + 1 = 1 + UInt64.ofNat n + 1 := by
    rw [← hreq]
    rfl
  rcases drainByte_cases (heard s 0) with ⟨-, -, -, -, h⟩ | ⟨-, -, hc, h⟩ | ⟨hne, -⟩ | ⟨hne, -⟩
  · rw [h]
    exact ⟨⟨he, hr, rfl, rfl, hd, ha⟩, hb, hready, hp, hw, hreq', rfl, ho, rfl⟩
  · have hcount : (heard s 0).bsc.rxCount = 0 := by
      by_contra hne
      exact hc ⟨hready, hne⟩
    rw [h]
    exact ⟨⟨he, hr, rfl, rfl, hd, ha⟩, hb, hready, hp, hw, hreq', rfl, ho, hcount⟩
  · exact absurd ⟨hl, ho⟩ hne
  · exact absurd ⟨hl, ho⟩ hne

theorem finishBurst {u : Sys} (h : Overtaking n u) :
    Overtaken (n + 1) { bscFinishRxLocked u with hw.imsc := irqBase } := by
  obtain ⟨⟨he, hr, hf, hq, hd, ha⟩, hb, hready, hp, hw, hreq, hl, ho, hc⟩ := h
  have hack : acknowledged u = { u with
      bsc.txLen := 0, bsc.txLoaded := 0
      hw.ready := false, log := .acked :: .ready false :: .ready true :: u.log } := by
    rw [acknowledged, if_pos hready]
  rw [bscFinishRxLocked, if_neg (by simp [hl])]
  rcases finishBurst_cases u with ⟨h', -⟩ | ⟨-, h', -⟩ | ⟨-, -, h'⟩
  · rw [ho] at h'
    cases h'
  · rw [hc] at h'
    cases h'
  · rw [h', hack]
    refine ⟨⟨he, hr, hf, hq, hd, ha⟩, hb, hready, hp, hw, ?_, ⟨rfl, rfl⟩, ?_⟩
    · show u.bsc.requestGeneration = 1 + UInt64.ofNat (n + 1)
      rw [hreq, UInt64.ofNat_add, ← UInt64.add_assoc]
      rfl
    · show u.bsc.rxCount + 1 = _
      rw [hc, if_neg (Nat.succ_ne_zero n)]

theorem byte (h : Overtaken n s) :
    Overtaken (n + 1) (run s [.bus (.byte 0), .timer]) := by
  rw [run_byte h.calm, if_neg (by simp [h.rxBusy])]
  exact finishBurst h.drainByte

theorem feed (k : ℕ) : ∀ {n : ℕ} {s : Sys}, Overtaken n s →
    Overtaken (n + k) (run s (feed k)) := by
  induction k with
  | zero => exact fun h => h
  | succ k ih =>
    intro n s h
    rw [run_feed_succ, Nat.add_comm k 1, ← Nat.add_assoc]
    exact ih h.byte

theorem start : Overtaken 0 (run (openSession (bscProbe true)) [.bus (.byte 0), .timer,
    .read ⟨8192, true, false, false, false⟩]) := by
  refine ⟨⟨?_, ?_, ?_, ?_, ?_, ?_⟩, ?_, ?_, ?_, ?_, ?_, ⟨?_, ?_⟩, ?_⟩ <;> decide +kernel

/-- After 2⁶⁴ further requests the generations agree again, and the response to the first request
is published beside the queued record of the last one. -/
theorem publish (h : Overtaken (2 ^ 64) s) :
    (exec s (.write ⟨[0], false, false⟩)).hw.ready = true ∧
      (exec s (.write ⟨[0], false, false⟩)).bsc.rxCount = 1 := by
  obtain ⟨⟨he, hr, hf, hq, hd, ha⟩, hb, hready, hp, hw, hreq, ⟨hl, ho⟩, hc⟩ := h
  have hexec : exec s (.write ⟨[0], false, false⟩) = (bscPublishResponseLocked [0] s).2 := by
    simp [exec, bscQueueResponse, hd, ha, bscMaxTransfer]
  have hbefore : beforeDecision [0] s = { s.note (.asked [0]) with hw.imsc := irqBase } := by
    unfold beforeDecision
    rw [bscServiceLocked_calm (s := s.note (.asked [0])) he hr (bscDrainRxLocked_nil he hf) he hq
      hf, if_neg (by simp [hb]), bscFinishRxLocked, if_pos ⟨hl, ho⟩]
  have htick : (beforeDecision [0] s).tick = beforeDecision [0] s := by
    rw [hbefore]
    exact tick_calm he
  have hwrapped : s.bsc.requestGeneration = 1 := hreq.trans (by decide)
  rw [hexec]
  rcases bscPublishResponseLocked_cases [0] s with
    ⟨h', -⟩ | ⟨-, h', -⟩ | ⟨-, -, h', -⟩ | ⟨-, -, h', -⟩ | ⟨hown, h'⟩
  · rw [hbefore] at h'
    exact absurd h' (ne_false_of_eq_true hready)
  · rw [hbefore] at h'
    exact absurd h' (ne_false_of_eq_true hp)
  · rw [hbefore] at h'
    rcases h' with h' | h'
    · exact absurd (hw.trans hwrapped.symm) h'
    · exact absurd hl h'
  · rw [htick, hbefore] at h'
    exact absurd h' (ne_true_of_eq_false hb)
  · rw [h']
    obtain ⟨h₁, h₂, -⟩ := published_ready hown.ready [0]
    refine ⟨h₁, h₂.trans ?_⟩
    rw [htick, hbefore]
    exact hc

end Overtaken

/-- The worker reads one request and answers it after `n` further ones have arrived. -/
def overtakeCalls (n : ℕ) : List Call :=
  [.bus (.byte 0), .timer, .read ⟨8192, true, false, false, false⟩] ++ feed n ++
    [.write ⟨[0], false, false⟩]

/-- The READY edge protocol fails once the generation counters wrap. -/
theorem not_readyEdges_wrapped :
    ¬ ReadyEdges (run (openSession (bscProbe true)) (overtakeCalls (2 ^ 64))) := by
  intro h
  rw [overtakeCalls, run_append, run_append, run_cons, run_nil] at h
  have hfeed := Overtaken.start.feed (2 ^ 64)
  rw [Nat.zero_add] at hfeed
  obtain ⟨hready, hcount⟩ := hfeed.publish
  have hidle := (h.idle hready).2.1
  rw [hcount] at hidle
  cases hidle

end BscTarget
