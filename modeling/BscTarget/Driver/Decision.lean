import BscTarget.Driver.Ready
import BscTarget.Driver.Transmit

/-!
# Publication decisions

While the worker holds a request no DR byte is written (`Silent`), and its response is published
exactly when the request is still the latest one and reception is idle at the deciding FR read
(`latest_request_wins`).
-/

namespace BscTarget

/-! ## What a service pass leaves to the worker -/

/-- The worker's side: whether it holds a request, the responses discarded and published. -/
def Sys.worker (s : Sys) : Bool × ℕ × List Bytes :=
  (s.bsc.workerPending, s.bsc.stats.txDiscarded, publications s.log)

theorem Pass.worker {s t : Sys} (h : Pass s t) : t.worker = s.worker := by
  cases h with
  | fill h =>
    cases h with
    | quiet h =>
      cases h with
      | bus e =>
        rcases Sys.bus_cases s e with
          ⟨_, _, h⟩ | ⟨_, _, _, h⟩ | ⟨_, _, h⟩ | ⟨_, _, _, h⟩ | ⟨_, _, h⟩ <;> rw [h] <;> rfl
      | env => rfl
      | reg => rfl
    | load => rfl
  | status => rfl
  | drain _ =>
    rcases drainByte_cases s with ⟨-, -, -, -, h⟩ | ⟨-, -, -, h⟩ | ⟨-, -, h⟩ | ⟨-, -, h⟩ <;>
      rw [h] <;> rfl
  | finish _ _ _ =>
    have ha : (acknowledged s).worker = s.worker := by
      unfold acknowledged
      split_ifs <;> rfl
    rcases finishBurst_cases s with ⟨-, h⟩ | ⟨-, -, h⟩ | ⟨-, -, h⟩ <;> rw [h] <;> exact ha

theorem worker_steps {s t : Sys} (h : Steps Pass s t) : t.worker = s.worker :=
  Steps.frame (f := Sys.worker) Pass.worker h

/-- Whether a call is a `read`. -/
def Call.reads : Call → Bool
  | .read _ => true
  | _ => false

/-- Only `write` takes its request from the worker. -/
theorem Tend.pending {s t : Sys} (h : Tend s t) (hp : s.bsc.workerPending = true) :
    t.bsc.workerPending = true := by
  cases h with
  | pass h => exact (congrArg Prod.fst h.worker).trans hp
  | release =>
    rw [bscSetReady_bsc]
    exact hp
  | take => rfl
  | _ => exact hp

/-- A `read` that returns a record has dequeued that record, and leaves its request with the
worker. -/
theorem read_record {r : ReadArgs} {s : Sys} {record : Bytes}
    (h : (bscReadMessage r s).1 = .record record) :
    (bscReadMessage r s).2.log = .took record false :: s.log ∧
      (bscReadMessage r s).2.bsc.workerPending = true ∧ s.bsc.dead = false := by
  have hdead : s.bsc.dead = false := by
    unfold bscReadMessage at h
    split_ifs at h with _ hd
    all_goals exact Bool.eq_false_iff.mpr hd
  rcases bscReadMessage_cases r s with ⟨-, -, taken, hlog, hread⟩ | ⟨-, hread⟩ | ⟨-, -, hnot⟩
  · rw [hread] at h ⊢
    obtain rfl := ReadResult.record.inj h
    exact ⟨hlog, rfl, hdead⟩
  · rw [hread] at h
    cases h
  · exact absurd h (hnot record)

/-! ## Silence while the worker holds a request -/

/-- While the worker holds a request no DR byte is written. -/
structure Silent (loaded : Bytes) (s : Sys) : Prop where
  answering : Answering s
  pending : s.bsc.workerPending = true
  loaded : starts s.log < 2 ^ 64 → loadedBytes s.log = loaded

theorem Silent.pass {loaded : Bytes} {s t : Sys} (h : Pass s t) (hi : Silent loaded s) :
    Silent loaded t := by
  have hm : Micro s t := .tend (.pass h)
  refine ⟨hi.answering.micro hm, (congrArg Prod.fst h.worker).trans hi.pending, fun hwrap => ?_⟩
  have hwrap' := Nat.lt_of_le_of_lt (Answering.starts_mono hm.log) hwrap
  have hold := hi.loaded hwrap'
  cases h with
  | fill h =>
    cases h with
    | quiet h =>
      cases h with
      | bus e =>
        rcases Sys.bus_cases s e with
          ⟨_, _, h⟩ | ⟨_, _, _, h⟩ | ⟨_, _, h⟩ | ⟨_, _, _, h⟩ | ⟨_, _, h⟩ <;> rw [h] <;> exact hold
      | env => exact hold
      | reg => exact hold
    | load hq _ _ =>
      have hquiet := (hi.answering.line hwrap').silent (.inl hi.pending)
      rw [hquiet] at hq
      cases hq
  | status => exact hold
  | drain _ =>
    rcases drainByte_cases s with ⟨-, -, -, -, h⟩ | ⟨-, -, -, h⟩ | ⟨-, -, h⟩ | ⟨-, -, h⟩ <;>
      rw [h] <;> exact hold
  | finish _ _ _ =>
    have ha : loadedBytes (acknowledged s).log = loadedBytes s.log := by
      unfold acknowledged
      split_ifs <;> rfl
    rcases finishBurst_cases s with ⟨-, h⟩ | ⟨-, -, h⟩ | ⟨-, -, h⟩ <;> rw [h] <;>
      exact ha.trans hold

theorem Silent.steps {loaded : Bytes} {s t : Sys} (h : Steps Pass s t) (hi : Silent loaded s) :
    Silent loaded t :=
  h.keep Silent.pass hi

/-! ## The latest request wins -/

/-- A discarded response: one more in the count, the request given up, no DR byte written, and
READY released. -/
structure Discards (s t : Sys) : Prop where
  count : t.bsc.stats.txDiscarded = s.bsc.stats.txDiscarded + 1
  silent : loadedBytes t.log = loadedBytes s.log
  ready : t.hw.ready = false

theorem discards {s t u : Sys} (hi : Silent (loadedBytes s.log) u)
    (hu : u.worker = s.worker) (hwrap : starts u.log < 2 ^ 64)
    (ht : t = discardData { u with bsc.workerPending := false }) :
    Discards s t ∧ t.bsc.workerPending = false ∧ publications t.log = publications s.log := by
  subst ht
  have hline := hi.answering.line hwrap
  have hlow := (hline.released (hline.answered_of_pending hi.pending)).1
  have hcount : u.bsc.stats.txDiscarded = s.bsc.stats.txDiscarded :=
    congrArg (fun w => w.2.1) hu
  refine ⟨⟨?_, hi.loaded hwrap, ?_⟩, rfl, congrArg (fun w => w.2.2) hu⟩
  · show u.bsc.stats.txDiscarded + 1 = _
    rw [hcount]
  · show u.hw.ready = false
    rw [hline.gpio, hlow]

/-- What a `write` does for a worker that holds a request. -/
structure Decides (data : Bytes) (t v : Sys) : Prop where
  pending : v.bsc.workerPending = false
  published : publications v.log = publications t.log ++ [data] ↔
    drainedSinceTake (beforeDecision data t).log = false ∧
      (beforeDecision data t).tick.hw.rxBusy = false
  discarded : ¬ (drainedSinceTake (beforeDecision data t).log = false ∧
    (beforeDecision data t).tick.hw.rxBusy = false) → Discards t v

theorem Decides.of_discards {data : Bytes} {t v : Sys}
    (hno : ¬ (drainedSinceTake (beforeDecision data t).log = false ∧
      (beforeDecision data t).tick.hw.rxBusy = false))
    (h : Discards t v ∧ v.bsc.workerPending = false ∧ publications v.log = publications t.log) :
    Decides data t v where
  pending := h.2.1
  published := by
    rw [h.2.2]
    exact ⟨fun h => absurd h.symm (by simp), fun h => absurd h hno⟩
  discarded := fun _ => h.1

/-- What the refill and the announcement leave of a publication. -/
theorem announced_worker (s : Sys) (count : ℕ) :
    (announce (bscRefillTxLocked s) count).bsc.workerPending = s.bsc.workerPending ∧
      publications (announce (bscRefillTxLocked s) count).log = publications s.log := by
  have h : (bscRefillTxLocked s).worker = s.worker :=
    worker_steps (toPass (bscRefillTxLocked_steps s))
  have hpub : publications (bscRefillTxLocked s).log = publications s.log :=
    congrArg (fun w => w.2.2) h
  have hpend : (bscRefillTxLocked s).bsc.workerPending = s.bsc.workerPending := congrArg Prod.fst h
  unfold announce bscSetReady
  dsimp only
  split_ifs
  · exact ⟨hpend, hpub⟩
  · exact ⟨hpend, hpub⟩

/-- What a publication leaves of the worker's request. -/
theorem published_worker (data : Bytes) (s : Sys) :
    let x := announce
      (bscRefillTxLocked (queueData data { s with bsc.workerPending := false })) data.length
    x.bsc.workerPending = false ∧ publications x.log = publications s.log ++ [data] :=
  announced_worker (queueData data { s with bsc.workerPending := false }) data.length

theorem bscPublishResponseLocked_decides {data : Bytes} (h₀ : data.length ≠ 0)
    (h₁ : data.length ≤ bscMaxTransfer) {t : Sys} (hi : Answering t)
    (hp : t.bsc.workerPending = true)
    (hwrap : starts (bscPublishResponseLocked data t).2.log < 2 ^ 64) :
    (bscPublishResponseLocked data t).1 = .ok data.length ∧
      Decides data t (bscPublishResponseLocked data t).2 := by
  have hask : Silent (loadedBytes t.log) (t.note (.asked data)) :=
    ⟨hi.micro (.ask t data h₀ h₁), hp, fun _ => rfl⟩
  have hu : Silent (loadedBytes t.log) (beforeDecision data t) :=
    Silent.steps (bscServiceLocked_steps (t.note (.asked data))) hask
  have huw : (beforeDecision data t).worker = (t.note (.asked data)).worker :=
    worker_steps (bscServiceLocked_steps _)
  have hv : Silent (loadedBytes t.log) (beforeDecision data t).tick :=
    Silent.steps (tick_pass _) hu
  have hvw : (beforeDecision data t).tick.worker = t.worker :=
    (worker_steps (tick_pass _)).trans huw
  have hwrap' : starts (beforeDecision data t).log < 2 ^ 64 := Nat.lt_of_le_of_lt
    (Answering.starts_mono (log_steps (decision_steps h₀ h₁ t))) hwrap
  rcases bscPublishResponseLocked_cases data t with
    ⟨hr, -⟩ | ⟨-, hp', -⟩ | ⟨-, -, hg, h⟩ | ⟨-, -, hb, -, -, h⟩ | ⟨ho, h⟩
  · exact absurd hr (ne_false_of_eq_true hu.answering.fresh.ready)
  · exact absurd hp' (ne_false_of_eq_true hu.pending)
  · -- The request was superseded.
    rw [h]
    refine ⟨rfl, .of_discards (fun hno => ?_) (discards hu huw hwrap' rfl)⟩
    rw [(hu.answering.fresh.stale_iff hwrap').mp hg] at hno
    cases hno.1
  · -- Reception is busy.
    rw [h] at hwrap ⊢
    simp only [log_discard, starts] at hwrap
    refine ⟨rfl, .of_discards (fun hno => ?_) (discards hv hvw hwrap rfl)⟩
    rw [hb] at hno
    cases hno.2
  · have hgen : (beforeDecision data t).bsc.workerGeneration =
        (beforeDecision data t).bsc.requestGeneration := by simpa using ho.generation
    have hfresh := (hu.answering.fresh.generation_eq_iff hwrap').mp hgen
    have hold : publications (beforeDecision data t).tick.log = publications t.log :=
      congrArg (fun w => w.2.2) hvw
    obtain ⟨hpend, hpub⟩ := published_worker data (beforeDecision data t).tick
    rw [h]
    refine ⟨rfl, hpend, ?_, fun hno => absurd ⟨hfresh, ho.busy⟩ hno⟩
    refine ⟨fun _ => ⟨hfresh, ho.busy⟩, fun _ => hpub.trans ?_⟩
    rw [hold]

/-- A `write` to an open device that nothing interrupts. -/
theorem bscQueueResponse_open {data : Bytes} (h₀ : data.length ≠ 0)
    (h₁ : data.length ≤ bscMaxTransfer) {s : Sys} (hd : s.bsc.dead = false)
    (ha : s.bsc.active = true) :
    bscQueueResponse ⟨data, false, false⟩ s = bscPublishResponseLocked data s := by
  unfold bscQueueResponse
  dsimp only
  rw [if_neg (by omega), if_neg (by decide), if_neg (by decide), if_neg (by simp [hd, ha])]

/-- A worker that read a record and then writes: its response is published exactly when nothing
was drained since and reception is idle at the decision, and discarded otherwise. And DR receives
nothing of a response once a burst has begun. -/
theorem latest_request_wins (s : Sys) (hr : s.bsc.readyGpio = true) :
    (∀ calls, LoadsCurrent (run (openSession s) calls).log) ∧
    ∀ (before between : List Call) (r : ReadArgs) (record data : Bytes),
      (bscReadMessage r (run (openSession s) before)).1 = .record record →
      (∀ c ∈ between, c.reads = false ∧ c.writes = false) →
      data.length ≠ 0 → data.length ≤ bscMaxTransfer →
      let t := run (openSession s) (before ++ .read r :: between)
      let v := (bscQueueResponse ⟨data, false, false⟩ t).2
      starts v.log < 2 ^ 64 →
      (bscQueueResponse ⟨data, false, false⟩ t).1 = .ok data.length ∧ Decides data t v := by
  refine ⟨fun calls => (Serving.run s calls).loads, ?_⟩
  intro before between r record data hread hbetween h₀ h₁ t v hwrap
  obtain ⟨-, hpending, hdead⟩ := read_record hread
  have hrun : t = run (exec (run (openSession s) before) (.read r)) between := by
    show run (openSession s) (before ++ .read r :: between) = _
    rw [run_append, run_cons]
  have hp : t.bsc.workerPending = true := by
    rw [hrun]
    exact (run_tend _ fun c hc => (hbetween c hc).2).keep (P := fun s => s.bsc.workerPending = true)
      Tend.pending hpending
  have hstand : t.bsc.standing = (s.bsc.readyGpio, s.bsc.dead, true) := standing_run s _
  have hstand' := standing_run s before
  simp only [Bsc.standing, Prod.mk.injEq] at hstand hstand'
  have hwrite : bscQueueResponse ⟨data, false, false⟩ t = bscPublishResponseLocked data t :=
    bscQueueResponse_open h₀ h₁ (by rw [hstand.2.1, ← hstand'.2.1, hdead]) hstand.2.2
  have hv : v = (bscPublishResponseLocked data t).2 := congrArg Prod.snd hwrite
  rw [hv] at hwrap ⊢
  rw [hwrite]
  exact bscPublishResponseLocked_decides h₀ h₁ (Answering.run hr _) hp hwrap

theorem latest_request_wins_answered :
    (bscQueueResponse ⟨[9], false, false⟩ (run (openSession (bscProbe true))
      ([.bus (.byte 1), .timer] ++ .read ⟨8192, true, false, false, false⟩ :: [.timer]))).1 =
        .ok 1 :=
  ((latest_request_wins (bscProbe true) (by decide +kernel)).2 [.bus (.byte 1), .timer] [.timer]
    ⟨8192, true, false, false, false⟩ [1] [9] (by decide +kernel)
    (by simp [Call.reads, Call.writes]) (by decide) (by decide) (by decide +kernel)).1

end BscTarget
