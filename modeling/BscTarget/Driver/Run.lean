import BscTarget.Driver.Trace

/-!
# Calls, sessions and runs

A session starts with `bsc_activate` on a device in any prior condition and then runs any
sequence of interrupts, timer expiries, system calls and bus events; inside each of them the bus
moves as `env` says. Everything such a run does is a path of atomic steps (`run_steps`).
-/

namespace BscTarget

/-- One lock section of an open session, or a bus event outside of any. -/
inductive Call
  | irq (mis : UInt32)
  | timer
  | read (r : ReadArgs)
  | write (w : WriteArgs)
  | recover
  | bus (e : HwEvent)

def exec (s : Sys) : Call → Sys
  | .irq mis => bscIrq mis s
  | .timer => bscTimer s
  | .read r => (bscReadMessage r s).2
  | .write w => (bscQueueResponse w s).2
  | .recover => (bscIoctlRecover s).2
  | .bus e => s.bus e

def run (s : Sys) (calls : List Call) : Sys := calls.foldl exec s

@[simp] theorem run_nil (s : Sys) : run s [] = s := rfl

@[simp] theorem run_cons (s : Sys) (c : Call) (calls : List Call) :
    run s (c :: calls) = run (exec s c) calls := rfl

theorem run_append (s : Sys) (l l' : List Call) : run s (l ++ l') = run (run s l) l' :=
  List.foldl_append

/-- A session opened on `s`, its history starting there. -/
def openSession (s : Sys) : Sys := bscActivate { s with log := [] }

/-! ## The outcomes of publication and recovery -/

theorem workerStale_cases (s : Sys) :
    ((s.bsc.workerGeneration ≠ s.bsc.requestGeneration ∨ s.bsc.rxWorkLen ≠ 0) ∧
      workerStale s = (true, s)) ∨
    (s.bsc.workerGeneration = s.bsc.requestGeneration ∧ s.bsc.rxWorkLen = 0 ∧
      workerStale s = (s.tick.hw.rxBusy, s.tick)) := by
  by_cases h : s.bsc.workerGeneration ≠ s.bsc.requestGeneration ∨ s.bsc.rxWorkLen ≠ 0
  · exact .inl ⟨h, by rw [workerStale, if_pos h]⟩
  · refine .inr ?_
    rw [workerStale, if_neg h]
    rw [not_or, not_not, not_not] at h
    exact ⟨h.1, h.2, rfl⟩

/-- Giving up ownership before the FR read or behind it is the same. -/
theorem tick_release (s : Sys) :
    Sys.tick { s with bsc.workerPending := false } =
      { s.tick with bsc.workerPending := false } := by
  rw [Sys.tick_with_bsc]
  simp

/-- The state a publication attempt decides on, before its FR read. -/
def beforeDecision (data : Bytes) (s : Sys) : Sys := bscServiceLocked (s.note (.asked data))

/-- The outcomes of a publication attempt. -/
theorem bscPublishResponseLocked_cases (data : Bytes) (s : Sys) :
    let t := beforeDecision data s
    (t.bsc.readyGpio = false ∧
      bscPublishResponseLocked data s = (.error .EOPNOTSUPP, t.note .refused)) ∨
    (t.bsc.readyGpio = true ∧ t.bsc.workerPending = false ∧
      bscPublishResponseLocked data s = (.error .EPROTO, t.note .refused)) ∨
    (t.bsc.readyGpio = true ∧ t.bsc.workerPending = true ∧
      (t.bsc.workerGeneration ≠ t.bsc.requestGeneration ∨ t.bsc.rxWorkLen ≠ 0) ∧
      bscPublishResponseLocked data s =
        (.ok data.length, discardData { t with bsc.workerPending := false })) ∨
    (t.bsc.readyGpio = true ∧ t.bsc.workerPending = true ∧ t.tick.hw.rxBusy = true ∧
      t.bsc.workerGeneration = t.bsc.requestGeneration ∧ t.bsc.rxWorkLen = 0 ∧
      bscPublishResponseLocked data s =
        (.ok data.length, discardData { t.tick with bsc.workerPending := false })) ∨
    (Owns t.tick ∧
      bscPublishResponseLocked data s = (.ok data.length,
        announce (bscRefillTxLocked (queueData data { t.tick with bsc.workerPending := false }))
          data.length)) := by
  intro t
  have ht : bscServiceLocked (s.note (.asked data)) = t := rfl
  by_cases hr : t.bsc.readyGpio = false
  · exact .inl ⟨hr, by simp only [bscPublishResponseLocked, ht, if_pos hr]⟩
  have hr' : t.bsc.readyGpio = true := by simpa using hr
  by_cases hp : t.bsc.workerPending = false
  · exact .inr (.inl ⟨hr', hp, by simp only [bscPublishResponseLocked, ht, if_neg hr, if_pos hp]⟩)
  have hp' : t.bsc.workerPending = true := by simpa using hp
  refine .inr (.inr ?_)
  rcases workerStale_cases { t with bsc.workerPending := false } with ⟨h, hw⟩ | ⟨hg, hl, hw⟩
  · refine .inl ⟨hr', hp', h, ?_⟩
    simp only [bscPublishResponseLocked, ht, if_neg hr, if_neg hp, hw, if_true]
  · rw [tick_release] at hw
    by_cases hb : t.tick.hw.rxBusy = true
    · refine .inr (.inl ⟨hr', hp', hb, hg, hl, ?_⟩)
      simp only [bscPublishResponseLocked, ht, if_neg hr, if_neg hp, hw, hb, if_true]
    · refine .inr (.inr ⟨?_, ?_⟩)
      · exact ⟨by simpa using hr', by simpa using hp', by simpa using hg, by simpa using hl,
          by simpa using hb⟩
      · simp only [bscPublishResponseLocked, ht, if_neg hr, if_neg hp, hw, if_neg hb]

theorem log_discard (s : Sys) :
    (discardData { s with bsc.workerPending := false }).log = .discarded :: s.log := rfl

/-- The outcomes of a recovery. -/
theorem bscRecoverResponseLocked_cases (s : Sys) :
    let t := bscServiceLocked s
    ((t.bsc.readyGpio = false ∨ t.bsc.workerPending = false) ∧
      bscRecoverResponseLocked s = (.error .EPROTO, t)) ∨
    (t.bsc.readyGpio = true ∧ t.bsc.workerPending = true ∧
      (t.bsc.workerGeneration ≠ t.bsc.requestGeneration ∨ t.bsc.rxWorkLen ≠ 0) ∧
      bscRecoverResponseLocked s = (.error .EAGAIN, t)) ∨
    (t.bsc.readyGpio = true ∧ t.bsc.workerPending = true ∧ t.tick.hw.rxBusy = true ∧
      bscRecoverResponseLocked s = (.error .EAGAIN, t.tick)) ∨
    (Owns t.tick ∧ bscRecoverResponseLocked s = (.ok 0, grantRecovery t.tick)) := by
  intro t
  have ht : bscServiceLocked s = t := rfl
  by_cases hp : t.bsc.readyGpio = false ∨ t.bsc.workerPending = false
  · exact .inl ⟨hp, by simp only [bscRecoverResponseLocked, ht, if_pos hp]⟩
  have hrp : t.bsc.readyGpio = true ∧ t.bsc.workerPending = true := by simpa using hp
  refine .inr ?_
  rcases workerStale_cases t with ⟨h, hw⟩ | ⟨hg, hl, hw⟩
  · refine .inl ⟨hrp.1, hrp.2, h, ?_⟩
    simp only [bscRecoverResponseLocked, ht, if_neg hp, hw, if_true]
  · by_cases hb : t.tick.hw.rxBusy = true
    · refine .inr (.inl ⟨hrp.1, hrp.2, hb, ?_⟩)
      simp only [bscRecoverResponseLocked, ht, if_neg hp, hw, hb, if_true]
    · refine .inr (.inr ⟨?_, ?_⟩)
      · exact ⟨by simpa using hrp.1, by simpa using hrp.2, by simpa using hg, by simpa using hl,
          by simpa using hb⟩
      · simp only [bscRecoverResponseLocked, ht, if_neg hp, hw, if_neg hb]

/-! ## Calls are paths -/

theorem bscServiceLocked_openAsk (s : Sys) :
    openAsk (bscServiceLocked s).log = openAsk s.log :=
  Steps.frame (f := fun s : Sys => openAsk s.log) Pass.openAsk (bscServiceLocked_steps s)

theorem bscRefillTxLocked_unannounced (s : Sys) :
    unannounced (bscRefillTxLocked s).log = unannounced s.log :=
  Steps.frame (f := fun s : Sys => unannounced s.log) Fill.unannounced (bscRefillTxLocked_steps s)

theorem bscConfigureLocked_bsc (s : Sys) : (bscConfigureLocked s).bsc = s.bsc :=
  Steps.frame (f := Sys.bsc) Setup.bsc (bscConfigureLocked_steps s)

theorem beforeDecision_steps {data : Bytes} (h₀ : data.length ≠ 0)
    (h₁ : data.length ≤ bscMaxTransfer) (s : Sys) : Steps Micro s (beforeDecision data s) :=
  .head (.ask s data h₀ h₁) (toMicro (toTend (bscServiceLocked_steps _)))

theorem decision_steps {data : Bytes} (h₀ : data.length ≠ 0) (h₁ : data.length ≤ bscMaxTransfer)
    (s : Sys) : Steps Micro (beforeDecision data s) (bscPublishResponseLocked data s).2 := by
  have htick : Steps Micro (beforeDecision data s) (beforeDecision data s).tick :=
    toMicro (toTend (toPass (toFill (tick_steps _))))
  have ho : openAsk (beforeDecision data s).log = some data := bscServiceLocked_openAsk _
  have ho' : openAsk (beforeDecision data s).tick.log = some data := by
    rw [← ho]
    exact Steps.frame (f := fun s : Sys => openAsk s.log) Pass.openAsk
      (toPass (toFill (tick_steps _)))
  rcases bscPublishResponseLocked_cases data s with
    ⟨hr, h⟩ | ⟨hr, hp, h⟩ | ⟨hr, hp, hg, h⟩ | ⟨hr, hp, hb, -, -, h⟩ | ⟨hown, h⟩ <;> rw [h]
  · exact .single (.refuse _ (.inl hr) (by simp [ho]))
  · exact .single (.refuse _ (.inr hp) (by simp [ho]))
  · exact .single (.discard _ hr hp (hg.imp_right .inl) (by simp [ho]))
  · exact htick.tail (.discard _ (by simpa using hr) (by simpa using hp) (.inr (.inr hb))
      (by simp [ho']))
  · refine ((htick.tail (.publish _ data hown ho' h₀ h₁)).trans
      (toMicro (toTend (toPass (bscRefillTxLocked_steps _))))).tail (.announce _ data ?_)
    rw [bscRefillTxLocked_unannounced]
    rfl

theorem bscPublishResponseLocked_steps {data : Bytes} (h₀ : data.length ≠ 0)
    (h₁ : data.length ≤ bscMaxTransfer) (s : Sys) :
    Steps Micro s (bscPublishResponseLocked data s).2 :=
  (beforeDecision_steps h₀ h₁ s).trans (decision_steps h₀ h₁ s)

theorem grantRecovery_steps {s : Sys} (h : Owns s) : Steps Tend s (grantRecovery s) := by
  refine .head (.recover s h) (.tail (setup_tend ?_ (bscConfigureLocked_steps _))
    (.release _ ?_ _))
  · rfl
  · rw [bscConfigureLocked_bsc]
    exact h.pending

theorem recovery_steps (s : Sys) :
    Steps Tend (bscServiceLocked s) (bscRecoverResponseLocked s).2 := by
  have htick : Steps Tend (bscServiceLocked s) (bscServiceLocked s).tick :=
    toTend (toPass (toFill (tick_steps _)))
  rcases bscRecoverResponseLocked_cases s with ⟨-, h⟩ | ⟨-, -, -, h⟩ | ⟨-, -, -, h⟩ | ⟨ho, h⟩
  · rw [h]
  · rw [h]
  · rw [h]
    exact htick
  · rw [h]
    exact htick.trans (grantRecovery_steps ho)

theorem bscRecoverResponseLocked_steps (s : Sys) :
    Steps Tend s (bscRecoverResponseLocked s).2 :=
  (toTend (bscServiceLocked_steps s)).trans (recovery_steps s)

/-- Whether a call is a `write`. -/
def Call.writes : Call → Bool
  | .write _ => true
  | _ => false

/-- Only `write` does more than receive, load and recover. -/
theorem exec_tend (s : Sys) {c : Call} (hc : c.writes = false) : Steps Tend s (exec s c) := by
  cases c with
  | irq mis =>
    simp only [exec, bscIrq]
    split_ifs
    · exact .refl
    · exact .head (.tally s _ s.bsc.stats.timerRuns) (toTend ((bscServiceLocked_steps _).trans
        (toPass (toFill (bscWrite_steps (by decide) (by simp) _)))))
  | timer =>
    simp only [exec, bscTimer]
    split_ifs
    · exact .refl
    · exact .head (.tally s s.bsc.stats.interrupts _) (toTend (bscServiceLocked_steps _))
  | read r =>
    simp only [exec, bscReadMessage]
    split_ifs with _ _ h
    all_goals first | exact .refl | exact .single (.take s _ h)
  | write w => cases hc
  | recover =>
    simp only [exec, bscIoctlRecover]
    split_ifs
    · exact .refl
    · exact bscRecoverResponseLocked_steps s
  | bus e => exact .single (.pass (.fill (.quiet (.bus s e))))

theorem exec_steps (s : Sys) (c : Call) : Steps Micro s (exec s c) := by
  cases c with
  | write w =>
    simp only [exec, bscQueueResponse]
    split_ifs with h
    · exact .refl
    · exact .refl
    · exact .refl
    · exact .refl
    · exact bscPublishResponseLocked_steps (fun h' => h (.inl h'))
        (Nat.le_of_not_lt fun h' => h (.inr h')) s
  | _ => exact toMicro (exec_tend s rfl)

theorem run_tend (s : Sys) {calls : List Call} (hc : ∀ c ∈ calls, c.writes = false) :
    Steps Tend s (run s calls) := by
  induction calls generalizing s with
  | nil => exact .refl
  | cons c calls ih =>
    exact (exec_tend s (hc c List.mem_cons_self)).trans
      (ih (exec s c) fun c' hc' => hc c' (List.mem_cons_of_mem _ hc'))

theorem run_steps (s : Sys) (calls : List Call) : Steps Micro s (run s calls) :=
  Steps.foldl exec_steps calls s

/-! ## Opening a session -/

/-- The state of a session between the clearing of its fields and the configuration. -/
def cleared (s : Sys) : Sys :=
  { bscResetIoLocked { s with log := [] } with bsc.active := true }

/-- Clearing releases READY, and that is all its history shows. -/
theorem cleared_wired {s : Sys} (hr : s.bsc.readyGpio = true) :
    cleared s =
      { s with
        bsc := { s.bsc.resetIo with active := true }
        hw.ready := false
        log := [.ready false] } := by
  have hreset : bscResetIoLocked { s with log := [] } =
      { s with bsc := s.bsc.resetIo, hw.ready := false, log := [.ready false] } := if_pos hr
  rw [cleared, hreset]

theorem cleared_unwired {s : Sys} (hr : s.bsc.readyGpio = false) :
    cleared s = { s with bsc := { s.bsc.resetIo with active := true }, log := [] } := by
  have hreset : bscResetIoLocked { s with log := [] } =
      { s with bsc := s.bsc.resetIo, log := [] } := if_neg (ne_true_of_eq_false hr)
  rw [cleared, hreset]

theorem cleared_cases (s : Sys) :
    cleared s =
      { s with
        bsc := { s.bsc.resetIo with active := true }
        hw.ready := false
        log := [.ready false] } ∨
    cleared s = { s with bsc := { s.bsc.resetIo with active := true }, log := [] } := by
  by_cases hr : s.bsc.readyGpio = true
  · exact .inl (cleared_wired hr)
  · exact .inr (cleared_unwired (by simpa using hr))

@[simp] theorem cleared_bsc (s : Sys) :
    (cleared s).bsc = { s.bsc.resetIo with active := true } := by
  rcases cleared_cases s with h | h <;> rw [h]

/-- What does not depend on READY is as in an empty history. -/
theorem cleared_log {β : Sort*} (f : List Event → β) (hf : f [.ready false] = f []) (s : Sys) :
    f (cleared s).log = f [] := by
  rcases cleared_cases s with h | h <;> rw [h]
  exact hf

theorem openSession_steps (s : Sys) : Steps Setup (cleared s) (openSession s) :=
  bscConfigureLocked_steps (cleared s)

@[simp] theorem openSession_bsc (s : Sys) :
    (openSession s).bsc = { s.bsc.resetIo with active := true } :=
  (bscConfigureLocked_bsc (cleared s)).trans (cleared_bsc s)

theorem configuring_cleared (s : Sys) : configuring (cleared s).log = true :=
  cleared_log configuring rfl s

/-- A session run is a path of atomic steps from its cleared state. -/
theorem session_steps (s : Sys) (calls : List Call) :
    Steps Micro (cleared s) (run (openSession s) calls) :=
  (toMicro (setup_tend (configuring_cleared s) (openSession_steps s))).trans (run_steps _ calls)

end BscTarget
