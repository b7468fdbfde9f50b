import BscTarget.Driver.Failures
import BscTarget.Driver.Lifecycle

/-!
# What poll promises

EPOLLIN is honoured by every `read` into a buffer of the maximal size, since no record is longer.
EPOLLOUT is honoured by `write` with READY. Without it a `write` is refused, and poll still
reports one as due as soon as a record was dequeued.
-/

namespace BscTarget

/-! ## Records fit -/

/-- Neither the burst being assembled nor any slot is longer than a transfer may be. -/
structure Fitting (b : Bsc) : Prop where
  work : b.rxWorkLen ≤ bscMaxTransfer
  slots : ∀ i, (b.rxSlots i).len ≤ bscMaxTransfer

namespace Fitting

variable {s t : Sys}

theorem drainByte (hi : Fitting s.bsc) : Fitting (drainByte s).bsc := by
  refine ⟨?_, ?_⟩
  · rcases work_drainByte s with ⟨hl, -, h, -⟩ | ⟨-, -, h, -⟩ <;> rw [h]
    · omega
    · exact hi.work
  · rcases drainByte_cases s with ⟨-, -, -, -, h⟩ | ⟨-, -, -, h⟩ | ⟨-, -, h⟩ | ⟨-, -, h⟩ <;>
      rw [h] <;> exact hi.slots

theorem finishBurst (hi : Fitting s.bsc) : Fitting (finishBurst s).bsc := by
  have hack : Fitting (acknowledged s).bsc := by
    unfold acknowledged
    split_ifs <;> exact ⟨hi.work, hi.slots⟩
  have hslot (i : ℕ) : (Function.update (acknowledged s).bsc.rxSlots (acknowledged s).bsc.rxTail
      (filledSlot (acknowledged s).bsc) i).len ≤ bscMaxTransfer := by
    by_cases h : i = (acknowledged s).bsc.rxTail
    · rw [h, Function.update_self]
      exact hack.work
    · rw [Function.update_of_ne h]
      exact hack.slots i
  rcases finishBurst_cases s with ⟨-, h⟩ | ⟨-, -, h⟩ | ⟨-, -, h⟩ <;> rw [h]
  · exact ⟨Nat.zero_le _, hack.slots⟩
  · exact ⟨Nat.zero_le _, hslot⟩
  · exact ⟨Nat.zero_le _, hslot⟩

theorem micro (h : Micro s t) (hi : Fitting s.bsc) : Fitting t.bsc := by
  rcases h.receive with h | ⟨e, rfl⟩ | ⟨-, rfl⟩ | ⟨-, -, -, rfl⟩ | ⟨-, fault, rfl⟩
  · exact ⟨h.len ▸ hi.work, h.slots ▸ hi.slots⟩
  · rw [Sys.bus_bsc]
    exact hi
  · exact hi.drainByte
  · exact hi.finishBurst
  · exact ⟨hi.work, hi.slots⟩

theorem bscDeactivate (hi : Fitting s.bsc) : Fitting (bscDeactivate s).bsc := by
  unfold BscTarget.bscDeactivate
  split_ifs
  · exact hi
  · rw [bscDisableLocked_bsc]
    exact ⟨Nat.zero_le _, hi.slots⟩

theorem step {d : Device} (hi : Fitting d.sys.bsc) (a : Action) :
    Fitting (d.step a).sys.bsc := by
  rcases d.step_sys_cases a with h | ⟨env, h⟩ | ⟨c, h⟩ | h | ⟨-, h⟩ | ⟨-, h⟩ | h <;> rw [h]
  · exact hi
  · exact hi
  · exact (exec_steps d.sys c).keep (P := fun s => Fitting s.bsc) micro hi
  · exact ⟨hi.work, hi.slots⟩
  · rw [openSession_bsc]
    exact ⟨Nat.zero_le _, hi.slots⟩
  · exact hi.bscDeactivate
  · exact bscDeactivate (s := { d.sys with bsc.dead := true }) ⟨hi.work, hi.slots⟩

end Fitting

/-! ## Requests without READY -/

/-- Without READY the worker holds a request as soon as the session dequeued a record, and never
gives it up. -/
def Keeping (s : Sys) : Prop :=
  s.bsc.readyGpio = false →
    (s.bsc.workerPending = true ↔ ∃ fault, taken fault s.log ≠ [])

namespace Keeping

variable {s t : Sys}

theorem of_same (hi : Keeping s) (hr : t.bsc.readyGpio = s.bsc.readyGpio)
    (hp : t.bsc.workerPending = s.bsc.workerPending)
    (ht : ∀ fault, taken fault t.log = taken fault s.log) : Keeping t := by
  intro hr'
  rw [hp]
  simp only [ht]
  exact hi (hr ▸ hr')

theorem dequeue (s : Sys) (fault : Bool) : Keeping (dequeue fault s) := by
  intro _
  refine ⟨fun _ => ⟨fault, ?_⟩, fun _ => rfl⟩
  simp [BscTarget.dequeue, taken]

/-- A step of a service pass dequeues nothing. -/
theorem taken_pass (h : Pass s t) (fault : Bool) : taken fault t.log = taken fault s.log := by
  refine h.grows.frame (f := taken fault) fun e l he => ?_
  cases e <;> first | rfl | cases he

theorem micro (h : Micro s t) (hi : Keeping s) : Keeping t := by
  have hr := h.readyGpio
  cases h with
  | tend h =>
    cases h with
    | pass h => exact hi.of_same hr (congrArg Prod.fst h.worker) (taken_pass h)
    | take => exact dequeue s _
    | release =>
      refine hi.of_same hr ?_ fun fault => ?_ <;> unfold bscSetReady <;> split_ifs <;> rfl
    | _ => exact hi.of_same hr rfl fun _ => rfl
  | ask => exact hi.of_same hr rfl fun _ => rfl
  | refuse => exact hi.of_same hr rfl fun _ => rfl
  | discard hready => exact fun h => absurd h (ne_false_of_eq_true hready)
  | publish data ho => exact fun h => absurd h (ne_false_of_eq_true ho.ready)
  | announce data =>
    refine hi.of_same hr ?_ fun fault => ?_ <;> unfold announce bscSetReady <;> split_ifs <;> rfl

theorem openSession (s : Sys) : Keeping (openSession s) := by
  have hc : Keeping (cleared s) := by
    rcases cleared_cases s with h | h <;> rw [h] <;> intro _ <;> simp [Bsc.resetIo, taken]
  exact (toMicro (setup_tend (configuring_cleared s) (openSession_steps s))).keep micro hc

theorem step {d : Device} (hi : d.sys.bsc.active = true → Keeping d.sys) (a : Action)
    (ha : (d.step a).sys.bsc.active = true) : Keeping (d.step a).sys := by
  rcases d.step_sys_cases a with h | ⟨env, h⟩ | ⟨c, h⟩ | h | ⟨-, h⟩ | ⟨-, h⟩ | h <;>
    rw [h] at ha ⊢
  · exact hi ha
  · exact hi ha
  · exact (exec_steps d.sys c).keep (P := Keeping) micro (hi ((active_exec d.sys c).symm.trans ha))
  · exact hi ha
  · exact openSession d.sys
  · exact absurd (bscDeactivate_active _) (ne_false_of_eq_true ha)
  · exact absurd (bscDeactivate_active _) (ne_false_of_eq_true ha)

end Keeping

/-! ## Agreement -/

/-- What poll reports, the next call does. -/
structure PollAgrees (s : Sys) : Prop where
  readable : bscPoll s &&& epollIn ≠ 0 →
    ∃ record, (bscReadMessage ⟨bscMaxTransfer, true, false, false, false⟩ s).1 = .record record
  writable : bscPoll s &&& epollOut ≠ 0 → ∀ data : Bytes, data.length ≠ 0 →
    data.length ≤ bscMaxTransfer → (bscQueueResponse ⟨data, false, false⟩ s).1 = .ok data.length

theorem epollIn_iff {s : Sys} (hd : s.bsc.dead = false) :
    bscPoll s &&& epollIn ≠ 0 ↔ s.bsc.rxCount ≠ 0 := by
  by_cases hc : s.bsc.rxCount = 0 <;> cases hp : s.bsc.workerPending <;>
    simp [bscPoll, hd, hc, hp] <;> decide

theorem epollOut_iff {s : Sys} (hd : s.bsc.dead = false) :
    bscPoll s &&& epollOut ≠ 0 ↔ s.bsc.workerPending = true := by
  by_cases hc : s.bsc.rxCount = 0 <;> cases hp : s.bsc.workerPending <;>
    simp [bscPoll, hd, hc, hp] <;> decide

/-- A queued record fits into a buffer of the maximal size. -/
theorem read_queued {s : Sys} (hf : Fitting s.bsc) (hd : s.bsc.dead = false)
    (hc : s.bsc.rxCount ≠ 0) :
    ∃ record, (bscReadMessage ⟨bscMaxTransfer, true, false, false, false⟩ s).1 =
      .record record := by
  have hlen := hf.slots s.bsc.rxHead
  simp only [bscReadMessage, hd, if_neg hc, if_neg (Nat.not_lt.mpr hlen)]
  exact ⟨_, rfl⟩

/-- A response that is due is published or discarded. -/
theorem write_due {s : Sys} (hr : s.bsc.readyGpio = true) (hp : s.bsc.workerPending = true)
    (data : Bytes) : (bscPublishResponseLocked data s).1 = .ok data.length := by
  have hsteps := bscServiceLocked_steps (s.note (.asked data))
  have hpend : (beforeDecision data s).bsc.workerPending = s.bsc.workerPending :=
    congrArg Prod.fst (worker_steps hsteps)
  have hready : (beforeDecision data s).bsc.readyGpio = s.bsc.readyGpio :=
    congrArg Prod.fst (standing_steps (toMicro (toTend hsteps)))
  rcases bscPublishResponseLocked_cases data s with
    ⟨h, -⟩ | ⟨-, h, -⟩ | ⟨-, -, -, h⟩ | ⟨-, -, -, -, -, h⟩ | ⟨-, h⟩
  · rw [hready, hr] at h
    cases h
  · rw [hpend, hp] at h
    cases h
  all_goals rw [h]

/-- Without READY no response is accepted. -/
theorem write_unwired {s : Sys} (hr : s.bsc.readyGpio = false) (data : Bytes) :
    (bscPublishResponseLocked data s).1 = .error .EOPNOTSUPP := by
  have hready : (beforeDecision data s).bsc.readyGpio = s.bsc.readyGpio :=
    congrArg Prod.fst (standing_steps (toMicro (toTend (bscServiceLocked_steps _))))
  rcases bscPublishResponseLocked_cases data s with
    ⟨-, h⟩ | ⟨h, -⟩ | ⟨h, -⟩ | ⟨h, -⟩ | ⟨ho, -⟩
  · rw [h]
  all_goals
    first
      | exact absurd (hready.trans hr) (ne_false_of_eq_true h)
      | exact absurd (hready.trans hr) (ne_false_of_eq_true (by simpa using ho.ready))

theorem pollAgrees_iff {s : Sys} (hf : Fitting s.bsc) (hk : Keeping s) (hd : s.bsc.dead = false)
    (ha : s.bsc.active = true) :
    PollAgrees s ↔ (s.bsc.readyGpio = false → ∀ fault, taken fault s.log = []) := by
  constructor
  · intro h hr fault
    by_contra htaken
    have hpend := (hk hr).mpr ⟨fault, htaken⟩
    have hwrite := h.writable ((epollOut_iff hd).mpr hpend) [0] (by decide) (by decide)
    rw [bscQueueResponse_open (by decide) (by decide) hd ha, write_unwired hr] at hwrite
    cases hwrite
  · intro h
    refine ⟨fun hin => read_queued hf hd ((epollIn_iff hd).mp hin), fun hout data h₀ h₁ => ?_⟩
    have hpend := (epollOut_iff hd).mp hout
    rw [bscQueueResponse_open h₀ h₁ hd ha]
    cases hr : s.bsc.readyGpio with
    | true => exact write_due hr hpend data
    | false =>
      obtain ⟨fault, htaken⟩ := (hk hr).mp hpend
      exact absurd (h hr fault) htaken

namespace Device

/-- In every reachable state of an open device poll agrees with `read` and `write` if and only
if READY is configured or the session dequeued no record yet. -/
theorem poll_agrees (address : UInt32) (readyGpio : Bool) (hw : Hw) (env : List (List HwEvent))
    (actions : List Action) :
    let s := ((probe address readyGpio hw env).run actions).sys
    s.bsc.dead = false → s.bsc.active = true →
      (PollAgrees s ↔ (s.bsc.readyGpio = false → ∀ fault, taken fault s.log = [])) := by
  intro s hd ha
  have hf : Fitting s.bsc := by
    refine run_keep (P := fun d => Fitting d.sys.bsc) (fun _ a h => h.step a) ?_ actions
    rw [probe, bscDisableLocked_bsc]
    exact ⟨Nat.zero_le _, fun _ => Nat.zero_le _⟩
  have hk : s.bsc.active = true → Keeping s := by
    refine run_keep (P := fun d => d.sys.bsc.active = true → Keeping d.sys)
      (fun _ a h => Keeping.step h a) ?_ actions
    rw [probe, bscDisableLocked_bsc]
    intro h
    cases h
  exact pollAgrees_iff hf (hk ha) hd ha

/-- A worker that read its request and has a response due. -/
theorem poll_agrees_answered :
    PollAgrees ((probe 0x13 true .reset []).run [.openClaim 0, .openSection 0 none,
      .call (.bus (.byte 7)), .call .timer,
      .call (.read ⟨8192, true, false, false, false⟩)]).sys :=
  (poll_agrees 0x13 true .reset [] _ (by decide +kernel) (by decide +kernel)).mpr
    fun h => absurd h (by decide +kernel)

/-- A receive-only device after its first record. -/
theorem not_pollAgrees_unwired :
    ¬ PollAgrees ((probe 0x13 false .reset []).run [.openClaim 0, .openSection 0 none,
      .call (.bus (.byte 7)), .call .timer,
      .call (.read ⟨8192, true, false, false, false⟩)]).sys := by
  intro h
  have hwrite := h.writable (by decide +kernel) [0] (by decide) (by decide)
  exact absurd hwrite (by decide +kernel)

end Device

end BscTarget
