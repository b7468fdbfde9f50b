import BscTarget.Driver.Decision
import BscTarget.Driver.Device
import BscTarget.Driver.Returns
import BscTarget.Driver.Unlogged

/-!
# Failed calls

A `read` that fails leaves the queue and the worker's request as they were, unless it fails at
the copy to the user's buffer: by then the record is dequeued. A `write` or a recovery that fails
leaves what its service pass left, and can be tried again.
-/

namespace BscTarget

/-! ## Reads -/

/-- The queue and the worker's request are those of `s`. -/
structure Untaken (s t : Sys) : Prop where
  head : t.bsc.rxHead = s.bsc.rxHead
  tail : t.bsc.rxTail = s.bsc.rxTail
  count : t.bsc.rxCount = s.bsc.rxCount
  slots : t.bsc.rxSlots = s.bsc.rxSlots
  pending : t.bsc.workerPending = s.bsc.workerPending
  generation : t.bsc.workerGeneration = s.bsc.workerGeneration
  /-- The next `read` finds what it would have found. -/
  next : ∀ r, (bscReadMessage r t).1 = (bscReadMessage r s).1
  due : bscPoll t = bscPoll s

theorem Untaken.refl (s : Sys) : Untaken s s :=
  ⟨rfl, rfl, rfl, rfl, rfl, rfl, fun _ => rfl, rfl⟩

/-- Once the record is dequeued it is gone. -/
theorem not_untaken_dequeue {s : Sys} (hc : s.bsc.rxCount ≠ 0) (fault : Bool) :
    ¬ Untaken s (dequeue fault s) := by
  intro h
  have hcount : s.bsc.rxCount - 1 = s.bsc.rxCount := h.count
  omega

theorem untaken_iff {r : ReadArgs} {s : Sys} {e : Errno}
    (he : (bscReadMessage r s).1 = .error e) :
    Untaken s (bscReadMessage r s).2 ↔ ¬ CopyFails r s := by
  rcases bscReadMessage_cases r s with ⟨-, -, record, -, h⟩ | ⟨hf, h⟩ | ⟨hf, h, -⟩
  · rw [h] at he
    cases he
  · rw [h]
    exact ⟨fun hu => absurd hu (not_untaken_dequeue hf.record true), fun hn => absurd hf hn⟩
  · rw [h]
    exact ⟨fun _ => hf, fun _ => .refl s⟩

namespace Device

/-- Every `read` of the run that fails leaves the queue and the worker's request as they were. -/
def FailedReadsRetain (d : Device) (actions : List Action) : Prop :=
  ∀ before r after, actions = before ++ .call (.read r) :: after →
    ∀ e, (bscReadMessage r (d.run before).sys).1 = .error e →
      Untaken (d.run before).sys (bscReadMessage r (d.run before).sys).2

/-- In every run the failing reads retain everything if and only if none of them fails at the
copy. -/
theorem failed_reads_retain (address : UInt32) (readyGpio : Bool) (hw : Hw)
    (env : List (List HwEvent)) (actions : List Action) :
    (probe address readyGpio hw env).FailedReadsRetain actions ↔
      ∀ before r after, actions = before ++ .call (.read r) :: after →
        ¬ CopyFails r ((probe address readyGpio hw env).run before).sys := by
  constructor
  · intro h before r after hrun hf
    rcases bscReadMessage_cases r ((probe address readyGpio hw env).run before).sys with
      ⟨-, hfault, -⟩ | ⟨-, hread⟩ | ⟨hn, -⟩
    · exact absurd hf.fault (by simp [hfault])
    · have he := congrArg Prod.fst hread
      exact (untaken_iff he).mp (h before r after hrun .EFAULT he) hf
    · exact hn hf
  · intro h before r after hrun e he
    exact (untaken_iff he).mpr (h before r after hrun)

/-- A one-byte request is received and then read into an invalid buffer. -/
theorem not_failedReadsRetain_fault :
    ¬ (probe 0x13 true .reset []).FailedReadsRetain
      [.openClaim 0, .openSection 0 none, .call (.bus (.byte 7)), .call .timer,
        .call (.read ⟨8192, true, false, false, true⟩)] := by
  intro h
  have hu := h [.openClaim 0, .openSection 0 none, .call (.bus (.byte 7)), .call .timer]
    ⟨8192, true, false, false, true⟩ [] rfl .EFAULT (by decide +kernel)
  exact absurd hu.pending (by decide +kernel)

end Device

/-! ## Writes and recoveries -/

/-- The worker keeps its request, no response or recovery is counted, the transmit buffer keeps
its contents, and the peripheral is not configured anew. -/
structure Unconsumed (s t : Sys) : Prop where
  pending : t.bsc.workerPending = s.bsc.workerPending
  generation : t.bsc.workerGeneration = s.bsc.workerGeneration
  discarded : t.bsc.stats.txDiscarded = s.bsc.stats.txDiscarded
  transactions : t.bsc.stats.txTransactions = s.bsc.stats.txTransactions
  bytes : t.bsc.stats.txBytes = s.bsc.stats.txBytes
  recoveries : t.bsc.recoveries = s.bsc.recoveries
  buffer : t.bsc.txData = s.bsc.txData
  enabled : t.hw.cr = s.hw.cr

namespace Unconsumed

variable {s t u : Sys}

theorem refl (s : Sys) : Unconsumed s s := ⟨rfl, rfl, rfl, rfl, rfl, rfl, rfl, rfl⟩

theorem trans (h : Unconsumed s t) (h' : Unconsumed t u) : Unconsumed s u :=
  ⟨h'.pending.trans h.pending, h'.generation.trans h.generation, h'.discarded.trans h.discarded,
    h'.transactions.trans h.transactions, h'.bytes.trans h.bytes,
    h'.recoveries.trans h.recoveries, h'.buffer.trans h.buffer, h'.enabled.trans h.enabled⟩

theorem of_sameState (h : Unconsumed s t) (hu : SameState t u) : Unconsumed s u := by
  refine h.trans ?_
  constructor <;> first | rw [hu.bsc] | rw [hu.hw]

/-- A step of a service pass consumes nothing. -/
theorem pass (h : Pass s t) : Unconsumed s t := by
  cases h with
  | fill h =>
    cases h with
    | quiet h =>
      cases h with
      | bus e =>
        rcases Sys.bus_cases s e with
          ⟨_, _, h⟩ | ⟨_, _, _, h⟩ | ⟨_, _, h⟩ | ⟨_, _, _, h⟩ | ⟨_, _, h⟩ <;> rw [h] <;>
          exact ⟨rfl, rfl, rfl, rfl, rfl, rfl, rfl, rfl⟩
      | env => exact ⟨rfl, rfl, rfl, rfl, rfl, rfl, rfl, rfl⟩
      | reg value reg h _ =>
        refine ⟨rfl, rfl, rfl, rfl, rfl, rfl, rfl, ?_⟩
        cases reg <;> first | rfl | exact absurd rfl h.2
    | load => exact ⟨rfl, rfl, rfl, rfl, rfl, rfl, rfl, rfl⟩
  | status => exact ⟨rfl, rfl, rfl, rfl, rfl, rfl, rfl, rfl⟩
  | drain =>
    rcases drainByte_cases s with ⟨-, -, -, -, h⟩ | ⟨-, -, -, h⟩ | ⟨-, -, h⟩ | ⟨-, -, h⟩ <;>
      rw [h] <;> exact ⟨rfl, rfl, rfl, rfl, rfl, rfl, rfl, rfl⟩
  | finish =>
    have ha : Unconsumed s (acknowledged s) := by
      unfold acknowledged
      split_ifs <;> exact ⟨rfl, rfl, rfl, rfl, rfl, rfl, rfl, rfl⟩
    rcases finishBurst_cases s with ⟨-, h⟩ | ⟨-, -, h⟩ | ⟨-, -, h⟩ <;> rw [h] <;>
      exact ⟨ha.pending, ha.generation, ha.discarded, ha.transactions, ha.bytes, ha.recoveries,
        ha.buffer, ha.enabled⟩

theorem steps (h : Steps Pass s t) : Unconsumed s t :=
  h.lift (R := Unconsumed) refl trans pass

end Unconsumed

/-- What a call that fails with `e` leaves. The exits before the service pass leave everything
as it is; the refusals behind it leave what the pass left, and EAGAIN may have read FR once
more. -/
def Leaves (s t : Sys) : Errno → Prop
  | .EMSGSIZE | .EFAULT | .ERESTARTSYS | .ENODEV => t = s
  | .EOPNOTSUPP | .EPROTO => SameState (bscServiceLocked s) t
  | .EAGAIN =>
    SameState (bscServiceLocked s) t ∨
      t.bsc = (bscServiceLocked s).bsc ∧ SameState (bscServiceLocked s).tick t
  | .EBUSY => False

theorem Leaves.unconsumed {s t : Sys} {e : Errno} (h : Leaves s t e) : Unconsumed s t := by
  have hpass := Unconsumed.steps (bscServiceLocked_steps s)
  cases e with
  | EOPNOTSUPP => exact hpass.of_sameState h
  | EPROTO => exact hpass.of_sameState h
  | EAGAIN =>
    rcases h with h | ⟨-, h⟩
    · exact hpass.of_sameState h
    · exact (hpass.trans (.steps (tick_pass _))).of_sameState h
  | EBUSY => exact h.elim
  | _ =>
    obtain rfl : t = s := h
    exact .refl t

theorem bscQueueResponse_leaves {w : WriteArgs} {s : Sys} {e : Errno}
    (he : (bscQueueResponse w s).1 = .error e) : Leaves s (bscQueueResponse w s).2 e := by
  unfold bscQueueResponse at he ⊢
  split_ifs at he ⊢
  · cases he
    rfl
  · cases he
    rfl
  · cases he
    rfl
  · cases he
    rfl
  · have hpass : SameState (bscServiceLocked s) ((beforeDecision w.data s).note .refused) :=
      (SameState.service (.note s (.asked w.data))).trans (.note _ _)
    rcases bscPublishResponseLocked_cases w.data s with
      ⟨-, h⟩ | ⟨-, -, h⟩ | ⟨-, -, -, h⟩ | ⟨-, -, -, -, -, h⟩ | ⟨-, h⟩ <;> rw [h] at he ⊢ <;>
      cases he
    · exact hpass
    · exact hpass

theorem bscIoctlRecover_leaves {s : Sys} {e : Errno} (he : (bscIoctlRecover s).1 = .error e) :
    Leaves s (bscIoctlRecover s).2 e := by
  unfold bscIoctlRecover at he ⊢
  split_ifs at he ⊢
  · cases he
    rfl
  · rcases bscRecoverResponseLocked_cases s with
      ⟨-, h⟩ | ⟨-, -, -, h⟩ | ⟨-, -, -, h⟩ | ⟨-, h⟩ <;> rw [h] at he ⊢ <;> cases he
    · exact .refl _
    · exact .inl (.refl _)
    · exact .inr ⟨Sys.tick_bsc _, .refl _⟩

/-! ## Trying again -/

/-- Whether every `write` of the calls fails. -/
def WritesFail (s : Sys) (calls : List Call) : Prop :=
  ∀ before w after, calls = before ++ .write w :: after →
    ∃ e, (bscQueueResponse w (run s before)).1 = .error e

/-- The worker keeps its request until a `write` succeeds. -/
theorem pending_run {s : Sys} {calls : List Call} (hp : s.bsc.workerPending = true)
    (hw : WritesFail s calls) : (run s calls).bsc.workerPending = true := by
  induction calls generalizing s with
  | nil => exact hp
  | cons c calls ih =>
    refine ih ?_ fun before w after h => hw (c :: before) w after (by rw [h]; rfl)
    cases hc : c.writes with
    | false =>
      exact (exec_tend s hc).keep (P := fun s => s.bsc.workerPending = true) Tend.pending hp
    | true =>
      cases c with
      | write w =>
        obtain ⟨e, he⟩ := hw [] w calls rfl
        exact (bscQueueResponse_leaves he).unconsumed.pending.trans hp
      | _ => cases hc

/-- EAGAIN leaves the request with the worker. -/
theorem pending_of_eagain {s : Sys} (he : (bscIoctlRecover s).1 = .error .EAGAIN) :
    s.bsc.readyGpio = true ∧ s.bsc.workerPending = true := by
  have hstand := standing_steps (toMicro (toTend (bscServiceLocked_steps s)))
  have hready : (bscServiceLocked s).bsc.readyGpio = s.bsc.readyGpio := congrArg Prod.fst hstand
  have hpend := (Unconsumed.steps (bscServiceLocked_steps s)).pending
  unfold bscIoctlRecover at he
  split_ifs at he
  · cases he
  · rcases bscRecoverResponseLocked_cases s with
      ⟨-, h⟩ | ⟨hr, hp, -, h⟩ | ⟨hr, hp, -, h⟩ | ⟨-, h⟩ <;> rw [h] at he <;> cases he
    · exact ⟨hready ▸ hr, hpend ▸ hp⟩
    · exact ⟨hready ▸ hr, hpend ▸ hp⟩

/-- A worker that holds the latest request and finds reception idle is granted recovery. -/
theorem recover_granted {s : Sys} (hi : Fresh s) (hd : s.bsc.dead = false)
    (ha : s.bsc.active = true) (hp : s.bsc.workerPending = true)
    (hnew : drainedSinceTake (bscServiceLocked s).log = false)
    (hb : (bscServiceLocked s).tick.hw.rxBusy = false) : (bscIoctlRecover s).1 = .ok 0 := by
  have hsteps := bscServiceLocked_steps s
  have hfresh : Fresh (bscServiceLocked s) :=
    (toMicro (toTend hsteps)).keep (P := Fresh) Fresh.micro hi
  have hpend := (Unconsumed.steps hsteps).pending.trans hp
  rw [bscIoctlRecover, if_neg (by simp [hd, ha])]
  rcases bscRecoverResponseLocked_cases s with
    ⟨h, -⟩ | ⟨-, -, h, -⟩ | ⟨-, -, h, -⟩ | ⟨-, h⟩
  · rcases h with h | h
    · exact absurd h (ne_false_of_eq_true hfresh.ready)
    · exact absurd h (ne_false_of_eq_true hpend)
  · -- Nothing was drained since the dequeue, so the counters agree, wrapped or not.
    have hle := startsTaken_le (bscServiceLocked s).log
    have hnlt : ¬ startsTaken (bscServiceLocked s).log < starts (bscServiceLocked s).log := by
      intro hlt
      rw [hfresh.since.mpr hlt] at hnew
      cases hnew
    have hgen : (bscServiceLocked s).bsc.workerGeneration =
        (bscServiceLocked s).bsc.requestGeneration := by
      rw [hfresh.worker, hfresh.request, Nat.le_antisymm hle (Nat.le_of_not_lt hnlt)]
    rcases h with h | h
    · exact absurd hgen h
    · exact absurd (hfresh.clean hnew).1 h
  · exact absurd hb (ne_false_of_eq_true h)
  · rw [h]

/-- A `write` or a recovery that fails leaves what its service pass left and consumes nothing.
A recovery refused with EAGAIN is granted when it is tried again for the same request, with
nothing newer drained and reception idle. -/
theorem failures_consume_nothing :
    (∀ s w e, (bscQueueResponse w s).1 = .error e →
      Leaves s (bscQueueResponse w s).2 e ∧ Unconsumed s (bscQueueResponse w s).2) ∧
    (∀ s e, (bscIoctlRecover s).1 = .error e →
      Leaves s (bscIoctlRecover s).2 e ∧ Unconsumed s (bscIoctlRecover s).2) ∧
    ∀ s before between,
      let t := run (openSession s) before
      let u := run (exec t .recover) between
      (bscIoctlRecover t).1 = .error .EAGAIN → WritesFail (exec t .recover) between →
      drainedSinceTake (bscServiceLocked u).log = false →
      (bscServiceLocked u).tick.hw.rxBusy = false → (bscIoctlRecover u).1 = .ok 0 := by
  refine ⟨fun s w e he => ?_, fun s e he => ?_, ?_⟩
  · exact ⟨bscQueueResponse_leaves he, (bscQueueResponse_leaves he).unconsumed⟩
  · exact ⟨bscIoctlRecover_leaves he, (bscIoctlRecover_leaves he).unconsumed⟩
  · intro s before between t u he hw hnew hb
    obtain ⟨hr, hp⟩ := pending_of_eagain he
    have hu : u = run (openSession s) (before ++ .recover :: between) := by
      rw [run_append, run_cons]
    have ht : t.bsc.standing = (s.bsc.readyGpio, s.bsc.dead, true) := standing_run s before
    have hstand : u.bsc.standing = (s.bsc.readyGpio, s.bsc.dead, true) := by
      rw [hu]
      exact standing_run s _
    simp only [Bsc.standing, Prod.mk.injEq] at ht hstand
    have hdead : t.bsc.dead = false := by
      by_contra hd
      rw [bscIoctlRecover, if_pos (.inl (by simpa using hd))] at he
      cases he
    have hpend : (exec t .recover).bsc.workerPending = true :=
      (bscIoctlRecover_leaves he).unconsumed.pending.trans hp
    refine recover_granted ?_ ?_ hstand.2.2 (pending_run hpend hw) hnew hb
    · rw [hu]
      exact (Answering.run (ht.1 ▸ hr) _).fresh
    · rw [hstand.2.1, ← ht.2.1, hdead]

/-- A recovery refused while FR_RXBUSY is set. -/
theorem failures_consume_nothing_retried :
    (bscIoctlRecover (run (exec (run (openSession (bscProbe true))
      [.bus (.byte 1), .timer, .read ⟨8192, true, false, false, false⟩, .bus (.busy true)])
        .recover) [.bus (.busy false)])).1 = .ok 0 := by
  refine failures_consume_nothing.2.2 (bscProbe true)
    [.bus (.byte 1), .timer, .read ⟨8192, true, false, false, false⟩, .bus (.busy true)]
    [.bus (.busy false)] (by decide +kernel) ?_ (by decide +kernel) (by decide +kernel)
  intro before w after h
  have hmem : Call.write w ∈ [Call.bus (.busy false)] := by
    rw [h]
    simp
  simp at hmem

end BscTarget
