import BscTarget.Driver.History

/-!
# What the reads return

The history notes a record when it is dequeued, and `read` returns that record unless its copy
fails. Nothing else dequeues, so what the reads of a run return is what it notes
(`recordsRead_run`).
-/

namespace BscTarget

/-! ## One read -/

/-- The `read` gets as far as the copy to the user's buffer, and the copy fails. -/
structure CopyFails (r : ReadArgs) (s : Sys) : Prop where
  locked : r.lockInterrupted = false
  alive : s.bsc.dead = false
  record : s.bsc.rxCount ≠ 0
  room : (s.bsc.rxSlots s.bsc.rxHead).len ≤ r.count
  fault : r.fault = true

/-- A `read` dequeues a record and returns it, dequeues a record and fails, or leaves everything
as it is. -/
theorem bscReadMessage_cases (r : ReadArgs) (s : Sys) :
    (s.bsc.rxCount ≠ 0 ∧ r.fault = false ∧
      ∃ record, (dequeue false s).log = .took record false :: s.log ∧
        bscReadMessage r s = (.record record, dequeue false s)) ∨
    (CopyFails r s ∧ bscReadMessage r s = (.error .EFAULT, dequeue true s)) ∨
    (¬ CopyFails r s ∧ (bscReadMessage r s).2 = s ∧
      ∀ record, (bscReadMessage r s).1 ≠ .record record) := by
  unfold bscReadMessage
  dsimp only
  split_ifs with h₁ h₂ h₃ h₄ h₅ h₆ h₇
  · exact .inr (.inr ⟨fun h => absurd h.locked (by simp [h₁]), rfl, fun _ h => by cases h⟩)
  · exact .inr (.inr ⟨fun h => absurd h.alive (by simp [h₂]), rfl, fun _ h => by cases h⟩)
  · exact .inr (.inr ⟨fun h => h.record h₃, rfl, fun _ h => by cases h⟩)
  · exact .inr (.inr ⟨fun h => h.record h₃, rfl, fun _ h => by cases h⟩)
  · exact .inr (.inr ⟨fun h => h.record h₃, rfl, fun _ h => by cases h⟩)
  · exact .inr (.inr ⟨fun h => absurd h.room (by omega), rfl, fun _ h => by cases h⟩)
  · refine .inr (.inl ⟨⟨by simpa using h₁, by simpa using h₂, h₃, by omega, h₇⟩, ?_⟩)
    rw [h₇]
  · have hf : r.fault = false := by simpa using h₇
    refine .inl ⟨h₃, hf, _, rfl, ?_⟩
    rw [hf]
    rfl

/-! ## What an attempt to publish notes -/

/-- What an attempt to publish notes, once it has asked. -/
def Event.OfAttempt : Event → Prop
  | .refused | .discarded | .published _ _ => True
  | e => e.OfPass

theorem Event.OfPass.attempt {e : Event} (h : e.OfPass) : e.OfAttempt := by
  cases e <;> first | exact h | trivial

theorem taken_grows {l l' : List Event} (h : Grows Event.OfAttempt l l') (fault : Bool) :
    taken fault l' = taken fault l :=
  h.frame fun e _ he => by cases e <;> first | rfl | cases he

theorem publications_pass {l l' : List Event} (h : Grows Event.OfPass l l') :
    publications l' = publications l :=
  h.frame fun e _ he => by cases e <;> first | rfl | cases he

/-- An attempt asks once, and publishes what it asked for or nothing. -/
theorem attempt_publish (data : Bytes) (s : Sys) :
    Grows Event.OfAttempt (.asked data :: s.log) (bscPublishResponseLocked data s).2.log ∧
      (publications (bscPublishResponseLocked data s).2.log = publications s.log ∨
        publications (bscPublishResponseLocked data s).2.log = publications s.log ++ [data]) := by
  have hgrows : Grows Event.OfPass (.asked data :: s.log) (beforeDecision data s).log :=
    grows_steps (bscServiceLocked_steps (s.note (.asked data)))
  have htick : Grows Event.OfPass (.asked data :: s.log) (beforeDecision data s).tick.log :=
    hgrows.trans (grows_steps (tick_pass _))
  have hwide {l l' : List Event} (h : Grows Event.OfPass l l') : Grows Event.OfAttempt l l' :=
    h.mono fun _ he => he.attempt
  have hold : publications (beforeDecision data s).log = publications s.log :=
    (publications_pass hgrows :)
  have hold' : publications (beforeDecision data s).tick.log = publications s.log :=
    (publications_pass htick :)
  rcases bscPublishResponseLocked_cases data s with
    ⟨-, h⟩ | ⟨-, -, h⟩ | ⟨-, -, -, h⟩ | ⟨-, -, -, -, -, h⟩ | ⟨-, h⟩ <;> rw [h]
  · exact ⟨(hwide hgrows).cons (e := Event.refused) trivial, .inl hold⟩
  · exact ⟨(hwide hgrows).cons (e := Event.refused) trivial, .inl hold⟩
  · exact ⟨(hwide hgrows).cons (e := Event.discarded) trivial, .inl hold⟩
  · exact ⟨(hwide htick).cons (e := Event.discarded) trivial, .inl hold'⟩
  · set t := (beforeDecision data s).tick
    have hfill : Grows Event.OfPass (.published data t.hw.fr :: t.log)
        (announce (bscRefillTxLocked (queueData data { t with bsc.workerPending := false }))
          data.length).log := by
      have hrefill := grows_steps (toPass (bscRefillTxLocked_steps
        (queueData data { t with bsc.workerPending := false })))
      unfold announce bscSetReady
      dsimp only
      split_ifs
      · exact hrefill.cons (e := .ready true) trivial
      · exact hrefill
    refine ⟨((hwide htick).cons (e := Event.published data t.hw.fr) trivial).trans (hwide hfill),
      .inr ?_⟩
    rw [publications_pass hfill]
    show publications t.log ++ [data] = _
    rw [hold']

/-! ## Whole runs -/

/-- The record that a `read` hands to its caller. -/
def ReadResult.returned : ReadResult → Option Bytes
  | .record bytes => some bytes
  | _ => none

def Call.returned (s : Sys) : Call → Option Bytes
  | .read r => (bscReadMessage r s).1.returned
  | _ => none

/-- The records that the reads of a run return, in order. -/
def recordsRead (s : Sys) : List Call → List Bytes
  | [] => []
  | c :: calls => (c.returned s).toList ++ recordsRead (exec s c) calls

theorem taken_pass {s t : Sys} (h : Steps Pass s t) (fault : Bool) :
    taken fault t.log = taken fault s.log :=
  taken_grows ((grows_steps h).mono fun _ he => he.attempt) fault

theorem taken_setup {s t : Sys} (h : Setup s t) (fault : Bool) :
    taken fault t.log = taken fault s.log :=
  h.grows.frame fun e _ he => by cases e <;> first | rfl | cases he

theorem taken_bscSetReady (level fault : Bool) (s : Sys) :
    taken fault (bscSetReady level s).log = taken fault s.log := by
  unfold bscSetReady
  split_ifs <;> rfl

theorem taken_recover (fault : Bool) (s : Sys) :
    taken fault (bscRecoverResponseLocked s).2.log = taken fault s.log := by
  have hpass := taken_pass (bscServiceLocked_steps s) fault
  have htick := (taken_pass (tick_pass (bscServiceLocked s)) fault).trans hpass
  rcases bscRecoverResponseLocked_cases s with ⟨-, h⟩ | ⟨-, -, -, h⟩ | ⟨-, -, -, h⟩ | ⟨-, h⟩ <;>
    rw [h]
  · exact hpass
  · exact hpass
  · exact htick
  · unfold grantRecovery
    rw [taken_bscSetReady]
    exact ((bscConfigureLocked_steps _).frame (f := fun s : Sys => taken fault s.log)
      fun h => taken_setup h fault).trans htick

theorem taken_write (w : WriteArgs) (fault : Bool) (s : Sys) :
    taken fault (bscQueueResponse w s).2.log = taken fault s.log := by
  unfold bscQueueResponse
  split_ifs
  · rfl
  · rfl
  · rfl
  · rfl
  · exact taken_grows (attempt_publish w.data s).1 fault

/-- A call dequeues and returns the same record, or neither. -/
theorem taken_exec (s : Sys) (c : Call) :
    taken false (exec s c).log = taken false s.log ++ (c.returned s).toList := by
  have hnone {t : Sys} (h : taken false t.log = taken false s.log) :
      taken false t.log = taken false s.log ++ (none : Option Bytes).toList := by
    rw [h, Option.toList_none, List.append_nil]
  cases c with
  | irq mis =>
    refine hnone ?_
    unfold exec bscIrq
    dsimp only
    split_ifs
    · rfl
    · have hicr : Reg.ICR ≠ .DR ∧ Reg.ICR ≠ .CR := by decide
      have hwrite (t : Sys) : Steps Quiet t (bscWrite .ICR (mis &&& irqAll) t) :=
        bscWrite_steps hicr (fun h => by cases h) t
      rw [taken_pass (toPass (toFill (hwrite _))), taken_pass (bscServiceLocked_steps _)]
  | timer =>
    refine hnone ?_
    unfold exec bscTimer
    split_ifs
    · rfl
    · exact taken_pass (bscServiceLocked_steps _) false
  | read r =>
    show taken false (bscReadMessage r s).2.log =
      taken false s.log ++ (bscReadMessage r s).1.returned.toList
    rcases bscReadMessage_cases r s with ⟨-, -, record, hlog, h⟩ | ⟨-, h⟩ | ⟨-, h, hnot⟩
    · rw [h, hlog]
      rfl
    · rw [h]
      exact hnone rfl
    · rw [h]
      cases hr : (bscReadMessage r s).1 with
      | record bytes => exact absurd hr (hnot bytes)
      | error e => exact hnone rfl
      | asleep => exact hnone rfl
  | write w => exact hnone (taken_write w false s)
  | recover =>
    refine hnone ?_
    unfold exec bscIoctlRecover
    split_ifs
    · rfl
    · exact taken_recover false s
  | bus e => exact hnone (taken_pass (.single (.fill (.quiet (.bus s e)))) false)

theorem taken_run (s : Sys) (calls : List Call) :
    taken false (run s calls).log = taken false s.log ++ recordsRead s calls := by
  induction calls generalizing s with
  | nil => exact (List.append_nil _).symm
  | cons c calls ih => rw [run_cons, ih, taken_exec, recordsRead, List.append_assoc]

/-- The records that the reads of a session return are those that it noted. -/
theorem recordsRead_run (s : Sys) (calls : List Call) :
    recordsRead (openSession s) calls = taken false (run (openSession s) calls).log := by
  have hopen : taken false (openSession s).log = [] := by
    rw [(openSession_steps s).frame (f := fun s : Sys => taken false s.log)
      fun h => taken_setup h false]
    exact cleared_log (taken false) rfl s
  rw [taken_run, hopen, List.nil_append]

end BscTarget
