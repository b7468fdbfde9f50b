import BscTarget.Driver.Acceptance
import BscTarget.Service.Responder

/-!
# What a program takes in

Every byte that enters the RX FIFO of a session is in the end in a record that `read` returned, in
one that it did not, in a burst that was too long, or still on its way (`intake`). The totals of the
receive-only responder are the first of these (`receive_only_totals`).
-/

namespace BscTarget

/-! ## Where the bytes are -/

/-- The records that left the queue without being returned. -/
def unreturned (log : List Event) : List Bytes :=
  ((ledger log).gone.filter fun x => !decide (x.1 = .returned)).map Prod.snd

/-- The bursts that were too long for a record. -/
def dropped (log : List Event) : List Bytes :=
  (bursts log).filter fun b => !decide (b.length ≤ bscMaxTransfer)

/-- Every byte that entered the RX FIFO of a session is accounted for. -/
theorem intake (s : Sys) (calls : List Call) :
    let t := run (openSession s) calls
    s.hw.rxFifo.length + (arrivals t.log).length =
      (taken false t.log).flatten.length + (unreturned t.log).flatten.length +
      t.bsc.queued.flatten.length + (dropped t.log).flatten.length + (burst t.log).length +
      t.hw.rxFifo.length := by
  intro t
  have hacc : (s.hw.rxFifo ++ arrivals t.log).length =
      (drainedBytes t.log ++ t.hw.rxFifo).length :=
    congrArg List.length (Accounted.run s calls).rxFifo
  have hq : Queued s.bsc.stats.rxDropped t := Queued.run s calls
  have ha : Assembling t := Assembling.run s calls
  have hbursts : (bursts t.log).flatten.length =
      (records t.log).flatten.length + (dropped t.log).flatten.length := by
    have h := Segments.length_flatten_partition id
      (fun b : Bytes => decide (b.length ≤ bscMaxTransfer)) (bursts t.log)
    simp only [List.map_id] at h
    rw [h, records_eq ha]
    rfl
  have hrecords : (records t.log).flatten.length = (taken false t.log).flatten.length +
      (unreturned t.log).flatten.length + t.bsc.queued.flatten.length := by
    have h := Segments.length_flatten_partition Prod.snd
      (fun x : Fate × Bytes => decide (x.1 = .returned)) (ledger t.log).gone
    rw [← all_ledger, Ledger.all, List.flatten_append, List.length_append, h, hq.held,
      hq.took false]
    rfl
  have hdrained := congrArg List.length (drainedBytes_eq t.log)
  simp only [List.length_append] at hacc hdrained
  omega

/-- Every burst of a session is accounted for. -/
theorem intake_bursts (s : Sys) (calls : List Call) :
    let t := run (openSession s) calls
    (bursts t.log).length = (taken false t.log).length + (unreturned t.log).length +
      t.bsc.rxCount + (dropped t.log).length := by
  intro t
  have hq : Queued s.bsc.stats.rxDropped t := Queued.run s calls
  have hbursts := List.length_eq_length_filter_add (l := bursts t.log)
    (fun b : Bytes => decide (b.length ≤ bscMaxTransfer))
  rw [← records_eq (Assembling.run s calls)] at hbursts
  have hgone := List.length_eq_length_filter_add (l := (ledger t.log).gone)
    (fun x : Fate × Bytes => decide (x.1 = .returned))
  have hrecords : (records t.log).length = (taken false t.log).length +
      (unreturned t.log).length + t.bsc.rxCount := by
    rw [← all_ledger, Ledger.all, List.length_append, List.length_map, hgone, hq.queue_length,
      hq.took false, unreturned, List.length_map, if_neg (by decide), Ledger.leftAs,
      List.length_map]
  rw [hbursts, hrecords]
  rfl

theorem evicted_eq_nil {log : List Event} (h : evictions log = 0) :
    (ledger log).leftAs .evicted = [] := by
  induction log with
  | nil => rfl
  | cons e log ih =>
    cases e with
    | evicted => cases h
    | superseded => exact (Ledger.leftAs_clear_ne _ (by decide)).trans (ih h)
    | took record fault =>
      refine (Ledger.leftAs_remove_ne _ ?_).trans (ih h)
      cases fault <;> decide
    | finished record =>
      cases record with
      | some r => exact ih h
      | none => exact ih h
    | _ => exact ih h

/-- Where every burst fits, no record had to make room and no copy failed, what `read` returned is,
in order, the beginning of what entered the RX FIFO, and the rest of it is still to be returned. -/
theorem intake_whole (s : Sys) (calls : List Call) (hr : s.bsc.readyGpio = false) :
    let t := run (openSession s) calls
    (∀ b ∈ bursts t.log, b.length ≤ bscMaxTransfer) → (burst t.log).length ≤ bscMaxTransfer →
      evictions t.log = 0 → taken true t.log = [] →
      s.hw.rxFifo ++ arrivals t.log = (taken false t.log).flatten ++
        (t.bsc.queued.flatten ++ t.bsc.workBytes ++ t.hw.rxFifo) := by
  intro t hbursts hburst hevictions hfault
  have hacc : Accounted s.hw.rxBusy s.hw.rxFifo t := Accounted.run s calls
  have hq : Queued s.bsc.stats.rxDropped t := Queued.run s calls
  have hretained : Retained s.hw.rxFifo t :=
    (hacc.retained_iff (Assembling.run s calls)).mpr ⟨hbursts, hburst⟩
  have hready : t.bsc.readyGpio = false :=
    (congrArg Prod.fst (standing_run s calls)).trans hr
  have hreturned : ∀ x ∈ (ledger t.log).gone, x.1 = .returned := by
    intro x hx
    have hnot (f : Fate) (hf : (ledger t.log).leftAs f = []) : x.1 ≠ f := by
      rw [Ledger.leftAs, List.map_eq_nil_iff, List.filter_eq_nil_iff] at hf
      simpa using hf x hx
    have hfaulted := hnot .faulted (by rw [← hfault, hq.took true]; rfl)
    have hevicted := hnot .evicted (evicted_eq_nil hevictions)
    have hsuperseded := hnot .superseded (hq.kept hready).2
    cases hx' : x.1 with
    | returned => rfl
    | faulted => exact absurd hx' hfaulted
    | evicted => exact absurd hx' hevicted
    | superseded => exact absurd hx' hsuperseded
  have hrecords : records t.log = taken false t.log ++ t.bsc.queued := by
    rw [← all_ledger, Ledger.all, hq.held, hq.took false, if_neg (by decide),
      Ledger.leftAs_eq _ hreturned]
  rw [hretained, hrecords, List.flatten_append]
  simp only [List.append_assoc]

/-! ## The receive-only responder -/

/-- The totals are those of the records read, and nothing was ever asked to be sent. -/
structure Tallies (v : Served) : Prop where
  only : v.serve.receiveOnly = true
  quiet : ∀ response deadline, v.serve.phase ≠ .queueing response deadline
  transactions : v.serve.receivedTransactions = (taken false v.sys.log).length
  bytes : v.serve.receivedBytes = (taken false v.sys.log).flatten.length
  asked : asks v.sys.log = []

namespace Tallies

variable {v : Served}

theorem unseen (h : Tallies v) {s : Sys} (hs : Grows Event.OfAttempt v.sys.log s.log) :
    Tallies { v with sys := s } := by
  refine ⟨h.only, h.quiet, ?_, ?_, ?_⟩
  · rw [taken_grows hs]
    exact h.transactions
  · rw [taken_grows hs]
    exact h.bytes
  · rw [asks_grows hs]
    exact h.asked

theorem resume (h : Tallies v) {phase : ServePhase}
    (hp : ∀ response deadline, phase ≠ .queueing response deadline) :
    Tallies { v with serve.phase := phase } :=
  ⟨h.only, hp, h.transactions, h.bytes, h.asked⟩

theorem step (h : Tallies v) (t : Turn) : Tallies (v.step t) := by
  cases t with
  | background b => exact h.unseen ((b.grows v.sys).mono fun _ he => he.attempt)
  | check running =>
    cases hp : v.serve.phase with
    | loop =>
      simp only [Served.step, hp]
      refine h.resume ?_
      cases running <;> exact fun _ _ hq => (by cases hq)
    | _ =>
      simp only [Served.step, hp]
      exact h
  | read interrupted fault restart now =>
    cases hp : v.serve.phase with
    | reading =>
      simp only [Served.step, hp]
      rcases read_cases (s := v.sys) interrupted fault with
        h' | ⟨-, h'⟩ | h' | ⟨-, h'⟩ | ⟨-, h'⟩ | ⟨-, request, hlog, h'⟩ <;> rw [h']
      · cases restart with
        | true => exact h
        | false => exact h.resume fun _ _ hq => (by cases hq)
      · exact h.resume fun _ _ hq => (by cases hq)
      · exact h.resume fun _ _ hq => (by cases hq)
      · exact h.resume fun _ _ hq => (by cases hq)
      · have htaken : Tallies { v with sys := dequeue true v.sys } :=
          ⟨h.only, h.quiet, h.transactions, h.bytes, h.asked⟩
        exact htaken.resume fun _ _ hq => (by cases hq)
      · simp only [TargetDriver.readReturned, TargetDriver.received, if_pos h.only]
        refine ⟨h.only, fun _ _ hq => (by cases hq), ?_, ?_, ?_⟩ <;> rw [hlog]
        · show _ + 1 = (taken false v.sys.log ++ [request]).length
          rw [h.transactions, List.length_append, List.length_singleton]
        · show _ + request.length = (taken false v.sys.log ++ [request]).flatten.length
          rw [h.bytes, List.flatten_append, List.length_append, List.flatten_singleton]
        · exact h.asked
    | _ =>
      simp only [Served.step, hp]
      exact h
  | write interrupted fault now =>
    cases hp : v.serve.phase with
    | queueing response deadline => exact absurd hp (h.quiet response deadline)
    | _ =>
      simp only [Served.step, hp]
      exact h

theorem start (s : Sys) : Tallies (Served.start true s) := by
  have hempty : Tallies ⟨{ s with log := [] }, .start true⟩ :=
    ⟨rfl, fun _ _ hq => (by cases hq), rfl, rfl, rfl⟩
  exact hempty.unseen ((grows_openSession s).mono fun _ he => he.attempt)

end Tallies

/-- The receive-only responder never asks for a response, and its totals are exactly what the
controllers sent less what is not read yet and what the driver dropped. -/
theorem receive_only_totals (s : Sys) (turns : List Turn) (ht : ∀ t ∈ turns, t.removes = false) :
    let v := (Served.start true s).run turns
    asks v.sys.log = [] ∧
      v.serve.receivedTransactions + (unreturned v.sys.log).length + v.sys.bsc.rxCount +
        (dropped v.sys.log).length = (bursts v.sys.log).length ∧
      v.serve.receivedBytes + (unreturned v.sys.log).flatten.length +
        v.sys.bsc.queued.flatten.length + (dropped v.sys.log).flatten.length +
        (burst v.sys.log).length + v.sys.hw.rxFifo.length =
          s.hw.rxFifo.length + (arrivals v.sys.log).length := by
  intro v
  have htallies : Tallies v := Served.run_keep (fun _ t h => h.step t) (.start s) turns
  obtain ⟨calls, hcalls⟩ := (Served.start true s).run_sys ht
  have hsys : v.sys = run (openSession s) calls := hcalls
  have hbytes := intake s calls
  have hbursts := intake_bursts s calls
  dsimp only at hbytes hbursts
  rw [← hsys] at hbytes hbursts
  refine ⟨htallies.asked, ?_, ?_⟩
  · rw [htallies.transactions, hbursts]
  · rw [htallies.bytes, hbytes]

/-- Two writes, the first one read, and a byte of a third. -/
def intakeTurns : List Turn :=
  [.check true, .background (.bus (.byte 1)), .background (.bus (.byte 2)), .background .timer,
    .read false false false 0, .check true, .background (.bus (.byte 3)), .background .timer,
    .background (.bus (.byte 4))]

theorem receive_only_totals_once :
    let v := (Served.start true (bscProbe false)).run intakeTurns
    asks v.sys.log = [] ∧
      v.serve.receivedTransactions + (unreturned v.sys.log).length + v.sys.bsc.rxCount +
        (dropped v.sys.log).length = (bursts v.sys.log).length ∧
      v.serve.receivedBytes + (unreturned v.sys.log).flatten.length +
        v.sys.bsc.queued.flatten.length + (dropped v.sys.log).flatten.length +
        (burst v.sys.log).length + v.sys.hw.rxFifo.length =
          (bscProbe false).hw.rxFifo.length + (arrivals v.sys.log).length :=
  receive_only_totals (bscProbe false) intakeTurns (by decide +kernel)

end BscTarget
