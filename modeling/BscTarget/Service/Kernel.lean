import BscTarget.Driver.Polling

/-!
# The kernel beside a program

What goes on in the driver while the program that holds the device is in none of its system calls:
interrupts, the timer, the bus, and the removal of the device. None of it reads or answers a
request (`Background.grows`), and short of removal none of it takes a request from its worker.
-/

namespace BscTarget

inductive Background
  | irq (mis : UInt32)
  | timer
  | bus (e : HwEvent)
  | remove

namespace Background

def perform (s : Sys) : Background → Sys
  | .irq mis => bscIrq mis s
  | .timer => bscTimer s
  | .bus e => s.bus e
  | .remove => bscRemove s

def removes : Background → Bool
  | .remove => true
  | _ => false

end Background

/-! ## Upkeep -/

/-- A step of a service pass, or the counting of one. -/
inductive Upkeep : Sys → Sys → Prop
  | pass {s t : Sys} (h : Pass s t) : Upkeep s t
  | tally (s : Sys) (interrupts timerRuns : ℕ) :
      Upkeep s { s with bsc.stats.interrupts := interrupts, bsc.stats.timerRuns := timerRuns }

namespace Upkeep

variable {s t : Sys}

theorem tend (h : Upkeep s t) : Tend s t := by
  cases h with
  | pass h => exact .pass h
  | tally i n => exact .tally s i n

theorem grows (h : Upkeep s t) : Grows Event.OfPass s.log t.log := by
  cases h with
  | pass h => exact h.grows
  | tally => exact .refl _

theorem worker (h : Upkeep s t) : t.worker = s.worker := by
  cases h with
  | pass h => exact h.worker
  | tally => rfl

theorem of_pass (h : Steps Pass s t) : Steps Upkeep s t :=
  Relation.ReflTransGen.mono (fun _ _ => .pass) _ _ h

theorem toMicro (h : Steps Upkeep s t) : Steps Micro s t :=
  Relation.ReflTransGen.mono (fun _ _ h => .tend h.tend) _ _ h

theorem grows_steps (h : Steps Upkeep s t) : Grows Event.OfPass s.log t.log :=
  h.lift (R := fun s t : Sys => Grows Event.OfPass s.log t.log) (fun s => .refl s.log)
    (fun h h' => Grows.trans h h') grows

theorem worker_steps (h : Steps Upkeep s t) : t.worker = s.worker :=
  Steps.frame (f := Sys.worker) worker h

end Upkeep

/-! ## The background is upkeep -/

theorem Setup.grows_steps {s t : Sys} (h : Steps Setup s t) : Grows Event.OfPass s.log t.log := by
  refine h.lift (R := fun s t : Sys => Grows Event.OfPass s.log t.log) (fun s => .refl s.log)
    (fun h h' => Grows.trans h h') fun h => h.grows.mono fun e he => ?_
  cases e <;> first | exact he | cases he

/-- Deactivation notes nothing but the bus and the release of READY. -/
theorem grows_bscDeactivate (s : Sys) : Grows Event.OfPass s.log (bscDeactivate s).log := by
  unfold bscDeactivate
  split_ifs
  · exact .refl _
  · have hwrites : Steps Setup { s with bsc.active := false } (bscWrite .SLV 0 (bscWrite .RSR 0
        (bscWrite .CR 0 (bscWrite .IMSC 0 { s with bsc.active := false })))) :=
      (((bscWrite_setup (by decide) (by simp) _).trans
        (bscWrite_setup (by decide) (by simp) _)).trans
        (bscWrite_setup (by decide) (by simp) _)).trans (bscWrite_setup (by decide) (by simp) _)
    have hgrows := Setup.grows_steps hwrites
    simp only [bscDisableLocked, bscResetIoLocked, bscSetReady]
    split_ifs
    · exact hgrows.cons (e := .ready false) trivial
    · exact hgrows

namespace Background

variable {s : Sys} {b : Background}

theorem upkeep (hb : b.removes = false) (s : Sys) : Steps Upkeep s (b.perform s) := by
  cases b with
  | irq mis =>
    simp only [perform, bscIrq]
    split_ifs
    · exact .refl
    · exact .head (.tally s _ s.bsc.stats.timerRuns) (Upkeep.of_pass
        ((bscServiceLocked_steps _).trans
          (toPass (toFill (bscWrite_steps (by decide) (by simp) _)))))
  | timer =>
    simp only [perform, bscTimer]
    split_ifs
    · exact .refl
    · exact .head (.tally s s.bsc.stats.interrupts _)
        (Upkeep.of_pass (bscServiceLocked_steps _))
  | bus e => exact .single (.pass (.fill (.quiet (.bus s e))))
  | remove => cases hb

/-- Short of removal, the background is what a session is made of. -/
theorem perform_exec (hb : b.removes = false) (s : Sys) :
    ∃ c, (∀ r, c ≠ .read r) ∧ c.writes = false ∧ b.perform s = exec s c := by
  cases b with
  | irq mis => exact ⟨.irq mis, fun _ hc => (by cases hc), rfl, rfl⟩
  | timer => exact ⟨.timer, fun _ hc => (by cases hc), rfl, rfl⟩
  | bus e => exact ⟨.bus e, fun _ hc => (by cases hc), rfl, rfl⟩
  | remove => cases hb

/-- The background neither reads, answers, refuses nor discards. -/
theorem grows (b : Background) (s : Sys) : Grows Event.OfPass s.log (b.perform s).log := by
  cases hb : b.removes with
  | false => exact Upkeep.grows_steps (upkeep hb s)
  | true =>
    cases b with
    | remove => exact grows_bscDeactivate { s with bsc.dead := true }
    | _ => cases hb

/-- What the background leaves to the program: how the device is set up, and, unless the device
is gone, the request the program has. -/
structure Leaves (s t : Sys) : Prop where
  ready : t.bsc.readyGpio = s.bsc.readyGpio
  dead : s.bsc.dead = true → t.bsc.dead = true
  opened : s.bsc.active = true → t.bsc.active = true ∨ t.bsc.dead = true
  pending : s.bsc.workerPending = true → t.bsc.workerPending = true ∨ t.bsc.dead = true

theorem leaves (b : Background) (s : Sys) : Leaves s (b.perform s) := by
  cases hb : b.removes with
  | false =>
    have hsteps := upkeep hb s
    have hstand := standing_steps (Upkeep.toMicro hsteps)
    have hworker := Upkeep.worker_steps hsteps
    simp only [Bsc.standing, Prod.mk.injEq] at hstand
    refine ⟨hstand.1, fun h => hstand.2.1.trans h, fun h => .inl (hstand.2.2.trans h), fun h => ?_⟩
    exact .inl ((congrArg Prod.fst hworker).trans h)
  | true =>
    cases b with
    | remove =>
      have hdead := Device.dead_bscRemove s
      refine ⟨?_, fun _ => hdead, fun _ => .inr hdead, fun _ => .inr hdead⟩
      exact bscDeactivate_keeps Bsc.readyGpio (fun _ => rfl) { s with bsc.dead := true }
    | _ => cases hb

theorem fitting (b : Background) {s : Sys} (hi : Fitting s.bsc) : Fitting (b.perform s).bsc := by
  cases hb : b.removes with
  | false =>
    exact (Upkeep.toMicro (upkeep hb s)).keep (P := fun s => Fitting s.bsc) Fitting.micro hi
  | true =>
    cases b with
    | remove =>
      exact Fitting.bscDeactivate (s := { s with bsc.dead := true }) ⟨hi.work, hi.slots⟩
    | _ => cases hb

end Background

end BscTarget
