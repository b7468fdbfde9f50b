import BscTarget.Driver.Ready

/-!
# The device and its open files

`Device` puts the `opened` flag and the open files beside the driver. An action is one section
that `opened`, `state_lock` or `lock` makes atomic, so that a list of actions is an interleaving
of any number of tasks. A section of a file that is not at that point leaves the device as it is.
-/

namespace BscTarget

/-- Why `open` failed: an error of the driver, or what a kernel call returned. -/
inductive OpenError
  | driver (e : Errno)
  | kernel (code : ℕ)
  deriving DecidableEq

/-- How far a file is between `open` and `release`. -/
inductive FilePhase
  | unopened
  /-- The cmpxchg on `opened` succeeded. -/
  | claimed
  /-- `open` is going to return an error, with `opened` still set. -/
  | failing (e : OpenError)
  | failed (e : OpenError)
  | held
  /-- `release` is behind its `state_lock` section, with `opened` still set. -/
  | releasing
  | released
  deriving DecidableEq

/-- Whether the file has set `opened` and not cleared it. -/
def FilePhase.owns : FilePhase → Bool
  | .claimed | .failing _ | .held | .releasing => true
  | _ => false

structure Device where
  sys : Sys
  opened : Bool
  files : ℕ → FilePhase
  /-- The file that opened the last session. -/
  session : Option ℕ

inductive Action
  /-- What the bus is going to do before the coming register accesses. -/
  | schedule (env : List (List HwEvent))
  /-- A lock section of the interrupt, the timer or a system call, or a bus event. -/
  | call (c : Call)
  /-- `BSC_TARGET_IOC_CLEAR_STATS` -/
  | clearStats
  /-- `atomic_cmpxchg(&bsc->opened, 0, 1)` -/
  | openClaim (i : ℕ)
  /-- `nonseekable_open` returned an error. -/
  | openSeek (i : ℕ) (code : ℕ)
  /-- The `state_lock` section of `bsc_open`; `pins` is the error of `pinctrl_select_state`. -/
  | openSection (i : ℕ) (pins : Option ℕ)
  /-- `atomic_set(&bsc->opened, 0)` of an `open` that fails. -/
  | openFailed (i : ℕ)
  /-- The `state_lock` section of `bsc_release`. -/
  | releaseSection (i : ℕ)
  /-- `atomic_set(&bsc->opened, 0)` of `bsc_release` -/
  | releaseDone (i : ℕ)
  /-- The `state_lock` section of `bsc_remove`. -/
  | remove

def bscIoctlClearStats (s : Sys) : Sys :=
  { s with bsc.stats := ⟨0, 0, 0, 0, 0, 0, 0, 0, 0, 0⟩, bsc.recoveries := 0 }

def bscRemove (s : Sys) : Sys := bscDeactivate { s with bsc.dead := true }

namespace Device

/-- What `bsc_probe` leaves behind, on a peripheral in any condition. -/
def probe (address : UInt32) (readyGpio : Bool) (hw : Hw) (env : List (List HwEvent)) :
    Device where
  sys := bscDisableLocked ⟨.allocated address readyGpio, { hw with ready := false }, env, []⟩
  opened := false
  files := fun _ => .unopened
  session := none

/-- File `i` gets to `phase`. -/
def enter (d : Device) (i : ℕ) (phase : FilePhase) : Device :=
  { d with files := Function.update d.files i phase }

@[simp] theorem enter_files (d : Device) (i : ℕ) (phase : FilePhase) :
    (d.enter i phase).files = Function.update d.files i phase := rfl

/-- The history of a session starts with it. -/
def step (d : Device) : Action → Device
  | .schedule env => { d with sys.env := env }
  | .call c => { d with sys := exec d.sys c }
  | .clearStats => { d with sys := bscIoctlClearStats d.sys }
  | .openClaim i =>
    if d.files i = .unopened then
      if d.opened then d.enter i (.failed (.driver .EBUSY))
      else { d.enter i .claimed with opened := true }
    else d
  | .openSeek i code =>
    if d.files i = .claimed then d.enter i (.failing (.kernel code)) else d
  | .openSection i pins =>
    if d.files i = .claimed then
      if d.sys.bsc.dead then d.enter i (.failing (.driver .ENODEV))
      else
        match pins with
        | some code => d.enter i (.failing (.kernel code))
        | none => { d.enter i .held with sys := openSession d.sys, session := some i }
    else d
  | .openFailed i =>
    match d.files i with
    | .failing e => { d.enter i (.failed e) with opened := false }
    | _ => d
  | .releaseSection i =>
    if d.files i = .held then
      { d.enter i .releasing with sys := if d.sys.bsc.dead then d.sys else bscDeactivate d.sys }
    else d
  | .releaseDone i =>
    if d.files i = .releasing then { d.enter i .released with opened := false } else d
  | .remove => { d with sys := bscRemove d.sys }

def run (d : Device) (actions : List Action) : Device := actions.foldl step d

/-- What an action does to the driver. -/
theorem step_sys_cases (d : Device) (a : Action) :
    (d.step a).sys = d.sys ∨
    (∃ env, (d.step a).sys = { d.sys with env := env }) ∨
    (∃ c, (d.step a).sys = exec d.sys c) ∨
    (d.step a).sys = bscIoctlClearStats d.sys ∨
    (d.sys.bsc.dead = false ∧ (d.step a).sys = openSession d.sys) ∨
    (d.sys.bsc.dead = false ∧ (d.step a).sys = bscDeactivate d.sys) ∨
    (d.step a).sys = bscRemove d.sys := by
  cases a with
  | schedule env => exact .inr (.inl ⟨env, rfl⟩)
  | call c => exact .inr (.inr (.inl ⟨c, rfl⟩))
  | clearStats => exact .inr (.inr (.inr (.inl rfl)))
  | openSection i pins =>
    by_cases hi : d.files i = .claimed
    · by_cases hd : d.sys.bsc.dead = true
      · simp only [step, if_pos hi, if_pos hd]
        exact .inl rfl
      · rcases pins with _ | code
        · have hopen : (d.step (.openSection i none)).sys = openSession d.sys := by
            simp only [step, if_pos hi, if_neg hd]
          exact .inr (.inr (.inr (.inr (.inl ⟨by simpa using hd, hopen⟩))))
        · simp only [step, if_pos hi, if_neg hd]
          exact .inl rfl
    · exact .inl (by simp only [step, if_neg hi])
  | openFailed i =>
    refine .inl ?_
    simp only [step]
    split <;> rfl
  | releaseSection i =>
    by_cases hi : d.files i = .held
    · by_cases hd : d.sys.bsc.dead = true
      · exact .inl (by rw [step, if_pos hi, if_pos hd])
      · have hdeactivate : (d.step (.releaseSection i)).sys = bscDeactivate d.sys := by
          rw [step, if_pos hi, if_neg hd]
        exact .inr (.inr (.inr (.inr (.inr (.inl ⟨by simpa using hd, hdeactivate⟩)))))
    · exact .inl (by rw [step, if_neg hi])
  | remove => exact .inr (.inr (.inr (.inr (.inr (.inr rfl)))))
  | _ =>
    refine .inl ?_
    simp only [step]
    split_ifs <;> rfl

/-- What every action keeps, every run keeps. -/
theorem run_keep {P : Device → Prop} (hstep : ∀ d a, P d → P (d.step a)) {d : Device} (h : P d)
    (actions : List Action) : P (d.run actions) := by
  induction actions generalizing d with
  | nil => exact h
  | cons a actions ih => exact ih (hstep d a h)

/-! ## Who holds the device -/

/-- `opened` is set by file `o`, and by no other. -/
structure HeldBy (d : Device) (o : Option ℕ) : Prop where
  opened : d.opened = o.isSome
  owns : ∀ i, (d.files i).owns = true ↔ o = some i

namespace HeldBy

variable {d : Device} {o : Option ℕ} {i : ℕ} {phase : FilePhase}

theorem unique {j : ℕ} (h : d.HeldBy o) (hi : (d.files i).owns = true)
    (hj : (d.files j).owns = true) : i = j := by
  have hij := ((h.owns i).mp hi).symm.trans ((h.owns j).mp hj)
  exact Option.some.inj hij

theorem with_sys (h : d.HeldBy o) (s : Sys) : HeldBy { d with sys := s } o := ⟨h.opened, h.owns⟩

theorem with_session (h : d.HeldBy o) (j : Option ℕ) : HeldBy { d with session := j } o :=
  ⟨h.opened, h.owns⟩

/-- A file that moves on keeps what it holds. -/
theorem enter (h : d.HeldBy o) (hp : phase.owns = (d.files i).owns) :
    (d.enter i phase).HeldBy o where
  opened := h.opened
  owns := by
    intro j
    by_cases hj : j = i
    · subst hj
      rw [enter_files, Function.update_self, hp]
      exact h.owns j
    · rw [enter_files, Function.update_of_ne hj]
      exact h.owns j

theorem claim (h : d.HeldBy none) (hp : phase.owns = true) :
    HeldBy { d.enter i phase with opened := true } (some i) where
  opened := rfl
  owns := by
    intro j
    by_cases hj : j = i
    · subst hj
      simp [hp]
    · have hn : (d.files j).owns ≠ true := fun hown => by
        have hnone := (h.owns j).mp hown
        cases hnone
      simp [Function.update_of_ne hj, hn, Ne.symm hj]

theorem drop (h : d.HeldBy o) (hi : (d.files i).owns = true) (hp : phase.owns = false) :
    HeldBy { d.enter i phase with opened := false } none where
  opened := rfl
  owns := by
    intro j
    by_cases hj : j = i
    · subst hj
      simp [hp]
    · have hn : (d.files j).owns ≠ true := fun hown => hj (h.unique hown hi)
      simp [Function.update_of_ne hj, hn]

end HeldBy

theorem heldBy_probe (address : UInt32) (readyGpio : Bool) (hw : Hw)
    (env : List (List HwEvent)) : (probe address readyGpio hw env).HeldBy none :=
  ⟨rfl, fun i => by simp [probe, FilePhase.owns]⟩

/-- Every action leaves at most one file holding the device. -/
theorem heldBy_step {d : Device} (h : ∃ o, d.HeldBy o) (a : Action) :
    ∃ o, (d.step a).HeldBy o := by
  obtain ⟨o, h⟩ := h
  cases a with
  | schedule env => exact ⟨o, h.with_sys _⟩
  | call c => exact ⟨o, h.with_sys _⟩
  | clearStats => exact ⟨o, h.with_sys _⟩
  | remove => exact ⟨o, h.with_sys _⟩
  | openClaim i =>
    simp only [step]
    split_ifs with hi ho
    · exact ⟨o, h.enter (by rw [hi]; rfl)⟩
    · have hn : o = none := by
        rcases o with _ | j
        · rfl
        · exact absurd h.opened ho
      exact ⟨some i, (hn ▸ h).claim rfl⟩
    · exact ⟨o, h⟩
  | openSeek i code =>
    simp only [step]
    split_ifs with hi
    · exact ⟨o, h.enter (by rw [hi]; rfl)⟩
    · exact ⟨o, h⟩
  | openSection i pins =>
    simp only [step]
    split_ifs with hi hd
    · exact ⟨o, h.enter (by rw [hi]; rfl)⟩
    · rcases pins with _ | code
      · refine ⟨o, ?_⟩
        have henter : (d.enter i .held).HeldBy o := h.enter (by rw [hi]; rfl)
        exact (henter.with_sys _).with_session _
      · exact ⟨o, h.enter (by rw [hi]; rfl)⟩
    · exact ⟨o, h⟩
  | openFailed i =>
    simp only [step]
    split
    · next e hi => exact ⟨none, h.drop (by rw [hi]; rfl) rfl⟩
    · exact ⟨o, h⟩
  | releaseSection i =>
    by_cases hi : d.files i = .held
    · have henter : (d.enter i .releasing).HeldBy o := h.enter (by rw [hi]; rfl)
      rw [step, if_pos hi]
      exact ⟨o, henter.with_sys _⟩
    · rw [step, if_neg hi]
      exact ⟨o, h⟩
  | releaseDone i =>
    simp only [step]
    split_ifs with hi
    · exact ⟨none, h.drop (by rw [hi]; rfl) rfl⟩
    · exact ⟨o, h⟩

end Device

end BscTarget
