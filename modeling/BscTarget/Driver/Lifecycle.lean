import BscTarget.Driver.Device
import BscTarget.Driver.Registers

/-!
# Device lifecycle

Without a session the driver and the peripheral are as `bsc_disable_locked` left them (`Idle`);
a session belongs to the one file that holds the device (`Sound`). Both hold after every
interleaving of the sections of `open`, `release`, `remove` and the calls.
-/

namespace BscTarget

/-! ## Without a session -/

/-- The peripheral is disabled, READY released, and nothing of a session is left. -/
structure Idle (s : Sys) : Prop where
  cr : s.hw.cr = 0
  imsc : s.hw.imsc = 0
  slv : s.hw.slv = 0
  released : s.hw.ready = false
  reset : s.bsc.resetIo = s.bsc

namespace Idle

variable {s : Sys}

theorem rxCount (h : Idle s) : s.bsc.rxCount = 0 := by
  rw [← h.reset]
  rfl

theorem of_controls {t : Sys} (h : Idle s) (hc : t.hw.controls = s.hw.controls)
    (hb : t.bsc.resetIo = t.bsc) : Idle t where
  cr := (congrArg Controls.cr hc).trans h.cr
  imsc := (congrArg Controls.imsc hc).trans h.imsc
  slv := (congrArg Controls.slv hc).trans h.slv
  released := (congrArg Controls.ready hc).trans h.released
  reset := hb

theorem bus (h : Idle s) (e : HwEvent) : Idle (s.bus e) :=
  h.of_controls (controls_bus s e) (by rw [Sys.bus_bsc]; exact h.reset)

end Idle

@[simp] theorem bscDisableLocked_bsc (s : Sys) : (bscDisableLocked s).bsc = s.bsc.resetIo := by
  simp only [bscDisableLocked, bscResetIoLocked, bscSetReady_bsc, bscWrite_bsc]

theorem idle_bscDisableLocked {s : Sys} (h : s.bsc.readyGpio = false → s.hw.ready = false) :
    Idle (bscDisableLocked s) := by
  have hc := controls_bscDisableLocked s
  refine ⟨congrArg Controls.cr hc, congrArg Controls.imsc hc, congrArg Controls.slv hc, ?_, ?_⟩
  · refine (congrArg Controls.ready hc).trans ?_
    show (if s.bsc.readyGpio then false else s.hw.ready) = false
    split_ifs with hr
    · rfl
    · exact h (by simpa using hr)
  · rw [bscDisableLocked_bsc]
    rfl

/-- While no session is open, no lock section changes anything. -/
theorem exec_inactive {s : Sys} (ha : s.bsc.active = false) (hc : s.bsc.rxCount = 0) {c : Call}
    (hbus : ∀ e, c ≠ .bus e) : exec s c = s := by
  cases c with
  | irq mis => rw [exec, bscIrq, if_pos (.inr ha)]
  | timer => rw [exec, bscTimer, if_pos (.inr ha)]
  | read r =>
    simp only [exec, bscReadMessage, hc, if_true]
    split_ifs <;> rfl
  | write w =>
    simp only [exec, bscQueueResponse, ha, or_true, if_true]
    split_ifs <;> rfl
  | recover => rw [exec, bscIoctlRecover, if_pos (.inr ha)]
  | bus e => exact absurd rfl (hbus e)

theorem Idle.exec {s : Sys} (h : Idle s) (ha : s.bsc.active = false) (c : Call) :
    Idle (exec s c) := by
  cases c with
  | bus e => exact h.bus e
  | _ =>
    rw [exec_inactive ha h.rxCount (by intro e he; cases he)]
    exact h

theorem ready_unlit {s : Sys} (h : s.bsc.readyGpio = false) (level : Bool) :
    (bscSetReady level s).hw.ready = s.hw.ready := by
  rw [bscSetReady, if_neg (ne_true_of_eq_false h)]

/-- Without a READY line nothing sets it. -/
theorem Micro.unlit {s t : Sys} (h : Micro s t) (hr : s.bsc.readyGpio = false) :
    t.hw.ready = s.hw.ready := by
  cases h with
  | tend h =>
    cases h with
    | pass h =>
      cases h with
      | fill h =>
        cases h with
        | quiet h =>
          cases h with
          | bus e => exact (sameLine_bus s e).gpio
          | env => rfl
          | reg value reg => exact ready_write _ _ _
        | load => exact (sameLine_load s).gpio
      | status => rfl
      | drain => rw [drainByte_hw]
      | finish =>
        have ha : acknowledged s = s := by rw [acknowledged, if_neg (ne_true_of_eq_false hr)]
        rcases finishBurst_cases s with ⟨-, h⟩ | ⟨-, -, h⟩ | ⟨-, -, h⟩ <;> rw [h, ha]
    | cr value => exact ready_write _ value .CR
    | tally => rfl
    | take => rfl
    | recover => rfl
    | release =>
      refine (ready_unlit ?_ false).trans rfl
      exact hr
  | announce data _ =>
    refine (ready_unlit ?_ true).trans rfl
    exact hr
  | _ => rfl

theorem unlit_exec {s : Sys} (hr : s.bsc.readyGpio = false) (c : Call) :
    (exec s c).hw.ready = s.hw.ready := by
  have h : (exec s c).hw.ready = s.hw.ready ∧ (exec s c).bsc.readyGpio = false :=
    Steps.keep (P := fun t => t.hw.ready = s.hw.ready ∧ t.bsc.readyGpio = false)
      (fun h ht => ⟨(h.unlit ht.2).trans ht.1, h.readyGpio.trans ht.2⟩) (exec_steps s c)
      ⟨rfl, hr⟩
  exact h.1

theorem ready_openSession {s : Sys} (hr : s.bsc.readyGpio = false) :
    (openSession s).hw.ready = s.hw.ready := by
  have hc := congrArg Controls.ready (controls_bscConfigureLocked (cleared s))
  refine hc.trans ?_
  show (cleared s).hw.ready = s.hw.ready
  rw [cleared_unwired hr]

theorem bscDeactivate_active (s : Sys) : (bscDeactivate s).bsc.active = false := by
  unfold bscDeactivate
  split_ifs with ha
  · exact ha
  · rw [bscDisableLocked_bsc]
    rfl

/-- Deactivation keeps what belongs to no session. -/
theorem bscDeactivate_keeps {β : Type*} (f : Bsc → β)
    (hf : ∀ b : Bsc, f { b with active := false }.resetIo = f b) (s : Sys) :
    f (bscDeactivate s).bsc = f s.bsc := by
  unfold bscDeactivate
  split_ifs
  · rfl
  · rw [bscDisableLocked_bsc]
    exact hf s.bsc

theorem idle_bscDeactivate {s : Sys} (hi : s.bsc.active = false → Idle s)
    (hr : s.bsc.readyGpio = false → s.hw.ready = false) : Idle (bscDeactivate s) := by
  unfold bscDeactivate
  split_ifs with ha
  · exact hi ha
  · exact idle_bscDisableLocked hr

/-! ## The invariant -/

namespace Device

/-- The file that holds the device owns the session, if there is one. -/
structure Sound (d : Device) : Prop where
  holder : ∃ o, d.HeldBy o
  owner : d.sys.bsc.active = true → ∃ i, d.session = some i ∧ d.files i = .held
  gone : d.sys.bsc.dead = true → d.sys.bsc.active = false
  idle : d.sys.bsc.active = false → Idle d.sys
  unlit : d.sys.bsc.readyGpio = false → d.sys.hw.ready = false

namespace Sound

variable {d : Device} {i : ℕ}

theorem probe (address : UInt32) (readyGpio : Bool) (hw : Hw) (env : List (List HwEvent)) :
    Sound (probe address readyGpio hw env) := by
  have hidle : Idle (Device.probe address readyGpio hw env).sys :=
    idle_bscDisableLocked fun _ => rfl
  have hbsc : (Device.probe address readyGpio hw env).sys.bsc =
      (Bsc.allocated address readyGpio).resetIo := bscDisableLocked_bsc _
  refine ⟨⟨none, heldBy_probe _ _ _ _⟩, ?_, ?_, fun _ => hidle, fun _ => hidle.released⟩
  · intro ha
    rw [hbsc] at ha
    cases ha
  · intro _
    rw [hbsc]
    rfl

/-- The session's file is the only one that holds the device. -/
theorem owns_session (h : d.Sound) (ha : d.sys.bsc.active = true) (hi : (d.files i).owns = true) :
    d.session = some i ∧ d.files i = .held := by
  obtain ⟨o, ho⟩ := h.holder
  obtain ⟨j, hs, hj⟩ := h.owner ha
  have hij : i = j := ho.unique hi (by rw [hj]; rfl)
  rw [hij]
  exact ⟨hs, hj⟩

/-- While a file is on its way in or out, there is no session. -/
theorem inactive_of_owns (h : d.Sound) (hi : (d.files i).owns = true) (hne : d.files i ≠ .held) :
    d.sys.bsc.active = false := by
  by_contra ha
  exact hne (h.owns_session (by simpa using ha) hi).2

theorem with_sys (h : d.Sound) {s : Sys} (hb : s.bsc.standing = d.sys.bsc.standing)
    (hi : d.sys.bsc.active = false → Idle s)
    (hr : d.sys.bsc.readyGpio = false → s.hw.ready = d.sys.hw.ready) :
    Sound { d with sys := s } := by
  simp only [Bsc.standing, Prod.mk.injEq] at hb
  obtain ⟨hgpio, hdead, hactive⟩ := hb
  refine ⟨?_, ?_, ?_, ?_, ?_⟩
  · obtain ⟨o, ho⟩ := h.holder
    exact ⟨o, ho.with_sys s⟩
  · intro ha
    exact h.owner (hactive.symm.trans ha)
  · intro hd
    exact hactive.trans (h.gone (hdead.symm.trans hd))
  · intro ha
    exact hi (hactive.symm.trans ha)
  · intro hg
    have hg' := hgpio.symm.trans hg
    exact (hr hg').trans (h.unlit hg')

/-- A step that leaves the driver alone. -/
theorem of_files {d' : Device} (h : d.Sound) (ho : ∃ o, d'.HeldBy o) (hs : d'.sys = d.sys)
    (hsession : d'.session = d.session)
    (hf : ∀ j, d.files j = .held → d'.files j = .held) : d'.Sound := by
  refine ⟨ho, ?_, ?_, ?_, ?_⟩
  · intro ha
    rw [hs] at ha
    obtain ⟨j, hj, hheld⟩ := h.owner ha
    exact ⟨j, hsession.trans hj, hf j hheld⟩
  · rw [hs]
    exact h.gone
  · rw [hs]
    exact h.idle
  · rw [hs]
    exact h.unlit

theorem held_enter {phase : FilePhase} (hi : d.files i ≠ .held) (j : ℕ)
    (hj : d.files j = .held) : (d.enter i phase).files j = .held := by
  have hne : j ≠ i := by
    rintro rfl
    exact hi hj
  rw [enter_files, Function.update_of_ne hne]
  exact hj

theorem opens (h : d.Sound) (hi : d.files i = .claimed) (hd : d.sys.bsc.dead = false) :
    Sound { d.enter i .held with sys := openSession d.sys, session := some i } := by
  obtain ⟨o, ho⟩ := h.holder
  have henter : (d.enter i .held).HeldBy o := ho.enter (by rw [hi]; rfl)
  refine ⟨⟨o, (henter.with_sys _).with_session _⟩, ?_, ?_, ?_, ?_⟩
  · intro _
    exact ⟨i, rfl, Function.update_self ..⟩
  · intro hdead
    rw [openSession_bsc] at hdead
    exact absurd hdead (ne_true_of_eq_false hd)
  · intro ha
    rw [openSession_bsc] at ha
    cases ha
  · intro hr
    rw [openSession_bsc] at hr
    exact (ready_openSession hr).trans (h.unlit hr)

theorem closes (h : d.Sound) (hi : d.files i = .held) :
    Sound { d.enter i .releasing with
      sys := if d.sys.bsc.dead then d.sys else bscDeactivate d.sys } := by
  obtain ⟨o, ho⟩ := h.holder
  have henter : (d.enter i .releasing).HeldBy o := ho.enter (by rw [hi]; rfl)
  have hs : ∀ s : Sys, s.bsc.active = false → Idle s →
      Sound { d.enter i .releasing with sys := s } := by
    intro s ha hidle
    refine ⟨⟨o, henter.with_sys _⟩, ?_, fun _ => ha, fun _ => hidle, fun _ => hidle.released⟩
    intro ha'
    exact absurd ha (ne_false_of_eq_true ha')
  by_cases hd : d.sys.bsc.dead = true
  · rw [if_pos hd]
    exact hs _ (h.gone hd) (h.idle (h.gone hd))
  · rw [if_neg hd]
    exact hs _ (bscDeactivate_active _) (idle_bscDeactivate h.idle h.unlit)

theorem removes (h : d.Sound) : Sound { d with sys := bscRemove d.sys } := by
  obtain ⟨o, ho⟩ := h.holder
  have hidle : Idle (bscRemove d.sys) := by
    refine idle_bscDeactivate (fun ha => ?_) h.unlit
    have hi := h.idle ha
    exact hi.of_controls rfl (by
      show { d.sys.bsc.resetIo with dead := true } = _
      rw [hi.reset])
  refine ⟨⟨o, ho.with_sys _⟩, ?_, fun _ => bscDeactivate_active _, fun _ => hidle,
    fun _ => hidle.released⟩
  intro ha
  exact absurd (bscDeactivate_active _) (ne_false_of_eq_true ha)

theorem step (h : d.Sound) (a : Action) : (d.step a).Sound := by
  have ho := heldBy_step h.holder a
  cases a with
  | schedule env =>
    have hidle : d.sys.bsc.active = false → Idle { d.sys with env := env } :=
      fun ha => (h.idle ha).of_controls rfl (h.idle ha).reset
    exact h.with_sys rfl hidle (fun _ => rfl)
  | call c =>
    exact h.with_sys (standing_steps (exec_steps _ c)) (fun ha => (h.idle ha).exec ha c)
      (fun hr => unlit_exec hr c)
  | clearStats =>
    have hreset : ∀ b : Bsc, b.resetIo = b →
        { b with stats := ⟨0, 0, 0, 0, 0, 0, 0, 0, 0, 0⟩, recoveries := 0 }.resetIo =
          { b with stats := ⟨0, 0, 0, 0, 0, 0, 0, 0, 0, 0⟩, recoveries := 0 } := by
      intro b hb
      rw [← hb]
      rfl
    exact h.with_sys rfl
      (fun ha => (h.idle ha).of_controls rfl (hreset _ (h.idle ha).reset)) (fun _ => rfl)
  | remove => exact h.removes
  | openClaim i =>
    revert ho
    simp only [Device.step]
    split_ifs with hi hopen
    · exact fun ho => h.of_files ho rfl rfl (held_enter (by rw [hi]; simp))
    · exact fun ho => h.of_files ho rfl rfl (held_enter (by rw [hi]; simp))
    · exact fun _ => h
  | openSeek i code =>
    revert ho
    simp only [Device.step]
    split_ifs with hi
    · exact fun ho => h.of_files ho rfl rfl (held_enter (by rw [hi]; simp))
    · exact fun _ => h
  | openSection i pins =>
    revert ho
    simp only [Device.step]
    split_ifs with hi hd
    · exact fun ho => h.of_files ho rfl rfl (held_enter (by rw [hi]; simp))
    · rcases pins with _ | code
      · exact fun _ => h.opens hi (by simpa using hd)
      · exact fun ho => h.of_files ho rfl rfl (held_enter (by rw [hi]; simp))
    · exact fun _ => h
  | openFailed i =>
    revert ho
    simp only [Device.step]
    split
    · next e hi => exact fun ho => h.of_files ho rfl rfl (held_enter (by rw [hi]; simp))
    · exact fun _ => h
  | releaseSection i =>
    by_cases hi : d.files i = .held
    · rw [Device.step, if_pos hi]
      exact h.closes hi
    · rw [Device.step, if_neg hi]
      exact h
  | releaseDone i =>
    revert ho
    simp only [Device.step]
    split_ifs with hi
    · exact fun ho => h.of_files ho rfl rfl (held_enter (by rw [hi]; simp))
    · exact fun _ => h

theorem run (h : d.Sound) (actions : List Action) : (d.run actions).Sound :=
  run_keep (fun _ a hd => hd.step a) h actions

end Sound

/-! ## Opening and closing -/

variable {d : Device} {i : ℕ}

/-- A file that is not the session's has nothing left to release. -/
theorem Sound.release_stale (h : d.Sound) (ha : d.sys.bsc.active = true)
    (hi : d.session ≠ some i) :
    d.step (.releaseSection i) = d ∧ d.step (.releaseDone i) = d := by
  have hn : (d.files i).owns ≠ true := fun hown => hi (h.owns_session ha hown).1
  refine ⟨?_, ?_⟩
  · rw [Device.step, if_neg]
    intro hheld
    exact hn (by rw [hheld]; rfl)
  · rw [Device.step, if_neg]
    intro hrel
    exact hn (by rw [hrel]; rfl)

/-- Only its own file's release and removal end a session. -/
theorem Sound.deactivated (h : d.Sound) (ha : d.sys.bsc.active = true) {a : Action}
    (ha' : (d.step a).sys.bsc.active = false) :
    a = .remove ∨ ∃ i, d.session = some i ∧ a = .releaseSection i := by
  have hsame : (d.step a).sys.bsc.active = d.sys.bsc.active → False := by
    intro heq
    rw [heq, ha] at ha'
    cases ha'
  cases a with
  | remove => exact .inl rfl
  | releaseSection i =>
    refine .inr ⟨i, ?_, rfl⟩
    by_contra hi
    exact hsame (by rw [(h.release_stale ha hi).1])
  | schedule env => exact (hsame rfl).elim
  | clearStats => exact (hsame rfl).elim
  | call c => exact (hsame (active_exec d.sys c)).elim
  | openClaim i =>
    refine (hsame ?_).elim
    simp only [Device.step]
    split_ifs <;> rfl
  | openSeek i code =>
    refine (hsame ?_).elim
    simp only [Device.step]
    split_ifs <;> rfl
  | openSection i pins =>
    by_cases hi : d.files i = .claimed
    · have hinactive := h.inactive_of_owns (i := i) (by rw [hi]; rfl) (by rw [hi]; simp)
      exact absurd hinactive (ne_false_of_eq_true ha)
    · exact (hsame (by simp only [Device.step, if_neg hi])).elim
  | openFailed i =>
    refine (hsame ?_).elim
    simp only [Device.step]
    split <;> rfl
  | releaseDone i =>
    refine (hsame ?_).elim
    simp only [Device.step]
    split_ifs <;> rfl

theorem step_openFailed {e : OpenError} (hi : d.files i = .failing e) :
    d.step (.openFailed i) = { d.enter i (.failed e) with opened := false } := by
  simp only [step, hi]

theorem step_openClaim (hi : d.files i = .unopened) (ho : d.opened = false) :
    d.step (.openClaim i) = { d.enter i .claimed with opened := true } := by
  rw [step, if_pos hi, if_neg (ne_true_of_eq_false ho)]

theorem step_openSection (hi : d.files i = .claimed) (hd : d.sys.bsc.dead = false) :
    d.step (.openSection i none) =
      { d.enter i .held with sys := openSession d.sys, session := some i } := by
  rw [step, if_pos hi, if_neg (ne_true_of_eq_false hd)]

/-- A device with `opened` clear can be opened. -/
theorem opens {j : ℕ} (ho : d.opened = false) (hd : d.sys.bsc.dead = false)
    (hj : d.files j = .unopened) :
    ((d.step (.openClaim j)).step (.openSection j none)).files j = .held ∧
      ((d.step (.openClaim j)).step (.openSection j none)).session = some j ∧
      ((d.step (.openClaim j)).step (.openSection j none)).sys.bsc.active = true := by
  have hclaimed : ({ d.enter j .claimed with opened := true } : Device).files j = .claimed :=
    Function.update_self ..
  rw [step_openClaim hj ho, step_openSection hclaimed hd]
  refine ⟨Function.update_self .., rfl, ?_⟩
  exact congrArg Bsc.active (openSession_bsc d.sys)

/-! ## Removal -/

theorem dead_bscRemove (s : Sys) : (bscRemove s).bsc.dead = true :=
  bscDeactivate_keeps Bsc.dead (fun _ => rfl) { s with bsc.dead := true }

theorem dead_step (hd : d.sys.bsc.dead = true) (a : Action) :
    (d.step a).sys.bsc.dead = true := by
  rcases step_sys_cases d a with h | ⟨env, h⟩ | ⟨c, h⟩ | h | ⟨hd', -⟩ | ⟨hd', -⟩ | h
  · rw [h]
    exact hd
  · rw [h]
    exact hd
  · rw [h]
    exact (dead_exec d.sys c).trans hd
  · rw [h]
    exact hd
  · exact absurd hd (ne_true_of_eq_false hd')
  · exact absurd hd (ne_true_of_eq_false hd')
  · rw [h]
    exact dead_bscRemove d.sys

/-- A device that `bsc_remove` has left: there is no session, and whatever gets past its own
checks fails. -/
structure Removed (d : Device) : Prop where
  dead : d.sys.bsc.dead = true
  inactive : d.sys.bsc.active = false
  read : ∀ r, (bscReadMessage r d.sys).1 =
    .error (if r.lockInterrupted then .ERESTARTSYS else .ENODEV)
  write : ∀ w, (bscQueueResponse w d.sys).1 =
    .error (if w.data.length = 0 ∨ bscMaxTransfer < w.data.length then .EMSGSIZE
      else if w.fault then .EFAULT else if w.interrupted then .ERESTARTSYS else .ENODEV)
  recover : (bscIoctlRecover d.sys).1 = .error .ENODEV
  busy : d.opened = true ↔ ∃ i, (d.files i).owns = true
  openClaim : ∀ i, d.files i = .unopened → (d.step (.openClaim i)).files i =
    if d.opened then .failed (.driver .EBUSY) else .claimed
  openSection : ∀ i pins, d.files i = .claimed →
    (d.step (.openSection i pins)).files i = .failing (.driver .ENODEV)

theorem Sound.removed (h : d.Sound) (hd : d.sys.bsc.dead = true) : d.Removed := by
  have ha := h.gone hd
  refine ⟨hd, ha, ?_, ?_, ?_, ?_, ?_, ?_⟩
  · intro r
    rw [bscReadMessage]
    split_ifs <;> rfl
  · intro w
    rw [bscQueueResponse]
    split_ifs with h₁ h₂ h₃ h₄
    all_goals first | rfl | exact absurd (.inl hd) h₄
  · rw [bscIoctlRecover, if_pos (.inl hd)]
  · obtain ⟨o, ho⟩ := h.holder
    rw [ho.opened, Option.isSome_iff_exists]
    exact exists_congr fun i => (ho.owns i).symm
  · intro i hi
    rw [Device.step, if_pos hi]
    split_ifs <;> exact Function.update_self ..
  · intro i pins hi
    simp only [Device.step, if_pos hi, if_pos hd]
    exact Function.update_self ..

end Device

/-! ## The lifecycle -/

/-- What holds of the device between two actions. -/
structure Lifecycle (d : Device) : Prop where
  /-- At most one file holds the device. -/
  exclusive : ∀ i j, (d.files i).owns = true → (d.files j).owns = true → i = j
  /-- An active session is owned by the open file that started it, which keeps it until that
  file's release or the removal of the device. -/
  owner : d.sys.bsc.active = true → ∃ i, d.session = some i ∧ d.files i = .held
  kept : d.sys.bsc.active = true → ∀ a, (d.step a).sys.bsc.active = false →
    a = .remove ∨ ∃ i, d.session = some i ∧ a = .releaseSection i
  stale : d.sys.bsc.active = true → ∀ i, d.session ≠ some i →
    d.step (.releaseSection i) = d ∧ d.step (.releaseDone i) = d
  /-- An `open` that finds the device taken changes nothing. -/
  busy : ∀ i, d.files i = .unopened → d.opened = true →
    d.step (.openClaim i) = d.enter i (.failed (.driver .EBUSY))
  /-- An `open` that fails later leaves no session behind, and the next one succeeds. -/
  failed : ∀ i e, d.files i = .failing e →
    (d.step (.openFailed i)).files i = .failed e ∧
    (d.step (.openFailed i)).sys.bsc.active = false ∧
    (d.step (.openFailed i)).opened = false ∧
    (d.sys.bsc.dead = false → ∀ j, (d.step (.openFailed i)).files j = .unopened →
      let d' := ((d.step (.openFailed i)).step (.openClaim j)).step (.openSection j none)
      d'.files j = .held ∧ d'.session = some j ∧ d'.sys.bsc.active = true)
  idle : d.sys.bsc.active = false →
    d.sys.hw.cr = 0 ∧ d.sys.hw.imsc = 0 ∧ d.sys.hw.slv = 0 ∧ d.sys.hw.ready = false ∧
    d.sys.bsc.rxCount = 0 ∧ d.sys.bsc.rxWorkLen = 0 ∧ d.sys.bsc.txLen = 0 ∧
    d.sys.bsc.workerPending = false
  inert : d.sys.bsc.active = false → ∀ c, (∀ e, c ≠ .bus e) → exec d.sys c = d.sys
  removed : ∀ actions, ((d.step .remove).run actions).Removed

theorem Device.Sound.lifecycle {d : Device} (h : d.Sound) : Lifecycle d where
  exclusive := by
    intro i j hi hj
    obtain ⟨o, ho⟩ := h.holder
    exact ho.unique hi hj
  owner := h.owner
  kept := fun ha _ ha' => h.deactivated ha ha'
  stale := fun ha _ hi => h.release_stale ha hi
  busy := by
    intro i hi ho
    rw [Device.step, if_pos hi, if_pos ho]
  failed := by
    intro i e hi
    have hinactive := h.inactive_of_owns (i := i) (by rw [hi]; rfl) (by rw [hi]; simp)
    rw [Device.step_openFailed hi]
    exact ⟨Function.update_self .., hinactive, rfl, fun hd _ hj => Device.opens rfl hd hj⟩
  idle := by
    intro ha
    have hi := h.idle ha
    refine ⟨hi.cr, hi.imsc, hi.slv, hi.released, ?_⟩
    rw [← hi.reset]
    exact ⟨rfl, rfl, rfl, rfl⟩
  inert := fun ha _ hc => exec_inactive ha (h.idle ha).rxCount hc
  removed := by
    intro actions
    have hdead : ((d.step .remove).run actions).sys.bsc.dead = true :=
      Device.run_keep (P := fun d => d.sys.bsc.dead = true) (fun _ a hd => Device.dead_step hd a)
        (Device.dead_bscRemove d.sys) actions
    exact ((h.step .remove).run actions).removed hdead

/-- Every interleaving of sections keeps the lifecycle. -/
theorem device_lifecycle (address : UInt32) (readyGpio : Bool) (hw : Hw)
    (env : List (List HwEvent)) (actions : List Action) :
    Lifecycle ((Device.probe address readyGpio hw env).run actions) :=
  ((Device.Sound.probe address readyGpio hw env).run actions).lifecycle

/-- A device that is taken refuses an `open` and stays active; a removed one refuses an empty
`write` for its size. -/
theorem not_lifecycle_refused :
    let d := Device.probe 0x13 true .reset []
    let taken := d.run [.openClaim 0, .openSection 0 none, .openClaim 1]
    (taken.files 1 = .failed (.driver .EBUSY) ∧ taken.sys.bsc.active = true) ∧
    (bscQueueResponse ⟨[], false, false⟩ (d.run [.remove]).sys).1 = .error .EMSGSIZE := by
  intro d taken
  refine ⟨⟨rfl, ?_⟩, rfl⟩
  exact congrArg Bsc.active (openSession_bsc _)

end BscTarget
