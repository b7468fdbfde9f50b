import Mathlib.Data.List.Infix
import BscTarget.Driver.Lifecycle

/-!
# Lifetime of the device

`bsc_probe` acquires what the driver works with statement by statement, and may fail at each of
them. What stands on the device's own list is released in the opposite order, behind `bsc_remove` or
behind the statement that failed. Until then the interrupt, the timer, the files and the attribute
find everything in its place; a file that is still open afterwards does not (`lifetime`).
-/

namespace BscTarget

/-! ## Resources -/

/-- What is released when the device is unbound. -/
inductive Resource
  | bsc
  | rxSlots
  | regs
  | readyGpio
  | pinctrl
  | irq
  deriving DecidableEq

/-- What the device tree says, and the peripheral. -/
structure Platform where
  /-- `brcm,slave-address` -/
  slaveAddress : Option UInt32
  /-- `brcm,poll-interval-ns` -/
  pollIntervalNs : Option UInt32
  /-- The READY line, if there is one, and `gpiod_cansleep` of it. -/
  readyGpio : Option Bool
  hw : Hw
  env : List (List HwEvent)

namespace Platform

def address (p : Platform) : UInt32 := p.slaveAddress.getD 0x13

def pollNs (p : Platform) : UInt32 := p.pollIntervalNs.getD 300000

/-- Whether there is a READY line. -/
def wired (p : Platform) : Bool := p.readyGpio.isSome

end Platform

/-- What servicing the peripheral works with. -/
def serviced (wired : Bool) : List Resource :=
  [.bsc, .rxSlots, .regs] ++ if wired then [.readyGpio] else []

/-- What an action works with. -/
def Device.uses (wired : Bool) (d : Device) : Action → List Resource
  | .schedule _ | .call (.bus _) => []
  | .call (.irq _) => if d.sys.bsc.active then serviced wired else [.bsc, .regs]
  | .call .timer | .call (.write _) | .call .recover =>
    if d.sys.bsc.dead || !d.sys.bsc.active then [.bsc] else serviced wired
  | .call (.read _) => if d.sys.bsc.rxCount = 0 then [.bsc] else [.bsc, .rxSlots]
  | .openSection .. => if d.sys.bsc.dead then [.bsc] else .pinctrl :: serviced wired
  | .releaseSection _ =>
    if d.sys.bsc.dead || !d.sys.bsc.active then [.bsc] else .pinctrl :: serviced wired
  | .remove => if d.sys.bsc.active then .pinctrl :: serviced wired else [.bsc]
  | .clearStats | .openClaim _ | .openSeek .. | .openFailed _ | .releaseDone _ => [.bsc]

/-! ## `bsc_probe` and `bsc_remove` -/

inductive ProbeStatement
  /-- `devm_kzalloc` -/
  | allocate
  /-- `kvcalloc` -/
  | allocateSlots
  /-- `devm_add_action_or_reset` -/
  | addFreeSlots
  /-- `devm_ioremap_resource` -/
  | mapRegs
  | getIrq
  | readAddress
  | readPollInterval
  /-- `devm_gpiod_get_optional` -/
  | getReady
  | checkReady
  | getPinctrl
  | lookupActive
  | lookupIdle
  /-- `bsc_disable_locked` -/
  | disable
  | requestIrq
  | registerMisc
  | createStats
  deriving DecidableEq

def probeBody : List ProbeStatement :=
  [.allocate, .allocateSlots, .addFreeSlots, .mapRegs, .getIrq, .readAddress, .readPollInterval,
    .getReady, .checkReady, .getPinctrl, .lookupActive, .lookupIdle, .disable, .requestIrq,
    .registerMisc, .createStats]

namespace ProbeStatement

/-- The error that `bsc_probe` returns at the statement; `failure` is that of the kernel's call. -/
def errno (p : Platform) (failure : Option ℕ) : ProbeStatement → Option ℕ
  | .allocate | .allocateSlots => failure.map fun _ => 12
  | .readAddress => if p.address < 0x08 ∨ 0x77 < p.address then some 22 else none
  | .readPollInterval => if p.pollNs < 20000 ∨ 500000 < p.pollNs then some 22 else none
  | .checkReady => if p.readyGpio = some true then some 22 else none
  | .disable => none
  | _ => failure

/-- What goes onto the device's list. -/
def acquires (wired : Bool) : ProbeStatement → Option Resource
  | .allocate => some .bsc
  | .addFreeSlots => some .rxSlots
  | .mapRegs => some .regs
  | .getReady => if wired then some .readyGpio else none
  | .getPinctrl => some .pinctrl
  | .requestIrq => some .irq
  | _ => none

def uses (wired : Bool) : ProbeStatement → List Resource
  | .allocate => []
  | .checkReady => .bsc :: if wired then [.readyGpio] else []
  | .lookupActive | .lookupIdle => [.bsc, .pinctrl]
  | .disable => serviced wired
  | _ => [.bsc]

end ProbeStatement

inductive RemoveStatement
  /-- The `state_lock` section. -/
  | shutdown
  | wake
  | synchronize
  | removeStats
  | deregisterMisc
  deriving DecidableEq

def removeBody : List RemoveStatement :=
  [.shutdown, .wake, .synchronize, .removeStats, .deregisterMisc]

inductive BindPhase
  /-- So many statements of `bsc_probe` are done; behind the last one the device is bound. -/
  | probing (done : ℕ)
  | removing (rest : List RemoveStatement)
  /-- The list is released. -/
  | releasing
  | gone
  deriving DecidableEq

structure Binding where
  platform : Platform
  phase : BindPhase
  /-- What `bsc_probe` returned, if it failed. -/
  failed : Option ℕ
  /-- `rx_slots` is allocated, and not yet on the list. -/
  looseSlots : Bool
  /-- The list, newest entry first. -/
  devres : List Resource
  misc : Bool
  stats : Bool
  device : Option Device

namespace Binding

def start (p : Platform) : Binding := ⟨p, .probing 0, none, false, [], false, false, none⟩

/-- `addFreeSlots` frees the slots where it fails. -/
def loose (st : ProbeStatement) (before : Bool) : Bool :=
  match st with
  | .allocateSlots => true
  | .addFreeSlots => false
  | _ => before

/-- Statement `st`, number `n`. -/
def probe (b : Binding) (n : ℕ) (st : ProbeStatement) (failure : Option ℕ) : Binding :=
  match st.errno b.platform failure with
  | none => { b with
      phase := .probing (n + 1)
      looseSlots := loose st b.looseSlots
      devres := (st.acquires b.platform.wired).toList ++ b.devres
      misc := b.misc || st = .registerMisc
      stats := b.stats || st = .createStats
      device := if st = .disable then
          some (.probe b.platform.address b.platform.wired b.platform.hw b.platform.env)
        else b.device }
  | some e => { b with
      phase := if st = .createStats then .removing [.deregisterMisc] else .releasing
      failed := some e
      looseSlots := b.looseSlots && st ≠ .addFreeSlots }

def act (b : Binding) (a : Action) : Binding :=
  { b with device := b.device.map fun d => d.step a }

def remove (b : Binding) (st : RemoveStatement) (rest : List RemoveStatement) : Binding :=
  let b := { b with phase := if rest = [] then .releasing else .removing rest }
  match st with
  | .shutdown => b.act .remove
  | .wake | .synchronize => b
  | .removeStats => { b with stats := false }
  | .deregisterMisc => { b with misc := false }

def release (b : Binding) : Binding :=
  match b.devres with
  | [] => { b with phase := .gone }
  | _ :: rest => { b with devres := rest }

/-! ## What happens to it -/

/-- `look` is a poll, or an ioctl that only reports. -/
inductive Event
  | probe (failure : Option ℕ)
  | unbind
  | remove
  | release
  | irq (mis : UInt32)
  | timer
  | bus (e : HwEvent)
  | schedule (env : List (List HwEvent))
  | file (i : ℕ) (a : Action)
  | look (i : ℕ)
  | statsShow

/-- What a file does by itself. -/
def Event.ofFile (i : ℕ) : Action → Bool
  | .call (.read _) | .call (.write _) | .call .recover | .clearStats => true
  | .openSeek j _ | .openSection j _ | .openFailed j | .releaseSection j | .releaseDone j => i == j
  | _ => false

/-- A file between the claim of `opened` and the end of `release`. -/
def Open (b : Binding) (i : ℕ) : Prop := ∃ d, b.device = some d ∧ (d.files i).owns = true

/-- The list is being released, or has been. -/
def Unbound (b : Binding) : Prop := b.phase = .releasing ∨ b.phase = .gone

/-- `misc_deregister` waits for every `open` to return; `hrtimer_start` and `hrtimer_cancel` make the
timer run in a session only. -/
def Enabled (b : Binding) : Event → Prop
  | .probe _ => ∃ n, b.phase = .probing n ∧ n < probeBody.length
  | .unbind => b.phase = .probing probeBody.length
  | .remove => ∃ st rest, b.phase = .removing (st :: rest) ∧
      (st = .deregisterMisc → ∀ i d, b.device = some d →
        d.files i ≠ .claimed ∧ ∀ e, d.files i ≠ .failing e)
  | .release => b.phase = .releasing
  | .irq _ => .irq ∈ b.devres
  | .timer => ∃ d, b.device = some d ∧ d.sys.bsc.active = true
  | .file i a => (b.misc = true ∧ a = .openClaim i) ∨ (b.Open i ∧ Event.ofFile i a = true)
  | .look i => b.Open i
  | .statsShow => b.stats = true
  | .bus _ | .schedule _ => True

def next (b : Binding) : Event → Binding
  | .probe failure =>
    match b.phase with
    | .probing n =>
      match probeBody[n]? with
      | some st => b.probe n st failure
      | none => b
    | _ => b
  | .unbind => { b with phase := .removing removeBody }
  | .remove =>
    match b.phase with
    | .removing (st :: rest) => b.remove st rest
    | _ => b
  | .release => b.release
  | .irq mis => b.act (.call (.irq mis))
  | .timer => b.act (.call .timer)
  | .bus e => b.act (.call (.bus e))
  | .schedule env => b.act (.schedule env)
  | .file _ a => b.act a
  | .look _ | .statsShow => b

/-- What an action works with, on the device that there is. -/
def deviceUses (b : Binding) (a : Action) : List Resource :=
  match b.device with
  | some d => d.uses b.platform.wired a
  | none => []

def uses (b : Binding) : Event → List Resource
  | .probe _ =>
    match b.phase with
    | .probing n =>
      match probeBody[n]? with
      | some st => st.uses b.platform.wired
      | none => []
    | _ => []
  | .remove =>
    match b.phase with
    | .removing (.shutdown :: _) => .bsc :: b.deviceUses .remove
    | .removing (.synchronize :: _) => [.bsc, .irq]
    | .removing (.removeStats :: _) => []
    | .removing (_ :: _) => [.bsc]
    | _ => []
  | .release =>
    match b.devres with
    | .rxSlots :: _ => [.bsc, .rxSlots]
    | _ => []
  | .irq mis => b.deviceUses (.call (.irq mis))
  | .timer => b.deviceUses (.call .timer)
  | .file _ a => b.deviceUses a
  | .look _ | .statsShow => [.bsc]
  | .unbind | .bus _ | .schedule _ => []

inductive Reachable (p : Platform) : Binding → Prop
  | start : Reachable p (start p)
  | step {b : Binding} (h : Reachable p b) (e : Event) (he : b.Enabled e) : Reachable p (b.next e)

/-! ## The list -/

/-- The list behind some statements of `bsc_probe`. -/
def acquired (wired : Bool) (l : List ProbeStatement) : List Resource :=
  (l.filterMap (·.acquires wired)).reverse

/-- The list of a bound device. -/
def full (wired : Bool) : List Resource := acquired wired probeBody

theorem acquired_suffix (wired : Bool) (n : ℕ) : acquired wired (probeBody.take n) <:+ full wired :=
  List.reverse_suffix.mpr ((List.take_prefix n probeBody).filterMap _)

theorem acquired_next {wired : Bool} {n : ℕ} {st : ProbeStatement} (h : probeBody[n]? = some st) :
    (st.acquires wired).toList ++ acquired wired (probeBody.take n) =
      acquired wired (probeBody.take (n + 1)) := by
  rw [List.take_add_one, h, acquired, acquired, List.filterMap_append, List.reverse_append]
  congr 1
  rcases hst : st.acquires wired with _ | r <;> simp [hst]

/-- From `misc_register` on the list is whole. -/
theorem acquired_registered {wired : Bool} {n : ℕ} (h : .registerMisc ∈ probeBody.take n) :
    acquired wired (probeBody.take n) = full wired := by
  have hn : 15 ≤ n := by
    by_contra hlt
    have hsub := (List.take_sublist_take_left (l := probeBody) (show n ≤ 14 by omega)).subset h
    revert hsub
    decide
  by_cases h15 : n = 15
  · subst h15
    cases wired <;> rfl
  · rw [full, List.take_of_length_le]
    show 16 ≤ n
    omega

/-- Each statement finds what it works with. -/
theorem uses_acquired {wired : Bool} {n : ℕ} {st : ProbeStatement} (h : probeBody[n]? = some st) :
    ∀ r ∈ st.uses wired, r ∈ acquired wired (probeBody.take n) := by
  have hall : ∀ n < 16, ∀ st ∈ probeBody[n]?, ∀ r ∈ st.uses wired,
      r ∈ acquired wired (probeBody.take n) := by
    cases wired <;> decide
  exact hall n (List.getElem?_eq_some_iff.mp h).1 st h

/-! ## The invariant -/

end Binding

/-- A file that holds the device did so before, or has just claimed it. -/
theorem Device.owns_step {d : Device} {a : Action} {i : ℕ}
    (h : ((d.step a).files i).owns = true) : (d.files i).owns = true ∨ a = .openClaim i := by
  have henter : ∀ {j : ℕ} {phase : FilePhase}, ((d.enter j phase).files i).owns = true →
      (phase.owns = true → (d.files j).owns = true) → (d.files i).owns = true := by
    intro j phase howns hphase
    by_cases hi : i = j
    · subst hi
      rw [enter_files, Function.update_self] at howns
      exact hphase howns
    · rwa [enter_files, Function.update_of_ne hi] at howns
  cases a with
  | schedule env => exact .inl h
  | call c => exact .inl h
  | clearStats => exact .inl h
  | remove => exact .inl h
  | openClaim j =>
    by_cases hi : i = j
    · exact .inr (by rw [hi])
    · refine .inl ?_
      simp only [step] at h
      split_ifs at h
      · rwa [enter_files, Function.update_of_ne hi] at h
      · simp only [enter_files, Function.update_of_ne hi] at h
        exact h
      · exact h
  | openSeek j code =>
    simp only [step] at h
    split_ifs at h with hj
    · exact .inl (henter h fun _ => by rw [hj]; rfl)
    · exact .inl h
  | openSection j pins =>
    simp only [step] at h
    split_ifs at h with hj hd
    · exact .inl (henter h fun _ => by rw [hj]; rfl)
    · rcases pins with _ | code
      · exact .inl (henter h fun _ => by rw [hj]; rfl)
      · exact .inl (henter h fun _ => by rw [hj]; rfl)
    · exact .inl h
  | openFailed j =>
    simp only [step] at h
    split at h
    · exact .inl (henter h fun hf => by cases hf)
    · exact .inl h
  | releaseSection j =>
    by_cases hj : d.files j = .held
    · rw [step, if_pos hj] at h
      exact .inl (henter h fun _ => by rw [hj]; rfl)
    · rw [step, if_neg hj] at h
      exact .inl h
  | releaseDone j =>
    simp only [step] at h
    split_ifs at h
    · exact .inl (henter h fun hf => by cases hf)
    · exact .inl h

/-- What the checks of `bsc_probe` let through. -/
structure Platform.Valid (p : Platform) : Prop where
  address : 0x08 ≤ p.address ∧ p.address ≤ 0x77
  poll : 20000 ≤ p.pollNs ∧ p.pollNs ≤ 500000
  atomic : p.readyGpio ≠ some true

namespace Binding

/-- What has been checked after `n` statements. -/
structure Checked (p : Platform) (n : ℕ) : Prop where
  address : 5 < n → 0x08 ≤ p.address ∧ p.address ≤ 0x77
  poll : 6 < n → 20000 ≤ p.pollNs ∧ p.pollNs ≤ 500000
  atomic : 8 < n → p.readyGpio ≠ some true

/-- `bsc_remove` has marked the device. -/
def Dead (b : Binding) : Prop := ∀ d, b.device = some d → d.sys.bsc.dead = true

structure ProbingAt (b : Binding) (n : ℕ) : Prop where
  le : n ≤ 16
  list : b.devres = acquired b.platform.wired (probeBody.take n)
  loose : b.looseSlots = true → n = 2
  misc : b.misc = true → .registerMisc ∈ probeBody.take n
  stats : b.stats = true → .createStats ∈ probeBody.take n
  opened : ∀ i, b.Open i → .registerMisc ∈ probeBody.take n
  failed : b.failed = none
  checked : Checked b.platform n

structure RemovingAt (b : Binding) (rest : List RemoveStatement) : Prop where
  list : b.devres = full b.platform.wired
  loose : b.looseSlots = false
  misc : b.misc = true → .deregisterMisc ∈ rest
  stats : b.stats = true → .removeStats ∈ rest
  dead : b.failed = none → .shutdown ∉ rest → b.Dead
  valid : b.platform.Valid

structure Released (b : Binding) : Prop where
  list : b.devres <:+ full b.platform.wired
  loose : b.looseSlots = false
  misc : b.misc = false
  stats : b.stats = false
  dead : b.failed = none → b.Dead

/-- What holds at each phase. -/
def At (b : Binding) : BindPhase → Prop
  | .probing n => b.ProbingAt n
  | .removing rest => b.RemovingAt rest
  | .releasing => b.Released
  | .gone => b.Released ∧ b.devres = []

structure Inv (p : Platform) (b : Binding) : Prop where
  platform : b.platform = p
  sound : ∀ d, b.device = some d → d.Sound
  here : b.At b.phase

namespace Inv

variable {p : Platform} {b : Binding}

theorem start (p : Platform) : Inv p (start p) where
  platform := rfl
  sound := by
    rintro d ⟨⟩
  here := by
    refine ⟨Nat.zero_le _, rfl, ?_, ?_, ?_, ?_, rfl, ?_⟩
    · rintro ⟨⟩
    · rintro ⟨⟩
    · rintro ⟨⟩
    · rintro i ⟨d, ⟨⟩, -⟩
    · exact ⟨fun h => by omega, fun h => by omega, fun h => by omega⟩

/-- What happens to the device alone. -/
theorem act (h : Inv p b) {a : Action}
    (hclaim : ∀ i, a = .openClaim i → b.misc = true) : Inv p (b.act a) where
  platform := h.platform
  sound := by
    intro d hd
    obtain ⟨d', hd', rfl⟩ := Option.map_eq_some_iff.mp hd
    exact (h.sound d' hd').step a
  here := by
    have hopen : ∀ i, (b.act a).Open i → b.Open i ∨ b.misc = true := by
      rintro i ⟨d, hd, howns⟩
      obtain ⟨d', hd', rfl⟩ := Option.map_eq_some_iff.mp hd
      rcases Device.owns_step howns with howns | hi
      · exact .inl ⟨d', hd', howns⟩
      · exact .inr (hclaim i hi)
    have hdead : b.Dead → (b.act a).Dead := by
      intro hb d hd
      obtain ⟨d', hd', rfl⟩ := Option.map_eq_some_iff.mp hd
      exact Device.dead_step (hb d' hd') a
    have hhere := h.here
    show (b.act a).At b.phase
    cases hphase : b.phase with
    | probing n =>
      rw [hphase] at hhere
      exact { hhere with opened := fun i hi => (hopen i hi).elim (hhere.opened i) hhere.misc }
    | removing rest =>
      rw [hphase] at hhere
      exact { hhere with dead := fun hf hs => hdead (hhere.dead hf hs) }
    | releasing =>
      rw [hphase] at hhere
      exact { hhere with dead := fun hf => hdead (hhere.dead hf) }
    | gone =>
      rw [hphase] at hhere
      exact ⟨{ hhere.1 with dead := fun hf => hdead (hhere.1.dead hf) }, hhere.2⟩

section

variable {n : ℕ} {st : ProbeStatement} {failure : Option ℕ}

theorem take_next (hst : probeBody[n]? = some st) :
    probeBody.take (n + 1) = probeBody.take n ++ [st] := by
  rw [List.take_add_one, hst, Option.toList_some]

/-- Where a statement stands. -/
theorem statement_index (hst : probeBody[n]? = some st) : n < 16 ∧
    (st = .allocateSlots ↔ n = 1) ∧ (st = .addFreeSlots ↔ n = 2) ∧ (st = .readAddress ↔ n = 5) ∧
    (st = .readPollInterval ↔ n = 6) ∧ (st = .checkReady ↔ n = 8) ∧ (st = .createStats ↔ n = 15) := by
  have hall : ∀ n < 16, ∀ st ∈ probeBody[n]?,
      (st = .allocateSlots ↔ n = 1) ∧ (st = .addFreeSlots ↔ n = 2) ∧ (st = .readAddress ↔ n = 5) ∧
      (st = .readPollInterval ↔ n = 6) ∧ (st = .checkReady ↔ n = 8) ∧
      (st = .createStats ↔ n = 15) := by
    decide
  have hn : n < 16 := (List.getElem?_eq_some_iff.mp hst).1
  exact ⟨hn, hall n hn st hst⟩

theorem registered_index (h : .registerMisc ∈ probeBody.take n) : 15 ≤ n := by
  by_contra hlt
  have hsub := (List.take_sublist_take_left (l := probeBody) (show n ≤ 14 by omega)).subset h
  revert hsub
  decide

theorem created_index (h : .createStats ∈ probeBody.take n) : 16 ≤ n := by
  by_contra hlt
  have hsub := (List.take_sublist_take_left (l := probeBody) (show n ≤ 15 by omega)).subset h
  revert hsub
  decide

/-- A check that lets the statement pass. -/
theorem checked_next (h : Checked p n) (hst : probeBody[n]? = some st)
    (hok : st.errno p failure = none) : Checked p (n + 1) := by
  obtain ⟨-, -, -, haddress, hpoll, hready, -⟩ := statement_index hst
  refine ⟨fun hn => ?_, fun hn => ?_, fun hn => ?_⟩
  · rcases Nat.lt_succ_iff_lt_or_eq.mp hn with hlt | rfl
    · exact h.address hlt
    · obtain rfl := haddress.mpr rfl
      simpa [ProbeStatement.errno] using hok
  · rcases Nat.lt_succ_iff_lt_or_eq.mp hn with hlt | rfl
    · exact h.poll hlt
    · obtain rfl := hpoll.mpr rfl
      simpa [ProbeStatement.errno] using hok
  · rcases Nat.lt_succ_iff_lt_or_eq.mp hn with hlt | rfl
    · exact h.atomic hlt
    · obtain rfl := hready.mpr rfl
      simpa [ProbeStatement.errno] using hok

theorem Checked.valid (h : Checked p n) (hn : 8 < n) : p.Valid :=
  ⟨h.address (by omega), h.poll (by omega), h.atomic hn⟩

/-- The statement succeeds. -/
theorem probe_passes (h : Inv p b) (hphase : b.phase = .probing n) (hst : probeBody[n]? = some st)
    (hok : st.errno b.platform failure = none) : Inv p (b.probe n st failure) := by
  have hat : b.ProbingAt n := by
    have hhere := h.here
    rwa [hphase] at hhere
  obtain ⟨hn, hslots, hadd, -, -, -, -⟩ := statement_index hst
  have hb : b.probe n st failure = { b with
      phase := .probing (n + 1)
      looseSlots := loose st b.looseSlots
      devres := (st.acquires b.platform.wired).toList ++ b.devres
      misc := b.misc || st = .registerMisc
      stats := b.stats || st = .createStats
      device := if st = .disable then
          some (.probe b.platform.address b.platform.wired b.platform.hw b.platform.env)
        else b.device } := by
    simp only [Binding.probe, hok]
  rw [hb]
  refine ⟨h.platform, ?_, ?_⟩
  · intro d hd
    simp only at hd
    split_ifs at hd
    · cases hd
      exact Device.Sound.probe _ _ _ _
    · exact h.sound d hd
  · refine ⟨hn, ?_, ?_, ?_, ?_, ?_, hat.failed, checked_next hat.checked hst hok⟩
    · show _ ++ b.devres = _
      rw [hat.list]
      exact acquired_next hst
    · intro hl
      by_cases hloose : b.looseSlots = true
      · -- the statement behind the allocation takes them
        obtain rfl := hadd.mpr (hat.loose hloose)
        cases hl
      · have h1 : st = .allocateSlots := by
          by_contra hne
          refine hloose ?_
          unfold loose at hl
          split at hl
          · exact absurd rfl hne
          · cases hl
          · exact hl
        rw [hslots.mp h1]
    · intro hm
      rw [take_next hst]
      rcases Bool.or_eq_true_iff.mp hm with hm | hm
      · exact List.mem_append_left _ (hat.misc hm)
      · exact List.mem_append_right _ (by simpa using (of_decide_eq_true hm).symm)
    · intro hs
      rw [take_next hst]
      rcases Bool.or_eq_true_iff.mp hs with hs | hs
      · exact List.mem_append_left _ (hat.stats hs)
      · exact List.mem_append_right _ (by simpa using (of_decide_eq_true hs).symm)
    · rintro i ⟨d, hd, howns⟩
      rw [take_next hst]
      simp only at hd
      split_ifs at hd
      · cases hd
        cases howns
      · exact List.mem_append_left _ (hat.opened i ⟨d, hd, howns⟩)

/-- The statement fails, and `bsc_probe` with it. -/
theorem probe_fails (h : Inv p b) (hphase : b.phase = .probing n) (hst : probeBody[n]? = some st)
    {e : ℕ} (he : st.errno b.platform failure = some e) : Inv p (b.probe n st failure) := by
  have hat : b.ProbingAt n := by
    have hhere := h.here
    rwa [hphase] at hhere
  obtain ⟨hn, -, hadd, -, -, -, hcreate⟩ := statement_index hst
  have hb : b.probe n st failure = { b with
      phase := if st = .createStats then .removing [.deregisterMisc] else .releasing
      failed := some e
      looseSlots := b.looseSlots && st ≠ .addFreeSlots } := by
    simp only [Binding.probe, he]
  have hloose : (b.looseSlots && decide (st ≠ .addFreeSlots)) = false := by
    by_contra hne
    obtain ⟨hl, hs⟩ := Bool.and_eq_true_iff.mp (eq_true_of_ne_false hne)
    exact of_decide_eq_true hs (hadd.mpr (hat.loose hl))
  have hstats : b.stats = false := by
    by_contra hne
    have := created_index (hat.stats (eq_true_of_ne_false hne))
    omega
  rw [hb]
  refine ⟨h.platform, h.sound, ?_⟩
  by_cases hlast : st = .createStats
  · simp only [if_pos hlast]
    have h15 := hcreate.mp hlast
    refine ⟨?_, hloose, fun _ => List.mem_singleton.mpr rfl, ?_, ?_, ?_⟩
    · show b.devres = _
      rw [hat.list, h15]
      exact acquired_registered (by decide)
    · intro hs
      exact absurd hstats (ne_false_of_eq_true hs)
    · rintro ⟨⟩
    · exact Checked.valid hat.checked (by omega)
  · simp only [if_neg hlast]
    refine ⟨?_, hloose, ?_, hstats, ?_⟩
    · show b.devres <:+ _
      rw [hat.list]
      exact acquired_suffix _ _
    · by_contra hne
      have := registered_index (hat.misc (eq_true_of_ne_false hne))
      exact hlast (hcreate.mpr (by omega))
    · rintro ⟨⟩

end

/-! ### Removal -/

theorem unbind (h : Inv p b) (hphase : b.phase = .probing probeBody.length) :
    Inv p { b with phase := .removing removeBody } := by
  have hat : b.ProbingAt 16 := by
    have hhere := h.here
    rwa [hphase] at hhere
  refine ⟨h.platform, h.sound, hat.list, ?_, ?_, ?_, ?_, Checked.valid hat.checked (by omega)⟩
  · by_contra hl
    have := hat.loose (eq_true_of_ne_false hl)
    omega
  · exact fun _ => by decide
  · exact fun _ => by decide
  · exact fun _ hs => absurd (by decide) hs

/-- One statement of `bsc_remove`. -/
theorem removing_next {rm : RemoveStatement} {rest : List RemoveStatement}
    (h : b.RemovingAt (rm :: rest)) : (b.remove rm rest).RemovingAt rest := by
  have hmisc : rm ≠ .deregisterMisc → b.misc = true → .deregisterMisc ∈ rest := fun hne hm =>
    (List.mem_cons.mp (h.misc hm)).resolve_left hne.symm
  have hstats : rm ≠ .removeStats → b.stats = true → .removeStats ∈ rest := fun hne hs =>
    (List.mem_cons.mp (h.stats hs)).resolve_left hne.symm
  have hdead : rm ≠ .shutdown → b.failed = none → .shutdown ∉ rest → b.Dead := by
    intro hne hf hs
    refine h.dead hf fun hmem => ?_
    exact hs ((List.mem_cons.mp hmem).resolve_left hne.symm)
  cases rm with
  | shutdown =>
    refine ⟨h.list, h.loose, hmisc (by simp), hstats (by simp), ?_, h.valid⟩
    intro _ _ d hd
    obtain ⟨d', -, rfl⟩ := Option.map_eq_some_iff.mp hd
    exact Device.dead_bscRemove d'.sys
  | wake =>
    exact ⟨h.list, h.loose, hmisc (by simp), hstats (by simp), hdead (by simp), h.valid⟩
  | synchronize =>
    exact ⟨h.list, h.loose, hmisc (by simp), hstats (by simp), hdead (by simp), h.valid⟩
  | removeStats =>
    refine ⟨h.list, h.loose, hmisc (by simp), ?_, hdead (by simp), h.valid⟩
    rintro ⟨⟩
  | deregisterMisc =>
    refine ⟨h.list, h.loose, ?_, hstats (by simp), hdead (by simp), h.valid⟩
    rintro ⟨⟩

/-- Behind the last statement. -/
theorem removing_done (h : b.RemovingAt []) : b.Released where
  list := by rw [h.list]
  loose := h.loose
  misc := by
    by_contra hm
    exact absurd (h.misc (eq_true_of_ne_false hm)) List.not_mem_nil
  stats := by
    by_contra hs
    exact absurd (h.stats (eq_true_of_ne_false hs)) List.not_mem_nil
  dead := fun hf => h.dead hf List.not_mem_nil

theorem remove (h : Inv p b) {rm : RemoveStatement} {rest : List RemoveStatement}
    (hphase : b.phase = .removing (rm :: rest)) : Inv p (b.remove rm rest) := by
  have hat : b.RemovingAt (rm :: rest) := by
    have hhere := h.here
    rwa [hphase] at hhere
  have hnext := removing_next hat
  have hfacts : (b.remove rm rest).platform = b.platform ∧
      (b.remove rm rest).phase = (if rest = [] then .releasing else .removing rest) ∧
      ∀ d, (b.remove rm rest).device = some d → d.Sound := by
    cases rm with
    | shutdown =>
      refine ⟨rfl, rfl, ?_⟩
      intro d hd
      obtain ⟨d', hd', rfl⟩ := Option.map_eq_some_iff.mp hd
      exact (h.sound d' hd').step .remove
    | _ => exact ⟨rfl, rfl, h.sound⟩
  refine ⟨hfacts.1.trans h.platform, hfacts.2.2, ?_⟩
  rw [hfacts.2.1]
  by_cases hrest : rest = []
  · subst hrest
    exact removing_done hnext
  · rw [if_neg hrest]
    exact hnext

theorem release (h : Inv p b) (hphase : b.phase = .releasing) : Inv p b.release := by
  have hat : b.Released := by
    have hhere := h.here
    rwa [hphase] at hhere
  unfold Binding.release
  split
  · next hnil => exact ⟨h.platform, h.sound, { hat with }, hnil⟩
  · next r rest hlist =>
    refine ⟨h.platform, h.sound, ?_⟩
    show Binding.At _ b.phase
    rw [hphase]
    have hsuffix : rest <:+ full b.platform.wired :=
      (List.suffix_cons r rest).trans (hlist ▸ hat.list)
    exact { hat with list := hsuffix }

theorem next (h : Inv p b) {e : Event} (he : b.Enabled e) : Inv p (b.next e) := by
  cases e with
  | probe failure =>
    obtain ⟨n, hphase, hn⟩ := he
    have hst : probeBody[n]? = some probeBody[n] := List.getElem?_eq_getElem hn
    simp only [Binding.next, hphase, hst]
    rcases herrno : probeBody[n].errno b.platform failure with _ | e
    · exact h.probe_passes hphase hst herrno
    · exact h.probe_fails hphase hst herrno
  | unbind => exact h.unbind he
  | remove =>
    obtain ⟨rm, rest, hphase, -⟩ := he
    simp only [Binding.next, hphase]
    exact h.remove hphase
  | release => exact h.release he
  | irq mis => exact h.act (by rintro i ⟨⟩)
  | timer => exact h.act (by rintro i ⟨⟩)
  | bus e => exact h.act (by rintro i ⟨⟩)
  | schedule env => exact h.act (by rintro i ⟨⟩)
  | file i a =>
    refine h.act fun j hj => ?_
    subst hj
    rcases he with ⟨hm, -⟩ | ⟨-, hf⟩
    · exact hm
    · cases hf
  | look i => exact h
  | statsShow => exact h

end Inv

theorem Reachable.inv {p : Platform} {b : Binding} (h : Reachable p b) : Inv p b := by
  induction h with
  | start => exact .start p
  | step h e he ih => exact ih.next he

/-! ## What is used is there -/

section

variable {p : Platform} {b : Binding}

/-- Before the release, the list is whole as long as there is anything to use. -/
theorem Inv.whole (h : Inv p b) (hbound : ¬ b.Unbound)
    (hused : b.misc = true ∨ b.stats = true ∨ ∃ i, b.Open i) : b.devres = full b.platform.wired := by
  have hhere := h.here
  cases hphase : b.phase with
  | probing n =>
    rw [hphase] at hhere
    have hregistered : .registerMisc ∈ probeBody.take n := by
      rcases hused with hm | hs | ⟨i, hi⟩
      · exact hhere.misc hm
      · have hn := created_index (hhere.stats hs)
        rw [List.take_of_length_le hn]
        decide
      · exact hhere.opened i hi
    rw [hhere.list]
    exact acquired_registered hregistered
  | removing rest =>
    rw [hphase] at hhere
    exact hhere.list
  | releasing => exact absurd (.inl hphase) hbound
  | gone => exact absurd (.inr hphase) hbound

theorem serviced_full {wired : Bool} : ∀ r ∈ .pinctrl :: serviced wired, r ∈ full wired := by
  cases wired <;> decide

/-- Whatever an action works with is on the list of a bound device. -/
theorem deviceUses_full (b : Binding) (a : Action) :
    ∀ r ∈ b.deviceUses a, r ∈ full b.platform.wired := by
  have hbsc : ∀ r ∈ [Resource.bsc], r ∈ full b.platform.wired := by
    cases b.platform.wired <;> decide
  have hserviced : ∀ r ∈ serviced b.platform.wired, r ∈ full b.platform.wired :=
    fun r hr => serviced_full r (List.mem_cons_of_mem _ hr)
  unfold deviceUses
  rcases b.device with _ | d
  · exact fun r hr => absurd hr List.not_mem_nil
  · cases a with
    | schedule env => exact fun r hr => absurd hr List.not_mem_nil
    | call c =>
      cases c with
      | bus e => exact fun r hr => absurd hr List.not_mem_nil
      | irq mis =>
        simp only [Device.uses]
        split_ifs
        · exact hserviced
        · cases b.platform.wired <;> decide
      | read r =>
        simp only [Device.uses]
        split_ifs
        · exact hbsc
        · cases b.platform.wired <;> decide
      | _ =>
        simp only [Device.uses]
        split_ifs
        · exact hbsc
        · exact hserviced
    | openSection i pins =>
      simp only [Device.uses]
      split_ifs
      · exact hbsc
      · exact serviced_full
    | releaseSection i =>
      simp only [Device.uses]
      split_ifs
      · exact hbsc
      · exact serviced_full
    | remove =>
      simp only [Device.uses]
      split_ifs
      · exact serviced_full
      · exact hbsc
    | _ => exact hbsc

/-- The interrupt is the newest entry: while it is on the list, the list is whole. -/
theorem full_of_irq (h : Inv p b) (hirq : .irq ∈ b.devres) : b.devres = full b.platform.wired := by
  have hsuffix : b.devres <:+ full b.platform.wired := by
    have hhere := h.here
    cases hphase : b.phase with
    | probing n =>
      rw [hphase] at hhere
      rw [hhere.list]
      exact acquired_suffix _ _
    | removing rest =>
      rw [hphase] at hhere
      rw [hhere.list]
    | releasing =>
      rw [hphase] at hhere
      exact hhere.list
    | gone =>
      rw [hphase] at hhere
      exact hhere.1.list
  obtain ⟨rest, hfull, hrest⟩ : ∃ rest, full b.platform.wired = .irq :: rest ∧ .irq ∉ rest := by
    cases b.platform.wired
    · exact ⟨_, rfl, by decide⟩
    · exact ⟨_, rfl, by decide⟩
  rw [hfull] at hsuffix ⊢
  rcases List.suffix_cons_iff.mp hsuffix with heq | hlater
  · exact heq
  · exact absurd (hlater.subset hirq) hrest

/-- The slots are released while the driver's own memory is still there. -/
theorem release_uses (h : b.Released) : ∀ r ∈ b.uses .release, r ∈ b.devres := by
  rcases hlist : b.devres with _ | ⟨newest, rest⟩
  · simp [uses, hlist]
  · by_cases hslots : newest = .rxSlots
    · subst hslots
      have hsuffix : .rxSlots :: rest <:+ full b.platform.wired := hlist ▸ h.list
      have hthroughout : Throughout (fun r older => r = .rxSlots → .bsc ∈ older)
          (full b.platform.wired) := by
        cases b.platform.wired <;>
          simp [full, acquired, probeBody, ProbeStatement.acquires, Throughout.cons_iff,
            Throughout.nil]
      have hbelow : .bsc ∈ rest := hthroughout _ _ hsuffix rfl
      simp [uses, hlist, hbelow]
    · simp [uses, hlist, hslots]

/-- What is used is on the list, unless a file is open when the list is released. -/
theorem uses_live (h : Inv p b) {e : Event} (he : b.Enabled e) :
    (∀ r ∈ b.uses e, r ∈ b.devres) ∨
      (b.Unbound ∧ (∃ i, b.Open i) ∧ ((∃ i a, e = .file i a) ∨ (∃ i, e = .look i) ∨ e = .timer)) := by
  have hbsc : ∀ r ∈ [Resource.bsc], r ∈ full b.platform.wired := by
    cases b.platform.wired <;> decide
  cases e with
  | probe failure =>
    obtain ⟨n, hphase, hn⟩ := he
    have hat : b.ProbingAt n := by
      have hhere := h.here
      rwa [hphase] at hhere
    have hst : probeBody[n]? = some probeBody[n] := List.getElem?_eq_getElem hn
    refine .inl ?_
    simp only [uses, hphase, hst]
    rw [hat.list]
    exact uses_acquired hst
  | unbind => exact .inl fun r hr => absurd hr List.not_mem_nil
  | remove =>
    obtain ⟨rm, rest, hphase, -⟩ := he
    have hat : b.RemovingAt (rm :: rest) := by
      have hhere := h.here
      rwa [hphase] at hhere
    refine .inl ?_
    simp only [uses, hphase]
    rw [hat.list]
    cases rm with
    | shutdown =>
      intro r hr
      rcases List.mem_cons.mp hr with rfl | hr
      · exact hbsc _ List.mem_cons_self
      · exact deviceUses_full b .remove r hr
    | synchronize =>
      have hirq : ∀ r ∈ [Resource.bsc, .irq], r ∈ full b.platform.wired := by
        cases b.platform.wired <;> decide
      exact hirq
    | removeStats => exact fun r hr => absurd hr List.not_mem_nil
    | wake => exact hbsc
    | deregisterMisc => exact hbsc
  | release =>
    have hat : b.Released := by
      have hhere := h.here
      rwa [show b.phase = .releasing from he] at hhere
    exact .inl (release_uses hat)
  | irq mis =>
    refine .inl ?_
    rw [full_of_irq h he]
    exact deviceUses_full b _
  | bus e =>
    exact .inl fun r hr => absurd hr List.not_mem_nil
  | schedule env => exact .inl fun r hr => absurd hr List.not_mem_nil
  | statsShow =>
    by_cases hbound : b.Unbound
    · have hstats : b.stats = false := by
        have hhere := h.here
        rcases hbound with hphase | hphase <;> rw [hphase] at hhere
        · exact hhere.stats
        · exact hhere.1.stats
      exact absurd he (ne_true_of_eq_false hstats)
    · refine .inl ?_
      rw [h.whole hbound (.inr (.inl he))]
      exact hbsc
  | timer =>
    obtain ⟨d, hd, hactive⟩ := he
    obtain ⟨i, -, hheld⟩ := (h.sound d hd).owner hactive
    have hopen : b.Open i := ⟨d, hd, by rw [hheld]; rfl⟩
    by_cases hbound : b.Unbound
    · exact .inr ⟨hbound, ⟨i, hopen⟩, .inr (.inr rfl)⟩
    · refine .inl ?_
      rw [h.whole hbound (.inr (.inr ⟨i, hopen⟩))]
      exact deviceUses_full b _
  | file i a =>
    by_cases hbound : b.Unbound
    · rcases he with ⟨hmisc, -⟩ | ⟨hopen, -⟩
      · have hnone : b.misc = false := by
          have hhere := h.here
          rcases hbound with hphase | hphase <;> rw [hphase] at hhere
          · exact hhere.misc
          · exact hhere.1.misc
        exact absurd hmisc (ne_true_of_eq_false hnone)
      · exact .inr ⟨hbound, ⟨i, hopen⟩, .inl ⟨i, a, rfl⟩⟩
    · refine .inl ?_
      rw [h.whole hbound (he.imp And.left fun hf => .inr ⟨i, hf.1⟩)]
      exact deviceUses_full b a
  | look i =>
    by_cases hbound : b.Unbound
    · exact .inr ⟨hbound, ⟨i, he⟩, .inr (.inl ⟨i, rfl⟩)⟩
    · refine .inl ?_
      rw [h.whole hbound (.inr (.inr ⟨i, he⟩))]
      exact hbsc

end

/-! ## A file that outlives the device -/

section

variable {p : Platform}

/-- `n` statements of `bsc_probe` have succeeded. -/
def after (p : Platform) (n : ℕ) : Binding where
  platform := p
  phase := .probing n
  failed := none
  looseSlots := n = 2
  devres := acquired p.wired (probeBody.take n)
  misc := (probeBody.take n).contains .registerMisc
  stats := (probeBody.take n).contains .createStats
  device :=
    if (probeBody.take n).contains .disable then some (.probe p.address p.wired p.hw p.env) else none

theorem errno_none (h : p.Valid) (st : ProbeStatement) : st.errno p none = none := by
  obtain ⟨⟨hlow, hhigh⟩, ⟨hmin, hmax⟩, hatomic⟩ := h
  cases st with
  | readAddress => simp [ProbeStatement.errno, hlow, hhigh]
  | readPollInterval => simp [ProbeStatement.errno, hmin, hmax]
  | checkReady => simp [ProbeStatement.errno, hatomic]
  | _ => rfl

theorem next_after (h : p.Valid) {n : ℕ} (hn : n < 16) :
    (after p n).next (.probe none) = after p (n + 1) := by
  have hst : probeBody[n]? = some probeBody[n] := List.getElem?_eq_getElem hn
  have hpass : (after p n).next (.probe none) = (after p n).probe n probeBody[n] none := by
    simp only [next, after, hst]
  have hnone : (probeBody[n]).errno (after p n).platform none = none := errno_none h _
  have hfinite : ∀ n < 16, ∀ st ∈ probeBody[n]?,
      loose st (decide (n = 2)) = decide (n + 1 = 2) ∧
      ((probeBody.take n).contains .registerMisc || decide (st = .registerMisc)) =
        (probeBody.take (n + 1)).contains .registerMisc ∧
      ((probeBody.take n).contains .createStats || decide (st = .createStats)) =
        (probeBody.take (n + 1)).contains .createStats ∧
      ((probeBody.take n).contains .disable || decide (st = .disable)) =
        (probeBody.take (n + 1)).contains .disable := by
    decide
  obtain ⟨hloose, hmisc, hstats, hdisable⟩ := hfinite n hn _ hst
  have hdevice : (if probeBody[n] = .disable then
      some (.probe p.address p.wired p.hw p.env) else (after p n).device) =
        (after p (n + 1)).device := by
    simp only [after, ← hdisable]
    by_cases hnow : probeBody[n] = .disable <;> simp [hnow]
  rw [hpass, probe, hnone]
  show Binding.mk _ _ _ (loose probeBody[n] (decide (n = 2))) _ _ _ _ = _
  simp only [after, hloose, hmisc, hstats, acquired_next hst]
  exact congrArg _ hdevice

theorem reachable_after (h : p.Valid) : ∀ n ≤ 16, Reachable p (after p n) := by
  intro n
  induction n with
  | zero => exact fun _ => .start
  | succ n ih =>
    intro hn
    rw [← next_after h hn]
    exact (ih (by omega)).step (.probe none) ⟨n, rfl, hn⟩

/-- The list is released to its end. -/
theorem reachable_gone : ∀ (l : List Resource) {b : Binding}, Reachable p b →
    b.phase = .releasing → b.devres = l →
      ∃ b', Reachable p b' ∧ b'.phase = .gone ∧ b'.device = b.device := by
  intro l
  induction l with
  | nil =>
    intro b h hphase hlist
    refine ⟨b.next .release, h.step .release hphase, ?_, ?_⟩
    · simp only [next, release, hlist]
    · simp only [next, release, hlist]
  | cons r rest ih =>
    intro b h hphase hlist
    have hnext : b.next .release = { b with devres := rest } := by
      simp only [next, release, hlist]
    have hstep := h.step .release hphase
    rw [hnext] at hstep
    obtain ⟨b', hb', hgone, hdevice⟩ := ih hstep hphase rfl
    exact ⟨b', hb', hgone, hdevice⟩

/-- `bsc_remove` runs to its end while file 0 stays open. -/
theorem reachable_removed {b : Binding} (h : Reachable p b) {d : Device}
    (hphase : b.phase = .probing probeBody.length) (hd : b.device = some d)
    (hheld : ∀ i, d.files i = if i = 0 then .held else .unopened) :
    ∃ b', Reachable p b' ∧ b'.phase = .releasing ∧ b'.device = some (d.step .remove) := by
  have hstill : ∀ i, (d.step .remove).files i ≠ .claimed ∧
      ∀ e, (d.step .remove).files i ≠ .failing e := by
    intro i
    show d.files i ≠ _ ∧ ∀ e, d.files i ≠ _
    rw [hheld]
    split_ifs <;> simp
  have h1 := h.step .unbind hphase
  have h2 := h1.step .remove ⟨_, _, rfl, by rintro ⟨⟩⟩
  have h3 := h2.step .remove ⟨_, _, rfl, by rintro ⟨⟩⟩
  have h4 := h3.step .remove ⟨_, _, rfl, by rintro ⟨⟩⟩
  have h5 := h4.step .remove ⟨_, _, rfl, by rintro ⟨⟩⟩
  have hdevice : ({ b with phase := .removing removeBody } : Binding).device.map
      (fun d => d.step .remove) = some (d.step .remove) := by
    rw [show ({ b with phase := .removing removeBody } : Binding).device = b.device from rfl, hd]
    rfl
  have h6 := h5.step .remove ⟨_, _, rfl, fun _ i d' hd' => by
    cases hdevice.symm.trans hd'
    exact hstill i⟩
  exact ⟨_, h6, rfl, hdevice⟩

/-- A file may stay open for good. -/
theorem outlives (h : p.Valid) : ∃ b, Reachable p b ∧ b.phase = .gone ∧ b.Open 0 := by
  have hbound := reachable_after h 16 le_rfl
  have hdevice : (after p 16).device = some (.probe p.address p.wired p.hw p.env) := by
    simp only [after]
    exact if_pos (by decide)
  have hmisc : (after p 16).misc = true := by
    simp only [after]
    decide
  have hact : ∀ {b : Binding} {d : Device} {a : Action}, b.device = some d →
      (b.act a).device = some (d.step a) := by
    intro b d a hd
    rw [act, hd]
    rfl
  have halive : (Device.probe p.address p.wired p.hw p.env).sys.bsc.dead = false := by
    show (bscDisableLocked _).bsc.dead = false
    rw [bscDisableLocked_bsc]
    rfl
  -- file 0 is opened, and stays open
  have hclaim := hbound.step (.file 0 (.openClaim 0)) (.inl ⟨hmisc, rfl⟩)
  obtain ⟨d₁, hd₁, hfiles, hdead⟩ : ∃ d₁, ((after p 16).act (.openClaim 0)).device = some d₁ ∧
      (∀ i, d₁.files i = if i = 0 then .claimed else .unopened) ∧ d₁.sys.bsc.dead = false := by
    have hclaimed := hact (a := .openClaim 0) hdevice
    rw [Device.step_openClaim rfl rfl] at hclaimed
    refine ⟨_, hclaimed, fun i => ?_, halive⟩
    exact Function.update_apply _ _ _ _
  have hsection := hclaim.step (.file 0 (.openSection 0 none))
    (.inr ⟨⟨d₁, hd₁, by rw [hfiles]; rfl⟩, rfl⟩)
  have hheld := hact (a := .openSection 0 none) hd₁
  rw [Device.step_openSection (hfiles 0) hdead] at hheld
  obtain ⟨b, hb, hreleasing, hremoved⟩ := reachable_removed hsection rfl hheld (by
    intro i
    show Function.update d₁.files 0 .held i = _
    rw [Function.update_apply, hfiles]
    split_ifs <;> rfl)
  obtain ⟨b', hb', hgone, hsame⟩ := reachable_gone _ hb hreleasing rfl
  refine ⟨b', hb', hgone, _, hsame.trans hremoved, ?_⟩
  show (Device.files _ 0).owns = true
  simp [Device.step, FilePhase.owns]

end

/-- After `bsc_remove` no timer runs any more. -/
theorem timer_stopped {p : Platform} {b : Binding} (h : Inv p b) (hbound : b.Unbound)
    (hf : b.failed = none) : ¬ b.Enabled .timer := by
  rintro ⟨d, hd, hactive⟩
  have hdead : b.Dead := by
    have hhere := h.here
    rcases hbound with hphase | hphase <;> rw [hphase] at hhere
    · exact hhere.dead hf
    · exact hhere.1.dead hf
  exact absurd ((h.sound d hd).gone (hdead d hd)) (ne_false_of_eq_true hactive)

/-- The node is there on a platform only that passes the checks. -/
theorem misc_valid {p : Platform} {b : Binding} (h : Inv p b) (hmisc : b.misc = true) : p.Valid := by
  have hhere := h.here
  rw [← h.platform]
  cases hphase : b.phase with
  | probing n =>
    rw [hphase] at hhere
    have hn := Inv.registered_index (hhere.misc hmisc)
    exact Inv.Checked.valid hhere.checked (by omega)
  | removing rest =>
    rw [hphase] at hhere
    exact hhere.valid
  | releasing =>
    rw [hphase] at hhere
    exact absurd hmisc (ne_true_of_eq_false hhere.misc)
  | gone =>
    rw [hphase] at hhere
    exact absurd hmisc (ne_true_of_eq_false hhere.1.misc)

theorem lifetime (p : Platform) :
    (∀ b, Reachable p b →
      (∀ e, b.Enabled e → (∀ r ∈ b.uses e, r ∈ b.devres) ∨ (b.Unbound ∧ (∃ i, b.Open i) ∧
        ((∃ i a, e = .file i a) ∨ (∃ i, e = .look i) ∨ e = .timer ∧ b.failed ≠ none))) ∧
      (b.misc = true → p.Valid) ∧
      (b.phase = .gone →
        b.devres = [] ∧ b.looseSlots = false ∧ b.misc = false ∧ b.stats = false)) ∧
    (p.Valid → ∃ b, Reachable p b ∧ b.phase = .gone ∧
      ∃ i, b.Enabled (.look i) ∧ ∃ r ∈ b.uses (.look i), r ∉ b.devres) := by
  refine ⟨fun b hb => ⟨fun e he => ?_, misc_valid hb.inv, fun hgone => ?_⟩, fun hvalid => ?_⟩
  · rcases uses_live hb.inv he with hlive | ⟨hbound, hopen, hfile | hlook | rfl⟩
    · exact .inl hlive
    · exact .inr ⟨hbound, hopen, .inl hfile⟩
    · exact .inr ⟨hbound, hopen, .inr (.inl hlook)⟩
    · exact .inr ⟨hbound, hopen, .inr (.inr ⟨rfl, fun hf => timer_stopped hb.inv hbound hf he⟩)⟩
  · have hhere := hb.inv.here
    rw [hgone] at hhere
    exact ⟨hhere.2, hhere.1.loose, hhere.1.misc, hhere.1.stats⟩
  · obtain ⟨b, hb, hgone, hopen⟩ := outlives hvalid
    have hhere := hb.inv.here
    rw [hgone] at hhere
    refine ⟨b, hb, hgone, 0, hopen, .bsc, List.mem_singleton.mpr rfl, ?_⟩
    rw [hhere.2]
    exact List.not_mem_nil

end Binding

end BscTarget
