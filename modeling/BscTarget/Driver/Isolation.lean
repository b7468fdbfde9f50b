import BscTarget.Driver.Alike
import BscTarget.Driver.Provenance
import BscTarget.Driver.Calm

/-!
# Session isolation

A session opened on a bus at rest starts in a state that is alike for every device with the same
configuration, whatever was done with it before, and so it returns and transmits what the first
session of a freshly probed device would.
-/

namespace BscTarget

/-! ## Opening on a bus at rest -/

/-- Nothing is being received, and the bus is not going to move. -/
structure AtRest (log : List Event) (s : Sys) : Prop where
  env : s.env = []
  rxFifo : s.hw.rxFifo = []
  rxBusy : s.hw.rxBusy = false
  log : s.log = log

namespace AtRest

variable {log : List Event} {s : Sys}

theorem write (h : AtRest log s) (reg : Reg) (value : UInt32) :
    AtRest log (bscWrite reg value s) := by
  have hsame := sameReceive_reg s value reg
  rw [bscWrite_calm h.env]
  exact ⟨h.env, hsame.rxFifo.trans h.rxFifo, hsame.rxBusy.trans h.rxBusy, h.log⟩

theorem purgeLoop (h : AtRest log s) (count : ℕ) : AtRest log (purgeLoop count s) := by
  induction count generalizing s with
  | zero => exact h
  | succ count ih => exact ih ((h.write .CR _).write .CR 0)

theorem purge (h : AtRest log s) : AtRest log (bscPurgeTxFifoLocked s) := by
  unfold bscPurgeTxFifoLocked
  dsimp only
  rw [tick_calm h.env]
  exact (h.write .CR 0).purgeLoop _

theorem rsr_write (h : AtRest log s) {reg : Reg} (value : UInt32) (hr : reg ≠ .RSR) :
    (bscWrite reg value s).hw.rsr = s.hw.rsr := by
  rw [bscWrite_calm h.env]
  cases reg with
  | RSR => exact absurd rfl hr
  | CR =>
    simp only [Hw.write, Hw.writeCr]
    split_ifs <;> rfl
  | _ => rfl

/-- Configuration leaves RSR clear. -/
theorem configure (h : AtRest log s) :
    AtRest log (bscConfigureLocked s) ∧ (bscConfigureLocked s).hw.rsr = 0 := by
  have hpurged := (h.write .IMSC 0).purge
  have h₀ := hpurged.write .RSR 0
  have hrsr : (bscWrite .RSR 0 (bscPurgeTxFifoLocked (bscWrite .IMSC 0 s))).hw.rsr = 0 := by
    rw [bscWrite_calm hpurged.env]
    rfl
  have h₁ := h₀.write .SLV
    (bscWrite .RSR 0 (bscPurgeTxFifoLocked (bscWrite .IMSC 0 s))).bsc.address
  have h₂ := h₁.write .IFLS iflsDefault
  have h₃ := h₂.write .ICR irqAll
  have h₄ := h₃.write .CR crI2cTarget
  refine ⟨h₄.write .IMSC _, ?_⟩
  refine (h₄.rsr_write _ (by simp)).trans ?_
  rw [h₃.rsr_write _ (by simp), h₂.rsr_write _ (by simp), h₁.rsr_write _ (by simp),
    h₀.rsr_write _ (by simp), hrsr]

end AtRest

theorem TxSide.eq_empty {t : TxSide} (h : t.held = []) : t = .empty := by
  have hs := held_eq_nil.mp h
  have hf := t.fed hs
  cases t
  cases hs
  cases hf
  rfl

/-- The peripheral at the start of a session. -/
def Hw.configured (address : UInt32) : Hw :=
  ⟨[], false, .empty, 0, address, crI2cTarget, iflsDefault, irqBase, false⟩

/-- The history of `open`. -/
def openingLog (readyGpio : Bool) : List Event := if readyGpio then [.ready false] else []

/-- On a bus at rest nothing of what was before shows in a session that opens. -/
theorem openSession_atRest {s : Sys} (he : s.env = []) (hf : s.hw.rxFifo = [])
    (hb : s.hw.rxBusy = false) (hr : s.hw.ready = false) :
    (openSession s).hw = .configured s.bsc.address ∧ (openSession s).env = [] ∧
      (openSession s).log = openingLog s.bsc.readyGpio := by
  have hclear : AtRest (openingLog s.bsc.readyGpio) (cleared s) ∧ (cleared s).hw.ready = false ∧
      (cleared s).bsc.address = s.bsc.address := by
    by_cases hg : s.bsc.readyGpio = true
    · rw [cleared_wired hg, openingLog, if_pos hg]
      exact ⟨⟨he, hf, hb, rfl⟩, rfl, rfl⟩
    · rw [cleared_unwired (by simpa using hg), openingLog, if_neg hg]
      exact ⟨⟨he, hf, hb, rfl⟩, hr, rfl⟩
  obtain ⟨hrest, hready, haddress⟩ := hclear
  obtain ⟨hopen, hrsr⟩ := hrest.configure
  have htx := TxSide.eq_empty (held_bscConfigureLocked (cleared s))
  have hcontrols := controls_bscConfigureLocked (cleared s)
  have hmask : (cleared s).bsc.interruptMask = irqBase := by
    rw [cleared_bsc, Bsc.interruptMask, if_neg (by simp [Bsc.resetIo])]
  rw [haddress, hready, hmask] at hcontrols
  refine ⟨?_, hopen.env, hopen.log⟩
  have hhw : ∀ h : Hw, h.rxFifo = [] → h.rxBusy = false → h.tx = .empty → h.rsr = 0 →
      h.controls = ⟨s.bsc.address, crI2cTarget, iflsDefault, irqBase, false⟩ →
      h = .configured s.bsc.address := by
    rintro ⟨⟩ rfl rfl rfl rfl hc
    cases hc
    rfl
  exact hhw _ hopen.rxFifo hopen.rxBusy htx hrsr hcontrols

/-- Two devices of one configuration open alike. -/
theorem alike_openSession {s t : Sys} (haddress : t.bsc.address = s.bsc.address)
    (hgpio : t.bsc.readyGpio = s.bsc.readyGpio) (hdead : t.bsc.dead = s.bsc.dead)
    (hhw : (openSession t).hw = (openSession s).hw)
    (henv : (openSession t).env = (openSession s).env)
    (hlog : (openSession t).log = (openSession s).log) :
    Alike (openSession s) (openSession t) := by
  refine ⟨hhw, henv, hlog, ?_⟩
  rw [openSession_bsc, openSession_bsc]
  refine ⟨?_, rfl, fun i hi => absurd hi (Nat.not_lt_zero i), (by decide : 0 < bscRxSlots), rfl,
    rfl⟩
  simp only [Bsc.blank, Bsc.resetIo, haddress, hgpio, hdead]

/-! ## What a session shows -/

/-- What the owner and the controller do with an open device. -/
inductive Op
  /-- What the bus is going to do before the coming register accesses. -/
  | schedule (env : List (List HwEvent))
  | call (c : Call)
  | poll

inductive Returned
  | nothing
  | answer (a : Answer)
  | mask (m : UInt32)

/-- What can be seen behind an operation: its result, the bytes written to DR and clocked so
far, the READY line and IMSC. -/
structure Observation where
  returned : Returned
  loaded : Bytes
  clocked : Bytes
  ready : Bool
  imsc : UInt32

def perform (s : Sys) : Op → Sys
  | .schedule env => { s with env := env }
  | .call c => exec s c
  | .poll => s

def returned (s : Sys) : Op → Returned
  | .schedule _ => .nothing
  | .call c => .answer (answer s c)
  | .poll => .mask (bscPoll s)

def observe (s : Sys) (op : Op) : Observation :=
  let t := perform s op
  ⟨returned s op, loadedBytes t.log, clockedBytes t.log, t.hw.ready, t.hw.imsc⟩

def observations (s : Sys) : List Op → List Observation
  | [] => []
  | op :: ops => observe s op :: observations (perform s op) ops

theorem perform_steps (s : Sys) (op : Op) : Steps Micro s (perform s op) := by
  cases op with
  | schedule env => exact .single (.tend (.pass (.fill (.quiet (.env s env)))))
  | call c => exact exec_steps s c
  | poll => exact .refl

namespace Alike

variable {s t : Sys}

theorem perform (h : Alike s t) (op : Op) : Alike (perform s op) (perform t op) := by
  cases op with
  | schedule env => exact h.schedule env
  | call c => exact (h.exec c).2
  | poll => exact h

theorem observe (h : Alike s t) (op : Op) : observe t op = observe s op := by
  have hp := h.perform op
  have hr : returned t op = returned s op := by
    cases op with
    | schedule env => rfl
    | call c => exact congrArg Returned.answer (h.exec c).1
    | poll =>
      show Returned.mask (bscPoll t) = Returned.mask (bscPoll s)
      rw [bscPoll, bscPoll, h.bsc.dead, h.bsc.rxCount, h.bsc.workerPending]
  simp only [BscTarget.observe, hr, hp.log, hp.hw]

/-- Alike states show the same for good. -/
theorem observations (h : Alike s t) (ops : List Op) :
    observations t ops = observations s ops := by
  induction ops generalizing s t with
  | nil => rfl
  | cons op ops ih =>
    rw [BscTarget.observations, BscTarget.observations, h.observe op, ih (h.perform op)]

end Alike

/-! ## Reopening -/

theorem Micro.address {s t : Sys} (h : Micro s t) : t.bsc.address = s.bsc.address := by
  cases h with
  | tend h =>
    cases h with
    | pass h =>
      cases h with
      | fill h =>
        cases h with
        | quiet h => rw [h.bsc]
        | load => rfl
      | status => rfl
      | drain =>
        rcases drainByte_cases s with ⟨-, -, -, -, h⟩ | ⟨-, -, -, h⟩ | ⟨-, -, h⟩ | ⟨-, -, h⟩ <;>
          rw [h]
      | finish =>
        have ha : (acknowledged s).bsc.address = s.bsc.address := by
          unfold acknowledged
          split_ifs <;> rfl
        rcases finishBurst_cases s with ⟨-, h⟩ | ⟨-, -, h⟩ | ⟨-, -, h⟩ <;> rw [h] <;> exact ha
    | release => rw [bscSetReady_bsc]
    | _ => rfl
  | announce => rw [BscTarget.announce, bscSetReady_bsc]
  | _ => rfl

namespace Device

variable {address : UInt32} {readyGpio : Bool} {d p : Device}

/-- A device just probed with this configuration. -/
def Fresh (address : UInt32) (readyGpio : Bool) (d : Device) : Prop :=
  ∃ hw env, d = probe address readyGpio hw env

/-- A device with this configuration after any history. -/
def Reachable (address : UInt32) (readyGpio : Bool) (d : Device) : Prop :=
  ∃ hw env actions, d = (probe address readyGpio hw env).run actions

/-- An `open` on a bus that does not move. -/
def reopen (i : ℕ) (d : Device) : Device :=
  ((d.step (.schedule [])).step (.openClaim i)).step (.openSection i none)

/-- Nothing is being received. -/
structure Quiescent (d : Device) : Prop where
  rxFifo : d.sys.hw.rxFifo = []
  rxBusy : d.sys.hw.rxBusy = false

theorem Fresh.reachable (h : d.Fresh address readyGpio) : d.Reachable address readyGpio := by
  obtain ⟨hw, env, rfl⟩ := h
  exact ⟨hw, env, [], rfl⟩

theorem Reachable.sound (h : d.Reachable address readyGpio) : d.Sound := by
  obtain ⟨hw, env, actions, rfl⟩ := h
  exact (Sound.probe address readyGpio hw env).run actions

/-- The configuration of a device stays. -/
theorem config_step {a : Action}
    (h : d.sys.bsc.address = address ∧ d.sys.bsc.readyGpio = readyGpio) :
    (d.step a).sys.bsc.address = address ∧ (d.step a).sys.bsc.readyGpio = readyGpio := by
  have hdeactivate : ∀ s : Sys, (bscDeactivate s).bsc.address = s.bsc.address ∧
      (bscDeactivate s).bsc.readyGpio = s.bsc.readyGpio := fun s =>
    ⟨bscDeactivate_keeps Bsc.address (fun _ => rfl) s,
      bscDeactivate_keeps Bsc.readyGpio (fun _ => rfl) s⟩
  rcases step_sys_cases d a with h' | ⟨env, h'⟩ | ⟨c, h'⟩ | h' | ⟨-, h'⟩ | ⟨-, h'⟩ | h' <;> rw [h']
  · exact h
  · exact h
  · have hsteps := exec_steps d.sys c
    exact ⟨(hsteps.frame (f := fun s : Sys => s.bsc.address) Micro.address).trans h.1,
      (hsteps.frame (f := fun s : Sys => s.bsc.readyGpio) Micro.readyGpio).trans h.2⟩
  · exact h
  · rw [openSession_bsc]
    exact h
  · obtain ⟨ha, hr⟩ := hdeactivate d.sys
    exact ⟨ha.trans h.1, hr.trans h.2⟩
  · obtain ⟨ha, hr⟩ := hdeactivate { d.sys with bsc.dead := true }
    exact ⟨ha.trans h.1, hr.trans h.2⟩

theorem Reachable.config (h : d.Reachable address readyGpio) :
    d.sys.bsc.address = address ∧ d.sys.bsc.readyGpio = readyGpio := by
  obtain ⟨hw, env, actions, rfl⟩ := h
  refine run_keep (P := fun d => d.sys.bsc.address = address ∧ d.sys.bsc.readyGpio = readyGpio)
    (fun _ _ hd => config_step hd) ?_ actions
  have hb := bscDisableLocked_bsc
    ⟨.allocated address readyGpio, { hw with ready := false }, env, []⟩
  exact ⟨congrArg Bsc.address hb, congrArg Bsc.readyGpio hb⟩

theorem reopen_sys {i : ℕ} (hclosed : d.opened = false) (halive : d.sys.bsc.dead = false)
    (hi : d.files i = .unopened) :
    (d.reopen i).sys = openSession { d.sys with env := [] } := by
  have hclaim : (d.step (.schedule [])).step (.openClaim i) =
      { (d.step (.schedule [])).enter i .claimed with opened := true } :=
    step_openClaim hi hclosed
  rw [reopen, hclaim, step_openSection]
  · rfl
  · exact Function.update_self ..
  · exact halive

/-- A closed device has no session. -/
theorem Reachable.idle (h : d.Reachable address readyGpio) (hclosed : d.opened = false) :
    Idle d.sys := by
  refine h.sound.idle ?_
  by_contra ha
  obtain ⟨i, -, hheld⟩ := h.sound.owner (by simpa using ha)
  obtain ⟨o, ho⟩ := h.sound.holder
  have howns := (ho.owns i).mp (by rw [hheld]; rfl)
  have hopened := ho.opened
  rw [howns, hclosed] at hopened
  cases hopened

/-- What a session starts from: the configuration, and nothing else. -/
theorem Reachable.opens_configured (h : d.Reachable address readyGpio)
    (hclosed : d.opened = false) (halive : d.sys.bsc.dead = false) (hq : d.Quiescent) {i : ℕ}
    (hi : d.files i = .unopened) :
    (d.reopen i).sys.hw = .configured address ∧ (d.reopen i).sys.env = [] ∧
      (d.reopen i).sys.log = openingLog readyGpio := by
  have hopen := openSession_atRest (s := { d.sys with env := [] }) rfl hq.rxFifo hq.rxBusy
    (h.idle hclosed).released
  obtain ⟨ha, hr⟩ := h.config
  rw [reopen_sys hclosed halive hi]
  dsimp only at hopen
  rw [ha, hr] at hopen
  exact hopen

/-- A reopened device is alike to a fresh one that is opened. -/
theorem Reachable.reopen_alike (hd : d.Reachable address readyGpio) (hclosed : d.opened = false)
    (halive : d.sys.bsc.dead = false) (hq : d.Quiescent) {i : ℕ} (hi : d.files i = .unopened)
    (hp : p.Fresh address readyGpio) (hq' : p.Quiescent) (j : ℕ) :
    Alike (p.reopen j).sys (d.reopen i).sys := by
  have hfresh : p.opened = false ∧ p.sys.bsc.dead = false ∧ p.files j = .unopened := by
    obtain ⟨hw, env, rfl⟩ := hp
    exact ⟨rfl, congrArg Bsc.dead (bscDisableLocked_bsc _), rfl⟩
  obtain ⟨hclosed', halive', hj⟩ := hfresh
  obtain ⟨ha, hr⟩ := hd.config
  obtain ⟨ha', hr'⟩ := hp.reachable.config
  obtain ⟨hhw, henv, hlog⟩ := hd.opens_configured hclosed halive hq hi
  obtain ⟨hhw', henv', hlog'⟩ := hp.reachable.opens_configured hclosed' halive' hq' hj
  rw [reopen_sys hclosed halive hi] at hhw henv hlog ⊢
  rw [reopen_sys hclosed' halive' hj] at hhw' henv' hlog' ⊢
  exact alike_openSession (ha.trans ha'.symm) (hr.trans hr'.symm) (halive.trans halive'.symm)
    (hhw.trans hhw'.symm) (henv.trans henv'.symm) (hlog.trans hlog'.symm)

theorem Reachable.own_bytes (hd : d.Reachable address readyGpio) (hclosed : d.opened = false)
    (halive : d.sys.bsc.dead = false) (hq : d.Quiescent) {i : ℕ} (hi : d.files i = .unopened)
    (ops : List Op) : OwnBytes (ops.foldl perform (d.reopen i).sys) := by
  obtain ⟨hhw, -, hlog⟩ := hd.opens_configured hclosed halive hq hi
  have hsteps := Steps.foldl perform_steps ops (d.reopen i).sys
  have hfifo := Accounted.run { d.sys with env := [] } []
  have htransmitted : Transmitted (d.reopen i).sys := by
    unfold Transmitted openingLog at *
    rw [hhw, hlog]
    split_ifs <;> exact List.Sublist.slnil
  rw [reopen_sys hclosed halive hi] at hsteps htransmitted ⊢
  dsimp only at hfifo
  rw [hq.rxFifo] at hfifo
  exact ownBytes_steps hsteps (Serving.run _ []) (Queued.run _ []) hfifo htransmitted

/-- A reopened device shows what a fresh one shows, and delivers and transmits only what belongs
to the session. -/
theorem session_isolation (hd : d.Reachable address readyGpio) (hclosed : d.opened = false)
    (halive : d.sys.bsc.dead = false) (hq : d.Quiescent) {i : ℕ} (hi : d.files i = .unopened)
    (hp : p.Fresh address readyGpio) (hq' : p.Quiescent) (j : ℕ) (ops : List Op) :
    observations (d.reopen i).sys ops = observations (p.reopen j).sys ops ∧
      OwnBytes (ops.foldl perform (d.reopen i).sys) :=
  ⟨(hd.reopen_alike hclosed halive hq hi hp hq' j).observations ops,
    hd.own_bytes hclosed halive hq hi ops⟩

/-- A session that leaves bytes in every buffer behind. -/
def usedDevice : Device :=
  (probe 0x13 true .reset []).run [.openClaim 0, .openSection 0 none, .call (.bus (.byte 5)),
    .call .timer, .call (.read ⟨8192, true, false, false, false⟩),
    .call (.write ⟨[7, 8], false, false⟩), .releaseSection 0, .releaseDone 0]

theorem session_isolation_used :
    usedDevice.sys.hw.tx.held = [7, 8] ∧
    observations (usedDevice.reopen 1).sys [.schedule [[.byte 6]], .call .timer, .poll] =
      observations ((probe 0x13 true .reset []).reopen 0).sys
        [.schedule [[.byte 6]], .call .timer, .poll] ∧
    OwnBytes ([.schedule [[.byte 6]], .call .timer, .poll].foldl perform
      (usedDevice.reopen 1).sys) := by
  have hused : usedDevice.Reachable 0x13 true := ⟨.reset, [], _, rfl⟩
  have hfresh : (probe 0x13 true .reset []).Fresh 0x13 true := ⟨.reset, [], rfl⟩
  refine ⟨by decide +kernel, ?_⟩
  exact session_isolation hused (by decide +kernel) (by decide +kernel)
    ⟨by decide +kernel, by decide +kernel⟩ (by decide +kernel) hfresh
    ⟨by decide +kernel, by decide +kernel⟩ 0 _

end Device

end BscTarget
