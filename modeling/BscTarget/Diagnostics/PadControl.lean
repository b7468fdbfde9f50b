import BscTarget.Diagnostics.Pads
import BscTarget.Loader.Guard

/-!
# The pads of the Pi 3B+

`pad-control.py`: drive strength, hysteresis and slew of GPIO0-27, all in one register that is
written with a password. What was saved is restored after any runs in the same boot
(`restore_whole`).
-/

namespace BscTarget.Pads.Bcm2837

open Loader (contains)

/-! ## The fields -/

def address : ℤ := 0x3f100000
def offset : ℕ := 0x2c
def fields : UInt32 := 0x1f
def slewUnlimited : UInt32 := 0x10

/-- `range(2, 17, 2)` -/
def drives : List ℕ := List.range' 2 8 2

def desired (original : UInt32) (limited : Bool) (driveMa : Option ℕ) : Except PadError UInt32 :=
  let value := (original &&& fields) &&& (if limited then ~~~slewUnlimited else fields)
  match driveMa with
  | none => .ok value
  | some driveMa =>
    if driveMa ∈ drives then .ok ((value &&& ~~~7) ||| UInt32.ofNat (driveMa / 2 - 1))
    else .error (.value "Drive strength must be 2..16 mA in steps of 2")

/-- What is left of the saved fields. -/
def kept (original : UInt32) (limited : Bool) : UInt32 :=
  (original &&& fields) &&& (if limited then ~~~slewUnlimited else fields)

theorem desired_some {original result : UInt32} {limited : Bool} {driveMa : ℕ}
    (h : desired original limited (some driveMa) = .ok result) : driveMa ∈ drives ∧
      result = (kept original limited &&& ~~~7) ||| UInt32.ofNat (driveMa / 2 - 1) := by
  simp only [desired] at h
  by_cases hd : driveMa ∈ drives
  · rw [if_pos hd] at h
    cases h
    exact ⟨hd, rfl⟩
  · rw [if_neg hd] at h
    cases h

/-- A drive strength has three bits. -/
theorem drive_bits {driveMa : ℕ} (h : driveMa ∈ drives) :
    2 * ((UInt32.ofNat (driveMa / 2 - 1) &&& 7).toNat + 1) = driveMa ∧
      UInt32.ofNat (driveMa / 2 - 1) &&& 7 = UInt32.ofNat (driveMa / 2 - 1) := by
  simp only [drives, List.range', List.mem_cons, List.not_mem_nil, or_false] at h
  rcases h with rfl | rfl | rfl | rfl | rfl | rfl | rfl | rfl <;> decide

/-- Nothing but the fields is set. -/
theorem desired_fields {original result : UInt32} {limited : Bool} {driveMa : Option ℕ}
    (h : desired original limited driveMa = .ok result) : result &&& fields = result := by
  have hkept : kept original limited &&& fields = kept original limited := by
    refine Fields.and_within ?_ _
    rw [UInt32.and_assoc, UInt32.and_self]
  cases driveMa with
  | none =>
    cases h
    exact hkept
  | some driveMa =>
    obtain ⟨hd, rfl⟩ := desired_some h
    refine Fields.or_within (Fields.and_within hkept _) ?_
    rw [← (drive_bits hd).2, UInt32.and_assoc]
    rfl

/-- Without limit and drive it is what was saved. -/
theorem desired_same {original : UInt32} (h : original &&& fields = original) :
    desired original false none = .ok original := by
  show Except.ok (original &&& fields &&& fields) = _
  rw [h, h]

/-- A drive strength is put in, and hysteresis is kept. -/
theorem desired_drive {original result : UInt32} {limited : Bool} {driveMa : ℕ}
    (h : desired original limited (some driveMa) = .ok result) :
    2 * ((result &&& 7).toNat + 1) = driveMa ∧
      result &&& 0x18 = original &&& (if limited then 0x08 else 0x18) := by
  obtain ⟨hd, rfl⟩ := desired_some h
  obtain ⟨hvalue, hbits⟩ := drive_bits hd
  constructor
  · have hclear : (~~~7 : UInt32) &&& 7 = 0 := by decide
    rw [Fields.or_and, UInt32.and_assoc _ (~~~7) 7, hclear, UInt32.and_zero, UInt32.zero_or]
    exact hvalue
  · have hhigh : UInt32.ofNat (driveMa / 2 - 1) &&& 0x18 = 0 := by
      rw [← hbits, UInt32.and_assoc]
      exact UInt32.and_zero
    rw [Fields.or_and, hhigh, UInt32.or_zero, kept, UInt32.and_assoc, UInt32.and_assoc,
      UInt32.and_assoc]
    congr 1
    cases limited <;> decide

/-! ## The program -/

structure Record where
  address : ℤ
  value : ℤ

inductive Action
  | read
  | save (path : String)
  | limitSlew (path : String)
  | setDrive (path : String)
  | restore (path : String)
  | selfTest
  deriving DecidableEq

/-- What `parse_args` lets through. -/
structure Arguments where
  action : Action
  driveMa : Option ℕ
  slewLimited : Bool
  driveMa_mem : ∀ d, driveMa = some d → d ∈ drives

/-- What is printed. -/
structure Report where
  identity : Identity
  before : UInt32
  after : UInt32
  slewUnlimited : Bool
  hysteresis : Bool
  driveMa : ℕ
  deriving DecidableEq

def report (identity : Identity) (before after : UInt32) : Report where
  identity := identity
  before := before
  after := after
  slewUnlimited := after &&& 16 ≠ 0
  hysteresis := after &&& 8 ≠ 0
  driveMa := 2 * ((after &&& 7).toNat + 1)

def identity : Talk Record Identity := do
  let identity ← askIdentity
  refuseIf (contains identity.model "Raspberry Pi 3 Model B Plus" = false)
    (.runtime "This diagnostic is restricted to the verified Pi 3B+ register map")
  pure identity

def readPads : Talk Record UInt32 := do
  let word ← read offset
  pure (word &&& fields)

/-- `--save` -/
def save (path : String) : Talk Record Report := do
  let identity ← identity
  let before ← readPads
  create path
  dump path ⟨identity, ⟨address + offset, before.toNat⟩⟩
  pure (report identity before before)

/-- `snapshot['value']` -/
def Record.original (r : Record) : Except PadError UInt32 :=
  if 0 ≤ r.value ∧ r.value ≤ fields.toNat then .ok (UInt32.ofNat r.value.toNat)
  else .error (.runtime "Invalid saved pad value")

def Arguments.limits (a : Arguments) : Bool :=
  match a.action with
  | .limitSlew _ => true
  | _ => false

def Arguments.setsDrive (a : Arguments) : Bool :=
  match a.action with
  | .setDrive _ => true
  | _ => false

/-- The new value, from what is there and what was saved. -/
def Arguments.change (a : Arguments) (before original : UInt32) : Except PadError UInt32 :=
  if a.limits ∧ (before ≠ original ∨ original &&& slewUnlimited = 0) then
    .error (.runtime "Pad changed since snapshot or slew already limited")
  else if a.setsDrive ∧ before ≠ original then .error (.runtime "Pad changed since snapshot")
  else desired original (a.limits || a.slewLimited) a.driveMa

/-- `--limit-slew`, `--set-drive` and `--restore` -/
def modify (path : String) (a : Arguments) : Talk Record Report := do
  let identity ← identity
  let snapshot ← load path
  refuseIf (snapshot.identity ≠ identity)
    (.runtime "Snapshot host/model/boot differs; refusing a stale restore")
  refuseIf (snapshot.record.address ≠ address + offset) (.runtime "Unexpected snapshot register")
  let before ← readPads
  let original ← ofExcept snapshot.record.original
  let after ← ofExcept (a.change before original)
  write offset (0x5a000000 ||| after)
  let readback ← readPads
  refuseIf (readback ≠ after) (.runtime "Pad write did not read back correctly")
  pure (report identity before after)

/-- The assertions of `--self-test`. -/
def selfTest : Bool :=
  let word (v : ℕ) : UInt32 := UInt32.ofNat v
  let gives (x : Except PadError UInt32) (p : UInt32 → Bool) : Bool :=
    match x with
    | .ok r => p r
    | .error _ => false
  gives (desired 0x1b true none) (· == 0x0b) &&
    ((List.range 32).all fun v =>
      gives (desired (word v) true none) (fun r =>
        r &&& 0xf == word v &&& 0xf && (r ^^^ word v == 0 || r ^^^ word v == 16)) &&
      gives (desired (word v) false none) (· == word v)) &&
    ((List.range 32).all fun v => drives.all fun drive =>
      gives (desired (word v) false (some drive)) (fun r =>
        r &&& 0x18 == word v &&& 0x18 && 2 * ((r &&& 7).toNat + 1) == drive) &&
      gives (desired (word v) true (some drive)) (fun r =>
        r &&& 0x18 == word v &&& 0x08 && 2 * ((r &&& 7).toNat + 1) == drive)) &&
    [0, 1, 3, 18].all fun invalid => !gives (desired 0x1b false (some invalid)) fun _ => true

theorem selfTest_passes : selfTest = true := by decide +kernel

/-- The path of the snapshot that is applied. -/
def Arguments.modifying (a : Arguments) : Option String :=
  match a.action with
  | .limitSlew path | .setDrive path | .restore path => some path
  | _ => none

def main (a : Arguments) : Talk Record (Option Report) := do
  refuseIf (a.driveMa.isSome ≠ a.setsDrive)
    (.usage "--set-drive SNAPSHOT and --drive-ma MA must be used together")
  refuseIf (a.slewLimited = true ∧ a.setsDrive = false)
    (.usage "--slew-limited requires --set-drive SNAPSHOT and --drive-ma MA")
  match a.action with
  | .selfTest => do
    refuseIf (selfTest = false) .assertion
    pure none
  | .read => do
    let identity ← identity
    let before ← readPads
    pure (some (report identity before before))
  | .save path => do
    let report ← save path
    pure (some report)
  | .limitSlew path | .setDrive path | .restore path => do
    let report ← modify path a
    pure (some report)

/-- Only with the password in its high byte does a word change the fields. -/
def latch (value old : UInt32) : UInt32 :=
  if value >>> 24 = 0x5a then Fields.insert fields value old else old

def tool : Tool Record Arguments (Option Report) := ⟨main, latch⟩

/-! ## What a run leaves alone -/

def masks (o : ℕ) : UInt32 := if o = offset then fields else 0

/-- A written value within the fields is all that changes. -/
theorem latch_password {value old : UInt32} (h : value &&& fields = value) :
    latch (0x5a000000 ||| value) old = Fields.insert fields value old := by
  have hhigh : (0x5a000000 ||| value) >>> 24 = 0x5a := by
    have hvalue : value >>> 24 = 0 := by
      rw [← h, UInt32.shiftRight_and]
      exact UInt32.and_zero
    rw [UInt32.shiftRight_or, hvalue]
    rfl
  have hlow : (0x5a000000 ||| value) &&& fields = value &&& fields := by
    rw [Fields.or_and]
    exact UInt32.zero_or
  rw [latch, if_pos hhigh, Fields.insert, hlow, Fields.insert]

theorem change_fields {a : Arguments} {before original after : UInt32}
    (h : a.change before original = .ok after) : after &&& fields = after := by
  unfold Arguments.change at h
  split_ifs at h
  exact desired_fields h

section

variable {m : Machine Record} {I : Machine Record → Prop}

def pads (m : Machine Record) : UInt32 := m.page offset &&& fields

/-- The machine is the one that the tool is for. -/
def Verified (m : Machine Record) : Prop :=
  contains m.identity.model "Raspberry Pi 3 Model B Plus" = true

theorem always_ident (hI : I m) : identity.Always (Machine.answer tool.latch) I
    (fun v m' => m' = m ∧ v = m.identity ∧ Verified m) m := by
  refine (always_identity hI).bind ?_
  rintro identity m - ⟨rfl, rfl⟩
  refine (always_refuseIf hI _ _).bind ?_
  rintro _ m - ⟨rfl, hmodel⟩
  exact .pure hI ⟨rfl, rfl, eq_true_of_ne_false hmodel⟩

theorem always_readPads (hI : I m) : readPads.Always (Machine.answer tool.latch) I
    (fun v m' => m' = m ∧ v = pads m) m := by
  refine (always_read hI offset).bind ?_
  rintro word m - ⟨rfl, rfl⟩
  exact .pure hI ⟨rfl, rfl⟩

/-- What `--save` writes. -/
def record (m : Machine Record) : Record := ⟨address + offset, (pads m).toNat⟩

theorem always_save (path : String) : (save path).Always (Machine.answer tool.latch)
    (Kept masks m) (fun r m' => r = report m.identity (pads m) (pads m) ∧ Verified m ∧
      SavedAs path (record m) m m') m := by
  refine (always_ident (.refl m)).bind ?_
  rintro identity m - ⟨rfl, rfl, hverified⟩
  refine (always_readPads (.refl m)).bind ?_
  rintro before m - ⟨rfl, rfl⟩
  refine (always_create (.refl m) fun hnew => (Kept.refl m).setFile hnew _).bind ?_
  rintro _ _ hkept ⟨hnew, rfl⟩
  refine (always_dump hkept (hkept.setFile hnew _)).bind ?_
  rintro _ _ hkept' rfl
  exact .pure hkept' ⟨rfl, hverified, rfl, rfl, rfl, Function.update_self ..⟩

/-- The file is a snapshot of this boot, and the pads are as was asked for. -/
structure Modified (path : String) (a : Arguments) (m : Machine Record) (r : Report)
    (m' : Machine Record) : Prop where
  file : ∃ record, m.files path = some (some ⟨m.identity, record⟩)
  change : ∃ original, a.change (pads m) original = .ok (pads m')
  report : r = report m.identity (pads m) (pads m')

theorem always_modify (path : String) (a : Arguments) :
    (modify path a).Always (Machine.answer tool.latch) (Kept masks m) (Modified path a m) m := by
  refine (always_ident (.refl m)).bind ?_
  rintro identity m - ⟨rfl, rfl, -⟩
  refine (always_load (.refl m) path).bind ?_
  rintro snapshot m - ⟨rfl, hfile⟩
  refine (always_refuseIf (.refl m) _ _).bind ?_
  rintro _ m - ⟨rfl, hsame⟩
  refine (always_refuseIf (.refl m) _ _).bind ?_
  rintro _ m - ⟨rfl, -⟩
  refine (always_readPads (.refl m)).bind ?_
  rintro before m - ⟨rfl, rfl⟩
  refine (always_ofExcept (.refl m) _).bind ?_
  rintro original m - ⟨rfl, -⟩
  refine (always_ofExcept (.refl m) _).bind ?_
  rintro after m - ⟨rfl, hafter⟩
  have hsaved : ∃ r, m.files path = some (some ⟨m.identity, r⟩) := by
    obtain ⟨identity, r⟩ := snapshot
    exact ⟨r, (not_not.mp hsame : identity = m.identity) ▸ hfile⟩
  have hkept : Kept masks m
      (m.setRegister offset (tool.latch (0x5a000000 ||| after) (m.page offset))) := by
    refine (Kept.refl m).setRegister ?_
    show latch _ _ &&& ~~~fields = _
    rw [latch_password (change_fields hafter)]
    exact Fields.insert_outside fields after (m.page offset)
  refine (always_write (.refl m) hkept).bind ?_
  rintro _ _ - rfl
  refine (always_readPads hkept).bind ?_
  rintro readback _ - ⟨rfl, rfl⟩
  refine (always_refuseIf hkept _ _).bind ?_
  rintro _ _ - ⟨rfl, hreadback⟩
  have hpads := (not_not.mp hreadback).symm
  exact .pure hkept ⟨hsaved, ⟨original, hafter.trans (congrArg Except.ok hpads)⟩,
    congrArg (report m.identity (pads m)) hpads⟩

/-- What a run that comes to its end has done and printed. -/
def Done (a : Arguments) (m : Machine Record) (r : Option Report) (m' : Machine Record) : Prop :=
  match a.action, r with
  | .selfTest, none => m' = m
  | .read, some r => m' = m ∧ r = report m.identity (pads m) (pads m)
  | .save path, some r => r = report m.identity (pads m) (pads m) ∧ Verified m ∧
      SavedAs path (record m) m m'
  | .limitSlew path, some r | .setDrive path, some r | .restore path, some r =>
    Modified path a m r m'
  | _, _ => False

theorem always_main (a : Arguments) :
    (main a).Always (Machine.answer tool.latch) (Kept masks m) (Done a m) m := by
  obtain ⟨action, driveMa, slewLimited, _⟩ := a
  refine (always_refuseIf (.refl m) _ _).bind ?_
  rintro _ m - ⟨rfl, -⟩
  refine (always_refuseIf (.refl m) _ _).bind ?_
  rintro _ m - ⟨rfl, -⟩
  cases action with
  | selfTest =>
    rw [selfTest_passes]
    refine (always_refuseIf (.refl m) (true = false) .assertion).bind ?_
    rintro _ m - ⟨rfl, -⟩
    exact .pure (.refl m) rfl
  | read =>
    refine (always_ident (.refl m)).bind ?_
    rintro identity m - ⟨rfl, rfl, -⟩
    refine (always_readPads (.refl m)).bind ?_
    rintro before m - ⟨rfl, rfl⟩
    exact .pure (.refl m) ⟨rfl, rfl⟩
  | save path =>
    refine (always_save path).bind ?_
    exact fun report m' hkept hsaved => .pure hkept hsaved
  | limitSlew path | setDrive path | restore path =>
    refine (always_modify path _).bind ?_
    exact fun report m' hkept hmodified => .pure hkept hmodified

end

theorem careful : tool.Careful masks :=
  fun a left _ => (Tool.always_run (always_main a) left).1

/-! ## A snapshot of another boot -/

theorem always_stale {m : Machine Record} {path : String} {snapshot : Snapshot Record}
    (hfile : m.files path = some (some snapshot)) (hother : snapshot.identity ≠ m.identity)
    {a : Arguments} (ha : a.modifying = some path) :
    (main a).Always (Machine.answer tool.latch) (· = m) (fun _ _ => False) m := by
  have hmodify : (modify path a).Always (Machine.answer tool.latch) (· = m)
      (fun _ _ => False) m := by
    refine (always_ident (I := (· = m)) rfl).bind ?_
    rintro identity m - ⟨rfl, rfl, -⟩
    refine (always_load (I := (· = m)) rfl path).bind ?_
    rintro loaded m - ⟨rfl, hloaded⟩
    refine (always_refuseIf (I := (· = m)) rfl _ _).bind ?_
    rintro _ m - ⟨rfl, hsame⟩
    rw [hfile] at hloaded
    cases hloaded
    exact absurd hother hsame
  obtain ⟨action, driveMa, slewLimited, _⟩ := a
  refine (always_refuseIf (I := (· = m)) rfl _ _).bind ?_
  rintro _ m - ⟨rfl, -⟩
  refine (always_refuseIf (I := (· = m)) rfl _ _).bind ?_
  rintro _ m - ⟨rfl, -⟩
  cases action with
  | limitSlew path' | setDrive path' | restore path' =>
    cases ha
    exact hmodify.bind fun _ _ _ h => h.elim
  | _ => cases ha

/-! ## Restoring -/

def saving (path : String) : Arguments := ⟨.save path, none, false, no_drive drives⟩
def restoring (path : String) : Arguments := ⟨.restore path, none, false, no_drive drives⟩

section

variable {m m' : Machine Record} {path : String}

theorem run_identity (h : Verified m) {f : Identity → Talk Record Report} :
    (identity >>= f).run (Machine.answer tool.latch) m =
      (f m.identity).run (Machine.answer tool.latch) m := by
  refine Dialogue.run_bind_ok ?_
  refine (Dialogue.run_call_bind (a := m.identity) rfl).trans ?_
  rw [run_refuseIf (ne_false_of_eq_true h)]
  rfl

theorem original_record : (record m).original = .ok (pads m) := by
  have hle : (pads m).toNat ≤ fields.toNat := by
    rw [pads, UInt32.toNat_and]
    exact Nat.and_le_right
  have hrange : (0 : ℤ) ≤ ((pads m).toNat : ℤ) ∧ ((pads m).toNat : ℤ) ≤ fields.toNat := by omega
  rw [Record.original, record, if_pos hrange, Int.toNat_natCast, UInt32.ofNat_toNat]

/-- The restored machine. -/
def restored (m : Machine Record) (value : UInt32) : Machine Record :=
  m.setRegister offset (Fields.insert fields value (m.page offset))

theorem run_restoring {saved : Machine Record} (hv : Verified m)
    (hfile : m.files path = some (some ⟨m.identity, record saved⟩)) :
    tool.run (restoring path) none m =
      (.ok (some (report m.identity (pads m) (pads saved))), restored m (pads saved)) := by
  have hfields : pads saved &&& fields = pads saved := by
    rw [pads, UInt32.and_assoc, UInt32.and_self]
  have hchange : (restoring path).change (pads m) (pads saved) = .ok (pads saved) := by
    rw [Arguments.change, if_neg (by rintro ⟨⟨⟩, -⟩), if_neg (by rintro ⟨⟨⟩, -⟩)]
    exact desired_same hfields
  have hreadback : pads (restored m (pads saved)) = pads saved := by
    rw [pads, restored, Machine.page_setRegister, Fields.and_insert, hfields]
  have hread : readPads.run (Machine.answer tool.latch) (restored m (pads saved)) =
      (.ok (pads saved), restored m (pads saved)) := by
    have hraw : readPads.run (Machine.answer tool.latch) (restored m (pads saved)) =
        (.ok (pads (restored m (pads saved))), restored m (pads saved)) := rfl
    rw [hraw, hreadback]
  refine (tool.run_whole _ m).trans ?_
  show (modify path (restoring path) >>= fun r => pure (some r)).run (Machine.answer tool.latch) m = _
  refine Dialogue.run_bind_ok ?_
  have haddress : ¬ (record saved).address ≠ address + offset := not_not.mpr rfl
  rw [modify, run_identity hv, run_load hfile, run_refuseIf (not_not.mpr rfl),
    run_refuseIf haddress]
  refine (Dialogue.run_bind_ok (v := pads m) rfl).trans ?_
  have hwrite : tool.latch (0x5a000000 ||| pads saved) (m.page offset) =
      Fields.insert fields (pads saved) (m.page offset) := latch_password hfields
  rw [run_ofExcept original_record, run_ofExcept hchange, run_write hwrite]
  refine (Dialogue.run_bind_ok hread).trans ?_
  rw [run_refuseIf (not_not.mpr rfl)]
  rfl

/-- The words agree off the fields, and the fields are what they were: so is the whole page. -/
theorem page_restored (hpage : ∀ o, m'.page o &&& ~~~masks o = m.page o &&& ~~~masks o) :
    (restored m' (pads m)).page = m.page := by
  funext o
  by_cases ho : o = offset
  · subst ho
    rw [restored, Machine.page_setRegister]
    apply Fields.eq_of_and (m := fields)
    · rw [Fields.and_insert, pads, UInt32.and_assoc, UInt32.and_self]
    · rw [Fields.insert_outside]
      exact hpage offset
  · rw [restored, Machine.page_setRegister_of_ne _ ho]
    have hsame := hpage o
    rw [masks, if_neg ho] at hsame
    simpa using hsame

end

theorem restore_whole {m : Machine Record} {path : String} {left : Option ℕ} {r : Option Report}
    (hsave : (tool.run (saving path) left m).1 = .ok r) {events : List (Event Record Arguments)}
    (hspares : ∀ e ∈ events, e.Spares path) :
    let m' := tool.history (tool.run (saving path) left m).2 events
    ((∀ e ∈ events, e.Quiet) →
      (∀ o, m'.page o &&& ~~~masks o = m.page o &&& ~~~masks o) ∧
      (tool.run (restoring path) none m').1.isOk = true ∧
      (tool.run (restoring path) none m').2.page = m.page) ∧
    (m'.identity ≠ m.identity → ∀ (a : Arguments) left', a.modifying = some path →
      (tool.run a left' m').1.isOk = false ∧ (tool.run a left' m').2 = m') := by
  intro m'
  obtain ⟨hverified, hsaved⟩ : Verified m ∧
      SavedAs path (record m) m (tool.run (saving path) left m).2 := by
    have hdone := (Tool.always_run (always_main (m := m) (saving path)) left).2 r hsave
    rcases r with _ | r
    · exact hdone.elim
    · exact hdone.2
  constructor
  · intro hquiet
    obtain ⟨hidentity, -, hpage, hfile⟩ := careful.history_saved hsaved hspares hquiet
    have hv : Verified m' := by
      rw [Verified, hidentity]
      exact hverified
    rw [run_restoring hv hfile]
    exact ⟨hpage, rfl, page_restored hpage⟩
  · intro hother a left' ha
    have hstale := Tool.always_run
      (always_stale (careful.history_file hsaved.file hspares) hother.symm ha) left'
    refine ⟨?_, hstale.1⟩
    rcases hresult : (tool.run a left' m').1 with e | v
    · rfl
    · exact (hstale.2 v hresult).elim

/-- A Pi 3B+ with 8 mA, hysteresis and no slew limit; the bits beside the fields are read too. -/
def bench : Machine Record where
  identity := ⟨"Raspberry Pi 3 Model B Plus Rev 1.3", "bench", "0b5c"⟩
  iomem := ""
  page o := if o = offset then 0x3000001b else 0
  files _ := none

/-- The slew is limited, the file of another snapshot is written by hand and applied. -/
theorem restore_whole_limited :
    (tool.run (restoring "pads.json") none
      (tool.history (tool.run (saving "pads.json") none bench).2
        [.tool ⟨.limitSlew "pads.json", none, false, no_drive drives⟩ none,
          .edit "other.json" (some (some ⟨bench.identity, ⟨address + offset, 3⟩⟩)),
          .tool (restoring "other.json") none])).2.page = bench.page := by
  have hsave : (tool.run (saving "pads.json") none bench).1 =
      .ok (some (report bench.identity (pads bench) (pads bench))) := by
    rfl
  refine ((restore_whole hsave ?_).1 ?_).2.2
  · simp [Event.Spares]
  · simp [Event.Quiet]

/-! ## Setting the strength -/

/-- A run of `--set-drive` that comes to its end has set the strength, kept hysteresis, limited the
slew if it was asked to, and left everything else. -/
theorem setDrive_exact {a : Arguments} {left : Option ℕ} {m : Machine Record} {r : Option Report}
    {path : String} {driveMa : ℕ} (haction : a.action = .setDrive path)
    (hdrive : a.driveMa = some driveMa) (hok : (tool.run a left m).1 = .ok r) :
    2 * ((pads (tool.run a left m).2 &&& 7).toNat + 1) = driveMa ∧
      pads (tool.run a left m).2 &&& 0x18 =
        pads m &&& (if a.slewLimited then 0x08 else 0x18) ∧
      ∀ o, (tool.run a left m).2.page o &&& ~~~masks o = m.page o &&& ~~~masks o := by
  rw [← and_assoc]
  refine ⟨?_, (careful a left m).page⟩
  have hdone := (Tool.always_run (always_main (m := m) a) left).2 r hok
  unfold Done at hdone
  rw [haction] at hdone
  rcases r with _ | r
  · exact hdone.elim
  · obtain ⟨original, hchange⟩ := hdone.change
    have hlimits : a.limits = false := by rw [Arguments.limits, haction]
    have hsets : a.setsDrive = true := by rw [Arguments.setsDrive, haction]
    unfold Arguments.change at hchange
    split_ifs at hchange with hbad hchanged
    -- the pads are what the snapshot holds
    have hsame : pads m = original := by
      by_contra hne
      exact hchanged ⟨hsets, hne⟩
    rw [hlimits, Bool.false_or, hdrive] at hchange
    rw [hsame]
    exact desired_drive hchange

theorem drive_mem : ∀ d, some 12 = some d → d ∈ drives := by
  rintro _ ⟨⟩
  decide

/-- 12 mA with a limited slew, after a `--save` in the same boot. -/
theorem setDrive_exact_limited :
    2 * ((pads (tool.run ⟨.setDrive "pads.json", some 12, true, drive_mem⟩ none
      (tool.run (saving "pads.json") none bench).2).2 &&& 7).toNat + 1) = 12 := by
  have hset : (tool.run ⟨.setDrive "pads.json", some 12, true, drive_mem⟩ none
      (tool.run (saving "pads.json") none bench).2).1 =
        .ok (some (report bench.identity 0x1b 0x0d)) := by
    rfl
  exact (setDrive_exact rfl rfl hset).1

end BscTarget.Pads.Bcm2837
