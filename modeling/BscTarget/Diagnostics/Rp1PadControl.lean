import BscTarget.Diagnostics.Pads
import BscTarget.Loader.Guard

/-!
# The pads of the Pi 5 controller

`rp1-pad-control.py`: drive strength and slew of GPIO2 and GPIO3, each in a register of its own. A
run that is killed has set one pad at most, and the pair that was saved restores both
(`restore_exact`).
-/

namespace BscTarget.Pads.Rp1

open Loader (contains)

/-! ## The fields -/

def base : ℤ := 0x1f000f0000
def pins : List ℤ := [2, 3]
def outputFields : UInt32 := 0x31
def drives : List ℕ := [2, 4, 8, 12]

/-- Where the register of a pin is. -/
def offset (pin : ℕ) : ℕ := 4 + 4 * pin

def desired (value : UInt32) (driveMa : ℕ) (fast : Bool) : Except PadError UInt32 :=
  if driveMa ∈ drives then
    .ok ((value &&& ~~~outputFields) ||| (UInt32.ofNat (drives.idxOf driveMa) <<< 4) |||
      fast.toUInt32)
  else .error (.value "Unsupported RP1 drive strength")

/-- What is put into the fields lies inside them. -/
theorem desired_cases {value result : UInt32} {driveMa : ℕ} {fast : Bool}
    (h : desired value driveMa fast = .ok result) : ∃ drive : UInt32,
      driveMa ∈ drives ∧ drives.getD (drive >>> 4).toNat 0 = driveMa ∧ drive &&& 0x30 = drive ∧
        result = (value &&& ~~~outputFields) ||| drive ||| fast.toUInt32 := by
  unfold desired at h
  split_ifs at h with hd
  cases h
  refine ⟨_, hd, ?_, ?_, rfl⟩
  all_goals
    simp only [drives, List.mem_cons, List.not_mem_nil, or_false] at hd
    rcases hd with rfl | rfl | rfl | rfl <;> decide

theorem desired_outside {value result : UInt32} {driveMa : ℕ} {fast : Bool}
    (h : desired value driveMa fast = .ok result) :
    result &&& ~~~outputFields = value &&& ~~~outputFields := by
  obtain ⟨drive, -, -, hdrive, rfl⟩ := desired_cases h
  have hd : drive &&& ~~~outputFields = 0 := by
    rw [← hdrive, UInt32.and_assoc]
    exact UInt32.and_zero
  have hf : fast.toUInt32 &&& ~~~outputFields = 0 := by
    cases fast <;> decide
  rw [Fields.or_and, Fields.or_and, hd, hf, UInt32.or_zero, UInt32.or_zero, UInt32.and_assoc,
    UInt32.and_self]

structure Decoded where
  raw : UInt32
  driveMa : ℕ
  slewFast : Bool
  hysteresis : Bool
  pullUp : Bool
  pullDown : Bool
  inputEnable : Bool
  deriving DecidableEq

def decode (value : UInt32) : Decoded where
  raw := value
  driveMa := drives.getD ((value >>> 4) &&& 3).toNat 0
  slewFast := value &&& 1 ≠ 0
  hysteresis := value &&& 2 ≠ 0
  pullUp := value &&& 8 ≠ 0
  pullDown := value &&& 4 ≠ 0
  inputEnable := value &&& 64 ≠ 0

/-- The fields are read back as they were put in. -/
theorem decode_desired {value result : UInt32} {driveMa : ℕ} {fast : Bool}
    (h : desired value driveMa fast = .ok result) :
    (decode result).driveMa = driveMa ∧ (decode result).slewFast = fast := by
  obtain ⟨drive, -, hindex, hdrive, rfl⟩ := desired_cases h
  have hkept : ∀ m : UInt32, ~~~outputFields &&& m = 0 → value &&& ~~~outputFields &&& m = 0 := by
    intro m hm
    rw [UInt32.and_assoc, hm, UInt32.and_zero]
  constructor
  · have hfields : ((value &&& ~~~outputFields ||| drive ||| fast.toUInt32) &&& 0x30) = drive := by
      rw [Fields.or_and, Fields.or_and, hkept 0x30 (by decide), hdrive, UInt32.zero_or]
      cases fast <;> exact UInt32.or_zero
    have hshift : (value &&& ~~~outputFields ||| drive ||| fast.toUInt32) >>> 4 &&& (3 : UInt32) =
        drive >>> 4 := by
      have hthree : (3 : UInt32) = (0x30 : UInt32) >>> 4 := rfl
      rw [hthree, ← UInt32.shiftRight_and, hfields]
    simp only [decode, hshift]
    exact hindex
  · have hlow : (value &&& ~~~outputFields ||| drive ||| fast.toUInt32) &&& 1 = fast.toUInt32 := by
      have hd : drive &&& 1 = 0 := by
        rw [← hdrive, UInt32.and_assoc]
        exact UInt32.and_zero
      rw [Fields.or_and, Fields.or_and, hkept 1 (by decide), hd, UInt32.zero_or, UInt32.zero_or]
      cases fast <;> rfl
    simp only [decode, hlow]
    cases fast <;> rfl

/-- Both pads. -/
structure Both where
  two : UInt32
  three : UInt32
  deriving DecidableEq

/-- A pair of eight-bit words. -/
def Both.Fits (b : Both) : Prop := b.two ≤ 255 ∧ b.three ≤ 255

instance (b : Both) : Decidable b.Fits := inferInstanceAs (Decidable (_ ∧ _))

/-! ## Snapshots -/

/-- `values` is an object; `none` is what is no integer. -/
structure Record where
  base : ℤ
  pins : List ℤ
  values : List (String × Option ℤ)

def record (before : Both) : Record :=
  ⟨base, pins, [("2", some before.two.toNat), ("3", some before.three.toNat)]⟩

/-- A value of one byte. -/
def byteOf : Option (Option ℤ) → Option UInt32
  | some (some v) => if 0 ≤ v ∧ v ≤ 255 then some (UInt32.ofNat v.toNat) else none
  | _ => none

/-- `snapshot['values']`, if it has exactly the two pads and both fit. -/
def Record.originals (r : Record) : Except PadError Both :=
  let invalid : Except PadError Both := .error (.runtime "Invalid saved pad values")
  if r.values.all (fun p => p.1 = "2" ∨ p.1 = "3") then
    match byteOf (r.values.lookup "2"), byteOf (r.values.lookup "3") with
    | some two, some three => .ok ⟨two, three⟩
    | _, _ => invalid
  else invalid

/-! ## The program -/

inductive Action
  | read
  | save (path : String)
  | set (path : String)
  | restore (path : String)
  | selfTest
  deriving DecidableEq

/-- What `parse_args` lets through. -/
structure Arguments where
  action : Action
  driveMa : Option ℕ
  /-- Whether the slew is `fast`. -/
  slew : Option Bool
  driveMa_mem : ∀ d, driveMa = some d → d ∈ drives

/-- What is printed. -/
structure Report where
  identity : Identity
  before : Decoded × Decoded
  after : Decoded × Decoded
  deriving DecidableEq

def report (identity : Identity) (before after : Both) : Report :=
  ⟨identity, (decode before.two, decode before.three), (decode after.two, decode after.three)⟩

def identity : Talk Record Identity := do
  let identity ← askIdentity
  refuseIf (contains identity.model "Raspberry Pi 5 Model B" = false)
    (.runtime "Restricted to the verified Pi5 controller map")
  let iomem ← askIomem
  refuseIf (contains iomem "1f000f0000-1f000fbfff" = false)
    (.runtime "Verified RP1 pad resource absent")
  pure identity

def readBoth : Talk Record Both := do
  let two ← read (offset 2)
  let three ← read (offset 3)
  pure ⟨two, three⟩

/-- `--save` -/
def save (path : String) : Talk Record Report := do
  let identity ← identity
  let before ← readBoth
  create path
  dump path ⟨identity, record before⟩
  pure (report identity before before)

/-- `--set` and `--restore`; `change` is the new pair, from what is there and what was saved. -/
def modify (path : String) (change : Both → Both → Except PadError Both) :
    Talk Record Report := do
  let identity ← identity
  let snapshot ← load path
  refuseIf (snapshot.identity ≠ identity ∨ snapshot.record.base ≠ base ∨ snapshot.record.pins ≠ pins)
    (.runtime "Snapshot identity/register/pins differ")
  let before ← readBoth
  let original ← ofExcept snapshot.record.originals
  let after ← ofExcept (change before original)
  write (offset 2) after.two
  write (offset 3) after.three
  let readback ← readBoth
  refuseIf (readback ≠ after) (.runtime "RP1 pad readback mismatch")
  pure (report identity before after)

def setChange (driveMa : ℕ) (fast : Bool) (before original : Both) : Except PadError Both :=
  if before ≠ original then .error (.runtime "Pads changed since snapshot")
  else do
    let two ← desired before.two driveMa fast
    let three ← desired before.three driveMa fast
    pure ⟨two, three⟩

def restoreChange (before original : Both) : Except PadError Both :=
  if (before.two ^^^ original.two) &&& ~~~outputFields ≠ 0 ∨
      (before.three ^^^ original.three) &&& ~~~outputFields ≠ 0 then
    .error (.runtime "Unrelated pad fields changed; refusing to overwrite them")
  else .ok original

/-- The assertions of `--self-test`. -/
def selfTest : Bool :=
  (List.range 256).all fun value => drives.all fun drive => [false, true].all fun fast =>
    match desired (UInt32.ofNat value) drive fast with
    | .error _ => false
    | .ok result => decide (result &&& ~~~outputFields = UInt32.ofNat value &&& ~~~outputFields) &&
        decide ((decode result).driveMa = drive) && ((decode result).slewFast == fast)

theorem selfTest_passes : selfTest = true := by
  unfold selfTest
  simp only [List.all_eq_true]
  intro value _ drive hdrive fast _
  have hok : desired (UInt32.ofNat value) drive fast = .ok _ := if_pos hdrive
  have hdecode := decode_desired hok
  simp only [hok, desired_outside hok, hdecode.1, hdecode.2, decide_true, Bool.and_self,
    beq_self_eq_true]

/-- `args.set or args.restore` -/
def Arguments.modifying (a : Arguments) : Option String :=
  match a.action with
  | .set path | .restore path => some path
  | _ => none

def Arguments.sets (a : Arguments) : Bool :=
  match a.action with
  | .set _ => true
  | _ => false

def main (a : Arguments) : Talk Record (Option Report) := do
  refuseIf (a.sets ≠ (a.driveMa.isSome && a.slew.isSome))
    (.usage "--set SNAPSHOT requires --drive-ma and --slew")
  refuseIf (a.sets = false ∧ (a.driveMa.isSome ∨ a.slew.isSome))
    (.usage "Drive/slew options require --set")
  match a.action with
  | .selfTest => do
    refuseIf (selfTest = false) .assertion
    pure none
  | .read => do
    let identity ← identity
    let before ← readBoth
    pure (some (report identity before before))
  | .save path => do
    let report ← save path
    pure (some report)
  | .set path => do
    let report ← modify path (setChange (a.driveMa.getD 0) (a.slew.getD false))
    pure (some report)
  | .restore path => do
    let report ← modify path restoreChange
    pure (some report)

/-- A pad has eight bits. -/
def tool : Tool Record Arguments (Option Report) := ⟨main, Fields.insert 0xff⟩

/-! ## What a run leaves alone -/

def outputs (o : ℕ) : UInt32 := if o = offset 2 ∨ o = offset 3 then outputFields else 0

/-- A change is one of the output fields. -/
def Changes (before after : Both) : Prop :=
  after.two &&& ~~~outputFields = before.two &&& ~~~outputFields ∧
    after.three &&& ~~~outputFields = before.three &&& ~~~outputFields

theorem setChange_desired {driveMa : ℕ} {fast : Bool} {before original after : Both}
    (h : setChange driveMa fast before original = .ok after) :
    desired before.two driveMa fast = .ok after.two ∧
      desired before.three driveMa fast = .ok after.three := by
  unfold setChange at h
  split_ifs at h
  rcases htwo : desired before.two driveMa fast with e | two
  · rw [htwo] at h
    cases h
  · rcases hthree : desired before.three driveMa fast with e | three
    · rw [htwo, hthree] at h
      cases h
    · rw [htwo, hthree] at h
      cases h
      exact ⟨rfl, rfl⟩

theorem setChange_changes {driveMa : ℕ} {fast : Bool} {before original after : Both}
    (h : setChange driveMa fast before original = .ok after) : Changes before after := by
  obtain ⟨htwo, hthree⟩ := setChange_desired h
  exact ⟨desired_outside htwo, desired_outside hthree⟩

theorem restoreChange_changes {before original after : Both}
    (h : restoreChange before original = .ok after) : Changes before after ∧ after = original := by
  unfold restoreChange at h
  split_ifs at h with hdiffer
  cases h
  obtain ⟨htwo, hthree⟩ := not_or.mp hdiffer
  exact ⟨⟨(Fields.xor_and_eq_zero.mp (not_not.mp htwo)).symm,
    (Fields.xor_and_eq_zero.mp (not_not.mp hthree)).symm⟩, rfl⟩

section

variable {m : Machine Record} {I : Machine Record → Prop}

theorem always_readBoth (hI : I m) : readBoth.Always (Machine.answer tool.latch) I
    (fun v m' => m' = m ∧ v = ⟨m.page (offset 2), m.page (offset 3)⟩) m := by
  refine (always_read hI (offset 2)).bind ?_
  rintro two m - ⟨rfl, rfl⟩
  refine (always_read hI (offset 3)).bind ?_
  rintro three m - ⟨rfl, rfl⟩
  exact .pure hI ⟨rfl, rfl⟩

/-- The machine is the one that the tool is for. -/
def Verified (m : Machine Record) : Prop :=
  contains m.identity.model "Raspberry Pi 5 Model B" = true ∧
    contains m.iomem "1f000f0000-1f000fbfff" = true

theorem always_ident (hI : I m) : identity.Always (Machine.answer tool.latch) I
    (fun v m' => m' = m ∧ v = m.identity ∧ Verified m) m := by
  refine (always_identity hI).bind ?_
  rintro identity m - ⟨rfl, rfl⟩
  refine (always_refuseIf hI _ _).bind ?_
  rintro _ m - ⟨rfl, hmodel⟩
  refine (always_iomem hI).bind ?_
  rintro iomem m - ⟨rfl, rfl⟩
  refine (always_refuseIf hI _ _).bind ?_
  rintro _ m - ⟨rfl, hiomem⟩
  exact .pure hI ⟨rfl, rfl, by simpa using hmodel, by simpa using hiomem⟩

def pads (m : Machine Record) : Both := ⟨m.page (offset 2), m.page (offset 3)⟩

theorem always_save (path : String) : (save path).Always (Machine.answer tool.latch)
    (Kept outputs m) (fun r m' => r = report m.identity (pads m) (pads m) ∧ Verified m ∧
      SavedAs path (record (pads m)) m m') m := by
  refine (always_ident (.refl m)).bind ?_
  rintro identity m - ⟨rfl, rfl, hverified⟩
  refine (always_readBoth (.refl m)).bind ?_
  rintro before m - ⟨rfl, rfl⟩
  refine (always_create (.refl m) fun hnew => (Kept.refl m).setFile hnew _).bind ?_
  rintro _ _ hkept ⟨hnew, rfl⟩
  refine (always_dump hkept (hkept.setFile hnew _)).bind ?_
  rintro _ _ hkept' rfl
  exact .pure hkept' ⟨rfl, hverified, rfl, rfl, rfl, Function.update_self ..⟩

/-- The file is a snapshot of this boot, and the pads are as `change` says. -/
structure Modified (path : String) (change : Both → Both → Except PadError Both)
    (m : Machine Record) (r : Report) (m' : Machine Record) : Prop where
  file : ∃ record, m.files path = some (some ⟨m.identity, record⟩)
  change : ∃ original, change (pads m) original = .ok (pads m')
  report : r = report m.identity (pads m) (pads m')

theorem always_modify {path : String} {change : Both → Both → Except PadError Both}
    (hchange : ∀ before original after, change before original = .ok after →
      Changes before after) : (modify path change).Always (Machine.answer tool.latch)
    (Kept outputs m) (Modified path change m) m := by
  refine (always_ident (.refl m)).bind ?_
  rintro identity m - ⟨rfl, rfl, -⟩
  refine (always_load (.refl m) path).bind ?_
  rintro snapshot m - ⟨rfl, hfile⟩
  refine (always_refuseIf (.refl m) _ _).bind ?_
  rintro _ m - ⟨rfl, hsame⟩
  refine (always_readBoth (.refl m)).bind ?_
  rintro before m - ⟨rfl, rfl⟩
  refine (always_ofExcept (.refl m) _).bind ?_
  rintro original m - ⟨rfl, -⟩
  refine (always_ofExcept (.refl m) _).bind ?_
  rintro after m - ⟨rfl, hafter⟩
  obtain ⟨htwo, hthree⟩ := hchange _ _ _ hafter
  have hsaved : ∃ r, m.files path = some (some ⟨m.identity, r⟩) := by
    obtain ⟨identity, r⟩ := snapshot
    exact ⟨r, (not_not.mp (not_or.mp hsame).1 : identity = m.identity) ▸ hfile⟩
  have hkept : Kept outputs m
      (m.setRegister (offset 2) (tool.latch after.two (m.page (offset 2)))) :=
    (Kept.refl m).setRegister (Fields.insert_and htwo)
  refine (always_write (.refl m) hkept).bind ?_
  rintro _ _ - rfl
  refine (always_write hkept (hkept.setRegister ?_)).bind ?_
  · rw [Machine.page_setRegister_of_ne _ (by decide)]
    exact Fields.insert_and hthree
  rintro _ _ hkept' rfl
  refine (always_readBoth hkept').bind ?_
  rintro readback m' - ⟨rfl, rfl⟩
  refine (always_refuseIf hkept' _ _).bind ?_
  rintro _ m' - ⟨rfl, hreadback⟩
  have hpads := (not_not.mp hreadback).symm
  exact .pure hkept' ⟨hsaved, ⟨original, hafter.trans (congrArg Except.ok hpads)⟩,
    congrArg (report m.identity (pads m)) hpads⟩

/-- What a run that comes to its end has done and printed. -/
def Done (a : Arguments) (m : Machine Record) (r : Option Report) (m' : Machine Record) : Prop :=
  match a.action, r with
  | .selfTest, none => m' = m
  | .read, some r => m' = m ∧ r = report m.identity (pads m) (pads m)
  | .save path, some r => r = report m.identity (pads m) (pads m) ∧ Verified m ∧
      SavedAs path (record (pads m)) m m'
  | .set path, some r => ∃ driveMa fast, a.driveMa = some driveMa ∧ a.slew = some fast ∧
      Modified path (setChange driveMa fast) m r m'
  | .restore path, some r => Modified path restoreChange m r m'
  | _, _ => False

theorem always_main (a : Arguments) :
    (main a).Always (Machine.answer tool.latch) (Kept outputs m) (Done a m) m := by
  obtain ⟨action, driveMa, slew, _⟩ := a
  refine (always_refuseIf (.refl m) _ _).bind ?_
  rintro _ m - ⟨rfl, hused⟩
  refine (always_refuseIf (.refl m) _ _).bind ?_
  rintro _ m - ⟨rfl, -⟩
  cases action with
  | selfTest =>
    rw [selfTest_passes]
    refine (always_refuseIf (.refl m) (true = false) .assertion).bind ?_
    rintro _ m - ⟨rfl, -⟩
    exact .pure (.refl m) rfl
  | read =>
    refine (always_ident (.refl m)).bind ?_
    rintro identity m - ⟨rfl, rfl, -⟩
    refine (always_readBoth (.refl m)).bind ?_
    rintro before m - ⟨rfl, rfl⟩
    exact .pure (.refl m) ⟨rfl, rfl⟩
  | save path =>
    refine (always_save path).bind ?_
    exact fun report m' hkept hsaved => .pure hkept hsaved
  | set path =>
    have hgiven : driveMa.isSome = true ∧ slew.isSome = true := by
      simpa [Arguments.sets] using not_not.mp hused
    obtain ⟨d, rfl⟩ := Option.isSome_iff_exists.mp hgiven.1
    obtain ⟨f, rfl⟩ := Option.isSome_iff_exists.mp hgiven.2
    refine (always_modify fun _ _ _ => setChange_changes).bind ?_
    exact fun report m' hkept hset => .pure hkept ⟨d, f, rfl, rfl, hset⟩
  | restore path =>
    refine (always_modify fun _ _ _ h => (restoreChange_changes h).1).bind ?_
    exact fun report m' hkept hrestored => .pure hkept hrestored

end

theorem careful : tool.Careful outputs :=
  fun a left _ => (Tool.always_run (always_main a) left).1

/-! ## A snapshot of another boot -/

theorem always_stale {m : Machine Record} {path : String} {snapshot : Snapshot Record}
    (hfile : m.files path = some (some snapshot)) (hother : snapshot.identity ≠ m.identity)
    {a : Arguments} (ha : a.modifying = some path) :
    (main a).Always (Machine.answer tool.latch) (· = m) (fun _ _ => False) m := by
  have hmodify : ∀ change, (modify path change).Always (Machine.answer tool.latch) (· = m)
      (fun _ _ => False) m := by
    intro change
    refine (always_ident (I := (· = m)) rfl).bind ?_
    rintro identity m - ⟨rfl, rfl, -⟩
    refine (always_load (I := (· = m)) rfl path).bind ?_
    rintro loaded m - ⟨rfl, hloaded⟩
    refine (always_refuseIf (I := (· = m)) rfl _ _).bind ?_
    rintro _ m - ⟨rfl, hsame⟩
    rw [hfile] at hloaded
    cases hloaded
    exact absurd (.inl hother) hsame
  obtain ⟨action, driveMa, slew, _⟩ := a
  refine (always_refuseIf (I := (· = m)) rfl _ _).bind ?_
  rintro _ m - ⟨rfl, -⟩
  refine (always_refuseIf (I := (· = m)) rfl _ _).bind ?_
  rintro _ m - ⟨rfl, -⟩
  cases action with
  | set path' =>
    cases ha
    exact (hmodify _).bind fun _ _ _ h => h.elim
  | restore path' =>
    cases ha
    exact (hmodify _).bind fun _ _ _ h => h.elim
  | _ => cases ha

/-! ## Restoring -/

section

variable {m m' : Machine Record} {path : String}

theorem run_identity (h : Verified m) {f : Identity → Talk Record Report} :
    (identity >>= f).run (Machine.answer tool.latch) m =
      (f m.identity).run (Machine.answer tool.latch) m := by
  refine Dialogue.run_bind_ok ?_
  refine (Dialogue.run_call_bind (a := m.identity) rfl).trans ?_
  rw [run_refuseIf (by simp [h.1])]
  refine (Dialogue.run_call_bind (a := m.iomem) rfl).trans ?_
  rw [run_refuseIf (by simp [h.2])]
  rfl

theorem run_readBoth {f : Both → Talk Record Report} :
    (readBoth >>= f).run (Machine.answer tool.latch) m =
      (f (pads m)).run (Machine.answer tool.latch) m :=
  Dialogue.run_bind_ok rfl

theorem byteOf_toNat (word : UInt32) :
    byteOf (some (some (word.toNat : ℤ))) = if word ≤ 255 then some word else none := by
  have hle : (0 ≤ (word.toNat : ℤ) ∧ (word.toNat : ℤ) ≤ 255) ↔ word ≤ 255 := by
    rw [UInt32.le_iff_toNat_le]
    have h255 : (255 : UInt32).toNat = 255 := rfl
    omega
  rw [byteOf, if_congr hle rfl rfl, Int.toNat_natCast, UInt32.ofNat_toNat]

theorem originals_record (b : Both) : (record b).originals =
    if b.Fits then .ok b
    else .error (.runtime "Invalid saved pad values") := by
  have htwo : (record b).values.lookup "2" = some (some (b.two.toNat : ℤ)) := rfl
  have hthree : (record b).values.lookup "3" = some (some (b.three.toNat : ℤ)) := rfl
  have hall : (record b).values.all (fun p => p.1 = "2" ∨ p.1 = "3") = true := rfl
  rw [Record.originals, if_pos hall, htwo, hthree, byteOf_toNat, byteOf_toNat]
  by_cases h2 : b.two ≤ 255 <;> by_cases h3 : b.three ≤ 255 <;>
    simp only [Both.Fits, h2, h3, if_true, if_false, and_self, and_true, and_false]

/-- The output fields are all that the saved pair may differ in. -/
theorem restoreChange_of_changes {before original : Both} (h : Changes before original) :
    restoreChange before original = .ok original := by
  rw [restoreChange, if_neg]
  rintro (hne | hne)
  · exact hne (Fields.xor_and_eq_zero.mpr h.1.symm)
  · exact hne (Fields.xor_and_eq_zero.mpr h.2.symm)

theorem latch_eq {old value : UInt32}
    (h : value &&& ~~~outputFields = old &&& ~~~outputFields) : tool.latch value old = value :=
  Fields.insert_eq (m := outputFields) (by decide) h

/-- The restored machine. -/
def restored (m : Machine Record) (b : Both) : Machine Record :=
  (m.setRegister (offset 2) b.two).setRegister (offset 3) b.three

theorem run_restore {b : Both} (hv : Verified m)
    (hfile : m.files path = some (some ⟨m.identity, record b⟩)) (hb : Changes (pads m) b) :
    (modify path restoreChange).run (Machine.answer tool.latch) m =
      if b.Fits then
        (.ok (report m.identity (pads m) b), restored m b)
      else (.error (.runtime "Invalid saved pad values"), m) := by
  rw [modify, run_identity hv, run_load hfile, run_refuseIf (by simp [record]), run_readBoth,
    originals_record]
  split_ifs with hle
  · refine (Dialogue.run_bind_ok rfl).trans ?_
    rw [restoreChange_of_changes hb]
    refine (Dialogue.run_bind_ok rfl).trans ?_
    have htwo : tool.latch b.two (m.page (offset 2)) = b.two := latch_eq hb.1
    have hthree : tool.latch b.three ((m.setRegister (offset 2) b.two).page (offset 3)) =
        b.three := by
      rw [Machine.page_setRegister_of_ne _ (by decide)]
      exact latch_eq hb.2
    have hreadback : pads (restored m b) = b := by
      rw [pads, restored, Machine.page_setRegister, Machine.page_setRegister_of_ne _ (by decide),
        Machine.page_setRegister]
    rw [run_write htwo, run_write hthree]
    show (readBoth >>= _).run _ (restored m b) = _
    rw [run_readBoth, run_refuseIf (by simp [hreadback])]
    rfl
  · rfl

end

def saving (path : String) : Arguments := ⟨.save path, none, none, no_drive drives⟩
def restoring (path : String) : Arguments := ⟨.restore path, none, none, no_drive drives⟩

theorem run_restoring {b : Both} {m : Machine Record} {path : String} (hv : Verified m)
    (hfile : m.files path = some (some ⟨m.identity, record b⟩)) (hb : Changes (pads m) b) :
    tool.run (restoring path) none m =
      if b.Fits then (.ok (some (report m.identity (pads m) b)), restored m b)
      else (.error (.runtime "Invalid saved pad values"), m) := by
  have hmain : (main (restoring path)).run (Machine.answer tool.latch) m =
      (modify path restoreChange >>= fun r => pure (some r)).run (Machine.answer tool.latch) m := rfl
  refine (tool.run_whole _ m).trans (hmain.trans ?_)
  rw [Dialogue.run_bind, run_restore hv hfile hb]
  by_cases hfits : b.Fits
  · rw [if_pos hfits, if_pos hfits]
    rfl
  · rw [if_neg hfits, if_neg hfits]

/-- The words agree off the masks, and the pads are what they were: so is the whole page. -/
theorem page_restored {m m' : Machine Record}
    (hpage : ∀ o, m'.page o &&& ~~~outputs o = m.page o &&& ~~~outputs o) :
    (restored m' (pads m)).page = m.page := by
  funext o
  by_cases h3 : o = offset 3
  · subst h3
    exact Machine.page_setRegister _ _ _
  · rw [restored, Machine.page_setRegister_of_ne _ h3]
    by_cases h2 : o = offset 2
    · subst h2
      exact Machine.page_setRegister _ _ _
    · rw [Machine.page_setRegister_of_ne _ h2]
      have ho := hpage o
      rw [outputs, if_neg (not_or.mpr ⟨h2, h3⟩)] at ho
      simpa using ho

theorem restore_exact {m : Machine Record} {path : String} {left : Option ℕ} {r : Option Report}
    (hsave : (tool.run (saving path) left m).1 = .ok r) {events : List (Event Record Arguments)}
    (hspares : ∀ e ∈ events, e.Spares path) :
    let m' := tool.history (tool.run (saving path) left m).2 events
    ((∀ e ∈ events, e.Quiet) →
      (∀ o, m'.page o &&& ~~~outputs o = m.page o &&& ~~~outputs o) ∧
      ((tool.run (restoring path) none m').1.isOk = true ↔ (pads m).Fits) ∧
      ((pads m).Fits → (tool.run (restoring path) none m').2.page = m.page)) ∧
    (m'.identity ≠ m.identity → ∀ (a : Arguments) left', a.modifying = some path →
      (tool.run a left' m').1.isOk = false ∧ (tool.run a left' m').2 = m') := by
  intro m'
  obtain ⟨hverified, hsaved⟩ : Verified m ∧
      SavedAs path (record (pads m)) m (tool.run (saving path) left m).2 := by
    have hdone := (Tool.always_run (always_main (m := m) (saving path)) left).2 r hsave
    rcases r with _ | r
    · exact hdone.elim
    · exact hdone.2
  constructor
  · intro hquiet
    obtain ⟨hidentity, hiomem, hpage, hfile⟩ := careful.history_saved hsaved hspares hquiet
    have hv : Verified m' := by
      rw [Verified, hidentity, hiomem]
      exact hverified
    have hb : Changes (pads m') (pads m) := ⟨(hpage (offset 2)).symm, (hpage (offset 3)).symm⟩
    have hrun := run_restoring hv hfile hb
    refine ⟨hpage, ?_, fun hfits => ?_⟩
    · rw [hrun]
      by_cases hfits : (pads m).Fits
      · rw [if_pos hfits]
        exact iff_of_true rfl hfits
      · rw [if_neg hfits]
        exact iff_of_false (by rintro ⟨⟩) hfits
    · rw [hrun, if_pos hfits]
      exact page_restored hpage
  · intro hother a left' ha
    have hstale := Tool.always_run
      (always_stale (careful.history_file hsaved.file hspares) hother.symm ha) left'
    refine ⟨?_, hstale.1⟩
    rcases hresult : (tool.run a left' m').1 with e | v
    · rfl
    · exact (hstale.2 v hresult).elim

/-- A Pi 5 with 4 mA and slow slew on both pads. -/
def bench : Machine Record where
  identity := ⟨"Raspberry Pi 5 Model B Rev 1.0", "bench", "0b5c"⟩
  iomem := "1f000f0000-1f000fbfff : pinctrl"
  page o := if o = offset 2 ∨ o = offset 3 then 0x5a else 0
  files _ := none

theorem drive_mem : ∀ d, some 12 = some d → d ∈ drives := by
  rintro _ ⟨⟩
  decide

/-- A run of `--set` is killed between its two writes. -/
theorem restore_exact_torn :
    (tool.run (restoring "pads.json") none
      (tool.history (tool.run (saving "pads.json") none bench).2
        [.tool ⟨.set "pads.json", some 12, some true, drive_mem⟩ (some 6)])).2.page = bench.page := by
  have hsave : (tool.run (saving "pads.json") none bench).1 =
      .ok (some (report bench.identity (pads bench) (pads bench))) := by
    rfl
  refine ((restore_exact hsave ?_).1 ?_).2.2 (by decide)
  · simp [Event.Spares]
  · simp [Event.Quiet]

/-! ## Setting the pads -/

/-- A run of `--set` that comes to its end has set both pads and left everything else. -/
theorem set_exact {a : Arguments} {left : Option ℕ} {m : Machine Record} {r : Option Report}
    {path : String} (haction : a.action = .set path) (hok : (tool.run a left m).1 = .ok r) :
    (∃ driveMa fast, a.driveMa = some driveMa ∧ a.slew = some fast ∧
      ∀ v ∈ [(pads (tool.run a left m).2).two, (pads (tool.run a left m).2).three],
        (decode v).driveMa = driveMa ∧ (decode v).slewFast = fast) ∧
      ∀ o, (tool.run a left m).2.page o &&& ~~~outputs o = m.page o &&& ~~~outputs o := by
  refine ⟨?_, (careful a left m).page⟩
  have hdone := (Tool.always_run (always_main (m := m) a) left).2 r hok
  unfold Done at hdone
  rw [haction] at hdone
  rcases r with _ | r
  · exact hdone.elim
  · obtain ⟨driveMa, fast, hdrive, hslew, hmodified⟩ := hdone
    refine ⟨driveMa, fast, hdrive, hslew, ?_⟩
    obtain ⟨original, hchange⟩ := hmodified.change
    obtain ⟨htwo, hthree⟩ := setChange_desired hchange
    intro v hv
    rcases List.mem_pair.mp hv with rfl | rfl
    · exact decode_desired htwo
    · exact decode_desired hthree

/-- 12 mA and fast slew, after a `--save` in the same boot. -/
theorem set_exact_fast :
    ∃ driveMa fast, some 12 = some driveMa ∧ some true = some fast ∧
      ∀ v ∈ [(pads (tool.run ⟨.set "pads.json", some 12, some true, drive_mem⟩ none
          (tool.run (saving "pads.json") none bench).2).2).two,
        (pads (tool.run ⟨.set "pads.json", some 12, some true, drive_mem⟩ none
          (tool.run (saving "pads.json") none bench).2).2).three],
        (decode v).driveMa = driveMa ∧ (decode v).slewFast = fast := by
  have hset : ∃ r, (tool.run ⟨.set "pads.json", some 12, some true, drive_mem⟩ none
      (tool.run (saving "pads.json") none bench).2).1 = .ok (some r) := ⟨_, rfl⟩
  obtain ⟨r, hset⟩ := hset
  exact (set_exact rfl hset).1

end BscTarget.Pads.Rp1
