import Mathlib.Data.Nat.Notation
import Mathlib.Logic.Function.Basic
import BscTarget.Lib.Dialogues
import BscTarget.Lib.Fields

/-!
# Tools that change pads

The two pad tools read a page of registers, save what it holds in a new file, and later change the
registers or restore them from that file. A tool is a dialogue with the machine, and may be killed
between any two of its calls. What no run touches is `Kept`; a history of runs, of edits of other
files and of reboots keeps a saved file, and until the next reboot also the rest (`Kept.history`).
-/

namespace BscTarget.Pads

/-! ## The machine -/

structure Identity where
  model : String
  host : String
  bootId : String
  deriving DecidableEq

/-- `κ` is what a tool records besides the identity. -/
structure Snapshot (κ : Type) where
  identity : Identity
  record : κ

/-- A file holds a snapshot, or nothing that is one. -/
abbrev Content (κ : Type) : Type := Option (Snapshot κ)

structure Machine (κ : Type) where
  /-- `/proc/device-tree/model` without the NUL bytes at its end, the host name, and `boot_id`. -/
  identity : Identity
  /-- `/proc/iomem` -/
  iomem : String
  /-- The registers of the page, by their offsets. -/
  page : ℕ → UInt32
  files : String → Option (Content κ)

inductive PadError
  /-- `p.error` -/
  | usage (message : String)
  | runtime (message : String)
  | value (message : String)
  | assertion
  /-- The system refused a call, or a file is no snapshot. -/
  | system
  | killed
  deriving DecidableEq

/-! ## What a tool asks -/

inductive Ask (κ : Type)
  | identity
  | iomem
  | load (path : String)
  /-- `open("x")` -/
  | create (path : String)
  | dump (path : String) (snapshot : Snapshot κ)
  | read (offset : ℕ)
  | write (offset : ℕ) (value : UInt32)

def Ask.Answer {κ : Type} : Ask κ → Type
  | .identity => Identity
  | .iomem => String
  | .load _ => Snapshot κ
  | .create _ | .dump .. | .write .. => Unit
  | .read _ => UInt32

abbrev Talk (κ β : Type) : Type := Dialogue (Ask κ) Ask.Answer PadError β

variable {κ α β : Type}

def askIdentity : Talk κ Identity := Dialogue.call Ask.identity
def askIomem : Talk κ String := Dialogue.call Ask.iomem
def load (path : String) : Talk κ (Snapshot κ) := Dialogue.call (Ask.load path)
def create (path : String) : Talk κ Unit := Dialogue.call (Ask.create path)

def dump (path : String) (snapshot : Snapshot κ) : Talk κ Unit :=
  Dialogue.call (Ask.dump path snapshot)

def read (offset : ℕ) : Talk κ UInt32 := Dialogue.call (Ask.read offset)
def write (offset : ℕ) (value : UInt32) : Talk κ Unit := Dialogue.call (Ask.write offset value)

/-- `if condition: raise e` -/
def refuseIf (condition : Prop) [Decidable condition] (e : PadError) : Talk κ Unit :=
  if condition then .raise e else pure ()

/-- What a pure part returns or raises. -/
def ofExcept (x : Except PadError β) : Talk κ β :=
  match x with
  | .ok v => pure v
  | .error e => .raise e

namespace Machine

def setFile (m : Machine κ) (path : String) (content : Option (Content κ)) : Machine κ :=
  { m with files := Function.update m.files path content }

def setRegister (m : Machine κ) (offset : ℕ) (value : UInt32) : Machine κ :=
  { m with page := Function.update m.page offset value }

@[simp] theorem page_setRegister (m : Machine κ) (offset : ℕ) (value : UInt32) :
    (m.setRegister offset value).page offset = value :=
  Function.update_self ..

theorem page_setRegister_of_ne (m : Machine κ) {offset o : ℕ} {value : UInt32} (h : o ≠ offset) :
    (m.setRegister offset value).page o = m.page o :=
  Function.update_of_ne h ..

/-- `latch` is what a register holds after a value is written over another. -/
def answer (latch : UInt32 → UInt32 → UInt32) :
    Dialogue.Handler (Ask κ) Ask.Answer PadError (Machine κ)
  | .identity, m => (.ok m.identity, m)
  | .iomem, m => (.ok m.iomem, m)
  | .load path, m =>
    match m.files path with
    | some (some snapshot) => (.ok snapshot, m)
    | _ => (.error .system, m)
  | .create path, m =>
    if m.files path = none then (.ok (), m.setFile path (some none)) else (.error .system, m)
  | .dump path snapshot, m => (.ok (), m.setFile path (some (some snapshot)))
  | .read offset, m => (.ok (m.page offset), m)
  | .write offset value, m => (.ok (), m.setRegister offset (latch value (m.page offset)))

end Machine

/-- Nothing is chosen. -/
theorem no_drive (drives : List ℕ) : ∀ d, (none : Option ℕ) = some d → d ∈ drives := by
  intro d hd
  cases hd

/-! ## One call -/

section

variable {latch : UInt32 → UInt32 → UInt32} {I : Machine κ → Prop} {m : Machine κ}

theorem always_refuseIf (hI : I m) (condition : Prop) [Decidable condition] (e : PadError) :
    (refuseIf condition e : Talk κ Unit).Always (Machine.answer latch) I
      (fun _ m' => m' = m ∧ ¬ condition) m := by
  unfold refuseIf
  split_ifs with h
  · exact hI
  · exact .pure hI ⟨rfl, h⟩

theorem always_ofExcept (hI : I m) (x : Except PadError β) :
    (ofExcept x : Talk κ β).Always (Machine.answer latch) I (fun v m' => m' = m ∧ x = .ok v) m := by
  cases x with
  | error e => exact hI
  | ok v => exact .pure hI ⟨rfl, rfl⟩

theorem always_identity (hI : I m) : (askIdentity : Talk κ Identity).Always (Machine.answer latch) I
    (fun v m' => m' = m ∧ v = m.identity) m := by
  refine .call hI hI ?_
  rintro a ⟨⟩
  exact ⟨rfl, rfl⟩

theorem always_iomem (hI : I m) : (askIomem : Talk κ String).Always (Machine.answer latch) I
    (fun v m' => m' = m ∧ v = m.iomem) m := by
  refine .call hI hI ?_
  rintro a ⟨⟩
  exact ⟨rfl, rfl⟩

theorem always_read (hI : I m) (offset : ℕ) : (read offset : Talk κ UInt32).Always
    (Machine.answer latch) I (fun v m' => m' = m ∧ v = m.page offset) m := by
  refine .call hI hI ?_
  rintro a ⟨⟩
  exact ⟨rfl, rfl⟩

theorem always_write {offset : ℕ} {value : UInt32} (hI : I m)
    (hw : I (m.setRegister offset (latch value (m.page offset)))) :
    (write offset value : Talk κ Unit).Always (Machine.answer latch) I
      (fun _ m' => m' = m.setRegister offset (latch value (m.page offset))) m :=
  .call hI hw fun _ _ => rfl

theorem always_load (hI : I m) (path : String) : (load path : Talk κ (Snapshot κ)).Always
    (Machine.answer latch) I (fun v m' => m' = m ∧ m.files path = some (some v)) m := by
  have hbad : (∀ v, m.files path ≠ some (some v)) →
      Machine.answer latch (.load path) m = (.error .system, m) := by
    intro h
    rcases hfile : m.files path with _ | _ | v
    · simp only [Machine.answer, hfile]
    · simp only [Machine.answer, hfile]
    · exact absurd hfile (h v)
  by_cases hfile : ∃ v, m.files path = some (some v)
  · obtain ⟨v, hv⟩ := hfile
    have hanswer : Machine.answer latch (.load path) m = (.ok v, m) := by
      simp only [Machine.answer, hv]
    refine .call hI (by rwa [hanswer]) fun snapshot hok => ?_
    rw [hanswer] at hok ⊢
    cases hok
    exact ⟨rfl, hv⟩
  · have hanswer := hbad (not_exists.mp hfile)
    refine .call hI (by rwa [hanswer]) fun snapshot hok => ?_
    rw [hanswer] at hok
    cases hok

theorem always_create {path : String} (hI : I m)
    (hc : m.files path = none → I (m.setFile path (some none))) :
    (create path : Talk κ Unit).Always (Machine.answer latch) I
      (fun _ m' => m.files path = none ∧ m' = m.setFile path (some none)) m := by
  by_cases hfile : m.files path = none
  · have hanswer : Machine.answer latch (.create path) m =
        (.ok (), m.setFile path (some none)) := if_pos hfile
    exact .call hI (by rw [hanswer]; exact hc hfile) fun _ _ => ⟨hfile, by rw [hanswer]⟩
  · have hanswer : Machine.answer latch (.create path) m = (.error .system, m) := if_neg hfile
    refine .call hI (by rwa [hanswer]) fun _ hok => ?_
    rw [hanswer] at hok
    cases hok

theorem always_dump {path : String} {snapshot : Snapshot κ} (hI : I m)
    (hd : I (m.setFile path (some (some snapshot)))) :
    (dump path snapshot : Talk κ Unit).Always (Machine.answer latch) I
      (fun _ m' => m' = m.setFile path (some (some snapshot))) m :=
  .call hI hd fun _ _ => rfl

theorem run_refuseIf {condition : Prop} [Decidable condition] {e : PadError} {f : Unit → Talk κ β}
    (h : ¬ condition) : (refuseIf condition e >>= f).run (Machine.answer latch) m =
      (f ()).run (Machine.answer latch) m := by
  rw [refuseIf, if_neg h]
  rfl

theorem run_load {path : String} {snapshot : Snapshot κ} {f : Snapshot κ → Talk κ β}
    (h : m.files path = some (some snapshot)) : (load path >>= f).run (Machine.answer latch) m =
      (f snapshot).run (Machine.answer latch) m := by
  refine Dialogue.run_call_bind ?_
  simp only [Machine.answer, h]

theorem run_ofExcept {γ : Type} {x : Except PadError β} {v : β} {f : β → Talk κ γ} (h : x = .ok v) :
    (ofExcept x >>= f).run (Machine.answer latch) m = (f v).run (Machine.answer latch) m := by
  rw [h]
  rfl

theorem run_write {offset : ℕ} {value v : UInt32} {f : Unit → Talk κ β}
    (h : latch value (m.page offset) = v) : (write offset value >>= f).run (Machine.answer latch) m =
      (f ()).run (Machine.answer latch) (m.setRegister offset v) := by
  refine Dialogue.run_call_bind ?_
  rw [← h]
  rfl

end

/-! ## Histories -/

/-- A tool: what it does with its arguments, and the registers it is for. -/
structure Tool (κ α β : Type) where
  main : α → Talk κ β
  latch : UInt32 → UInt32 → UInt32

/-- A run that is killed after `left` calls. -/
def Tool.run (tool : Tool κ α β) (arguments : α) (left : Option ℕ) (m : Machine κ) :
    Except PadError β × Machine κ :=
  let p := (tool.main arguments).run (Dialogue.mortal (Machine.answer tool.latch) .killed) (left, m)
  (p.1, p.2.2)

theorem Tool.always_run {tool : Tool κ α β} {arguments : α} {m : Machine κ}
    {I : Machine κ → Prop} {R : β → Machine κ → Prop}
    (h : (tool.main arguments).Always (Machine.answer tool.latch) I R m) (left : Option ℕ) :
    I (tool.run arguments left m).2 ∧
      ∀ v, (tool.run arguments left m).1 = .ok v → R v (tool.run arguments left m).2 :=
  h.mortal left

theorem Tool.run_whole (tool : Tool κ α β) (arguments : α) (m : Machine κ) :
    tool.run arguments none m = (tool.main arguments).run (Machine.answer tool.latch) m := by
  rw [Tool.run, Dialogue.run_mortal_none]

inductive Event (κ α : Type)
  | tool (arguments : α) (left : Option ℕ)
  /-- A file is written, or removed. -/
  | edit (path : String) (content : Option (Content κ))
  | reboot (bootId : String) (page : ℕ → UInt32)

def Tool.step (tool : Tool κ α β) (m : Machine κ) : Event κ α → Machine κ
  | .tool arguments left => (tool.run arguments left m).2
  | .edit path content => m.setFile path content
  | .reboot bootId page => { m with identity.bootId := bootId, page := page }

def Tool.history (tool : Tool κ α β) (m : Machine κ) (events : List (Event κ α)) : Machine κ :=
  events.foldl tool.step m

/-- The file stays as it is. -/
def Event.Spares (path : String) : Event κ α → Prop
  | .edit path' _ => path' ≠ path
  | _ => True

def Event.Quiet : Event κ α → Prop
  | .reboot .. => False
  | _ => True

/-! ## What stays -/

/-- The machine runs on, with the bits off the masks as they were, and every file is still there. -/
structure Kept (mask : ℕ → UInt32) (m₀ m : Machine κ) : Prop where
  identity : m.identity = m₀.identity
  iomem : m.iomem = m₀.iomem
  page : ∀ o, m.page o &&& ~~~mask o = m₀.page o &&& ~~~mask o
  files : ∀ path content, m₀.files path = some content → m.files path = some content

namespace Kept

variable {mask : ℕ → UInt32} {m₀ m m' : Machine κ}

theorem refl (m : Machine κ) : Kept mask m m := ⟨rfl, rfl, fun _ => rfl, fun _ _ => id⟩

theorem setFile (h : Kept mask m₀ m) {path : String} (hnew : m₀.files path = none)
    (content : Option (Content κ)) : Kept mask m₀ (m.setFile path content) where
  identity := h.identity
  iomem := h.iomem
  page := h.page
  files := by
    intro path' content' hold
    have hne : path' ≠ path := by
      rintro rfl
      rw [hnew] at hold
      cases hold
    show Function.update m.files path content path' = _
    rw [Function.update_of_ne hne]
    exact h.files path' content' hold

theorem setRegister (h : Kept mask m₀ m) {offset : ℕ} {value : UInt32}
    (hv : value &&& ~~~mask offset = m₀.page offset &&& ~~~mask offset) :
    Kept mask m₀ (m.setRegister offset value) where
  identity := h.identity
  iomem := h.iomem
  files := h.files
  page := by
    intro o
    show Function.update m.page offset value o &&& _ = _
    by_cases ho : o = offset
    · subst ho
      rw [Function.update_self]
      exact hv
    · rw [Function.update_of_ne ho]
      exact h.page o

end Kept

/-- Every run keeps what belongs to nobody, wherever it is killed. -/
def Tool.Careful (tool : Tool κ α β) (mask : ℕ → UInt32) : Prop :=
  ∀ arguments left m, Kept mask m (tool.run arguments left m).2

/-- A saved file and the machine that it was saved on. -/
structure SavedAs (path : String) (record : κ) (m m' : Machine κ) : Prop where
  identity : m'.identity = m.identity
  iomem : m'.iomem = m.iomem
  page : m'.page = m.page
  file : m'.files path = some (some ⟨m.identity, record⟩)

namespace Tool.Careful

variable {tool : Tool κ α β} {mask : ℕ → UInt32} {m : Machine κ} {path : String}
  {content : Content κ}

theorem history_file (h : tool.Careful mask) (hfile : m.files path = some content)
    {events : List (Event κ α)} (hspares : ∀ e ∈ events, e.Spares path) :
    (tool.history m events).files path = some content := by
  induction events generalizing m with
  | nil => exact hfile
  | cons e events ih =>
    refine ih ?_ fun e' he' => hspares e' (List.mem_cons_of_mem _ he')
    cases e with
    | tool arguments left => exact (h arguments left m).files path content hfile
    | edit path' content' =>
      have hne : path' ≠ path := hspares _ List.mem_cons_self
      show Function.update m.files path' content' path = _
      rw [Function.update_of_ne hne.symm]
      exact hfile
    | reboot bootId page => exact hfile

/-- What is kept until the next reboot. -/
theorem history_standing (h : tool.Careful mask) {events : List (Event κ α)}
    (hquiet : ∀ e ∈ events, e.Quiet) :
    (tool.history m events).identity = m.identity ∧ (tool.history m events).iomem = m.iomem ∧
      ∀ o, (tool.history m events).page o &&& ~~~mask o = m.page o &&& ~~~mask o := by
  induction events generalizing m with
  | nil => exact ⟨rfl, rfl, fun _ => rfl⟩
  | cons e events ih =>
    obtain ⟨hidentity, hiomem, hpage⟩ :=
      ih (m := tool.step m e) fun e' he' => hquiet e' (List.mem_cons_of_mem _ he')
    have hstep : (tool.step m e).identity = m.identity ∧ (tool.step m e).iomem = m.iomem ∧
        ∀ o, (tool.step m e).page o &&& ~~~mask o = m.page o &&& ~~~mask o := by
      cases e with
      | tool arguments left =>
        have hk := h arguments left m
        exact ⟨hk.identity, hk.iomem, hk.page⟩
      | edit path content => exact ⟨rfl, rfl, fun _ => rfl⟩
      | reboot bootId page => exact (hquiet _ List.mem_cons_self).elim
    exact ⟨hidentity.trans hstep.1, hiomem.trans hstep.2.1,
      fun o => (hpage o).trans (hstep.2.2 o)⟩

/-- A quiet history after a save. -/
theorem history_saved (h : tool.Careful mask) {record : κ} {m' : Machine κ}
    (hsaved : SavedAs path record m m') {events : List (Event κ α)}
    (hspares : ∀ e ∈ events, e.Spares path) (hquiet : ∀ e ∈ events, e.Quiet) :
    (tool.history m' events).identity = m.identity ∧ (tool.history m' events).iomem = m.iomem ∧
      (∀ o, (tool.history m' events).page o &&& ~~~mask o = m.page o &&& ~~~mask o) ∧
      (tool.history m' events).files path =
        some (some ⟨(tool.history m' events).identity, record⟩) := by
  obtain ⟨hidentity, hiomem, hpage⟩ := h.history_standing hquiet (m := m')
  have hfile := h.history_file hsaved.file hspares
  rw [hsaved.identity] at hidentity
  rw [hsaved.page] at hpage
  refine ⟨hidentity, hiomem.trans hsaved.iomem, hpage, ?_⟩
  rw [hidentity]
  exact hfile

end Tool.Careful

end BscTarget.Pads
