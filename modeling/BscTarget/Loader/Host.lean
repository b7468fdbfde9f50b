import Mathlib.Data.Stream.Init
import Mathlib.Logic.Function.Basic

/-!
# The host

What `kernel_target.rs` runs and what it looks at. A command that fails changes nothing; how each
coming command ends, and what each coming look for the device node finds, is given in advance by
streams. The history holds the commands that were run, newest first.
-/

namespace BscTarget.Loader

def moduleName : String := "bcm27xx_bsc_target"

/-- The numerals of `Fin 2` number the overlays. -/
instance overlays_neZero : @NeZero ℕ .ofOfNat0 2 := Nat.instNeZeroSucc

/-- `OVERLAY_NAMES` -/
def overlayNames : Fin 2 → String
  | 0 => "bsc-target-pi3"
  | 1 => "bsc-target-pi4"

def devicePath : String := "/dev/bsc-target0"

structure DriverConfiguration where
  hardwareName : String
  modelContains : String
  overlay : String
  module : String
  device : String
  targetPins : List ℕ

/-! ## Errors -/

inductive ErrorKind
  | unsupported
  | invalidInput
  | alreadyExists
  | notFound
  | timedOut
  | other
  /-- Any kind that the operating system reports. -/
  | system (code : ℕ)
  deriving DecidableEq

structure Error where
  kind : ErrorKind
  message : String
  deriving DecidableEq

/-- The White_Space characters of Unicode. -/
def isWhiteSpace (c : Char) : Bool :=
  let n := c.toNat
  (0x9 ≤ n && n ≤ 0xd) || n == 0x20 || n == 0x85 || n == 0xa0 || n == 0x1680 ||
    (0x2000 ≤ n && n ≤ 0x200a) || n == 0x2028 || n == 0x2029 || n == 0x202f || n == 0x205f ||
    n == 0x3000

/-- `str::trim_end_matches` -/
def trimEnd (p : Char → Bool) (s : String) : String :=
  .ofList (s.toList.reverse.dropWhile p).reverse

/-- `str::trim` -/
def trim (s : String) : String := .ofList ((trimEnd isWhiteSpace s).toList.dropWhile isWhiteSpace)

/-! ## Commands -/

inductive Command
  | dtoverlayList
  | dtoverlayRemove (overlay : String)
  | dtoverlayAdd (directory overlay : String) (parameters : List String)
  | insmod (directory module : String)
  | rmmod (module : String)
  deriving DecidableEq

namespace Command

def program : Command → String
  | dtoverlayList | dtoverlayRemove _ | dtoverlayAdd _ _ _ => "dtoverlay"
  | insmod _ _ => "insmod"
  | rmmod _ => "rmmod"

def arguments : Command → List String
  | dtoverlayList => ["-l"]
  | dtoverlayRemove overlay => ["-r", overlay]
  | dtoverlayAdd directory overlay parameters => "-d" :: directory :: overlay :: parameters
  | insmod directory module => [directory ++ "/" ++ module ++ ".ko"]
  | rmmod module => [module]

end Command

/-- How a command ends. -/
inductive Exit
  | success
  | failure (status stderr : String)
  /-- It could not be executed. -/
  | unstarted (kind : ErrorKind) (error : String)
  deriving DecidableEq

/-- `overlay_loaded` and `module_loaded` of the guard that runs a command; both are down where
there is no guard. -/
structure Flags where
  overlayLoaded : Bool
  moduleLoaded : Bool
  deriving DecidableEq

def Flags.down : Flags := ⟨false, false⟩

structure Entry where
  command : Command
  success : Bool
  flags : Flags
  deriving DecidableEq

structure World where
  /-- `/sys/module` -/
  modules : String → Bool
  /-- How many instances of an overlay are active. -/
  overlays : String → ℕ
  exits : Stream' Exit
  nodes : Stream' Bool
  /-- Milliseconds. -/
  clock : ℕ
  /-- How much longer than asked each coming sleep takes. -/
  lags : Stream' ℕ
  history : List Entry

/-- What a command does when it succeeds. -/
def Command.effect (w : World) : Command → World
  | dtoverlayList => w
  | dtoverlayRemove overlay =>
    { w with overlays := Function.update w.overlays overlay (w.overlays overlay - 1) }
  | dtoverlayAdd _ overlay _ =>
    { w with overlays := Function.update w.overlays overlay (w.overlays overlay + 1) }
  | insmod _ module => { w with modules := Function.update w.modules module true }
  | rmmod module => { w with modules := Function.update w.modules module false }

/-- Code of other projects: the text that `dtoverlay -l` prints, and `{:?}` of a string. -/
structure Outside where
  list : (String → ℕ) → String
  debug : String → String

namespace World

/-- A command has ended. -/
def ran (flags : Flags) (c : Command) (success : Bool) (w : World) : World :=
  { w with exits := w.exits.tail, history := ⟨c, success, flags⟩ :: w.history }

def execute (flags : Flags) (c : Command) (w : World) : Exit × World :=
  match w.exits.head with
  | .success => (.success, c.effect (w.ran flags c true))
  | exit => (exit, w.ran flags c false)

def runCommand (flags : Flags) (c : Command) (w : World) : Except Error Unit × World :=
  match w.execute flags c with
  | (.success, w) => (.ok (), w)
  | (.failure status stderr, w) =>
    (.error ⟨.other, c.program ++ " failed with " ++ status ++ ": " ++ trim stderr⟩, w)
  | (.unstarted kind error, w) =>
    (.error ⟨kind, "cannot execute " ++ c.program ++ ": " ++ error⟩, w)

def activeOverlays (out : Outside) (w : World) : Except Error String × World :=
  match w.execute .down .dtoverlayList with
  | (.success, w) => (.ok (out.list w.overlays), w)
  | (.failure _ _, w) => (.error ⟨.other, "cannot list active device-tree overlays"⟩, w)
  | (.unstarted kind error, w) => (.error ⟨kind, "cannot execute dtoverlay: " ++ error⟩, w)

theorem runCommand_success {w : World} (h : w.exits.head = .success) (flags : Flags) (c : Command) :
    w.runCommand flags c = (.ok (), c.effect (w.ran flags c true)) := by
  rw [runCommand, execute, h]

theorem runCommand_failure {w : World} (h : w.exits.head ≠ .success) (flags : Flags)
    (c : Command) : ∃ e, w.runCommand flags c = (.error e, w.ran flags c false) := by
  rw [runCommand, execute]
  rcases hexit : w.exits.head with _ | ⟨status, stderr⟩ | ⟨kind, error⟩
  · exact absurd hexit h
  · exact ⟨_, rfl⟩
  · exact ⟨_, rfl⟩

theorem activeOverlays_success {w : World} (h : w.exits.head = .success) (out : Outside) :
    w.activeOverlays out = (.ok (out.list w.overlays), w.ran .down .dtoverlayList true) := by
  rw [activeOverlays, execute, h]
  rfl

theorem activeOverlays_failure {w : World} (h : w.exits.head ≠ .success) (out : Outside) :
    ∃ e, w.activeOverlays out = (.error e, w.ran .down .dtoverlayList false) := by
  rw [activeOverlays, execute]
  rcases hexit : w.exits.head with _ | ⟨status, stderr⟩ | ⟨kind, error⟩
  · exact absurd hexit h
  · exact ⟨_, rfl⟩
  · exact ⟨_, rfl⟩

/-- The device node has been looked for. -/
def looked (w : World) : World := { w with nodes := w.nodes.tail }

/-- `device.exists()` -/
def deviceExists (w : World) : Bool × World := (w.nodes.head, w.looked)

/-- `thread::sleep` -/
def sleep (milliseconds : ℕ) (w : World) : World :=
  { w with clock := w.clock + milliseconds + w.lags.head, lags := w.lags.tail }

end World

/-- The next `n` commands succeed. -/
def AllSucceed (n : ℕ) (exits : Stream' Exit) : Prop := ∀ k < n, exits.get k = .success

theorem allSucceed_succ {n : ℕ} {exits : Stream' Exit} :
    AllSucceed (n + 1) exits ↔ exits.head = .success ∧ AllSucceed n exits.tail := by
  constructor
  · exact fun h => ⟨h 0 (Nat.succ_pos n), fun k hk => h (k + 1) (Nat.succ_lt_succ hk)⟩
  · rintro ⟨h₀, h⟩ k hk
    cases k with
    | zero => exact h₀
    | succ k => exact h k (Nat.lt_of_succ_lt_succ hk)

theorem not_allSucceed {n : ℕ} {exits : Stream' Exit} :
    ¬ AllSucceed n exits ↔ ∃ k < n, exits.get k ≠ .success := by
  simp [AllSucceed]

/-! ## The list of overlays -/

/-- `char::is_ascii_whitespace` -/
def isAsciiWhitespace (c : Char) : Bool :=
  c == ' ' || c == '\t' || c == '\n' || c == '\x0c' || c == '\r'

/-- `str::split_ascii_whitespace` -/
def splitAsciiWhitespace (s : String) : List (List Char) :=
  (s.toList.splitOnP isAsciiWhitespace).filter (· ≠ [])

def overlayIsActive (list overlay : String) : Bool :=
  (splitAsciiWhitespace list).any (· == overlay.toList)

/-- `dtoverlay -l` lists the overlays named `name` that are active. -/
def Outside.Lists (out : Outside) (name : String) : Prop :=
  ∀ overlays : String → ℕ, overlayIsActive (out.list overlays) name = true ↔ 0 < overlays name

/-! ### What `dtoverlay -l` prints -/

/-- The lines of the list from the number `i` on. -/
def listLines : ℕ → List String → List Char
  | _, [] => []
  | i, name :: names =>
    Nat.toDigits 10 i ++ ':' :: ' ' :: ' ' :: name.toList ++ '
' :: listLines (i + 1) names

/-- `Overlays (in load order):` -/
def listHeader : List Char :=
  "Overlays".toList ++ ' ' :: ("(in".toList ++ ' ' :: ("load".toList ++ ' ' ::
    ("order):".toList ++ ['\n'])))

/-- A list of both overlays as `dtoverlay` prints it, and plain text between quotes. -/
def listing : Outside where
  list overlays :=
    let names := List.replicate (overlays (overlayNames 0)) (overlayNames 0) ++
      List.replicate (overlays (overlayNames 1)) (overlayNames 1)
    if names = [] then "No overlays loaded\n" else .ofList (listHeader ++ listLines 0 names)
  debug s := "\"" ++ s ++ "\""

theorem not_blank {word : List Char} (h : word.all (!isAsciiWhitespace ·) = true) :
    ∀ c ∈ word, isAsciiWhitespace c = false := by simpa using h

/-- A word before a blank is one of the words. -/
theorem words_append {word : List Char} (hne : word ≠ [])
    (hword : ∀ c ∈ word, isAsciiWhitespace c = false) (sep : Char)
    (hsep : isAsciiWhitespace sep = true) (rest : List Char) :
    splitAsciiWhitespace (.ofList (word ++ sep :: rest)) =
      word :: splitAsciiWhitespace (.ofList rest) := by
  simp only [splitAsciiWhitespace, String.toList_ofList]
  rw [List.splitOnP_append_cons_of_forall_mem hword sep hsep, List.filter_cons_of_pos (by simpa)]

theorem words_blank (sep : Char) (hsep : isAsciiWhitespace sep = true) (rest : List Char) :
    splitAsciiWhitespace (.ofList (sep :: rest)) = splitAsciiWhitespace (.ofList rest) := by
  simp only [splitAsciiWhitespace, String.toList_ofList]
  rw [List.splitOnP_cons_eq_if_modifyHead, if_pos hsep, List.filter_cons_of_neg (by simp)]

/-- A name is a word of its own in the list. -/
def IsWord (name : String) : Prop :=
  name.toList ≠ [] ∧ ∀ c ∈ name.toList, isAsciiWhitespace c = false

theorem digits_not_blank (i : ℕ) :
    ∀ c ∈ Nat.toDigits 10 i ++ [':'], isAsciiWhitespace c = false := by
  intro c hc
  rcases List.mem_append.mp hc with hc | hc
  · have hdigit := Nat.isDigit_of_mem_toDigits (by decide) (by decide) hc
    by_contra h
    have hblank : isAsciiWhitespace c = true := by simpa using h
    simp only [isAsciiWhitespace, Bool.or_eq_true, beq_iff_eq] at hblank
    rcases hblank with (((rfl | rfl) | rfl) | rfl) | rfl <;> simp [Char.isDigit] at hdigit
  · rw [List.mem_singleton.mp hc]
    decide

theorem words_line {name : String} (h : IsWord name) (i : ℕ) (names : List String) :
    splitAsciiWhitespace (.ofList (listLines i (name :: names))) =
      (Nat.toDigits 10 i ++ [':']) :: name.toList ::
        splitAsciiWhitespace (.ofList (listLines (i + 1) names)) := by
  have hline : listLines i (name :: names) = (Nat.toDigits 10 i ++ [':']) ++ ' ' :: ' ' ::
      (name.toList ++ '\n' :: listLines (i + 1) names) := by
    simp [listLines]
  rw [hline, words_append (by simp) (digits_not_blank i) ' ' (by decide),
    words_blank ' ' (by decide), words_append h.1 h.2 '\n' (by decide)]

theorem mem_words_listLines {word : List Char} (hword : ':' ∉ word) : ∀ (names : List String)
    (i : ℕ), (∀ name ∈ names, IsWord name) →
    (word ∈ splitAsciiWhitespace (.ofList (listLines i names)) ↔
      word ∈ names.map String.toList) := by
  intro names
  induction names with
  | nil =>
    intro i _
    simp [listLines, splitAsciiWhitespace]
  | cons name names ih =>
    intro i h
    have hnumber : word ≠ Nat.toDigits 10 i ++ [':'] := by
      rintro rfl
      simp at hword
    rw [words_line (h name List.mem_cons_self), List.mem_cons, List.mem_cons,
      ih (i + 1) fun n hn => h n (List.mem_cons_of_mem _ hn), List.map_cons, List.mem_cons,
      or_iff_right hnumber]

theorem append_four (a b c d rest : List Char) :
    (a ++ ' ' :: (b ++ ' ' :: (c ++ ' ' :: (d ++ ['\n'])))) ++ rest =
      a ++ ' ' :: (b ++ ' ' :: (c ++ ' ' :: (d ++ '\n' :: rest))) := by
  simp

theorem words_list (names : List String) :
    splitAsciiWhitespace (.ofList (listHeader ++ listLines 0 names)) =
      "Overlays".toList :: "(in".toList :: "load".toList :: "order):".toList ::
        splitAsciiWhitespace (.ofList (listLines 0 names)) := by
  have hlist : String.ofList (listHeader ++ listLines 0 names) =
      .ofList ("Overlays".toList ++ ' ' :: ("(in".toList ++ ' ' :: ("load".toList ++ ' ' ::
        ("order):".toList ++ '\n' :: listLines 0 names)))) :=
    congrArg String.ofList (append_four _ _ _ _ _)
  rw [hlist, words_append (by decide) (not_blank (by decide)) ' ' (by decide),
    words_append (by decide) (not_blank (by decide)) ' ' (by decide),
    words_append (by decide) (not_blank (by decide)) ' ' (by decide),
    words_append (by decide) (not_blank (by decide)) '\n' (by decide)]

theorem overlayNames_isWord (i : Fin 2) :
    IsWord (overlayNames i) ∧ ':' ∉ (overlayNames i).toList := by
  match i with
  | 0 => exact ⟨⟨by decide, not_blank (by decide)⟩, by decide⟩
  | 1 => exact ⟨⟨by decide, not_blank (by decide)⟩, by decide⟩

/-- The words of the list that are no numbers are the header and the names. -/
theorem active_list {names : List String} (hnames : ∀ name ∈ names, IsWord name) (i : Fin 2) :
    overlayIsActive (.ofList (listHeader ++ listLines 0 names)) (overlayNames i) = true ↔
      overlayNames i ∈ names := by
  have hhead : ∀ word ∈ ["Overlays".toList, "(in".toList, "load".toList, "order):".toList],
      (overlayNames i).toList ≠ word := by
    match i with
    | 0 => decide
    | 1 => decide
  simp only [List.mem_cons, List.not_mem_nil, or_false, forall_eq_or_imp, forall_eq] at hhead
  obtain ⟨h₁, h₂, h₃, h₄⟩ := hhead
  rw [overlayIsActive, List.any_eq_true, words_list]
  simp only [beq_iff_eq, exists_eq_right, List.mem_cons, h₁, h₂, h₃, h₄, false_or]
  rw [mem_words_listLines (overlayNames_isWord i).2 _ 0 hnames]
  simp only [List.mem_map, String.toList_inj, exists_eq_right]

/-- The list names the overlays that are active. -/
theorem listing_lists (i : Fin 2) : listing.Lists (overlayNames i) := by
  intro overlays
  have hmem : overlayNames i ∈ List.replicate (overlays (overlayNames 0)) (overlayNames 0) ++
      List.replicate (overlays (overlayNames 1)) (overlayNames 1) ↔
        0 < overlays (overlayNames i) := by
    rw [List.mem_append, List.mem_replicate, List.mem_replicate]
    match i with
    | 0 => simp [overlayNames, Nat.pos_iff_ne_zero]
    | 1 => simp [overlayNames, Nat.pos_iff_ne_zero]
  rw [← hmem, listing]
  dsimp only
  split_ifs with hnil
  · rw [hnil]
    match i with
    | 0 => decide
    | 1 => decide
  · refine active_list (fun name hname => ?_) i
    rcases List.mem_append.mp hname with hname | hname
    · rw [(List.mem_replicate.mp hname).2]
      exact (overlayNames_isWord 0).1
    · rw [(List.mem_replicate.mp hname).2]
      exact (overlayNames_isWord 1).1

end BscTarget.Loader
