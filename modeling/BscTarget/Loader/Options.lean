import BscTarget.Display.Parser
import BscTarget.Loader.Guard

/-!
# The command lines

`Options::parse` of `target-driver` and of `virtual-display`, with the parsers of their values.
The first argument is the name of the program.
-/

namespace BscTarget.Loader

/-! ## Values -/

/-- `char::to_digit` -/
def toDigit (radix : ℕ) (c : Char) : Option ℕ :=
  let n :=
    if '0' ≤ c ∧ c ≤ '9' then c.toNat - '0'.toNat
    else if 'a' ≤ c ∧ c ≤ 'z' then c.toNat - 'a'.toNat + 10
    else if 'A' ≤ c ∧ c ≤ 'Z' then c.toNat - 'A'.toNat + 10
    else radix
  if n < radix then some n else none

/-- The digits of a number of so many bits. -/
def parseDigits (radix bits : ℕ) : List Char → ℕ → Option ℕ
  | [], n => some n
  | c :: rest, n =>
    match toDigit radix c with
    | none => none
    | some digit =>
      if n * radix + digit < 2 ^ bits then parseDigits radix bits rest (n * radix + digit) else none

/-- `from_str_radix` of an unsigned type: a plus sign may stand before the digits. -/
def fromStrRadix (radix bits : ℕ) (s : String) : Option ℕ :=
  let digits := if s.toList.head? = some '+' then s.toList.tail else s.toList
  if digits = [] then none else parseDigits radix bits digits 0

/-- `str::strip_prefix` -/
def strip (start s : String) : Option String :=
  if start.toList <+: s.toList then some (.ofList (s.toList.drop start.toList.length)) else none

def IdlePull.parse (value : String) : Except Error IdlePull :=
  if value = "none" then .ok .none
  else if value = "down" then .ok .down
  else if value = "up" then .ok .up
  else .error ⟨.invalidInput, "idle pull must be `none`, `down`, or `up`"⟩

def parseAddress (value : Option String) (default : ℕ) : Except Error ℕ :=
  match value with
  | none => .ok default
  | some value =>
    let parsed :=
      match (strip "0x" value).or (strip "0X" value) with
      | some hex => fromStrRadix 16 16 hex
      | none => fromStrRadix 10 16 value
    match parsed with
    | none => .error ⟨.invalidInput, "invalid I2C address"⟩
    | some parsed =>
      if 0x08 ≤ parsed ∧ parsed ≤ 0x77 then .ok parsed
      else .error ⟨.invalidInput, "choose a non-reserved address in 0x08..=0x77"⟩

def parseGpio (value : String) : Except Error ℕ :=
  let refused : Error := ⟨.invalidInput, "GPIO must be a BCM GPIO number in 0..=53"⟩
  match fromStrRadix 10 32 value with
  | none => .error refused
  | some gpio => if gpio > 53 then .error refused else .ok gpio

def DisplayController.parse (value : String) : Option DisplayController :=
  if value = "ssd1306" then some .ssd1306
  else if value = "sh1106" then some .sh1106
  else none

/-- `str::split_once(',')` -/
def splitComma (value : String) : Option (String × String) :=
  match value.toList.dropWhile (· ≠ ',') with
  | [] => none
  | _ :: right => some (.ofList (value.toList.takeWhile (· ≠ ',')), .ofList right)

def parseButtonOutputs (value : String) : Except Error (ℕ × ℕ) :=
  let refused : Error := ⟨.invalidInput, "--button-outputs requires LEFT,RIGHT GPIO numbers"⟩
  match splitComma value with
  | none => .error refused
  | some (left, right) =>
    match fromStrRadix 10 32 left, fromStrRadix 10 32 right with
    | some left, some right =>
      if left = right then .error ⟨.invalidInput, "button output GPIOs must be different"⟩
      else .ok (left, right)
    | _, _ => .error refused

theorem parseAddress_range {value : Option String} {default address : ℕ}
    (hd : 0x08 ≤ default ∧ default ≤ 0x77) (h : parseAddress value default = .ok address) :
    0x08 ≤ address ∧ address ≤ 0x77 := by
  cases value with
  | none =>
    cases h
    exact hd
  | some value =>
    simp only [parseAddress] at h
    split at h
    · cases h
    · split_ifs at h with hrange
      cases h
      exact hrange

/-! ## `target-driver` -/

namespace TargetDriver

def defaultAddress : ℕ := 0x13

def usage : String :=
  "usage: target-driver [--receive-only] [--ready-gpio GPIO] [--idle-pull none|down|up] " ++
    "[address] [kernel-directory]\n       target-driver --unload"

structure Options where
  unload : Bool
  receiveOnly : Bool
  address : Option String
  kernelDirectory : Option String
  idlePull : IdlePull
  readyGpio : Option ℕ

/-- The variables of `parse`. -/
structure Seen where
  unload : Bool
  receiveOnly : Bool
  idlePull : IdlePull
  readyGpio : Option ℕ
  positionals : List String

def Seen.idle (o : Seen) (value : String) : Except Error Seen := do
  let idlePull ← IdlePull.parse value
  pure { o with idlePull := idlePull }

def Seen.gpio (o : Seen) (value : String) : Except Error Seen := do
  let gpio ← parseGpio value
  pure { o with readyGpio := some gpio }

def onlyOnce : Error := ⟨.invalidInput, "--ready-gpio may be specified only once"⟩

/-- `while index < arguments.len()` -/
def parseLoop : List String → Seen → Except Error Seen
  | [], o => .ok o
  | argument :: rest, o =>
    if argument = "--unload" then parseLoop rest { o with unload := true }
    else if argument = "--receive-only" ∨ argument = "--no-answer" then
      parseLoop rest { o with receiveOnly := true }
    else if argument = "--idle-pull" then
      match rest with
      | [] => .error ⟨.invalidInput, "--idle-pull requires none, down, or up"⟩
      | value :: rest => o.idle value >>= parseLoop rest
    else if let some value := strip "--idle-pull=" argument then
      o.idle value >>= parseLoop rest
    else if argument = "--ready-gpio" then
      if o.readyGpio.isSome then .error onlyOnce
      else
        match rest with
        | [] => .error ⟨.invalidInput, "--ready-gpio requires a GPIO number"⟩
        | value :: rest => o.gpio value >>= parseLoop rest
    else if let some value := strip "--ready-gpio=" argument then
      if o.readyGpio.isSome then .error onlyOnce else o.gpio value >>= parseLoop rest
    else if argument.toList.head? = some '-' then
      .error ⟨.invalidInput, "unknown option " ++ argument⟩
    else parseLoop rest { o with positionals := o.positionals ++ [argument] }

def Options.parse (arguments : List String) : Except Error Options := do
  let o ← parseLoop (arguments.drop 1) ⟨false, false, .none, none, []⟩
  if (o.unload && (o.receiveOnly || o.readyGpio.isSome || !o.positionals.isEmpty ||
      o.idlePull ≠ .none)) || 2 < o.positionals.length then
    .error ⟨.invalidInput, usage⟩
  else
    pure ⟨o.unload, o.receiveOnly, o.positionals[0]?, o.positionals[1]?, o.idlePull, o.readyGpio⟩

end TargetDriver

/-! ## `virtual-display` -/

namespace VirtualDisplay

def defaultAddress : ℕ := 0x3c

def defaultButtonOutputs : ℕ × ℕ := (5, 26)

def usage : String :=
  "usage: virtual-display [--display ssd1306|sh1106] [--title TEXT] " ++
    "[--button-outputs LEFT,RIGHT|--no-button-outputs] [--vsync] [--idle-pull none|down|up] " ++
    "[address] [kernel-directory]\n       virtual-display --unload"

structure Options where
  unload : Bool
  display : Option DisplayController
  title : Option String
  buttonOutputs : Option (ℕ × ℕ)
  vsync : Bool
  address : Option String
  kernelDirectory : Option String
  idlePull : IdlePull
  /-- A display is chosen where nothing is unloaded. -/
  chosen : unload = false → display.isSome = true

/-- The variables of `parse`. -/
structure Seen where
  unload : Bool
  display : Option DisplayController
  title : Option String
  buttonOutputs : Option (ℕ × ℕ)
  buttonOutputsSeen : Bool
  vsync : Bool
  idlePull : IdlePull
  positionals : List String

def Seen.idle (o : Seen) (value : String) : Except Error Seen := do
  let idlePull ← IdlePull.parse value
  pure { o with idlePull := idlePull }

def Seen.buttons (o : Seen) (value : String) : Except Error Seen := do
  let outputs ← parseButtonOutputs value
  pure { o with buttonOutputsSeen := true, buttonOutputs := some outputs }

def displayRequired : Error := ⟨.invalidInput, "--display requires ssd1306 or sh1106"⟩

def Seen.controller (o : Seen) (value : String) : Except Error Seen :=
  match DisplayController.parse value with
  | some controller => .ok { o with display := some controller }
  | none => .error displayRequired

def titleOnce : Error := ⟨.invalidInput, "--title may be specified only once"⟩

def buttonsOnce : Error :=
  ⟨.invalidInput, "button-output selection may be specified only once"⟩

def displayOnce : Error := ⟨.invalidInput, "--display may be specified only once"⟩

/-- `while index < arguments.len()` -/
def parseLoop : List String → Seen → Except Error Seen
  | [], o => .ok o
  | argument :: rest, o =>
    if argument = "--unload" then parseLoop rest { o with unload := true }
    else if argument = "--title" then
      if o.title.isSome then .error titleOnce
      else
        match rest with
        | [] => .error ⟨.invalidInput, "--title requires text"⟩
        | value :: rest => parseLoop rest { o with title := some value }
    else if let some value := strip "--title=" argument then
      if o.title.isSome then .error titleOnce
      else parseLoop rest { o with title := some value }
    else if argument = "--button-outputs" then
      if o.buttonOutputsSeen then .error buttonsOnce
      else
        match rest with
        | [] => .error ⟨.invalidInput, "--button-outputs requires LEFT,RIGHT GPIO numbers"⟩
        | value :: rest => o.buttons value >>= parseLoop rest
    else if let some value := strip "--button-outputs=" argument then
      if o.buttonOutputsSeen then .error buttonsOnce else o.buttons value >>= parseLoop rest
    else if argument = "--no-button-outputs" then
      if o.buttonOutputsSeen then .error buttonsOnce
      else parseLoop rest { o with buttonOutputsSeen := true }
    else if argument = "--vsync" then parseLoop rest { o with vsync := true }
    else if argument = "--display" then
      if o.display.isSome then .error displayOnce
      else
        match rest with
        | [] => .error displayRequired
        | value :: rest => o.controller value >>= parseLoop rest
    else if let some value := strip "--display=" argument then
      if o.display.isSome then .error displayOnce else o.controller value >>= parseLoop rest
    else if argument = "--idle-pull" then
      match rest with
      | [] => .error ⟨.invalidInput, "--idle-pull requires none, down, or up"⟩
      | value :: rest => o.idle value >>= parseLoop rest
    else if let some value := strip "--idle-pull=" argument then
      o.idle value >>= parseLoop rest
    else if argument.toList.head? = some '-' then
      .error ⟨.invalidInput, "unknown option " ++ argument⟩
    else parseLoop rest { o with positionals := o.positionals ++ [argument] }

/-- The display that `parse` settles on. -/
def Seen.shows (o : Seen) : Option DisplayController :=
  if o.unload then o.display else o.display.or (some .sh1106)

theorem Seen.chosen (o : Seen) (hu : o.unload = false) : o.shows.isSome = true := by
  unfold shows
  rw [hu, if_neg Bool.false_ne_true]
  exact Option.isSome_or.trans (Bool.or_true _)

def Options.parse (arguments : List String) : Except Error Options := do
  let o ← parseLoop (arguments.drop 1) ⟨false, none, none, none, false, false, .none, []⟩
  if (o.unload && (o.display.isSome || o.title.isSome || o.buttonOutputsSeen || o.vsync ||
      !o.positionals.isEmpty || o.idlePull ≠ .none)) || 2 < o.positionals.length then
    .error ⟨.invalidInput, usage⟩
  else
    pure {
      unload := o.unload
      display := o.shows
      title := o.title
      buttonOutputs :=
        if !o.unload && !o.buttonOutputsSeen then some defaultButtonOutputs else o.buttonOutputs
      vsync := o.vsync
      address := o.positionals[0]?
      kernelDirectory := o.positionals[1]?
      idlePull := o.idlePull
      chosen := o.chosen }

end VirtualDisplay

end BscTarget.Loader
