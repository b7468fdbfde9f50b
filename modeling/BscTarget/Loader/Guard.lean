import BscTarget.Lib.Histories
import BscTarget.Loader.Host

/-!
# The driver guard

`DriverGuard::load_configured` checks what it needs, installs the overlay and the module and waits
for the device node; every return with an error after the guard exists drops it. `unload` removes
what is installed, the module first, and `drop` is one more `unload`.
-/

namespace BscTarget.Loader

inductive IdlePull
  | none
  | down
  | up
  deriving DecidableEq

def IdlePull.overlayParameter : IdlePull → String
  | none => "idle_pull=0"
  | down => "idle_pull=1"
  | up => "idle_pull=2"

/-- The files that `load_configured` reads. -/
structure Files where
  /-- `/proc/device-tree/model` -/
  model : Except Error String
  isFile : String → Bool
  modified : String → Except Error ℕ

/-! ## The checks -/

def validateReadyGpio (hardwareName : String) (targetPins : List ℕ) :
    Option ℕ → Except Error Unit
  | none => .ok ()
  | some gpio =>
    if gpio > 53 then
      .error ⟨.invalidInput, "ready GPIO must be a BCM GPIO number in 0..=53"⟩
    else if gpio ∈ targetPins then
      .error ⟨.invalidInput, "GPIO" ++ toString gpio ++
        " is used by the I2C target peripheral on " ++ hardwareName⟩
    else .ok ()

def ensureUnloaded (out : Outside) (configuration : DriverConfiguration) (w : World) :
    Except Error Unit × World :=
  let (found, w) := w.deviceExists
  if found || w.modules configuration.module then
    (.error ⟨.alreadyExists, "target module is already loaded; unload it before starting the app"⟩,
      w)
  else
    match w.activeOverlays out with
    | (.error e, w) => (.error e, w)
    | (.ok overlays, w) =>
      if overlayIsActive overlays configuration.overlay then
        (.error ⟨.alreadyExists, "a BSC target overlay is already active; unload it first"⟩, w)
      else (.ok (), w)

/-- The first source that is newer than an output of the time `outputTime`. -/
def newerSource (files : Files) (outputTime : ℕ) : List String → Except Error (Option String)
  | [] => .ok none
  | source :: sources =>
    if files.isFile source then
      match files.modified source with
      | .error e => .error e
      | .ok time =>
        if time > outputTime then .ok (some source) else newerSource files outputTime sources
    else newerSource files outputTime sources

def newerThan (files : Files) (output : String) (sources : List String) :
    Except Error (Option String) :=
  match files.modified output with
  | .error e => .error e
  | .ok outputTime => newerSource files outputTime sources

def ensureArtifactsCurrent (files : Files) (directory moduleName overlayName : String) :
    Except Error Unit :=
  let path (name : String) : String := directory ++ "/" ++ name
  let module := path (moduleName ++ ".ko")
  let overlay := path (overlayName ++ ".dtbo")
  if !files.isFile module || !files.isFile overlay then
    .error ⟨.notFound, "driver artifacts are missing in " ++ directory ++ "; run `make -C " ++
      directory ++ "` first"⟩
  else
    let makefile := path "Makefile"
    match newerThan files module
      [path (moduleName ++ ".c"), path "bsc_target_uapi.h", makefile] with
    | .error e => .error e
    | .ok staleModule =>
      match newerThan files overlay [path (overlayName ++ "-overlay.dts"), makefile] with
      | .error e => .error e
      | .ok staleOverlay =>
        match staleModule.or staleOverlay with
        | some source =>
          .error ⟨.other, "driver artifact is older than " ++ source ++ "; run `make -C " ++
            directory ++ "` before starting the target"⟩
        | none => .ok ()

/-- `str::contains` -/
def contains (s pattern : String) : Bool := decide (pattern.toList <:+: s.toList)

def readModel (out : Outside) (files : Files) (configuration : DriverConfiguration) :
    Except Error Unit :=
  match files.model with
  | .error e => .error e
  | .ok model =>
    if contains model configuration.modelContains then .ok ()
    else
      .error ⟨.unsupported, "profile expects " ++ configuration.hardwareName ++ " but detected " ++
        out.debug (trimEnd (· == '\x00') model)⟩

/-! ## The guard -/

structure DriverGuard where
  hardwareName : String
  module : String
  overlay : String
  overlayLoaded : Bool
  moduleLoaded : Bool
  deriving DecidableEq

namespace DriverGuard

def flags (g : DriverGuard) : Flags := ⟨g.overlayLoaded, g.moduleLoaded⟩

def unloadModule (g : DriverGuard) (w : World) : Except Error Unit × DriverGuard × World :=
  if g.moduleLoaded then
    match w.runCommand g.flags (.rmmod g.module) with
    | (.error e, w) => (.error e, g, w)
    | (.ok (), w) => (.ok (), { g with moduleLoaded := false }, w)
  else (.ok (), g, w)

def unloadOverlay (g : DriverGuard) (w : World) : Except Error Unit × DriverGuard × World :=
  if g.overlayLoaded then
    match w.runCommand g.flags (.dtoverlayRemove g.overlay) with
    | (.error e, w) => (.error e, g, w)
    | (.ok (), w) => (.ok (), { g with overlayLoaded := false }, w)
  else (.ok (), g, w)

def unload (g : DriverGuard) (w : World) : Except Error Unit × DriverGuard × World :=
  match g.unloadModule w with
  | (.error e, g, w) => (.error e, g, w)
  | (.ok (), g, w) => g.unloadOverlay w

/-- `drop` warns about an error of `unload`, and the guard is gone. -/
def drop (g : DriverGuard) (w : World) : World := (g.unload w).2.2

/-- `while !device.exists()`. The answer is whether the node appeared before the deadline. -/
def waitLoop (deadline : ℕ) : ℕ → World → Bool × World
  | 0, w => (false, w)
  | fuel + 1, w =>
    match w.deviceExists with
    | (true, w) => (true, w)
    | (false, w) =>
      if deadline ≤ w.clock then (false, w) else waitLoop deadline fuel (w.sleep 10)

/-- Each round but the last one leaves less time. -/
def waitDevice (w : World) : Bool × World := waitLoop (w.clock + 1000) 1001 w

/-- `{address:02x}` -/
def hex (address : ℕ) : String :=
  let digits := Nat.toDigits 16 address
  .ofList (List.replicate (2 - digits.length) '0' ++ digits)

def overlayParameters (address : ℕ) (idlePull : IdlePull) (readyGpio : Option ℕ) : List String :=
  ["addr=0x" ++ hex address, idlePull.overlayParameter] ++
    match readyGpio with
    | some gpio => ["ready_gpio=" ++ toString gpio]
    | none => []

def fresh (configuration : DriverConfiguration) : DriverGuard where
  hardwareName := configuration.hardwareName
  module := configuration.module
  overlay := configuration.overlay
  overlayLoaded := false
  moduleLoaded := false

/-- The end of `load_configured`: an error drops the guard. -/
def awaitDevice (configuration : DriverConfiguration) (g : DriverGuard) (w : World) :
    Except Error DriverGuard × World :=
  match waitDevice w with
  | (true, w) => (.ok g, w)
  | (false, w) =>
    (.error ⟨.timedOut, configuration.device ++ " was not created after loading the module"⟩,
      g.drop w)

/-- `load_configured` from `insmod` on. -/
def installModule (configuration : DriverConfiguration) (directory : String) (g : DriverGuard)
    (w : World) : Except Error DriverGuard × World :=
  match w.runCommand g.flags (.insmod directory configuration.module) with
  | (.error e, w) => (.error e, g.drop w)
  | (.ok (), w) => awaitDevice configuration { g with moduleLoaded := true } w

/-- `load_configured` from the existence of the guard on. -/
def install (configuration : DriverConfiguration) (directory : String) (parameters : List String)
    (w : World) : Except Error DriverGuard × World :=
  let g := fresh configuration
  match w.runCommand g.flags (.dtoverlayAdd directory configuration.overlay parameters) with
  | (.error e, w) => (.error e, g.drop w)
  | (.ok (), w) => installModule configuration directory { g with overlayLoaded := true } w

def loadConfigured (out : Outside) (files : Files) (directory : String)
    (configuration : DriverConfiguration) (address : ℕ) (idlePull : IdlePull)
    (readyGpio : Option ℕ) (w : World) : Except Error DriverGuard × World :=
  match readModel out files configuration with
  | .error e => (.error e, w)
  | .ok () =>
    match validateReadyGpio configuration.hardwareName configuration.targetPins readyGpio with
    | .error e => (.error e, w)
    | .ok () =>
      match ensureUnloaded out configuration w with
      | (.error e, w) => (.error e, w)
      | (.ok (), w) =>
        match ensureArtifactsCurrent files directory configuration.module configuration.overlay with
        | .error e => (.error e, w)
        | .ok () =>
          install configuration directory (overlayParameters address idlePull readyGpio) w

/-- Any number of calls of `unload`, whatever they return. -/
def unloads : ℕ → DriverGuard → World → DriverGuard × World
  | 0, g, w => (g, w)
  | n + 1, g, w =>
    let (_, g, w) := (unloads n g w).1.unload (unloads n g w).2
    (g, w)

end DriverGuard

end BscTarget.Loader
