import BscTarget.Loader.Cleanup
import BscTarget.Loader.Options
import BscTarget.Loader.Transactions

/-!
# The programs

`main` of `target-driver` and of `virtual-display`: the checks of the command line, the driver
loaded, `serve`, and the driver removed. A program that loads the driver leaves the host as it was,
unless a removal fails (`main_restores`).
-/

namespace BscTarget.Loader

structure Hardware where
  name : String
  modelContains : String
  overlay : String
  targetPins : List ℕ

/-- What a program finds besides the host. -/
structure Setting where
  files : Files
  /-- `/proc/device-tree/model`, when `detect` reads it. -/
  model : Except Error String
  /-- `geteuid() == 0` -/
  root : Bool
  isDir : String → Bool
  canonicalize : String → Except Error String
  /-- The ancestors of `current_exe`, itself the first. -/
  currentExe : Except Error (List String)

namespace Hardware

def pi3 : Hardware := ⟨"Raspberry Pi 3", "Raspberry Pi 3 Model B", overlayNames 0, [18, 19]⟩

def pi4 : Hardware := ⟨"Raspberry Pi 4", "Raspberry Pi 4 Model B", overlayNames 1, [10, 11]⟩

def detect (out : Outside) (model : Except Error String) : Except Error Hardware :=
  match model with
  | .error e => .error e
  | .ok model =>
    if contains model pi3.modelContains then .ok pi3
    else if contains model pi4.modelContains then .ok pi4
    else
      .error ⟨.unsupported, "kernel target supports Pi 3B/3B+ and Pi 4B; detected " ++
        out.debug (trimEnd (· == '\x00') model)⟩

def configuration (hardware : Hardware) : DriverConfiguration where
  hardwareName := hardware.name
  modelContains := hardware.modelContains
  overlay := hardware.overlay
  module := moduleName
  device := devicePath
  targetPins := hardware.targetPins

end Hardware

def DriverGuard.load (out : Outside) (s : Setting) (directory : String) (address : ℕ)
    (idlePull : IdlePull) (readyGpio : Option ℕ) (w : World) : Except Error DriverGuard × World :=
  match Hardware.detect out s.model with
  | .error e => (.error e, w)
  | .ok hardware =>
    loadConfigured out s.files directory hardware.configuration address idlePull readyGpio w

namespace Setting

/-- The kind of the error is that of EPERM. -/
def requireRoot (s : Setting) : Except Error Unit :=
  if s.root then .ok ()
  else .error ⟨.system 1, "run with sudo so the app can load and unload the kernel driver"⟩

def projectRoot (s : Setting) (executable : List String) : Except Error String :=
  match (executable.drop 1).find? fun directory =>
      s.files.isFile (directory ++ "/Cargo.toml") && s.isDir (directory ++ "/kernel") with
  | some directory => .ok directory
  | none => .error ⟨.notFound, "cannot locate project root"⟩

def inferKernelDirectory (s : Setting) (value : Option String) : Except Error String :=
  match value with
  | some value => s.canonicalize value
  | none => do
    let executable ← s.currentExe
    let project ← s.projectRoot executable
    pure (project ++ "/kernel")

end Setting

/-! ## What a program does with the driver -/

/-- What `main` makes of the results of `serve` and `unload`. -/
def conclude (failed : String) : Except Error Unit → Except Error Unit → Except Error Unit
  | .ok (), .ok () => .ok ()
  | .error e, .ok () => .error e
  | .ok (), .error e => .error e
  | .error served, .error unloaded =>
    .error ⟨.other, failed ++ served.message ++ "; cleanup also failed: " ++ unloaded.message⟩

/-- `main` from the load on. At its end the guard is dropped. -/
def attend (failed : String) (served : Except Error Unit)
    (loaded : Except Error DriverGuard × World) : Except Error Unit × World :=
  match loaded with
  | (.error e, w) => (.error e, w)
  | (.ok g, w) =>
    let (unloaded, g, w) := g.unload w
    (conclude failed served unloaded, g.drop w)

/-- `--unload`. -/
def mainUnload (out : Outside) (w : World) : Option (Except Error Unit × World) :=
  (unloadExisting out w).map fun p => (p.1.map fun _ => (), p.2)

namespace TargetDriver

/-- What is known once the command line is accepted and no error has ended the program. -/
structure Loading where
  directory : String
  address : ℕ

def Options.loading (o : Options) (s : Setting) : Except Error Loading := do
  if !o.receiveOnly && o.readyGpio.isNone then
    .error ⟨.invalidInput, "response mode requires --ready-gpio"⟩
  else do
    let address ← parseAddress o.address defaultAddress
    let directory ← s.inferKernelDirectory o.kernelDirectory
    pure ⟨directory, address⟩

/-- `none` would be a loop that goes on. -/
def main (out : Outside) (s : Setting) (serve : Bool → Except Error Unit)
    (arguments : List String) (w : World) : Option (Except Error Unit × World) :=
  if (arguments.drop 1).any fun argument => argument == "--help" || argument == "-h" then
    some (.ok (), w)
  else
    match Options.parse arguments with
    | .error e => some (.error e, w)
    | .ok o =>
      match s.requireRoot with
      | .error e => some (.error e, w)
      | .ok () =>
        if o.unload then mainUnload out w
        else
          match o.loading s with
          | .error e => some (.error e, w)
          | .ok ⟨directory, address⟩ =>
            some (attend "target failed: " (serve o.receiveOnly)
              (DriverGuard.load out s directory address o.idlePull o.readyGpio w))

end TargetDriver

namespace VirtualDisplay

structure Loading where
  controller : DisplayController
  title : String
  directory : String
  address : ℕ

def DisplayController.name : DisplayController → String
  | .ssd1306 => "ssd1306"
  | .sh1106 => "sh1106"

/-- What `main` derives from its options where it does not unload: then `expect` finds a display. -/
def Options.loading (o : Options) (hu : o.unload = false) (s : Setting) :
    Except Error Loading := do
  let controller := o.display.get (o.chosen hu)
  let title := o.title.getD ("Virtual I2C display - " ++ DisplayController.name controller)
  let address ← parseAddress o.address defaultAddress
  let directory ← s.inferKernelDirectory o.kernelDirectory
  pure ⟨controller, title, directory, address⟩

/-- `none` would be a loop that goes on. -/
def main (out : Outside) (s : Setting)
    (serve : DisplayController → String → Option (ℕ × ℕ) → Bool → Except Error Unit)
    (arguments : List String) (w : World) : Option (Except Error Unit × World) :=
  match Options.parse arguments with
  | .error e => some (.error e, w)
  | .ok o =>
    match s.requireRoot with
    | .error e => some (.error e, w)
    | .ok () =>
      if hu : o.unload = true then mainUnload out w
      else
        match o.loading (eq_false_of_ne_true hu) s with
        | .error e => some (.error e, w)
        | .ok ⟨controller, title, directory, address⟩ =>
          some (attend "virtual display failed: " (serve controller title o.buttonOutputs o.vsync)
            (DriverGuard.load out s directory address o.idlePull none w))

end VirtualDisplay

inductive Program
  | targetDriver (serve : Bool → Except Error Unit)
  | virtualDisplay
    (serve : DisplayController → String → Option (ℕ × ℕ) → Bool → Except Error Unit)

namespace Program

def main (out : Outside) (s : Setting) (arguments : List String) (w : World) :
    Program → Option (Except Error Unit × World)
  | targetDriver serve => TargetDriver.main out s serve arguments w
  | virtualDisplay serve => VirtualDisplay.main out s serve arguments w

/-- Whether the command line is accepted and asks for the cleanup. -/
def unloads (arguments : List String) : Program → Bool
  | targetDriver _ => ((TargetDriver.Options.parse arguments).toOption.map (·.unload)).getD false
  | virtualDisplay _ =>
    ((VirtualDisplay.Options.parse arguments).toOption.map (·.unload)).getD false

end Program

/-! ## What is left behind -/

theorem TargetDriver.Options.loading_range {o : TargetDriver.Options} {s : Setting}
    {l : TargetDriver.Loading} (h : o.loading s = .ok l) : 0x08 ≤ l.address ∧ l.address ≤ 0x77 := by
  simp only [loading, bind, Except.bind] at h
  split at h
  · cases h
  · split at h
    · cases h
    · next address haddress =>
      split at h
      · cases h
      · cases h
        exact parseAddress_range (by decide) haddress

theorem VirtualDisplay.Options.loading_range {o : VirtualDisplay.Options}
    {hu : o.unload = false} {s : Setting} {l : VirtualDisplay.Loading}
    (h : o.loading hu s = .ok l) : 0x08 ≤ l.address ∧ l.address ≤ 0x77 := by
  simp only [loading, bind, Except.bind] at h
  split at h
  · cases h
  · next address haddress =>
    split at h
    · cases h
    · cases h
      exact parseAddress_range (by decide) haddress

/-- A program stops before it touches anything, cleans up, or loads the driver and attends it. -/
theorem Program.main_cases (out : Outside) (s : Setting) (arguments : List String) (w : World)
    (p : Program) :
    (∃ r, p.main out s arguments w = some (r, w)) ∨
    (p.unloads arguments = true ∧ p.main out s arguments w = mainUnload out w) ∨
    (p.unloads arguments = false ∧ ∃ failed served directory address idlePull readyGpio,
      (0x08 ≤ address ∧ address ≤ 0x77) ∧ p.main out s arguments w =
        some (attend failed served
          (DriverGuard.load out s directory address idlePull readyGpio w))) := by
  cases p with
  | targetDriver serve =>
    simp only [main, TargetDriver.main]
    split_ifs with hhelp
    · exact .inl ⟨_, rfl⟩
    · cases ho : TargetDriver.Options.parse arguments with
      | error e => exact .inl ⟨_, rfl⟩
      | ok o =>
        cases s.requireRoot with
        | error e => exact .inl ⟨_, rfl⟩
        | ok _ =>
          have hu : (targetDriver serve).unloads arguments = o.unload := by
            rw [unloads, ho]
            rfl
          dsimp only
          split_ifs with hunload
          · exact .inr (.inl ⟨hu.trans hunload, rfl⟩)
          · cases hl : o.loading s with
            | error e => exact .inl ⟨_, rfl⟩
            | ok l =>
              exact .inr (.inr ⟨hu.trans (eq_false_of_ne_true hunload), _, _, _, _, _, _,
                TargetDriver.Options.loading_range hl, rfl⟩)
  | virtualDisplay serve =>
    simp only [main, VirtualDisplay.main]
    cases ho : VirtualDisplay.Options.parse arguments with
    | error e => exact .inl ⟨_, rfl⟩
    | ok o =>
      cases s.requireRoot with
      | error e => exact .inl ⟨_, rfl⟩
      | ok _ =>
        have hu : (virtualDisplay serve).unloads arguments = o.unload := by
          rw [unloads, ho]
          rfl
        dsimp only
        split_ifs with hunload
        · exact .inr (.inl ⟨hu.trans hunload, rfl⟩)
        · cases hl : o.loading (eq_false_of_ne_true hunload) s with
          | error e => exact .inl ⟨_, rfl⟩
          | ok l =>
            exact .inr (.inr ⟨hu.trans (eq_false_of_ne_true hunload), _, _, _, _, _, _,
              VirtualDisplay.Options.loading_range hl, rfl⟩)

theorem attend_ok (failed : String) (served : Except Error Unit) (g : DriverGuard) (w : World) :
    attend failed served (.ok g, w) =
      (conclude failed served (g.unload w).1, (g.unload w).2.1.drop (g.unload w).2.2) := rfl

/-- An error of `unload` is not lost. -/
theorem conclude_ok {failed : String} {served unloaded : Except Error Unit}
    (h : conclude failed served unloaded = .ok ()) : unloaded = .ok () := by
  match served, unloaded with
  | .ok (), .ok () => rfl
  | .error e, .ok () => cases h
  | .ok (), .error e => cases h
  | .error s, .error u => cases h

namespace DriverGuard

/-- A guard that holds nothing has nothing to do. -/
theorem unload_down {g : DriverGuard} (h : g.flags = .down) (w : World) :
    g.unload w = (.ok (), g, w) := by
  obtain ⟨ho, hm⟩ := Flags.mk.inj h
  rw [unload, unloadModule, if_neg (by simp [hm])]
  show g.unloadOverlay w = _
  rw [unloadOverlay, if_neg (by simp [ho])]

/-- An `unload` that succeeds leaves the guard with nothing. -/
theorem unload_ok {g : DriverGuard} {w : World} (h : (g.unload w).1 = .ok ()) :
    (g.unload w).2.1.flags = .down := by
  obtain ⟨done, rest, ran, -, hdue, -, ⟨-, rfl, -⟩ | ⟨e, c, more, herror, -⟩⟩ :=
    g.unload_resumes w
  · exact flags_of_due hdue
  · rw [h] at herror
    cases herror

/-- A load that is attended leaves the host as it was, if it ends well or no removal failed. -/
theorem attend_restores {failed : String} {served r : Except Error Unit} {out : Outside}
    {files : Files} {directory : String} {configuration : DriverConfiguration} {address : ℕ}
    {idlePull : IdlePull} {readyGpio : Option ℕ} {w w' : World} (hhist : w.history = [])
    (h : attend failed served
      (loadConfigured out files directory configuration address idlePull readyGpio w) = (r, w'))
    (hr : r = .ok () ∨ CleanupSucceeded w'.history) :
    w'.modules = w.modules ∧ w'.overlays = w.overlays := by
  rcases loadConfigured_cases out files directory configuration address idlePull readyGpio hhist
    with ⟨e, w₁, he, -, hm, ho⟩ | ⟨w₁, hm, ho, hs, g, w₂, hheld, hg, hl | ⟨e, hl⟩⟩
  · rw [he] at h
    cases h
    exact ⟨hm, ho⟩
  · -- the guard is there: `unload`, and `unload` once more in its drop
    rw [hl, attend_ok] at h
    have hunloaded := unload_held hheld
    have hfree : w₁.modules (g.unload w₂).2.1.module = false := by
      rw [unload_module, hg]
      exact hs.1
    obtain ⟨hconclude, hdrop⟩ := Prod.mk.inj h
    rw [← hm, ← ho]
    rcases hr with rfl | hclean
    · have hdown := unload_ok (conclude_ok hconclude)
      rw [drop, unload_down hdown] at hdrop
      rw [← hdrop]
      exact hunloaded.restored hfree hdown
    · rw [← hdrop] at hclean ⊢
      exact drop_restored hunloaded hfree hclean
  · rw [hl] at h
    cases h
    rcases hr with hr | hclean
    · cases hr
    · rw [← hm, ← ho]
      exact drop_restored hheld (by rw [hg]; exact hs.1) hclean

end DriverGuard

/-- A program that is not told to clean up leaves the host as it found it, if it ends without an
error or no removal failed. -/
theorem main_restores {out : Outside} {s : Setting} {arguments : List String} {w w' : World}
    {p : Program} {r : Except Error Unit} (hhist : w.history = [])
    (hu : p.unloads arguments = false) (h : p.main out s arguments w = some (r, w'))
    (hr : r = .ok () ∨ CleanupSucceeded w'.history) :
    w'.modules = w.modules ∧ w'.overlays = w.overlays := by
  rcases p.main_cases out s arguments w with ⟨r', he⟩ | ⟨hu', -⟩ |
    ⟨-, failed, served, directory, address, idlePull, readyGpio, -, he⟩
  · rw [h] at he
    cases he
    exact ⟨rfl, rfl⟩
  · rw [hu] at hu'
    cases hu'
  · rw [h, Option.some.injEq] at he
    cases hd : Hardware.detect out s.model with
    | error e =>
      rw [DriverGuard.load, hd] at he
      cases he
      exact ⟨rfl, rfl⟩
    | ok hardware =>
      rw [DriverGuard.load, hd] at he
      exact DriverGuard.attend_restores hhist he.symm hr

/-! ### On the second board -/

def pi4Setting : Setting where
  files := DriverGuard.builtFiles
  model := DriverGuard.builtFiles.model
  root := true
  isDir _ := true
  canonicalize := .ok
  currentExe := .ok []

/-- No command fails, and the node is there once the module is. -/
def readyHost : World where
  modules _ := false
  overlays _ := 0
  exits := .const .success
  nodes := .cons false (.const true)
  clock := 0
  lags := .const 0
  history := []

/-- The responder, when `serve` fails. -/
def failing : Program :=
  .targetDriver fun _ => .error ⟨.other, "no such device"⟩

def pi4Arguments : List String :=
  ["target-driver", "--ready-gpio=17", "--idle-pull", "up", "0x13", "kernel"]

/-- How the program ends there. -/
def pi4Run : Option (Except Error Unit × World) :=
  failing.main listing pi4Setting pi4Arguments readyHost

def pi4Left : World := (pi4Run.map Prod.snd).getD readyHost

theorem main_restores_pi4 :
    pi4Left.modules = readyHost.modules ∧ pi4Left.overlays = readyHost.overlays := by
  have hclean : CleanupSucceeded pi4Left.history := by
    unfold CleanupSucceeded
    decide +kernel
  have hends : pi4Run.isSome = true := by decide +kernel
  obtain ⟨⟨r, w⟩, hrun⟩ := Option.isSome_iff_exists.mp hends
  have hleft : pi4Left = w := by rw [pi4Left, hrun, Option.map_some, Option.getD_some]
  rw [hleft] at hclean ⊢
  exact main_restores rfl (by decide +kernel) hrun (.inr hclean)

end BscTarget.Loader
