import BscTarget.Loader.Programs

/-!
# Program after program

A host on which nothing but these programs changes the driver: each run starts from what the run
before it has left, any command may fail, and a program may be killed between two commands, so that
nobody drops its guard. The host stays orderly, and the cleanup is then complete.
-/

namespace BscTarget.Loader

/-- What a run leaves to the next one. -/
structure Host where
  modules : String → Bool
  overlays : String → ℕ

namespace Host

/-- What a command does when it succeeds. -/
def apply (h : Host) : Command → Host
  | .dtoverlayList => h
  | .dtoverlayRemove overlay =>
    { h with overlays := Function.update h.overlays overlay (h.overlays overlay - 1) }
  | .dtoverlayAdd _ overlay _ =>
    { h with overlays := Function.update h.overlays overlay (h.overlays overlay + 1) }
  | .insmod _ module => { h with modules := Function.update h.modules module true }
  | .rmmod module => { h with modules := Function.update h.modules module false }

/-- The host behind a history of commands. -/
def after (h : Host) : List Entry → Host
  | [] => h
  | e :: older => if e.success then (h.after older).apply e.command else h.after older

/-- A run begins: how its commands end, and what it finds, is up to the streams of `w`. -/
def boot (h : Host) (w : World) : World :=
  { w with modules := h.modules, overlays := h.overlays, history := [] }

end Host

def World.host (w : World) : Host := ⟨w.modules, w.overlays⟩

structure Run where
  program : Program
  setting : Setting
  arguments : List String
  streams : World
  /-- How many commands it has run when it is killed. -/
  killed : Option ℕ

namespace Run

def main (out : Outside) (h : Host) (r : Run) : Option (Except Error Unit × World) :=
  r.program.main out r.setting r.arguments (h.boot r.streams)

/-- What is left of a run with this history. -/
def left (r : Run) (history : List Entry) : List Entry :=
  match r.killed with
  | none => history
  | some k => history.drop (history.length - k)

def step (out : Outside) (h : Host) (r : Run) : Option Host :=
  (r.main out h).map fun p => h.after (r.left p.2.history)

end Run

def sessions (out : Outside) (h : Host) (rs : List Run) : Option Host := rs.foldlM (Run.step out) h

/-! ## Order -/

def ownPins : Fin 2 → List ℕ
  | 0 => [18, 19]
  | 1 => [10, 11]

/-- Nothing is installed twice, and the module only over its overlay. -/
structure Orderly (own : Fin 2) (h : Host) : Prop where
  single : h.overlays (overlayNames own) ≤ 1
  others : ∀ i, i ≠ own → h.overlays (overlayNames i) = 0
  module : h.modules moduleName = true → h.overlays (overlayNames own) = 1

/-- An overlay with parameters that the driver can use. -/
def Usable (own : Fin 2) (parameters : List String) : Prop :=
  ∃ address idlePull readyGpio,
    parameters = DriverGuard.overlayParameters address idlePull readyGpio ∧
    (0x08 ≤ address ∧ address ≤ 0x77) ∧
    ∀ gpio, readyGpio = some gpio → gpio ≤ 53 ∧ gpio ∉ ownPins own

/-- A command that may succeed on the host `h`. -/
def Permitted (own : Fin 2) (h : Host) : Command → Prop
  | .dtoverlayList => True
  | .dtoverlayRemove _ => h.modules moduleName = false
  | .dtoverlayAdd _ overlay parameters =>
    overlay = overlayNames own ∧ h.modules moduleName = false ∧ h.overlays overlay = 0 ∧
      Usable own parameters
  | .insmod _ module => module = moduleName ∧ h.overlays (overlayNames own) = 1
  | .rmmod _ => True

/-- Every command that succeeded was permitted then. -/
def Lawful (own : Fin 2) (h : Host) (history : List Entry) : Prop :=
  Throughout (fun e older => e.success = true → Permitted own (h.after older) e.command) history

theorem overlayNames_injective : Function.Injective overlayNames := by
  unfold Function.Injective
  decide

variable {own : Fin 2} {h : Host} {w : World}

theorem Orderly.apply {c : Command} (ho : Orderly own h) (hc : Permitted own h c) :
    Orderly own (h.apply c) := by
  cases c with
  | dtoverlayList => exact ho
  | dtoverlayRemove overlay =>
    have hle (name : String) :
        (h.apply (.dtoverlayRemove overlay)).overlays name ≤ h.overlays name := by
      simp only [Host.apply, Function.update_apply]
      split_ifs with heq
      · rw [heq]
        exact Nat.sub_le _ _
      · exact Nat.le_refl _
    refine ⟨(hle _).trans ho.single, fun i hi => ?_, fun hm => ?_⟩
    · exact Nat.le_zero.mp ((hle _).trans (ho.others i hi).le)
    · exact absurd (hm.symm.trans hc) (by decide)
  | dtoverlayAdd directory overlay parameters =>
    obtain ⟨rfl, hm, hzero, -⟩ := hc
    refine ⟨?_, fun i hi => ?_, fun hm' => ?_⟩
    · simp only [Host.apply, Function.update_self, hzero]
      exact Nat.le_refl 1
    · simp only [Host.apply]
      rw [Function.update_of_ne fun heq => hi (overlayNames_injective heq)]
      exact ho.others i hi
    · exact absurd (hm'.symm.trans hm) (by decide)
  | insmod directory module => exact ⟨ho.single, ho.others, fun _ => hc.2⟩
  | rmmod module =>
    refine ⟨ho.single, ho.others, fun hm => ho.module ?_⟩
    simp only [Host.apply, Function.update_apply] at hm
    split_ifs at hm
    exact hm

/-- Wherever a lawful history is cut off, the host is orderly. -/
theorem Orderly.after (ho : Orderly own h) {history : List Entry} (hl : Lawful own h history) :
    ∀ older, older <:+ history → Orderly own (h.after older) := by
  intro older
  induction older with
  | nil => exact fun _ => ho
  | cons e older ih =>
    intro hsuffix
    have hbefore := ih ((List.suffix_cons e older).trans hsuffix)
    rw [Host.after]
    split_ifs with hsuccess
    · exact hbefore.apply (hl e older hsuffix hsuccess)
    · exact hbefore

/-! ## What the programs run -/

/-- The host is what the history makes of it, and the history is lawful. -/
structure Conducts (own : Fin 2) (h : Host) (w : World) : Prop where
  host : w.host = h.after w.history
  lawful : Lawful own h w.history

namespace Conducts

theorem boot (own : Fin 2) (h : Host) (w : World) : Conducts own h (h.boot w) := ⟨rfl, .nil⟩

theorem congr {w' : World} (hc : Conducts own h w) (hs : DriverGuard.SameHost w w') :
    Conducts own h w' := by
  constructor
  · rw [World.host, hs.modules, hs.overlays, hs.history]
    exact hc.host
  · rw [hs.history]
    exact hc.lawful

theorem failed (hc : Conducts own h w) (flags : Flags) (c : Command) :
    Conducts own h (w.ran flags c false) :=
  ⟨hc.host, Throughout.cons_iff.mpr ⟨(by rintro ⟨⟩), hc.lawful⟩⟩

theorem succeeded (hc : Conducts own h w) (flags : Flags) {c : Command}
    (hp : Permitted own w.host c) : Conducts own h (c.effect (w.ran flags c true)) := by
  have hhistory : (c.effect (w.ran flags c true)).history = ⟨c, true, flags⟩ :: w.history := by
    cases c <;> rfl
  constructor
  · rw [hhistory, Host.after, if_pos rfl, ← hc.host]
    cases c <;> rfl
  · rw [hhistory]
    exact Throughout.cons_iff.mpr ⟨fun _ => hc.host ▸ hp, hc.lawful⟩

/-- A command succeeds or fails. -/
theorem command (hc : Conducts own h w) (flags : Flags) {c : Command}
    (hp : Permitted own w.host c) :
    (w.runCommand flags c = (.ok (), c.effect (w.ran flags c true)) ∧
      Conducts own h (c.effect (w.ran flags c true))) ∨
    ∃ e, w.runCommand flags c = (.error e, w.ran flags c false) ∧
      Conducts own h (w.ran flags c false) := by
  by_cases hexit : w.exits.head = .success
  · exact .inl ⟨World.runCommand_success hexit flags c, hc.succeeded flags hp⟩
  · obtain ⟨e, he⟩ := World.runCommand_failure hexit flags c
    exact .inr ⟨e, he, hc.failed flags c⟩

theorem list (hc : Conducts own h w) (out : Outside) :
    (w.activeOverlays out = (.ok (out.list w.overlays), w.ran .down .dtoverlayList true) ∧
      Conducts own h (w.ran .down .dtoverlayList true)) ∨
    ∃ e, w.activeOverlays out = (.error e, w.ran .down .dtoverlayList false) ∧
      Conducts own h (w.ran .down .dtoverlayList false) := by
  by_cases hexit : w.exits.head = .success
  · exact .inl ⟨World.activeOverlays_success hexit out, hc.succeeded .down (c := .dtoverlayList)
      trivial⟩
  · obtain ⟨e, he⟩ := World.activeOverlays_failure hexit out
    exact .inr ⟨e, he, hc.failed _ _⟩

theorem looked (hc : Conducts own h w) : Conducts own h w.looked := hc.congr ⟨rfl, rfl, rfl⟩

/-! ### The guard -/

/-- A guard that does not hold the module has nothing over its overlay. -/
def Clear (g : DriverGuard) (w : World) : Prop :=
  g.module = moduleName ∧ (g.moduleLoaded = false → w.modules moduleName = false)

theorem unloadOverlay {g : DriverGuard} (hc : Conducts own h w)
    (hm : w.modules moduleName = false) :
    Conducts own h (g.unloadOverlay w).2.2 ∧ (g.unloadOverlay w).2.2.modules = w.modules ∧
      (g.unloadOverlay w).2.1.moduleLoaded = g.moduleLoaded ∧
      (g.unloadOverlay w).2.1.module = g.module := by
  rcases g.unloadOverlay_cases w with ⟨-, he⟩ | ⟨-, he⟩ | ⟨-, e, he⟩ <;> rw [he]
  · exact ⟨hc, rfl, rfl, rfl⟩
  · exact ⟨hc.succeeded _ (c := .dtoverlayRemove g.overlay) hm, rfl, rfl, rfl⟩
  · exact ⟨hc.failed _ _, rfl, rfl, rfl⟩

theorem unload {g : DriverGuard} (hc : Conducts own h w) (hg : Clear g w) :
    Conducts own h (g.unload w).2.2 ∧ Clear (g.unload w).2.1 (g.unload w).2.2 := by
  obtain ⟨hname, hclear⟩ := hg
  rw [DriverGuard.unload]
  rcases g.unloadModule_cases w with ⟨hl, he⟩ | ⟨-, he⟩ | ⟨hl, e, he⟩ <;> rw [he]
  · obtain ⟨hc', hm, hl', hname'⟩ := hc.unloadOverlay (g := g) (hclear hl)
    refine ⟨hc', hname'.trans hname, fun _ => ?_⟩
    show (g.unloadOverlay w).2.2.modules moduleName = false
    rw [hm]
    exact hclear hl
  · have hgone : ((Command.rmmod g.module).effect
        (w.ran g.flags (.rmmod g.module) true)).modules moduleName = false := by
      simp [Command.effect, hname]
    obtain ⟨hc', hm, hl', hname'⟩ :=
      (hc.succeeded g.flags (c := .rmmod g.module) trivial).unloadOverlay
        (g := { g with moduleLoaded := false }) hgone
    refine ⟨hc', hname'.trans hname, fun _ => ?_⟩
    show (DriverGuard.unloadOverlay _ _).2.2.modules moduleName = false
    rw [hm]
    exact hgone
  · refine ⟨hc.failed _ _, hname, fun hl' => ?_⟩
    rw [hl] at hl'
    cases hl'

theorem drop {g : DriverGuard} (hc : Conducts own h w) (hg : Clear g w) :
    Conducts own h (g.drop w) := (hc.unload hg).1

theorem attend {failed : String} {served : Except Error Unit}
    {loaded : Except Error DriverGuard × World} (hc : Conducts own h loaded.2)
    (hg : ∀ g, loaded.1 = .ok g → Clear g loaded.2) :
    Conducts own h (attend failed served loaded).2 := by
  obtain ⟨result, w⟩ := loaded
  cases result with
  | error e => exact hc
  | ok g =>
    obtain ⟨hc', hg'⟩ := hc.unload (hg g rfl)
    exact hc'.drop hg'

/-! ### The load -/

/-- Lawful so far, and a guard that is returned is clear. -/
def Loads (own : Fin 2) (h : Host) (loaded : Except Error DriverGuard × World) : Prop :=
  Conducts own h loaded.2 ∧ ∀ g, loaded.1 = .ok g → Clear g loaded.2

theorem awaitDevice {g : DriverGuard} (hc : Conducts own h w) (hg : Clear g w)
    (configuration : DriverConfiguration) :
    Loads own h (DriverGuard.awaitDevice configuration g w) := by
  have hsame := (DriverGuard.waitDevice_ends w).1
  rw [DriverGuard.awaitDevice]
  rcases hwait : DriverGuard.waitDevice w with ⟨_ | _, w'⟩
  · rw [hwait] at hsame
    have hg' : Clear g w' := ⟨hg.1, fun hl => (congrFun hsame.modules _).trans (hg.2 hl)⟩
    exact ⟨(hc.congr hsame).drop hg', (by rintro _ ⟨⟩)⟩
  · rw [hwait] at hsame
    refine ⟨hc.congr hsame, ?_⟩
    rintro _ ⟨⟩
    exact ⟨hg.1, fun hl => (congrFun hsame.modules _).trans (hg.2 hl)⟩

theorem installModule {g : DriverGuard} (hc : Conducts own h w) (hg : Clear g w)
    (hone : w.overlays (overlayNames own) = 1) {configuration : DriverConfiguration}
    (hname : configuration.module = moduleName) (directory : String) :
    Loads own h (DriverGuard.installModule configuration directory g w) := by
  rw [DriverGuard.installModule, hname]
  rcases hc.command g.flags (c := .insmod directory moduleName) ⟨rfl, hone⟩ with
    ⟨he, hc'⟩ | ⟨e, he, hc'⟩ <;> rw [he]
  · exact hc'.awaitDevice (g := { g with moduleLoaded := true }) ⟨hg.1, (by rintro ⟨⟩)⟩
      configuration
  · exact ⟨hc'.drop hg, (by rintro _ ⟨⟩)⟩

theorem install (hc : Conducts own h w) (hm : w.modules moduleName = false)
    {configuration : DriverConfiguration} (hname : configuration.module = moduleName)
    (hoverlay : configuration.overlay = overlayNames own)
    (hzero : w.overlays (overlayNames own) = 0) (directory : String) {parameters : List String}
    (hu : Usable own parameters) :
    Loads own h (DriverGuard.install configuration directory parameters w) := by
  rw [DriverGuard.install]
  rcases hc.command (DriverGuard.fresh configuration).flags
      (c := .dtoverlayAdd directory configuration.overlay parameters)
      ⟨hoverlay, hm, (by rw [hoverlay]; exact hzero), hu⟩ with ⟨he, hc'⟩ | ⟨e, he, hc'⟩ <;> rw [he]
  · refine hc'.installModule (g := { DriverGuard.fresh configuration with overlayLoaded := true })
      ⟨hname, fun _ => hm⟩ ?_ hname directory
    simp [Command.effect, World.ran, hoverlay, hzero]
  · exact ⟨hc'.drop ⟨hname, fun _ => hm⟩, (by rintro _ ⟨⟩)⟩

/-- Where the check passes, neither the module nor the overlay is there. -/
theorem ensureUnloaded (hc : Conducts own h w) {out : Outside}
    (hlist : out.Lists (overlayNames own)) {configuration : DriverConfiguration}
    (hname : configuration.module = moduleName)
    (hoverlay : configuration.overlay = overlayNames own) :
    (∃ e w', Loader.ensureUnloaded out configuration w = (.error e, w') ∧
      Conducts own h w') ∨
    ∃ w', Loader.ensureUnloaded out configuration w = (.ok (), w') ∧ Conducts own h w' ∧
      w'.modules moduleName = false ∧ w'.overlays (overlayNames own) = 0 := by
  rw [Loader.ensureUnloaded, World.deviceExists]
  dsimp only
  split_ifs with hfound
  · exact .inl ⟨_, _, rfl, hc.looked⟩
  · have hm : w.modules moduleName = false := by
      rw [← hname]
      exact (Bool.or_eq_false_iff.mp (eq_false_of_ne_true hfound)).2
    rcases hc.looked.list out with ⟨he, hc'⟩ | ⟨e, he, hc'⟩ <;> rw [he]
    · dsimp only
      split_ifs with hactive
      · exact .inl ⟨_, _, rfl, hc'⟩
      · rw [hoverlay, hlist] at hactive
        exact .inr ⟨_, rfl, hc', hm, Nat.eq_zero_of_not_pos hactive⟩
    · exact .inl ⟨_, _, rfl, hc'⟩

theorem loadConfigured (hc : Conducts own h w) {out : Outside}
    (hlist : out.Lists (overlayNames own)) {configuration : DriverConfiguration}
    (hname : configuration.module = moduleName)
    (hoverlay : configuration.overlay = overlayNames own)
    (hpins : configuration.targetPins = ownPins own) (files : Files) (directory : String)
    {address : ℕ} (haddress : 0x08 ≤ address ∧ address ≤ 0x77) (idlePull : IdlePull)
    (readyGpio : Option ℕ) :
    Loads own h (DriverGuard.loadConfigured out files directory configuration address idlePull
      readyGpio w) := by
  have hstop (e : Error) {w' : World} (hc' : Conducts own h w') : Loads own h (.error e, w') :=
    ⟨hc', (by rintro _ ⟨⟩)⟩
  rw [DriverGuard.loadConfigured]
  rcases Loader.readModel out files configuration with e | _
  · exact hstop e hc
  rcases hgpio : Loader.validateReadyGpio configuration.hardwareName configuration.targetPins
    readyGpio with e | _
  · exact hstop e hc
  rcases hc.ensureUnloaded hlist hname hoverlay with ⟨e, w', he, hc'⟩ | ⟨w', he, hc', hm, hzero⟩ <;>
    dsimp only <;> rw [he] <;> dsimp only
  · exact hstop e hc'
  · rcases Loader.ensureArtifactsCurrent files directory configuration.module
      configuration.overlay with e | _
    · exact hstop e hc'
    · refine hc'.install hm hname hoverlay hzero directory
        ⟨address, idlePull, readyGpio, rfl, haddress, fun gpio hsome => ?_⟩
      rw [hsome, Loader.validateReadyGpio, hpins] at hgpio
      split_ifs at hgpio with hbig htarget
      exact ⟨Nat.le_of_not_lt hbig, htarget⟩

/-! ### The cleanup -/

theorem removeLoop (out : Outside) (overlay : String) : ∀ (fuel : ℕ) (changed : Bool) {w : World},
    Conducts own h w → w.modules moduleName = false → ∀ r w',
      removeLoop out overlay fuel changed w = some (r, w') →
        Conducts own h w' ∧ w'.modules moduleName = false := by
  intro fuel
  induction fuel with
  | zero =>
    rintro _ w - - r w' ⟨⟩
  | succ fuel ih =>
    intro changed w hc hm r w' hr
    rw [Loader.removeLoop] at hr
    rcases hc.list out with ⟨he, hc'⟩ | ⟨e, he, hc'⟩ <;> rw [he] at hr
    · dsimp only at hr
      split_ifs at hr
      · rcases hc'.command .down (c := .dtoverlayRemove overlay) hm with
          ⟨he, hc''⟩ | ⟨e, he, hc''⟩ <;> rw [he] at hr
        · exact ih true hc'' hm r w' hr
        · cases hr
          exact ⟨hc'', hm⟩
      · cases hr
        exact ⟨hc', hm⟩
    · cases hr
      exact ⟨hc', hm⟩

theorem unloadSecond (hc : Conducts own h w) (hm : w.modules moduleName = false) (out : Outside)
    (changed : Bool) : Conducts own h (unloadSecond out changed w).2 := by
  rw [Loader.unloadSecond]
  rcases hc.list out with ⟨he, hc'⟩ | ⟨e, he, hc'⟩ <;> rw [he]
  · dsimp only
    split_ifs
    · rcases hc'.command .down (c := .dtoverlayRemove (overlayNames 1)) hm with
        ⟨he, hc''⟩ | ⟨e, he, hc''⟩ <;> rw [he] <;> exact hc''
    · exact hc'
  · exact hc'

theorem unloadExisting (hc : Conducts own h w) {out : Outside} {r : Except Error Bool} {w' : World}
    (hr : unloadExisting out w = some (r, w')) : Conducts own h w' := by
  have hconfigured : ∀ r w', unloadExistingConfigured out existingConfiguration w = some (r, w') →
      Conducts own h w' ∧ (∀ changed, r = .ok changed → w'.modules moduleName = false) := by
    intro r w' hr
    rw [unloadExistingConfigured, World.deviceExists] at hr
    dsimp only at hr
    split_ifs at hr with hrefused hloaded
    · cases hr
      exact ⟨hc.looked, (by rintro _ ⟨⟩)⟩
    · rcases hc.looked.command .down (c := .rmmod existingConfiguration.module) trivial with
        ⟨he, hc'⟩ | ⟨e, he, hc'⟩ <;> rw [he] at hr
      · have hm : ((Command.rmmod existingConfiguration.module).effect (w.looked.ran .down
            (.rmmod existingConfiguration.module) true)).modules moduleName = false := by
          simp [Command.effect, existingConfiguration]
        obtain ⟨hc'', hm'⟩ := removeLoop out _ _ _ hc' hm r w' hr
        exact ⟨hc'', fun _ _ => hm'⟩
      · cases hr
        exact ⟨hc', (by rintro _ ⟨⟩)⟩
    · obtain ⟨hc'', hm'⟩ := removeLoop out _ _ _ hc.looked (eq_false_of_ne_true hloaded) r w' hr
      exact ⟨hc'', fun _ _ => hm'⟩
  rw [Loader.unloadExisting] at hr
  rcases hfirst : unloadExistingConfigured out existingConfiguration w with _ | ⟨e | changed, w₁⟩ <;>
    rw [hfirst] at hr
  · cases hr
  · cases hr
    exact (hconfigured _ _ hfirst).1
  · obtain ⟨hc', hm⟩ := hconfigured _ _ hfirst
    have hsecond := hc'.unloadSecond (hm changed rfl) out changed
    rw [Option.some.inj hr] at hsecond
    exact hsecond

end Conducts

/-! ## The cleanup of an orderly host -/

/-- Neither the module nor an overlay is there. -/
def Empty (w : World) : Prop :=
  w.modules moduleName = false ∧ ∀ i, w.overlays (overlayNames i) = 0

/-- The removal of the second overlay, which is done once, is enough where it is there once. -/
theorem unloadExisting_orderly {out : Outside} (hlist : ∀ i, out.Lists (overlayNames i))
    (hhist : w.history = []) (ho : Orderly own w.host) :
    ∃ r w', unloadExisting out w = some (r, w') ∧ (∀ changed, r = .ok changed → Empty w') ∧
      (¬ Refused w → AllSucceed (needed w) w.exits → ∃ changed, r = .ok changed) := by
  have hsecond : w.overlays (overlayNames 1) ≤ 1 := by
    by_cases hown : own = 1
    · rw [← hown]
      exact ho.single
    · exact (ho.others 1 (Ne.symm hown)).le.trans (Nat.zero_le 1)
  by_cases href : Refused w
  · obtain ⟨e, he⟩ := configured_refused out href
    rw [unloadExisting, he]
    exact ⟨_, _, rfl, (by rintro _ ⟨⟩), fun h => absurd href h⟩
  have ht : Tidy (w.modules moduleName) w := by
    constructor
    · rw [hhist]
      exact .nil
    · rw [hhist]
      rfl
  obtain ⟨r, w₁, hr, hp | ⟨hfirst, hm, -, e, rfl⟩⟩ := configured_part (hlist 0) ht href
  · rw [unloadExisting, hr]
    by_cases hall : AllSucceed
        ((if w.modules moduleName then 1 else 0) + (2 * w.overlays (overlayNames 0) + 1)) w.exits
    · obtain ⟨rfl, hleft, hexits⟩ := hp.done hall
      obtain ⟨r', w', hr', hp'⟩ := unloadSecond_part (hlist 1)
        (w.modules moduleName || decide (0 < w.overlays (overlayNames 0))) hp.tidy hp.modules
      have hone : w₁.overlays (overlayNames 1) ≤ 1 := by
        rw [hleft, Function.update_of_ne (by decide)]
        exact hsecond
      dsimp only
      refine ⟨r', w', congrArg some hr', fun changed hok => ?_, fun _ hneeded => ?_⟩
      · by_cases hall' : AllSucceed (if 0 < w₁.overlays (overlayNames 1) then 2 else 1) w₁.exits
        · obtain ⟨-, hleft', -⟩ := hp'.done hall'
          refine ⟨hp'.modules, fun i => ?_⟩
          rw [hleft', hleft] at *
          obtain rfl | rfl : i = 0 ∨ i = 1 := by omega
          · simp [overlayNames]
          · rw [Function.update_self]
            omega
        · obtain ⟨e, he⟩ := hp'.failed hall'
          rw [hok] at he
          cases he
      · refine ⟨_, (hp'.done ?_).1⟩
        have hlast := (allSucceed_add.mp hneeded).2
        have htwo : (if 0 < w₁.overlays (overlayNames 1) then 2 else 1) ≤ 2 := by
          split_ifs <;> omega
        rw [hexits]
        exact fun k hk => hlast k (hk.trans_le htwo)
    · obtain ⟨e, rfl⟩ := hp.failed hall
      exact ⟨_, _, rfl, (by rintro _ ⟨⟩),
        fun _ hneeded => absurd (allSucceed_add.mp hneeded).1 hall⟩
  · rw [unloadExisting, hr]
    refine ⟨_, _, rfl, (by rintro _ ⟨⟩), fun _ hneeded => absurd (fun k hk => ?_) hfirst⟩
    refine hneeded k (hk.trans_le ?_)
    rw [needed, if_pos hm]
    omega

/-! ## Sessions -/

/-- The programs run on the hardware whose overlay is `own`. -/
def Run.On (out : Outside) (own : Fin 2) (r : Run) : Prop :=
  ∀ hardware, Hardware.detect out r.setting.model = .ok hardware →
    hardware.overlay = overlayNames own

theorem Hardware.detect_pins {out : Outside} {model : Except Error String} {hardware : Hardware}
    (h : detect out model = .ok hardware) (hown : hardware.overlay = overlayNames own) :
    hardware.targetPins = ownPins own := by
  rcases model with e | text
  · cases h
  · simp only [detect] at h
    split_ifs at h <;> cases h
    · have heq : 0 = own := overlayNames_injective hown
      rw [← heq]
      rfl
    · have heq : 1 = own := overlayNames_injective hown
      rw [← heq]
      rfl

/-- Every run comes to an end or is killed, and what it does is lawful. -/
theorem Run.conducts {out : Outside} (hlist : ∀ i, out.Lists (overlayNames i)) (ho : Orderly own h)
    {r : Run} (hr : r.On out own) :
    ∃ result w, r.main out h = some (result, w) ∧ Conducts own h w := by
  have hboot := Conducts.boot own h r.streams
  rcases r.program.main_cases out r.setting r.arguments (h.boot r.streams) with
    ⟨result, he⟩ | ⟨-, he⟩ | ⟨-, failed, served, directory, address, pull, gpio, hrange, he⟩
  · exact ⟨result, _, he, hboot⟩
  · obtain ⟨result, w, hw, -⟩ := unloadExisting_orderly (w := h.boot r.streams) hlist rfl ho
    rw [mainUnload, hw] at he
    exact ⟨_, w, he, hboot.unloadExisting hw⟩
  · rw [DriverGuard.load] at he
    cases hd : Hardware.detect out r.setting.model with
    | error e =>
      rw [hd] at he
      exact ⟨_, _, he, hboot⟩
    | ok hardware =>
      rw [hd] at he
      have hname : hardware.configuration.module = moduleName := rfl
      obtain ⟨hc, hg⟩ := hboot.loadConfigured (hlist own) hname (hr hardware hd)
        (Hardware.detect_pins hd (hr hardware hd)) r.setting.files directory hrange pull gpio
      exact ⟨_, _, he, hc.attend hg⟩

theorem Run.step_orderly {out : Outside} (hlist : ∀ i, out.Lists (overlayNames i))
    (ho : Orderly own h) {r : Run} (hr : r.On out own) :
    ∃ h', r.step out h = some h' ∧ Orderly own h' := by
  obtain ⟨result, w, hmain, hc⟩ := Run.conducts hlist ho hr
  rw [Run.step, hmain]
  refine ⟨_, rfl, ho.after hc.lawful _ ?_⟩
  rw [Run.left]
  split
  · exact List.suffix_rfl
  · exact List.drop_suffix _ _

theorem sessions_orderly {out : Outside} (hlist : ∀ i, out.Lists (overlayNames i))
    {rs : List Run} (hrs : ∀ r ∈ rs, r.On out own) (ho : Orderly own h) :
    ∃ h', sessions out h rs = some h' ∧ Orderly own h' := by
  induction rs generalizing h with
  | nil => exact ⟨h, rfl, ho⟩
  | cons r rs ih =>
    obtain ⟨h', hstep, ho'⟩ := Run.step_orderly hlist ho (hrs r List.mem_cons_self)
    obtain ⟨h'', hrest, ho''⟩ := ih (fun r hr => hrs r (List.mem_cons_of_mem _ hr)) ho'
    refine ⟨h'', ?_, ho''⟩
    rw [sessions, List.foldlM_cons, hstep]
    exact hrest

/-- However the programs follow each other, fail and are killed, the host stays orderly, no run goes
on for ever once its `serve` returns, and none runs a command that the host is not ready for. -/
theorem host_orderly (out : Outside) (hlist : ∀ i, out.Lists (overlayNames i)) (own : Fin 2)
    (h₀ : Host) (ho : Orderly own h₀) (rs : List Run) (hrs : ∀ r ∈ rs, r.On out own) :
    ∃ h, sessions out h₀ rs = some h ∧ Orderly own h ∧ ∀ r : Run, r.On out own →
      ∃ result w, r.main out h = some (result, w) ∧ Lawful own h w.history := by
  obtain ⟨h, hh, ho'⟩ := sessions_orderly hlist hrs ho
  refine ⟨h, hh, ho', fun r hr => ?_⟩
  obtain ⟨result, w, hmain, hc⟩ := Run.conducts hlist ho' hr
  exact ⟨result, w, hmain, hc.lawful⟩

/-- Nothing of the driver is there. -/
def bareHost : Host := ⟨fun _ => false, fun _ => 0⟩

theorem orderly_bareHost (own : Fin 2) : Orderly own bareHost :=
  ⟨Nat.zero_le 1, fun _ _ => rfl, (by rintro ⟨⟩)⟩

/-- The responder, killed behind its third command, in which it has inserted the module. -/
def killedRun : Run := ⟨failing, pi4Setting, pi4Arguments, readyHost, some 3⟩

theorem on_killedRun : ∀ r ∈ [killedRun], r.On listing 1 := by
  intro r hr hardware hd
  have h3 : contains "Raspberry Pi 4 Model B Rev 1.5" "Raspberry Pi 3 Model B" = false := by
    decide +kernel
  have h4 : contains "Raspberry Pi 4 Model B Rev 1.5" "Raspberry Pi 4 Model B" = true := by
    decide +kernel
  rw [List.mem_singleton.mp hr] at hd
  simp only [killedRun, pi4Setting, DriverGuard.builtFiles, Hardware.detect, Hardware.pi3,
    Hardware.pi4, h3, h4, Bool.false_eq_true, if_false, if_true] at hd
  cases hd
  rfl

theorem host_orderly_killed :
    ∃ h, sessions listing bareHost [killedRun] = some h ∧ Orderly 1 h ∧
      ∀ r : Run, r.On listing 1 → ∃ result w, r.main listing h = some (result, w) ∧
        Lawful 1 h w.history :=
  host_orderly listing listing_lists 1 bareHost (orderly_bareHost 1) [killedRun] on_killedRun

/-- Behind any such sequence one cleanup by root is enough: it comes to an end, it leaves nothing if it
reports no error, and it reports none if its commands succeed and the node is no stranger. -/
theorem unload_recovers (out : Outside) (hlist : ∀ i, out.Lists (overlayNames i)) (own : Fin 2)
    (h₀ : Host) (ho : Orderly own h₀) (rs : List Run) (hrs : ∀ r ∈ rs, r.On out own)
    (p : Program) (s : Setting) (hroot : s.root = true) (name : String) (w : World) :
    ∃ h, sessions out h₀ rs = some h ∧ ∃ result w',
      p.main out s [name, "--unload"] (h.boot w) = some (result, w') ∧
      (result = .ok () → Empty w') ∧
      (¬ Refused (h.boot w) → AllSucceed (needed (h.boot w)) w.exits → result = .ok ()) := by
  obtain ⟨h, hh, ho'⟩ := sessions_orderly hlist hrs ho
  have hmain : p.main out s [name, "--unload"] (h.boot w) = mainUnload out (h.boot w) := by
    cases p <;> simp [Program.main, TargetDriver.main, VirtualDisplay.main, Setting.requireRoot,
      hroot, TargetDriver.Options.parse, VirtualDisplay.Options.parse, TargetDriver.parseLoop,
      VirtualDisplay.parseLoop, bind, Except.bind, pure, Except.pure]
  obtain ⟨r, w', hr, hok, hsucceeds⟩ :=
    unloadExisting_orderly (w := h.boot w) hlist rfl ho'
  refine ⟨h, hh, r.map fun _ => (), w', by rw [hmain, mainUnload, hr]; rfl, fun hresult => ?_,
    fun href hall => ?_⟩
  · cases r with
    | error e => cases hresult
    | ok changed => exact hok changed rfl
  · obtain ⟨changed, rfl⟩ := hsucceeds href hall
    rfl

theorem unload_recovers_killed :
    ∃ h, sessions listing bareHost [killedRun] = some h ∧ ∃ result w',
      failing.main listing pi4Setting ["target-driver", "--unload"] (h.boot readyHost) =
        some (result, w') ∧
      (result = .ok () → Empty w') ∧
      (¬ Refused (h.boot readyHost) → AllSucceed (needed (h.boot readyHost)) readyHost.exits →
        result = .ok ()) :=
  unload_recovers listing listing_lists 1 bareHost (orderly_bareHost 1) [killedRun] on_killedRun
    failing pi4Setting rfl "target-driver" readyHost

end BscTarget.Loader
