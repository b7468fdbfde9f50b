import BscTarget.Loader.Guard

/-!
# The guard is transactional

`Held`: the flags of a guard are what its history says it has installed and not removed, and the
host is as it was apart from that. Every call of `unload` keeps this, and goes on where the last
one failed (`Resumes`).
-/

namespace BscTarget.Loader

/-! ## What a history says -/

/-- What was installed and not removed since. -/
def installed : List Entry → Flags
  | [] => .down
  | ⟨.dtoverlayAdd _ _ _, true, _⟩ :: older => { installed older with overlayLoaded := true }
  | ⟨.dtoverlayRemove _, true, _⟩ :: older => { installed older with overlayLoaded := false }
  | ⟨.insmod _ _, true, _⟩ :: older => { installed older with moduleLoaded := true }
  | ⟨.rmmod _, true, _⟩ :: older => { installed older with moduleLoaded := false }
  | _ :: older => installed older

def Command.isRmmod : Command → Bool
  | rmmod _ => true
  | _ => false

def Command.isRemove : Command → Bool
  | dtoverlayRemove _ => true
  | _ => false

/-- Whenever a command runs, the flags are what is installed. -/
def FlagsTrue (history : List Entry) : Prop :=
  Throughout (fun e older => e.flags = installed older) history

/-- The overlay is never removed while the module is loaded, nor the module behind it. -/
def Ordered (history : List Entry) : Prop :=
  Throughout (fun e older =>
    (e.command.isRemove = true → (installed older).moduleLoaded = false) ∧
    (e.command.isRmmod = true → ∀ e' ∈ older, e'.command.isRemove = false)) history

/-- How often the module was removed. -/
def rmmods (history : List Entry) : ℕ := history.countP fun e => e.success && e.command.isRmmod

/-- How often the overlay was removed. -/
def removals (history : List Entry) : ℕ := history.countP fun e => e.success && e.command.isRemove

/-- Every command of the cleanup succeeded. -/
def CleanupSucceeded (history : List Entry) : Prop :=
  ∀ e ∈ history, e.command.isRmmod = true ∨ e.command.isRemove = true → e.success = true

/-- What holds of the history of a guard at any time. -/
structure Transactional (history : List Entry) : Prop where
  flags : FlagsTrue history
  order : Ordered history
  rmmods : rmmods history ≤ 1
  removals : removals history ≤ 1

/-! ## What a guard holds -/

namespace DriverGuard

/-- What the next `unload` has to do, in this order. -/
def due (g : DriverGuard) : List Command :=
  (if g.moduleLoaded then [.rmmod g.module] else []) ++
    (if g.overlayLoaded then [.dtoverlayRemove g.overlay] else [])

/-- The guard `g` has changed the host `w₀` into `w`. -/
structure Held (w₀ : World) (g : DriverGuard) (w : World) : Prop where
  now : g.flags = installed w.history
  flags : FlagsTrue w.history
  order : Ordered w.history
  rmmods : rmmods w.history + g.moduleLoaded.toNat ≤ 1
  removals : removals w.history + g.overlayLoaded.toNat ≤ 1
  first : g.moduleLoaded = true → ∀ e ∈ w.history, e.command.isRemove = false
  modules : w.modules = Function.update w₀.modules g.module g.moduleLoaded
  overlays : w.overlays = Function.update w₀.overlays g.overlay
    (w₀.overlays g.overlay + g.overlayLoaded.toNat)

/-- `unload` runs what is due up to the first failure, and the rest is due again. -/
def Resumes (g : DriverGuard) (w : World) (r : Except Error Unit) (g' : DriverGuard)
    (w' : World) : Prop :=
  ∃ done rest ran, g.due = done ++ rest ∧ g'.due = rest ∧ w'.history = ran ++ w.history ∧
    (r = .ok () ∧ rest = [] ∧
        ran.reverse.map (fun e => (e.command, e.success)) = done.map (·, true) ∨
      ∃ e c more, r = .error e ∧ rest = c :: more ∧
        ran.reverse.map (fun e => (e.command, e.success)) = done.map (·, true) ++ [(c, false)])

namespace Held

variable {w₀ w : World} {g : DriverGuard}

theorem transactional (h : Held w₀ g w) : Transactional w.history :=
  ⟨h.flags, h.order, (Nat.le_add_right _ _).trans h.rmmods,
    (Nat.le_add_right _ _).trans h.removals⟩

/-- A guard with nothing installed leaves the host as it was. -/
theorem restored (h : Held w₀ g w) (hm : w₀.modules g.module = false) (hdown : g.flags = .down) :
    w.modules = w₀.modules ∧ w.overlays = w₀.overlays := by
  obtain ⟨ho, hl⟩ := Flags.mk.inj hdown
  constructor
  · rw [h.modules, hl, ← hm, Function.update_eq_self]
  · rw [h.overlays, ho, Bool.toNat_false, Nat.add_zero, Function.update_eq_self]

/-- A removal that fails. -/
theorem failed {c : Command} (h : Held w₀ g w) (hc : c.isRemove = true → g.moduleLoaded = false)
    (hr : c.isRmmod = true → g.moduleLoaded = true) : Held w₀ g (w.ran g.flags c false) where
  now := by
    rw [h.now]
    cases c <;> rfl
  flags := Throughout.cons_iff.mpr ⟨h.now, h.flags⟩
  order := by
    refine Throughout.cons_iff.mpr ⟨⟨fun ho => ?_, fun hc' => h.first (hr hc')⟩, h.order⟩
    rw [← h.now]
    exact hc ho
  rmmods := by simpa [World.ran, Loader.rmmods] using h.rmmods
  removals := by simpa [World.ran, Loader.removals] using h.removals
  first := by
    intro hl e he
    rcases List.mem_cons.mp he with rfl | he
    · by_contra ho
      have := hc (by simpa using ho)
      rw [hl] at this
      cases this
    · exact h.first hl e he
  modules := h.modules
  overlays := h.overlays

theorem unloadedModule (h : Held w₀ g w) (hl : g.moduleLoaded = true) :
    Held w₀ { g with moduleLoaded := false }
      ((Command.rmmod g.module).effect (w.ran g.flags (.rmmod g.module) true)) where
  now := by
    have hnow := h.now
    simp only [DriverGuard.flags] at hnow
    simp [DriverGuard.flags, Command.effect, World.ran, installed, ← hnow]
  flags := Throughout.cons_iff.mpr ⟨h.now, h.flags⟩
  order := Throughout.cons_iff.mpr ⟨⟨(by rintro ⟨⟩), fun _ => h.first hl⟩, h.order⟩
  rmmods := by
    have := h.rmmods
    rw [hl] at this
    simpa [Command.effect, World.ran, Loader.rmmods, Command.isRmmod] using this
  removals := by
    have := h.removals
    simpa [Command.effect, World.ran, Loader.removals, Command.isRemove] using this
  first := by rintro ⟨⟩
  modules := by simp [Command.effect, World.ran, h.modules]
  overlays := h.overlays

theorem unloadedOverlay (h : Held w₀ g w) (hl : g.overlayLoaded = true)
    (hm : g.moduleLoaded = false) :
    Held w₀ { g with overlayLoaded := false }
      ((Command.dtoverlayRemove g.overlay).effect (w.ran g.flags (.dtoverlayRemove g.overlay) true))
      where
  now := by
    have hnow := h.now
    simp only [DriverGuard.flags] at hnow
    simp [DriverGuard.flags, Command.effect, World.ran, installed, ← hnow]
  flags := Throughout.cons_iff.mpr ⟨h.now, h.flags⟩
  order := by
    refine Throughout.cons_iff.mpr ⟨⟨fun _ => ?_, (by rintro ⟨⟩)⟩, h.order⟩
    rw [← h.now]
    exact hm
  rmmods := by simpa [Command.effect, World.ran, Loader.rmmods, Command.isRmmod] using h.rmmods
  removals := by
    have := h.removals
    rw [hl] at this
    simpa [Command.effect, World.ran, Loader.removals, Command.isRemove] using this
  first := fun hl' => by
    rw [hm] at hl'
    cases hl'
  modules := h.modules
  overlays := by simp [Command.effect, World.ran, h.overlays, hl]

end Held

/-! ## Unloading -/

/-- One step of `unload`: a guard that has the thing runs its command, and clears the flag if it
succeeds. -/
theorem unloadModule_cases (g : DriverGuard) (w : World) :
    (g.moduleLoaded = false ∧ g.unloadModule w = (.ok (), g, w)) ∨
    (g.moduleLoaded = true ∧ g.unloadModule w = (.ok (), { g with moduleLoaded := false },
      (Command.rmmod g.module).effect (w.ran g.flags (.rmmod g.module) true))) ∨
    (g.moduleLoaded = true ∧ ∃ e,
      g.unloadModule w = (.error e, g, w.ran g.flags (.rmmod g.module) false)) := by
  rw [unloadModule]
  split_ifs with hl
  · by_cases h : w.exits.head = .success
    · rw [World.runCommand_success h]
      exact .inr (.inl ⟨hl, rfl⟩)
    · obtain ⟨e, he⟩ := World.runCommand_failure h g.flags (.rmmod g.module)
      rw [he]
      exact .inr (.inr ⟨hl, e, rfl⟩)
  · exact .inl ⟨by simpa using hl, rfl⟩

theorem unloadOverlay_cases (g : DriverGuard) (w : World) :
    (g.overlayLoaded = false ∧ g.unloadOverlay w = (.ok (), g, w)) ∨
    (g.overlayLoaded = true ∧ g.unloadOverlay w = (.ok (), { g with overlayLoaded := false },
      (Command.dtoverlayRemove g.overlay).effect
        (w.ran g.flags (.dtoverlayRemove g.overlay) true))) ∨
    (g.overlayLoaded = true ∧ ∃ e,
      g.unloadOverlay w = (.error e, g, w.ran g.flags (.dtoverlayRemove g.overlay) false)) := by
  rw [unloadOverlay]
  split_ifs with hl
  · by_cases h : w.exits.head = .success
    · rw [World.runCommand_success h]
      exact .inr (.inl ⟨hl, rfl⟩)
    · obtain ⟨e, he⟩ := World.runCommand_failure h g.flags (.dtoverlayRemove g.overlay)
      rw [he]
      exact .inr (.inr ⟨hl, e, rfl⟩)
  · exact .inl ⟨by simpa using hl, rfl⟩

section

variable {w₀ : World}

theorem unloadOverlay_held {g : DriverGuard} {w : World} (h : Held w₀ g w)
    (hm : g.moduleLoaded = false) :
    Held w₀ (g.unloadOverlay w).2.1 (g.unloadOverlay w).2.2 := by
  rcases g.unloadOverlay_cases w with ⟨-, he⟩ | ⟨hl, he⟩ | ⟨-, e, he⟩ <;> rw [he]
  · exact h
  · exact h.unloadedOverlay hl hm
  · exact h.failed (fun _ => hm) (by rintro ⟨⟩)

theorem unload_held {g : DriverGuard} {w : World} (h : Held w₀ g w) :
    Held w₀ (g.unload w).2.1 (g.unload w).2.2 := by
  rw [unload]
  rcases g.unloadModule_cases w with ⟨hm, he⟩ | ⟨hl, he⟩ | ⟨hl, e, he⟩ <;> rw [he]
  · exact unloadOverlay_held h hm
  · exact unloadOverlay_held (h.unloadedModule hl) rfl
  · exact h.failed (by rintro ⟨⟩) fun _ => hl

theorem unloads_held {g : DriverGuard} {w : World} (h : Held w₀ g w) (n : ℕ) :
    Held w₀ (unloads n g w).1 (unloads n g w).2 := by
  induction n with
  | zero => exact h
  | succ n ih => exact unload_held ih

end

theorem unloadOverlay_resumes (g : DriverGuard) (w : World) (hm : g.moduleLoaded = false) :
    Resumes g w (g.unloadOverlay w).1 (g.unloadOverlay w).2.1 (g.unloadOverlay w).2.2 := by
  rcases g.unloadOverlay_cases w with ⟨hl, he⟩ | ⟨hl, he⟩ | ⟨hl, e, he⟩ <;> rw [he]
  · exact ⟨[], [], [], by simp [due, hm, hl], by simp [due, hm, hl], rfl, .inl ⟨rfl, rfl, rfl⟩⟩
  · exact ⟨[.dtoverlayRemove g.overlay], [], [⟨.dtoverlayRemove g.overlay, true, g.flags⟩],
      by simp [due, hm, hl], by simp [due, hm], rfl, .inl ⟨rfl, rfl, rfl⟩⟩
  · exact ⟨[], [.dtoverlayRemove g.overlay], [⟨.dtoverlayRemove g.overlay, false, g.flags⟩],
      by simp [due, hm, hl], by simp [due, hm, hl], rfl, .inr ⟨e, _, [], rfl, rfl, rfl⟩⟩

theorem unload_resumes (g : DriverGuard) (w : World) :
    Resumes g w (g.unload w).1 (g.unload w).2.1 (g.unload w).2.2 := by
  rw [unload]
  rcases g.unloadModule_cases w with ⟨hm, he⟩ | ⟨hl, he⟩ | ⟨hl, e, he⟩ <;> rw [he]
  · exact g.unloadOverlay_resumes w hm
  · -- the module is gone, and the overlay follows
    obtain ⟨done, rest, ran, hdue, hdue', hhist, hr⟩ := unloadOverlay_resumes
      { g with moduleLoaded := false }
      ((Command.rmmod g.module).effect (w.ran g.flags (.rmmod g.module) true)) rfl
    refine ⟨.rmmod g.module :: done, rest, ran ++ [⟨.rmmod g.module, true, g.flags⟩], ?_, hdue', ?_,
      ?_⟩
    · have hcons : g.due = .rmmod g.module :: { g with moduleLoaded := false }.due := by
        simp [due, hl]
      rw [hcons, hdue]
      rfl
    · rw [hhist, List.append_assoc]
      rfl
    · rcases hr with ⟨hok, hrest, hran⟩ | ⟨e, c, more, herr, hrest, hran⟩
      · exact .inl ⟨hok, hrest, by simpa using hran⟩
      · exact .inr ⟨e, c, more, herr, hrest, by simpa using hran⟩
  · refine ⟨[], .rmmod g.module :: if g.overlayLoaded then [.dtoverlayRemove g.overlay] else [],
      [⟨.rmmod g.module, false, g.flags⟩], by simp [due, hl], by simp [due, hl], rfl,
      .inr ⟨e, _, _, rfl, rfl, rfl⟩⟩

/-! ## Loading -/

/-- Waiting and looking change nothing that a guard holds. -/
structure SameHost (w w' : World) : Prop where
  modules : w'.modules = w.modules
  overlays : w'.overlays = w.overlays
  history : w'.history = w.history

theorem Held.congr {w₀ w w' : World} {g : DriverGuard} (h : Held w₀ g w) (hs : SameHost w w') :
    Held w₀ g w' where
  now := by rw [hs.history, h.now]
  flags := by rw [hs.history]; exact h.flags
  order := by rw [hs.history]; exact h.order
  rmmods := by rw [hs.history]; exact h.rmmods
  removals := by rw [hs.history]; exact h.removals
  first := by rw [hs.history]; exact h.first
  modules := by rw [hs.modules, h.modules]
  overlays := by rw [hs.overlays, h.overlays]

theorem waitLoop_ends {deadline : ℕ} : ∀ {fuel : ℕ} {w : World}, deadline < w.clock + fuel →
    SameHost w (waitLoop deadline fuel w).2 ∧
      ((waitLoop deadline fuel w).1 = false → deadline ≤ (waitLoop deadline fuel w).2.clock) := by
  intro fuel
  induction fuel with
  | zero => exact fun hfuel => ⟨⟨rfl, rfl, rfl⟩, fun _ => Nat.le_of_lt hfuel⟩
  | succ fuel ih =>
    intro w hfuel
    rw [waitLoop, World.deviceExists]
    cases w.nodes.head with
    | true => exact ⟨⟨rfl, rfl, rfl⟩, fun h => by cases h⟩
    | false =>
      dsimp only
      split_ifs with hle
      · exact ⟨⟨rfl, rfl, rfl⟩, fun _ => hle⟩
      · have hleft : deadline < (w.looked.sleep 10).clock + fuel := by
          simp only [World.sleep, World.looked] at hfuel ⊢
          omega
        obtain ⟨⟨hm, ho, hh⟩, hdeadline⟩ := ih hleft
        exact ⟨⟨hm, ho, hh⟩, hdeadline⟩

/-- The wait ends because the node is there or its second has passed, not for want of rounds. -/
theorem waitDevice_ends (w : World) :
    SameHost w (waitDevice w).2 ∧
      ((waitDevice w).1 = false → w.clock + 1000 ≤ (waitDevice w).2.clock) :=
  waitLoop_ends (by omega)

/-- The first command of a load is the list, and it finds the module not loaded. -/
theorem ensureUnloaded_cases (out : Outside) (configuration : DriverConfiguration) (w : World) :
    (∃ e w', ensureUnloaded out configuration w = (.error e, w') ∧
      w'.modules = w.modules ∧ w'.overlays = w.overlays ∧
      (w'.history = w.history ∨
        ∃ success, w'.history = ⟨.dtoverlayList, success, .down⟩ :: w.history)) ∨
    (w.modules configuration.module = false ∧
      ensureUnloaded out configuration w = (.ok (), w.looked.ran .down .dtoverlayList true)) := by
  rw [ensureUnloaded, World.deviceExists]
  dsimp only
  split_ifs with hfound
  · exact .inl ⟨_, _, rfl, rfl, rfl, .inl rfl⟩
  · have hm : w.modules configuration.module = false := by
      have := (Bool.or_eq_false_iff.mp (by simpa using hfound)).2
      exact this
    by_cases h : w.looked.exits.head = .success
    · rw [World.activeOverlays_success h]
      dsimp only
      split_ifs with hactive
      · exact .inl ⟨_, _, rfl, rfl, rfl, .inr ⟨true, rfl⟩⟩
      · exact .inr ⟨hm, rfl⟩
    · obtain ⟨e, he⟩ := World.activeOverlays_failure h out
      rw [he]
      exact .inl ⟨_, _, rfl, rfl, rfl, .inr ⟨false, rfl⟩⟩

section

variable {configuration : DriverConfiguration} {w : World}

/-- Before the first command of a guard the list has been read and nothing else. -/
def Started (configuration : DriverConfiguration) (w : World) : Prop :=
  w.modules configuration.module = false ∧ w.history = [⟨.dtoverlayList, true, .down⟩]

theorem fresh_held (h : Started configuration w) : Held w (fresh configuration) w := by
  obtain ⟨hm, hh⟩ := h
  constructor
  · rw [hh]
    rfl
  · rw [hh]
    exact Throughout.cons_iff.mpr ⟨rfl, .nil⟩
  · rw [hh]
    exact Throughout.cons_iff.mpr ⟨⟨(by rintro ⟨⟩), (by rintro ⟨⟩)⟩, .nil⟩
  · rw [hh]
    exact Nat.zero_le 1
  · rw [hh]
    exact Nat.zero_le 1
  · rintro ⟨⟩
  · rw [fresh, ← hm, Function.update_eq_self]
  · rw [fresh, Bool.toNat_false, Nat.add_zero, Function.update_eq_self]

/-- Both removals are still to come. -/
def Unremoved (w : World) : Prop :=
  ∀ e ∈ w.history, e.command.isRemove = false ∧ e.command.isRmmod = false

theorem Unremoved.ran (h : Unremoved w) {flags : Flags} {c : Command} {success : Bool}
    (hc : c.isRemove = false ∧ c.isRmmod = false) : Unremoved (w.ran flags c success) := by
  intro e he
  rcases List.mem_cons.mp he with rfl | he
  · exact hc
  · exact h e he

theorem Unremoved.count (h : Unremoved w) : rmmods w.history = 0 ∧ removals w.history = 0 := by
  constructor
  · refine List.countP_eq_zero.mpr fun e he => ?_
    simp [(h e he).2]
  · refine List.countP_eq_zero.mpr fun e he => ?_
    simp [(h e he).1]

namespace Held

variable {w₀ : World} {g : DriverGuard}

theorem added (h : Held w₀ g w) (hu : Unremoved w) (hl : g.overlayLoaded = false)
    (directory : String) (parameters : List String) :
    Held w₀ { g with overlayLoaded := true }
      ((Command.dtoverlayAdd directory g.overlay parameters).effect
        (w.ran g.flags (.dtoverlayAdd directory g.overlay parameters) true)) where
  now := by
    have hnow := h.now
    simp only [DriverGuard.flags] at hnow
    simp [DriverGuard.flags, Command.effect, World.ran, installed, ← hnow]
  flags := Throughout.cons_iff.mpr ⟨h.now, h.flags⟩
  order := Throughout.cons_iff.mpr ⟨⟨(by rintro ⟨⟩), (by rintro ⟨⟩)⟩, h.order⟩
  rmmods := by simpa [Command.effect, World.ran, Loader.rmmods, Command.isRmmod] using h.rmmods
  removals := by
    change Loader.removals (_ :: w.history) + 1 ≤ 1
    rw [Loader.removals, List.countP_cons_of_neg (by simp [Command.isRemove])]
    exact Nat.succ_le_succ hu.count.2.le
  first := fun hl' e he => ((hu.ran ⟨rfl, rfl⟩) e he).1
  modules := h.modules
  overlays := by simp [Command.effect, World.ran, h.overlays, hl]

theorem inserted (h : Held w₀ g w) (hu : Unremoved w) (directory : String) :
    Held w₀ { g with moduleLoaded := true }
      ((Command.insmod directory g.module).effect
        (w.ran g.flags (.insmod directory g.module) true)) where
  now := by
    have hnow := h.now
    simp only [DriverGuard.flags] at hnow
    simp [DriverGuard.flags, Command.effect, World.ran, installed, ← hnow]
  flags := Throughout.cons_iff.mpr ⟨h.now, h.flags⟩
  order := Throughout.cons_iff.mpr ⟨⟨(by rintro ⟨⟩), (by rintro ⟨⟩)⟩, h.order⟩
  rmmods := by
    change Loader.rmmods (_ :: w.history) + 1 ≤ 1
    rw [Loader.rmmods, List.countP_cons_of_neg (by simp [Command.isRmmod])]
    exact Nat.succ_le_succ hu.count.1.le
  removals := by
    have := h.removals
    simpa [Command.effect, World.ran, Loader.removals, Command.isRemove] using this
  first := fun hl' e he => ((hu.ran ⟨rfl, rfl⟩) e he).1
  modules := by simp [Command.effect, World.ran, h.modules]
  overlays := h.overlays

end Held

/-- How a load ends: with a guard, or with an error behind which the guard was dropped. -/
def Ends (w₀ : World) (configuration : DriverConfiguration)
    (result : Except Error DriverGuard × World) : Prop :=
  ∃ g w, Held w₀ g w ∧ g.module = configuration.module ∧
    (result = (.ok g, w) ∨ ∃ e, result = (.error e, g.drop w))

theorem awaitDevice_ends {w₀ : World} {g : DriverGuard} (h : Held w₀ g w)
    (hg : g.module = configuration.module) :
    Ends w₀ configuration (awaitDevice configuration g w) := by
  have hsame := h.congr (waitDevice_ends w).1
  rw [awaitDevice]
  rcases hwait : waitDevice w with ⟨_ | _, w'⟩
  · rw [hwait] at hsame
    exact ⟨g, w', hsame, hg, .inr ⟨_, rfl⟩⟩
  · rw [hwait] at hsame
    exact ⟨g, w', hsame, hg, .inl rfl⟩

theorem installModule_ends {w₀ : World} {g : DriverGuard} (h : Held w₀ g w) (hu : Unremoved w)
    (hg : g.module = configuration.module) (directory : String) :
    Ends w₀ configuration (installModule configuration directory g w) := by
  rw [installModule, ← hg]
  by_cases hexit : w.exits.head = .success
  · rw [World.runCommand_success hexit]
    exact awaitDevice_ends (h.inserted hu directory) hg
  · obtain ⟨e, he⟩ := World.runCommand_failure hexit g.flags (.insmod directory g.module)
    rw [he]
    exact ⟨g, _, h.failed (by rintro ⟨⟩) (by rintro ⟨⟩), hg, .inr ⟨e, rfl⟩⟩

theorem install_ends (h : Started configuration w) (directory : String)
    (parameters : List String) :
    Ends w configuration (install configuration directory parameters w) := by
  have hfresh := fresh_held h
  have hu : Unremoved w := by
    intro e he
    rw [h.2] at he
    rw [List.mem_singleton.mp he]
    exact ⟨rfl, rfl⟩
  rw [install]
  by_cases hexit : w.exits.head = .success
  · rw [World.runCommand_success hexit]
    exact installModule_ends (hfresh.added hu rfl directory parameters) (hu.ran ⟨rfl, rfl⟩) rfl
      directory
  · obtain ⟨e, he⟩ := World.runCommand_failure hexit (fresh configuration).flags
      (.dtoverlayAdd directory configuration.overlay parameters)
    rw [he]
    exact ⟨_, _, hfresh.failed (by rintro ⟨⟩) (by rintro ⟨⟩), rfl, .inr ⟨e, rfl⟩⟩

end

/-! ## The life of a guard -/

theorem unload_module (g : DriverGuard) (w : World) : (g.unload w).2.1.module = g.module := by
  have hoverlay : ∀ (g : DriverGuard) (w : World), (g.unloadOverlay w).2.1.module = g.module := by
    intro g w
    rcases g.unloadOverlay_cases w with ⟨-, he⟩ | ⟨-, he⟩ | ⟨-, e, he⟩ <;> rw [he]
  rw [unload]
  rcases g.unloadModule_cases w with ⟨-, he⟩ | ⟨-, he⟩ | ⟨-, e, he⟩ <;> rw [he]
  · exact hoverlay g w
  · exact hoverlay _ _

theorem due_removes {g : DriverGuard} {c : Command} (h : c ∈ g.due) :
    c.isRmmod = true ∨ c.isRemove = true := by
  rcases List.mem_append.mp h with h | h
  · split_ifs at h
    · rw [List.mem_singleton.mp h]
      exact .inl rfl
    · cases h
  · split_ifs at h
    · rw [List.mem_singleton.mp h]
      exact .inr rfl
    · cases h

theorem flags_of_due {g : DriverGuard} (h : g.due = []) : g.flags = .down := by
  obtain ⟨hm, ho⟩ := List.append_eq_nil_iff.mp h
  have hm' : g.moduleLoaded = false := by
    by_contra hl
    simp [hl] at hm
  have ho' : g.overlayLoaded = false := by
    by_contra hl
    simp [hl] at ho
  rw [DriverGuard.flags, hm', ho']
  rfl

/-- A guard that is dropped with no command failing leaves the host as it was. -/
theorem drop_restored {w₀ w : World} {g : DriverGuard} (h : Held w₀ g w)
    (hm : w₀.modules g.module = false) (hclean : CleanupSucceeded (g.drop w).history) :
    (g.drop w).modules = w₀.modules ∧ (g.drop w).overlays = w₀.overlays := by
  obtain ⟨done, rest, ran, hdue, hdue', hhist, ⟨-, rfl, -⟩ | ⟨e, c, more, -, rfl, hran⟩⟩ :=
    g.unload_resumes w
  · exact (unload_held h).restored (by rwa [unload_module]) (flags_of_due hdue')
  · -- the step that failed is in the history
    obtain ⟨entry, hentry, heq⟩ : ∃ entry ∈ ran, (entry.command, entry.success) = (c, false) := by
      have hmem : (c, false) ∈ ran.reverse.map fun e => (e.command, e.success) := by
        rw [hran]
        simp
      obtain ⟨entry, hentry, heq⟩ := List.mem_map.mp hmem
      exact ⟨entry, List.mem_reverse.mp hentry, heq⟩
    obtain ⟨hc, hs⟩ := Prod.mk.inj heq
    have hin : entry ∈ (g.drop w).history := by
      rw [drop, hhist]
      exact List.mem_append_left _ hentry
    have hcdue : c ∈ g.due := by
      rw [hdue]
      simp
    have := hclean entry hin (by rw [hc]; exact due_removes hcdue)
    rw [hs] at this
    cases this

/-- Before the guard exists the host has only been asked for the list of overlays. -/
theorem transactional_list {success : Bool} :
    Transactional [⟨.dtoverlayList, success, .down⟩] where
  flags := Throughout.cons_iff.mpr ⟨rfl, .nil⟩
  order := Throughout.cons_iff.mpr ⟨⟨(by rintro ⟨⟩), (by rintro ⟨⟩)⟩, .nil⟩
  rmmods := by cases success <;> exact Nat.zero_le 1
  removals := by cases success <;> exact Nat.zero_le 1

theorem transactional_nil : Transactional [] where
  flags := .nil
  order := .nil
  rmmods := Nat.zero_le 1
  removals := Nat.zero_le 1

/-- A load fails before the guard exists, or ends as the installation does. -/
theorem loadConfigured_cases (out : Outside) (files : Files) (directory : String)
    (configuration : DriverConfiguration) (address : ℕ) (idlePull : IdlePull)
    (readyGpio : Option ℕ) {w : World} (hhist : w.history = []) :
    (∃ e w', loadConfigured out files directory configuration address idlePull readyGpio w =
        (.error e, w') ∧ Transactional w'.history ∧ w'.modules = w.modules ∧
        w'.overlays = w.overlays) ∨
    ∃ w₁, w₁.modules = w.modules ∧ w₁.overlays = w.overlays ∧ Started configuration w₁ ∧
      Ends w₁ configuration
        (loadConfigured out files directory configuration address idlePull readyGpio w) := by
  have hnone : Transactional w.history := by
    rw [hhist]
    exact transactional_nil
  rw [loadConfigured]
  rcases readModel out files configuration with e | _
  · exact .inl ⟨e, w, rfl, hnone, rfl, rfl⟩
  rcases validateReadyGpio configuration.hardwareName configuration.targetPins readyGpio with e | _
  · exact .inl ⟨e, w, rfl, hnone, rfl, rfl⟩
  rcases ensureUnloaded_cases out configuration w with
    ⟨e, w', he, hm, ho, hh⟩ | ⟨hm, he⟩
  · dsimp only
    rw [he]
    refine .inl ⟨e, w', rfl, ?_, hm, ho⟩
    rcases hh with hh | ⟨success, hh⟩
    · rwa [hh]
    · rw [hh, hhist]
      exact transactional_list
  · dsimp only
    rw [he]
    have hstarted : Started configuration (w.looked.ran .down .dtoverlayList true) :=
      ⟨hm, congrArg _ hhist⟩
    dsimp only
    rcases ensureArtifactsCurrent files directory configuration.module configuration.overlay
      with e | _
    · refine .inl ⟨e, _, rfl, ?_, rfl, rfl⟩
      rw [hstarted.2]
      exact transactional_list
    · exact .inr ⟨w.looked.ran .down .dtoverlayList true, rfl, rfl, hstarted,
        install_ends hstarted directory _⟩

/-- What is said of a load on the host `w`, of any number of calls of `unload` behind it and of the
drop: an error whose cleanup succeeds leaves the host as it was, and a guard always knows what it
has installed, removes it in order and at most once, and resumes where a removal failed. -/
structure LoadTransactional (w : World) (load : Except Error DriverGuard × World) : Prop where
  error : ∀ e w', load = (.error e, w') → Transactional w'.history ∧
    (CleanupSucceeded w'.history → w'.modules = w.modules ∧ w'.overlays = w.overlays)
  guard : ∀ g w', load = (.ok g, w') → ∀ n,
    let g' := (unloads n g w').1
    let w'' := (unloads n g w').2
    g'.flags = installed w''.history ∧ Transactional (g'.drop w'').history ∧
      Resumes g' w'' (g'.unload w'').1 (g'.unload w'').2.1 (g'.drop w'')

theorem guard_transactional (out : Outside) (files : Files) (directory : String)
    (configuration : DriverConfiguration) (address : ℕ) (idlePull : IdlePull)
    (readyGpio : Option ℕ) (w : World) (hhist : w.history = []) :
    LoadTransactional w
      (loadConfigured out files directory configuration address idlePull readyGpio w) := by
  rcases loadConfigured_cases out files directory configuration address idlePull readyGpio hhist
    with ⟨e, w', he, ht, hm, ho⟩ | ⟨w₁, hm, ho, hs, g, w', hheld, hg, hr | ⟨e, hr⟩⟩
  · rw [he]
    exact ⟨by rintro _ _ ⟨⟩; exact ⟨ht, fun _ => ⟨hm, ho⟩⟩, by rintro _ _ ⟨⟩⟩
  · rw [hr]
    refine ⟨by rintro _ _ ⟨⟩, ?_⟩
    rintro _ _ ⟨⟩ n
    have hn := unloads_held hheld n
    exact ⟨hn.now, (unload_held hn).transactional, unload_resumes _ _⟩
  · rw [hr]
    refine ⟨?_, by rintro _ _ ⟨⟩⟩
    rintro _ _ ⟨⟩
    refine ⟨(unload_held hheld).transactional, fun hclean => ?_⟩
    rw [← hm, ← ho]
    exact drop_restored hheld (by rw [hg]; exact hs.1) hclean

/-! ### A module that is in use for a while -/

/-- The third removal attempt is the first one that succeeds. -/
def busyModule : World where
  modules _ := false
  overlays _ := 0
  exits := [.success, .success, .success, .failure "exit status: 1" "rmmod: in use",
    .failure "exit status: 1" "rmmod: in use"] ++ₛ .const .success
  nodes := .cons false (.const true)
  clock := 0
  lags := .const 0
  history := []

def pi4Configuration : DriverConfiguration where
  hardwareName := "Raspberry Pi 4"
  modelContains := "Raspberry Pi 4 Model B"
  overlay := overlayNames 1
  module := moduleName
  device := devicePath
  targetPins := [10, 11]

/-- Every artifact is there and none is stale. -/
def builtFiles : Files where
  model := .ok "Raspberry Pi 4 Model B Rev 1.5"
  isFile _ := true
  modified _ := .ok 0

theorem guard_transactional_busyModule :
    LoadTransactional busyModule
      (loadConfigured listing builtFiles "kernel" pi4Configuration 0x13 .none (some 17)
        busyModule) :=
  guard_transactional listing builtFiles "kernel" pi4Configuration 0x13 .none (some 17) busyModule
    rfl

end DriverGuard

end BscTarget.Loader
