import BscTarget.Lib.Histories
import BscTarget.Loader.Host

/-!
# Cleanup of what an earlier run left

`unload_existing` removes the module and every instance of the first overlay, which it does in a
loop, and at most one instance of the second. A second instance of the latter stays behind
(`unloadExisting_cleans`).
-/

namespace BscTarget.Loader

section

variable (out : Outside)

/-- `loop`: one list and one removal for each round. -/
def removeLoop (overlay : String) : ℕ → Bool → World → Option (Except Error Bool × World)
  | 0, _, _ => none
  | fuel + 1, changed, w =>
    match w.activeOverlays out with
    | (.error e, w) => some (.error e, w)
    | (.ok overlays, w) =>
      if overlayIsActive overlays overlay then
        match w.runCommand .down (.dtoverlayRemove overlay) with
        | (.error e, w) => some (.error e, w)
        | (.ok (), w) => removeLoop overlay fuel true w
      else some (.ok changed, w)

/-- The rounds are bounded by the number of instances; `none` would be a loop that goes on. -/
def unloadExistingConfigured (configuration : DriverConfiguration) (w : World) :
    Option (Except Error Bool × World) :=
  let moduleLoaded := w.modules configuration.module
  let (found, w) := w.deviceExists
  if found && !moduleLoaded then
    some (.error ⟨.other, configuration.device ++ " exists but " ++ configuration.module ++
      " is not loaded; refusing automatic cleanup"⟩, w)
  else if moduleLoaded then
    match w.runCommand .down (.rmmod configuration.module) with
    | (.error e, w) => some (.error e, w)
    | (.ok (), w) =>
      removeLoop out configuration.overlay (w.overlays configuration.overlay + 1) true w
  else removeLoop out configuration.overlay (w.overlays configuration.overlay + 1) false w

def existingConfiguration : DriverConfiguration where
  hardwareName := "Raspberry Pi BSC target"
  modelContains := "Raspberry Pi"
  overlay := overlayNames 0
  module := moduleName
  device := devicePath
  targetPins := []

/-- `unload_existing` behind the configured routine. -/
def unloadSecond (changed : Bool) (w : World) : Except Error Bool × World :=
  match w.activeOverlays out with
  | (.error e, w) => (.error e, w)
  | (.ok overlays, w) =>
    if overlayIsActive overlays (overlayNames 1) then
      match w.runCommand .down (.dtoverlayRemove (overlayNames 1)) with
      | (.error e, w) => (.error e, w)
      | (.ok (), w) => (.ok true, w)
    else (.ok changed, w)

def unloadExisting (w : World) : Option (Except Error Bool × World) :=
  match unloadExistingConfigured out existingConfiguration w with
  | none => none
  | some (.error e, w) => some (.error e, w)
  | some (.ok changed, w) => some (unloadSecond out changed w)

end

/-! ## Completeness -/

/-- Whether the module is loaded, if it was `loaded` at first. -/
def loadedAfter (loaded : Bool) : List Entry → Bool
  | [] => loaded
  | ⟨.rmmod _, true, _⟩ :: _ => false
  | ⟨.insmod _ _, true, _⟩ :: _ => true
  | _ :: history => loadedAfter loaded history

/-- No overlay is removed while the module is loaded. -/
def ModuleFirst (loaded : Bool) (history : List Entry) : Prop :=
  Throughout (fun e older => ∀ overlay, e.command = .dtoverlayRemove overlay →
    loadedAfter loaded older = false) history

/-- Nothing is left, and `changed` says whether something was removed. -/
structure Cleaned (w w' : World) (changed : Bool) : Prop where
  module : w'.modules moduleName = false
  overlays : ∀ i, w'.overlays (overlayNames i) = 0
  changed : changed = true ↔ w'.modules moduleName ≠ w.modules moduleName ∨
    ∃ i, w'.overlays (overlayNames i) ≠ w.overlays (overlayNames i)

/-- The cleanup comes to an end, never removes an overlay under the module, and if it returns
without an error, nothing is left. -/
def CleansUp (out : Outside) (w : World) : Prop :=
  ∃ r w', unloadExisting out w = some (r, w') ∧
    ModuleFirst (w.modules moduleName) w'.history ∧
    ∀ changed, r = .ok changed → Cleaned w w' changed

/-! ## The commands -/

/-- The history agrees with the host, and no overlay was removed under the module. -/
structure Tidy (loaded : Bool) (w : World) : Prop where
  order : ModuleFirst loaded w.history
  loaded : loadedAfter loaded w.history = w.modules moduleName

namespace Tidy

variable {loaded : Bool} {w : World}

/-- A command that failed, or the list. -/
theorem ran {flags : Flags} {c : Command} {success : Bool} (h : Tidy loaded w)
    (hc : success = false ∨ c = .dtoverlayList)
    (hr : ∀ overlay, c = .dtoverlayRemove overlay → w.modules moduleName = false) :
    Tidy loaded (w.ran flags c success) where
  order := Throughout.cons_iff.mpr ⟨fun o ho => h.loaded.trans (hr o ho), h.order⟩
  loaded := by
    rcases hc with rfl | rfl
    · cases c <;> exact h.loaded
    · exact h.loaded

theorem removed (h : Tidy loaded w) (overlay : String) (hm : w.modules moduleName = false) :
    Tidy loaded ((Command.dtoverlayRemove overlay).effect
      (w.ran .down (.dtoverlayRemove overlay) true)) where
  order := Throughout.cons_iff.mpr ⟨fun _ _ => h.loaded.trans hm, h.order⟩
  loaded := h.loaded

theorem rmmod (h : Tidy loaded w) :
    Tidy loaded ((Command.rmmod moduleName).effect (w.ran .down (.rmmod moduleName) true)) where
  order := Throughout.cons_iff.mpr ⟨(by rintro o ⟨⟩), h.order⟩
  loaded := by simp [Command.effect, World.ran, loadedAfter]

end Tidy

/-- What a part of the cleanup does with `n` commands: it leaves `left` and answers `changed` if
they all succeed, and fails otherwise. -/
structure Part (loaded : Bool) (n : ℕ) (w : World) (changed : Bool) (left : String → ℕ)
    (r : Except Error Bool) (w' : World) : Prop where
  tidy : Tidy loaded w'
  modules : w'.modules moduleName = false
  done : AllSucceed n w.exits →
    r = .ok changed ∧ w'.overlays = left ∧ w'.exits = w.exits.drop n
  failed : ¬ AllSucceed n w.exits → ∃ e, r = .error e

theorem removeLoop_part {out : Outside} {overlay : String} (hlist : out.Lists overlay)
    {loaded : Bool} : ∀ (fuel : ℕ) (changed : Bool) (w : World), Tidy loaded w →
    w.modules moduleName = false → w.overlays overlay < fuel →
    ∃ r w', removeLoop out overlay fuel changed w = some (r, w') ∧
      Part loaded (2 * w.overlays overlay + 1) w (changed || decide (0 < w.overlays overlay))
        (Function.update w.overlays overlay 0) r w' := by
  intro fuel
  induction fuel with
  | zero => exact fun _ _ _ _ h => by cases h
  | succ fuel ih =>
    intro changed w ht hm hfuel
    rw [removeLoop]
    by_cases h₁ : w.exits.head = .success
    swap
    · obtain ⟨e, he⟩ := World.activeOverlays_failure h₁ out
      rw [he]
      refine ⟨_, _, rfl, ht.ran (.inl rfl) (by rintro o ⟨⟩), hm, fun h => ?_, fun _ => ⟨e, rfl⟩⟩
      exact absurd (allSucceed_succ.mp h).1 h₁
    rw [World.activeOverlays_success h₁]
    have ht₁ : Tidy loaded (w.ran .down .dtoverlayList true) :=
      ht.ran (.inr rfl) (by rintro o ⟨⟩)
    dsimp only
    by_cases hpos : 0 < w.overlays overlay
    swap
    · -- nothing left
      have hzero : w.overlays overlay = 0 := Nat.eq_zero_of_not_pos hpos
      rw [if_neg (by rwa [hlist])]
      refine ⟨_, _, rfl, ht₁, hm, fun _ => ⟨by simp [hpos], ?_, by rw [hzero]; rfl⟩, ?_⟩
      · rw [← hzero, Function.update_eq_self]
        rfl
      · intro h
        refine absurd ?_ h
        rw [hzero]
        exact allSucceed_succ.mpr ⟨h₁, fun k hk => by cases hk⟩
    rw [if_pos ((hlist _).mpr hpos)]
    obtain ⟨k, hk⟩ : ∃ k, w.overlays overlay = k + 1 := ⟨_, (Nat.succ_pred_eq_of_pos hpos).symm⟩
    have hn : 2 * w.overlays overlay + 1 = 2 * k + 1 + 1 + 1 := by omega
    by_cases h₂ : w.exits.tail.head = .success
    swap
    · obtain ⟨e, he⟩ := World.runCommand_failure (w := w.ran .down .dtoverlayList true) h₂ .down
        (.dtoverlayRemove overlay)
      rw [he]
      refine ⟨_, _, rfl, ht₁.ran (.inl rfl) (fun _ _ => hm), hm, fun h => ?_, fun _ => ⟨e, rfl⟩⟩
      rw [hn] at h
      exact absurd (allSucceed_succ.mp (allSucceed_succ.mp h).2).1 h₂
    rw [World.runCommand_success (w := w.ran .down .dtoverlayList true) h₂]
    have ht₂ := ht₁.removed overlay hm
    have hcount : ((Command.dtoverlayRemove overlay).effect
        ((w.ran .down .dtoverlayList true).ran .down (.dtoverlayRemove overlay) true)).overlays =
          Function.update w.overlays overlay k := by
      simp [Command.effect, World.ran, hk]
    obtain ⟨r, w', hr, hp⟩ := ih true _ ht₂ hm
      (by rw [hcount, Function.update_self]; omega)
    rw [hcount, Function.update_self, Function.update_idem] at hp
    refine ⟨r, w', hr, hp.tidy, hp.modules, fun h => ?_, fun h => hp.failed fun h' => h ?_⟩
    · rw [hn] at h
      obtain ⟨hok, hleft, hexits⟩ := hp.done (allSucceed_succ.mp (allSucceed_succ.mp h).2).2
      refine ⟨by simpa [hpos] using hok, hleft, ?_⟩
      rw [hexits, hn]
      rfl
    · rw [hn]
      exact allSucceed_succ.mpr ⟨h₁, allSucceed_succ.mpr ⟨h₂, h'⟩⟩

theorem unloadSecond_part {out : Outside} (hlist : out.Lists (overlayNames 1)) {loaded : Bool}
    (changed : Bool) {w : World} (ht : Tidy loaded w) (hm : w.modules moduleName = false) :
    ∃ r w', unloadSecond out changed w = (r, w') ∧
      Part loaded (if 0 < w.overlays (overlayNames 1) then 2 else 1) w
        (changed || decide (0 < w.overlays (overlayNames 1)))
        (Function.update w.overlays (overlayNames 1) (w.overlays (overlayNames 1) - 1)) r w' := by
  rw [unloadSecond]
  by_cases h₁ : w.exits.head = .success
  swap
  · obtain ⟨e, he⟩ := World.activeOverlays_failure h₁ out
    rw [he]
    refine ⟨_, _, rfl, ht.ran (.inl rfl) (by rintro o ⟨⟩), hm, fun h => ?_, fun _ => ⟨e, rfl⟩⟩
    split_ifs at h <;> exact absurd (allSucceed_succ.mp h).1 h₁
  rw [World.activeOverlays_success h₁]
  have ht₁ : Tidy loaded (w.ran .down .dtoverlayList true) := ht.ran (.inr rfl) (by rintro o ⟨⟩)
  dsimp only
  by_cases hpos : 0 < w.overlays (overlayNames 1)
  swap
  · have hzero : w.overlays (overlayNames 1) = 0 := Nat.eq_zero_of_not_pos hpos
    rw [if_neg (by rwa [hlist]), if_neg hpos]
    refine ⟨_, _, rfl, ht₁, hm, fun _ => ⟨by simp [hpos], ?_, rfl⟩, ?_⟩
    · rw [hzero, Nat.zero_sub, ← hzero, Function.update_eq_self]
      rfl
    · exact fun h => absurd (allSucceed_succ.mpr ⟨h₁, fun k hk => by cases hk⟩) h
  rw [if_pos ((hlist _).mpr hpos), if_pos hpos]
  by_cases h₂ : w.exits.tail.head = .success
  swap
  · obtain ⟨e, he⟩ := World.runCommand_failure (w := w.ran .down .dtoverlayList true) h₂ .down
      (.dtoverlayRemove (overlayNames 1))
    rw [he]
    refine ⟨_, _, rfl, ht₁.ran (.inl rfl) (fun _ _ => hm), hm, fun h => ?_, fun _ => ⟨e, rfl⟩⟩
    exact absurd (allSucceed_succ.mp (allSucceed_succ.mp h).2).1 h₂
  rw [World.runCommand_success (w := w.ran .down .dtoverlayList true) h₂]
  refine ⟨_, _, rfl, ht₁.removed _ hm, hm, fun _ => ⟨by simp [hpos], rfl, rfl⟩, fun h => ?_⟩
  exact absurd (allSucceed_succ.mpr ⟨h₁, allSucceed_succ.mpr ⟨h₂, fun k hk => by cases hk⟩⟩) h

/-- The device exists although the module is not loaded; nothing is touched then. -/
def Refused (w : World) : Prop := w.nodes.head = true ∧ w.modules moduleName = false

theorem configured_refused (out : Outside) {w : World} (h : Refused w) :
    ∃ e, unloadExistingConfigured out existingConfiguration w = some (.error e, w.looked) := by
  obtain ⟨hn, hm⟩ := h
  have hm' : w.modules existingConfiguration.module = false := hm
  simp only [unloadExistingConfigured, World.deviceExists, hn, hm', Bool.not_false, Bool.and_self,
    if_true]
  exact ⟨_, rfl⟩

theorem configured_part {out : Outside} (hlist : out.Lists (overlayNames 0)) {loaded : Bool}
    {w : World} (ht : Tidy loaded w) (href : ¬ Refused w) :
    ∃ r w', unloadExistingConfigured out existingConfiguration w = some (r, w') ∧
      (Part loaded ((if w.modules moduleName then 1 else 0) + (2 * w.overlays (overlayNames 0) + 1))
        w (w.modules moduleName || decide (0 < w.overlays (overlayNames 0)))
        (Function.update w.overlays (overlayNames 0) 0) r w' ∨
      ¬ AllSucceed 1 w.exits ∧ w.modules moduleName = true ∧ Tidy loaded w' ∧
        ∃ e, r = .error e) := by
  have ht' : Tidy loaded w.looked := ⟨ht.order, ht.loaded⟩
  have hgo : (w.nodes.head && !w.modules existingConfiguration.module) = false := by
    cases hn : w.nodes.head with
    | false => rfl
    | true =>
      cases hm : w.modules moduleName with
      | false => exact absurd ⟨hn, hm⟩ href
      | true => simpa [existingConfiguration] using hm
  rw [unloadExistingConfigured]
  simp only [World.deviceExists, hgo, Bool.false_eq_true, if_false]
  by_cases hm : w.modules moduleName = true
  swap
  · have hm₀ : w.modules moduleName = false := by simpa using hm
    rw [if_neg (by simpa [existingConfiguration] using hm)]
    obtain ⟨r, w', hr, hp⟩ := removeLoop_part hlist (w.overlays (overlayNames 0) + 1) false w.looked
      ht' hm₀ (Nat.lt_succ_self _)
    refine ⟨r, w', hr, .inl ?_⟩
    rw [hm₀, if_neg Bool.false_ne_true, Nat.zero_add]
    exact ⟨hp.tidy, hp.modules, hp.done, hp.failed⟩
  rw [if_pos (by simpa [existingConfiguration] using hm)]
  by_cases h₁ : w.exits.head = .success
  swap
  · obtain ⟨e, he⟩ := World.runCommand_failure (w := w.looked) h₁ .down
      (.rmmod existingConfiguration.module)
    rw [he]
    refine ⟨_, _, rfl, .inr ⟨?_, hm, ht'.ran (.inl rfl) (by rintro o ⟨⟩), e, rfl⟩⟩
    exact fun h => h₁ (allSucceed_succ.mp h).1
  rw [World.runCommand_success (w := w.looked) h₁]
  obtain ⟨r, w', hr, hp⟩ := removeLoop_part hlist (w.overlays (overlayNames 0) + 1) true _
    ht'.rmmod (by simp [Command.effect]) (Nat.lt_succ_self _)
  have hn : 1 + (2 * w.overlays (overlayNames 0) + 1) =
      2 * w.overlays (overlayNames 0) + 1 + 1 := Nat.add_comm _ _
  refine ⟨r, w', hr, .inl ⟨hp.tidy, hp.modules, ?_, ?_⟩⟩
  · rw [if_pos hm, hn, hm]
    intro h
    exact hp.done (allSucceed_succ.mp h).2
  · rw [if_pos hm, hn]
    exact fun h => hp.failed fun h' => h (allSucceed_succ.mpr ⟨h₁, h'⟩)

/-- Two parts, one after the other. -/
theorem allSucceed_add {m n : ℕ} {exits : Stream' Exit} :
    AllSucceed (m + n) exits ↔ AllSucceed m exits ∧ AllSucceed n (exits.drop m) := by
  constructor
  · intro h
    refine ⟨fun k hk => h k (by omega), fun k hk => ?_⟩
    rw [Stream'.get_drop]
    exact h (m + k) (by omega)
  · rintro ⟨hm, hn⟩ k hk
    by_cases hkm : k < m
    · exact hm k hkm
    · have := hn (k - m) (by omega)
      rwa [Stream'.get_drop, Nat.add_sub_cancel' (Nat.le_of_not_lt hkm)] at this

/-- How many commands `unload_existing` runs if all succeed and the second overlay is active. -/
def needed (w : World) : ℕ :=
  (if w.modules moduleName then 1 else 0) + (2 * w.overlays (overlayNames 0) + 1) + 2

theorem exists_failure {n : ℕ} {w : World} (hn : n ≤ needed w) (h : ¬ AllSucceed n w.exits) :
    ∃ k < needed w, w.exits.get k ≠ .success := by
  obtain ⟨k, hk, hne⟩ := not_allSucceed.mp h
  exact ⟨k, hk.trans_le hn, hne⟩

/-- What an error leaves does not matter, as long as no overlay was removed under the module. -/
theorem CleansUp.of_error {out : Outside} {w w' : World} {e : Error}
    (h : unloadExisting out w = some (.error e, w')) (ht : Tidy (w.modules moduleName) w') :
    CleansUp out w :=
  ⟨_, w', h, ht.order, by rintro changed ⟨⟩⟩

/-- Where every command succeeds, one instance of the second overlay is removed. -/
theorem cleansUp_iff_of_left {out : Outside} {w w' : World}
    (h : unloadExisting out w = some (.ok (w.modules moduleName ||
      decide (0 < w.overlays (overlayNames 0)) || decide (0 < w.overlays (overlayNames 1))), w'))
    (ht : Tidy (w.modules moduleName) w') (hm : w'.modules moduleName = false)
    (h₀ : w'.overlays (overlayNames 0) = 0)
    (h₁ : w'.overlays (overlayNames 1) = w.overlays (overlayNames 1) - 1) :
    CleansUp out w ↔ w.overlays (overlayNames 1) ≤ 1 := by
  constructor
  · rintro ⟨r, w'', h', -, hc⟩
    cases h.symm.trans h'
    have := (hc _ rfl).overlays 1
    omega
  · intro hle
    refine ⟨_, w', h, ht.order, ?_⟩
    rintro _ ⟨⟩
    refine ⟨hm, fun i => ?_, ?_⟩
    · match i with
      | 0 => exact h₀
      | 1 => omega
    · simp only [Bool.or_eq_true, decide_eq_true_eq, hm, Fin.exists_fin_two, h₀, h₁]
      cases w.modules moduleName
      · simp only [Bool.false_eq_true, false_or, ne_eq, not_true_eq_false]
        omega
      · simp

/-- The cleanup is complete exactly when it refuses, a command fails, or the overlay that is
removed without a loop has one instance at most. -/
theorem unloadExisting_cleans (out : Outside) (w : World) (hlist : ∀ i, out.Lists (overlayNames i))
    (hhist : w.history = []) :
    CleansUp out w ↔
      Refused w ∨ w.overlays (overlayNames 1) ≤ 1 ∨ ∃ k < needed w, w.exits.get k ≠ .success := by
  have ht : Tidy (w.modules moduleName) w := ⟨by rw [hhist]; exact .nil, by rw [hhist]; rfl⟩
  by_cases href : Refused w
  · obtain ⟨e, he⟩ := configured_refused out href
    have hu : unloadExisting out w = some (.error e, w.looked) := by rw [unloadExisting, he]
    exact ⟨fun _ => .inl href, fun _ => .of_error hu ⟨ht.order, ht.loaded⟩⟩
  obtain ⟨r, w₁, hr, hp | ⟨hfail, hm, ht₁, e, rfl⟩⟩ := configured_part (hlist 0) ht href
  swap
  · -- the module could not be removed
    have hu : unloadExisting out w = some (.error e, w₁) := by rw [unloadExisting, hr]
    exact ⟨fun _ => .inr (.inr (exists_failure (by rw [needed]; omega) hfail)),
      fun _ => .of_error hu ht₁⟩
  by_cases h₁ : AllSucceed ((if w.modules moduleName then 1 else 0) +
    (2 * w.overlays (overlayNames 0) + 1)) w.exits
  swap
  · -- a command of the configured routine failed
    obtain ⟨e, rfl⟩ := hp.failed h₁
    have hu : unloadExisting out w = some (.error e, w₁) := by rw [unloadExisting, hr]
    exact ⟨fun _ => .inr (.inr (exists_failure (by rw [needed]; omega) h₁)),
      fun _ => .of_error hu hp.tidy⟩
  obtain ⟨rfl, hleft, hexits⟩ := hp.done h₁
  have hne : overlayNames 1 ≠ overlayNames 0 := by decide
  have hsecond : w₁.overlays (overlayNames 1) = w.overlays (overlayNames 1) := by
    rw [hleft, Function.update_of_ne hne]
  obtain ⟨r, w₂, hr₂, hp₂⟩ := unloadSecond_part (hlist 1)
    (w.modules moduleName || decide (0 < w.overlays (overlayNames 0))) hp.tidy hp.modules
  have hu : unloadExisting out w = some (r, w₂) := by
    rw [unloadExisting, hr]
    exact congrArg some hr₂
  rw [hsecond] at hp₂
  by_cases h₂ : AllSucceed (if 0 < w.overlays (overlayNames 1) then 2 else 1) w₁.exits
  swap
  · -- a command behind it failed
    obtain ⟨e, rfl⟩ := hp₂.failed h₂
    refine ⟨fun _ => .inr ?_, fun _ => .of_error hu hp₂.tidy⟩
    by_cases hpos : 0 < w.overlays (overlayNames 1)
    · rw [if_pos hpos, hexits] at h₂
      exact .inr (not_allSucceed.mp fun h => h₂ (allSucceed_add.mp h).2)
    · exact .inl (by omega)
  obtain ⟨rfl, hleft₂, -⟩ := hp₂.done h₂
  have hiff := cleansUp_iff_of_left hu hp₂.tidy hp₂.modules
    (by rw [hleft₂, Function.update_of_ne hne.symm, hleft, Function.update_self])
    (by rw [hleft₂, Function.update_self])
  rw [hiff]
  refine ⟨fun h => .inr (.inl h), ?_⟩
  rintro (h | h | ⟨k, hk, hfail⟩)
  · exact absurd h href
  · exact h
  · by_contra hgt
    rw [if_pos (by omega), hexits] at h₂
    exact hfail (allSucceed_add.mpr ⟨h₁, h₂⟩ k hk)

/-! ### Stacked instances -/

/-- A host on which no command fails, with the module loaded and some instances active. -/
def stacked (pi3 pi4 : ℕ) : World where
  modules name := name == moduleName
  overlays name := if name = overlayNames 0 then pi3 else if name = overlayNames 1 then pi4 else 0
  exits := .const .success
  nodes := .const true
  clock := 0
  lags := .const 0
  history := []

theorem unloadExisting_cleans_stacked :
    CleansUp listing (stacked 2 1) ↔
      Refused (stacked 2 1) ∨ (stacked 2 1).overlays (overlayNames 1) ≤ 1 ∨
        ∃ k < needed (stacked 2 1), (stacked 2 1).exits.get k ≠ .success :=
  unloadExisting_cleans listing (stacked 2 1) listing_lists rfl

/-- Of two instances of the second overlay one stays, and nothing is reported. -/
theorem not_cleansUp_stacked :
    (∀ i, listing.Lists (overlayNames i)) ∧ (stacked 0 2).history = [] ∧
      ¬ CleansUp listing (stacked 0 2) := by
  refine ⟨listing_lists, rfl, ?_⟩
  have hrun : (unloadExisting listing (stacked 0 2)).map
      (fun p => (p.1.toOption, p.2.overlays (overlayNames 1))) = some (some true, 1) := by
    decide +kernel
  rintro ⟨r, w', h, -, hc⟩
  rw [h, Option.map_some, Option.some.injEq, Prod.mk.injEq] at hrun
  cases r with
  | error e => cases hrun.1
  | ok changed =>
    have := (hc changed rfl).overlays 1
    rw [hrun.2] at this
    cases this

end BscTarget.Loader
