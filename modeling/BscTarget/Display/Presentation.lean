import BscTarget.Display.Accounting
import BscTarget.Display.Bounds

/-!
# Presentation

`DisplayRuntime` of `virtual-display.rs` with its window and its clock. What the window shows and
when the deadline of an incomplete frame falls are said of a story of what was turned and rendered,
the newest first (`presentation`).
-/

namespace BscTarget

/-- `PARTIAL_FRAME_TIMEOUT`, in nanoseconds. -/
def partialFrameTimeout : ℕ := 75 * 1000 * 1000

/-- `DisplayRuntime` with its window, which is every framebuffer rendered to it, the newest first.
Readings of the clock are inputs. Every render succeeds: one that fails ends the program. The
counts of renders are `u64` and only printed; here they go on. -/
structure TimedRuntime extends DisplayRuntime where
  window : List Framebuffer
  visualRenders : ℕ
  timeoutRenders : ℕ
  partialFrameDeadline : Option ℕ

/-- What `SdlDisplay::new` renders. -/
def blank : Framebuffer := Vector.replicate framebufferSize 0

/-- A call of the runtime, with the clock as it reads where a deadline is set and where one is
checked. -/
inductive RuntimeCall
  | push (input : List UInt8) (armed checked : ℕ)
  | pollIdle (checked : ℕ)

def RuntimeCall.checked : RuntimeCall → ℕ
  | .push _ _ checked => checked
  | .pollIdle checked => checked

namespace TimedRuntime

def start (controller : DisplayController) : TimedRuntime where
  toDisplayRuntime := .start controller
  window := [blank]
  visualRenders := 0
  timeoutRenders := 0
  partialFrameDeadline := none

/-- The framebuffer is rendered, and nothing waits to be. -/
def render (r : TimedRuntime) : TimedRuntime :=
  { r with
    window := r.parser.framebuffer :: r.window
    visualRenders := r.visualRenders + 1
    partialFrameDeadline := none }

/-- A deadline that is set stays. -/
def arm (now : ℕ) (r : TimedRuntime) : TimedRuntime :=
  { r with
    partialFrameDeadline := some (r.partialFrameDeadline.getD (now + partialFrameTimeout)) }

/-- One turn of the loop in `push`, from the parser's update on. -/
def absorb (update : ParseUpdate) (parser : DisplayParser) (now : ℕ) (r : TimedRuntime) :
    TimedRuntime :=
  let r := { r with toDisplayRuntime := r.toDisplayRuntime.absorb update parser }
  if update.present then r.render
  else if 0 < update.displayUpdates then r.arm now
  else r

def pushLoop : ℕ → List UInt8 → ℕ → TimedRuntime → TimedRuntime
  | 0, _, _, r => r
  | fuel + 1, input, now, r =>
    let (update, parser) := r.parser.push input
    let r := r.absorb update parser now
    if update.present then pushLoop fuel [] now r else r

/-- `push` up to its `poll_idle`. -/
def feed (input : List UInt8) (armed : ℕ) (r : TimedRuntime) : TimedRuntime :=
  pushLoop ((r.parser.extend input).size + 1) input armed r

def pollIdle (now : ℕ) (r : TimedRuntime) : TimedRuntime :=
  if r.partialFrameDeadline.any (· ≤ now) then
    { r.render with timeoutRenders := r.timeoutRenders + 1 }
  else r

def push (input : List UInt8) (armed checked : ℕ) (r : TimedRuntime) : TimedRuntime :=
  (r.feed input armed).pollIdle checked

/-- A call up to its check of the deadline. -/
def unchecked (r : TimedRuntime) : RuntimeCall → TimedRuntime
  | .push input armed _ => r.feed input armed
  | .pollIdle _ => r

def perform (r : TimedRuntime) : RuntimeCall → TimedRuntime
  | .push input armed checked => r.push input armed checked
  | .pollIdle checked => r.pollIdle checked

/-- What the display counts and remembers is what it does without a clock. -/
theorem pushLoop_display (fuel : ℕ) (input : List UInt8) (now : ℕ) (r : TimedRuntime) :
    (pushLoop fuel input now r).toDisplayRuntime =
      DisplayRuntime.pushLoop fuel input r.toDisplayRuntime := by
  induction fuel generalizing input r with
  | zero => rfl
  | succ fuel ih =>
    rw [pushLoop, DisplayRuntime.pushLoop]
    dsimp only
    have habsorb : (r.absorb (r.parser.push input).1 (r.parser.push input).2 now).toDisplayRuntime =
        r.toDisplayRuntime.absorb (r.parser.push input).1 (r.parser.push input).2 := by
      unfold absorb
      dsimp only
      split_ifs <;> rfl
    split_ifs
    · rw [ih, habsorb]
    · exact habsorb

theorem feed_display (r : TimedRuntime) (input : List UInt8) (armed : ℕ) :
    (r.feed input armed).toDisplayRuntime = r.toDisplayRuntime.push input :=
  pushLoop_display _ _ _ _

end TimedRuntime

/-! ## Stories -/

/-- A turn of the parser, with the time it was processed, or a render at a deadline. -/
inductive Happening
  | turned (now : ℕ) (o : DisplayParser.Emission)
  | timeout (f : Framebuffer)

namespace Happening

/-- What is rendered for a happening. -/
def rendered : Happening → Option Framebuffer
  | turned _ o => if o.1.present then some o.2 else none
  | timeout f => some f

/-- The time of a display update. -/
def updatedAt : Happening → Option ℕ
  | turned now o => if 0 < o.1.displayUpdates then some now else none
  | timeout _ => none

/-- A complete frame or a boundary. -/
def ends : Happening → Bool
  | turned _ o => o.1.present
  | timeout _ => false

end Happening

/-- When the first display update was processed that nothing rendered since shows. -/
def firstUnrendered (story : List Happening) : Option ℕ :=
  (story.takeWhile fun h => h.rendered.isNone).reverse.findSome? Happening.updatedAt

def deadline (story : List Happening) : Option ℕ :=
  (firstUnrendered story).map (· + partialFrameTimeout)

/-- A check of the deadline. -/
def checkAt (now : ℕ) (f : Framebuffer) (story : List Happening) : List Happening :=
  if (deadline story).any (· ≤ now) then .timeout f :: story else story

/-- The turns of a call join the story. -/
def telling (now : ℕ) (os : List DisplayParser.Emission) (story : List Happening) :
    List Happening :=
  (os.map (Happening.turned now)).reverse ++ story

open DisplayParser in
/-- The story of a run, call by call. -/
inductive Played (c : DisplayController) :
    List RuntimeCall → List Happening → TimedRuntime → Prop
  | start : Played c [] [] (.start c)
  | push {calls : List RuntimeCall} {story : List Happening} {r : TimedRuntime}
      {input : List UInt8} {os : List Emission} {p : DisplayParser} (armed checked : ℕ)
      (h : Played c calls story r) (hr : Reads reader (r.parser.extend input) os p) :
      Played c (calls ++ [.push input armed checked])
        (checkAt checked p.framebuffer (telling armed os story)) (r.push input armed checked)
  | pollIdle {calls : List RuntimeCall} {story : List Happening} {r : TimedRuntime}
      (checked : ℕ) (h : Played c calls story r) :
      Played c (calls ++ [.pollIdle checked]) (checkAt checked r.parser.framebuffer story)
        (r.pollIdle checked)

section Stories

variable {story : List Happening} {h : Happening}

theorem firstUnrendered_rendered (hr : h.rendered.isSome = true) :
    firstUnrendered (h :: story) = none := by
  have hstop : ¬ h.rendered.isNone = true := by
    intro hnone
    rw [Option.isNone_iff_eq_none.mp hnone] at hr
    cases hr
  rw [firstUnrendered, List.takeWhile_cons, if_neg hstop]
  rfl

theorem firstUnrendered_turned (hr : h.rendered = none) :
    firstUnrendered (h :: story) = (firstUnrendered story).or h.updatedAt := by
  rw [firstUnrendered, List.takeWhile_cons_of_pos (by simp [hr]), List.reverse_cons,
    List.findSome?_append, List.findSome?_singleton]
  rfl

open DisplayParser

variable {os : List Emission}

theorem telling_cons (now : ℕ) (o : Emission) (os : List Emission) (story : List Happening) :
    telling now (o :: os) story = telling now os (.turned now o :: story) := by
  rw [telling, telling, List.map_cons, List.reverse_cons, List.append_assoc]
  rfl

theorem telling_append (now : ℕ) (os os' : List Emission) (story : List Happening) :
    telling now (os ++ os') story = telling now os' (telling now os story) := by
  rw [telling, telling, telling, List.map_append, List.reverse_append, List.append_assoc]

theorem telling_concat (now : ℕ) (os : List Emission) (o : Emission) (story : List Happening) :
    telling now (os ++ [o]) story = .turned now o :: telling now os story := by
  rw [telling, telling, List.map_append, List.reverse_append]
  rfl

/-- Turns with nothing to present. -/
theorem telling_silent (now : ℕ) (hos : ∀ o ∈ os, o.1.present = false) (story : List Happening) :
    firstUnrendered (telling now os story) =
        (firstUnrendered story).or (if 0 < (total os).displayUpdates then some now else none) ∧
      (telling now os story).filterMap Happening.rendered = story.filterMap Happening.rendered ∧
      (telling now os story).countP Happening.ends = story.countP Happening.ends := by
  induction os generalizing story with
  | nil => exact ⟨(Option.or_none).symm, rfl, rfl⟩
  | cons o os ih =>
    have ho := hos o List.mem_cons_self
    have hrendered : (Happening.turned now o).rendered = none :=
      if_neg (ne_true_of_eq_false ho)
    obtain ⟨hfirst, hrenders, hevents⟩ :=
      ih (fun o h => hos o (List.mem_cons_of_mem _ h)) (.turned now o :: story)
    rw [telling_cons]
    refine ⟨?_, ?_, ?_⟩
    · rw [hfirst, firstUnrendered_turned hrendered, Option.or_assoc]
      congr 1
      show (if 0 < o.1.displayUpdates then some now else none).or _ =
        if 0 < o.1.displayUpdates + _ then _ else _
      by_cases hupdate : 0 < o.1.displayUpdates
      · rw [if_pos hupdate, Option.some_or, if_pos (Nat.add_pos_left hupdate _)]
      · rw [if_neg hupdate, Option.none_or]
        exact if_congr (by omega) rfl rfl
    · rw [hrenders, List.filterMap_cons_none hrendered]
    · have hends : ¬ (Happening.turned now o).ends = true := ne_true_of_eq_false ho
      rw [hevents, List.countP_cons_of_neg hends]

end Stories

/-! ## One push of the parser -/

namespace DisplayParser

variable {p : DisplayParser} {u : ParseUpdate} {os : List Emission}
  {r : ParseUpdate × DisplayParser}

/-- A push reads on to the first thing to present, or until nothing is left to read. -/
inductive Stops : List Emission → ParseUpdate × DisplayParser → Prop
  | drained {os : List Emission} {r : ParseUpdate × DisplayParser} (h : r.1.present = false)
      (hd : r.2.Drained) (hos : ∀ o ∈ os, o.1.present = false) : Stops os r
  | presents {os : List Emission} {r : ParseUpdate × DisplayParser} {o : Emission}
      (h : r.1.present = true) (ho : o.1.present = true) (hf : o.2 = r.2.framebuffer)
      (hos : ∀ o ∈ os, o.1.present = false) : Stops (os ++ [o]) r

theorem Stops.cons {o : Emission} (h : Stops os r) (ho : o.1.present = false) :
    Stops (o :: os) r := by
  cases h with
  | drained h hd hos => exact .drained h hd (List.forall_mem_cons.mpr ⟨ho, hos⟩)
  | presents h ho' hf hos =>
    rw [← List.cons_append]
    exact .presents h ho' hf (List.forall_mem_cons.mpr ⟨ho, hos⟩)

theorem PushEnds.stops (h : PushEnds u p r) (hu : u.present = false) :
    ∃ os, Emits reader p os r.2 ∧ r.1 = u.plus (total os) ∧ Stops os r := by
  induction h with
  | @present u p h =>
    rw [advance_charge] at h ⊢
    have hpresent : (p.advance .none).2.1.present = true := by
      rw [charge, ParseUpdate.present_plus, hu, Bool.false_or] at h
      exact h
    refine ⟨_, .single (emitStep_goes (.inr hpresent)), ?_, ?_⟩
    · rw [total, total, ParseUpdate.plus_none]
      rfl
    · rw [← List.nil_append [_]]
      exact .presents h hpresent rfl fun o ho => by cases ho
  | @stuck u p h hs =>
    rw [advance_charge] at h hs ⊢
    have hwait : ¬ Goes (p.advance .none) := by
      rintro (hgoes | hgoes)
      · exact ne_true_of_eq_false hs hgoes
      · rw [charge, ParseUpdate.present_plus, hgoes, Bool.or_true] at h
        cases h
    rw [(advance_turn p []).waits hwait, charge_none]
    refine ⟨[], .nil p, (ParseUpdate.plus_none u).symm, .drained hu hwait fun o ho => by cases ho⟩
  | @next u p r h hs ht ih =>
    obtain ⟨os, hemits, hsum, hstops⟩ := ih h
    rw [advance_charge] at h hs hsum
    have hgoes : Goes (p.advance .none) := .inl hs
    have hsilent : (p.advance .none).2.1.present = false := by
      rw [charge, ParseUpdate.present_plus, hu, Bool.false_or] at h
      exact h
    rw [advance_charge] at hemits
    refine ⟨_, .cons (emitStep_goes hgoes) hemits, ?_, hstops.cons hsilent⟩
    rw [hsum, charge, total, ParseUpdate.plus_assoc]

theorem push_stops (p : DisplayParser) (input : List UInt8) :
    ∃ os, Emits reader (p.extend input) os (p.push input).2 ∧ (p.push input).1 = total os ∧
      Stops os (p.push input) := by
  obtain ⟨os, hemits, hsum, hstops⟩ := (parser_push_ends p input).stops rfl
  rw [ParseUpdate.none_plus] at hsum
  exact ⟨os, hemits, hsum, hstops⟩

/-- Without a display update the framebuffer stays as it is. -/
theorem Emits.framebuffer {p' : DisplayParser} (h : Emits reader p os p')
    (hu : (total os).displayUpdates = 0) : p'.framebuffer = p.framebuffer := by
  induction h with
  | nil => rfl
  | @cons p q t o os hstep _ ih =>
    have hsum : o.1.displayUpdates + (total os).displayUpdates = 0 := hu
    obtain ⟨m, hm, -⟩ := step_moves hstep
    rw [ih (by omega), hm.framebuffer]
    have hcounts := hm.counts
    match m with
    | .take (.payload w data) =>
      have hone : o.1.displayUpdates = 1 := hcounts.2
      omega
    | .take (.pattern _) => rfl
    | .take (.command _ _) => rfl
    | .take (.discarded _) => rfl
    | .abandon => rfl
    | .boundary => rfl

end DisplayParser

namespace TimedRuntime

open DisplayParser

variable {story : List Happening} {r : TimedRuntime}

/-- What the window, the counters and the deadline have to do with the story. -/
structure Presented (story : List Happening) (r : TimedRuntime) : Prop where
  shown : r.partialFrameDeadline = none → r.window.head? = some r.parser.framebuffer
  deadline : r.partialFrameDeadline = deadline story
  window : r.window = story.filterMap Happening.rendered ++ [blank]
  renders : r.visualRenders = story.countP Happening.ends + r.timeoutRenders

namespace Presented

theorem start (c : DisplayController) : Presented [] (.start c) := by
  refine ⟨fun _ => rfl, rfl, rfl, rfl⟩

/-- One turn of the loop in `push`. -/
theorem absorb (h : Presented story r) (input : List UInt8) (now : ℕ) {os : List Emission}
    (he : Emits reader (r.parser.extend input) os (r.parser.push input).2)
    (hsum : (r.parser.push input).1 = total os) (hstops : Stops os (r.parser.push input)) :
    Presented (telling now os story)
      (r.absorb (r.parser.push input).1 (r.parser.push input).2 now) := by
  generalize r.parser.push input = result at he hsum hstops
  obtain ⟨update, parser⟩ := result
  dsimp only at he hsum
  subst hsum
  cases hstops with
  | drained hpresent _ hos =>
    dsimp only at hpresent
    obtain ⟨hfirst, hrenders, hevents⟩ := telling_silent now hos story
    have hdeadline := h.deadline
    unfold TimedRuntime.absorb
    dsimp only
    rw [if_neg (ne_true_of_eq_false hpresent)]
    by_cases hupdate : 0 < (total os).displayUpdates
    · rw [if_pos hupdate] at hfirst ⊢
      refine ⟨fun hnone => ?_, ?_, ?_, ?_⟩
      · cases hnone
      · show some (r.partialFrameDeadline.getD _) = _
        rw [hdeadline, BscTarget.deadline, BscTarget.deadline, hfirst]
        cases firstUnrendered story <;> rfl
      · rw [hrenders]
        exact h.window
      · rw [hevents]
        exact h.renders
    · rw [if_neg hupdate] at hfirst ⊢
      refine ⟨fun hnone => ?_, ?_, ?_, ?_⟩
      · have hsame := Emits.framebuffer he (Nat.eq_zero_of_not_pos hupdate)
        show r.window.head? = some parser.framebuffer
        rw [hsame]
        exact h.shown hnone
      · show r.partialFrameDeadline = _
        rw [hdeadline, BscTarget.deadline, BscTarget.deadline, hfirst, Option.or_none]
      · rw [hrenders]
        exact h.window
      · rw [hevents]
        exact h.renders
  | @presents os _ o hpresent ho hf hos =>
    dsimp only at hpresent hf
    obtain ⟨-, hrenders, hevents⟩ := telling_silent now hos story
    have hrendered : (Happening.turned now o).rendered = some o.2 := if_pos ho
    have hends : (Happening.turned now o).ends = true := ho
    unfold TimedRuntime.absorb
    dsimp only
    rw [if_pos hpresent, telling_concat]
    refine ⟨fun _ => rfl, ?_, ?_, ?_⟩
    · rw [BscTarget.deadline, firstUnrendered_rendered (by rw [hrendered]; rfl)]
      rfl
    · rw [List.filterMap_cons_some hrendered, hrenders, hf, List.cons_append, ← h.window]
      rfl
    · rw [List.countP_cons_of_pos hends, hevents]
      show r.visualRenders + 1 = _ + r.timeoutRenders
      rw [h.renders]
      omega

theorem looped {fuel : ℕ} {input : List UInt8} (now : ℕ) (h : Presented story r)
    (hfuel : (r.parser.extend input).size < fuel) :
    ∃ os, Reads reader (r.parser.extend input) os (pushLoop fuel input now r).parser ∧
      Presented (telling now os story) (pushLoop fuel input now r) := by
  induction fuel generalizing input r story with
  | zero => omega
  | succ fuel ih =>
    obtain ⟨os, hemits, hsum, hstops⟩ := push_stops r.parser input
    obtain ⟨_, hpushed⟩ := push_pushed r.parser input
    have habsorbed := h.absorb input now hemits hsum hstops
    have hparser : (r.absorb (r.parser.push input).1 (r.parser.push input).2 now).parser =
        (r.parser.push input).2 := by
      unfold TimedRuntime.absorb
      dsimp only
      split_ifs <;> rfl
    rw [TimedRuntime.pushLoop]
    dsimp only
    by_cases hpresent : (r.parser.push input).1.present = true
    · have hnil : (r.parser.push input).2.extend [] = (r.parser.push input).2 := reader.extend_nil _
      have hsize := hpushed.shrinks hpresent
      have hfuel' : ((r.absorb (r.parser.push input).1 (r.parser.push input).2 now).parser.extend
          []).size < fuel := by
        rw [hparser, hnil]
        omega
      obtain ⟨os', hreads, hpresented⟩ := ih habsorbed hfuel'
      rw [hparser, hnil] at hreads
      rw [if_pos hpresent]
      refine ⟨os ++ os', hemits.reads hreads, ?_⟩
      rw [telling_append]
      exact hpresented
    · rw [if_neg hpresent]
      have hdrained := hpushed.drains (Bool.eq_false_iff.mpr hpresent)
      refine ⟨os, ?_, habsorbed⟩
      have hreads := hemits.reads (.wait (emitStep_drained.mpr hdrained))
      rw [List.append_nil] at hreads
      rw [hparser]
      exact hreads

theorem check (h : Presented story r) (now : ℕ) :
    Presented (checkAt now r.parser.framebuffer story) (r.pollIdle now) := by
  unfold checkAt pollIdle
  rw [h.deadline]
  split_ifs with hdue
  · have hends : ¬ (Happening.timeout r.parser.framebuffer).ends = true := Bool.false_ne_true
    refine ⟨fun _ => rfl, ?_, ?_, ?_⟩
    · rw [BscTarget.deadline, firstUnrendered_rendered rfl]
      rfl
    · rw [List.filterMap_cons_some (show Happening.rendered (.timeout _) = some _ from rfl),
        List.cons_append, ← h.window]
      rfl
    · rw [List.countP_cons_of_neg hends]
      show r.visualRenders + 1 = _ + (r.timeoutRenders + 1)
      rw [h.renders]
      omega
  · exact h

end Presented

/-- A check at or after the deadline renders what the parser has. -/
theorem pollIdle_due {now d : ℕ} (hd : r.partialFrameDeadline = some d) (hnow : d ≤ now) :
    (r.pollIdle now).window = r.parser.framebuffer :: r.window ∧
      (r.pollIdle now).partialFrameDeadline = none ∧
      (r.pollIdle now).timeoutRenders = r.timeoutRenders + 1 := by
  have hdue : r.partialFrameDeadline.any (· ≤ now) = true := by
    rw [hd]
    exact decide_eq_true hnow
  rw [pollIdle, if_pos hdue]
  exact ⟨rfl, rfl, rfl⟩

theorem perform_eq (r : TimedRuntime) (call : RuntimeCall) :
    r.perform call = (r.unchecked call).pollIdle call.checked := by
  cases call <;> rfl

/-- Whatever is pushed and polled and however the clock reads: without a deadline the window shows
what the parser has; a deadline is the timeout after the first update that was not rendered since;
a check at or after it renders; and the window was given every frame and boundary as it was in the
stream, and nothing but these and the renders at a deadline. -/
theorem presentation (c : DisplayController) (calls : List RuntimeCall) :
    let r := calls.foldl perform (start c)
    (∃ story, Played c calls story r ∧ Presented story r) ∧
      ∀ call d, (r.unchecked call).partialFrameDeadline = some d → d ≤ call.checked →
        (r.perform call).window =
          (r.unchecked call).parser.framebuffer :: (r.unchecked call).window ∧
        (r.perform call).partialFrameDeadline = none ∧
        (r.perform call).timeoutRenders = (r.unchecked call).timeoutRenders + 1 := by
  intro r
  refine ⟨?_, fun call d hd hle => ?_⟩
  · show ∃ story, Played c calls story (calls.foldl perform (start c)) ∧
      Presented story (calls.foldl perform (start c))
    clear r
    induction calls using List.reverseRecOn with
    | nil => exact ⟨[], .start, .start c⟩
    | append_singleton calls call ih =>
      obtain ⟨story, hplayed, hpresented⟩ := ih
      rw [List.foldl_append, List.foldl_cons, List.foldl_nil]
      cases call with
      | push input armed checked =>
        obtain ⟨os, hreads, hfed⟩ := hpresented.looped armed (Nat.lt_succ_self _)
        exact ⟨_, hplayed.push armed checked hreads, hfed.check checked⟩
      | pollIdle checked => exact ⟨_, hplayed.pollIdle checked, hpresented.check checked⟩
  · rw [perform_eq]
    exact pollIdle_due hd hle

end TimedRuntime

end BscTarget
