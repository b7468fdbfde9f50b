import BscTarget.Display.Buttons
import BscTarget.Display.Presentation
import BscTarget.Display.Reconstruction
import BscTarget.Service.Intake

/-!
# The virtual display

`serve` of `virtual-display.rs` at work on the driver: the records it reads are pushed into the
display, and its window and buttons are looked after on every turn of its loop, which no error of
SDL ends here. What the parser has seen is what was read, and, unless records were lost on the way, what entered the RX FIFO
(`screen_fed`); a session of messages is shown as it was sent (`screen_shows`).
-/

namespace BscTarget

inductive ScreenError
  | os (e : Errno)
  /-- The button outputs could not be updated. -/
  | gpio
  deriving DecidableEq

inductive ScreenPhase
  /-- The test of the loop is next. -/
  | loop
  | reading
  | returned (result : Except ScreenError Unit)
  deriving DecidableEq

/-- The variables of `serve`, and `RUNNING`. The totals go on, as those of the responder. -/
structure VirtualDisplay where
  display : TimedRuntime
  outputs : Option ButtonOutputs
  running : Bool
  phase : ScreenPhase
  receivedRecords : ℕ
  receivedBytes : ℕ

namespace VirtualDisplay

def start (controller : DisplayController) (buttonOutputs : Bool) : VirtualDisplay where
  display := .start controller
  outputs := if buttonOutputs then some .new else none
  running := true
  phase := .loop
  receivedRecords := 0
  receivedBytes := 0

/-- `poll_input`, which ends a turn of the loop; `fails` is the outcome of the ioctl. -/
def pollInput (p : Polled) (fails : Bool) (d : VirtualDisplay) : VirtualDisplay :=
  let closing := { d with running := d.running && !p.input.close, phase := .loop }
  match d.outputs with
  | none => closing
  | some o =>
    let (ok, o) := o.set p.input.buttons fails
    if ok then { closing with outputs := some o }
    else { d with outputs := some o, phase := .returned (.error .gpio) }

/-- What `read` returned, the clock as it reads where a deadline is set and where one is checked,
and what is polled then. An interrupted call is made again, by the kernel or from the loop. -/
def readReturned (result : ReadResult) (restart : Bool) (armed checked : ℕ) (p : Polled)
    (fails : Bool) (d : VirtualDisplay) : VirtualDisplay :=
  match result with
  | .record request =>
    { d with
      display := d.display.push request armed checked
      receivedRecords := d.receivedRecords + 1
      receivedBytes := d.receivedBytes + request.length }.pollInput p fails
  | .error .EAGAIN => { d with display := d.display.pollIdle checked }.pollInput p fails
  | .error .ERESTARTSYS => if restart then d else { d with phase := .loop }
  | .error e => { d with phase := .returned (.error (.os e)) }
  | .asleep => d

end VirtualDisplay

/-- The program with the driver it has open for reading. -/
structure Screened where
  sys : Sys
  screen : VirtualDisplay

inductive ScreenTurn
  | background (b : Background)
  /-- The loop reads `RUNNING`, which a signal may have cleared. -/
  | check (signalled : Bool)
  | read (interrupted fault restart : Bool) (armed checked : ℕ) (p : Polled) (fails : Bool)

/-- Whether a turn removes the device. -/
def ScreenTurn.removes : ScreenTurn → Bool
  | .background b => b.removes
  | _ => false

namespace Screened

/-- `serve` opens the device and starts the display. -/
def start (controller : DisplayController) (buttonOutputs : Bool) (s : Sys) : Screened :=
  ⟨openSession s, .start controller buttonOutputs⟩

def step (v : Screened) : ScreenTurn → Screened
  | .background b => { v with sys := b.perform v.sys }
  | .check signalled =>
    match v.screen.phase with
    | .loop =>
      let running := v.screen.running && !signalled
      { v with
        screen.running := running
        screen.phase := if running then .reading else .returned (.ok ()) }
    | _ => v
  | .read interrupted fault restart armed checked p fails =>
    match v.screen.phase with
    | .reading =>
      let (result, sys) := bscReadMessage ⟨maxTransfer, true, interrupted, false, fault⟩ v.sys
      ⟨sys, v.screen.readReturned result restart armed checked p fails⟩
    | _ => v

def run (v : Screened) (turns : List ScreenTurn) : Screened := turns.foldl step v

/-- What every turn keeps, every run keeps. -/
theorem run_keep {P : Screened → Prop} (hstep : ∀ v t, P v → P (v.step t)) {v : Screened} (h : P v)
    (turns : List ScreenTurn) : P (v.run turns) := by
  induction turns generalizing v with
  | nil => exact h
  | cons t turns ih => exact ih (hstep v t h)

/-- A run of the program is a session of the driver. -/
theorem run_sys (v : Screened) {turns : List ScreenTurn}
    (ht : ∀ t ∈ turns, t.removes = false) :
    ∃ calls, (v.run turns).sys = BscTarget.run v.sys calls := by
  induction turns generalizing v with
  | nil => exact ⟨[], rfl⟩
  | cons t turns ih =>
    obtain ⟨calls, hcalls⟩ := ih (v.step t) fun t' h => ht t' (List.mem_cons_of_mem _ h)
    have hstep : (v.step t).sys = v.sys ∨ ∃ c, (v.step t).sys = exec v.sys c := by
      cases t with
      | background b =>
        obtain ⟨c, -, -, hc⟩ := b.perform_exec (ht _ List.mem_cons_self) v.sys
        exact .inr ⟨c, hc⟩
      | check signalled =>
        refine .inl ?_
        simp only [step]
        split <;> rfl
      | read interrupted fault restart armed checked p fails =>
        simp only [step]
        split
        · exact .inr ⟨.read _, rfl⟩
        · exact .inl rfl
    rcases hstep with h | ⟨c, h⟩ <;> rw [h] at hcalls
    · exact ⟨calls, hcalls⟩
    · exact ⟨c :: calls, hcalls⟩

end Screened

/-! ## What the display has seen -/

open TimedRuntime in
/-- The display has seen the records read, one after the other, and nothing else; its window is in
order, and so are the lines of its buttons. -/
structure Faithful (controller : DisplayController) (v : Screened) : Prop where
  seen : v.screen.display.toDisplayRuntime =
    (taken false v.sys.log).foldl (fun r chunk => r.push chunk) (.start controller)
  presented : ∃ story, Presented story v.screen.display
  records : v.screen.receivedRecords = (taken false v.sys.log).length
  bytes : v.screen.receivedBytes = (taken false v.sys.log).flatten.length
  driven : ∀ o, v.screen.outputs = some o → o.Driven

namespace Faithful

variable {controller : DisplayController} {v : Screened}

theorem pollInput {d : VirtualDisplay} {s : Sys} (h : Faithful controller ⟨s, d⟩) (p : Polled)
    (fails : Bool) : Faithful controller ⟨s, d.pollInput p fails⟩ := by
  unfold VirtualDisplay.pollInput
  dsimp only
  split
  · exact { h with driven := h.driven }
  · next o ho =>
    have hdriven := (h.driven o ho).set p.input.buttons fails
    split_ifs
    · exact { h with driven := fun o' ho' => by cases ho'; exact hdriven }
    · exact { h with driven := fun o' ho' => by cases ho'; exact hdriven }

theorem unseen (h : Faithful controller v) {s : Sys} (hs : Grows Event.OfPass v.sys.log s.log) :
    Faithful controller { v with sys := s } := by
  have htaken := taken_grows (hs.mono fun _ he => he.attempt) false
  refine ⟨?_, h.presented, ?_, ?_, h.driven⟩ <;> rw [htaken]
  · exact h.seen
  · exact h.records
  · exact h.bytes

theorem read (h : Faithful controller v) (interrupted fault restart : Bool) (armed checked : ℕ)
    (p : Polled) (fails : Bool) :
    Faithful controller (v.step (.read interrupted fault restart armed checked p fails)) := by
  cases hp : v.screen.phase with
  | reading =>
    simp only [Screened.step, hp]
    rcases read_cases (s := v.sys) interrupted fault with
      h' | ⟨-, h'⟩ | h' | ⟨-, h'⟩ | ⟨-, h'⟩ | ⟨-, request, hlog, h'⟩ <;> rw [h']
    · cases restart with
      | true => exact h
      | false => exact { h with }
    · exact { h with }
    · obtain ⟨story, hstory⟩ := h.presented
      have hpolled : Faithful controller
          ⟨v.sys, { v.screen with display := v.screen.display.pollIdle checked }⟩ := by
        refine ⟨?_, ⟨_, hstory.check checked⟩, h.records, h.bytes, h.driven⟩
        rw [← h.seen]
        show (v.screen.display.pollIdle checked).toDisplayRuntime = _
        unfold TimedRuntime.pollIdle
        split_ifs <;> rfl
      exact hpolled.pollInput p fails
    · exact { h with }
    · exact ⟨h.seen, h.presented, h.records, h.bytes, h.driven⟩
    · have htaken : taken false (dequeue false v.sys).log = taken false v.sys.log ++ [request] := by
        rw [hlog]
        rfl
      obtain ⟨story, hstory⟩ := h.presented
      have hfuel := Nat.lt_succ_self (v.screen.display.parser.extend request).size
      obtain ⟨os, -, hfed⟩ := hstory.looped armed hfuel
      have hpushed : Faithful controller ⟨dequeue false v.sys,
          { v.screen with
            display := v.screen.display.push request armed checked
            receivedRecords := v.screen.receivedRecords + 1
            receivedBytes := v.screen.receivedBytes + request.length }⟩ := by
        refine ⟨?_, ⟨_, hfed.check checked⟩, ?_, ?_, h.driven⟩
        · show (v.screen.display.push request armed checked).toDisplayRuntime = _
          rw [htaken, List.foldl_append, ← h.seen]
          show _ = v.screen.display.toDisplayRuntime.push request
          rw [← TimedRuntime.feed_display]
          unfold TimedRuntime.push TimedRuntime.pollIdle
          split_ifs <;> rfl
        · show v.screen.receivedRecords + 1 = (taken false (dequeue false v.sys).log).length
          rw [htaken, h.records, List.length_append, List.length_singleton]
        · show v.screen.receivedBytes + request.length = _
          rw [htaken, h.bytes, List.flatten_append, List.length_append, List.flatten_singleton]
      exact hpushed.pollInput p fails
  | _ =>
    simp only [Screened.step, hp]
    exact h

theorem step (h : Faithful controller v) (t : ScreenTurn) : Faithful controller (v.step t) := by
  cases t with
  | background b => exact h.unseen (b.grows v.sys)
  | check signalled =>
    cases hp : v.screen.phase with
    | loop =>
      simp only [Screened.step, hp]
      exact { h with }
    | _ =>
      simp only [Screened.step, hp]
      exact h
  | read interrupted fault restart armed checked p fails =>
    exact h.read interrupted fault restart armed checked p fails

theorem start (controller : DisplayController) (buttonOutputs : Bool) (s : Sys) :
    Faithful controller (Screened.start controller buttonOutputs s) := by
  have hempty : Faithful controller ⟨{ s with log := [] }, .start controller buttonOutputs⟩ := by
    refine ⟨rfl, ⟨[], .start controller⟩, rfl, rfl, fun o ho => ?_⟩
    cases buttonOutputs <;> cases ho
    exact ButtonOutputs.driven_new
  exact hempty.unseen (grows_openSession s)

theorem run (controller : DisplayController) (buttonOutputs : Bool) (s : Sys)
    (turns : List ScreenTurn) :
    Faithful controller ((Screened.start controller buttonOutputs s).run turns) :=
  Screened.run_keep (fun _ t h => h.step t) (start controller buttonOutputs s) turns

/-- What the display has seen in pieces is what it would see at once. -/
theorem display_eq (h : Faithful controller v) :
    v.screen.display.toDisplayRuntime =
      (DisplayRuntime.start controller).push (taken false v.sys.log).flatten := by
  obtain ⟨os, p, hfed, hpushes⟩ := DisplayRuntime.pushes_reads (.start controller)
    (DisplayRuntime.start_drained controller) (taken false v.sys.log)
  obtain ⟨os', p', hreads, hpush⟩ :=
    DisplayRuntime.push_reads (.start controller) (taken false v.sys.log).flatten
  obtain ⟨rfl, rfl⟩ := hfed.unique hreads
  rw [h.seen, hpushes, hpush]

end Faithful

/-- No record of a session was too long, had to make room or was lost in a copy. -/
structure Unhindered (log : List Event) : Prop where
  bursts : ∀ b ∈ bursts log, b.length ≤ bscMaxTransfer
  burst : (burst log).length ≤ bscMaxTransfer
  kept : evictions log = 0
  copied : taken true log = []

/-- Unless records were lost on the way, the display is what one push of the beginning of all that
entered the RX FIFO makes of it, and the driver still has the rest; on its way to the display
nothing was lost, repeated or reordered, however it was cut into records. -/
theorem screen_fed (controller : DisplayController) (buttonOutputs : Bool) (s : Sys)
    (turns : List ScreenTurn) (hr : s.bsc.readyGpio = false)
    (ht : ∀ t ∈ turns, t.removes = false) :
    let v := (Screened.start controller buttonOutputs s).run turns
    Unhindered v.sys.log → ∃ seen,
      v.screen.display.toDisplayRuntime = (DisplayRuntime.start controller).push seen ∧
      seen.length = v.screen.receivedBytes ∧
      s.hw.rxFifo ++ arrivals v.sys.log =
        seen ++ (v.sys.bsc.queued.flatten ++ v.sys.bsc.workBytes ++ v.sys.hw.rxFifo) := by
  intro v hunhindered
  have hfaithful : Faithful controller v := .run controller buttonOutputs s turns
  obtain ⟨calls, hcalls⟩ := (Screened.start controller buttonOutputs s).run_sys ht
  have hsys : v.sys = run (openSession s) calls := hcalls
  refine ⟨_, hfaithful.display_eq, hfaithful.bytes.symm, ?_⟩
  obtain ⟨hbursts, hburst, hkept, hcopied⟩ := hunhindered
  rw [hsys] at hbursts hburst hkept hcopied ⊢
  exact intake_whole s calls hr hbursts hburst hkept hcopied

/-- Five bytes in two writes, one record of them read. -/
def fedTurns : List ScreenTurn :=
  [.background (.bus (.byte 0)), .background (.bus (.byte 0xaf)), .background .timer,
    .background (.bus (.byte 1)), .background (.bus (.byte 2)), .background .timer,
    .background (.bus (.byte 3)), .check false, .read false false false 0 0 ⟨[], 0, 0, 0⟩ false]

theorem screen_fed_once : ∃ seen,
    ((Screened.start .sh1106 true (bscProbe false)).run fedTurns).screen.display.toDisplayRuntime =
        (DisplayRuntime.start .sh1106).push seen ∧
      seen.length =
        ((Screened.start .sh1106 true (bscProbe false)).run fedTurns).screen.receivedBytes ∧
      (bscProbe false).hw.rxFifo ++
          arrivals ((Screened.start .sh1106 true (bscProbe false)).run fedTurns).sys.log =
        seen ++
          (((Screened.start .sh1106 true (bscProbe false)).run fedTurns).sys.bsc.queued.flatten
          ++ ((Screened.start .sh1106 true (bscProbe false)).run fedTurns).sys.bsc.workBytes
          ++ ((Screened.start .sh1106 true (bscProbe false)).run fedTurns).sys.hw.rxFifo) :=
  screen_fed .sh1106 true (bscProbe false) fedTurns (by decide +kernel) (by decide +kernel)
    ⟨by decide +kernel, by decide +kernel, by decide +kernel, by decide +kernel⟩

open DisplayParser in
/-- What a display shows that has seen messages only. -/
theorem DisplayRuntime.push_messages (controller : DisplayController)
    (ms : List (Message controller)) :
    let r := (start controller).push (ms.flatMap Message.encode)
    r.discardedBytes = 0 ∧ r.displayUpdates = ms.countP Message.draws ∧
      r.parser.framebuffer = ms.foldl Message.apply blank := by
  intro r
  obtain ⟨os, p, hreads, hr⟩ := push_reads (start controller) (ms.flatMap Message.encode)
  have hpending : ((start controller).parser.extend (ms.flatMap Message.encode)).pending =
      ms.flatMap Message.encode ++ [] := by
    rw [extend_pending, List.append_nil]
    rfl
  obtain ⟨os', p', hdecoded⟩ := messages_decoded
    (p := (start controller).parser.extend (ms.flatMap Message.encode)) ms rfl rfl hpending
  have hwaits := emitStep_drained.mpr (drained_of_nil hdecoded.state hdecoded.pending)
  obtain ⟨rfl, rfl⟩ := hreads.unique (hdecoded.emits.reads (.wait hwaits))
  rw [List.append_nil] at hr
  rw [show r = _ from hr]
  refine ⟨?_, ?_, hdecoded.framebuffer⟩
  · show 0 + _ = 0
    rw [hdecoded.discarded]
  · show 0 + _ = _
    rw [hdecoded.drawn, Nat.zero_add]

/-- Where controllers send messages and everything they sent was read, the parser has drawn them
all; and from the next check on that no deadline is ahead of, the window shows them. -/
theorem screen_shows (controller : DisplayController) (buttonOutputs : Bool) (s : Sys)
    (turns : List ScreenTurn) (ms : List (Message controller)) (hr : s.bsc.readyGpio = false)
    (ht : ∀ t ∈ turns, t.removes = false) :
    let v := (Screened.start controller buttonOutputs s).run turns
    Unhindered v.sys.log → v.sys.bsc.rxCount = 0 → burst v.sys.log = [] → v.sys.hw.rxFifo = [] →
      s.hw.rxFifo ++ arrivals v.sys.log = ms.flatMap Message.encode →
      v.screen.display.discardedBytes = 0 ∧
      v.screen.display.displayUpdates = ms.countP Message.draws ∧
      v.screen.display.parser.framebuffer = ms.foldl Message.apply blank ∧
      ∀ now, (∀ d, v.screen.display.partialFrameDeadline = some d → d ≤ now) →
        (v.screen.display.pollIdle now).window.head? = some (ms.foldl Message.apply blank) := by
  intro v hunhindered hcount hburst hfifo hsent
  have hfaithful : Faithful controller v := .run controller buttonOutputs s turns
  obtain ⟨calls, hcalls⟩ := (Screened.start controller buttonOutputs s).run_sys ht
  have hsys : v.sys = run (openSession s) calls := hcalls
  have hread : (taken false v.sys.log).flatten = ms.flatMap Message.encode := by
    obtain ⟨hbursts, hcurrent, hkept, hcopied⟩ := hunhindered
    rw [hsys] at hbursts hcurrent hkept hcopied hcount hburst hfifo hsent ⊢
    have hwhole := intake_whole s calls hr hbursts hcurrent hkept hcopied
    have hqueued : (run (openSession s) calls).bsc.queued = [] :=
      List.length_eq_zero_iff.mp (by rw [length_queued, hcount])
    have hwork : (run (openSession s) calls).bsc.workBytes = [] := by
      rw [(Assembling.run s calls).work, hburst]
      rfl
    rw [hqueued, hwork, hfifo, hsent] at hwhole
    simpa using hwhole.symm
  have hdisplay := hfaithful.display_eq
  rw [hread] at hdisplay
  obtain ⟨hdiscarded, hupdates, hframe⟩ := DisplayRuntime.push_messages controller ms
  rw [← hdisplay] at hdiscarded hupdates hframe
  refine ⟨hdiscarded, hupdates, hframe, fun now hdue => ?_⟩
  obtain ⟨story, hstory⟩ := hfaithful.presented
  cases hd : v.screen.display.partialFrameDeadline with
  | none =>
    have hidle : v.screen.display.pollIdle now = v.screen.display := by
      rw [TimedRuntime.pollIdle, hd]
      rfl
    rw [hidle, hstory.shown hd, hframe]
  | some d =>
    rw [(TimedRuntime.pollIdle_due hd (hdue d hd)).1, hframe]
    rfl

/-- Display on and one byte of page 3. -/
def shownMessages : List (Message .sh1106) :=
  [.sh1106DisplayOn, .ranged ⟨3, by decide⟩ ⟨4, 1, by decide, by decide⟩ #v[0x55]]

def shownTurns : List ScreenTurn :=
  ((shownMessages.flatMap Message.encode).map fun b => .background (.bus (.byte b))) ++
    [.background .timer, .check false, .read false false false 0 0 ⟨[], 0, 0, 0⟩ false]

theorem screen_shows_once :
    let v := (Screened.start .sh1106 true (bscProbe false)).run shownTurns
    v.screen.display.discardedBytes = 0 ∧
      v.screen.display.displayUpdates = shownMessages.countP Message.draws ∧
      v.screen.display.parser.framebuffer = shownMessages.foldl Message.apply blank ∧
      ∀ now, (∀ d, v.screen.display.partialFrameDeadline = some d → d ≤ now) →
        (v.screen.display.pollIdle now).window.head? =
          some (shownMessages.foldl Message.apply blank) :=
  screen_shows .sh1106 true (bscProbe false) shownTurns shownMessages (by decide +kernel)
    (by decide +kernel) ⟨by decide +kernel, by decide +kernel, by decide +kernel, by decide +kernel⟩
    (by decide +kernel) (by decide +kernel) (by decide +kernel) (by decide +kernel)

end BscTarget
