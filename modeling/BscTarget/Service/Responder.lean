import BscTarget.Driver.Conduct
import BscTarget.Driver.Isolation
import BscTarget.Service.Kernel

/-!
# The diagnostic responder

`serve` of `target-driver.rs` at work on the driver. A turn is one step of the program (the test of
its loop, a `read`, an attempt of `queue_response`) or something in the background of it. With READY
configured, or without responses, only a faulting copy or the removal of the device makes `serve`
fail (`serve_fails_only`), and what it asks to be sent are the echoes of the records it read, in
their order (`responses_echo`).
-/

namespace BscTarget

/-- `MAX_TRANSFER` -/
def maxTransfer : ℕ := 8192

/-- `PREFIX`: "ACK: " -/
def ackText : Bytes := [0x41, 0x43, 0x4b, 0x3a, 0x20]

/-- The response to a request, cut to what fits into a transfer. -/
def echo (request : Bytes) : Bytes :=
  ackText ++ request.take (min request.length (maxTransfer - ackText.length))

/-- How long `queue_response` tries, in nanoseconds. -/
def responseTimeout : ℕ := 5 * 1000 * 1000 * 1000

inductive ServeError
  | os (e : Errno)
  | writeZero (length : ℕ)
  | timedOut
  deriving DecidableEq

inductive ServePhase
  /-- The test of the loop is next. -/
  | loop
  | reading
  /-- In `queue_response`. -/
  | queueing (response : Bytes) (deadline : ℕ)
  | returned (result : Except ServeError Unit)
  deriving DecidableEq

/-- The variables of `serve`. Its totals are `u64` and only printed; here they go on. -/
structure TargetDriver where
  receiveOnly : Bool
  phase : ServePhase
  receivedTransactions : ℕ
  receivedBytes : ℕ

namespace TargetDriver

def start (receiveOnly : Bool) : TargetDriver := ⟨receiveOnly, .loop, 0, 0⟩

/-- A record was read. -/
def received (request : Bytes) (now : ℕ) (p : TargetDriver) : TargetDriver :=
  if p.receiveOnly then
    { p with
      phase := .loop
      receivedTransactions := p.receivedTransactions + 1
      receivedBytes := p.receivedBytes + request.length }
  else { p with phase := .queueing (echo request) (now + responseTimeout) }

/-- What `read` returned. An interrupted call is made again, by the kernel or from the loop. -/
def readReturned (result : ReadResult) (restart : Bool) (now : ℕ) (p : TargetDriver) :
    TargetDriver :=
  match result with
  | .record request => p.received request now
  | .error .EAGAIN => { p with phase := .loop }
  | .error .ERESTARTSYS => if restart then p else { p with phase := .loop }
  | .error e => { p with phase := .returned (.error (.os e)) }
  | .asleep => p

/-- What `write` returned to `queue_response`. -/
def writeReturned (result : Except Errno ℕ) (response : Bytes) (deadline now : ℕ)
    (p : TargetDriver) : TargetDriver :=
  match result with
  | .ok length =>
    if length = response.length then { p with phase := .loop }
    else { p with phase := .returned (.error (.writeZero length)) }
  | .error .EAGAIN =>
    if deadline ≤ now then { p with phase := .returned (.error .timedOut) } else p
  | .error .ERESTARTSYS => p
  | .error e => { p with phase := .returned (.error (.os e)) }

end TargetDriver

/-- The program with the driver it has open. -/
structure Served where
  sys : Sys
  serve : TargetDriver

inductive Turn
  | background (b : Background)
  /-- The loop reads `RUNNING`. -/
  | check (running : Bool)
  | read (interrupted fault restart : Bool) (now : ℕ)
  | write (interrupted fault : Bool) (now : ℕ)

namespace Served

/-- `serve` opens the device. -/
def start (receiveOnly : Bool) (s : Sys) : Served := ⟨openSession s, .start receiveOnly⟩

def step (v : Served) : Turn → Served
  | .background b => { v with sys := b.perform v.sys }
  | .check running =>
    match v.serve.phase with
    | .loop =>
      { v with serve.phase := if running then .reading else .returned (.ok ()) }
    | _ => v
  | .read interrupted fault restart now =>
    match v.serve.phase with
    | .reading =>
      let (result, sys) := bscReadMessage ⟨maxTransfer, true, interrupted, false, fault⟩ v.sys
      ⟨sys, v.serve.readReturned result restart now⟩
    | _ => v
  | .write interrupted fault now =>
    match v.serve.phase with
    | .queueing response deadline =>
      let (result, sys) := bscQueueResponse ⟨response, fault, interrupted⟩ v.sys
      ⟨sys, v.serve.writeReturned result response deadline now⟩
    | _ => v

def run (v : Served) (turns : List Turn) : Served := turns.foldl step v

/-- What every turn keeps, every run keeps. -/
theorem run_keep {P : Served → Prop} (hstep : ∀ v t, P v → P (v.step t)) {v : Served} (h : P v)
    (turns : List Turn) : P (v.run turns) := by
  induction turns generalizing v with
  | nil => exact h
  | cons t turns ih => exact ih (hstep v t h)

end Served

/-- Whether a turn removes the device. -/
def Turn.removes : Turn → Bool
  | .background b => b.removes
  | _ => false

namespace Served

/-- Short of removal, a turn is at most one call of a session. -/
theorem step_sys (v : Served) {t : Turn} (ht : t.removes = false) :
    (v.step t).sys = v.sys ∨ ∃ c, (v.step t).sys = exec v.sys c := by
  cases t with
  | background b =>
    obtain ⟨c, -, -, hc⟩ := b.perform_exec ht v.sys
    exact .inr ⟨c, hc⟩
  | check running =>
    refine .inl ?_
    simp only [step]
    split <;> rfl
  | read interrupted fault restart now =>
    simp only [step]
    split
    · exact .inr ⟨.read _, rfl⟩
    · exact .inl rfl
  | write interrupted fault now =>
    simp only [step]
    split
    · exact .inr ⟨.write _, rfl⟩
    · exact .inl rfl

/-- A run of the program is a session of the driver. -/
theorem run_sys (v : Served) {turns : List Turn} (ht : ∀ t ∈ turns, t.removes = false) :
    ∃ calls, (v.run turns).sys = BscTarget.run v.sys calls := by
  induction turns generalizing v with
  | nil => exact ⟨[], rfl⟩
  | cons t turns ih =>
    obtain ⟨calls, hcalls⟩ := ih (v.step t) fun t' h => ht t' (List.mem_cons_of_mem _ h)
    rcases v.step_sys (ht t List.mem_cons_self) with h | ⟨c, h⟩ <;> rw [h] at hcalls
    · exact ⟨calls, hcalls⟩
    · exact ⟨c :: calls, hcalls⟩

end Served

theorem length_echo (request : Bytes) :
    (echo request).length ≠ 0 ∧ (echo request).length ≤ bscMaxTransfer := by
  have htext : ackText.length = 5 := rfl
  have hmax : maxTransfer = 8192 := rfl
  have hmax' : bscMaxTransfer = 8192 := rfl
  rw [echo, List.length_append, List.length_take]
  omega

/-! ## What the calls return -/

/-- The outcomes of the program's `read`. -/
theorem read_cases {s : Sys} (interrupted fault : Bool) :
    let r := bscReadMessage ⟨maxTransfer, true, interrupted, false, fault⟩ s
    r = (.error .ERESTARTSYS, s) ∨
    (s.bsc.dead = true ∧ r = (.error .ENODEV, s)) ∨
    r = (.error .EAGAIN, s) ∨
    (maxTransfer < (s.bsc.rxSlots s.bsc.rxHead).len ∧ r = (.error .EMSGSIZE, s)) ∨
    (s.bsc.rxCount ≠ 0 ∧ r = (.error .EFAULT, dequeue true s)) ∨
    (s.bsc.rxCount ≠ 0 ∧ ∃ request, (dequeue false s).log = .took request false :: s.log ∧
      r = (.record request, dequeue false s)) := by
  intro r
  by_cases hi : interrupted = true
  · exact .inl (by simp only [r, bscReadMessage, if_pos hi])
  by_cases hd : s.bsc.dead = true
  · exact .inr (.inl ⟨hd, by simp only [r, bscReadMessage, if_neg hi, if_pos hd]⟩)
  by_cases hc : s.bsc.rxCount = 0
  · refine .inr (.inr (.inl ?_))
    simp only [r, bscReadMessage, if_neg hi, if_neg hd, if_pos hc, if_true]
  by_cases hl : maxTransfer < (s.bsc.rxSlots s.bsc.rxHead).len
  · refine .inr (.inr (.inr (.inl ⟨hl, ?_⟩)))
    simp only [r, bscReadMessage, if_neg hi, if_neg hd, if_neg hc, if_pos hl]
  cases fault with
  | true =>
    refine .inr (.inr (.inr (.inr (.inl ⟨hc, ?_⟩))))
    simp only [r, bscReadMessage, if_neg hi, if_neg hd, if_neg hc, if_neg hl, if_true]
  | false =>
    refine .inr (.inr (.inr (.inr (.inr ⟨hc, _, rfl, ?_⟩))))
    simp only [r, bscReadMessage, if_neg hi, if_neg hd, if_neg hc, if_neg hl]
    rfl

/-- The outcomes of a `write` of a response. -/
theorem write_cases {data : Bytes} (h₀ : data.length ≠ 0) (h₁ : data.length ≤ bscMaxTransfer)
    (interrupted fault : Bool) (s : Sys) :
    let r := bscQueueResponse ⟨data, fault, interrupted⟩ s
    r = (.error .EFAULT, s) ∨ r = (.error .ERESTARTSYS, s) ∨
    ((s.bsc.dead = true ∨ s.bsc.active = false) ∧ r = (.error .ENODEV, s)) ∨
    (s.bsc.dead = false ∧ s.bsc.active = true ∧ r = bscPublishResponseLocked data s) := by
  intro r
  have hlen : ¬ (data.length = 0 ∨ bscMaxTransfer < data.length) := by omega
  by_cases hf : fault = true
  · exact .inl (by simp only [r, bscQueueResponse, if_neg hlen, if_pos hf])
  by_cases hi : interrupted = true
  · exact .inr (.inl (by simp only [r, bscQueueResponse, if_neg hlen, if_neg hf, if_pos hi]))
  by_cases hd : s.bsc.dead = true ∨ s.bsc.active = false
  · refine .inr (.inr (.inl ⟨hd, ?_⟩))
    simp only [r, bscQueueResponse, if_neg hlen, if_neg hf, if_neg hi, if_pos hd]
  · refine .inr (.inr (.inr ⟨by simpa using (not_or.mp hd).1, by simpa using (not_or.mp hd).2, ?_⟩))
    simp only [r, bscQueueResponse, if_neg hlen, if_neg hf, if_neg hi, if_neg hd]

/-- While the worker holds a request, a response to it is accepted. -/
theorem write_accepted {data : Bytes} (h₀ : data.length ≠ 0) (h₁ : data.length ≤ bscMaxTransfer)
    {s : Sys} (hr : s.bsc.readyGpio = true)
    (hp : s.bsc.workerPending = true ∨ s.bsc.dead = true)
    (ha : s.bsc.active = true ∨ s.bsc.dead = true) (interrupted fault : Bool) :
    let r := bscQueueResponse ⟨data, fault, interrupted⟩ s
    r.1 = .error .EFAULT ∨ (r.1 = .error .ERESTARTSYS ∧ r.2 = s) ∨
    (r.1 = .error .ENODEV ∧ s.bsc.dead = true) ∨ r.1 = .ok data.length := by
  intro r
  rcases write_cases h₀ h₁ interrupted fault s with h | h | ⟨hd, h⟩ | ⟨hd, -, h⟩
  · exact .inl (congrArg Prod.fst h)
  · exact .inr (.inl ⟨congrArg Prod.fst h, congrArg Prod.snd h⟩)
  · refine .inr (.inr (.inl ⟨congrArg Prod.fst h, hd.elim id fun hi => ?_⟩))
    exact ha.resolve_left (ne_true_of_eq_false hi)
  · have hpend := hp.resolve_right (ne_true_of_eq_false hd)
    exact .inr (.inr (.inr ((congrArg Prod.fst h).trans (write_due hr hpend data))))

/-! ## Why `serve` returns -/

/-- A `write` leaves the device set up as it is. -/
theorem standing_write (w : WriteArgs) (s : Sys) :
    (bscQueueResponse w s).2.bsc.standing = s.bsc.standing :=
  standing_steps (exec_steps s (.write w))

theorem fitting_exec {s : Sys} (hi : Fitting s.bsc) (c : Call) : Fitting (exec s c).bsc :=
  (exec_steps s c).keep (P := fun s => Fitting s.bsc) Fitting.micro hi

/-- The program is never asked for more than the device grants it. -/
structure Attends (v : Served) : Prop where
  fitting : Fitting v.sys.bsc
  opened : v.sys.bsc.active = true ∨ v.sys.bsc.dead = true
  allowed : v.serve.receiveOnly = true ∨ v.sys.bsc.readyGpio = true
  queueing : ∀ response deadline, v.serve.phase = .queueing response deadline →
    v.serve.receiveOnly = false ∧ response.length ≠ 0 ∧ response.length ≤ bscMaxTransfer ∧
      (v.sys.bsc.workerPending = true ∨ v.sys.bsc.dead = true)
  failed : ∀ e, v.serve.phase = .returned (.error e) →
    e = .os .EFAULT ∨ e = .os .ENODEV ∧ v.sys.bsc.dead = true

namespace Attends

variable {v : Served}

/-- Another phase, in which nothing is queued or failed, on the same device. -/
theorem resume (h : Attends v) {p : TargetDriver} (hr : p.receiveOnly = v.serve.receiveOnly)
    (hp : p.phase = .loop ∨ p.phase = .reading ∨ p.phase = .returned (.ok ())) :
    Attends { v with serve := p } := by
  refine ⟨h.fitting, h.opened, hr ▸ h.allowed, fun response deadline hq => ?_, fun e he => ?_⟩
  · rcases hp with hp | hp | hp <;> cases hp.symm.trans hq
  · rcases hp with hp | hp | hp <;> cases hp.symm.trans he

theorem fail (h : Attends v) {p : TargetDriver} {e : ServeError}
    (hr : p.receiveOnly = v.serve.receiveOnly) (hp : p.phase = .returned (.error e))
    (he : e = .os .EFAULT ∨ e = .os .ENODEV ∧ v.sys.bsc.dead = true) :
    Attends { v with serve := p } := by
  refine ⟨h.fitting, h.opened, hr ▸ h.allowed, fun response deadline hq => ?_, fun e' he' => ?_⟩
  · cases hp.symm.trans hq
  · cases hp.symm.trans he'
    exact he

theorem background (h : Attends v) (b : Background) :
    Attends { v with sys := b.perform v.sys } := by
  have hl := b.leaves v.sys
  refine ⟨b.fitting h.fitting, ?_, ?_, fun response deadline hq => ?_, fun e he => ?_⟩
  · exact h.opened.elim hl.opened fun hd => .inr (hl.dead hd)
  · exact h.allowed.imp_right hl.ready.trans
  · obtain ⟨hr, h₀, h₁, hp⟩ := h.queueing response deadline hq
    exact ⟨hr, h₀, h₁, hp.elim hl.pending fun hd => .inr (hl.dead hd)⟩
  · exact (h.failed e he).imp_right fun ⟨he, hd⟩ => ⟨he, hl.dead hd⟩

/-- A record leaves its request with the program. -/
theorem dequeued (h : Attends v) (request : Bytes) (now : ℕ) :
    Attends ⟨dequeue false v.sys, v.serve.received request now⟩ := by
  have hfit : Fitting (dequeue false v.sys).bsc := ⟨h.fitting.work, h.fitting.slots⟩
  by_cases hr : v.serve.receiveOnly = true
  · rw [TargetDriver.received, if_pos hr]
    exact ⟨hfit, h.opened, .inl hr, fun _ _ hq => (by cases hq), fun _ he => (by cases he)⟩
  · rw [TargetDriver.received, if_neg hr]
    refine ⟨hfit, h.opened, h.allowed, fun response deadline hq => ?_, fun e he => by cases he⟩
    cases hq
    exact ⟨by simpa using hr, (length_echo request).1, (length_echo request).2, .inl rfl⟩

theorem read (h : Attends v) (interrupted fault restart : Bool) (now : ℕ) :
    Attends (v.step (.read interrupted fault restart now)) := by
  cases hp : v.serve.phase with
  | reading =>
    simp only [Served.step, hp]
    rcases read_cases (s := v.sys) interrupted fault with
      h' | ⟨hd, h'⟩ | h' | ⟨hl, h'⟩ | ⟨-, h'⟩ | ⟨-, request, -, h'⟩ <;> rw [h']
    · cases restart with
      | true => exact h
      | false => exact h.resume rfl (.inl rfl)
    · exact h.fail rfl rfl (.inr ⟨rfl, hd⟩)
    · exact h.resume rfl (.inl rfl)
    · exact absurd (h.fitting.slots v.sys.bsc.rxHead) (Nat.not_le.mpr hl)
    · have htaken : Attends { v with sys := dequeue true v.sys } :=
        ⟨⟨h.fitting.work, h.fitting.slots⟩, h.opened, h.allowed,
          fun _ _ hq => (by rw [hp] at hq; cases hq), fun _ he => (by rw [hp] at he; cases he)⟩
      exact htaken.fail rfl rfl (.inl rfl)
    · exact h.dequeued request now
  | _ =>
    simp only [Served.step, hp]
    exact h

theorem write (h : Attends v) (interrupted fault : Bool) (now : ℕ) :
    Attends (v.step (.write interrupted fault now)) := by
  cases hp : v.serve.phase with
  | queueing response deadline =>
    obtain ⟨hro, h₀, h₁, hpend⟩ := h.queueing response deadline hp
    have hready := h.allowed.resolve_left (ne_true_of_eq_false hro)
    have hstand := standing_write ⟨response, fault, interrupted⟩ v.sys
    simp only [Bsc.standing, Prod.mk.injEq] at hstand
    obtain ⟨hsr, hsd, hsa⟩ := hstand
    have hsys (p : TargetDriver) (hr : p.receiveOnly = v.serve.receiveOnly)
        (hq : ∀ response deadline, p.phase ≠ .queueing response deadline)
        (hf : ∀ e, p.phase = .returned (.error e) →
          e = .os .EFAULT ∨ e = .os .ENODEV ∧ v.sys.bsc.dead = true) :
        Attends ⟨(bscQueueResponse ⟨response, fault, interrupted⟩ v.sys).2, p⟩ := by
      refine ⟨fitting_exec h.fitting (.write _), ?_, ?_, fun r d hq' => absurd hq' (hq r d),
        fun e he => ?_⟩
      · exact h.opened.imp hsa.trans hsd.trans
      · exact (hr ▸ h.allowed).imp_right hsr.trans
      · exact (hf e he).imp_right (And.imp_right hsd.trans)
    simp only [Served.step, hp]
    rcases write_accepted h₀ h₁ hready hpend h.opened interrupted fault with
      h' | ⟨h', hsame⟩ | ⟨h', hd⟩ | h' <;> rw [h']
    · exact hsys _ rfl (fun _ _ hq => by cases hq) fun e he => by cases he; exact .inl rfl
    · rw [hsame]
      exact h
    · exact hsys _ rfl (fun _ _ hq => by cases hq) fun e he => by cases he; exact .inr ⟨rfl, hd⟩
    · simp only [TargetDriver.writeReturned, if_true]
      exact hsys _ rfl (fun _ _ hq => by cases hq) fun e he => by cases he
  | _ =>
    simp only [Served.step, hp]
    exact h

theorem step (h : Attends v) (t : Turn) : Attends (v.step t) := by
  cases t with
  | background b => exact h.background b
  | check running =>
    cases hp : v.serve.phase with
    | loop =>
      simp only [Served.step, hp]
      cases running with
      | true => exact h.resume rfl (.inr (.inl rfl))
      | false => exact h.resume rfl (.inr (.inr rfl))
    | _ =>
      simp only [Served.step, hp]
      exact h
  | read interrupted fault restart now => exact h.read interrupted fault restart now
  | write interrupted fault now => exact h.write interrupted fault now

theorem start {s : Sys} (hf : Fitting s.bsc) {receiveOnly : Bool}
    (h : receiveOnly = true ∨ s.bsc.readyGpio = true) : Attends (Served.start receiveOnly s) := by
  refine ⟨?_, .inl ?_, h.imp_right ?_, fun _ _ hq => (by cases hq), fun _ he => (by cases he)⟩
  · show Fitting (openSession s).bsc
    rw [openSession_bsc]
    exact ⟨Nat.zero_le _, hf.slots⟩
  · show (openSession s).bsc.active = true
    rw [openSession_bsc]
  · intro hr
    show (openSession s).bsc.readyGpio = true
    rw [openSession_bsc]
    exact hr

end Attends

namespace Device

theorem fitting_run (address : UInt32) (readyGpio : Bool) (hw : Hw) (env : List (List HwEvent))
    (actions : List Action) : Fitting ((probe address readyGpio hw env).run actions).sys.bsc := by
  refine run_keep (P := fun d => Fitting d.sys.bsc) (fun _ a h => h.step a) ?_ actions
  rw [probe, bscDisableLocked_bsc]
  exact ⟨Nat.zero_le _, fun _ => Nat.zero_le _⟩

end Device

/-- Opened in any reachable state of the device, with READY configured or without responses to
send, `serve` fails for no other reason than a copy that faults and a device that was removed. In
particular no attempt of `queue_response` is put off until its deadline, and none is cut short. -/
theorem serve_fails_only (address : UInt32) (readyGpio : Bool) (hw : Hw)
    (env : List (List HwEvent)) (actions : List Action) (receiveOnly : Bool) (turns : List Turn)
    (e : ServeError) (h : receiveOnly = true ∨ readyGpio = true) :
    let d := (Device.probe address readyGpio hw env).run actions
    let v := (Served.start receiveOnly d.sys).run turns
    v.serve.phase = .returned (.error e) →
      e = .os .EFAULT ∨ e = .os .ENODEV ∧ v.sys.bsc.dead = true := by
  intro d v he
  have hreachable : Device.Reachable address readyGpio d := ⟨hw, env, actions, rfl⟩
  have hattends : Attends v := by
    refine Served.run_keep (fun _ t h => h.step t) (.start ?_ ?_) turns
    · exact Device.fitting_run address readyGpio hw env actions
    · rw [hreachable.config.2]
      exact h
  exact hattends.failed e he

/-- The first request arrives, and the copy of it faults. -/
theorem serve_fails_only_fault :
    ServeError.os .EFAULT = .os .EFAULT ∨ ServeError.os .EFAULT = .os .ENODEV ∧
      ((Served.start false ((Device.probe 0x13 true .reset []).run []).sys).run
        [.background (.bus (.byte 7)), .background .timer, .check true,
          .read false true false 0]).sys.bsc.dead = true :=
  serve_fails_only 0x13 true .reset [] [] false [.background (.bus (.byte 7)), .background .timer,
    .check true, .read false true false 0] (.os .EFAULT) (.inr rfl) (by decide +kernel)

/-! ## What `serve` asks to be sent -/

/-- Whether the worker holds a request, unless it read or wrote out of turn or a copy faulted. -/
def alternates : List Event → Option Bool
  | [] => some false
  | .took _ fault :: log => (alternates log).bind fun holding =>
    if holding = true ∨ fault = true then none else some true
  | .asked _ :: log => (alternates log).bind fun holding => if holding then some false else none
  | _ :: log => alternates log

theorem asks_grows {l l' : List Event} (h : Grows Event.OfAttempt l l') : asks l' = asks l :=
  h.frame fun e _ he => by cases e <;> first | rfl | cases he

theorem alternates_grows {l l' : List Event} (h : Grows Event.OfAttempt l l') :
    alternates l' = alternates l :=
  h.frame fun e _ he => by cases e <;> first | rfl | cases he

theorem publish_returns (data : Bytes) (s : Sys) :
    (bscPublishResponseLocked data s).1 = .error .EOPNOTSUPP ∨
      (bscPublishResponseLocked data s).1 = .error .EPROTO ∨
      (bscPublishResponseLocked data s).1 = .ok data.length := by
  rcases bscPublishResponseLocked_cases data s with
    ⟨-, h⟩ | ⟨-, -, h⟩ | ⟨-, -, -, h⟩ | ⟨-, -, -, -, -, h⟩ | ⟨-, h⟩ <;> rw [h]
  · exact .inl rfl
  · exact .inr (.inl rfl)
  · exact .inr (.inr rfl)
  · exact .inr (.inr rfl)
  · exact .inr (.inr rfl)

/-- A session opens with the release of READY and the bus. -/
theorem grows_openSession (s : Sys) : Grows Event.OfPass [] (openSession s).log := by
  refine Grows.trans ?_ (Setup.grows_steps (openSession_steps s))
  rcases cleared_cases s with h | h <;> rw [h]
  · exact (Grows.refl []).cons (e := Event.ready false) trivial
  · exact .refl []

/-- What the program still has to ask for, in each of its phases. -/
def Owes : ServePhase → List Bytes → Prop
  | .queueing response _, owed => owed = [response]
  | .returned (.error _), owed => owed.length ≤ 1
  | _, owed => owed = []

theorem Owes.length_le {phase : ServePhase} {owed : List Bytes} (h : Owes phase owed) :
    owed.length ≤ 1 := by
  rcases phase with _ | _ | ⟨response, deadline⟩ | ⟨_ | _⟩
  · exact (congrArg List.length h).trans_le (Nat.zero_le 1)
  · exact (congrArg List.length h).trans_le (Nat.zero_le 1)
  · exact (congrArg List.length h).le
  · exact h
  · exact (congrArg List.length h).trans_le (Nat.zero_le 1)

/-- The records read and the responses asked for, in a program that answers. -/
structure Echoes (v : Served) (owed : List Bytes) : Prop where
  answers : v.serve.receiveOnly = false
  owes : Owes v.serve.phase owed
  bound : ∀ response deadline, v.serve.phase = .queueing response deadline →
    response.length ≠ 0 ∧ response.length ≤ bscMaxTransfer
  told : (taken false v.sys.log).map echo = asks v.sys.log ++ owed
  published : (publications v.sys.log).Sublist (asks v.sys.log)
  turns : taken true v.sys.log = [] → alternates v.sys.log = some (!owed.isEmpty)

namespace Echoes

variable {v : Served} {owed : List Bytes}

/-- A turn that shows in no record, response or publication. -/
theorem unseen (h : Echoes v owed) {s : Sys} (hs : Grows Event.OfPass v.sys.log s.log) :
    Echoes { v with sys := s } owed := by
  have hattempt := hs.mono fun _ he => he.attempt
  refine ⟨h.answers, h.owes, h.bound, ?_, ?_, ?_⟩
  · rw [taken_grows hattempt, asks_grows hattempt]
    exact h.told
  · rw [publications_pass hs, asks_grows hattempt]
    exact h.published
  · rw [taken_grows hattempt, alternates_grows hattempt]
    exact h.turns

/-- Another phase that owes what is owed. -/
theorem resume (h : Echoes v owed) {p : TargetDriver} {owed' : List Bytes}
    (hr : p.receiveOnly = v.serve.receiveOnly) (ho : owed' = owed)
    (hp : Owes p.phase owed) (hq : ∀ response deadline, p.phase ≠ .queueing response deadline) :
    Echoes { v with serve := p } owed' := by
  subst ho
  exact ⟨hr.trans h.answers, hp, fun _ _ h' => absurd h' (hq _ _), h.told, h.published, h.turns⟩

theorem read (h : Echoes v owed) (interrupted fault restart : Bool) (now : ℕ) :
    ∃ owed', Echoes (v.step (.read interrupted fault restart now)) owed' := by
  cases hp : v.serve.phase with
  | reading =>
    have howed : owed = [] := by
      have ho := h.owes
      rw [hp] at ho
      exact ho
    subst howed
    simp only [Served.step, hp]
    rcases read_cases (s := v.sys) interrupted fault with
      h' | ⟨-, h'⟩ | h' | ⟨-, h'⟩ | ⟨-, h'⟩ | ⟨-, request, hlog, h'⟩ <;> rw [h']
    · cases restart with
      | true => exact ⟨[], h⟩
      | false => exact ⟨[], h.resume rfl rfl rfl fun _ _ hq => (by cases hq)⟩
    · exact ⟨[], h.resume rfl rfl (Nat.zero_le 1) fun _ _ hq => (by cases hq)⟩
    · exact ⟨[], h.resume rfl rfl rfl fun _ _ hq => (by cases hq)⟩
    · exact ⟨[], h.resume rfl rfl (Nat.zero_le 1) fun _ _ hq => (by cases hq)⟩
    · have hseen : Echoes { v with sys := dequeue true v.sys } [] :=
        ⟨h.answers, h.owes, h.bound, h.told, h.published,
          fun hnone => by simp [dequeue, taken] at hnone⟩
      exact ⟨[], hseen.resume rfl rfl (Nat.zero_le 1) fun _ _ hq => (by cases hq)⟩
    · refine ⟨[echo request], ?_⟩
      have hr : ¬ v.serve.receiveOnly = true := ne_true_of_eq_false h.answers
      simp only [TargetDriver.readReturned, TargetDriver.received, if_neg hr]
      refine ⟨h.answers, rfl, fun response deadline hq => ?_, ?_, ?_, ?_⟩
      · cases hq
        exact length_echo request
      · rw [hlog]
        show (taken false v.sys.log ++ [request]).map echo = asks v.sys.log ++ [echo request]
        rw [List.map_append, h.told, List.append_nil]
        rfl
      · rw [hlog]
        exact h.published
      · intro hnone
        rw [hlog] at hnone ⊢
        rw [alternates, h.turns hnone]
        rfl
  | _ =>
    simp only [Served.step, hp]
    exact ⟨owed, h⟩

theorem write (h : Echoes v owed) (interrupted fault : Bool) (now : ℕ) :
    ∃ owed', Echoes (v.step (.write interrupted fault now)) owed' := by
  cases hp : v.serve.phase with
  | queueing response deadline =>
    obtain ⟨h₀, h₁⟩ := h.bound response deadline hp
    have howed : owed = [response] := by
      have ho := h.owes
      rw [hp] at ho
      exact ho
    subst howed
    simp only [Served.step, hp]
    rcases write_cases h₀ h₁ interrupted fault v.sys with h' | h' | ⟨-, h'⟩ | ⟨-, -, h'⟩ <;> rw [h']
    · exact ⟨_, h.resume rfl rfl (Nat.le_refl 1) fun _ _ hq => (by cases hq)⟩
    · exact ⟨_, h⟩
    · exact ⟨_, h.resume rfl rfl (Nat.le_refl 1) fun _ _ hq => (by cases hq)⟩
    · obtain ⟨hgrows, hpublications⟩ := attempt_publish response v.sys
      have hasks : asks (bscPublishResponseLocked response v.sys).2.log =
          asks v.sys.log ++ [response] := asks_grows hgrows
      have htold : (taken false (bscPublishResponseLocked response v.sys).2.log).map echo =
          asks (bscPublishResponseLocked response v.sys).2.log ++ [] := by
        rw [taken_grows hgrows, hasks, List.append_nil]
        exact h.told
      have hpublished : (publications (bscPublishResponseLocked response v.sys).2.log).Sublist
          (asks (bscPublishResponseLocked response v.sys).2.log) := by
        rw [hasks]
        rcases hpublications with hsame | hmore
        · rw [hsame]
          exact h.published.trans (List.sublist_append_left _ _)
        · rw [hmore]
          exact h.published.append (List.Sublist.refl _)
      have hturns : taken true (bscPublishResponseLocked response v.sys).2.log = [] →
          alternates (bscPublishResponseLocked response v.sys).2.log = some false := by
        intro hnone
        rw [taken_grows hgrows] at hnone
        rw [alternates_grows hgrows, alternates, h.turns hnone]
        rfl
      refine ⟨[], ?_⟩
      rcases publish_returns response v.sys with hret | hret | hret <;> rw [hret]
      · exact ⟨h.answers, Nat.zero_le 1, fun _ _ hq => (by cases hq), htold, hpublished, hturns⟩
      · exact ⟨h.answers, Nat.zero_le 1, fun _ _ hq => (by cases hq), htold, hpublished, hturns⟩
      · simp only [TargetDriver.writeReturned, if_true]
        exact ⟨h.answers, rfl, fun _ _ hq => (by cases hq), htold, hpublished, hturns⟩
  | _ =>
    simp only [Served.step, hp]
    exact ⟨owed, h⟩

theorem step (h : Echoes v owed) (t : Turn) : ∃ owed', Echoes (v.step t) owed' := by
  cases t with
  | background b =>
    exact ⟨owed, h.unseen (b.grows v.sys)⟩
  | check running =>
    cases hp : v.serve.phase with
    | loop =>
      have ho := h.owes
      rw [hp] at ho
      obtain rfl : owed = [] := ho
      simp only [Served.step, hp]
      refine ⟨[], h.resume rfl rfl ?_ ?_⟩ <;> cases running
      · exact rfl
      · exact rfl
      · exact fun _ _ hq => (by cases hq)
      · exact fun _ _ hq => (by cases hq)
    | _ =>
      simp only [Served.step, hp]
      exact ⟨owed, h⟩
  | read interrupted fault restart now => exact h.read interrupted fault restart now
  | write interrupted fault now => exact h.write interrupted fault now

theorem start (s : Sys) : Echoes (Served.start false s) [] := by
  have hempty : Echoes ⟨{ s with log := [] }, .start false⟩ [] :=
    ⟨rfl, rfl, fun _ _ h => (by cases h), rfl, List.Sublist.refl [], fun _ => rfl⟩
  exact hempty.unseen (grows_openSession s)

end Echoes

/-- However the program and its background interleave, and whatever goes wrong in between: what it
asks to be sent are the echoes of the records it read, in their order, each asked for once. At most
the last one is still due, between its `read` and its `write`, and what is sent is among them. -/
theorem responses_echo (s : Sys) (turns : List Turn) :
    let v := (Served.start false s).run turns
    ∃ owed, Owes v.serve.phase owed ∧ owed.length ≤ 1 ∧
      (taken false v.sys.log).map echo = asks v.sys.log ++ owed ∧
      (publications v.sys.log).Sublist (asks v.sys.log) := by
  intro v
  obtain ⟨owed, h⟩ := Served.run_keep (P := fun v => ∃ owed, Echoes v owed)
    (fun _ t ⟨_, h⟩ => h.step t) ⟨[], .start s⟩ turns
  exact ⟨owed, h.owes, h.owes.length_le, h.told, h.published⟩

end BscTarget
