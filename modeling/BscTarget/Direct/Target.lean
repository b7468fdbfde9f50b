import BscTarget.Lib.Histories
import BscTarget.Lib.Steps
import BscTarget.Driver.Code

/-!
# The direct target

`target.rs` drives the same peripheral from user space, through a mapping of its registers.
`Target` puts the peripheral beside what the bus is going to do before each coming register
access (`env`) and what has happened so far (`log`, newest event first). The pins, the mapping
and the sleeps between two polls are left out; they access no register of the peripheral.
-/

namespace BscTarget.Direct

def maxCommand : ℕ := 15
def maxResponse : ℕ := 15

def bscControl : UInt32 := crEn ||| crI2c ||| crTxe ||| crRxe

/-- What the bus does: BSC_FR_TX_BUSY changes, or what the driver sees of it too. -/
inductive BusEvent
  | txBusy (on : Bool)
  | hw (e : HwEvent)
  deriving DecidableEq

inductive Event
  | rxBusy (on : Bool)
  | txBusy (on : Bool)
  /-- A received byte entered the RX FIFO. -/
  | arrived (b : UInt8)
  /-- A received byte found the RX FIFO full. -/
  | lost (b : UInt8)
  /-- The controller clocked a byte out of the serializer. -/
  | clocked (b : UInt8)
  /-- The controller clocked an empty serializer. -/
  | underrun
  /-- A byte was read from DR. -/
  | drained (b : UInt8)
  /-- The drain loop read FR and found the RX FIFO empty. -/
  | emptied
  /-- `receiving` found the bus idle, and what was received is going to be answered. -/
  | command (received : Bytes)
  /-- `receiving` found the bus idle, and what was received is discarded. -/
  | oversized (received : Bytes)
  /-- A byte was written to DR. -/
  | loaded (b : UInt8)
  deriving DecidableEq

/-- `HardwareTarget`: the address and the peripheral behind the register page. -/
structure Target where
  address : UInt32
  hw : Hw
  txBusy : Bool
  env : List (List BusEvent)
  log : List Event
  deriving DecidableEq

/-- How a call that waits for the peripheral ends; `stuck` means that it never returns. -/
inductive Outcome
  | returned
  | invalidInput
  | stuck
  deriving DecidableEq

namespace Target

def note (t : Target) (e : Event) : Target := { t with log := e :: t.log }

def bus (t : Target) : BusEvent → Target
  | .txBusy on => { t with txBusy := on, log := .txBusy on :: t.log }
  | .hw (.busy on) => { t with hw.rxBusy := on, log := .rxBusy on :: t.log }
  | .hw (.byte b) =>
    if t.hw.rxFifo.length < bscFifoSize then
      { t with hw.rxFifo := t.hw.rxFifo ++ [b], log := .arrived b :: t.log }
    else { t with hw.rsr := t.hw.rsr ||| rsrOe, log := .lost b :: t.log }
  | .hw .clock =>
    match t.hw.tx.serializer with
    | some b => { t with hw.tx := t.hw.tx.shift, log := .clocked b :: t.log }
    | none => { t with hw.rsr := t.hw.rsr ||| rsrUe, log := .underrun :: t.log }

/-- What the bus does up to the next register access. -/
def tick (t : Target) : Target :=
  match t.env with
  | [] => t
  | batch :: rest => batch.foldl bus { t with env := rest }

theorem env_bus (t : Target) (e : BusEvent) : (t.bus e).env = t.env := by
  unfold bus
  split
  · rfl
  · rfl
  · split_ifs <;> rfl
  · split <;> rfl

theorem env_foldl_bus (events : List BusEvent) (t : Target) :
    (events.foldl bus t).env = t.env := by
  induction events generalizing t with
  | nil => rfl
  | cons e events ih => rw [List.foldl_cons, ih, env_bus]

theorem env_tick (t : Target) : t.tick.env = t.env.tail := by
  unfold tick
  split
  · next h => rw [h, List.tail_nil]
  · next h => rw [env_foldl_bus, h, List.tail_cons]

def write (t : Target) (reg : Reg) (value : UInt32) : Target :=
  let t := t.tick
  { t with hw := t.hw.write value reg }

def configure (t : Target) : Target :=
  let t := ((((t.write .CR 0).write .RSR 0).write .SLV 0).write .IMSC 0x0f).write .ICR 0x0f
  ((t.write .SLV t.address).write .CR bscControl).write .RSR 0

/-! ## Receiving -/

/-- `while FR & RX_EMPTY == 0`: one read of FR and one of DR for each byte. -/
def drainLoop : ℕ → Target → Bytes → Target × Bytes
  | 0, t, destination => (t, destination)
  | fuel + 1, t, destination =>
    let t := t.tick
    match t.hw.fr.rxfe with
    | true => (t.note .emptied, destination)
    | false =>
      let t := t.tick
      let byte := t.hw.rxFifo.headD 0
      drainLoop fuel { t with hw.rxFifo := t.hw.rxFifo.tail, log := .drained byte :: t.log }
        (destination ++ [byte])

/-- No more bytes than these can still be read. -/
def inbound (t : Target) : ℕ := t.hw.rxFifo.length + t.env.flatten.length

def drainReceived (t : Target) (destination : Bytes) : Target × Bytes :=
  drainLoop (t.inbound + 1) t destination

def receiving (t : Target) : Target × Bool :=
  let t := t.tick
  (t, t.hw.fr.rxbusy)

/-! ## Answering -/

/-- `while FR & mask != 0`: reads FR until the bits are clear. The flag says whether they were. -/
def waitLoop (blocked : Target → Bool) : ℕ → Target → Target × Bool
  | 0, t => (t, false)
  | fuel + 1, t =>
    let t := t.tick
    if blocked t then waitLoop blocked fuel t else (t, true)

/-- Once the bus has nothing more to do, reading FR again changes nothing. -/
def waitWhile (blocked : Target → Bool) (t : Target) : Target × Bool :=
  waitLoop blocked (t.env.length + 1) t

def busy (t : Target) : Bool := t.txBusy || t.hw.fr.rxbusy

def txFull (t : Target) : Bool := t.hw.fr.txff

/-- `for byte in framed` -/
def loadAll : Bytes → Target → Target × Outcome
  | [], t => (t, .returned)
  | byte :: rest, t =>
    match t.waitWhile txFull with
    | (t, false) => (t, .stuck)
    | (t, true) => loadAll rest ((t.write .DR byte.toUInt32).note (.loaded byte))

/-- The peripheral is disabled and enabled again. -/
def restart (t : Target) : Target :=
  (((t.write .CR 0).write .RSR 0).write .SLV t.address).write .CR bscControl

def framed (response : Bytes) : Bytes := UInt8.ofNat response.length :: response

def queueResponse (response : Bytes) (t : Target) : Target × Outcome :=
  if response.length = 0 ∨ response.length > maxResponse then (t, .invalidInput)
  else
    match t.waitWhile busy with
    | (t, false) => (t, .stuck)
    | (t, true) => loadAll (framed response) t.restart

end Target

/-! ## The main loop -/

/-- What `main` keeps from one pass to the next. -/
structure Loop where
  target : Target
  received : Bytes
  deriving DecidableEq

/-- `b"ACK: "` and at most ten bytes of the command. -/
def acknowledge (received : Bytes) : Bytes :=
  [0x41, 0x43, 0x4b, 0x3a, 0x20] ++ received.take 10

/-- One pass up to the call of `queue_response`, with the response if there is to be one. -/
def examine (l : Loop) : Loop × Option Bytes :=
  let (t, received) := l.target.drainReceived l.received
  if received = [] then (⟨t, received⟩, none)
  else
    match t.receiving with
    | (t, true) => (⟨t, received⟩, none)
    | (t, false) =>
      if received.length > maxCommand then (⟨t.note (.oversized received), []⟩, none)
      else (⟨t.note (.command received), received⟩, some (acknowledge received))

def iterate (l : Loop) : Loop × Outcome :=
  match examine l with
  | (l, none) => (l, .returned)
  | (l, some response) =>
    match l.target.queueResponse response with
    | (t, .returned) => (⟨t, []⟩, .returned)
    | (t, outcome) => (⟨t, l.received⟩, outcome)

/-- At most `n` passes; an error of `queue_response` ends them, and so does a call that never
returns. -/
def mainLoop : ℕ → Loop → Loop × Outcome
  | 0, l => (l, .returned)
  | n + 1, l =>
    match mainLoop n l with
    | (l, .returned) => iterate l
    | (l, outcome) => (l, outcome)

/-- `main` from the mapped registers on. -/
def main (n : ℕ) (t : Target) : Loop × Outcome := mainLoop n ⟨t.configure, []⟩

/-! ## What a call does between two decisions -/

/-- The bus moves, a register is written, or a byte loaded into DR is noted. -/
inductive Quiet : Target → Target → Prop
  | bus (t : Target) (e : BusEvent) : Quiet t (t.bus e)
  | env (t : Target) (env : List (List BusEvent)) : Quiet t { t with env := env }
  | reg (t : Target) (reg : Reg) (value : UInt32) : Quiet t { t with hw := t.hw.write value reg }
  | load (t : Target) (byte : UInt8) : Quiet t (t.note (.loaded byte))

theorem Quiet.suffix {t u : Target} (h : Quiet t u) : t.log <:+ u.log := by
  cases h with
  | bus e =>
    unfold Target.bus
    split
    · exact List.suffix_cons _ _
    · exact List.suffix_cons _ _
    · split_ifs <;> exact List.suffix_cons _ _
    · split <;> exact List.suffix_cons _ _
  | env => exact List.suffix_refl _
  | reg => exact List.suffix_refl _
  | load byte => exact List.suffix_cons _ _

theorem suffix_steps {t u : Target} (h : Steps Quiet t u) : t.log <:+ u.log :=
  h.lift (R := fun t u : Target => t.log <:+ u.log) (fun _ => List.suffix_refl _)
    List.IsSuffix.trans Quiet.suffix

namespace Target

theorem foldl_bus_steps (events : List BusEvent) (t : Target) :
    Steps Quiet t (events.foldl bus t) :=
  Steps.foldl (fun a e => .single (.bus a e)) events t

theorem tick_steps (t : Target) : Steps Quiet t t.tick := by
  unfold tick
  split
  · exact .refl
  · exact .head (.env t _) (foldl_bus_steps _ _)

theorem write_steps (t : Target) (reg : Reg) (value : UInt32) : Steps Quiet t (t.write reg value) :=
  t.tick_steps.tail (.reg _ reg value)

theorem configure_steps (t : Target) : Steps Quiet t t.configure :=
  ((((((((t.write_steps _ _).trans (write_steps _ _ _)).trans (write_steps _ _ _)).trans
    (write_steps _ _ _)).trans (write_steps _ _ _)).trans (write_steps _ _ _)).trans
    (write_steps _ _ _)).trans (write_steps _ _ _))

theorem restart_steps (t : Target) : Steps Quiet t t.restart :=
  (((t.write_steps _ _).trans (write_steps _ _ _)).trans (write_steps _ _ _)).trans
    (write_steps _ _ _)

/-- An induction along a wait: it is over where the bits are clear, and stuck only where the bus has
nothing more to do and the same read is repeated. -/
theorem waitWhile_induction {blocked : Target → Bool} {P : Target → Target × Bool → Prop}
    (clear : ∀ t : Target, blocked t.tick = false → P t (t.tick, true))
    (stuck : ∀ t : Target, t.env = [] → blocked t = true → P t (t, false))
    (more : ∀ (t : Target) (r : Target × Bool), blocked t.tick = true → P t.tick r → P t r)
    (t : Target) : P t (t.waitWhile blocked) := by
  unfold waitWhile
  induction henv : t.env generalizing t with
  | nil =>
    have ht : t.tick = t := by rw [tick, henv]
    rw [List.length_nil, waitLoop, waitLoop]
    split_ifs with hb
    · rw [ht] at hb ⊢
      exact stuck t henv hb
    · exact clear t (eq_false_of_ne_true hb)
  | cons batch rest ih =>
    have hrest : t.tick.env = rest := by rw [env_tick, henv, List.tail_cons]
    rw [List.length_cons, waitLoop]
    split_ifs with hb
    · exact more t _ hb (ih t.tick hrest)
    · exact clear t (eq_false_of_ne_true hb)

theorem waitWhile_steps (blocked : Target → Bool) (t : Target) :
    Steps Quiet t (t.waitWhile blocked).1 := by
  refine waitWhile_induction (P := fun t r => Steps Quiet t r.1) ?_ ?_ ?_ t
  · exact fun t _ => t.tick_steps
  · exact fun _ _ _ => .refl
  · exact fun t _ _ h => t.tick_steps.trans h

theorem loadAll_steps : ∀ (bytes : Bytes) (t : Target), Steps Quiet t (t.loadAll bytes).1 := by
  intro bytes
  induction bytes with
  | nil => exact fun _ => .refl
  | cons byte rest ih =>
    intro t
    have hwait := t.waitWhile_steps txFull
    rcases h : t.waitWhile txFull with ⟨u, _ | _⟩
    · simpa only [loadAll, h] using hwait
    · simp only [loadAll, h]
      rw [h] at hwait
      exact ((hwait.trans (u.write_steps _ _)).tail (.load _ byte)).trans (ih _)

theorem queueResponse_steps (response : Bytes) (t : Target) :
    Steps Quiet t (t.queueResponse response).1 := by
  unfold queueResponse
  split_ifs
  · exact .refl
  · have hwait := t.waitWhile_steps busy
    rcases h : t.waitWhile busy with ⟨u, _ | _⟩
    · simpa only [h] using hwait
    · rw [h] at hwait
      exact (hwait.trans u.restart_steps).trans (loadAll_steps _ _)

end Target

end BscTarget.Direct
