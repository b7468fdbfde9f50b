import BscTarget.Lib.Ring
import BscTarget.Driver.Run

/-!
# Reading the history

What a history says, as functions of the log (newest event first): the bytes that arrived and
were drained, the bursts with their outcomes, the fate of every record, the generation counters
as unbounded numbers, and the READY line.
-/

namespace BscTarget

/-! ## Reception -/

/-- The byte that entered the RX FIFO. -/
def Event.arrival : Event → Option UInt8
  | .arrived b => some b
  | _ => none

/-- The byte read from DR. -/
def Event.drain : Event → Option UInt8
  | .drained b => some b
  | _ => none

/-- FR_RXBUSY, where it changed. -/
def Event.rxBusy : Event → Option Bool
  | .busy on => some on
  | _ => none

/-- The bytes that entered the RX FIFO, in order. -/
def arrivals (log : List Event) : Bytes := collected Event.arrival log

/-- The bytes read from DR, in order. -/
def drainedBytes (log : List Event) : Bytes := collected Event.drain log

/-- The bytes drained since the last end of a burst. -/
def burst : List Event → Bytes
  | [] => []
  | .finished _ :: _ => []
  | .drained b :: log => burst log ++ [b]
  | _ :: log => burst log

/-- Every finished burst with the record it was published as, if any. -/
def outcomes : List Event → List (Bytes × Option Bytes)
  | [] => []
  | .finished r :: log => outcomes log ++ [(burst log, r)]
  | _ :: log => outcomes log

/-- The finished bursts. -/
def bursts (log : List Event) : List Bytes := (outcomes log).map Prod.fst

/-- The published records. -/
def records (log : List Event) : List Bytes := (outcomes log).filterMap Prod.snd

/-- FR_RXBUSY, `b` at the start. -/
def busyFrom (b : Bool) (log : List Event) : Bool := latest Event.rxBusy b log

theorem arrivals_cons (e : Event) (log : List Event) :
    arrivals (e :: log) = arrivals log ++ e.arrival.toList := collected_cons e

theorem drainedBytes_cons (e : Event) (log : List Event) :
    drainedBytes (e :: log) = drainedBytes log ++ e.drain.toList := collected_cons e

/-- Every drained byte belongs to a finished burst or to the current one. -/
theorem drainedBytes_eq (log : List Event) :
    drainedBytes log = (bursts log).flatten ++ burst log := by
  induction log with
  | nil => rfl
  | cons e log ih => cases e <;> simp_all [drainedBytes_cons, Event.drain, bursts, outcomes, burst]

/-! ## Records -/

inductive Fate
  | returned | faulted | evicted | superseded
  deriving DecidableEq

/-- The receive queue as the history makes it. -/
def ledger : List Event → Ledger Fate Bytes
  | [] => .empty
  | .finished (some r) :: log => (ledger log).enqueue r
  | .evicted :: log => (ledger log).remove .evicted
  | .superseded :: log => (ledger log).clear .superseded
  | .took _ fault :: log => (ledger log).remove (if fault then .faulted else .returned)
  | _ :: log => ledger log

/-- The records that `read` dequeued, in order: those it returned, or those whose copy to the
user's buffer failed. -/
def taken (fault : Bool) : List Event → List Bytes
  | [] => []
  | .took r f :: log => if f = fault then taken fault log ++ [r] else taken fault log
  | _ :: log => taken fault log

/-- The number of records evicted. -/
def evictions : List Event → ℕ
  | [] => 0
  | .evicted :: log => evictions log + 1
  | _ :: log => evictions log

/-- Every eviction found a full queue. -/
def EvictedFull : List Event → Prop
  | [] => True
  | .evicted :: log => (ledger log).queue.length = bscRxSlots ∧ EvictedFull log
  | _ :: log => EvictedFull log

/-- Everything enqueued is everything published. -/
theorem all_ledger (log : List Event) : (ledger log).all = records log := by
  induction log with
  | nil => rfl
  | cons e log ih =>
    cases e with
    | finished r => cases r <;> simp_all [ledger, records, outcomes]
    | _ => simp_all [ledger, records, outcomes]

/-! ## Generations -/

/-- The number of bursts begun. -/
def starts : List Event → ℕ
  | [] => 0
  | .began :: log => starts log + 1
  | _ :: log => starts log

/-- The number of bursts begun up to the last dequeue. -/
def startsTaken : List Event → ℕ
  | [] => 0
  | .took _ _ :: log => starts log
  | _ :: log => startsTaken log

/-- Whether a byte was drained since the last dequeue. -/
def drainedSinceTake : List Event → Bool
  | [] => false
  | .drained _ :: _ => true
  | .took _ _ :: _ => false
  | _ :: log => drainedSinceTake log

theorem startsTaken_le (log : List Event) : startsTaken log ≤ starts log := by
  induction log with
  | nil => exact Nat.le_refl 0
  | cons e log ih => cases e <;> simp only [startsTaken, starts] <;> omega

/-! ## Responses -/

/-- The responses published, in order. -/
def publications : List Event → List Bytes
  | [] => []
  | .published data _ :: log => publications log ++ [data]
  | _ :: log => publications log

/-- The bytes written to DR, in order. -/
def loadedBytes : List Event → Bytes
  | [] => []
  | .loaded b :: log => loadedBytes log ++ [b]
  | _ :: log => loadedBytes log

/-- The bytes written to DR since the last publication. -/
def loadedSince : List Event → Bytes
  | [] => []
  | .published _ _ :: _ => []
  | .loaded b :: log => loadedSince log ++ [b]
  | _ :: log => loadedSince log

/-- The bytes the controller clocked since the last publication. -/
def clockedSince : List Event → Bytes
  | [] => []
  | .published _ _ :: _ => []
  | .clocked b :: log => clockedSince log ++ [b]
  | _ :: log => clockedSince log

/-- The response published last, until a burst begins. -/
def current : List Event → Option Bytes
  | [] => none
  | .published data _ :: _ => some data
  | .began :: _ => none
  | _ :: log => current log

/-- DR receives nothing but the response published last, in order, and nothing of it once a burst
has begun. -/
def LoadsCurrent : List Event → Prop
  | [] => True
  | .loaded b :: log =>
    (∃ data, current log = some data ∧ loadedSince log ++ [b] <+: data) ∧ LoadsCurrent log
  | _ :: log => LoadsCurrent log

/-- The signs of further input: a byte that arrived, or FR_RXBUSY set. -/
def inputs : List Event → ℕ
  | [] => 0
  | .arrived _ :: log => inputs log + 1
  | .busy true :: log => inputs log + 1
  | _ :: log => inputs log

/-- The publications and recoveries. -/
def renewals : List Event → ℕ
  | [] => 0
  | .published _ _ :: log => renewals log + 1
  | .recovered _ :: log => renewals log + 1
  | _ :: log => renewals log

/-! ## The READY line -/

/-- The level of the READY line, released at the start. -/
def level : List Event → Bool
  | [] => false
  | .ready on :: _ => on
  | _ :: log => level log

/-- The number of asserted-to-released transitions. -/
def falls : List Event → ℕ
  | [] => 0
  | .ready false :: log => falls log + (if level log then 1 else 0)
  | _ :: log => falls log

/-- Whether a response was published and no burst finished since. -/
def answered : List Event → Bool
  | [] => false
  | .published _ _ :: _ => true
  | .finished _ :: _ => false
  | _ :: log => answered log

/-- Whether a response was published and READY not set since. -/
def awaiting : List Event → Bool
  | [] => false
  | .published _ _ :: _ => true
  | .ready _ :: _ => false
  | _ :: log => awaiting log

/-- Every publication finds the line released, and what sets it next asserts it; `next` is how
the line is set after the history ends. -/
def PublicationsRise : Option Bool → List Event → Prop
  | _, [] => True
  | _, .ready on :: log => PublicationsRise (some on) log
  | next, .published _ _ :: log =>
    level log = false ∧ next = some true ∧ PublicationsRise next log
  | next, _ :: log => PublicationsRise next log

/-- Every recovery finds the line released. -/
def RecoveriesReleased : List Event → Prop
  | [] => True
  | .recovered _ :: log => level log = false ∧ RecoveriesReleased log
  | _ :: log => RecoveriesReleased log

theorem PublicationsRise.of_none {log : List Event} (h : PublicationsRise none log)
    (next : Option Bool) : PublicationsRise next log := by
  induction log with
  | nil => trivial
  | cons e log ih =>
    cases e with
    | ready on => exact h
    | published data fr => cases h.2.1
    | _ => exact ih h

end BscTarget
