import BscTarget.Driver.Recovery

/-!
# The other parties of an exchange

A controller sends one request as one write, waits for its acknowledgement and then for READY,
clocks exactly the reply and only then goes on; a worker alternates `read` and `write`. `conduct`
follows both along a history and rejects what they would not do. The driver's own events are
never rejected.
-/

namespace BscTarget

/-! ## Exchanges -/

/-- The responses that `write` asked to publish, in order. -/
def asks : List Event → List Bytes
  | [] => []
  | .asked data :: log => asks log ++ [data]
  | _ :: log => asks log

/-- Every response published, with what the controller clocked until the next one was; newest
first. -/
def transfers : List Event → List (Bytes × Bytes)
  | [] => []
  | .published data _ :: log => (data, []) :: transfers log
  | .clocked b :: log =>
    match transfers log with
    | [] => []
    | (data, bytes) :: rest => (data, bytes ++ [b]) :: rest
  | _ :: log => transfers log

theorem transfers_fst (log : List Event) :
    (transfers log).reverse.map Prod.fst = publications log := by
  induction log with
  | nil => rfl
  | cons e log ih =>
    cases e with
    | published data fr => simp [transfers, publications, ← ih]
    | clocked b =>
      rcases h : transfers log with _ | ⟨⟨data, bytes⟩, rest⟩ <;>
        simp [transfers, publications, ← ih, h]
    | _ => exact ih

/-- What was clocked since the last publication is the transfer of that response. -/
theorem transfers_clocked {log : List Event} {data bytes : Bytes} {rest : List (Bytes × Bytes)}
    (h : transfers log = (data, bytes) :: rest) (b : UInt8) :
    transfers (.clocked b :: log) = (data, bytes ++ [b]) :: rest := by
  simp [transfers, h]

/-! ## Discipline -/

/-- Where the controller stands in an exchange. -/
inductive Phase
  | idle
  | sending (rest : Bytes)
  | sent
  | acked
  | reading (left : ℕ)
  deriving DecidableEq

/-- The exchange that controller and worker are in, and whether the worker holds a request. -/
structure Conduct where
  index : ℕ
  phase : Phase
  holding : Bool
  deriving DecidableEq

/-- What the parties make of an event while `reply` is the response published last. -/
def Conduct.step (requests : ℕ → Bytes) (reply : Option Bytes) (c : Conduct) :
    Event → Option Conduct
  | .busy true =>
    match c.phase with
    | .idle => some { c with phase := .sending (requests c.index) }
    | .sending _ => some c
    | _ => none
  | .busy false =>
    match c.phase with
    | .sending [] => some { c with phase := .sent }
    | .sending (_ :: _) => none
    | _ => some c
  | .arrived b =>
    match c.phase with
    | .sending (b' :: rest) => if b = b' then some { c with phase := .sending rest } else none
    | _ => none
  | .clocked _ =>
    match c.phase with
    | .reading 1 => some { c with index := c.index + 1, phase := .idle }
    | .reading (left + 2) => some { c with phase := .reading (left + 1) }
    | _ => none
  | .acked =>
    match c.phase with
    | .sent => some { c with phase := .acked }
    | _ => some c
  | .ready true =>
    match c.phase, reply with
    | .acked, some data => some { c with phase := .reading data.length }
    | _, _ => some c
  | .took _ fault =>
    if c.holding = true ∨ fault = true then none else some { c with holding := true }
  | .asked _ => if c.holding then some { c with holding := false } else none
  -- The RX FIFO never overflows, the serializer is never clocked empty, and nothing is recovered.
  | .lost _ => none
  | .underrun => none
  | .recovered _ => none
  | _ => some c

/-- Where a history has led the parties, if they kept to their discipline. -/
def conduct (requests : ℕ → Bytes) : List Event → Option Conduct
  | [] => some ⟨0, .idle, false⟩
  | e :: log => (conduct requests log).bind fun c => c.step requests (current log) e

variable {requests : ℕ → Bytes} {log : List Event} {c c' : Conduct}

theorem conduct_cons (hc : conduct requests log = some c) (e : Event) :
    conduct requests (e :: log) = c.step requests (current log) e := by
  rw [conduct, hc]
  rfl

theorem conduct_of_cons {e : Event} (h : conduct requests (e :: log) = some c') :
    ∃ c, conduct requests log = some c ∧ c.step requests (current log) e = some c' :=
  Option.bind_eq_some_iff.mp h

/-- An event that the parties take no notice of. -/
theorem conduct_keep (hc : conduct requests log = some c) {e : Event}
    (he : ∀ reply, c.step requests reply e = some c) : conduct requests (e :: log) = some c :=
  (conduct_cons hc e).trans (he _)

theorem conduct_drainByte {s : Sys} (hc : conduct requests s.log = some c) :
    conduct requests (drainByte s).log = some c := by
  have hkeep {log : List Event} (hc : conduct requests log = some c) (b : UInt8) :
      conduct requests (.drained b :: log) = some c := conduct_keep hc fun _ => rfl
  have hbegan : conduct requests (.began :: s.log) = some c := conduct_keep hc fun _ => rfl
  rcases drainByte_cases s with ⟨-, -, -, -, h⟩ | ⟨-, -, -, h⟩ | ⟨-, -, h⟩ | ⟨-, -, h⟩ <;> rw [h]
  · exact hkeep (conduct_keep hbegan fun _ => rfl) _
  · exact hkeep hbegan _
  · exact hkeep hc _
  · exact hkeep hc _

theorem conduct_release {s : Sys} (hc : conduct requests s.log = some c) (n : ℕ) :
    conduct requests (bscSetReady false { s with bsc.recoveries := n }).log = some c := by
  unfold bscSetReady
  split_ifs
  · exact conduct_keep hc fun _ => rfl
  · exact hc

/-- Discipline kept was kept all along. -/
theorem conduct_of_suffix {log' : List Event} (h : log <:+ log')
    (hc : conduct requests log' = some c') : ∃ c, conduct requests log = some c := by
  obtain ⟨pre, rfl⟩ := h
  induction pre generalizing c' with
  | nil => exact ⟨c', hc⟩
  | cons e pre ih =>
    obtain ⟨c, hc, -⟩ := conduct_of_cons hc
    exact ih hc

/-- A controller that is not reading clocks nothing. -/
theorem Conduct.not_clocked {reply : Option Bytes} {b : UInt8}
    (hp : ∀ left, c.phase ≠ .reading left) : c.step requests reply (.clocked b) = none := by
  obtain ⟨index, phase, holding⟩ := c
  cases phase with
  | reading left => exact absurd rfl (hp left)
  | _ => rfl

/-- Whether the controller waits for the driver or reads from it. -/
def Phase.waits : Phase → Bool
  | .acked => true
  | .reading _ => true
  | _ => false

/-- A waiting controller sends nothing. -/
theorem unheard_of_waits {s t : Sys} (h : Quiet s t) (hw : c.phase.waits = true)
    (hc : conduct requests s.log = some c) (hc' : conduct requests t.log = some c') :
    inputs t.log = inputs s.log := by
  have hnone : c.step requests (current s.log) (.busy true) = none ∧
      ∀ b, c.step requests (current s.log) (.arrived b) = none := by
    obtain ⟨index, phase, holding⟩ := c
    cases phase <;> first | exact ⟨rfl, fun _ => rfl⟩ | cases hw
  cases h with
  | bus e =>
    rcases Sys.bus_cases s e with
      ⟨on, _, h⟩ | ⟨_, _, _, h⟩ | ⟨_, _, h⟩ | ⟨_, _, _, h⟩ | ⟨_, _, h⟩ <;> rw [h] at hc' ⊢
    · cases on with
      | false => rfl
      | true =>
        rw [conduct_cons hc, hnone.1] at hc'
        cases hc'
    · rw [conduct_cons hc, hnone.2] at hc'
      cases hc'
    all_goals rfl
  | env => rfl
  | reg => rfl

/-- A controller that waits for READY does nothing. -/
theorem conduct_acked {s t : Sys} (h : Quiet s t) (hp : c.phase = .acked)
    (hc : conduct requests s.log = some c) (hc' : conduct requests t.log = some c') : c' = c := by
  obtain ⟨index, phase, holding⟩ := c
  obtain rfl : phase = .acked := hp
  cases h with
  | bus e =>
    rcases Sys.bus_cases s e with
      ⟨on, _, h⟩ | ⟨_, _, _, h⟩ | ⟨_, _, h⟩ | ⟨_, _, _, h⟩ | ⟨_, _, h⟩ <;>
      rw [h] at hc' <;> rw [conduct_cons hc] at hc'
    · cases on <;> cases hc'
      rfl
    all_goals cases hc'
  | env => exact (Option.some.inj (hc.symm.trans hc')).symm
  | reg => exact (Option.some.inj (hc.symm.trans hc')).symm

end BscTarget
