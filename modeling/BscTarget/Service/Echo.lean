import BscTarget.Driver.Exchange
import BscTarget.Service.Responder

/-!
# Request and echo

Controller, driver and responder together. The responder keeps to the discipline that an exchange
asks of a worker (`alternates_run`), so a controller that keeps to its own part (`attend`) reads,
for every request, the echo of that request.
-/

namespace BscTarget

/-! ## The parts of the discipline -/

/-- The controller's part of the discipline: `read` and `write` are not its business. -/
def attend (requests : ℕ → Bytes) : List Event → Option (ℕ × Phase)
  | [] => some (0, .idle)
  | .took _ _ :: log => attend requests log
  | .asked _ :: log => attend requests log
  | e :: log => (attend requests log).bind fun c =>
    ((⟨c.1, c.2, false⟩ : Conduct).step requests (current log) e).map fun c => (c.index, c.phase)

/-- Whether the worker makes an event. -/
def Event.ofWorker : Event → Bool
  | .took _ _ | .asked _ => true
  | _ => false

section Parts

variable {requests : ℕ → Bytes} {log : List Event} {e : Event}

theorem attend_cons (he : e.ofWorker = false) :
    attend requests (e :: log) = (attend requests log).bind fun c =>
      ((⟨c.1, c.2, false⟩ : Conduct).step requests (current log) e).map
        fun c => (c.index, c.phase) := by
  cases e with
  | took record fault => cases he
  | asked data => cases he
  | _ => rfl

theorem alternates_cons (he : e.ofWorker = false) : alternates (e :: log) = alternates log := by
  cases e with
  | took record fault => cases he
  | asked data => cases he
  | _ => rfl

/-- What the controller does with an event does not depend on the worker. -/
theorem Conduct.step_holding (reply : Option Bytes) (i : ℕ) (p : Phase) (h : Bool)
    (he : e.ofWorker = false) :
    (⟨i, p, h⟩ : Conduct).step requests reply e =
      ((⟨i, p, false⟩ : Conduct).step requests reply e).map fun c => ⟨c.index, c.phase, h⟩ := by
  cases e with
  | busy on => rcases on with _ | _ <;> rcases p with _ | ⟨_ | _⟩ | _ | _ | _ <;> rfl
  | arrived b =>
    cases p with
    | sending rest =>
      cases rest with
      | nil => rfl
      | cons b' rest =>
        show (if b = b' then _ else _) = Option.map _ (if b = b' then _ else _)
        split_ifs <;> rfl
    | _ => rfl
  | clocked b => rcases p with _ | _ | _ | _ | ⟨_ | _ | _⟩ <;> rfl
  | acked => rcases p with _ | _ | _ | _ | _ <;> rfl
  | ready on => rcases on with _ | _ <;> rcases p with _ | _ | _ | _ | _ <;> cases reply <;> rfl
  | took record fault => cases he
  | asked data => cases he
  | _ => rfl

/-- The parts make the whole. -/
theorem conduct_of_parts {i : ℕ} {p : Phase} {h : Bool} (hc : attend requests log = some (i, p))
    (hw : alternates log = some h) : conduct requests log = some ⟨i, p, h⟩ := by
  induction log generalizing i p h with
  | nil =>
    cases hc
    cases hw
    rfl
  | cons e log ih =>
    cases he : e.ofWorker with
    | false =>
      rw [attend_cons he] at hc
      rw [alternates_cons he] at hw
      obtain ⟨⟨i', p'⟩, hc', hstep⟩ := Option.bind_eq_some_iff.mp hc
      obtain ⟨c, hc'', heq⟩ := Option.map_eq_some_iff.mp hstep
      rw [conduct_cons (ih hc' hw), Conduct.step_holding _ _ _ _ he, hc'']
      cases heq
      rfl
    | true =>
      cases e with
      | took record fault =>
        obtain ⟨holding, hw', hstep⟩ := Option.bind_eq_some_iff.mp hw
        rw [conduct_cons (ih hc hw')]
        split_ifs at hstep with hout
        cases hstep
        exact if_neg hout
      | asked data =>
        obtain ⟨holding, hw', hstep⟩ := Option.bind_eq_some_iff.mp hw
        rw [conduct_cons (ih hc hw')]
        split_ifs at hstep with hheld
        cases hstep
        exact if_pos hheld
      | _ => cases he

end Parts

/-! ## End to end -/

/-- The records read are the requests; every reply is the echo of its request, what was clocked of
it is its beginning, and of the exchanges completed all of it. -/
structure Echoed (requests : ℕ → Bytes) (completed : ℕ) (log : List Event) : Prop where
  records : taken false log = (List.range (taken false log).length).map requests
  replies : publications log <+: (taken false log).map echo
  transfers : (transfers log).reverse.map Prod.fst = publications log
  clocked : ∀ p ∈ BscTarget.transfers log, p.2 <+: p.1
  complete : ((BscTarget.transfers log).reverse.take completed).map Prod.snd =
    (List.range completed).map fun k => echo (requests k)

theorem Stage.contract {requests : ℕ → Bytes} {c : Conduct} {s : Sys}
    (ho : openAsk s.log = none) (hi : Stage requests c s) : Contract requests c s.log := by
  cases hi with
  | receiving h _ => exact h.told.contract ho rfl
  | waiting h => exact h.told.contract ho rfl
  | working h => exact h.told.contract ho rfl
  | replying data h => exact h.contract

/-- What the contract says of replies that are echoes. -/
theorem Contract.echoed {requests : ℕ → Bytes} {c : Conduct} {log : List Event}
    {owed : List Bytes} (ht : (taken false log).map echo = asks log ++ owed)
    (h : Contract requests c log) : Echoed requests c.index log := by
  have hprefix : publications log <+: (taken false log).map echo :=
    ⟨owed, by rw [h.published, ht]⟩
  refine ⟨h.records, hprefix, h.replies, h.clocked, ?_⟩
  have hsnd : ((transfers log).reverse.take c.index).map Prod.snd =
      ((transfers log).reverse.take c.index).map Prod.fst :=
    List.map_congr_left h.complete
  have hindex : c.index ≤ (publications log).length := by
    rw [← h.replies, List.length_map, List.length_reverse]
    exact h.index
  have hcount : c.index ≤ (taken false log).length := by
    have hle := hprefix.length_le
    rw [List.length_map] at hle
    omega
  calc ((transfers log).reverse.take c.index).map Prod.snd
      = (publications log).take c.index := by rw [hsnd, List.map_take, h.replies]
    _ = ((taken false log).map echo).take c.index := by
      obtain ⟨rest, hrest⟩ := hprefix
      rw [← hrest, List.take_append_of_le_length hindex]
    _ = ((List.range c.index).map requests).map echo := by
      rw [h.records, ← List.map_take, ← List.map_take, List.take_range, Nat.min_eq_left hcount]
    _ = (List.range c.index).map fun k => echo (requests k) := by rw [List.map_map]; rfl

/-- Once the session is open on a quiet bus, a controller that sends its requests one by one, each
after it has read the reply to the one before, reads the echo of every request, however the
responder, the interrupts, the timer and the bus interleave. -/
theorem echo_exchange (requests : ℕ → Bytes) (s : Sys) (turns : List Turn) (i : ℕ) (p : Phase)
    (hreq : ∀ k, (requests k).length ≤ bscMaxTransfer) (hr : s.bsc.readyGpio = true)
    (hf : s.hw.rxFifo = []) (hb : s.hw.rxBusy = false) (ht : ∀ t ∈ turns, t.removes = false) :
    let v := (Served.start false s).run turns
    taken true v.sys.log = [] → attend requests v.sys.log = some (i, p) →
      Echoed requests i v.sys.log := by
  intro v hfault hc
  obtain ⟨owed, hechoes⟩ := Served.run_keep (P := fun v => ∃ owed, Echoes v owed)
    (fun _ t ⟨_, h⟩ => h.step t) ⟨[], .start s⟩ turns
  have hconduct := conduct_of_parts hc (hechoes.turns hfault)
  obtain ⟨calls, hcalls⟩ := (Served.start false s).run_sys ht
  have hsys : v.sys = run (openSession s) calls := hcalls
  rw [hsys] at hconduct
  have hcontract := (Stage.run hreq hr hf hb hconduct).contract (openAsk_run s calls)
  rw [← hsys] at hcontract
  exact hcontract.echoed hechoes.told

/-- One exchange with the responder, and the first byte of the next request. -/
def echoTurns : List Turn :=
  [.check true, .background (.bus (.busy true)), .read false false false 0, .check true,
    .background (.bus (.byte 1)), .background .timer, .background (.bus (.byte 2)),
    .background (.bus (.busy false)), .background (.irq irqAll), .read false false false 1,
    .write true false 2, .write false false 3] ++
  List.replicate 7 (.background (.bus .clock)) ++
  [.background (.bus (.busy true)), .background (.bus (.byte 1))]

theorem echo_exchange_once :
    Echoed (fun _ => [1, 2]) 1 ((Served.start false (bscProbe true)).run echoTurns).sys.log :=
  echo_exchange (fun _ => [1, 2]) (bscProbe true) echoTurns 1 (.sending [2])
    (fun _ => by decide) (by decide +kernel) (by decide +kernel) (by decide +kernel)
    (by decide +kernel) (by decide +kernel) (by decide +kernel)

end BscTarget
