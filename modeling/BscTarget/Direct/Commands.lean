import BscTarget.Lib.Segments
import BscTarget.Direct.Target

/-!
# Commands of the direct target

`drain_received` and `receiving` read FR separately. What `receiving` takes for a complete command
is then one as long as no byte enters the RX FIFO between the FR read that found it empty and the
FR read that found the bus idle (`Clean`); a byte that does is left behind for the next command.
-/

namespace BscTarget.Direct

/-! ## What a history says -/

/-- The byte that entered the RX FIFO. -/
def Event.arrival : Event → Option UInt8
  | .arrived b => some b
  | _ => none

/-- The byte read from DR. -/
def Event.drain : Event → Option UInt8
  | .drained b => some b
  | _ => none

/-- BSC_FR_RX_BUSY, where it changed. -/
def Event.busy : Event → Option Bool
  | .rxBusy on => some on
  | _ => none

/-- The bytes that entered the RX FIFO. -/
def arrivals (log : List Event) : Bytes := collected Event.arrival log

/-- The bytes read from DR. -/
def drainedBytes (log : List Event) : Bytes := collected Event.drain log

/-- The bytes read from DR up to the last decision. -/
def decidedBytes : List Event → Bytes
  | [] => []
  | .command _ :: log => drainedBytes log
  | .oversized _ :: log => drainedBytes log
  | _ :: log => decidedBytes log

/-- The bytes read from DR since then. -/
def pending : List Event → Bytes
  | [] => []
  | .command _ :: _ => []
  | .oversized _ :: _ => []
  | .drained b :: log => pending log ++ [b]
  | _ :: log => pending log

/-- The bytes that entered the RX FIFO since the drain loop found it empty. -/
def late : List Event → Bytes
  | [] => []
  | .emptied :: _ => []
  | .arrived b :: log => late log ++ [b]
  | _ :: log => late log

/-- BSC_FR_RX_BUSY, if it was `busy` at the start. -/
def busyFrom (busy : Bool) (log : List Event) : Bool := latest Event.busy busy log

/-- Whether a command was answered since the last byte arrived. -/
def answered : List Event → Bool
  | [] => false
  | .command _ :: _ => true
  | .arrived _ :: _ => false
  | _ :: log => answered log

theorem arrivals_cons (e : Event) (log : List Event) :
    arrivals (e :: log) = arrivals log ++ e.arrival.toList := collected_cons e

theorem drainedBytes_cons (e : Event) (log : List Event) :
    drainedBytes (e :: log) = drainedBytes log ++ e.drain.toList := collected_cons e

theorem drainedBytes_eq (log : List Event) :
    drainedBytes log = decidedBytes log ++ pending log := by
  induction log with
  | nil => rfl
  | cons e log ih => cases e <;> simp_all [drainedBytes_cons, Event.drain, decidedBytes, pending]

/-! ## The controller -/

/-- The controller sends `writes`: BSC_FR_RX_BUSY covers each of them, and a new one starts only
when the target has answered what it took for the one before. -/
structure Sends (busy : Bool) (writes : List Bytes) (log : List Event) : Prop where
  sizes : ∀ w ∈ writes, w ≠ [] ∧ w.length ≤ maxCommand
  bytes : arrivals log <+: writes.flatten
  covered : ∀ pre, pre <:+ log → busyFrom busy pre = false →
    ∃ k, arrivals pre = (writes.take k).flatten
  turns : Throughout (fun e pre => ∀ b k, e = .arrived b →
    arrivals pre = (writes.take (k + 1)).flatten → answered pre = true) log

theorem Sends.of_suffix {busy : Bool} {writes : List Bytes} {log log' : List Event}
    (h : Sends busy writes log') (hl : log <:+ log') : Sends busy writes log where
  sizes := h.sizes
  bytes := (collected_mono hl).trans h.bytes
  covered := fun pre hpre => h.covered pre (hpre.trans hl)
  turns := h.turns.of_suffix hl

/-- Every command is the concatenation of whole writes, and no byte of these is still in the RX
FIFO: what was read from DR ends where they end. -/
def Unsplit (writes : List Bytes) (log : List Event) : Prop :=
  Throughout (fun e pre => ∀ received, e = .command received →
    ∃ i j, i ≤ j ∧ received = ((writes.take j).drop i).flatten ∧
      drainedBytes pre = (writes.take j).flatten) log

/-- Whenever a command is answered, no byte entered the RX FIFO between the FR read that found it
empty and the FR read that found the bus idle. -/
def Clean (log : List Event) : Prop :=
  Throughout (fun e pre => ∀ received, e = .command received → late pre = []) log

/-! ## What the program decides -/

/-- The grounds of a decision about `received`. -/
structure Grounds (busy : Bool) (received : Bytes) (pre : List Event) : Prop where
  idle : busyFrom busy pre = false
  bytes : received = pending pre
  nonempty : received ≠ []
  fifo : arrivals pre = drainedBytes pre ++ late pre

def Decided (busy : Bool) (log : List Event) : Prop :=
  Throughout (fun e pre => ∀ received, (e = .command received → Grounds busy received pre) ∧
    (e = .oversized received → Grounds busy received pre ∧ maxCommand < received.length)) log

/-- The history agrees with the peripheral. -/
structure Kept (busy : Bool) (t : Target) : Prop where
  rxBusy : busyFrom busy t.log = t.hw.rxBusy
  rxFifo : arrivals t.log = drainedBytes t.log ++ t.hw.rxFifo
  decided : Decided busy t.log

/-- The events of the bus, and the loading of a response. -/
def Event.quiet : Event → Prop
  | .drained _ | .emptied | .command _ | .oversized _ => False
  | _ => True

theorem rx_write (h : Hw) (reg : Reg) (value : UInt32) :
    (h.write value reg).rxFifo = h.rxFifo ∧ (h.write value reg).rxBusy = h.rxBusy := by
  cases reg with
  | CR =>
    simp only [Hw.write, Hw.writeCr]
    split_ifs <;> exact ⟨rfl, rfl⟩
  | _ => exact ⟨rfl, rfl⟩

/-- The bus adds one event, and the RX side follows it. -/
theorem Target.bus_cases (t : Target) (e : BusEvent) :
    (∃ on, (t.bus e).log = .rxBusy on :: t.log ∧ (t.bus e).hw.rxBusy = on ∧
      (t.bus e).hw.rxFifo = t.hw.rxFifo) ∨
    (∃ b, (t.bus e).log = .arrived b :: t.log ∧ (t.bus e).hw.rxBusy = t.hw.rxBusy ∧
      (t.bus e).hw.rxFifo = t.hw.rxFifo ++ [b]) ∨
    (∃ e', (e'.quiet ∧ (∀ on, e' ≠ .rxBusy on) ∧ ∀ b, e' ≠ .arrived b) ∧
      (t.bus e).log = e' :: t.log ∧ (t.bus e).hw.rxBusy = t.hw.rxBusy ∧
      (t.bus e).hw.rxFifo = t.hw.rxFifo) := by
  rcases e with on | on | b | _
  · exact .inr (.inr ⟨.txBusy on, ⟨trivial, nofun, nofun⟩, rfl, rfl, rfl⟩)
  · exact .inl ⟨on, rfl, rfl, rfl⟩
  · by_cases h : t.hw.rxFifo.length < bscFifoSize
    · exact .inr (.inl ⟨b, by simp [Target.bus, h], by simp [Target.bus, h],
        by simp [Target.bus, h]⟩)
    · exact .inr (.inr ⟨.lost b, ⟨trivial, nofun, nofun⟩, by simp [Target.bus, h],
        by simp [Target.bus, h], by simp [Target.bus, h]⟩)
  · rcases h : t.hw.tx.serializer with _ | b
    · exact .inr (.inr ⟨.underrun, ⟨trivial, nofun, nofun⟩, by simp [Target.bus, h],
        by simp [Target.bus, h], by simp [Target.bus, h]⟩)
    · exact .inr (.inr ⟨.clocked b, ⟨trivial, nofun, nofun⟩, by simp [Target.bus, h],
        by simp [Target.bus, h], by simp [Target.bus, h]⟩)

theorem Quiet.grows {t u : Target} (h : Quiet t u) : Grows Event.quiet t.log u.log := by
  cases h with
  | bus e =>
    rcases t.bus_cases e with ⟨on, h, -⟩ | ⟨b, h, -⟩ | ⟨e', ⟨hq, -⟩, h, -⟩ <;> rw [h]
    · exact (Grows.refl _).cons trivial
    · exact (Grows.refl _).cons trivial
    · exact (Grows.refl _).cons hq
  | env => exact .refl _
  | reg => exact .refl _
  | load byte => exact (Grows.refl _).cons trivial

theorem Quiet.drainedBytes {t u : Target} (h : Quiet t u) :
    drainedBytes u.log = drainedBytes t.log :=
  h.grows.frame fun e l he => by cases e <;> first | rfl | cases he

theorem Quiet.pending {t u : Target} (h : Quiet t u) : pending u.log = pending t.log :=
  h.grows.frame fun e l he => by cases e <;> first | rfl | cases he

/-- The RX side moves with the history, as far as it is not read. -/
theorem Quiet.rx {t u : Target} (h : Quiet t u) :
    ∃ new, u.hw.rxFifo = t.hw.rxFifo ++ new ∧ arrivals u.log = arrivals t.log ++ new ∧
      late u.log = late t.log ++ new := by
  cases h with
  | bus e =>
    rcases t.bus_cases e with ⟨on, h, -, hf⟩ | ⟨b, h, -, hf⟩ | ⟨e', ⟨hq, -, hb⟩, h, -, hf⟩ <;>
      rw [h, hf]
    · exact ⟨[], by simp [arrivals_cons, Event.arrival, late]⟩
    · exact ⟨[b], rfl, rfl, rfl⟩
    · refine ⟨[], by simp, ?_⟩
      cases e' <;> first | exact absurd rfl (hb _) | exact hq.elim |
        simp [arrivals_cons, Event.arrival, late]
  | env => exact ⟨[], by simp⟩
  | reg reg value => exact ⟨[], by simp [(rx_write t.hw reg value).1]⟩
  | load byte => exact ⟨[], by simp [Target.note, arrivals_cons, Event.arrival, late]⟩

theorem Quiet.rxBusy {busy : Bool} {t u : Target} (h : Quiet t u)
    (ht : busyFrom busy t.log = t.hw.rxBusy) : busyFrom busy u.log = u.hw.rxBusy := by
  cases h with
  | bus e =>
    rcases t.bus_cases e with ⟨on, h, hb, -⟩ | ⟨b, h, hb, -⟩ | ⟨e', ⟨hq, hon, -⟩, h, hb, -⟩ <;>
      rw [h, hb]
    · rfl
    · exact ht
    · cases e' <;> first | exact ht | exact absurd rfl (hon _)
  | env => exact ht
  | reg reg value => exact ht.trans (rx_write t.hw reg value).2.symm
  | load byte => exact ht

namespace Kept

variable {busy : Bool} {t u : Target}

theorem quiet (h : Quiet t u) (hk : Kept busy t) : Kept busy u where
  rxBusy := h.rxBusy hk.rxBusy
  rxFifo := by
    obtain ⟨new, hf, ha, -⟩ := h.rx
    rw [hf, ha, h.drainedBytes, hk.rxFifo, List.append_assoc]
  decided := hk.decided.grows
    (fun e older he received => by constructor <;> (rintro rfl; cases he)) h.grows

theorem steps (h : Steps Quiet t u) (hk : Kept busy t) : Kept busy u := h.keep quiet hk

/-- Any other event that is no decision may be noted too. -/
theorem note (e : Event) (hb : ∀ log, busyFrom busy (e :: log) = busyFrom busy log)
    (ha : ∀ log, arrivals (e :: log) = arrivals log)
    (hd : ∀ log, Direct.drainedBytes (e :: log) = Direct.drainedBytes log)
    (he : ∀ received, (e = .command received → Grounds busy received t.log) ∧
      (e = .oversized received → Grounds busy received t.log ∧ maxCommand < received.length))
    (hk : Kept busy t) : Kept busy (t.note e) where
  rxBusy := (hb _).trans hk.rxBusy
  rxFifo := by rw [Target.note, ha, hd, hk.rxFifo]
  decided := Throughout.cons_iff.mpr ⟨he, hk.decided⟩

end Kept

theorem pending_steps {t u : Target} (h : Steps Quiet t u) : pending u.log = pending t.log :=
  h.frame (f := fun t : Target => pending t.log) Quiet.pending

/-- Only a read of DR takes a byte out of the RX FIFO. -/
theorem rxFifo_steps {t u : Target} (h : Steps Quiet t u) : t.hw.rxFifo <+: u.hw.rxFifo :=
  h.lift (R := fun t u => t.hw.rxFifo <+: u.hw.rxFifo) (fun t => List.prefix_refl _)
    List.IsPrefix.trans fun hs => by
      obtain ⟨new, hf, -⟩ := hs.rx
      exact ⟨new, hf.symm⟩

/-- What arrives after the drain loop is in the RX FIFO. -/
theorem late_steps {t u : Target} (h : Steps Quiet t u) (ht : late t.log = t.hw.rxFifo) :
    late u.log = u.hw.rxFifo :=
  h.keep (P := fun t => late t.log = t.hw.rxFifo) (fun hs ht => by
    obtain ⟨new, hf, -, hl⟩ := hs.rx
    rw [hf, hl, ht]) ht

/-! ## The drain loop -/

/-- Every read of FR that the loop goes on from is paid for by a byte. -/
theorem Target.inbound_bus (t : Target) (e : BusEvent) :
    (t.bus e).hw.rxFifo.length ≤ t.hw.rxFifo.length + 1 := by
  rcases t.bus_cases e with ⟨_, _, _, h⟩ | ⟨_, _, _, h⟩ | ⟨_, _, _, _, h⟩ <;> simp [h]

theorem Target.inbound_tick (t : Target) : t.tick.inbound ≤ t.inbound := by
  have hfold : ∀ (events : List BusEvent) (t : Target),
      (events.foldl bus t).hw.rxFifo.length ≤ t.hw.rxFifo.length + events.length := by
    intro events
    induction events with
    | nil => exact fun _ => le_rfl
    | cons e events ih =>
      intro t
      have h₁ := ih (t.bus e)
      have h₂ := t.inbound_bus e
      rw [List.foldl_cons, List.length_cons]
      omega
  rw [inbound, inbound, env_tick, tick]
  split
  · next h => simp [h]
  · next batch rest h =>
    have := hfold batch { t with env := rest }
    simp only [h, List.tail_cons, List.flatten_cons, List.length_append]
    exact (Nat.add_le_add_right this _).trans (by simp [Nat.add_assoc])

/-- What the drain loop leaves: an empty RX FIFO, and every byte read in `received`. -/
structure Emptied (busy : Bool) (t : Target) (received : Bytes) : Prop where
  kept : Kept busy t
  pending : pending t.log = received
  rxFifo : t.hw.rxFifo = []
  late : late t.log = []

theorem drainLoop_emptied {busy : Bool} : ∀ (fuel : ℕ) (t : Target) (received : Bytes),
    t.inbound < fuel → Kept busy t → pending t.log = received →
    Emptied busy (t.drainLoop fuel received).1 (t.drainLoop fuel received).2 := by
  intro fuel
  induction fuel with
  | zero => exact fun _ _ h => by cases h
  | succ fuel ih =>
    intro t received hfuel hk hp
    have hk₁ := hk.steps t.tick_steps
    have hp₁ := (pending_steps t.tick_steps).trans hp
    rw [Target.drainLoop]
    split
    · next he =>
      have hf : t.tick.hw.rxFifo = [] := by simpa [Hw.fr] using he
      exact ⟨hk₁.note .emptied (fun _ => rfl) (fun _ => rfl) (fun _ => rfl) (by simp), hp₁, hf, rfl⟩
    · next he =>
      have hk₂ := hk₁.steps t.tick.tick_steps
      have hp₂ := (pending_steps t.tick.tick_steps).trans hp₁
      have hne : t.tick.tick.hw.rxFifo ≠ [] := by
        intro hnil
        have hpre := rxFifo_steps t.tick.tick_steps
        rw [hnil, List.prefix_nil] at hpre
        simp [Hw.fr, hpre] at he
      obtain ⟨byte, rest, hf⟩ := List.exists_cons_of_ne_nil hne
      simp only [hf, List.headD_cons, List.tail_cons]
      refine ih _ _ ?_ ?_ ?_
      · have h₁ := t.inbound_tick
        have h₂ := t.tick.inbound_tick
        rw [Target.inbound, hf] at h₂
        simp only [Target.inbound, List.length_cons] at *
        omega
      · refine ⟨hk₂.rxBusy, ?_, ?_⟩
        · have := hk₂.rxFifo
          rw [arrivals_cons, drainedBytes_cons, this, hf]
          simp [Event.arrival, Event.drain]
        · exact Throughout.cons_iff.mpr ⟨by simp, hk₂.decided⟩
      · rw [pending, hp₂]

/-! ## The main loop -/

/-- Between two passes `received` is what was drained since the last decision. -/
structure Kept.Loop (busy : Bool) (l : Direct.Loop) : Prop where
  kept : Kept busy l.target
  pending : pending l.target.log = l.received

theorem examine_kept {busy : Bool} {l : Loop} (h : Kept.Loop busy l) :
    (∃ t received, examine l = (⟨t, received⟩, none) ∧ Kept.Loop busy ⟨t, received⟩) ∨
    ∃ t received, examine l = (⟨t, received⟩, some (acknowledge received)) ∧
      Kept busy t ∧ Direct.pending t.log = [] := by
  have he := drainLoop_emptied (l.target.inbound + 1) l.target l.received (Nat.lt_succ_self _)
    h.kept h.pending
  unfold examine Target.drainReceived
  revert he
  rcases l.target.drainLoop (l.target.inbound + 1) l.received with ⟨t, received⟩
  intro he
  dsimp only at he ⊢
  by_cases hnil : received = []
  · rw [if_pos hnil]
    exact .inl ⟨t, received, rfl, he.kept, he.pending⟩
  · rw [if_neg hnil]
    have hk := he.kept.steps t.tick_steps
    have hp := (pending_steps t.tick_steps).trans he.pending
    have hl := late_steps t.tick_steps (he.late.trans he.rxFifo.symm)
    unfold Target.receiving
    rcases hb : t.tick.hw.fr.rxbusy with _ | _
    · have hgrounds : Grounds busy received t.tick.log :=
        ⟨hk.rxBusy.trans hb, hp.symm, hnil, by rw [hk.rxFifo, hl]⟩
      simp only [hb]
      split_ifs with hlen
      · exact .inl ⟨_, _, rfl, hk.note (.oversized received) (fun _ => rfl) (fun _ => rfl)
          (fun _ => rfl) (fun r => ⟨by simp, by rintro ⟨⟩; exact ⟨hgrounds, hlen⟩⟩), rfl⟩
      · exact .inr ⟨_, _, rfl, hk.note (.command received) (fun _ => rfl) (fun _ => rfl)
          (fun _ => rfl) (fun r => ⟨by rintro ⟨⟩; exact hgrounds, by simp⟩), rfl⟩
    · simp only [hb]
      exact .inl ⟨_, _, rfl, hk, hp⟩

theorem iterate_kept {busy : Bool} {l : Loop} (h : Kept.Loop busy l) :
    Kept busy (iterate l).1.target ∧
      ((iterate l).2 = .returned → Kept.Loop busy (iterate l).1) := by
  unfold iterate
  rcases examine_kept h with ⟨t, received, he, ht⟩ | ⟨t, received, he, ht, hp⟩
  · rw [he]
    exact ⟨ht.kept, fun _ => ht⟩
  · rw [he]
    have hq := t.queueResponse_steps (acknowledge received)
    have hk := ht.steps hq
    have hp' := (pending_steps hq).trans hp
    rcases hres : t.queueResponse (acknowledge received) with ⟨u, outcome⟩
    rw [hres] at hk hp'
    cases outcome with
    | returned =>
      simp only [hres]
      exact ⟨hk, fun _ => ⟨hk, hp'⟩⟩
    | invalidInput =>
      simp only [hres]
      exact ⟨hk, fun h => by cases h⟩
    | stuck =>
      simp only [hres]
      exact ⟨hk, fun h => by cases h⟩

theorem mainLoop_kept {busy : Bool} {l : Loop} (h : Kept.Loop busy l) (n : ℕ) :
    Kept busy (mainLoop n l).1.target ∧
      ((mainLoop n l).2 = .returned → Kept.Loop busy (mainLoop n l).1) := by
  induction n with
  | zero => exact ⟨h.kept, fun _ => h⟩
  | succ n ih =>
    rw [mainLoop]
    rcases hm : mainLoop n l with ⟨m, outcome⟩
    rw [hm] at ih
    cases outcome with
    | returned => exact iterate_kept (ih.2 rfl)
    | invalidInput => exact ⟨ih.1, fun h => by cases h⟩
    | stuck => exact ⟨ih.1, fun h => by cases h⟩

/-- Every decision of a run has its grounds. -/
theorem main_decided {t : Target} (hfifo : t.hw.rxFifo = []) (hlog : t.log = []) (n : ℕ) :
    Decided t.hw.rxBusy (main n t).1.target.log := by
  have ht : Kept t.hw.rxBusy t := ⟨by rw [hlog]; rfl, by rw [hlog, hfifo]; rfl,
    by rw [hlog]; exact .nil⟩
  refine (mainLoop_kept ⟨ht.steps t.configure_steps, ?_⟩ n).1.decided
  rw [pending_steps t.configure_steps, hlog, pending]

/-! ## Commands and writes -/

/-- `i` writes have been answered, and of the next one some bytes or none have arrived. -/
structure Turn (writes : List Bytes) (log : List Event) (i : ℕ) : Prop where
  decided : decidedBytes log = (writes.take i).flatten
  next : arrivals log = (writes.take i).flatten ∨
    answered log = false ∧ (writes.take i).flatten.length < (arrivals log).length ∧
      arrivals log <+: (writes.take (i + 1)).flatten

namespace Turn

variable {busy : Bool} {writes : List Bytes} {log : List Event} {i : ℕ}

theorem arrived {b : UInt8} (hs : Sends busy writes (.arrived b :: log)) (h : Turn writes log i) :
    Turn writes (.arrived b :: log) i := by
  have hb : arrivals log ++ [b] <+: writes.flatten := hs.bytes
  have hturns := (Throughout.cons_iff.mp hs.turns).1
  refine ⟨h.decided, .inr ⟨rfl, ?_⟩⟩
  change _ < (arrivals log ++ [b]).length ∧ arrivals log ++ [b] <+: _
  rcases h.next with heq | ⟨hans, hlt, hpre⟩
  · -- the first byte of the next write
    have hi : i < writes.length := by
      by_contra hi
      have hle := hb.length_le
      rw [heq, List.take_of_length_le (Nat.le_of_not_lt hi), List.length_append,
        List.length_singleton] at hle
      omega
    have hgrow := Segments.length_flatten_take_lt (fun w hw => (hs.sizes w hw).1) hi
    refine ⟨by simp [heq], Segments.prefix_take_succ ?_ ?_ hb⟩
    · rw [heq]
      exact Segments.flatten_take_mono writes (Nat.le_succ i)
    · intro hcon
      rw [← heq, ← hcon] at hgrow
      exact absurd hgrow (lt_irrefl _)
  · refine ⟨hlt.trans (by simp), Segments.prefix_take_succ hpre ?_ hb⟩
    intro hcon
    have := hturns b i rfl hcon
    rw [hans] at this
    cases this

/-- What was drained lies between the writes answered and the end of the one being received. -/
theorem drained {received : Bytes} (h : Turn writes log i) (hg : Grounds busy received log) :
    (writes.take i).flatten.length < (drainedBytes log).length ∧
      drainedBytes log <+: arrivals log ∧ arrivals log <+: (writes.take (i + 1)).flatten := by
  have hd : drainedBytes log = (writes.take i).flatten ++ received := by
    rw [drainedBytes_eq, h.decided, hg.bytes]
  have hlt : (writes.take i).flatten.length < (drainedBytes log).length := by
    rw [hd, List.length_append]
    exact Nat.lt_add_of_pos_right (List.length_pos_iff.mpr hg.nonempty)
  have hpre : drainedBytes log <+: arrivals log := ⟨late log, hg.fifo.symm⟩
  rcases h.next with heq | ⟨-, -, hnext⟩
  · rw [heq] at hpre
    exact absurd hpre.length_le (by omega)
  · exact ⟨hlt, hpre, hnext⟩

/-- Where nothing was late, the command is the write that was being received. -/
theorem command {received : Bytes} (hs : Sends busy writes log) (h : Turn writes log i)
    (hg : Grounds busy received log) (hlate : late log = []) :
    drainedBytes log = (writes.take (i + 1)).flatten ∧
      arrivals log = (writes.take (i + 1)).flatten := by
  obtain ⟨hlt, hpre, hnext⟩ := h.drained hg
  obtain ⟨k, hk⟩ := hs.covered log (List.suffix_refl _) hg.idle
  have hda : arrivals log = drainedBytes log := by rw [hg.fifo, hlate, List.append_nil]
  rw [hda] at hk hnext ⊢
  exact ⟨Segments.eq_take_succ hlt hnext hk, Segments.eq_take_succ hlt hnext hk⟩

/-- One write is never too long. -/
theorem not_oversized {received : Bytes} (hs : Sends busy writes log) (h : Turn writes log i)
    (hg : Grounds busy received log) : received.length ≤ maxCommand := by
  obtain ⟨hlt, hpre, hnext⟩ := h.drained hg
  have hd : drainedBytes log = (writes.take i).flatten ++ received := by
    rw [drainedBytes_eq, h.decided, hg.bytes]
  have hle := (hpre.trans hnext).length_le
  have hi : i < writes.length := by
    by_contra hi
    have hall := (hpre.trans hs.bytes).length_le
    rw [List.take_of_length_le (Nat.le_of_not_lt hi)] at hlt
    omega
  rw [List.take_succ_eq_append_getElem hi, hd] at hle
  have hw := (hs.sizes _ (List.getElem_mem hi)).2
  simp only [List.flatten_append, List.length_append, List.flatten_cons, List.flatten_nil,
    List.append_nil] at hle
  omega

/-- As long as nothing was late, the writes are answered one by one. -/
theorem of_clean : ∀ {log : List Event}, Sends busy writes log → Decided busy log → Clean log →
    ∃ i, Turn writes log i := by
  intro log
  induction log with
  | nil => exact fun _ _ _ => ⟨0, rfl, .inl rfl⟩
  | cons e log ih =>
    intro hs hd hc
    obtain ⟨hde, hd⟩ := Throughout.cons_iff.mp hd
    obtain ⟨hce, hc⟩ := Throughout.cons_iff.mp hc
    have hs' := hs.of_suffix (List.suffix_cons e log)
    obtain ⟨i, h⟩ := ih hs' hd hc
    cases e with
    | arrived b => exact ⟨i, h.arrived hs⟩
    | command received =>
      obtain ⟨hdrained, harrived⟩ := h.command hs' ((hde received).1 rfl) (hce received rfl)
      exact ⟨i + 1, hdrained, .inl harrived⟩
    | oversized received =>
      obtain ⟨hg, hlen⟩ := (hde received).2 rfl
      exact absurd (h.not_oversized hs' hg) (Nat.not_le_of_lt hlen)
    | _ => exact ⟨i, h.decided, h.next⟩

end Turn

/-- Commands are whole writes exactly when nothing is late. -/
theorem unsplit_iff_clean {busy : Bool} {writes : List Bytes} : ∀ {log : List Event},
    Sends busy writes log → Decided busy log → (Unsplit writes log ↔ Clean log) := by
  intro log
  induction log with
  | nil => exact fun _ _ => ⟨fun _ => .nil, fun _ => .nil⟩
  | cons e log ih =>
    intro hs hd
    have hs' := hs.of_suffix (List.suffix_cons e log)
    obtain ⟨hde, hd⟩ := Throughout.cons_iff.mp hd
    constructor
    · intro hu
      obtain ⟨hue, hu⟩ := Throughout.cons_iff.mp hu
      have hc := (ih hs' hd).mp hu
      obtain ⟨i, h⟩ := Turn.of_clean hs' hd hc
      refine Throughout.cons_iff.mpr ⟨?_, hc⟩
      rintro received rfl
      have hg := (hde received).1 rfl
      obtain ⟨-, j, -, -, hj⟩ := hue received rfl
      obtain ⟨hlt, hpre, hnext⟩ := h.drained hg
      have hall := Segments.eq_take_succ hlt (hpre.trans hnext) hj
      have hle := hnext.length_le
      rw [← hall, hg.fifo, List.length_append] at hle
      exact List.length_eq_zero_iff.mp (by omega)
    · intro hc
      obtain ⟨hce, hc'⟩ := Throughout.cons_iff.mp hc
      obtain ⟨i, h⟩ := Turn.of_clean hs' hd hc'
      refine Throughout.cons_iff.mpr ⟨?_, (ih hs' hd).mpr hc'⟩
      rintro received rfl
      have hg := (hde received).1 rfl
      obtain ⟨hdrained, -⟩ := h.command hs' hg (hce received rfl)
      refine ⟨i, i + 1, Nat.le_succ i, ?_, hdrained⟩
      have hsplit : writes.take (i + 1) = writes.take i ++ (writes.take (i + 1)).drop i := by
        have := (List.take_append_drop i (writes.take (i + 1))).symm
        rwa [List.take_take, Nat.min_eq_left (Nat.le_succ i)] at this
      rw [drainedBytes_eq, h.decided, ← hg.bytes, hsplit, List.flatten_append] at hdrained
      exact List.append_cancel_left hdrained

/-- In every run from an empty RX FIFO, commands are whole writes exactly when nothing enters the
FIFO between the two observations. -/
theorem commands_unsplit (t : Target) (n : ℕ) (writes : List Bytes) (hfifo : t.hw.rxFifo = [])
    (hlog : t.log = []) (hs : Sends t.hw.rxBusy writes (main n t).1.target.log) :
    Unsplit writes (main n t).1.target.log ↔ Clean (main n t).1.target.log :=
  unsplit_iff_clean hs (main_decided hfifo hlog n)

/-! ### Runs -/

/-- Whether the newest event is an arrival. -/
def arriving : List Event → Bool
  | .arrived _ :: _ => true
  | _ => false

/-- What has to be looked at in a given history. -/
theorem Sends.of_tails {busy : Bool} {writes : List Bytes} {log : List Event}
    (hsizes : ∀ w ∈ writes, w ≠ [] ∧ w.length ≤ maxCommand)
    (hbytes : arrivals log <+: writes.flatten)
    (hcovered : ∀ pre ∈ log.tails, busyFrom busy pre = false →
      ∃ k ∈ List.range (writes.length + 1), arrivals pre = (writes.take k).flatten)
    (hturns : ∀ pre ∈ log.tails, ∀ k ∈ List.range (writes.length + 1), arriving pre = true →
      arrivals pre.tail = (writes.take (k + 1)).flatten → answered pre.tail = true) :
    Sends busy writes log where
  sizes := hsizes
  bytes := hbytes
  covered := fun pre hpre hb => by
    obtain ⟨k, -, hk⟩ := hcovered pre (List.mem_tails _ _ |>.mpr hpre) hb
    exact ⟨k, hk⟩
  turns := by
    rintro e pre hpre b k rfl ha
    have hmem := (List.mem_tails _ _).mpr hpre
    by_cases hk : k < writes.length + 1
    · exact hturns _ hmem k (List.mem_range.mpr hk) rfl ha
    · refine hturns _ hmem writes.length (List.mem_range.mpr (Nat.lt_succ_self _)) rfl ?_
      rw [List.tail_cons, ha, List.take_of_length_le (by omega), List.take_of_length_le (by omega)]

/-- The target before `configure`, with the bus at rest until the main loop has begun. -/
def fresh (env : List (List BusEvent)) : Target where
  address := 0x13
  hw := .reset
  txBusy := false
  env := List.replicate 8 [] ++ env
  log := []

/-- A byte and the end of its write fall between the two observations. -/
def split : Target :=
  fresh [[.hw (.busy true), .hw (.byte 0x61)], [], [], [.hw (.byte 0x62), .hw (.busy false)]]

/-- The command answered is the first byte of a write whose second byte is in the RX FIFO. -/
theorem not_commands_unsplit :
    split.hw.rxFifo = [] ∧ split.log = [] ∧
      Sends split.hw.rxBusy [[0x61, 0x62]] (main 1 split).1.target.log ∧
      (main 1 split).1.target.hw.rxFifo = [0x62] ∧
      ¬ Unsplit [[0x61, 0x62]] (main 1 split).1.target.log := by
  have hlog : (main 1 split).1.target.log =
      [.loaded 0x61, .loaded 0x20, .loaded 0x3a, .loaded 0x4b, .loaded 0x43, .loaded 0x41,
        .loaded 6, .command [0x61], .rxBusy false, .arrived 0x62, .emptied, .drained 0x61,
        .arrived 0x61, .rxBusy true] := by
    decide +kernel
  refine ⟨rfl, rfl, ?_, by decide +kernel, ?_⟩
  · rw [hlog]
    exact .of_tails (by decide) (by decide) (by decide +kernel) (by decide +kernel)
  · intro h
    rw [hlog] at h
    obtain ⟨i, j, -, -, hj⟩ := h (.command [0x61]) [.rxBusy false, .arrived 0x62, .emptied,
      .drained 0x61, .arrived 0x61, .rxBusy true] ⟨[.loaded 0x61, .loaded 0x20, .loaded 0x3a,
      .loaded 0x4b, .loaded 0x43, .loaded 0x41, .loaded 6], rfl⟩ [0x61] rfl
    rcases j with _ | j
    · simp [drainedBytes, collected, Event.drain] at hj
    · simp [drainedBytes, collected, Event.drain] at hj

/-- Two writes, the second one after the reply to the first was read, each found whole. -/
def whole : Target :=
  fresh ([[.hw (.busy true), .hw (.byte 0x61)], [], [.hw (.byte 0x62), .hw (.busy false)]] ++
    List.replicate 27 [] ++
    [List.replicate 8 (.hw .clock), [.hw (.busy true), .hw (.byte 0x63), .hw (.busy false)]])

theorem commands_unsplit_whole :
    Unsplit [[0x61, 0x62], [0x63]] (main 6 whole).1.target.log ↔
      Clean (main 6 whole).1.target.log := by
  have hlog : (main 6 whole).1.target.log =
      [.loaded 0x63, .loaded 0x20, .loaded 0x3a, .loaded 0x4b, .loaded 0x43, .loaded 0x41,
        .loaded 6, .command [0x63], .emptied, .drained 0x63, .rxBusy false, .arrived 0x63,
        .rxBusy true, .emptied, .clocked 0x62, .clocked 0x61, .clocked 0x20, .clocked 0x3a,
        .clocked 0x4b, .clocked 0x43, .clocked 0x41, .clocked 7, .emptied, .emptied, .emptied,
        .loaded 0x62, .loaded 0x61, .loaded 0x20, .loaded 0x3a, .loaded 0x4b, .loaded 0x43,
        .loaded 0x41, .loaded 7, .command [0x61, 0x62], .emptied, .drained 0x62, .rxBusy false,
        .arrived 0x62, .drained 0x61, .arrived 0x61, .rxBusy true] := by
    decide +kernel
  refine commands_unsplit whole 6 _ rfl rfl ?_
  rw [hlog]
  exact .of_tails (by decide) (by decide) (by decide +kernel) (by decide +kernel)

end BscTarget.Direct
