import BscTarget.Driver.Code
import BscTarget.Lib.Fields
import BscTarget.Lib.Histories

/-!
# The receive-only diagnostic

`bsc_rx_minimal.c`: a module that is configured once, drains the RX FIFO from its interrupt and its
timer into an append-only capture, and never answers. The capture is the beginning of what was
drained, and the counters say what it misses (`capture_certified`).
-/

namespace BscTarget

def capacity : ℕ := 32 * 1024 * 1024

def rxOnly : UInt32 := 0x1 ||| 0x4 ||| 0x200
def rxIrqs : UInt32 := 0x1 ||| 0x8

/-- `struct rx_minimal` without its handles into the kernel; its `u64` counts go on. -/
structure RxMinimal where
  bytes : Mem UInt8
  length : ℕ
  received : ℕ
  dropped : ℕ
  overruns : ℕ
  underruns : ℕ
  irqCalls : ℕ
  timerCalls : ℕ
  address : UInt32
  active : Bool

/-- As `devm_kzalloc` returns it, with its address. -/
def RxMinimal.allocated (address : UInt32) : RxMinimal :=
  ⟨fun _ => 0, 0, 0, 0, 0, 0, 0, 0, address, false⟩

/-- The module on the bench: the peripheral, what the bus is going to do before each coming register
access, the bytes the controllers sent, those of them that entered the RX FIFO, those drained, and
the registers written, the newest write first. -/
structure Bench where
  rx : RxMinimal
  hw : Hw
  env : List (List HwEvent)
  sent : Bytes
  arrived : Bytes
  drained : Bytes
  writes : List (Reg × UInt32)

namespace Bench

/-- The bus, as the driver's `Sys` has it. A byte is taken with CR cleared too, where the peripheral
is off: nothing that is proved of the capture rests on that it takes none. -/
def bus (s : Bench) : HwEvent → Bench
  | .busy on => { s with hw.rxBusy := on }
  | .byte b =>
    if s.hw.rxFifo.length < bscFifoSize then
      { s with hw.rxFifo := s.hw.rxFifo ++ [b], sent := s.sent ++ [b], arrived := s.arrived ++ [b] }
    else { s with hw.rsr := s.hw.rsr ||| rsrOe, sent := s.sent ++ [b] }
  | .clock =>
    match s.hw.tx.serializer with
    | some _ => { s with hw.tx := s.hw.tx.shift }
    | none => { s with hw.rsr := s.hw.rsr ||| rsrUe }

def tick (s : Bench) : Bench :=
  match s.env with
  | [] => s
  | batch :: rest => batch.foldl bus { s with env := rest }

def writel (value : UInt32) (reg : Reg) (s : Bench) : Bench :=
  let s := s.tick
  { s with hw := s.hw.write value reg, writes := (reg, value) :: s.writes }

/-- The counters that RSR feeds. -/
def count (errors : UInt32) (s : Bench) : Bench :=
  { s with
    rx.overruns := s.rx.overruns + (if errors &&& rsrOe ≠ 0 then 1 else 0)
    rx.underruns := s.rx.underruns + (if errors &&& rsrUe ≠ 0 then 1 else 0) }

/-- The body of the loop of `drain`. -/
def takeByte (s : Bench) : Bench :=
  let byte := s.hw.rxFifo.headD 0
  let s := { s with hw.rxFifo := s.hw.rxFifo.tail, drained := s.drained ++ [byte] }
  let s :=
    if s.rx.length < capacity then
      { s with
        rx.bytes := Function.update s.rx.bytes s.rx.length byte
        rx.length := s.rx.length + 1 }
    else { s with rx.dropped := s.rx.dropped + 1 }
  { s with rx.received := s.rx.received + 1 }

def drainLoop : ℕ → Bench → Bench
  | 0, s => s
  | fuel + 1, s =>
    let s := s.tick
    if s.hw.fr.rxfe then s else drainLoop fuel (takeByte s.tick)

/-- What can still be drained: the bytes in the RX FIFO and those the bus may yet send. -/
def inbound (s : Bench) : ℕ := s.hw.rxFifo.length + s.env.flatten.length

/-- The first part of `drain`. -/
def readErrors (s : Bench) : Bench :=
  let s := s.tick
  let errors := s.hw.rsr
  if errors ≠ 0 then writel 0 .RSR (s.count errors) else s

def drain (s : Bench) : Bench :=
  let s := readErrors s
  drainLoop (s.inbound + 1) s

/-- An interrupt whose MIS read returned `mis`. -/
def rxIrq (mis : UInt32) (s : Bench) : Bench :=
  let pending := mis &&& rxIrqs
  if pending = 0 ∨ s.rx.active = false then s
  else writel pending .ICR (drain { s with rx.irqCalls := s.rx.irqCalls + 1 })

def rxTimer (s : Bench) : Bench :=
  if s.rx.active = false then s
  else drain { s with rx.timerCalls := s.rx.timerCalls + 1 }

/-- The programming of `minimal_probe` up to the clearing of RSR, with which what is remembered of
the bus begins. -/
def cleared (address : UInt32) (hw : Hw) (env : List (List HwEvent)) : Bench :=
  let s : Bench := ⟨.allocated address, hw, env, [], [], [], []⟩
  let s := writel 0 .IFLS (writel address .SLV (writel 0 .CR s))
  { writel 0 .RSR s with sent := [], arrived := [] }

def minimalProbe (address : UInt32) (hw : Hw) (env : List (List HwEvent)) : Bench :=
  let s := writel rxIrqs .IMSC (writel 0xf .ICR (cleared address hw env))
  writel rxOnly .CR { s with rx.active := true }

/-- `minimal_remove`, which is called once. -/
def minimalRemove (s : Bench) : Bench :=
  if s.rx.active = false then s
  else writel 0 .CR (writel 0 .IMSC { s with rx.active := false })

end Bench

/-! ## Reading the capture -/

/-- An open file: its position, and what was read through it. -/
structure CaptureFile where
  pos : ℕ
  got : Bytes

/-- `capture_read` of at most `count` bytes, all but `uncopied` of which reach the user. -/
def captureRead (count uncopied : ℕ) (rx : RxMinimal) (f : CaptureFile) :
    Except Errno Bytes × CaptureFile :=
  if rx.length ≤ f.pos ∨ count = 0 then (.ok [], f)
  else
    let count := min count (rx.length - f.pos)
    if count ≤ uncopied then (.error .EFAULT, f)
    else
      let data := (List.range (count - uncopied)).map fun i => rx.bytes (f.pos + i)
      (.ok data, ⟨f.pos + (count - uncopied), f.got ++ data⟩)

/-! ## What the capture holds -/

/-- The capture is the beginning of what was drained, the numbers agree, and whatever was lost
before it could be drained shows in the counters or in RSR. -/
structure Captured (first : Bytes) (s : Bench) : Prop where
  order : first ++ s.arrived = s.drained ++ s.hw.rxFifo
  kept : s.rx.bytes.read s.rx.length = s.drained.take capacity
  received : s.rx.received = s.drained.length
  dropped : s.rx.dropped = s.drained.length - capacity
  status : s.hw.rsr = 0 ∨ s.hw.rsr &&& rsrOe ≠ 0 ∨ s.hw.rsr &&& rsrUe ≠ 0
  seen : s.arrived = s.sent ∨ 0 < s.rx.overruns ∨ 0 < s.rx.underruns ∨ s.hw.rsr &&& rsrOe ≠ 0

namespace Bench

/-- The bus changes neither the module nor what was drained and written. -/
theorem bus_same (s : Bench) (e : HwEvent) :
    (s.bus e).rx = s.rx ∧ (s.bus e).drained = s.drained ∧ (s.bus e).writes = s.writes := by
  cases e with
  | busy on => exact ⟨rfl, rfl, rfl⟩
  | byte b =>
    simp only [bus]
    split_ifs <;> exact ⟨rfl, rfl, rfl⟩
  | clock =>
    simp only [bus]
    split <;> exact ⟨rfl, rfl, rfl⟩

theorem buses_same (s : Bench) (events : List HwEvent) :
    (events.foldl bus s).rx = s.rx ∧ (events.foldl bus s).drained = s.drained ∧
      (events.foldl bus s).writes = s.writes := by
  induction events generalizing s with
  | nil => exact ⟨rfl, rfl, rfl⟩
  | cons e events ih =>
    obtain ⟨h₁, h₂, h₃⟩ := bus_same s e
    obtain ⟨ih₁, ih₂, ih₃⟩ := ih (s.bus e)
    exact ⟨ih₁.trans h₁, ih₂.trans h₂, ih₃.trans h₃⟩

theorem tick_same (s : Bench) :
    s.tick.rx = s.rx ∧ s.tick.drained = s.drained ∧ s.tick.writes = s.writes := by
  unfold tick
  split
  · exact ⟨rfl, rfl, rfl⟩
  · next batch rest _ => exact buses_same { s with env := rest } batch

theorem cleared_same (address : UInt32) (hw : Hw) (env : List (List HwEvent)) :
    (cleared address hw env).rx = .allocated address ∧ (cleared address hw env).drained = [] ∧
      (cleared address hw env).writes = [(.RSR, 0), (.IFLS, 0), (.SLV, address), (.CR, 0)] := by
  simp only [cleared, writel, tick_same, and_self]

/-- The bus adds to the RX FIFO only, one byte for an event at most. -/
theorem fifo_buses (s : Bench) (events : List HwEvent) :
    s.hw.rxFifo <+: (events.foldl bus s).hw.rxFifo ∧
      (events.foldl bus s).hw.rxFifo.length ≤ s.hw.rxFifo.length + events.length ∧
      (events.foldl bus s).env = s.env := by
  induction events generalizing s with
  | nil => exact ⟨List.prefix_rfl, Nat.le_refl _, rfl⟩
  | cons e events ih =>
    have hstep : s.hw.rxFifo <+: (s.bus e).hw.rxFifo ∧
        (s.bus e).hw.rxFifo.length ≤ s.hw.rxFifo.length + 1 ∧ (s.bus e).env = s.env := by
      cases e with
      | busy on => exact ⟨List.prefix_rfl, Nat.le_succ _, rfl⟩
      | byte b =>
        simp only [bus]
        split_ifs
        · exact ⟨List.prefix_append _ _, Nat.le_of_eq List.length_append, rfl⟩
        · exact ⟨List.prefix_rfl, Nat.le_succ _, rfl⟩
      | clock =>
        simp only [bus]
        split <;> exact ⟨List.prefix_rfl, Nat.le_succ _, rfl⟩
    obtain ⟨hgrows, hlength, henv⟩ := ih (s.bus e)
    refine ⟨hstep.1.trans hgrows, ?_, henv.trans hstep.2.2⟩
    rw [List.length_cons]
    show ((events.foldl bus (s.bus e)).hw.rxFifo).length ≤ _
    omega

theorem inbound_tick (s : Bench) : s.tick.inbound ≤ s.inbound := by
  unfold tick inbound
  split
  · exact Nat.le_refl _
  · next batch rest henv =>
    obtain ⟨-, hlength, hrest⟩ := fifo_buses { s with env := rest } batch
    rw [hrest, henv, List.flatten_cons, List.length_append]
    dsimp only at hlength ⊢
    omega

theorem fifo_tick_ne {s : Bench} (h : s.hw.rxFifo ≠ []) : s.tick.hw.rxFifo ≠ [] := by
  unfold tick
  split
  · exact h
  · next batch rest _ =>
    exact (fifo_buses { s with env := rest } batch).1.ne_nil h

theorem takeByte_hw (s : Bench) :
    (takeByte s).hw = { s.hw with rxFifo := s.hw.rxFifo.tail } ∧ (takeByte s).env = s.env := by
  unfold takeByte
  dsimp only
  split_ifs <;> exact ⟨rfl, rfl⟩

/-- An induction along the loop, which ends where it finds the RX FIFO empty: the fuel suffices. -/
theorem drain_induction {P : Bench → Bench → Prop}
    (done : ∀ s : Bench, s.tick.hw.rxFifo = [] → P s s.tick)
    (more : ∀ s : Bench, s.tick.hw.rxFifo ≠ [] → ∀ t, P (takeByte s.tick.tick) t → P s t) :
    ∀ {fuel : ℕ} {s : Bench}, s.inbound < fuel → P s (drainLoop fuel s) := by
  intro fuel
  induction fuel with
  | zero => exact fun h => absurd h (Nat.not_lt_zero _)
  | succ fuel ih =>
    intro s h
    rw [drainLoop]
    split_ifs with hempty
    · exact done s (by simpa [Hw.fr] using hempty)
    · have hread : s.tick.hw.rxFifo ≠ [] := by simpa [Hw.fr] using hempty
      have hne : s.tick.tick.hw.rxFifo ≠ [] := fifo_tick_ne hread
      obtain ⟨hhw, henv⟩ := takeByte_hw s.tick.tick
      have htake : (takeByte s.tick.tick).inbound + 1 = s.tick.tick.inbound := by
        have := List.length_pos_iff.mpr hne
        rw [inbound, inbound, hhw, henv, List.length_tail]
        omega
      have := inbound_tick s
      have := inbound_tick s.tick
      exact more s hread _ (ih (by omega))

end Bench

namespace Captured

open Bench

variable {first : Bytes} {s : Bench}

theorem length (h : Captured first s) : s.rx.length = min capacity s.drained.length := by
  have hkept := congrArg List.length h.kept
  rwa [Mem.length_read, List.length_take] at hkept

/-- A step of the bus raises RSR at most. -/
theorem raise (h : Captured first s) (bit : UInt32) {sent : Bytes}
    (hbit : bit &&& rsrOe ≠ 0 ∨ bit &&& rsrUe ≠ 0 ∧ sent = s.sent) :
    Captured first { s with hw.rsr := s.hw.rsr ||| bit, sent := sent } := by
  refine ⟨h.order, h.kept, h.received, h.dropped, ?_, ?_⟩
  · exact .inr (hbit.imp (fun h => Fields.or_and_ne_zero (.inr h))
      fun h => Fields.or_and_ne_zero (.inr h.1))
  · rcases hbit with hbit | ⟨-, rfl⟩
    · exact .inr (.inr (.inr (Fields.or_and_ne_zero (.inr hbit))))
    · exact h.seen.imp_right fun h => h.imp_right fun h => h.imp_right fun h =>
        Fields.or_and_ne_zero (.inl h)

theorem bus (h : Captured first s) (e : HwEvent) : Captured first (s.bus e) := by
  cases e with
  | busy on => exact ⟨h.order, h.kept, h.received, h.dropped, h.status, h.seen⟩
  | byte b =>
    simp only [Bench.bus]
    split_ifs
    · refine ⟨?_, h.kept, h.received, h.dropped, h.status, ?_⟩
      · show first ++ (s.arrived ++ [b]) = s.drained ++ (s.hw.rxFifo ++ [b])
        rw [← List.append_assoc, h.order, List.append_assoc]
      · exact h.seen.imp_left fun hs => congrArg (· ++ [b]) hs
    · exact h.raise rsrOe (.inl (by decide))
  | clock =>
    simp only [Bench.bus]
    split
    · exact ⟨h.order, h.kept, h.received, h.dropped, h.status, h.seen⟩
    · exact h.raise rsrUe (.inr ⟨by decide, rfl⟩)

theorem buses (h : Captured first s) (events : List HwEvent) :
    Captured first (events.foldl Bench.bus s) := by
  induction events generalizing s with
  | nil => exact h
  | cons e events ih => exact ih (h.bus e)

theorem tick (h : Captured first s) : Captured first s.tick := by
  unfold Bench.tick
  split
  · exact h
  · next batch rest _ =>
    have henv : Captured first { s with env := rest } :=
      ⟨h.order, h.kept, h.received, h.dropped, h.status, h.seen⟩
    exact henv.buses batch

/-- A write to any register but RSR. -/
theorem writel (h : Captured first s) (value : UInt32) {reg : Reg} (hr : reg ≠ .RSR) :
    Captured first (writel value reg s) := by
  have ht := h.tick
  have hhw : (s.tick.hw.write value reg).rxFifo = s.tick.hw.rxFifo ∧
      (s.tick.hw.write value reg).rsr = s.tick.hw.rsr := by
    cases reg with
    | RSR => exact absurd rfl hr
    | CR =>
      unfold Hw.write Hw.writeCr
      split_ifs <;> exact ⟨rfl, rfl⟩
    | _ => exact ⟨rfl, rfl⟩
  unfold Bench.writel
  refine ⟨?_, ht.kept, ht.received, ht.dropped, ?_, ?_⟩
  · show first ++ s.tick.arrived = s.tick.drained ++ (s.tick.hw.write value reg).rxFifo
    rw [hhw.1]
    exact ht.order
  · show (s.tick.hw.write value reg).rsr = 0 ∨ _
    rw [hhw.2]
    exact ht.status
  · show _ ∨ _ ∨ _ ∨ (s.tick.hw.write value reg).rsr &&& rsrOe ≠ 0
    rw [hhw.2]
    exact ht.seen

/-- RSR is cleared once something was counted. -/
theorem clear (h : Captured first s) (hc : 0 < s.rx.overruns ∨ 0 < s.rx.underruns) :
    Captured first (Bench.writel 0 .RSR s) := by
  have ht := h.tick
  refine ⟨ht.order, ht.kept, ht.received, ht.dropped, .inl rfl, .inr ?_⟩
  show 0 < s.tick.rx.overruns ∨ 0 < s.tick.rx.underruns ∨ _
  rw [(tick_same s).1]
  exact hc.imp_right .inl

theorem takeByte (h : Captured first s) (hne : s.hw.rxFifo ≠ []) :
    Captured first (takeByte s) := by
  obtain ⟨b, rest, hb⟩ := List.exists_cons_of_ne_nil hne
  have hlen := h.length
  have horder : first ++ s.arrived = (s.drained ++ [s.hw.rxFifo.headD 0]) ++ s.hw.rxFifo.tail := by
    rw [h.order, hb, List.append_assoc]
    rfl
  have hcount : (s.drained ++ [s.hw.rxFifo.headD 0]).length = s.drained.length + 1 := by
    rw [List.length_append]
    rfl
  unfold Bench.takeByte
  dsimp only
  split_ifs with hroom
  · refine ⟨horder, ?_, ?_, ?_, h.status, h.seen⟩
    · show Mem.read (Function.update s.rx.bytes s.rx.length (s.hw.rxFifo.headD 0))
        (s.rx.length + 1) = (s.drained ++ [s.hw.rxFifo.headD 0]).take capacity
      rw [Mem.read_update_succ, h.kept, List.take_of_length_le (by omega),
        List.take_of_length_le (by omega)]
    · show s.rx.received + 1 = _
      rw [hcount, h.received]
    · show s.rx.dropped = _
      rw [hcount, h.dropped]
      omega
  · refine ⟨horder, ?_, ?_, ?_, h.status, h.seen⟩
    · show s.rx.bytes.read s.rx.length = (s.drained ++ [s.hw.rxFifo.headD 0]).take capacity
      rw [List.take_append_of_le_length (by omega)]
      exact h.kept
    · show s.rx.received + 1 = _
      rw [hcount, h.received]
    · show s.rx.dropped + 1 = _
      rw [hcount, h.dropped]
      omega

theorem drainLoop {fuel : ℕ} (hf : s.inbound < fuel) (h : Captured first s) :
    Captured first (Bench.drainLoop fuel s) := by
  refine drain_induction (P := fun s t => Captured first s → Captured first t) ?_ ?_ hf h
  · exact fun s _ h => h.tick
  · exact fun s hne t ih h => ih (h.tick.tick.takeByte (fifo_tick_ne hne))

theorem readErrors (h : Captured first s) : Captured first (readErrors s) := by
  have ht := h.tick
  unfold Bench.readErrors
  dsimp only
  split_ifs with herrors
  · have hcounted : Captured first (s.tick.count s.tick.hw.rsr) :=
      ⟨ht.order, ht.kept, ht.received, ht.dropped, ht.status, ht.seen.imp_right fun h =>
        (h.imp (fun h => Nat.lt_add_right _ h) fun h => h.imp_left fun h => Nat.lt_add_right _ h)⟩
    refine hcounted.clear ((ht.status.resolve_left herrors).imp (fun hoe => ?_) fun hue => ?_)
    · show 0 < s.tick.rx.overruns + _
      rw [if_pos hoe]
      omega
    · show 0 < s.tick.rx.underruns + _
      rw [if_pos hue]
      omega
  · exact ht

theorem drain (h : Captured first s) : Captured first (drain s) :=
  h.readErrors.drainLoop (Nat.lt_succ_self _)

theorem rxIrq (h : Captured first s) (mis : UInt32) : Captured first (rxIrq mis s) := by
  unfold Bench.rxIrq
  dsimp only
  split_ifs
  · exact h
  · have hcalled : Captured first { s with rx.irqCalls := s.rx.irqCalls + 1 } :=
      ⟨h.order, h.kept, h.received, h.dropped, h.status, h.seen⟩
    exact hcalled.drain.writel _ (by decide)

theorem rxTimer (h : Captured first s) : Captured first (rxTimer s) := by
  unfold Bench.rxTimer
  split_ifs
  · exact h
  · have hcalled : Captured first { s with rx.timerCalls := s.rx.timerCalls + 1 } :=
      ⟨h.order, h.kept, h.received, h.dropped, h.status, h.seen⟩
    exact hcalled.drain

theorem minimalRemove (h : Captured first s) : Captured first (minimalRemove s) := by
  unfold Bench.minimalRemove
  split_ifs
  · exact h
  · have hclosed : Captured first { s with rx.active := false } :=
      ⟨h.order, h.kept, h.received, h.dropped, h.status, h.seen⟩
    exact (hclosed.writel 0 (by decide)).writel 0 (by decide)

theorem minimalProbe (address : UInt32) (hw : Hw) (env : List (List HwEvent)) :
    Captured (cleared address hw env).hw.rxFifo (minimalProbe address hw env) := by
  have hcleared : Captured (cleared address hw env).hw.rxFifo (cleared address hw env) := by
    obtain ⟨hrx, hdrained, -⟩ := cleared_same address hw env
    refine ⟨?_, ?_, ?_, ?_, .inl rfl, .inl rfl⟩
    · rw [hdrained]
      exact List.append_nil _
    · rw [hrx, hdrained]
      rfl
    · rw [hrx, hdrained]
      rfl
    · rw [hrx, hdrained]
      rfl
  have hmasked := (hcleared.writel 0xf (by decide : Reg.ICR ≠ .RSR)).writel rxIrqs
    (by decide : Reg.IMSC ≠ .RSR)
  have hactive : Captured (cleared address hw env).hw.rxFifo
      { Bench.writel rxIrqs .IMSC (Bench.writel 0xf .ICR (cleared address hw env)) with
        rx.active := true } :=
    ⟨hmasked.order, hmasked.kept, hmasked.received, hmasked.dropped, hmasked.status, hmasked.seen⟩
  exact hactive.writel rxOnly (by decide)

end Captured

/-! ## Runs -/

/-- What service adds: bytes drained, behind those drained before, and writes that clear RSR or
acknowledge interrupts. -/
structure Serves (s t : Bench) : Prop where
  drained : s.drained <+: t.drained
  writes : Grows (fun w : Reg × UInt32 => w.1 = .RSR ∨ w.1 = .ICR) s.writes t.writes
  active : t.rx.active = s.rx.active

namespace Serves

variable {s t u : Bench}

theorem refl (s : Bench) : Serves s s := ⟨List.prefix_rfl, .refl _, rfl⟩

theorem trans (h : Serves s t) (h' : Serves t u) : Serves s u :=
  ⟨h.drained.trans h'.drained, h.writes.trans h'.writes, h'.active.trans h.active⟩

theorem tick (s : Bench) : Serves s s.tick := by
  obtain ⟨hrx, hdrained, hwrites⟩ := Bench.tick_same s
  exact ⟨by rw [hdrained], by rw [hwrites]; exact .refl _, by rw [hrx]⟩

theorem writel (value : UInt32) {reg : Reg} (hr : reg = .RSR ∨ reg = .ICR) (s : Bench) :
    Serves s (Bench.writel value reg s) := by
  have ht := tick s
  exact ⟨ht.drained, ht.writes.cons hr, ht.active⟩

theorem takeByte (s : Bench) : Serves s (Bench.takeByte s) := by
  unfold Bench.takeByte
  dsimp only
  split_ifs <;> exact ⟨List.prefix_append _ _, .refl _, rfl⟩

theorem drainLoop {fuel : ℕ} (hf : s.inbound < fuel) : Serves s (Bench.drainLoop fuel s) := by
  refine Bench.drain_induction (P := Serves) ?_ ?_ hf
  · exact fun s _ => tick s
  · exact fun s _ t ih => (((tick s).trans (tick s.tick)).trans (takeByte s.tick.tick)).trans ih

theorem drain (s : Bench) : Serves s (Bench.drain s) := by
  have herrors : Serves s (Bench.readErrors s) := by
    have hcount : Serves s (s.tick.count s.tick.hw.rsr) :=
      (tick s).trans ⟨List.prefix_rfl, .refl _, rfl⟩
    unfold Bench.readErrors
    dsimp only
    split_ifs
    · exact hcount.trans (writel 0 (.inl rfl) _)
    · exact tick s
  exact herrors.trans (drainLoop (Nat.lt_succ_self _))

theorem rxIrq (mis : UInt32) (s : Bench) : Serves s (Bench.rxIrq mis s) := by
  unfold Bench.rxIrq
  dsimp only
  split_ifs
  · exact refl s
  · have hdrain := drain { s with rx.irqCalls := s.rx.irqCalls + 1 }
    exact (trans ⟨hdrain.drained, hdrain.writes, hdrain.active⟩ (writel _ (.inr rfl) _))

theorem rxTimer (s : Bench) : Serves s (Bench.rxTimer s) := by
  unfold Bench.rxTimer
  split_ifs
  · exact refl s
  · have hdrain := drain { s with rx.timerCalls := s.rx.timerCalls + 1 }
    exact ⟨hdrain.drained, hdrain.writes, hdrain.active⟩

end Serves

/-- The module while it is loaded, and one file on its device. -/
structure Fixture where
  bench : Bench
  file : CaptureFile

inductive FixtureTurn
  | irq (mis : UInt32)
  | timer
  | bus (e : HwEvent)
  | read (count uncopied : ℕ)
  | remove

namespace Fixture

def start (address : UInt32) (hw : Hw) (env : List (List HwEvent)) : Fixture :=
  ⟨Bench.minimalProbe address hw env, ⟨0, []⟩⟩

def step (v : Fixture) : FixtureTurn → Fixture
  | .irq mis => { v with bench := v.bench.rxIrq mis }
  | .timer => { v with bench := v.bench.rxTimer }
  | .bus e => { v with bench := v.bench.bus e }
  | .read count uncopied => { v with file := (captureRead count uncopied v.bench.rx v.file).2 }
  | .remove => { v with bench := v.bench.minimalRemove }

def run (v : Fixture) (turns : List FixtureTurn) : Fixture := turns.foldl step v

/-- The writes of the programming, the newest first. -/
def programming (address : UInt32) : List (Reg × UInt32) :=
  [(.CR, rxOnly), (.IMSC, rxIrqs), (.ICR, 0xf), (.RSR, 0), (.IFLS, 0), (.SLV, address), (.CR, 0)]

/-- The writes of the removal, once it is removed. -/
def closing (active : Bool) : List (Reg × UInt32) :=
  if active then [] else [(.CR, 0), (.IMSC, 0)]

/-- The capture, what was read of it, and the registers written. -/
structure Sound (address : UInt32) (first : Bytes) (v : Fixture) : Prop where
  captured : Captured first v.bench
  read : v.file.pos ≤ v.bench.rx.length ∧ v.file.got = v.bench.drained.take v.file.pos
  writes : ∃ served, v.bench.writes =
    closing v.bench.rx.active ++ (served ++ programming address) ∧
      ∀ w ∈ served, w.1 = .RSR ∨ w.1 = .ICR

namespace Sound

variable {address : UInt32} {first : Bytes} {v : Fixture} {s : Bench}

/-- Longer captures begin as the shorter ones did. -/
theorem read_mono (h : Sound address first v) (hs : Captured first s)
    (hd : v.bench.drained <+: s.drained) :
    v.file.pos ≤ s.rx.length ∧ v.file.got = s.drained.take v.file.pos := by
  obtain ⟨hpos, hgot⟩ := h.read
  have hlen := hd.length_le
  rw [h.captured.length] at hpos
  refine ⟨?_, ?_⟩
  · rw [hs.length]
    omega
  · obtain ⟨more, hmore⟩ := hd
    rw [hgot, ← hmore, List.take_append_of_le_length (by omega)]

/-- A service that does nothing once the module is removed. -/
theorem serve (h : Sound address first v) (hs : Captured first s) (hserves : Serves v.bench s)
    (hidle : v.bench.rx.active = false → s = v.bench) :
    Sound address first { v with bench := s } := by
  refine ⟨hs, h.read_mono hs hserves.drained, ?_⟩
  cases hactive : v.bench.rx.active with
  | false =>
    rw [hidle hactive]
    exact h.writes
  | true =>
    obtain ⟨served, hwrites, hserved⟩ := h.writes
    obtain ⟨new, hnew, hkind⟩ := hserves.writes
    refine ⟨new ++ served, ?_, fun w hw => ?_⟩
    · show s.writes = closing s.rx.active ++ _
      rw [hserves.active, hactive, hnew, hwrites, hactive, List.append_assoc]
      rfl
    · exact (List.mem_append.mp hw).elim (hkind w) (hserved w)

/-- The cells below the length are what was drained first. -/
theorem cells (h : Captured first s) {n : ℕ} (hn : n ≤ s.rx.length) :
    s.rx.bytes.read n = s.drained.take n := by
  have hlen := h.length
  have hgrows : s.rx.bytes.read n <+: s.drained.take capacity :=
    (Mem.read_prefix _ hn).trans (by rw [h.kept])
  have heq := List.prefix_iff_eq_take.mp hgrows
  rw [Mem.length_read, List.take_take, Nat.min_eq_left (by omega)] at heq
  exact heq

theorem reads (h : Sound address first v) (count uncopied : ℕ) :
    Sound address first (v.step (.read count uncopied)) := by
  have hlater {n : ℕ} (hn : v.file.pos + n ≤ v.bench.rx.length) :
      v.file.got ++ ((List.range n).map fun i => v.bench.rx.bytes (v.file.pos + i)) =
        v.bench.drained.take (v.file.pos + n) := by
    rw [h.read.2, ← cells h.captured h.read.1, ← cells h.captured hn, Mem.read, Mem.read,
      List.range_add, List.map_append, List.map_map]
    rfl
  refine ⟨h.captured, ?_, h.writes⟩
  show (captureRead count uncopied v.bench.rx v.file).2.pos ≤ _ ∧ _
  unfold Fixture.step captureRead
  dsimp only
  split_ifs with hend hfault
  · exact h.read
  · exact h.read
  · have hn : v.file.pos + (min count (v.bench.rx.length - v.file.pos) - uncopied) ≤
        v.bench.rx.length := by omega
    exact ⟨hn, hlater hn⟩

theorem step (h : Sound address first v) (t : FixtureTurn) : Sound address first (v.step t) := by
  cases t with
  | irq mis =>
    refine h.serve (h.captured.rxIrq mis) (.rxIrq mis v.bench) fun ha => ?_
    rw [Bench.rxIrq, if_pos (.inr ha)]
  | timer =>
    refine h.serve h.captured.rxTimer (.rxTimer v.bench) fun ha => ?_
    rw [Bench.rxTimer, if_pos ha]
  | bus e =>
    obtain ⟨hrx, hdrained, hwrites⟩ := v.bench.bus_same e
    have hgrows : v.bench.drained <+: (v.bench.bus e).drained := by rw [hdrained]
    refine ⟨h.captured.bus e, h.read_mono (h.captured.bus e) hgrows, ?_⟩
    show ∃ served, (v.bench.bus e).writes = closing (v.bench.bus e).rx.active ++ _ ∧ _
    rw [hwrites, hrx]
    exact h.writes
  | read count uncopied => exact h.reads count uncopied
  | remove =>
    cases hactive : v.bench.rx.active with
    | false =>
      rw [Fixture.step, Bench.minimalRemove, if_pos hactive]
      exact h
    | true =>
      obtain ⟨served, hwrites, hserved⟩ := h.writes
      have hremoved : v.bench.minimalRemove = Bench.writel 0 .CR (Bench.writel 0 .IMSC
          { v.bench with rx.active := false }) := by
        rw [Bench.minimalRemove, if_neg (by simp [hactive])]
      have hsame : v.bench.minimalRemove.drained = v.bench.drained ∧
          v.bench.minimalRemove.rx.active = false ∧
          v.bench.minimalRemove.writes = (.CR, 0) :: (.IMSC, 0) :: v.bench.writes := by
        simp only [hremoved, Bench.writel, Bench.tick_same, and_self]
      have hgrows : v.bench.drained <+: v.bench.minimalRemove.drained := by rw [hsame.1]
      refine ⟨h.captured.minimalRemove, h.read_mono h.captured.minimalRemove hgrows, served, ?_,
        hserved⟩
      show v.bench.minimalRemove.writes = closing v.bench.minimalRemove.rx.active ++ _
      rw [hsame.2.1, hsame.2.2, hwrites, hactive]
      rfl

theorem start (address : UInt32) (hw : Hw) (env : List (List HwEvent)) :
    Sound address (Bench.cleared address hw env).hw.rxFifo (Fixture.start address hw env) := by
  have hsame : (Bench.minimalProbe address hw env).rx.active = true ∧
      (Bench.minimalProbe address hw env).writes = programming address := by
    obtain ⟨-, -, hwrites⟩ := Bench.cleared_same address hw env
    simp only [Bench.minimalProbe, Bench.writel, Bench.tick_same, hwrites, programming, and_self]
  refine ⟨.minimalProbe address hw env, ⟨Nat.zero_le _, rfl⟩, [], ?_, fun w hw => by cases hw⟩
  show (Bench.minimalProbe address hw env).writes =
    closing (Bench.minimalProbe address hw env).rx.active ++ _
  rw [hsame.1, hsame.2]
  rfl

theorem run (address : UInt32) (hw : Hw) (env : List (List HwEvent)) (turns : List FixtureTurn) :
    Sound address (Bench.cleared address hw env).hw.rxFifo
      ((Fixture.start address hw env).run turns) := by
  have hkeep : ∀ v, Sound address (Bench.cleared address hw env).hw.rxFifo v →
      Sound address (Bench.cleared address hw env).hw.rxFifo (v.run turns) := by
    induction turns with
    | nil => exact fun v h => h
    | cons t turns ih => exact fun v h => ih _ (h.step t)
  exact hkeep _ (start address hw env)

end Sound

/-- What `stats` shows when nothing went wrong and nothing is waiting. -/
structure Clean (s : Bench) : Prop where
  overruns : s.rx.overruns = 0
  underruns : s.rx.underruns = 0
  dropped : s.rx.dropped = 0
  rsr : s.hw.rsr = 0
  empty : s.hw.rxFifo = []

end Fixture

/-- In every run the capture is the beginning of what was drained, which is with the RX FIFO all
that entered it, in order; `read` returns it from its beginning, however it is cut and while it
grows; and from the programming on to the removal nothing is written but RSR and ICR. -/
theorem capture_sound (address : UInt32) (hw : Hw) (env : List (List HwEvent))
    (turns : List FixtureTurn) :
    Fixture.Sound address (Bench.cleared address hw env).hw.rxFifo
      ((Fixture.start address hw env).run turns) :=
  .run address hw env turns

/-- With clean statistics the capture is, byte for byte, what the RX FIFO held at the start and all
that the controllers have sent since. -/
theorem capture_certified (address : UInt32) (hw : Hw) (env : List (List HwEvent))
    (turns : List FixtureTurn) :
    let v := (Fixture.start address hw env).run turns
    Fixture.Clean v.bench → v.bench.rx.bytes.read v.bench.rx.length =
      (Bench.cleared address hw env).hw.rxFifo ++ v.bench.sent := by
  intro v hclean
  have h : Captured (Bench.cleared address hw env).hw.rxFifo v.bench :=
    (Fixture.Sound.run address hw env turns).captured
  have hsent : v.bench.arrived = v.bench.sent := by
    rcases h.seen with hs | hs | hs | hs
    · exact hs
    · rw [hclean.overruns] at hs
      cases hs
    · rw [hclean.underruns] at hs
      cases hs
    · rw [hclean.rsr] at hs
      exact absurd rfl hs
  have horder := h.order
  rw [hclean.empty, List.append_nil, hsent] at horder
  have hfits : v.bench.drained.length ≤ capacity := by
    have hdropped := h.dropped
    rw [hclean.dropped] at hdropped
    omega
  rw [h.kept, List.take_of_length_le hfits, horder]

/-- Two bytes drained, one of them read. -/
def fixtureTurns : List FixtureTurn :=
  [.bus (.byte 7), .timer, .bus (.byte 8), .irq rxIrqs, .read 1 0]

theorem capture_certified_twice :
    let v := (Fixture.start 0x24 .reset []).run fixtureTurns
    v.bench.rx.bytes.read v.bench.rx.length =
      (Bench.cleared 0x24 .reset []).hw.rxFifo ++ v.bench.sent :=
  capture_certified 0x24 .reset [] fixtureTurns
    ⟨by decide +kernel, by decide +kernel, by decide +kernel, by decide +kernel, by decide +kernel⟩

end BscTarget
