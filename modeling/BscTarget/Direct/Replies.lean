import BscTarget.Direct.Target

/-!
# Replies of the direct target

`queue_response` restarts the peripheral before it loads a reply. An enable transition discards
the serializer byte and moves one FIFO byte into it, so one restart purges what is left of earlier
replies only if that is at most the serializer byte (`Purged`).
-/

namespace BscTarget.Direct

/-- The bytes the controller clocked, oldest first. -/
def clockedBytes : List Event → Bytes
  | [] => []
  | .clocked b :: log => clockedBytes log ++ [b]
  | _ :: log => clockedBytes log

theorem clockedBytes_mono {log log' : List Event} (h : log <:+ log') :
    clockedBytes log <+: clockedBytes log' :=
  (Grows.of_suffix h).keep (P := fun l => clockedBytes log <+: clockedBytes l)
    (fun e l _ hl => hl.trans (by
      cases e with
      | clocked b => exact List.prefix_append _ _
      | _ => exact List.prefix_refl _))
    (List.prefix_refl _)

/-- How often the controller clocks. -/
def clocks (events : List BusEvent) : ℕ := events.count (.hw .clock)

namespace Target

/-- From `t` to `u` the controller clocks `n` times, and nothing else moves the transmit side. -/
structure Clocked (n : ℕ) (t u : Target) : Prop where
  bytes : clockedBytes u.log = clockedBytes t.log ++ t.hw.tx.held.take n
  held : u.hw.tx.held = t.hw.tx.held.drop n

namespace Clocked

variable {n m : ℕ} {t u v : Target}

theorem refl (t : Target) : Clocked 0 t t := ⟨by simp, by simp⟩

theorem trans (h : Clocked n t u) (h' : Clocked m u v) : Clocked (n + m) t v where
  bytes := by rw [h'.bytes, h.bytes, h.held, List.append_assoc, ← List.take_add]
  held := by rw [h'.held, h.held, List.drop_drop]

theorem length_held_le (h : Clocked n t u) : u.hw.tx.held.length ≤ t.hw.tx.held.length := by
  rw [h.held, List.length_drop]
  exact Nat.sub_le _ _

/-- Clocked or not, no byte is lost and none is added. -/
theorem stream (h : Clocked n t u) :
    clockedBytes u.log ++ u.hw.tx.held = clockedBytes t.log ++ t.hw.tx.held := by
  rw [h.bytes, h.held, List.append_assoc, List.take_append_drop]

end Clocked

theorem clocked_bus (t : Target) (e : BusEvent) : Clocked (clocks [e]) t (t.bus e) := by
  rcases e with on | on | b | _
  · exact ⟨by simp [bus, clocks, clockedBytes], by simp [bus, clocks]⟩
  · exact ⟨by simp [bus, clocks, clockedBytes], by simp [bus, clocks]⟩
  · by_cases h : t.hw.rxFifo.length < bscFifoSize
    · exact ⟨by simp [bus, h, clocks, clockedBytes], by simp [bus, h, clocks]⟩
    · exact ⟨by simp [bus, h, clocks, clockedBytes], by simp [bus, h, clocks]⟩
  · rcases h : t.hw.tx.serializer with _ | b
    · have hnil := TxSide.held_eq_nil.mpr h
      exact ⟨by simp [bus, h, hnil, clockedBytes], by simp [bus, h, hnil]⟩
    · have hcons := TxSide.held_of_serializer h
      exact ⟨by simp [bus, h, hcons, clocks, clockedBytes], by simp [bus, h, hcons, clocks]⟩

theorem clocked_foldl (events : List BusEvent) (t : Target) :
    Clocked (clocks events) t (events.foldl bus t) := by
  induction events generalizing t with
  | nil => exact .refl t
  | cons e events ih =>
    have h := (t.clocked_bus e).trans (ih (t.bus e))
    rwa [clocks, clocks, ← List.count_append] at h

theorem clocked_tick (t : Target) : Clocked (clocks (t.env.headD [])) t t.tick := by
  unfold tick
  rcases h : t.env with _ | ⟨batch, rest⟩
  · exact .refl t
  · have h' := clocked_foldl batch { t with env := rest }
    exact ⟨h'.bytes, h'.held⟩

/-- The next bus events, one register access after the other. -/
theorem clocks_take (env : List (List BusEvent)) (k : ℕ) :
    clocks (env.take (k + 1)).flatten =
      clocks (env.headD []) + clocks (env.tail.take k).flatten := by
  cases env with
  | nil => simp [clocks]
  | cons batch rest => simp [clocks]

/-! ## The restart -/

theorem cr_bus (t : Target) (e : BusEvent) : (t.bus e).hw.cr = t.hw.cr := by
  unfold bus
  split
  · rfl
  · rfl
  · split_ifs <;> rfl
  · split <;> rfl

theorem cr_tick (t : Target) : t.tick.hw.cr = t.hw.cr := by
  have hfold : ∀ (events : List BusEvent) (t : Target),
      (events.foldl bus t).hw.cr = t.hw.cr := by
    intro events
    induction events with
    | nil => exact fun _ => rfl
    | cons e events ih => exact fun t => (ih _).trans (t.cr_bus e)
  unfold tick
  split
  · rfl
  · exact hfold _ _

theorem env_write (t : Target) (reg : Reg) (value : UInt32) :
    (t.write reg value).env = t.env.tail :=
  t.env_tick

/-- Only DR and an enable transition of CR reach the transmit side. -/
theorem clocked_write (t : Target) (reg : Reg) (value : UInt32)
    (h : reg = .CR ∧ value = 0 ∨ reg = .RSR ∨ reg = .SLV) :
    Clocked (clocks (t.env.headD [])) t (t.write reg value) := by
  have ht := t.clocked_tick
  have htx : (t.write reg value).hw.tx = t.tick.hw.tx := by
    rcases h with ⟨rfl, rfl⟩ | rfl | rfl
    · simp [write, Hw.write, Hw.writeCr]
    · rfl
    · rfl
  exact ⟨ht.bytes, by rw [htx, ht.held]⟩

/-- `restart` up to its last register write. -/
def disabled (t : Target) : Target := (((t.write .CR 0).write .RSR 0).write .SLV t.address).tick

theorem clocked_disabled (t : Target) :
    Clocked (clocks (t.env.take 4).flatten) t t.disabled := by
  have h₁ := t.clocked_write .CR 0 (.inl ⟨rfl, rfl⟩)
  have h₂ := (t.write .CR 0).clocked_write .RSR 0 (.inr (.inl rfl))
  have h₃ := ((t.write .CR 0).write .RSR 0).clocked_write .SLV t.address (.inr (.inr rfl))
  have h := ((h₁.trans h₂).trans h₃).trans (clocked_tick _)
  simp only [env_write] at h
  have hsum : clocks (t.env.take 4).flatten = clocks (t.env.headD []) +
      clocks (t.env.tail.headD []) + clocks (t.env.tail.tail.headD []) +
      clocks (t.env.tail.tail.tail.headD []) := by
    simp only [clocks_take, Nat.add_assoc]
    simp [clocks]
  rw [hsum]
  exact h

theorem cr_disabled (t : Target) : t.disabled.hw.cr = 0 := by
  have h : (t.write .CR 0).hw.cr = 0 := by simp [write, Hw.write, Hw.writeCr]
  have hkeep : ∀ (t : Target) (reg : Reg) (value : UInt32), reg = .RSR ∨ reg = .SLV →
      (t.write reg value).hw.cr = t.hw.cr := by
    rintro t reg value (rfl | rfl) <;> exact t.cr_tick
  rw [disabled, cr_tick, hkeep _ _ _ (.inr rfl), hkeep _ _ _ (.inl rfl), h]

/-- The enable transition discards the serializer byte. -/
theorem restart_eq (t : Target) :
    t.restart = { t.disabled with
      hw := { t.disabled.hw with cr := bscControl, tx := t.disabled.hw.tx.shift } } := by
  have h : t.restart = { t.disabled with hw := t.disabled.hw.writeCr bscControl } := rfl
  rw [h, Hw.writeCr, if_pos]
  exact ⟨by rw [cr_disabled]; rfl, by decide⟩

theorem clockedBytes_restart (t : Target) : clockedBytes t.restart.log =
    clockedBytes t.log ++ t.hw.tx.held.take (clocks (t.env.take 4).flatten) := by
  rw [restart_eq, ← t.clocked_disabled.bytes]

theorem held_restart (t : Target) :
    t.restart.hw.tx.held = (t.hw.tx.held.drop (clocks (t.env.take 4).flatten)).tail := by
  rw [restart_eq, ← t.clocked_disabled.held]
  exact TxSide.held_shift _

/-! ## Loading -/

theorem waitWhile_clocked (blocked : Target → Bool) (t : Target) :
    ∃ n, Clocked n t (t.waitWhile blocked).1 := by
  refine waitWhile_induction (P := fun t r => ∃ n, Clocked n t r.1) ?_ ?_ ?_ t
  · exact fun t _ => ⟨_, t.clocked_tick⟩
  · exact fun t _ _ => ⟨0, .refl t⟩
  · rintro t r - ⟨n, h⟩
    exact ⟨_, t.clocked_tick.trans h⟩

theorem waitWhile_left {blocked : Target → Bool} {t u : Target}
    (h : t.waitWhile blocked = (u, true)) : blocked u = false := by
  have hleft := waitWhile_induction
    (P := fun _ r => r.2 = true → blocked r.1 = false) (fun _ hb _ => hb)
    (fun _ _ _ h => (by cases h)) (fun _ _ _ h => h) t
  rw [h] at hleft
  exact hleft rfl

/-- A wait for what is the case at its first read is over at once. -/
theorem waitWhile_first {blocked : Target → Bool} {t : Target} (h : blocked t.tick = false) :
    t.waitWhile blocked = (t.tick, true) := by
  rw [waitWhile, waitLoop, if_neg (by simp [h])]

theorem length_fifo_eq (tx : TxSide) : tx.fifo.length = tx.held.length - 1 := by
  rcases h : tx.serializer with _ | b
  · rw [tx.fed h, TxSide.held_eq_nil.mpr h]
    rfl
  · rw [TxSide.length_held_some h, Nat.add_sub_cancel]

theorem txFull_eq_false {t : Target} : txFull t = false ↔ t.hw.tx.fifo.length < bscFifoSize := by
  have hle := t.hw.tx.fifo_le
  simp only [txFull, Hw.fr, beq_eq_false_iff_ne, ne_eq]
  omega

/-- A byte written after FR showed room is held behind the others, whatever the controller clocks
between the two accesses. -/
theorem load_tx {t : Target} (h : txFull t = false) (byte : UInt8) :
    let u := (t.write .DR byte.toUInt32).note (.loaded byte)
    clockedBytes u.log = clockedBytes t.tick.log ∧ u.hw.tx.held = t.tick.hw.tx.held ++ [byte] := by
  refine ⟨rfl, ?_⟩
  have hroom : t.tick.hw.tx.fifo.length < bscFifoSize := by
    have hlt := txFull_eq_false.mp h
    have hle := t.clocked_tick.length_held_le
    rw [length_fifo_eq] at hlt ⊢
    omega
  have hbyte : byte.toUInt32.toUInt8 = byte := by simp
  simp only [note, write, Hw.write, hbyte]
  exact TxSide.held_push hroom byte

/-- A call that returns has loaded every byte behind those that were held. -/
theorem loadAll_stream : ∀ {bytes : Bytes} {t u : Target}, t.loadAll bytes = (u, .returned) →
    clockedBytes u.log ++ u.hw.tx.held = clockedBytes t.log ++ t.hw.tx.held ++ bytes := by
  intro bytes
  induction bytes with
  | nil =>
    intro t u h
    cases h
    rw [List.append_nil]
  | cons byte rest ih =>
    intro t u h
    rw [loadAll] at h
    rcases hw : t.waitWhile txFull with ⟨v, _ | _⟩
    · simp only [hw] at h
      cases h
    · simp only [hw] at h
      obtain ⟨n, hv⟩ := waitWhile_clocked txFull t
      rw [hw] at hv
      obtain ⟨hbytes, hheld⟩ := load_tx (waitWhile_left hw) byte
      rw [ih h, hbytes, hheld, ← List.append_assoc, v.clocked_tick.stream, hv.stream]
      simp

/-- What fits beside the bytes held is loaded without a wait. -/
theorem loadAll_returned : ∀ {bytes : Bytes} {t : Target},
    t.hw.tx.held.length + bytes.length ≤ bscFifoSize → (t.loadAll bytes).2 = .returned := by
  intro bytes
  induction bytes with
  | nil => exact fun _ => rfl
  | cons byte rest ih =>
    intro t h
    rw [List.length_cons] at h
    have hle := t.clocked_tick.length_held_le
    have hroom : txFull t.tick = false := by
      rw [txFull_eq_false, length_fifo_eq]
      omega
    have hheld := (load_tx hroom byte).2
    rw [loadAll, waitWhile_first hroom]
    refine ih ?_
    rw [hheld, List.length_append, List.length_singleton]
    have := t.tick.clocked_tick.length_held_le
    omega

end Target

/-! ## One outstanding response -/

/-- `queue_response` returns, and from its entry on the controller clocks the length of the
response and the response, whatever the bus does. -/
def Outstanding (response : Bytes) (t : Target) : Prop :=
  (t.queueResponse response).2 = .returned ∧
    ∀ events : List BusEvent, ∃ sent,
      let u := events.foldl Target.bus (t.queueResponse response).1
      clockedBytes u.log = clockedBytes t.log ++ sent ∧
        sent ++ u.hw.tx.held = Target.framed response

/-- At the entry the FIFO is empty, and the controller leaves the serializer byte, if there is one,
until the peripheral has been enabled again. -/
def Purged (t : Target) : Prop :=
  t.hw.tx.fifo = [] ∧
    (t.hw.tx.serializer = none ∨ ∀ batch ∈ t.env.take 5, .hw .clock ∉ batch)

theorem purged_iff (t : Target) :
    Purged t ↔ t.hw.tx.held.take (clocks (t.env.take 5).flatten) = [] ∧
      (t.hw.tx.held.drop (clocks (t.env.take 5).flatten)).tail = [] := by
  have hclocks : clocks (t.env.take 5).flatten = 0 ↔
      ∀ batch ∈ t.env.take 5, .hw .clock ∉ batch := by
    simp [clocks, List.count_eq_zero]
  rw [Purged, ← hclocks]
  rcases hs : t.hw.tx.serializer with _ | b
  · simp [TxSide.held_eq_nil.mpr hs, t.hw.tx.fed hs]
  · have hheld : t.hw.tx.held = b :: t.hw.tx.fifo := by simp [TxSide.held, hs]
    rw [hheld]
    rcases clocks (t.env.take 5).flatten with _ | n
    · simp
    · simp

theorem outstanding_iff {response : Bytes} {t : Target} (h₀ : response.length ≠ 0)
    (h₁ : response.length ≤ maxResponse) (hidle : t.tick.busy = false) :
    Outstanding response t ↔ Purged t := by
  have hq : t.queueResponse response = t.tick.restart.loadAll (Target.framed response) := by
    rw [Target.queueResponse, if_neg (by omega), Target.waitWhile_first hidle]
  have hfive := Target.clocks_take t.env 4
  have hbytes : clockedBytes t.tick.restart.log = clockedBytes t.log ++
      t.hw.tx.held.take (clocks (t.env.take 5).flatten) := by
    rw [Target.clockedBytes_restart, t.clocked_tick.bytes, t.clocked_tick.held, Target.env_tick,
      List.append_assoc, ← List.take_add, ← hfive]
  have hheld : t.tick.restart.hw.tx.held =
      (t.hw.tx.held.drop (clocks (t.env.take 5).flatten)).tail := by
    rw [Target.held_restart, t.clocked_tick.held, Target.env_tick, List.drop_drop, ← hfive]
  rw [purged_iff]
  constructor
  · rintro ⟨hret, hnext⟩
    obtain ⟨sent, hsent, hrest⟩ := hnext []
    have hstream := Target.loadAll_stream (Prod.ext rfl (hq ▸ hret))
    rw [← hq] at hstream
    simp only [List.foldl_nil] at hsent hrest
    -- whatever is clocked or held before the reply is loaded stands before it
    rw [hsent, List.append_assoc, hrest, hbytes, hheld, List.append_assoc, List.append_assoc,
      List.append_cancel_left_eq, ← List.append_assoc, List.self_eq_append_left] at hstream
    exact List.append_eq_nil_iff.mp hstream
  · rintro ⟨hnone, hempty⟩
    rw [hnone, List.append_nil] at hbytes
    rw [hempty] at hheld
    have hret : (t.queueResponse response).2 = .returned := by
      rw [hq]
      refine Target.loadAll_returned ?_
      rw [hheld, Target.framed, List.length_cons, List.length_nil]
      unfold maxResponse at h₁
      unfold bscFifoSize
      omega
    refine ⟨hret, fun events => ?_⟩
    have hstream := Target.loadAll_stream (Prod.ext rfl (hq ▸ hret))
    rw [← hq, hbytes, hheld, List.append_nil] at hstream
    have hlater := Target.clocked_foldl events (t.queueResponse response).1
    obtain ⟨sent, hsent⟩ := clockedBytes_mono (suffix_steps
      ((t.queueResponse_steps response).trans (Target.foldl_bus_steps events _)))
    refine ⟨sent, hsent.symm, ?_⟩
    have hall := hlater.stream.trans hstream
    rw [← hsent, List.append_assoc] at hall
    exact List.append_cancel_left hall

/-! ## Every reply of a run -/

/-- The pass after the first `n` calls `queue_response`, in the state `u`. -/
def Entered (t : Target) (n : ℕ) (response : Bytes) (u : Target) : Prop :=
  (main n t).2 = .returned ∧ (examine (main n t).1).2 = some response ∧
    (examine (main n t).1).1.target = u

theorem length_acknowledge (received : Bytes) :
    (acknowledge received).length ≠ 0 ∧ (acknowledge received).length ≤ maxResponse := by
  simp only [acknowledge, maxResponse, List.length_append, List.length_take, List.length_cons,
    List.length_nil]
  omega

/-- The main loop answers with acknowledgements only. -/
theorem examine_response {l : Loop} {response : Bytes} (h : (examine l).2 = some response) :
    ∃ received, response = acknowledge received := by
  unfold examine at h
  revert h
  rcases l.target.drainReceived l.received with ⟨t, received⟩
  dsimp only
  by_cases hnil : received = []
  · rw [if_pos hnil]
    exact fun h => by cases h
  · rw [if_neg hnil]
    rcases t.receiving with ⟨u, _ | _⟩
    · dsimp only
      split_ifs with hlen
      · exact fun h => by cases h
      · exact fun h => ⟨received, (Option.some.inj h).symm⟩
    · exact fun h => by cases h

/-- In every run, the replies queued on an idle bus are sent as they are exactly when each finds
the transmit side purged. -/
theorem replies_outstanding (t : Target) :
    (∀ n response u, Entered t n response u → u.tick.busy = false → Outstanding response u) ↔
      ∀ n response u, Entered t n response u → u.tick.busy = false → Purged u := by
  have hiff : ∀ n response u, Entered t n response u → u.tick.busy = false →
      (Outstanding response u ↔ Purged u) := by
    intro n response u he hidle
    obtain ⟨received, rfl⟩ := examine_response he.2.1
    obtain ⟨h₀, h₁⟩ := length_acknowledge received
    exact outstanding_iff h₀ h₁ hidle
  constructor
  · exact fun h n response u he hidle => (hiff n response u he hidle).mp (h n response u he hidle)
  · exact fun h n response u he hidle => (hiff n response u he hidle).mpr (h n response u he hidle)

/-- Two commands, and the reply to the first one is not read. -/
def unread : Target where
  address := 0x13
  hw := .reset
  txBusy := false
  env := List.replicate 8 [] ++ [[.hw (.busy true), .hw (.byte 0x61), .hw (.busy false)]] ++
    List.replicate 22 [] ++ [[.hw (.busy true), .hw (.byte 0x62), .hw (.busy false)]]
  log := []

/-- What the controller clocks first is the second byte of the reply it did not read. -/
theorem not_outstanding_unread :
    ∃ response u, Entered unread 1 response u ∧ u.tick.busy = false ∧
      clockedBytes u.log = [] ∧
      clockedBytes ((u.queueResponse response).1.bus (.hw .clock)).log = [0x41] ∧
      ¬ Outstanding response u := by
  refine ⟨acknowledge [0x62], (examine (main 1 unread).1).1.target, ⟨by decide +kernel,
    by decide +kernel, rfl⟩, by decide +kernel, by decide +kernel, by decide +kernel, ?_⟩
  have hidle : (examine (main 1 unread).1).1.target.tick.busy = false := by decide +kernel
  have hfifo : (examine (main 1 unread).1).1.target.hw.tx.fifo ≠ [] := by decide +kernel
  obtain ⟨h₀, h₁⟩ := length_acknowledge [0x62]
  rw [outstanding_iff h₀ h₁ hidle]
  exact fun h => hfifo h.1

end BscTarget.Direct
