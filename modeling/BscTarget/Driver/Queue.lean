import BscTarget.Driver.Returns
import BscTarget.Driver.Segmentation

/-!
# The receive ring

The ring of `rx_slots` is the queue that the history makes of published, dequeued and dropped
records (`Queued`). In READY mode the queue holds at most the latest record, and none while a
burst is being assembled (`Latest`).
-/

namespace BscTarget

/-! ## The queue side of a step -/

/-- `t` has the receive queue of `s`, in its state and in its history. -/
structure SameQueue (s t : Sys) : Prop where
  ready : t.bsc.readyGpio = s.bsc.readyGpio
  slots : t.bsc.rxSlots = s.bsc.rxSlots
  head : t.bsc.rxHead = s.bsc.rxHead
  tail : t.bsc.rxTail = s.bsc.rxTail
  count : t.bsc.rxCount = s.bsc.rxCount
  dropped : t.bsc.stats.rxDropped = s.bsc.stats.rxDropped
  ledger : ledger t.log = ledger s.log
  taken : ∀ fault, taken fault t.log = taken fault s.log
  evictions : evictions t.log = evictions s.log
  full : EvictedFull t.log = EvictedFull s.log

theorem SameReceive.queue {s t : Sys} (h : SameReceive s t) : SameQueue s t :=
  ⟨h.ready, h.slots, h.head, h.tail, h.count, h.dropped, h.story.ledger, h.story.taken,
    h.story.evictions, h.story.full⟩

theorem sameQueue_bus (s : Sys) (e : HwEvent) : SameQueue s (s.bus e) := by
  have h := story_bus s e
  have hb := Sys.bus_bsc s e
  constructor
  case taken => exact h.taken
  all_goals first | rw [hb] | exact h.ledger | exact h.evictions | exact h.full

/-- READY mode drops the queued record in favour of the burst that begins. -/
structure Supersedes (s t : Sys) : Prop where
  ready : t.bsc.readyGpio = true
  empty : t.bsc.rxHead = 0 ∧ t.bsc.rxTail = 0 ∧ t.bsc.rxCount = 0
  ledger : BscTarget.ledger t.log = (BscTarget.ledger s.log).clear .superseded
  taken : ∀ fault, BscTarget.taken fault t.log = BscTarget.taken fault s.log
  full : EvictedFull t.log = EvictedFull s.log

theorem drainByte_queue (s : Sys) : SameQueue s (drainByte s) ∨ Supersedes s (drainByte s) := by
  rcases drainByte_cases s with ⟨-, -, hr, -, h⟩ | ⟨-, -, -, h⟩ | ⟨-, -, h⟩ | ⟨-, -, h⟩ <;> rw [h]
  · exact .inr ⟨hr, ⟨rfl, rfl, rfl⟩, rfl, fun _ => rfl, rfl⟩
  all_goals exact .inl ⟨rfl, rfl, rfl, rfl, rfl, rfl, rfl, fun _ => rfl, rfl, rfl⟩

/-! ## The ring is the queue -/

/-- The records in the occupied slots, oldest first. -/
def Bsc.queued (b : Bsc) : List Bytes :=
  (Ring.contents bscRxSlots b.rxSlots b.rxHead b.rxCount).map BscRxSlot.bytes

@[simp] theorem length_queued (b : Bsc) : b.queued.length = b.rxCount := by simp [Bsc.queued]

/-- The ring holds the queue of the history; `n` records were dropped before it began. -/
structure Queued (n : ℕ) (s : Sys) : Prop where
  head : s.bsc.rxHead < bscRxSlots
  tail : s.bsc.rxTail = (s.bsc.rxHead + s.bsc.rxCount) % bscRxSlots
  count : s.bsc.rxCount ≤ bscRxSlots
  held : s.bsc.queued = (ledger s.log).queue
  took : ∀ fault, taken fault s.log =
    (ledger s.log).leftAs (if fault then .faulted else .returned)
  full : EvictedFull s.log
  kept : s.bsc.readyGpio = false → s.bsc.stats.rxDropped = n + evictions s.log ∧
    (ledger s.log).leftAs .superseded = []

namespace Queued

variable {n : ℕ} {s t : Sys}

theorem queue_length (hi : Queued n s) : (ledger s.log).queue.length = s.bsc.rxCount := by
  rw [← hi.held, length_queued]

theorem of_same (hi : Queued n s) (h : SameQueue s t) : Queued n t where
  head := by rw [h.head]; exact hi.head
  tail := by rw [h.tail, h.head, h.count]; exact hi.tail
  count := by rw [h.count]; exact hi.count
  held := by rw [Bsc.queued, h.slots, h.head, h.count, h.ledger]; exact hi.held
  took := fun fault => by rw [h.taken, h.ledger]; exact hi.took fault
  full := by rw [h.full]; exact hi.full
  kept := fun hr => by
    rw [h.dropped, h.evictions, h.ledger]
    exact hi.kept (h.ready ▸ hr)

theorem of_supersedes (hi : Queued n s) (h : Supersedes s t) : Queued n t where
  head := by rw [h.empty.1]; decide
  tail := by rw [h.empty.1, h.empty.2.1, h.empty.2.2]; rfl
  count := by rw [h.empty.2.2]; exact Nat.zero_le _
  held := by rw [Bsc.queued, h.empty.2.2, h.ledger]; rfl
  took := fun fault => by
    rw [h.taken, h.ledger, Ledger.leftAs_clear_ne _ (by cases fault <;> decide)]
    exact hi.took fault
  full := by rw [h.full]; exact hi.full
  kept := fun hr => by
    rw [h.ready] at hr
    cases hr

/-- The oldest record of a queue that is not empty is in the head slot. -/
theorem queue_cons (hi : Queued n s) (hc : s.bsc.rxCount ≠ 0) :
    (ledger s.log).queue = (s.bsc.rxSlots s.bsc.rxHead).bytes ::
      (Ring.contents bscRxSlots s.bsc.rxSlots ((s.bsc.rxHead + 1) % bscRxSlots)
        (s.bsc.rxCount - 1)).map BscRxSlot.bytes := by
  obtain ⟨k, hk⟩ := Nat.exists_eq_succ_of_ne_zero hc
  rw [← hi.held, Bsc.queued, hk, Nat.succ_eq_add_one, Ring.contents_advance _ hi.head]
  rfl

/-- Taking the head record out moves the head on. -/
theorem tail_pred (hi : Queued n s) (hc : s.bsc.rxCount ≠ 0) :
    s.bsc.rxTail = ((s.bsc.rxHead + 1) % bscRxSlots + (s.bsc.rxCount - 1)) % bscRxSlots := by
  rw [Ring.tail_advance, Nat.sub_add_cancel (Nat.pos_of_ne_zero hc), hi.tail]

theorem dequeue (hi : Queued n s) (hc : s.bsc.rxCount ≠ 0) (fault : Bool) :
    Queued n (dequeue fault s) := by
  have hq := hi.queue_cons hc
  have hrec : (s.bsc.rxRead.copy (s.bsc.rxSlots s.bsc.rxHead).data
      (s.bsc.rxSlots s.bsc.rxHead).len).read (s.bsc.rxSlots s.bsc.rxHead).len =
      (s.bsc.rxSlots s.bsc.rxHead).bytes := Mem.read_copy _ _ _
  refine ⟨Nat.mod_lt _ (by decide), hi.tail_pred hc, ?_, ?_, ?_, hi.full, ?_⟩
  · exact (Nat.sub_le _ _).trans hi.count
  · simp only [BscTarget.dequeue, ledger, Ledger.queue_remove, hq]
    rfl
  · intro f
    simp only [BscTarget.dequeue, ledger, taken, hrec]
    by_cases h : fault = f
    · subst h
      rw [if_pos rfl, Ledger.leftAs_remove_cons hq, hi.took fault]
    · rw [if_neg h, Ledger.leftAs_remove_ne _ (by revert h; cases fault <;> cases f <;> decide)]
      exact hi.took f
  · intro hr
    obtain ⟨h₁, h₂⟩ := hi.kept hr
    refine ⟨h₁, ?_⟩
    simp only [BscTarget.dequeue, ledger]
    rw [Ledger.leftAs_remove_ne _ (by cases fault <;> decide), h₂]

theorem evictOldest (hi : Queued n s) : Queued n (evictOldest s) := by
  unfold BscTarget.evictOldest
  split_ifs with hc
  · have hc' : s.bsc.rxCount ≠ 0 := by rw [hc]; decide
    have hq := hi.queue_cons hc'
    refine ⟨Nat.mod_lt _ (by decide), hi.tail_pred hc', ?_, ?_, ?_, ?_, ?_⟩
    · exact (Nat.sub_le _ _).trans hi.count
    · simp only [ledger, Ledger.queue_remove, hq]
      rfl
    · intro f
      simp only [ledger, taken]
      rw [Ledger.leftAs_remove_ne _ (by cases f <;> decide)]
      exact hi.took f
    · exact ⟨by rw [hi.queue_length, hc], hi.full⟩
    · intro hr
      obtain ⟨h₁, h₂⟩ := hi.kept hr
      refine ⟨by simp only [evictions, h₁, Nat.add_assoc], ?_⟩
      simp only [ledger]
      rw [Ledger.leftAs_remove_ne _ (by decide), h₂]
  · exact hi

theorem publishRecord (hi : Queued n s) (hc : s.bsc.rxCount < bscRxSlots) :
    Queued n (publishRecord s) := by
  refine ⟨hi.head, ?_, hc, ?_, hi.took, hi.full, hi.kept⟩
  · show (s.bsc.rxTail + 1) % bscRxSlots = (s.bsc.rxHead + (s.bsc.rxCount + 1)) % bscRxSlots
    rw [hi.tail, Ring.tail_store]
  · show (Ring.contents bscRxSlots (Function.update s.bsc.rxSlots s.bsc.rxTail (filledSlot s.bsc))
      s.bsc.rxHead (s.bsc.rxCount + 1)).map BscRxSlot.bytes =
      (ledger s.log).queue ++ [(filledSlot s.bsc).bytes]
    rw [hi.tail, Ring.contents_store _ hc, List.map_append, ← hi.held]
    rfl

theorem finishBurst (hi : Queued n s) : Queued n (finishBurst s) := by
  have hack : Queued n (acknowledged s) := by
    unfold acknowledged
    split_ifs
    · exact hi.of_same ⟨rfl, rfl, rfl, rfl, rfl, rfl, rfl, fun _ => rfl, rfl, rfl⟩
    · exact hi
  unfold BscTarget.finishBurst
  rw [acknowledged_eq]
  dsimp only
  generalize acknowledged s = u at hack ⊢
  split_ifs with ho
  · exact hack.of_same ⟨rfl, rfl, rfl, rfl, rfl, rfl, rfl, fun _ => rfl, rfl, rfl⟩
  · have hlt : (BscTarget.evictOldest u).bsc.rxCount < bscRxSlots := by
      unfold BscTarget.evictOldest
      split_ifs with hc
      · show u.bsc.rxCount - 1 < bscRxSlots
        rw [hc]
        decide
      · exact Nat.lt_of_le_of_ne hack.count hc
    exact (hack.evictOldest.publishRecord hlt).of_same
      ⟨rfl, rfl, rfl, rfl, rfl, rfl, rfl, fun _ => rfl, rfl, rfl⟩

theorem micro (h : Micro s t) (hi : Queued n s) : Queued n t := by
  rcases h.receive with h | ⟨e, rfl⟩ | ⟨-, rfl⟩ | ⟨-, -, -, rfl⟩ | ⟨hc, fault, rfl⟩
  · exact hi.of_same h.queue
  · exact hi.of_same (sameQueue_bus s e)
  · rcases drainByte_queue s with h | h
    · exact hi.of_same h
    · exact hi.of_supersedes h
  · exact hi.finishBurst
  · exact hi.dequeue hc fault

theorem cleared (s : Sys) : Queued s.bsc.stats.rxDropped (cleared s) := by
  rcases cleared_cases s with h | h <;> rw [h] <;>
    exact ⟨(by decide : 0 < bscRxSlots), rfl, Nat.zero_le _, rfl, fun f => by cases f <;> rfl,
      trivial, fun _ => ⟨rfl, rfl⟩⟩

theorem run (s : Sys) (calls : List Call) :
    Queued s.bsc.stats.rxDropped (run (openSession s) calls) :=
  (session_steps s calls).keep micro (cleared s)

end Queued

/-! ## READY mode queues the latest record only -/

/-- In READY mode at most one record is queued, and none while a burst is being assembled. -/
structure Latest (s : Sys) : Prop where
  count : s.bsc.readyGpio = true → s.bsc.rxCount ≤ 1
  alone : s.bsc.readyGpio = true → s.bsc.rxCount ≠ 0 →
    s.bsc.rxWorkLen = 0 ∧ s.bsc.rxOverflowed = false

namespace Latest

variable {s t : Sys}

theorem drainByte (hi : Latest s) : Latest (drainByte s) := by
  rcases drainByte_cases s with ⟨-, -, -, -, h⟩ | ⟨-, -, hc, h⟩ | ⟨hw, -, h⟩ | ⟨hw, -, h⟩ <;> rw [h]
  · exact ⟨fun _ => Nat.zero_le _, fun _ hc => absurd rfl hc⟩
  · exact ⟨hi.count, fun hr hc' => absurd ⟨hr, hc'⟩ hc⟩
  · exact ⟨hi.count, fun hr hc => absurd (hi.alone hr hc) hw⟩
  · exact ⟨hi.count, fun hr hc => absurd (hi.alone hr hc) hw⟩

/-- A burst that ends finds the queue empty. -/
theorem rxCount_eq_zero (hi : Latest s) (hr : s.bsc.readyGpio = true)
    (hw : ¬ (s.bsc.rxWorkLen = 0 ∧ s.bsc.rxOverflowed = false)) : s.bsc.rxCount = 0 := by
  by_contra hc
  exact hw (hi.alone hr hc)

theorem finishBurst (hi : Latest s)
    (hw : ¬ (s.bsc.rxWorkLen = 0 ∧ s.bsc.rxOverflowed = false)) : Latest (finishBurst s) := by
  obtain ⟨har, -, -, hac⟩ := acknowledged_bsc s
  rcases finishBurst_cases s with ⟨-, h⟩ | ⟨-, hc, h⟩ | ⟨-, hc, h⟩ <;> rw [h]
  · refine ⟨fun hr => ?_, fun _ _ => ⟨rfl, rfl⟩⟩
    have hr' : s.bsc.readyGpio = true := by rw [← har]; exact hr
    show (acknowledged s).bsc.rxCount ≤ 1
    rw [hac, hi.rxCount_eq_zero hr' hw]
    exact Nat.zero_le 1
  · refine ⟨fun hr => ?_, fun _ _ => ⟨rfl, rfl⟩⟩
    have hr' : s.bsc.readyGpio = true := by rw [← har]; exact hr
    rw [hi.rxCount_eq_zero hr' hw] at hc
    cases hc
  · refine ⟨fun hr => ?_, fun _ _ => ⟨rfl, rfl⟩⟩
    have hr' : s.bsc.readyGpio = true := by rw [← har]; exact hr
    show (acknowledged s).bsc.rxCount + 1 ≤ 1
    rw [hac, hi.rxCount_eq_zero hr' hw]

theorem dequeue (hi : Latest s) (fault : Bool) : Latest (dequeue fault s) where
  count := fun hr => (Nat.sub_le _ _).trans (hi.count hr)
  alone := fun hr hc => hi.alone hr fun h => hc (by
    show s.bsc.rxCount - 1 = 0
    rw [h])

theorem of_same (hi : Latest s) (h : SameReceive s t) : Latest t where
  count := fun hr => by rw [h.count]; exact hi.count (h.ready ▸ hr)
  alone := fun hr hc => by
    rw [h.len, h.overflow]
    exact hi.alone (h.ready ▸ hr) (h.count ▸ hc)

theorem micro (h : Micro s t) (hi : Latest s) : Latest t := by
  rcases h.receive with h | ⟨e, rfl⟩ | ⟨-, rfl⟩ | ⟨-, -, hw, rfl⟩ | ⟨-, fault, rfl⟩
  · exact hi.of_same h
  · exact ⟨by rw [Sys.bus_bsc]; exact hi.count, by rw [Sys.bus_bsc]; exact hi.alone⟩
  · exact hi.drainByte
  · exact hi.finishBurst hw
  · exact hi.dequeue fault

theorem cleared (s : Sys) : Latest (cleared s) := by
  rcases cleared_cases s with h | h <;> rw [h] <;>
    exact ⟨fun _ => Nat.zero_le 1, fun _ hc => absurd rfl hc⟩

theorem run (s : Sys) (calls : List Call) : Latest (run (openSession s) calls) :=
  (session_steps s calls).keep micro (cleared s)

end Latest

/-! ## Refinement -/

/-- No published record is missing from what `read` returned or can still return, except those
evicted from a full queue. -/
structure Delivered (log : List Event) : Prop where
  order : records log = (ledger log).gone.map Prod.snd ++ (ledger log).queue
  returned : taken false log = (ledger log).leftAs .returned
  missing : ∀ x ∈ (ledger log).gone, x.1 = .returned ∨ x.1 = .evicted
  full : EvictedFull log

/-- The ring refines a queue; `n` records were dropped before the session. -/
structure RefinesQueue (n : ℕ) (s : Sys) : Prop where
  head : s.bsc.rxHead < bscRxSlots
  tail : s.bsc.rxTail < bscRxSlots
  count : s.bsc.rxCount ≤ bscRxSlots
  wrap : s.bsc.rxTail = (s.bsc.rxHead + s.bsc.rxCount) % bscRxSlots
  queued : s.bsc.queued = (records s.log).drop ((records s.log).length - s.bsc.rxCount)
  backlog : s.bsc.readyGpio = false →
    Delivered s.log ∧ s.bsc.stats.rxDropped = n + evictions s.log
  latest : s.bsc.readyGpio = true → s.bsc.rxCount ≤ 1 ∧
    (∀ r ∈ s.bsc.queued, (records s.log).getLast? = some r) ∧
    (s.bsc.rxCount ≠ 0 → s.bsc.rxWorkLen = 0 ∧ s.bsc.rxOverflowed = false)

theorem Queued.queued_eq_drop {n : ℕ} {s : Sys} (hi : Queued n s) :
    s.bsc.queued = (records s.log).drop ((records s.log).length - s.bsc.rxCount) := by
  rw [hi.held, ← all_ledger, ← hi.queue_length]
  exact Ledger.queue_eq_drop _

theorem Queued.newest {n : ℕ} {s : Sys} (hi : Queued n s) (hc : s.bsc.rxCount ≤ 1) :
    ∀ r ∈ s.bsc.queued, (records s.log).getLast? = some r := by
  intro r hr
  have hlen := length_queued s.bsc
  have hle : s.bsc.rxCount ≤ (records s.log).length := by
    rw [← all_ledger, ← hi.queue_length, Ledger.all, List.length_append]
    omega
  have hpos := List.length_pos_of_mem hr
  have h1 : s.bsc.rxCount = 1 := by omega
  rw [hi.queued_eq_drop, h1] at hr
  rw [h1] at hle
  rw [List.drop_length_sub_one (by intro h; rw [h] at hle; simp at hle)] at hr
  rw [List.mem_singleton.mp hr, List.getLast?_eq_some_getLast]

/-- Without READY, nothing but evicted records is missing exactly when no copy failed. -/
theorem Queued.delivered_iff {n : ℕ} {s : Sys} (hi : Queued n s)
    (hr : s.bsc.readyGpio = false) : Delivered s.log ↔ taken true s.log = [] := by
  have hfault : taken true s.log = (ledger s.log).leftAs .faulted := hi.took true
  have hsup := (hi.kept hr).2
  constructor
  · intro hd
    rw [hfault, Ledger.leftAs, List.map_eq_nil_iff, List.filter_eq_nil_iff]
    intro x hx
    rcases hd.missing x hx with h | h <;> simp [h]
  · intro hnone
    refine ⟨(all_ledger s.log).symm, hi.took false, fun x hx => ?_, hi.full⟩
    rw [hfault, Ledger.leftAs, List.map_eq_nil_iff, List.filter_eq_nil_iff] at hnone
    rw [Ledger.leftAs, List.map_eq_nil_iff, List.filter_eq_nil_iff] at hsup
    have h₁ := hnone x hx
    have h₂ := hsup x hx
    cases hf : x.1 <;> simp_all

/-- In every session the ring refines a queue if and only if, unless READY is configured, no
`read` fails to copy the record that it dequeued. The records noted as returned are those that the
reads return. -/
theorem ring_refines_queue (s : Sys) (calls : List Call) :
    let t := run (openSession s) calls
    (RefinesQueue s.bsc.stats.rxDropped t ↔
      (t.bsc.readyGpio = false → taken true t.log = [])) ∧
    recordsRead (openSession s) calls = taken false t.log := by
  intro t
  refine ⟨?_, recordsRead_run s calls⟩
  have hq : Queued s.bsc.stats.rxDropped t := Queued.run s calls
  have hl : Latest t := Latest.run s calls
  constructor
  · exact fun h hr => (hq.delivered_iff hr).mp (h.backlog hr).1
  · intro h
    refine ⟨hq.head, ?_, hq.count, hq.tail, hq.queued_eq_drop, fun hr => ?_, fun hr => ?_⟩
    · rw [hq.tail]
      exact Nat.mod_lt _ (by decide)
    · exact ⟨(hq.delivered_iff hr).mpr (h hr), (hq.kept hr).1⟩
    · exact ⟨hl.count hr, hq.newest (hl.count hr), hl.alone hr⟩

/-- A `read` into an invalid buffer loses the record. -/
theorem not_refinesQueue_fault :
    ¬ RefinesQueue (bscProbe false).bsc.stats.rxDropped (run (openSession (bscProbe false))
      [.bus (.byte 7), .timer, .read ⟨8192, true, false, false, true⟩]) := by
  intro h
  have hmem := (h.backlog (by decide +kernel)).1.missing (.faulted, [7]) (by decide +kernel)
  rcases hmem with h | h <;> cases h

end BscTarget
