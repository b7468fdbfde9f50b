import Mathlib.Data.List.Flatten
import BscTarget.Driver.Transmit

/-!
# Where the bytes of a session come from

Every record that `read` takes consists of bytes that arrived in the session, and every byte the
controller clocks was loaded in it (`OwnBytes`): nothing older reaches either side.
-/

namespace BscTarget

/-- The bytes the controller clocked, in order. -/
def clockedBytes : List Event → Bytes
  | [] => []
  | .clocked b :: log => clockedBytes log ++ [b]
  | _ :: log => clockedBytes log

/-! ## The transmit side -/

/-- What was clocked and what the peripheral still holds was loaded, in that order; a purge may
have discarded bytes between. -/
def Transmitted (s : Sys) : Prop :=
  (clockedBytes s.log ++ s.hw.tx.held).Sublist (loadedBytes s.log)

namespace Transmitted

variable {s t : Sys}

theorem of_same (hi : Transmitted s) (ht : t.hw.tx = s.hw.tx)
    (hc : clockedBytes t.log = clockedBytes s.log)
    (hl : loadedBytes t.log = loadedBytes s.log) : Transmitted t := by
  unfold Transmitted
  rw [ht, hc, hl]
  exact hi

theorem bus (hi : Transmitted s) (e : HwEvent) : Transmitted (s.bus e) := by
  rcases Sys.bus_cases s e with
    ⟨_, _, h⟩ | ⟨_, _, _, h⟩ | ⟨_, _, h⟩ | ⟨b, _, hser, h⟩ | ⟨_, _, h⟩ <;> rw [h]
  · exact hi
  · exact hi
  · exact hi
  · show ((clockedBytes s.log ++ [b]) ++ s.hw.tx.shift.held).Sublist (loadedBytes s.log)
    rw [List.append_assoc, List.singleton_append, ← TxSide.held_of_serializer hser]
    exact hi
  · exact hi

theorem putByte (hf : s.hw.tx.fifo.length < bscFifoSize) (hi : Transmitted s) :
    Transmitted (putByte s) := by
  show (clockedBytes s.log ++
    (s.hw.tx.push (s.bsc.txData s.bsc.txLoaded).toUInt32.toUInt8).held).Sublist
      (loadedBytes s.log ++ [s.bsc.txData s.bsc.txLoaded])
  rw [TxSide.held_push hf, UInt8.toUInt8_toUInt32, ← List.append_assoc]
  exact hi.append_right _

/-- An enable transition discards a byte. -/
theorem writeCr (hi : Transmitted s) (value : UInt32) :
    Transmitted { s with hw := s.hw.writeCr value } := by
  unfold Transmitted Hw.writeCr
  split_ifs
  · have hshift : (clockedBytes s.log ++ s.hw.tx.shift.held).Sublist
        (clockedBytes s.log ++ s.hw.tx.held) := by
      rw [TxSide.held_shift]
      exact (List.tail_sublist _).append_left _
    exact hshift.trans hi
  · exact hi

theorem setReady (hi : Transmitted s) (level : Bool) : Transmitted (bscSetReady level s) := by
  unfold bscSetReady
  split_ifs <;> exact hi

theorem drainByte (hi : Transmitted s) : Transmitted (drainByte s) := by
  refine hi.of_same (by rw [drainByte_hw]) ?_ ?_
  · exact (grows_drainByte s).frame fun e _ he => by cases e <;> first | rfl | cases he
  · exact (grows_drainByte s).frame fun e _ he => by cases e <;> first | rfl | cases he

theorem finishBurst (hi : Transmitted s) : Transmitted (finishBurst s) := by
  have ha : Transmitted (acknowledged s) := by
    unfold acknowledged
    split_ifs <;> exact hi
  rcases finishBurst_cases s with ⟨-, h⟩ | ⟨-, -, h⟩ | ⟨-, -, h⟩ <;> rw [h] <;> exact ha

theorem micro (h : Micro s t) (hi : Transmitted s) : Transmitted t := by
  cases h with
  | tend h =>
    cases h with
    | pass h =>
      cases h with
      | fill h =>
        cases h with
        | quiet h =>
          cases h with
          | bus e => exact hi.bus e
          | env => exact hi
          | reg value reg hne => exact hi.of_same (tx_write hne _ _) rfl rfl
        | load _ _ hf => exact hi.putByte hf
      | status => exact hi
      | drain => exact hi.drainByte
      | finish => exact hi.finishBurst
    | cr value => exact hi.writeCr value
    | release _ n =>
      have hn : Transmitted { s with bsc.recoveries := n } := hi
      exact hn.setReady false
    | _ => exact hi
  | announce data _ =>
    have hn : Transmitted { s with
        bsc.stats.txTransactions := s.bsc.stats.txTransactions + 1
        bsc.stats.txBytes := s.bsc.stats.txBytes + data.length } := hi
    exact hn.setReady true
  | _ => exact hi

end Transmitted

/-! ## The receive side -/

/-- The published records are bursts, in order. -/
theorem records_sublist {s : Sys} (hi : Assembling s) :
    (records s.log).Sublist (bursts s.log) := by
  have key : ∀ l : List (Bytes × Option Bytes),
      (∀ o ∈ l, o.2 = if o.1.length ≤ bscMaxTransfer then some o.1 else none) →
      (l.filterMap Prod.snd).Sublist (l.map Prod.fst) := by
    intro l
    induction l with
    | nil => exact fun _ => .slnil
    | cons o l ih =>
      intro hl
      have ho := hl o List.mem_cons_self
      have hrest := ih fun o' ho' => hl o' (List.mem_cons_of_mem _ ho')
      by_cases hlen : o.1.length ≤ bscMaxTransfer
      · rw [if_pos hlen] at ho
        rw [List.filterMap_cons_some ho, List.map_cons]
        exact hrest.cons_cons _
      · rw [if_neg hlen] at ho
        rw [List.filterMap_cons_none ho, List.map_cons]
        exact hrest.cons _
  exact key _ fun o ho => (hi.sound o ho).2

/-- What `read` takes was published. -/
theorem taken_subset {n : ℕ} {s : Sys} (hi : Queued n s) (fault : Bool) :
    ∀ r ∈ taken fault s.log, r ∈ records s.log := by
  intro r hr
  rw [hi.took fault, Ledger.leftAs, List.mem_map] at hr
  obtain ⟨x, hx, rfl⟩ := hr
  rw [← all_ledger, Ledger.all]
  exact List.mem_append_left _ (List.mem_map_of_mem (List.mem_filter.mp hx).1)

/-! ## A session -/

/-- What a session delivers and transmits is its own. -/
structure OwnBytes (s : Sys) : Prop where
  /-- What `read` took was received, and consists of bytes that arrived. -/
  taken : ∀ fault, ∀ r ∈ taken fault s.log, r ∈ records s.log
  received : (records s.log).flatten.Sublist (arrivals s.log)
  /-- What was written to DR is of the response published last. -/
  loaded : LoadsCurrent s.log
  /-- What the controller clocked was loaded. -/
  clocked : (clockedBytes s.log).Sublist (loadedBytes s.log)

/-- A session that starts with an empty RX FIFO and an empty transmit side delivers nothing
else. -/
theorem ownBytes_steps {n : ℕ} {busy : Bool} {s t : Sys} (h : Steps Micro s t)
    (hs : Serving s) (hq : Queued n s) (hf : Accounted busy [] s) (ht : Transmitted s) :
    OwnBytes t := by
  have hserving : Serving t := h.keep Serving.micro hs
  have haccount : Accounted busy [] t := h.keep Accounted.micro hf
  have htransmitted : Transmitted t := h.keep Transmitted.micro ht
  refine ⟨taken_subset (h.keep Queued.micro hq), ?_, hserving.loads, ?_⟩
  · have harrived : arrivals t.log = drainedBytes t.log ++ t.hw.rxFifo := haccount.rxFifo
    rw [harrived, drainedBytes_eq, List.append_assoc]
    exact (records_sublist hserving.assembling).flatten.trans (List.sublist_append_left _ _)
  · exact (List.sublist_append_left _ _).trans htransmitted

end BscTarget
