import BscTarget.Driver.Conduct
import BscTarget.Driver.Returns

/-!
# The exchange contract

As long as controller and worker keep to their discipline, every exchange passes through four
stages: the request is received (`Receiving`), waits for the worker (`Waiting`), is worked on
(`Working`), and its reply is loaded and clocked (`Replying`). No step leaves this cycle, so
records are the requests, every `write` publishes, and what is clocked is the reply
(`exchange_contract`).
-/

namespace BscTarget

/-! ## The history of the exchanges -/

/-- `n` exchanges are complete, `m` requests were read, and the records in `queue` are not yet. -/
structure Exchanged (requests : ℕ → Bytes) (n m : ℕ) (queue : List Bytes) (log : List Event) :
    Prop where
  records : taken false log = (List.range m).map requests
  queue : (ledger log).queue = queue
  published : asks log = publications log ++ (openAsk log).toList
  complete : ∀ p ∈ transfers log, p.2 = p.1
  length : (transfers log).length = n
  announced : unannounced log = none

namespace Exchanged

variable {requests : ℕ → Bytes} {n m : ℕ} {queue : List Bytes} {s t : Sys} {c c' : Conduct}

/-- A controller that is not reading adds nothing. -/
theorem bus {e : HwEvent} (hp : ∀ left, c.phase ≠ .reading left)
    (hc : conduct requests s.log = some c) (hc' : conduct requests (s.bus e).log = some c')
    (hi : Exchanged requests n m queue s.log) : Exchanged requests n m queue (s.bus e).log := by
  rcases Sys.bus_cases s e with
    ⟨_, _, h⟩ | ⟨_, _, _, h⟩ | ⟨_, _, h⟩ | ⟨_, _, _, h⟩ | ⟨_, _, h⟩ <;> rw [h] at hc' ⊢
  · exact { hi with }
  · exact { hi with }
  · exact { hi with }
  · rw [conduct_cons hc, Conduct.not_clocked hp] at hc'
    cases hc'
  · exact { hi with }

theorem quiet (h : Quiet s t) (hp : ∀ left, c.phase ≠ .reading left)
    (hc : conduct requests s.log = some c) (hc' : conduct requests t.log = some c')
    (hi : Exchanged requests n m queue s.log) : Exchanged requests n m queue t.log := by
  cases h with
  | bus e => exact hi.bus hp hc hc'
  | env => exact hi
  | reg => exact hi

theorem setReady (level : Bool) (hi : Exchanged requests n m queue s.log) :
    Exchanged requests n m queue (bscSetReady level s).log := by
  unfold bscSetReady
  split_ifs
  · exact { hi with announced := rfl }
  · exact hi

theorem drainByte (hi : Exchanged requests n m [] s.log) :
    Exchanged requests n m [] (drainByte s).log := by
  rcases drainByte_cases s with ⟨-, -, -, -, h⟩ | ⟨-, -, -, h⟩ | ⟨-, -, h⟩ | ⟨-, -, h⟩ <;> rw [h]
  · exact { hi with queue := rfl, announced := rfl }
  · exact { hi with announced := rfl }
  · exact { hi with announced := rfl }
  · exact { hi with announced := rfl }

end Exchanged

/-! ## Receiving -/

/-- How far a request has come: `received` is drained or in the RX FIFO. -/
def Underway (request received : Bytes) (busy : Bool) : Phase → Prop
  | .idle => received = [] ∧ busy = false
  | .sending rest => received ++ rest = request ∧ busy = true
  | .sent => received = request ∧ busy = false
  | _ => False

structure Receiving (requests : ℕ → Bytes) (c : Conduct) (s : Sys) : Prop where
  told : Exchanged requests c.index c.index [] s.log
  closed : openAsk s.log = none
  holding : c.holding = false
  underway : Underway (requests c.index) (burst s.log ++ s.hw.rxFifo) s.hw.rxBusy c.phase

/-- Everything that may be loaded was loaded and clocked. -/
structure Spent (s : Sys) : Prop where
  held : s.hw.tx.held = []
  loaded : s.bsc.txQueued = true → s.bsc.txLoaded = s.bsc.txLen

namespace Receiving

variable {requests : ℕ → Bytes} {s t : Sys} {c c' : Conduct}

theorem not_reading (hi : Receiving requests c s) (left : ℕ) : c.phase ≠ .reading left := by
  intro h
  have hu := hi.underway
  rw [h] at hu
  exact hu

theorem bus {e : HwEvent} (hc : conduct requests s.log = some c)
    (hc' : conduct requests (s.bus e).log = some c') (hi : Receiving requests c s) :
    Receiving requests c' (s.bus e) := by
  have htold := hi.told.bus hi.not_reading hc hc'
  have hclosed : openAsk (s.bus e).log = none := by rw [(Quiet.bus s e).openAsk, hi.closed]
  have hu := hi.underway
  have hhold := hi.holding
  obtain ⟨index, phase, holding⟩ := c
  rcases Sys.bus_cases s e with
    ⟨on, _, h⟩ | ⟨b, _, _, h⟩ | ⟨_, _, h⟩ | ⟨b, _, _, h⟩ | ⟨_, _, h⟩ <;>
    rw [h] at hc' htold hclosed ⊢ <;> rw [conduct_cons hc] at hc'
  · -- FR_RXBUSY is set and cleared around a write only.
    cases phase with
    | idle =>
      cases on with
      | false =>
        obtain rfl := Option.some.inj hc'
        exact ⟨htold, hclosed, hhold, ⟨hu.1, rfl⟩⟩
      | true =>
        obtain rfl := Option.some.inj hc'
        refine ⟨htold, hclosed, hhold, ?_, rfl⟩
        show (burst s.log ++ s.hw.rxFifo) ++ requests index = requests index
        rw [hu.1, List.nil_append]
    | sending rest =>
      cases on with
      | false =>
        rcases rest with _ | ⟨b, rest⟩
        · obtain rfl := Option.some.inj hc'
          refine ⟨htold, hclosed, hhold, ?_, rfl⟩
          show burst s.log ++ s.hw.rxFifo = requests index
          rw [← hu.1, List.append_nil]
        · cases hc'
      | true =>
        obtain rfl := Option.some.inj hc'
        exact ⟨htold, hclosed, hhold, ⟨hu.1, rfl⟩⟩
    | sent =>
      cases on with
      | false =>
        obtain rfl := Option.some.inj hc'
        exact ⟨htold, hclosed, hhold, ⟨hu.1, rfl⟩⟩
      | true => cases hc'
    | acked => exact hu.elim
    | reading left => exact hu.elim
  · -- A byte arrives in its turn.
    cases phase with
    | sending rest =>
      rcases rest with _ | ⟨b', rest⟩
      · cases hc'
      · dsimp only [Conduct.step] at hc'
        split_ifs at hc' with hb
        subst hb
        obtain rfl := Option.some.inj hc'
        refine ⟨htold, hclosed, hhold, ?_, hu.2⟩
        show (burst s.log ++ (s.hw.rxFifo ++ [b])) ++ rest = requests index
        rw [← hu.1]
        simp
    | _ => cases hc'
  · cases hc'
  · rw [Conduct.not_clocked hi.not_reading] at hc'
    cases hc'
  · cases hc'

theorem drainByte (hf : s.hw.rxFifo ≠ []) (hi : Receiving requests c s) :
    Receiving requests c (drainByte s) where
  told := hi.told.drainByte
  closed := by rw [Pass.openAsk (.drain s hf), hi.closed]
  holding := hi.holding
  underway := by
    have hcons : s.hw.rxFifo.headD 0 :: s.hw.rxFifo.tail = s.hw.rxFifo := by
      cases h : s.hw.rxFifo with
      | nil => exact absurd h hf
      | cons b rest => rfl
    rw [burst_drainByte, drainByte_rxFifo, drainByte_rxBusy, List.append_assoc,
      List.singleton_append, hcons]
    exact hi.underway

/-- The steps of configuration. -/
theorem setup (h : Setup s t) (hc : conduct requests s.log = some c)
    (hc' : conduct requests t.log = some c') (hi : Receiving requests c s) :
    Receiving requests c' t := by
  have hsame (value : UInt32) (reg : Reg) :
      Receiving requests c { s with hw := s.hw.write value reg } := by
    have h := sameReceive_reg s value reg
    refine ⟨hi.told, hi.closed, hi.holding, ?_⟩
    rw [h.rxFifo, h.rxBusy]
    exact hi.underway
  cases h with
  | quiet h =>
    cases h with
    | bus e => exact hi.bus hc hc'
    | env =>
      obtain rfl := Option.some.inj (hc.symm.trans hc')
      exact { hi with }
    | reg value reg =>
      obtain rfl := Option.some.inj (hc.symm.trans hc')
      exact hsame value reg
  | cr value =>
    obtain rfl := Option.some.inj (hc.symm.trans hc')
    exact hsame value .CR

theorem cleared (hf : s.hw.rxFifo = []) (hb : s.hw.rxBusy = false)
    (hc : conduct requests (cleared s).log = some c) : Receiving requests c (cleared s) := by
  have hc₀ : c = ⟨0, .idle, false⟩ := by
    rw [cleared_log (conduct requests) rfl] at hc
    exact (Option.some.inj hc).symm
  subst hc₀
  rcases cleared_cases s with h | h <;> rw [h] <;>
    exact ⟨⟨rfl, rfl, rfl, by simp [transfers], rfl, rfl⟩, rfl, rfl, hf, hb⟩

end Receiving

/-! ## Working -/

/-- The request is the only record in the queue. -/
structure Waiting (requests : ℕ → Bytes) (c : Conduct) (s : Sys) : Prop where
  told : Exchanged requests c.index c.index [requests c.index] s.log
  closed : openAsk s.log = none
  holding : c.holding = false
  phase : c.phase = .acked
  rest : Resting s

/-- The worker has the request, or a `write` is about to decide on its response. -/
structure Working (requests : ℕ → Bytes) (c : Conduct) (s : Sys) : Prop where
  told : Exchanged requests c.index (c.index + 1) [] s.log
  turn : c.holding = (openAsk s.log).isNone
  phase : c.phase = .acked
  poised : Poised s

/-- The end of a burst finds the whole request in it. -/
theorem Receiving.finishBurst {requests : ℕ → Bytes}
    (hreq : ∀ k, (requests k).length ≤ bscMaxTransfer) {s : Sys} {c c' : Conduct}
    (hr : s.bsc.readyGpio = true) (hl : Latest s) (hs : Serving s) (hb : s.hw.rxBusy = false)
    (he : s.hw.rxFifo = []) (hw : ¬ (s.bsc.rxWorkLen = 0 ∧ s.bsc.rxOverflowed = false))
    (hc : conduct requests s.log = some c)
    (hc' : conduct requests (finishBurst s).log = some c') (ht : s.hw.tx.held = [])
    (hi : Receiving requests c s) : Waiting requests c' (finishBurst s) := by
  have hne := hs.assembling.burst_ne_nil hw
  have hlog := log_finishBurst_ready hs.assembling hl hr hw
  obtain ⟨hf, hb', htx⟩ := finishBurst_hw s
  have hrest : Resting (BscTarget.finishBurst s) := by
    refine ⟨?_, work_finishBurst s, by rw [hf, he], by rw [hb', hb], by rw [htx, ht], ?_⟩
    · rw [(Micro.tend (.pass (.finish s hb he hw))).readyGpio, hr]
    · rw [(finishBurst_calm s).2]
      exact hs.quiet (rxWorkLen_ne_zero hs.assembling hw)
  have hu := hi.underway
  have htold := hi.told
  have hhold := hi.holding
  obtain ⟨index, phase, holding⟩ := c
  rw [he, List.append_nil, hb] at hu
  cases phase with
  | idle => exact absurd hu.1 hne
  | sending rest => cases hu.2
  | sent =>
    have hburst : burst s.log = requests index := hu.1
    rw [hburst, if_pos (hreq index)] at hlog
    have hclosed : openAsk (BscTarget.finishBurst s).log = none := by
      rw [hlog]
      exact hi.closed
    have hready : conduct requests (.ready false :: .ready true :: s.log) =
        some ⟨index, .sent, holding⟩ :=
      conduct_keep (conduct_keep hc fun _ => rfl) fun _ => rfl
    have hacked : conduct requests (.acked :: .ready false :: .ready true :: s.log) =
        some ⟨index, .acked, holding⟩ := (conduct_cons hready _).trans rfl
    rw [hlog, conduct_keep hacked fun _ => rfl] at hc'
    obtain rfl := Option.some.inj hc'
    refine ⟨?_, hclosed, hhold, rfl, hrest⟩
    rw [hlog]
    refine { htold with queue := ?_, announced := rfl }
    show (ledger s.log).queue ++ [requests index] = [requests index]
    rw [htold.queue]
    rfl
  | acked => exact hu.elim
  | reading left => exact hu.elim

namespace Waiting

variable {requests : ℕ → Bytes} {s t : Sys} {c c' : Conduct}

theorem not_reading (hi : Waiting requests c s) (left : ℕ) : c.phase ≠ .reading left := by
  rw [hi.phase]
  exact Phase.noConfusion

theorem take {n : ℕ} {fault : Bool} (hcount : s.bsc.rxCount ≠ 0) (hq : Queued n s)
    (hc : conduct requests s.log = some c)
    (hc' : conduct requests (dequeue fault s).log = some c') (hi : Waiting requests c s) :
    Working requests c' (dequeue fault s) := by
  have hrest := hi.rest.tend (.take s fault hcount) rfl
  have hq' := hq.dequeue hcount fault
  have htold := hi.told
  have hphase := hi.phase
  have hhold := hi.holding
  obtain ⟨index, phase, holding⟩ := c
  have hstep : conduct requests (dequeue fault s).log = _ := conduct_cons hc _
  rw [hstep] at hc'
  dsimp only [Conduct.step] at hc'
  split_ifs at hc' with hno
  obtain rfl := Option.some.inj hc'
  have hfault : fault = false := by
    by_contra hf
    exact hno (.inr (by simpa using hf))
  subst hfault
  refine ⟨{ htold with records := ?_, queue := ?_, announced := rfl }, ?_, hphase, hrest, rfl, rfl⟩
  · rw [hq'.took false]
    show ((ledger s.log).remove .returned).leftAs .returned = _
    rw [Ledger.leftAs_remove_cons htold.queue, List.range_succ, List.map_append, ← htold.records,
      hq.took false]
    rfl
  · show ((ledger s.log).remove .returned).queue = []
    rw [Ledger.queue_remove, htold.queue]
    rfl
  · show true = (openAsk s.log).isNone
    rw [hi.closed]
    rfl

theorem quiet (h : Quiet s t) (hc : conduct requests s.log = some c)
    (hc' : conduct requests t.log = some c') (hi : Waiting requests c s) :
    Waiting requests c' t := by
  obtain rfl := conduct_acked h hi.phase hc hc'
  have hn := unheard_of_waits h (by rw [hi.phase]; rfl) hc hc'
  exact ⟨hi.told.quiet h hi.not_reading hc hc', by rw [h.openAsk, hi.closed], hi.holding, hi.phase,
    hi.rest.tend (.pass (.fill (.quiet h))) hn⟩

end Waiting

namespace Working

variable {requests : ℕ → Bytes} {s t : Sys} {c c' : Conduct}

theorem not_reading (hi : Working requests c s) (left : ℕ) : c.phase ≠ .reading left := by
  rw [hi.phase]
  exact Phase.noConfusion

theorem quiet (h : Quiet s t) (hc : conduct requests s.log = some c)
    (hc' : conduct requests t.log = some c') (hi : Working requests c s) :
    Working requests c' t := by
  obtain rfl := conduct_acked h hi.phase hc hc'
  have hn := unheard_of_waits h (by rw [hi.phase]; rfl) hc hc'
  exact ⟨hi.told.quiet h hi.not_reading hc hc', by rw [h.openAsk, hi.turn], hi.phase,
    hi.poised.tend (.pass (.fill (.quiet h))) hn⟩

theorem ask {data : Bytes} (hc : conduct requests s.log = some c)
    (hc' : conduct requests (s.note (.asked data)).log = some c') (hi : Working requests c s) :
    Working requests c' (s.note (.asked data)) := by
  have htold := hi.told
  have hphase := hi.phase
  have hturn := hi.turn
  obtain ⟨hrest, hp, hg⟩ := hi.poised
  obtain ⟨index, phase, holding⟩ := c
  have hstep : conduct requests (s.note (.asked data)).log = _ := conduct_cons hc _
  rw [hstep] at hc'
  dsimp only [Conduct.step] at hc'
  split_ifs at hc' with hhold
  obtain rfl := Option.some.inj hc'
  have hopen : openAsk s.log = none := by
    rw [hhold] at hturn
    exact Option.isNone_iff_eq_none.mp hturn.symm
  refine ⟨{ htold with published := ?_, announced := rfl }, rfl, hphase, ⟨?_, hp, hg⟩⟩
  · show asks s.log ++ [data] = publications s.log ++ [data]
    rw [htold.published, hopen]
    simp
  · exact { hrest with }

end Working

/-! ## Replying -/

/-- The reply is being loaded and clocked. -/
structure Answered (requests : ℕ → Bytes) (data : Bytes) (index : ℕ) (s : Sys) : Prop where
  streaming : Streaming data s
  busy : s.hw.rxBusy = false
  records : taken false s.log = (List.range (index + 1)).map requests
  queue : (ledger s.log).queue = []
  published : asks s.log = publications s.log
  closed : openAsk s.log = none
  pending : s.bsc.workerPending = false
  transfer : ∃ rest, transfers s.log = (data, clockedSince s.log) :: rest ∧
    (∀ p ∈ rest, p.2 = p.1) ∧ rest.length = index

namespace Answered

variable {requests : ℕ → Bytes} {data : Bytes} {index : ℕ} {s t : Sys}

theorem bus {e : HwEvent} (hn : inputs (s.bus e).log = inputs s.log)
    (hi : Answered requests data index s) : Answered requests data index (s.bus e) := by
  have hstream := hi.streaming.quiet (.bus s e) hn
  have hbusy := (unheard_bus hn).2 hi.busy
  have hpend : (s.bus e).bsc.workerPending = false := by rw [Sys.bus_bsc, hi.pending]
  rcases Sys.bus_cases s e with
    ⟨_, _, h⟩ | ⟨_, _, _, h⟩ | ⟨_, _, h⟩ | ⟨b, _, _, h⟩ | ⟨_, _, h⟩ <;>
    rw [h] at hstream hbusy hpend ⊢
  · exact { hi with streaming := hstream, busy := hbusy, pending := hpend }
  · exact { hi with streaming := hstream, busy := hbusy, pending := hpend }
  · exact { hi with streaming := hstream, busy := hbusy, pending := hpend }
  · obtain ⟨rest, hrest, hall, hlen⟩ := hi.transfer
    exact { hi with
      streaming := hstream, busy := hbusy, pending := hpend
      transfer := ⟨rest, transfers_clocked hrest b, hall, hlen⟩ }
  · exact { hi with streaming := hstream, busy := hbusy, pending := hpend }

theorem quiet (h : Quiet s t) (hn : inputs t.log = inputs s.log)
    (hi : Answered requests data index s) : Answered requests data index t := by
  have hstream := hi.streaming.quiet h hn
  cases h with
  | bus e => exact hi.bus hn
  | env => exact { hi with streaming := hstream }
  | reg value reg =>
    have hsame := sameReceive_reg s value reg
    exact { hi with streaming := hstream, busy := hsame.rxBusy.trans hi.busy }

theorem putByte (hq : s.bsc.txQueued = true) (hl : s.bsc.txLoaded < s.bsc.txLen)
    (hf : s.hw.tx.fifo.length < bscFifoSize) (hi : Answered requests data index s) :
    Answered requests data index (putByte s) := by
  have hsame := sameReceive_reg s (s.bsc.txData s.bsc.txLoaded).toUInt32 .DR
  exact { hi with
    streaming := hi.streaming.fill (.load s hq hl hf) rfl, busy := hsame.rxBusy.trans hi.busy }

/-- Once the controller has clocked the whole reply, nothing of it is left. -/
theorem spent (hlen : (clockedSince s.log).length = data.length)
    (hi : Answered requests data index s) : clockedSince s.log = data ∧ Spent s := by
  have hparts := hi.streaming.parts
  have htotal := congrArg List.length hparts
  simp only [List.length_append] at htotal
  have hheld : s.hw.tx.held = [] := List.length_eq_zero_iff.mp (by omega)
  have hdrop : data.drop s.bsc.txLoaded = [] := List.length_eq_zero_iff.mp (by omega)
  refine ⟨?_, hheld, fun hq => ?_⟩
  · rw [hheld, hdrop, List.append_nil, List.append_nil] at hparts
    exact hparts
  · have hle := (hi.streaming.serving.loaded hq).1
    have hge := List.drop_eq_nil_iff.mp hdrop
    have hbytes := congrArg List.length hi.streaming.bytes
    rw [Bsc.txBytes, Mem.length_read] at hbytes
    omega

/-- The last byte of the reply completes the exchange. -/
theorem receiving (hlen : (clockedSince s.log).length = data.length)
    (hann : unannounced s.log = none) (hi : Answered requests data index s) :
    Receiving requests ⟨index + 1, .idle, false⟩ s := by
  have hclocked := (hi.spent hlen).1
  obtain ⟨rest, hrest, hall, hcount⟩ := hi.transfer
  refine ⟨⟨hi.records, hi.queue, ?_, ?_, ?_, hann⟩, hi.closed, rfl, ?_, hi.busy⟩
  · rw [hi.published, hi.closed]
    simp
  · intro p hp
    rw [hrest] at hp
    rcases List.mem_cons.mp hp with rfl | hp
    · exact hclocked
    · exact hall p hp
  · rw [hrest, List.length_cons, hcount]
  · have hburst := hi.streaming.serving.assembling.len
    rw [hi.streaming.work.1] at hburst
    have hmax : bscMaxTransfer = 8192 := rfl
    have hnil : burst s.log = [] := List.length_eq_zero_iff.mp (by omega)
    rw [hnil, hi.streaming.rxFifo]
    rfl

end Answered

/-- The controller waits for the announcement of the reply, or has `left` bytes to clock. -/
structure Replying (requests : ℕ → Bytes) (data : Bytes) (c : Conduct) (s : Sys) : Prop where
  answered : Answered requests data c.index s
  holding : c.holding = false
  nonempty : data.length ≠ 0
  left : (unannounced s.log = some data ∧ c.phase = .acked ∧ clockedSince s.log = []) ∨
    (unannounced s.log = none ∧ ∃ left, c.phase = .reading left ∧ left ≠ 0 ∧
      (clockedSince s.log).length + left = data.length)

/-- A poised worker's publication begins the reply. -/
theorem Working.publish {requests : ℕ → Bytes} {s : Sys} {c c' : Conduct} {data : Bytes}
    (h₀ : data.length ≠ 0) (hs : Serving s) (ho : openAsk s.log = some data)
    (hc : conduct requests s.log = some c)
    (hc' : conduct requests (queueData data { s with bsc.workerPending := false }).log = some c')
    (hi : Working requests c s) :
    Replying requests data c' (queueData data { s with bsc.workerPending := false }) := by
  have hkeep : conduct requests (queueData data { s with bsc.workerPending := false }).log =
      some c := conduct_keep hc fun _ => rfl
  obtain rfl := Option.some.inj (hkeep.symm.trans hc')
  have htold := hi.told
  have hturn := hi.turn
  rw [ho] at hturn
  refine ⟨⟨hi.poised.streams data hs, hi.poised.rest.rxBusy, htold.records, htold.queue, ?_, rfl,
    rfl, ⟨transfers s.log, rfl, htold.complete, htold.length⟩⟩, hturn, h₀,
    .inl ⟨rfl, hi.phase, rfl⟩⟩
  show asks s.log = publications s.log ++ [data]
  rw [htold.published, ho]
  rfl

namespace Replying

variable {requests : ℕ → Bytes} {data : Bytes} {s t : Sys} {c c' : Conduct}

theorem waits (hi : Replying requests data c s) : c.phase.waits = true := by
  rcases hi.left with ⟨-, h, -⟩ | ⟨-, left, h, -⟩ <;> rw [h] <;> rfl

/-- What the bus may do to a reply: idle, or have the next byte of it clocked. -/
theorem bus {e : HwEvent} (hc : conduct requests s.log = some c)
    (hc' : conduct requests (s.bus e).log = some c') (hi : Replying requests data c s) :
    Replying requests data c' (s.bus e) ∨ Receiving requests c' (s.bus e) ∧ Spent (s.bus e) := by
  have hn := unheard_of_waits (.bus s e) hi.waits hc hc'
  have hans := hi.answered.bus hn
  have hann := Fill.unannounced (.quiet (.bus s e))
  have hleft := hi.left
  have hhold := hi.holding
  have hne := hi.nonempty
  obtain ⟨index, phase, holding⟩ := c
  obtain rfl : holding = false := hhold
  rcases hleft with ⟨hu, hp, hcl⟩ | ⟨hu, left, hp, hpos, hlen⟩
  · obtain rfl := conduct_acked (.bus s e) hp hc hc'
    refine .inl ⟨hans, rfl, hne, .inl ⟨hann.trans hu, hp, ?_⟩⟩
    rcases Sys.bus_cases s e with
      ⟨_, _, h⟩ | ⟨_, _, _, h⟩ | ⟨_, _, h⟩ | ⟨b, _, _, h⟩ | ⟨_, _, h⟩ <;> rw [h] at hc' ⊢
    · exact hcl
    · exact hcl
    · exact hcl
    · rw [conduct_cons hc, Conduct.not_clocked (fun left => by rw [hp]; exact Phase.noConfusion)]
        at hc'
      cases hc'
    · exact hcl
  · obtain rfl : phase = .reading left := hp
    rcases Sys.bus_cases s e with
      ⟨on, _, h⟩ | ⟨_, _, _, h⟩ | ⟨_, _, h⟩ | ⟨b, _, _, h⟩ | ⟨_, _, h⟩ <;>
      rw [h] at hc' hans hann ⊢ <;> rw [conduct_cons hc] at hc'
    · cases on <;> cases hc'
      exact .inl ⟨hans, rfl, hne, .inr ⟨hann.trans hu, left, rfl, hpos, hlen⟩⟩
    · cases hc'
    · cases hc'
    · rcases left with _ | _ | left
      · exact absurd rfl hpos
      · obtain rfl := Option.some.inj hc'
        have hlen' : (clockedSince (.clocked b :: s.log)).length = data.length := by
          simpa [clockedSince] using hlen
        exact .inr ⟨hans.receiving hlen' (hann.trans hu), (hans.spent hlen').2⟩
      · obtain rfl := Option.some.inj hc'
        refine .inl ⟨hans, rfl, hne, .inr ⟨hann.trans hu, left + 1, rfl, Nat.succ_ne_zero _, ?_⟩⟩
        show (clockedSince s.log ++ [b]).length + (left + 1) = data.length
        rw [List.length_append, List.length_singleton]
        omega
    · cases hc'

theorem announce {count : ℕ} {d : Bytes} (hr : s.bsc.readyGpio = true)
    (hu : unannounced s.log = some d) (hs : Serving (announce s count))
    (hc : conduct requests s.log = some c)
    (hc' : conduct requests (announce s count).log = some c') (hi : Replying requests data c s) :
    Replying requests data c' (announce s count) := by
  have hstream := hi.answered.streaming
  have hcur : current s.log = some data := by
    rw [hstream.serving.current hstream.queued, hstream.bytes]
  have hans := hi.answered
  have hhold := hi.holding
  obtain ⟨index, phase, holding⟩ := c
  rcases hi.left with ⟨-, hp, hcl⟩ | ⟨hno, -⟩
  · obtain rfl : phase = .acked := hp
    unfold BscTarget.announce bscSetReady at hs hc' ⊢
    dsimp only at hs hc' ⊢
    rw [if_pos hr] at hs hc' ⊢
    rw [conduct_cons hc, hcur] at hc'
    obtain rfl := Option.some.inj hc'
    refine ⟨{ hans with streaming := ⟨hs, hstream.flow, hstream.queued, hstream.bytes, hstream.work,
      hstream.rxFifo, hstream.settled⟩ }, hhold, hi.nonempty, .inr ⟨rfl, data.length, rfl,
      hi.nonempty, ?_⟩⟩
    show (clockedSince s.log).length + data.length = data.length
    rw [hcl]
    simp
  · rw [hno] at hu
    cases hu

end Replying

/-! ## The cycle -/

inductive Stage (requests : ℕ → Bytes) (c : Conduct) (s : Sys) : Prop
  | receiving (h : Receiving requests c s) (ht : Spent s)
  | waiting (h : Waiting requests c s)
  | working (h : Working requests c s)
  | replying (data : Bytes) (h : Replying requests data c s)

/-- What every stage rests on. -/
structure Sound (s : Sys) : Prop where
  ready : s.bsc.readyGpio = true
  latest : Latest s
  queue : ∃ n, Queued n s
  serving : Serving s

theorem Sound.micro {s t : Sys} (h : Micro s t) (hi : Sound s) : Sound t := by
  obtain ⟨n, hq⟩ := hi.queue
  exact ⟨by rw [h.readyGpio, hi.ready], hi.latest.micro h, ⟨n, hq.micro h⟩, hi.serving.micro h⟩

theorem Sound.rxCount {s : Sys} (hi : Sound s) : s.bsc.rxCount = (ledger s.log).queue.length := by
  obtain ⟨n, hq⟩ := hi.queue
  exact hq.queue_length.symm

namespace Stage

variable {requests : ℕ → Bytes} {s t : Sys} {c c' : Conduct}

theorem quiet (h : Quiet s t) (hc : conduct requests s.log = some c)
    (hc' : conduct requests t.log = some c') (hi : Stage requests c s) : Stage requests c' t := by
  cases hi with
  | receiving hr ht =>
    refine .receiving (hr.setup (.quiet h) hc hc') ⟨held_quiet h ht.held, ?_⟩
    rw [h.bsc]
    exact ht.loaded
  | waiting hw => exact .waiting (hw.quiet h hc hc')
  | working hw => exact .working (hw.quiet h hc hc')
  | replying data hr =>
    cases h with
    | bus e =>
      rcases hr.bus hc hc' with hr | ⟨hr, ht⟩
      · exact .replying data hr
      · exact .receiving hr ht
    | env env =>
      obtain rfl := Option.some.inj (hc.symm.trans hc')
      exact .replying data { hr with answered := hr.answered.quiet (.env s env) rfl }
    | reg value reg hne hv =>
      obtain rfl := Option.some.inj (hc.symm.trans hc')
      exact .replying data { hr with answered := hr.answered.quiet (.reg s value reg hne hv) rfl }

/-- A step that leaves no trace: it keeps the stage if it leaves reception alone and loads
nothing. -/
theorem still (h : Tend s t) (hlog : t.log = s.log) (hf : t.hw.rxFifo = s.hw.rxFifo)
    (hb : t.hw.rxBusy = s.hw.rxBusy) (hp : t.bsc.workerPending = s.bsc.workerPending)
    (ht : Spent s → Spent t) (hc : conduct requests s.log = some c)
    (hc' : conduct requests t.log = some c') (hi : Stage requests c s) : Stage requests c' t := by
  have hn : inputs t.log = inputs s.log := by rw [hlog]
  rw [hlog] at hc'
  obtain rfl := Option.some.inj (hc.symm.trans hc')
  cases hi with
  | receiving hr hs =>
    refine .receiving ⟨hlog ▸ hr.told, hlog ▸ hr.closed, hr.holding, ?_⟩ (ht hs)
    rw [hlog, hf, hb]
    exact hr.underway
  | waiting hw =>
    exact .waiting ⟨hlog ▸ hw.told, hlog ▸ hw.closed, hw.holding, hw.phase, hw.rest.tend h hn⟩
  | working hw =>
    exact .working ⟨hlog ▸ hw.told, hlog ▸ hw.turn, hw.phase, hw.poised.tend h hn⟩
  | replying data hr =>
    have ha := hr.answered
    have hstream := ha.streaming.micro (.tend h) hn (by rw [hlog])
    refine .replying data ⟨⟨hstream, hb.trans ha.busy, hlog ▸ ha.records, hlog ▸ ha.queue,
      hlog ▸ ha.published, hlog ▸ ha.closed, hp.trans ha.pending, hlog ▸ ha.transfer⟩, hr.holding,
      hr.nonempty, hlog ▸ hr.left⟩

theorem release (hp : s.bsc.workerPending = true) (n : ℕ)
    (hc : conduct requests s.log = some c)
    (hc' : conduct requests (bscSetReady false { s with bsc.recoveries := n }).log = some c')
    (hi : Stage requests c s) :
    Stage requests c' (bscSetReady false { s with bsc.recoveries := n }) := by
  have htend : Tend s (bscSetReady false { s with bsc.recoveries := n }) := .release s hp n
  obtain rfl := Option.some.inj ((conduct_release hc n).symm.trans hc')
  have hin := (inputs_bscSetReady false { s with bsc.recoveries := n }).1
  cases hi with
  | receiving hr ht =>
    have htold := hr.told.setReady (s := { s with bsc.recoveries := n }) false
    refine .receiving ⟨htold, ?_, hr.holding, ?_⟩ ?_
    all_goals unfold bscSetReady; split_ifs
    · exact hr.closed
    · exact hr.closed
    · exact hr.underway
    · exact hr.underway
    · exact ⟨ht.held, ht.loaded⟩
    · exact ⟨ht.held, ht.loaded⟩
  | waiting hw =>
    have htold := hw.told.setReady (s := { s with bsc.recoveries := n }) false
    refine .waiting ⟨htold, ?_, hw.holding, hw.phase, hw.rest.tend htend hin⟩
    unfold bscSetReady
    split_ifs <;> exact hw.closed
  | working hw =>
    have htold := hw.told.setReady (s := { s with bsc.recoveries := n }) false
    refine .working ⟨htold, ?_, hw.phase, hw.poised.tend htend hin⟩
    unfold bscSetReady
    split_ifs <;> exact hw.turn
  | replying data hr => exact absurd hp (ne_true_of_eq_false hr.answered.pending)

/-- Only in the receiving stage is there anything to drain. -/
theorem drain (hf : s.hw.rxFifo ≠ []) (hc : conduct requests s.log = some c)
    (hc' : conduct requests (drainByte s).log = some c') (hi : Stage requests c s) :
    Stage requests c' (drainByte s) := by
  obtain rfl := Option.some.inj ((conduct_drainByte hc).symm.trans hc')
  cases hi with
  | receiving hr ht =>
    refine .receiving (hr.drainByte hf) ?_
    rcases drainByte_cases s with ⟨-, -, -, -, h⟩ | ⟨-, -, -, h⟩ | ⟨-, -, h⟩ | ⟨-, -, h⟩ <;> rw [h]
    · exact ⟨ht.held, fun h => by cases h⟩
    · exact ⟨ht.held, fun h => by cases h⟩
    · exact ⟨ht.held, ht.loaded⟩
    · exact ⟨ht.held, ht.loaded⟩
  | waiting hw => exact absurd hw.rest.rxFifo hf
  | working hw => exact absurd hw.poised.rest.rxFifo hf
  | replying data hr => exact absurd hr.answered.streaming.rxFifo hf

theorem finish (hreq : ∀ k, (requests k).length ≤ bscMaxTransfer) (hs : Sound s)
    (hb : s.hw.rxBusy = false) (he : s.hw.rxFifo = [])
    (hw : ¬ (s.bsc.rxWorkLen = 0 ∧ s.bsc.rxOverflowed = false))
    (hc : conduct requests s.log = some c)
    (hc' : conduct requests (finishBurst s).log = some c') (hi : Stage requests c s) :
    Stage requests c' (finishBurst s) := by
  cases hi with
  | receiving hr ht =>
    exact .waiting (hr.finishBurst hreq hs.ready hs.latest hs.serving hb he hw hc hc' ht.held)
  | waiting hi => exact absurd hi.rest.work hw
  | working hi => exact absurd hi.poised.rest.work hw
  | replying data hi => exact absurd hi.answered.streaming.work hw

/-- Only a reply is loaded. -/
theorem load (hq : s.bsc.txQueued = true) (hl : s.bsc.txLoaded < s.bsc.txLen)
    (hf : s.hw.tx.fifo.length < bscFifoSize) (hc : conduct requests s.log = some c)
    (hc' : conduct requests (putByte s).log = some c') (hi : Stage requests c s) :
    Stage requests c' (putByte s) := by
  have hkeep : conduct requests (putByte s).log = some c := conduct_keep hc fun _ => rfl
  obtain rfl := Option.some.inj (hkeep.symm.trans hc')
  cases hi with
  | receiving _ ht =>
    have hall := ht.loaded hq
    omega
  | waiting hw => exact absurd hq (ne_true_of_eq_false hw.rest.queued)
  | working hw => exact absurd hq (ne_true_of_eq_false hw.poised.rest.queued)
  | replying data hr => exact .replying data { hr with answered := hr.answered.putByte hq hl hf }

theorem take {fault : Bool} (hs : Sound s) (hcount : s.bsc.rxCount ≠ 0)
    (hc : conduct requests s.log = some c)
    (hc' : conduct requests (dequeue fault s).log = some c') (hi : Stage requests c s) :
    Stage requests c' (dequeue fault s) := by
  rw [hs.rxCount] at hcount
  obtain ⟨n, hq⟩ := hs.queue
  cases hi with
  | receiving hr _ => exact absurd (by rw [hr.told.queue]; rfl) hcount
  | waiting hw =>
    refine .working (hw.take ?_ hq hc hc')
    rw [hs.rxCount]
    exact hcount
  | working hw => exact absurd (by rw [hw.told.queue]; rfl) hcount
  | replying data hr => exact absurd (by rw [hr.answered.queue]; rfl) hcount

/-- The worker asks in its turn only. -/
theorem ask {data : Bytes} (hc : conduct requests s.log = some c)
    (hc' : conduct requests (s.note (.asked data)).log = some c') (hi : Stage requests c s) :
    Stage requests c' (s.note (.asked data)) := by
  have hidle (hhold : c.holding = false) : Stage requests c' (s.note (.asked data)) := by
    have hstep : conduct requests (s.note (.asked data)).log = _ := conduct_cons hc _
    rw [hstep] at hc'
    dsimp only [Conduct.step] at hc'
    rw [hhold] at hc'
    cases hc'
  cases hi with
  | receiving hr _ => exact hidle hr.holding
  | waiting hw => exact hidle hw.holding
  | working hw => exact .working (hw.ask hc hc')
  | replying data hr => exact hidle hr.holding

/-- A response that is asked for is published. -/
theorem answer (ho : (openAsk s.log).isSome) (hi : Stage requests c s) :
    Working requests c s := by
  have hno (h : openAsk s.log = none) : Working requests c s := by
    rw [h] at ho
    cases ho
  cases hi with
  | receiving hr _ => exact hno hr.closed
  | waiting hw => exact hno hw.closed
  | working hw => exact hw
  | replying data hr => exact hno hr.answered.closed

theorem announce {data : Bytes} (hs : Sound s) (hu : unannounced s.log = some data)
    (hserv : Serving (announce s data.length)) (hc : conduct requests s.log = some c)
    (hc' : conduct requests (announce s data.length).log = some c')
    (hi : Stage requests c s) : Stage requests c' (announce s data.length) := by
  have hno (h : unannounced s.log = none) :
      Stage requests c' (BscTarget.announce s data.length) := by
    rw [h] at hu
    cases hu
  cases hi with
  | receiving hr _ => exact hno hr.told.announced
  | waiting hw => exact hno hw.told.announced
  | working hw => exact hno hw.told.announced
  | replying data hr => exact .replying data (hr.announce hs.ready hu hserv hc hc')

theorem micro (hreq : ∀ k, (requests k).length ≤ bscMaxTransfer) (h : Micro s t) (hs : Sound s)
    (hc : conduct requests s.log = some c) (hc' : conduct requests t.log = some c')
    (hi : Stage requests c s) : Stage requests c' t := by
  have hs' := hs.micro h
  cases h with
  | tend h =>
    cases h with
    | pass h =>
      cases h with
      | fill h =>
        cases h with
        | quiet h => exact hi.quiet h hc hc'
        | load hq hl hf => exact hi.load hq hl hf hc hc'
      | status => exact hi.still (.pass (.status s)) rfl rfl rfl rfl (fun h => { h with }) hc hc'
      | drain hf => exact hi.drain hf hc hc'
      | finish hb he hw => exact hi.finish hreq hs hb he hw hc hc'
    | cr value hcfg =>
      have hsame := sameReceive_reg s value .CR
      exact hi.still (.cr s value hcfg) rfl hsame.rxFifo hsame.rxBusy rfl
        (fun h => ⟨held_writeCr value h.held, h.loaded⟩) hc hc'
    | tally i k => exact hi.still (.tally s i k) rfl rfl rfl rfl (fun h => { h with }) hc hc'
    | take fault hcount => exact hi.take hs hcount hc hc'
    | recover =>
      rw [conduct_cons hc] at hc'
      cases hc'
    | release hp n => exact hi.release hp n hc hc'
  | ask data => exact hi.ask hc hc'
  | refuse h ho =>
    have howns := (hi.answer ho).poised.owns
    exact h.elim (fun h => absurd h (ne_false_of_eq_true howns.ready))
      fun h => absurd h (ne_false_of_eq_true howns.pending)
  | discard _ _ h ho =>
    have howns := (hi.answer ho).poised.owns
    rcases h with h | h | h
    · exact absurd howns.generation h
    · exact absurd howns.work h
    · exact absurd h (ne_true_of_eq_false howns.busy)
  | publish data _ ho h₀ =>
    have hw := hi.answer (by rw [ho]; rfl)
    exact .replying data (hw.publish h₀ hs.serving ho hc hc')
  | announce data hu => exact hi.announce hs hu hs'.serving hc hc'

end Stage

/-! ## Sessions -/

theorem Sound.opening {s : Sys} (hr : s.bsc.readyGpio = true) : Sound (openSession s) :=
  ⟨by rw [openSession_bsc]; exact hr, Latest.run s [], ⟨_, Queued.run s []⟩, Serving.run s []⟩

theorem Setup.log {s t : Sys} (h : Setup s t) : s.log <:+ t.log := by
  cases h with
  | quiet h => exact Micro.log (.tend (.pass (.fill (.quiet h))))
  | cr => exact List.suffix_refl _

/-- A session opens ready to receive, with an empty transmit side. -/
theorem Stage.opening {requests : ℕ → Bytes} {s : Sys} {c : Conduct}
    (hf : s.hw.rxFifo = []) (hb : s.hw.rxBusy = false)
    (hc : conduct requests (openSession s).log = some c) : Stage requests c (openSession s) := by
  have hstep {t u : Sys} (h : Setup t u)
      (hi : ∀ c, conduct requests t.log = some c → Receiving requests c t) :
      ∀ c, conduct requests u.log = some c → Receiving requests c u := by
    intro c' hc'
    obtain ⟨c, hc⟩ := conduct_of_suffix h.log hc'
    exact (hi c hc).setup h hc hc'
  have hreceiving := (openSession_steps s).keep
    (P := fun s => ∀ c, conduct requests s.log = some c → Receiving requests c s) hstep
    (fun c hc => Receiving.cleared hf hb hc) c hc
  refine .receiving hreceiving ⟨held_bscConfigureLocked _, ?_⟩
  rw [openSession_bsc]
  exact fun h => by cases h

theorem Stage.run {requests : ℕ → Bytes} (hreq : ∀ k, (requests k).length ≤ bscMaxTransfer)
    {s : Sys} (hr : s.bsc.readyGpio = true) (hf : s.hw.rxFifo = []) (hb : s.hw.rxBusy = false)
    {calls : List Call} {c : Conduct}
    (hc : conduct requests (run (openSession s) calls).log = some c) :
    Stage requests c (run (openSession s) calls) := by
  have hstep {t u : Sys} (h : Micro t u)
      (hi : Sound t ∧ ∀ c, conduct requests t.log = some c → Stage requests c t) :
      Sound u ∧ ∀ c, conduct requests u.log = some c → Stage requests c u := by
    refine ⟨hi.1.micro h, fun c' hc' => ?_⟩
    obtain ⟨c, hc⟩ := conduct_of_suffix h.log hc'
    exact (hi.2 c hc).micro hreq h hi.1 hc hc'
  exact ((run_steps _ calls).keep
    (P := fun s => Sound s ∧ ∀ c, conduct requests s.log = some c → Stage requests c s) hstep
    ⟨.opening hr, fun _ => .opening hf hb⟩).2 c hc

/-! ## Lock releases -/

theorem Tend.openAsk {s t : Sys} (h : Tend s t) : openAsk t.log = openAsk s.log := by
  cases h with
  | pass h => exact h.openAsk
  | release =>
    unfold bscSetReady
    split_ifs <;> rfl
  | _ => rfl

/-- Every `write` is answered before the lock is released. -/
theorem openAsk_publish (data : Bytes) (s : Sys) :
    openAsk (bscPublishResponseLocked data s).2.log = none := by
  rcases bscPublishResponseLocked_cases data s with
    ⟨-, h⟩ | ⟨-, -, h⟩ | ⟨-, -, -, h⟩ | ⟨-, -, -, -, -, h⟩ | ⟨-, h⟩ <;> rw [h]
  · rfl
  · rfl
  · rfl
  · rfl
  · have hfill := Steps.frame (f := fun s : Sys => openAsk s.log) Pass.openAsk
      (toPass (bscRefillTxLocked_steps
        (queueData data { (beforeDecision data s).tick with bsc.workerPending := false })))
    unfold announce bscSetReady
    dsimp only
    split_ifs
    · exact hfill
    · exact hfill

theorem openAsk_exec {s : Sys} (hs : openAsk s.log = none) (c : Call) :
    openAsk (exec s c).log = none := by
  by_cases hc : c.writes = false
  · rw [Steps.frame (f := fun s : Sys => openAsk s.log) Tend.openAsk (exec_tend s hc), hs]
  · cases c with
    | write w =>
      simp only [exec, bscQueueResponse]
      split_ifs
      · exact hs
      · exact hs
      · exact hs
      · exact hs
      · exact openAsk_publish w.data s
    | _ => exact absurd rfl hc

theorem openAsk_run (s : Sys) (calls : List Call) :
    openAsk (run (openSession s) calls).log = none := by
  have hopen : openAsk (openSession s).log = none := by
    have h := setup_tend (configuring_cleared s) (openSession_steps s)
    rw [Steps.frame (f := fun s : Sys => openAsk s.log) Tend.openAsk h]
    exact cleared_log openAsk rfl s
  generalize openSession s = t at hopen
  induction calls generalizing t with
  | nil => exact hopen
  | cons c calls ih => exact ih (exec t c) (openAsk_exec hopen c)

/-! ## The contract -/

/-- The `k`-th record is the `k`-th request, every response asked for is published, what is
clocked of a reply is its beginning, and of the exchanges completed all of it. -/
structure Contract (requests : ℕ → Bytes) (c : Conduct) (log : List Event) : Prop where
  records : taken false log = (List.range (taken false log).length).map requests
  published : publications log = asks log
  replies : (transfers log).reverse.map Prod.fst = publications log
  clocked : ∀ p ∈ transfers log, p.2 <+: p.1
  index : c.index ≤ (transfers log).length
  complete : ∀ p ∈ (transfers log).reverse.take c.index, p.2 = p.1

theorem Exchanged.contract {requests : ℕ → Bytes} {n m : ℕ} {queue : List Bytes}
    {log : List Event} {c : Conduct} (ho : openAsk log = none) (hn : c.index = n)
    (hi : Exchanged requests n m queue log) : Contract requests c log where
  records := by rw [hi.records, List.length_map, List.length_range]
  published := by rw [hi.published, ho]; simp
  replies := transfers_fst log
  clocked := fun p hp => by rw [hi.complete p hp]
  index := by rw [hn, hi.length]
  complete := fun p hp => hi.complete p (List.mem_reverse.mp (List.mem_of_mem_take hp))

theorem Replying.contract {requests : ℕ → Bytes} {data : Bytes} {c : Conduct} {s : Sys}
    (hi : Replying requests data c s) : Contract requests c s.log := by
  have ha := hi.answered
  obtain ⟨rest, hrest, hall, hlen⟩ := ha.transfer
  have hclocked : clockedSince s.log <+: data := by
    have hparts := ha.streaming.parts
    rw [List.append_assoc] at hparts
    exact ⟨_, hparts⟩
  refine ⟨by rw [ha.records, List.length_map, List.length_range], ha.published.symm,
    transfers_fst s.log, ?_, by rw [hrest, List.length_cons, hlen]; exact Nat.le_succ _, ?_⟩
  · intro p hp
    rw [hrest] at hp
    rcases List.mem_cons.mp hp with rfl | hp
    · exact hclocked
    · rw [hall p hp]
  · intro p hp
    rw [hrest, List.reverse_cons, List.take_append_of_le_length (by simp [hlen])] at hp
    exact hall p (List.mem_reverse.mp (List.mem_of_mem_take hp))

/-- In every READY session in which controller and worker keep to their discipline, the records
that the reads return are the requests, every response is published, and the bytes clocked are the
replies. -/
theorem exchange_contract (requests : ℕ → Bytes) (s : Sys) (calls : List Call) (c : Conduct)
    (hreq : ∀ k, (requests k).length ≤ bscMaxTransfer) (hr : s.bsc.readyGpio = true)
    (hf : s.hw.rxFifo = []) (hb : s.hw.rxBusy = false)
    (hc : conduct requests (run (openSession s) calls).log = some c) :
    Contract requests c (run (openSession s) calls).log ∧
      recordsRead (openSession s) calls = taken false (run (openSession s) calls).log := by
  refine ⟨?_, recordsRead_run s calls⟩
  have ho := openAsk_run s calls
  cases Stage.run hreq hr hf hb hc with
  | receiving h _ => exact h.told.contract ho rfl
  | waiting h => exact h.told.contract ho rfl
  | working h => exact h.told.contract ho rfl
  | replying data h => exact h.contract

/-- One exchange, and the first byte of the next request. -/
def exchangeCalls : List Call :=
  [.bus (.busy true), .bus (.byte 1), .timer, .bus (.byte 2), .bus (.busy false), .irq irqAll,
    .read ⟨8192, true, false, false, false⟩, .write ⟨[5, 6, 7], false, false⟩, .bus .clock, .timer,
    .bus .clock, .bus .clock, .bus (.busy true), .bus (.byte 1)]

theorem exchange_contract_once :
    Contract (fun _ => [1, 2]) ⟨1, .sending [2], false⟩
      (run (openSession (bscProbe true)) exchangeCalls).log :=
  (exchange_contract (fun _ => [1, 2]) (bscProbe true) exchangeCalls ⟨1, .sending [2], false⟩
    (fun _ => by decide) (by decide +kernel) (by decide +kernel) (by decide +kernel)
    (by decide +kernel)).1

end BscTarget
