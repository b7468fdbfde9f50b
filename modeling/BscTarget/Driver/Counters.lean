import BscTarget.Driver.Lifecycle

/-!
# Counter conservation

Every record that was published is accounted for as dequeued, dropped or queued, and every
`write` that was accepted as published or discarded (`Account.Balanced`).
-/

namespace BscTarget

/-! ## What the calls return -/

inductive Answer
  /-- IRQ_HANDLED or IRQ_NONE -/
  | irq (handled : Bool)
  /-- HRTIMER_RESTART or HRTIMER_NORESTART -/
  | timer (restart : Bool)
  | read (r : ReadResult)
  | write (r : Except Errno ℕ)
  | recover (r : Except Errno ℕ)
  | bus

def answer (s : Sys) : Call → Answer
  | .irq mis => .irq (!decide (mis &&& irqAll = 0 ∨ s.bsc.active = false))
  | .timer => .timer (!decide (s.bsc.dead = true ∨ s.bsc.active = false))
  | .read r => .read (bscReadMessage r s).1
  | .write w => .write (bscQueueResponse w s).1
  | .recover => .recover (bscIoctlRecover s).1
  | .bus _ => .bus

/-- What a sequence of calls returns. -/
def answers (s : Sys) : List Call → List Answer
  | [] => []
  | c :: calls => answer s c :: answers (exec s c) calls

/-- `read` dequeued a record: it returned it, or could not copy it. -/
def Answer.dequeued : Answer → Bool
  | .read (.record _) | .read (.error .EFAULT) => true
  | _ => false

/-- `write` returned its count. -/
def Answer.accepted : Answer → Bool
  | .write (.ok _) => true
  | _ => false

/-- The recovery ioctl returned 0. -/
def Answer.granted : Answer → Bool
  | .recover (.ok _) => true
  | _ => false

/-! ## The account -/

/-- The counters, and what the history says that they count. -/
structure Account where
  rxTransactions : ℕ
  rxBytes : ℕ
  rxDropped : ℕ
  rxCount : ℕ
  txTransactions : ℕ
  txBytes : ℕ
  txDiscarded : ℕ
  recoveries : ℕ
  records : List Bytes
  publications : List Bytes

def Sys.account (s : Sys) : Account where
  rxTransactions := s.bsc.stats.rxTransactions
  rxBytes := s.bsc.stats.rxBytes
  rxDropped := s.bsc.stats.rxDropped
  rxCount := s.bsc.rxCount
  txTransactions := s.bsc.stats.txTransactions
  txBytes := s.bsc.stats.txBytes
  txDiscarded := s.bsc.stats.txDiscarded
  recoveries := s.bsc.recoveries
  records := records s.log
  publications := publications s.log

namespace Account

/-- The account agrees with what the calls before returned. -/
structure Balanced (before : List Answer) (a : Account) : Prop where
  rxTransactions : a.rxTransactions = before.countP Answer.dequeued + a.rxDropped + a.rxCount
  rxBytes : a.rxBytes = (a.records.map List.length).sum
  writes : a.txTransactions + a.txDiscarded = before.countP Answer.accepted
  txBytes : a.txBytes = (a.publications.map List.length).sum
  recoveries : a.recoveries = before.countP Answer.granted

/-- A burst that begins drops the queued records. -/
def supersede (a : Account) : Account :=
  { a with rxDropped := a.rxDropped + a.rxCount, rxCount := 0 }

/-- The oldest record makes room. -/
def evict (a : Account) : Account :=
  { a with rxDropped := a.rxDropped + 1, rxCount := a.rxCount - 1 }

def enqueue (a : Account) (record : Bytes) : Account :=
  { a with
    rxTransactions := a.rxTransactions + 1, rxBytes := a.rxBytes + record.length
    rxCount := a.rxCount + 1, records := a.records ++ [record] }

def take (a : Account) : Account := { a with rxCount := a.rxCount - 1 }

def discard (a : Account) : Account := { a with txDiscarded := a.txDiscarded + 1 }

def publish (a : Account) (data : Bytes) : Account :=
  { a with
    txTransactions := a.txTransactions + 1, txBytes := a.txBytes + data.length
    publications := a.publications ++ [data] }

def grant (a : Account) : Account := { a with recoveries := a.recoveries + 1 }

namespace Balanced

variable {before : List Answer} {a : Account} {r : Answer}

theorem supersede (h : Balanced before a) : Balanced before a.supersede := by
  refine ⟨?_, h.rxBytes, h.writes, h.txBytes, h.recoveries⟩
  have hrx := h.rxTransactions
  simp only [Account.supersede]
  omega

theorem evict (h : Balanced before a) (hc : a.rxCount ≠ 0) : Balanced before a.evict := by
  refine ⟨?_, h.rxBytes, h.writes, h.txBytes, h.recoveries⟩
  have hrx := h.rxTransactions
  simp only [Account.evict]
  omega

theorem enqueue (h : Balanced before a) (record : Bytes) :
    Balanced before (a.enqueue record) := by
  refine ⟨?_, ?_, h.writes, h.txBytes, h.recoveries⟩
  · have hrx := h.rxTransactions
    simp only [Account.enqueue]
    omega
  · simp [Account.enqueue, h.rxBytes]

/-- A call that is not counted. -/
theorem idle (h : Balanced before a) (hd : r.dequeued = false) (ha : r.accepted = false)
    (hg : r.granted = false) : Balanced (before ++ [r]) a := by
  refine ⟨?_, h.rxBytes, ?_, h.txBytes, ?_⟩
  · rw [List.countP_append, h.rxTransactions]
    simp [hd]
  · rw [List.countP_append, h.writes]
    simp [ha]
  · rw [List.countP_append, h.recoveries]
    simp [hg]

theorem take (h : Balanced before a) (hc : a.rxCount ≠ 0) {result : ReadResult}
    (hd : (Answer.read result).dequeued = true) :
    Balanced (before ++ [.read result]) a.take := by
  refine ⟨?_, h.rxBytes, ?_, h.txBytes, ?_⟩
  · have hrx := h.rxTransactions
    have hone : List.countP Answer.dequeued [.read result] = 1 := by simp [hd]
    rw [List.countP_append, hone]
    simp only [Account.take]
    omega
  · rw [List.countP_append]
    exact h.writes
  · rw [List.countP_append]
    exact h.recoveries

theorem discard (h : Balanced before a) (n : ℕ) :
    Balanced (before ++ [.write (.ok n)]) a.discard := by
  refine ⟨?_, h.rxBytes, ?_, h.txBytes, ?_⟩
  · rw [List.countP_append]
    exact h.rxTransactions
  · rw [List.countP_append, ← h.writes]
    rfl
  · rw [List.countP_append]
    exact h.recoveries

theorem publish (h : Balanced before a) (data : Bytes) (n : ℕ) :
    Balanced (before ++ [.write (.ok n)]) (a.publish data) := by
  refine ⟨?_, h.rxBytes, ?_, ?_, ?_⟩
  · rw [List.countP_append]
    exact h.rxTransactions
  · have hone : List.countP Answer.accepted [.write (.ok n)] = 1 := rfl
    rw [List.countP_append, ← h.writes, hone]
    simp only [Account.publish]
    omega
  · simp [Account.publish, h.txBytes]
  · rw [List.countP_append]
    exact h.recoveries

theorem grant (h : Balanced before a) : Balanced (before ++ [.recover (.ok 0)]) a.grant := by
  refine ⟨?_, h.rxBytes, ?_, h.txBytes, ?_⟩
  · rw [List.countP_append]
    exact h.rxTransactions
  · rw [List.countP_append]
    exact h.writes
  · rw [List.countP_append, ← h.recoveries]
    rfl

end Balanced

end Account

/-! ## What the steps enter -/

theorem account_bus (s : Sys) (e : HwEvent) : (s.bus e).account = s.account := by
  rcases Sys.bus_cases s e with ⟨_, _, h⟩ | ⟨_, _, _, h⟩ | ⟨_, _, h⟩ | ⟨_, _, _, h⟩ | ⟨_, _, h⟩ <;>
    rw [h] <;> rfl

theorem Quiet.account {s t : Sys} (h : Quiet s t) : t.account = s.account := by
  cases h with
  | bus e => exact account_bus s e
  | env => rfl
  | reg => rfl

theorem Setup.account {s t : Sys} (h : Setup s t) : t.account = s.account := by
  cases h with
  | quiet h => exact h.account
  | cr => rfl

theorem Fill.account {s t : Sys} (h : Fill s t) : t.account = s.account := by
  cases h with
  | quiet h => exact h.account
  | load => rfl

theorem account_bscSetReady (level : Bool) (s : Sys) :
    (bscSetReady level s).account = s.account := by
  unfold bscSetReady
  split_ifs <;> rfl

theorem account_acknowledged (s : Sys) : (acknowledged s).account = s.account := by
  unfold acknowledged
  split_ifs <;> rfl

theorem account_drainByte (s : Sys) :
    (drainByte s).account = s.account ∨ (drainByte s).account = s.account.supersede := by
  rcases drainByte_cases s with ⟨-, -, -, -, h⟩ | ⟨-, -, -, h⟩ | ⟨-, -, h⟩ | ⟨-, -, h⟩ <;> rw [h]
  · exact .inr rfl
  · exact .inl rfl
  · exact .inl rfl
  · exact .inl rfl

/-- The end of a burst enters its record, behind an eviction if the ring is full. -/
theorem account_finishBurst (s : Sys) :
    (finishBurst s).account = s.account ∨
    (s.bsc.rxCount ≠ 0 ∧ ∃ record, (finishBurst s).account = s.account.evict.enqueue record) ∨
    ∃ record, (finishBurst s).account = s.account.enqueue record := by
  have hlen : (filledSlot (acknowledged s).bsc).bytes.length = (acknowledged s).bsc.rxWorkLen := by
    rw [bytes_filledSlot, Bsc.workBytes, Mem.length_read]
  have hfinish : ∀ (record : Bytes) (log : List Event),
      records (.finished (some record) :: log) = records log ++ [record] := by
    intro record log
    simp [records, outcomes]
  rw [← account_acknowledged s]
  rcases finishBurst_cases s with ⟨-, h⟩ | ⟨-, hc, h⟩ | ⟨-, -, h⟩ <;> rw [h]
  · refine .inl ?_
    simp [Sys.account, records, outcomes, publications]
  · refine .inr (.inl ⟨by rw [hc]; decide, (filledSlot (acknowledged s).bsc).bytes, ?_⟩)
    simp only [Sys.account, Account.enqueue, Account.evict, hfinish, hlen]
    rfl
  · refine .inr (.inr ⟨(filledSlot (acknowledged s).bsc).bytes, ?_⟩)
    simp only [Sys.account, Account.enqueue, hfinish, hlen]
    rfl

theorem Pass.balanced {before : List Answer} {s t : Sys} (h : Pass s t)
    (hb : s.account.Balanced before) : t.account.Balanced before := by
  cases h with
  | fill h =>
    rw [h.account]
    exact hb
  | status => exact hb
  | drain =>
    rcases account_drainByte s with h | h <;> rw [h]
    · exact hb
    · exact hb.supersede
  | finish =>
    rcases account_finishBurst s with h | ⟨hc, record, h⟩ | ⟨record, h⟩ <;> rw [h]
    · exact hb
    · exact (hb.evict hc).enqueue record
    · exact hb.enqueue record

theorem balanced_pass {before : List Answer} {s t : Sys} (h : Steps Pass s t)
    (hb : s.account.Balanced before) : t.account.Balanced before :=
  h.keep (P := fun s => s.account.Balanced before) Pass.balanced hb

theorem account_tick (s : Sys) : s.tick.account = s.account :=
  Steps.frame (f := Sys.account) Quiet.account (tick_steps s)

theorem account_grantRecovery (s : Sys) : (grantRecovery s).account = s.account.grant := by
  have hc : ∀ u : Sys, (bscConfigureLocked u).account = u.account := fun u =>
    Steps.frame (f := Sys.account) Setup.account (bscConfigureLocked_steps u)
  have hn : ∀ u : Sys, Sys.account { u with bsc.recoveries := u.bsc.recoveries + 1 } =
      u.account.grant := fun _ => rfl
  unfold grantRecovery
  rw [account_bscSetReady, hn, hc]
  rfl

theorem account_announce (s : Sys) (data : Bytes) :
    (announce (bscRefillTxLocked (queueData data { s with bsc.workerPending := false }))
      data.length).account = s.account.publish data := by
  have hr : ∀ u : Sys, (bscRefillTxLocked u).account = u.account := fun u =>
    Steps.frame (f := Sys.account) Fill.account (bscRefillTxLocked_steps u)
  have hn : ∀ u : Sys, (announce u data.length).account =
      { u.account with
        txTransactions := u.account.txTransactions + 1
        txBytes := u.account.txBytes + data.length } := by
    intro u
    rw [announce, account_bscSetReady]
    rfl
  rw [hn, hr]
  rfl

/-! ## Calls -/

section
variable {before : List Answer} {s : Sys}

theorem balanced_service (h : s.account.Balanced before) :
    (bscServiceLocked s).account.Balanced before :=
  balanced_pass (bscServiceLocked_steps s) h

theorem balanced_read (h : s.account.Balanced before) (r : ReadArgs) :
    (bscReadMessage r s).2.account.Balanced (before ++ [.read (bscReadMessage r s).1]) := by
  have htake : ∀ fault, (dequeue fault s).account = s.account.take := fun _ => rfl
  simp only [bscReadMessage]
  split_ifs with _ _ hc
  all_goals first | exact h.idle rfl rfl rfl | rw [htake]; exact h.take hc rfl

theorem balanced_publish (h : s.account.Balanced before) (data : Bytes) :
    (bscPublishResponseLocked data s).2.account.Balanced
      (before ++ [.write (bscPublishResponseLocked data s).1]) := by
  have hs : (beforeDecision data s).account.Balanced before :=
    balanced_service (s := s.note (.asked data)) h
  have hd : ∀ u : Sys, (discardData { u with bsc.workerPending := false }).account =
      u.account.discard := fun _ => rfl
  have hn : ∀ u : Sys, (u.note .refused).account = u.account := fun _ => rfl
  rcases bscPublishResponseLocked_cases data s with
    ⟨-, h'⟩ | ⟨-, -, h'⟩ | ⟨-, -, -, h'⟩ | ⟨-, -, -, -, -, h'⟩ | ⟨-, h'⟩ <;> rw [h'] <;> dsimp only
  · rw [hn]
    exact hs.idle rfl rfl rfl
  · rw [hn]
    exact hs.idle rfl rfl rfl
  · rw [hd]
    exact hs.discard _
  · rw [hd, account_tick]
    exact hs.discard _
  · rw [account_announce, account_tick]
    exact hs.publish data _

theorem balanced_recover (h : s.account.Balanced before) :
    (bscRecoverResponseLocked s).2.account.Balanced
      (before ++ [.recover (bscRecoverResponseLocked s).1]) := by
  have hs := balanced_service h
  rcases bscRecoverResponseLocked_cases s with
    ⟨-, h'⟩ | ⟨-, -, -, h'⟩ | ⟨-, -, -, h'⟩ | ⟨-, h'⟩ <;> rw [h'] <;> dsimp only
  · exact hs.idle rfl rfl rfl
  · exact hs.idle rfl rfl rfl
  · rw [account_tick]
    exact hs.idle rfl rfl rfl
  · rw [account_grantRecovery, account_tick]
    exact hs.grant

/-- Every lock section keeps the balance. -/
theorem balanced_exec (h : s.account.Balanced before) (c : Call) :
    (exec s c).account.Balanced (before ++ [answer s c]) := by
  have hw : ∀ (reg : Reg) (value : UInt32) (u : Sys),
      (bscWrite reg value u).account = u.tick.account := fun _ _ _ => rfl
  cases c with
  | irq mis =>
    refine Account.Balanced.idle ?_ rfl rfl rfl
    simp only [exec, bscIrq]
    split_ifs
    · exact h
    · rw [hw, account_tick]
      exact balanced_service h
  | timer =>
    refine Account.Balanced.idle ?_ rfl rfl rfl
    simp only [exec, bscTimer]
    split_ifs
    · exact h
    · exact balanced_service h
  | read r => exact balanced_read h r
  | write w =>
    simp only [exec, answer, bscQueueResponse]
    split_ifs
    all_goals first | exact h.idle rfl rfl rfl | exact balanced_publish h w.data
  | recover =>
    simp only [exec, answer, bscIoctlRecover]
    split_ifs
    · exact h.idle rfl rfl rfl
    · exact balanced_recover h
  | bus e =>
    rw [exec, account_bus]
    exact h.idle rfl rfl rfl

theorem balanced_run (h : s.account.Balanced before) (calls : List Call) :
    (run s calls).account.Balanced (before ++ answers s calls) := by
  induction calls generalizing before s with
  | nil => rwa [answers, List.append_nil]
  | cons c calls ih =>
    have hrun := ih (balanced_exec h c)
    rwa [List.append_assoc] at hrun

end

/-! ## A session -/

theorem account_openSession (s : Sys) :
    (openSession s).account = (cleared s).account :=
  Steps.frame (f := Sys.account) Setup.account (openSession_steps s)

/-- In a session that starts with zeroed statistics the counters are balanced at every lock
release. -/
theorem counters_balanced (s : Sys) (calls : List Call)
    (hz : s.bsc.stats = ⟨0, 0, 0, 0, 0, 0, 0, 0, 0, 0⟩) (hr : s.bsc.recoveries = 0) :
    (run (openSession s) calls).account.Balanced (answers (openSession s) calls) := by
  have hstart : (openSession s).account.Balanced [] := by
    have hrecords : records (cleared s).log = [] := cleared_log records rfl s
    have hpublications : publications (cleared s).log = [] := cleared_log publications rfl s
    rw [account_openSession]
    simp only [Sys.account, hrecords, hpublications, cleared_bsc, Bsc.resetIo, hz, hr]
    exact ⟨rfl, rfl, rfl, rfl, rfl⟩
  exact balanced_run hstart calls

/-- A request and its response. -/
def answeredCalls : List Call :=
  [.bus (.byte 5), .timer, .read ⟨8192, true, false, false, false⟩, .write ⟨[7], false, false⟩]

theorem counters_balanced_answered :
    (run (openSession (bscProbe true)) answeredCalls).account.txTransactions = 1 ∧
    (run (openSession (bscProbe true)) answeredCalls).account.Balanced
      (answers (openSession (bscProbe true)) answeredCalls) := by
  have hb : (bscProbe true).bsc = (Bsc.allocated 0x13 true).resetIo := bscDisableLocked_bsc _
  refine ⟨by decide +kernel, counters_balanced (bscProbe true) answeredCalls ?_ ?_⟩
  · rw [hb]
    rfl
  · rw [hb]
    rfl

end BscTarget
