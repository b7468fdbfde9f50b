import BscTarget.Lib.Fields
import BscTarget.Service.Kernel

/-!
# Sleepers

Tasks that sleep on `rx_wait`: in a blocking `read`, and in `poll`. They are woken where a record is
published and where the device is removed, and nowhere else. That is enough for readers, and for
polls up to EPOLLOUT, which another task's `read` makes due without a wake-up (`sleepers_rightly`).
-/

namespace BscTarget

/-- The requests handed to workers. -/
def handed (log : List Event) : ℕ := (taken false log).length + (taken true log).length

/-! ## What can make a wait come true -/

/-- Between `s` and `t` the queue did not grow without a record being published, no response became
due without a request being handed out, and the device was not removed. -/
structure Stirs (s t : Sys) : Prop where
  records : (records s.log).length ≤ (records t.log).length
  count : (BscTarget.records t.log).length = (BscTarget.records s.log).length →
    t.bsc.rxCount ≤ s.bsc.rxCount
  handed : handed s.log ≤ handed t.log
  pending : BscTarget.handed t.log = BscTarget.handed s.log →
    t.bsc.workerPending = true → s.bsc.workerPending = true
  dead : t.bsc.dead = s.bsc.dead

namespace Stirs

variable {s t u : Sys}

theorem refl (s : Sys) : Stirs s s := ⟨Nat.le_refl _, fun _ => Nat.le_refl _, Nat.le_refl _,
  fun _ h => h, rfl⟩

theorem trans (h : Stirs s t) (h' : Stirs t u) : Stirs s u := by
  have hr := h.records
  have hr' := h'.records
  have hh := h.handed
  have hh' := h'.handed
  refine ⟨hr.trans hr', fun he => ?_, hh.trans hh', fun he hp => ?_, h'.dead.trans h.dead⟩
  · exact (h'.count (by omega)).trans (h.count (by omega))
  · exact h.pending (by omega) (h'.pending (by omega) hp)

/-- A step that publishes nothing and hands nothing out. -/
theorem of_story (ho : outcomes t.log = outcomes s.log)
    (hk : ∀ fault, taken fault t.log = taken fault s.log) (hc : t.bsc.rxCount ≤ s.bsc.rxCount)
    (hp : t.bsc.workerPending = true → s.bsc.workerPending = true)
    (hd : t.bsc.dead = s.bsc.dead) : Stirs s t := by
  have hrecords : BscTarget.records t.log = BscTarget.records s.log :=
    congrArg (List.filterMap Prod.snd) ho
  have hhanded : BscTarget.handed t.log = BscTarget.handed s.log := by
    rw [BscTarget.handed, hk, hk]
    rfl
  exact ⟨by rw [hrecords], fun _ => hc, by rw [hhanded], fun _ => hp, hd⟩

theorem dequeue (fault : Bool) (s : Sys) : Stirs s (dequeue fault s) := by
  have hhanded : BscTarget.handed (BscTarget.dequeue fault s).log =
      BscTarget.handed s.log + 1 := by
    simp only [BscTarget.dequeue, BscTarget.handed, taken]
    cases fault with
    | true =>
      rw [if_neg (by decide), if_pos rfl, List.length_append]
      rfl
    | false =>
      rw [if_pos rfl, if_neg (by decide), List.length_append, List.length_singleton]
      omega
  refine ⟨Nat.le_refl _, fun _ => Nat.sub_le _ _, by omega, fun he => by omega, rfl⟩

theorem drainByte (s : Sys) : Stirs s (drainByte s) := by
  rcases drainByte_cases s with ⟨-, -, -, -, h⟩ | ⟨-, -, -, h⟩ | ⟨-, -, h⟩ | ⟨-, -, h⟩ <;> rw [h]
  · exact of_story rfl (fun _ => rfl) (Nat.zero_le _) (fun hp => hp) rfl
  all_goals exact of_story rfl (fun _ => rfl) (Nat.le_refl _) (fun hp => hp) rfl

/-- The end of a burst leaves the queue as it was or publishes a record. -/
theorem finishBurst (s : Sys) : Stirs s (finishBurst s) := by
  have hack : Stirs s (acknowledged s) := by
    unfold acknowledged
    split_ifs
    · exact of_story rfl (fun _ => rfl) (Nat.le_refl _) (fun hp => hp) rfl
    · exact refl s
  have hlonger (log : List Event) (b : Bytes) :
      (BscTarget.records (.finished (some b) :: log)).length =
        (BscTarget.records log).length + 1 := by
    simp [BscTarget.records, outcomes]
  refine hack.trans ?_
  rcases finishBurst_cases s with ⟨-, h⟩ | ⟨-, -, h⟩ | ⟨-, -, h⟩ <;> rw [h]
  · have hsame : BscTarget.records (.finished none :: (acknowledged s).log) =
        BscTarget.records (acknowledged s).log := by
      simp [BscTarget.records, outcomes]
    exact ⟨by rw [hsame], fun _ => Nat.le_refl _, Nat.le_refl _, fun _ hp => hp, rfl⟩
  · have hrecords :=
      hlonger (.evicted :: (acknowledged s).log) (filledSlot (acknowledged s).bsc).bytes
    exact ⟨Nat.le_of_lt (by rw [hrecords]; exact Nat.lt_succ_self _),
      fun he => absurd (hrecords.symm.trans he) (Nat.succ_ne_self _),
      Nat.le_refl _, fun _ hp => hp, rfl⟩
  · have hrecords := hlonger (acknowledged s).log (filledSlot (acknowledged s).bsc).bytes
    exact ⟨Nat.le_of_lt (by rw [hrecords]; exact Nat.lt_succ_self _),
      fun he => absurd (hrecords.symm.trans he) (Nat.succ_ne_self _),
      Nat.le_refl _, fun _ hp => hp, rfl⟩

end Stirs

/-- A response becomes due with a dequeue only. -/
theorem Micro.pending {s t : Sys} (h : Micro s t) :
    (t.bsc.workerPending = true → s.bsc.workerPending = true) ∨ ∃ fault, t = dequeue fault s := by
  have hsame {t : Sys} (hw : t.bsc.workerPending = s.bsc.workerPending) :
      t.bsc.workerPending = true → s.bsc.workerPending = true := hw.symm.trans
  have hready (level : Bool) (u : Sys) :
      (bscSetReady level u).bsc.workerPending = u.bsc.workerPending := by
    unfold bscSetReady
    split_ifs <;> rfl
  cases h with
  | tend h =>
    cases h with
    | pass h => exact .inl (hsame (congrArg Prod.fst h.worker))
    | take fault _ => exact .inr ⟨fault, rfl⟩
    | release _ n => exact .inl (hsame (hready false { s with bsc.recoveries := n }))
    | _ => exact .inl (hsame rfl)
  | discard _ hp => exact .inl fun _ => hp
  | publish _ h => exact .inl fun _ => h.pending
  | announce data _ => exact .inl (hsame (hready true _))
  | _ => exact .inl (hsame rfl)

theorem Micro.stirs {s t : Sys} (h : Micro s t) : Stirs s t := by
  rcases h.pending with hp | ⟨fault, rfl⟩
  · have hd : t.bsc.dead = s.bsc.dead :=
      congrArg (fun p : Bool × Bool × Bool => p.2.1) h.standing
    rcases h.receive with h | ⟨e, rfl⟩ | ⟨-, rfl⟩ | ⟨-, -, -, rfl⟩ | ⟨-, fault, rfl⟩
    · exact .of_story h.story.outcomes h.story.taken (Nat.le_of_eq h.count) hp hd
    · have hstory := story_bus s e
      have hcount : (s.bus e).bsc.rxCount ≤ s.bsc.rxCount := by rw [Sys.bus_bsc]
      exact .of_story hstory.outcomes hstory.taken hcount hp hd
    · exact .drainByte s
    · exact .finishBurst s
    · exact .dequeue fault s
  · exact .dequeue fault s

/-- Every system call, interrupt and timer pass stirs. -/
theorem stirs_exec (s : Sys) (c : Call) : Stirs s (exec s c) :=
  (exec_steps s c).lift Stirs.refl Stirs.trans Micro.stirs

/-! ## The wait queue -/

/-- A task on `rx_wait`: in `read`, or in a poll for `events` that looked when `since` requests had
been handed out. -/
inductive Waiter
  | reader
  | poller (events : UInt32) (since : ℕ)
  deriving DecidableEq

/-- What a poll for `events` returns on. -/
def pollFilter (events : UInt32) : UInt32 := events ||| (epollErr ||| epollHup)

structure WaitQueue where
  sys : Sys
  asleep : List Waiter

inductive Doing
  | background (b : Background)
  | write (w : WriteArgs)
  | recover
  /-- A `read`, or the loop of one that was woken. -/
  | read (r : ReadArgs)
  | poll (events : UInt32)
  /-- A signal or a timeout ends a wait. -/
  | leave (w : Waiter)

namespace WaitQueue

/-- The driver moves on, and wakes all if it published a record or is removed. -/
def move (v : WaitQueue) (s : Sys) (removed : Bool) : WaitQueue :=
  if removed = true ∨ (records v.sys.log).length < (records s.log).length then ⟨s, []⟩
  else ⟨s, v.asleep⟩

def step (v : WaitQueue) : Doing → WaitQueue
  | .background b => v.move (b.perform v.sys) b.removes
  | .write w => v.move (exec v.sys (.write w)) false
  | .recover => v.move (exec v.sys .recover) false
  | .read r =>
    let (result, s) := bscReadMessage r v.sys
    if result = .asleep then ⟨s, .reader :: v.asleep⟩ else v.move s false
  | .poll events =>
    if bscPoll v.sys &&& pollFilter events = 0 then
      { v with asleep := .poller events (handed v.sys.log) :: v.asleep }
    else v
  | .leave w => { v with asleep := v.asleep.erase w }

def run (v : WaitQueue) (doings : List Doing) : WaitQueue := doings.foldl step v

end WaitQueue

/-! ## What a poll looks at -/

/-- The removal ends every poll. -/
theorem pollFilter_dead (events : UInt32) : (epollErr ||| epollHup) &&& pollFilter events ≠ 0 := by
  rw [pollFilter, Fields.and_or_self]
  decide

theorem bscPoll_and_eq_zero {s : Sys} {events : UInt32} :
    bscPoll s &&& pollFilter events = 0 ↔ s.bsc.dead = false ∧
      (s.bsc.rxCount = 0 ∨ (epollIn ||| epollRdNorm) &&& pollFilter events = 0) ∧
      (s.bsc.workerPending = false ∨ (epollOut ||| epollWrNorm) &&& pollFilter events = 0) := by
  unfold bscPoll
  cases hd : s.bsc.dead with
  | true =>
    rw [if_pos rfl]
    exact ⟨fun h => absurd h (pollFilter_dead events), fun h => (by cases h.1)⟩
  | false =>
    rw [if_neg (by decide), Fields.or_and_eq_zero]
    constructor
    · rintro ⟨hin, hout⟩
      refine ⟨rfl, ?_, ?_⟩
      · by_cases hc : s.bsc.rxCount = 0
        · exact .inl hc
        · rw [if_pos hc] at hin
          exact .inr hin
      · cases hp : s.bsc.workerPending with
        | false => exact .inl rfl
        | true =>
          rw [hp, if_pos rfl] at hout
          exact .inr hout
    · rintro ⟨-, hin, hout⟩
      constructor
      · split_ifs with hc
        · exact hin.resolve_left hc
        · exact UInt32.zero_and
      · split_ifs with hp
        · exact hout.resolve_left (by simp [hp])
        · exact UInt32.zero_and

/-! ## Nobody sleeps who should be up -/

/-- What a waiter waits for has not come, as far as it is woken for it. -/
def Waiter.Rightly (s : Sys) : Waiter → Prop
  | .reader => s.bsc.dead = false ∧ s.bsc.rxCount = 0
  | .poller events since =>
    s.bsc.dead = false ∧
      (s.bsc.rxCount = 0 ∨ (epollIn ||| epollRdNorm) &&& pollFilter events = 0) ∧
      since ≤ handed s.log ∧ (handed s.log = since → bscPoll s &&& pollFilter events = 0)

theorem Waiter.Rightly.stirs {s t : Sys} {w : Waiter} (h : Stirs s t)
    (hr : (records t.log).length ≤ (records s.log).length) (hw : w.Rightly s) : w.Rightly t := by
  have hcount : t.bsc.rxCount ≤ s.bsc.rxCount := h.count (Nat.le_antisymm hr h.records)
  cases w with
  | reader => exact ⟨h.dead.trans hw.1, Nat.le_zero.mp (hw.2 ▸ hcount)⟩
  | poller events since =>
    obtain ⟨hd, hin, hsince, hmask⟩ := hw
    have hin' : t.bsc.rxCount = 0 ∨ (epollIn ||| epollRdNorm) &&& pollFilter events = 0 :=
      hin.imp_left fun h0 => by omega
    refine ⟨h.dead.trans hd, hin', hsince.trans h.handed, fun he => ?_⟩
    have hsame : handed s.log = since := Nat.le_antisymm (he ▸ h.handed) hsince
    obtain ⟨-, -, hout⟩ := bscPoll_and_eq_zero.mp (hmask hsame)
    refine bscPoll_and_eq_zero.mpr ⟨h.dead.trans hd, hin', hout.imp_left fun hp => ?_⟩
    cases ht : t.bsc.workerPending with
    | false => rfl
    | true => exact absurd (h.pending (he.trans hsame.symm) ht) (by simp [hp])

/-- All who sleep do so rightly. -/
def WaitQueue.Settled (v : WaitQueue) : Prop := ∀ w ∈ v.asleep, w.Rightly v.sys

namespace WaitQueue.Settled

variable {v : WaitQueue}

theorem move (h : v.Settled) {s : Sys} {removed : Bool} (hs : removed = false → Stirs v.sys s) :
    (v.move s removed).Settled := by
  unfold WaitQueue.move
  split_ifs with hwake
  · exact fun w hw => by cases hw
  · obtain ⟨hremoved, hrecords⟩ := not_or.mp hwake
    exact fun w hw => (h w hw).stirs (hs (eq_false_of_ne_true hremoved)) (Nat.le_of_not_lt hrecords)

theorem step (h : v.Settled) (d : Doing) : (v.step d).Settled := by
  cases d with
  | background b =>
    refine h.move fun hb => ?_
    obtain ⟨c, -, -, hc⟩ := b.perform_exec hb v.sys
    rw [hc]
    exact stirs_exec v.sys c
  | write w => exact h.move fun _ => stirs_exec v.sys (.write w)
  | recover => exact h.move fun _ => stirs_exec v.sys .recover
  | read r =>
    have hstirs : Stirs v.sys (bscReadMessage r v.sys).2 := stirs_exec v.sys (.read r)
    simp only [WaitQueue.step]
    split_ifs with hasleep
    · have hslept : (bscReadMessage r v.sys).2 = v.sys ∧ v.sys.bsc.dead = false ∧
          v.sys.bsc.rxCount = 0 := by
        unfold bscReadMessage at hasleep ⊢
        dsimp only at hasleep ⊢
        split_ifs at hasleep ⊢ with hl hd hc
        exact ⟨rfl, by simpa using hd, hc⟩
      rw [hslept.1]
      intro w hw
      rcases List.mem_cons.mp hw with rfl | hw
      · exact hslept.2
      · exact h w hw
    · exact h.move fun _ => hstirs
  | poll events =>
    simp only [WaitQueue.step]
    split_ifs with hzero
    · intro w hw
      rcases List.mem_cons.mp hw with rfl | hw
      · obtain ⟨hd, hin, -⟩ := bscPoll_and_eq_zero.mp hzero
        exact ⟨hd, hin, Nat.le_refl _, fun _ => hzero⟩
      · exact h w hw
    · exact h
  | leave w => exact fun w' hw' => h w' (List.mem_of_mem_erase hw')

theorem run (h : v.Settled) (doings : List Doing) : (v.run doings).Settled := by
  induction doings generalizing v with
  | nil => exact h
  | cons d doings ih => exact ih (h.step d)

end WaitQueue.Settled

/-- However tasks come to sleep beside the driver's work, its calls and its removal: no `read`
sleeps while a record is queued or after the removal, and no poll sleeps through anything that it is
for, unless requests have been handed out since it looked, and then through nothing but EPOLLOUT. -/
theorem sleepers_rightly (s : Sys) (doings : List Doing) :
    let v := (⟨s, []⟩ : WaitQueue).run doings
    ∀ w ∈ v.asleep, w.Rightly v.sys :=
  WaitQueue.Settled.run (v := ⟨s, []⟩) (fun w hw => by cases hw) doings

/-- A task polls for EPOLLOUT while a request is queued, and another task reads the request. -/
def oversleeping : List Doing :=
  [.background (.bus (.byte 7)), .background .timer, .poll epollOut,
    .read ⟨8192, true, false, false, false⟩]

theorem sleepers_rightly_poller : (Waiter.poller epollOut 0).Rightly
    ((⟨openSession (bscProbe true), []⟩ : WaitQueue).run oversleeping).sys :=
  sleepers_rightly (openSession (bscProbe true)) oversleeping (.poller epollOut 0)
    (by decide +kernel)

/-- The exception is real: the read does not wake the poll that it makes due. -/
example :
    let v := (⟨openSession (bscProbe true), []⟩ : WaitQueue).run oversleeping
    v.asleep = [.poller epollOut 0] ∧ bscPoll v.sys &&& pollFilter epollOut ≠ 0 := by
  decide +kernel

end BscTarget
