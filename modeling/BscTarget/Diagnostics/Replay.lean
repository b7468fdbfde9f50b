import BscTarget.Diagnostics.Vectors

/-!
# Replaying vectors

The loop of the diagnostic `controller.c`: it writes the vectors of a file to the bus one by one and
stops at the first write that fails, latching the marker before anything else. Each vector is
written once, in its order and whole, and nothing is written after the marker (`replay_exact`).
-/

namespace BscTarget

def einval : ℕ := 22
def eio : ℕ := 5

/-- What `write` to the bus returned, and `errno` behind it. -/
structure Written where
  length : ℤ
  errno : ℕ
  deriving DecidableEq

/-- A line of `transfers.jsonl`, without its times but for whether `marker_ns` is one. -/
structure Transfer where
  index : UInt32
  bytes : ℕ
  written : ℤ
  errno : ℕ
  marked : Bool
  markerRc : ℤ
  deriving DecidableEq

/-- The variables of the loop, the vectors written so far, whether the marker was set, the file
that keeps the request it was set for (the failed one or the snapshot), and the log. -/
structure Replay where
  input : Bytes
  index : UInt32
  completed : UInt64
  total : UInt64
  error : ℕ
  sent : List Bytes
  marked : Bool
  kept : Option (Bool × Bytes)
  log : List Transfer
  deriving DecidableEq

namespace Replay

def start (file : Bytes) : Replay where
  input := file
  index := 0
  completed := 0
  total := 0
  error := 0
  sent := []
  marked := false
  kept := none
  log := []

/-- What the bus makes of each write in turn, what `mark_error` returns, the option, and `stopped`
as the loop finds it before each write. -/
structure Setting where
  bus : ℕ → Written
  marker : ℤ
  snapshotAfter : UInt32
  stopped : ℕ → Bool

variable (c : Setting)

/-- What this write returns. -/
def written (r : Replay) : Written := c.bus r.sent.length

/-- `snapshot`, which is an `int` in the source. -/
def snapshot (r : Replay) : Bool := c.snapshotAfter ≠ 0 ∧ r.index + 1 = c.snapshotAfter

/-- A write that returned anything but the size of its vector. -/
def short (data : Bytes) (r : Replay) : Bool := (written c r).length ≠ data.length

/-- The error of a write that was short. -/
def errorOf (w : Written) : ℕ := if w.errno ≠ 0 then w.errno else eio

/-- The write of a vector, up to the test of `error`. -/
def transfer (data rest : Bytes) (r : Replay) : Replay :=
  let w := written c r
  let error := if short c data r then errorOf w else r.error
  let marks := short c data r || snapshot c r
  { r with
    input := rest
    error := error
    sent := r.sent ++ [data]
    marked := r.marked || marks
    kept := if marks then some (decide (error ≠ 0), data) else r.kept
    log := r.log ++
      [⟨r.index, data.length, w.length, w.errno, marks, if marks then c.marker else 0⟩] }

/-- `completed++; total += size; index++` -/
def complete (data : Bytes) (r : Replay) : Replay :=
  { r with
    index := r.index + 1
    completed := r.completed + 1
    total := r.total + UInt64.ofNat data.length }

/-- The body of the loop, and whether the loop goes on. -/
def round (r : Replay) : Bool × Replay :=
  match nextVector r.input with
  | .done => (false, r)
  | .invalid => (false, { r with error := einval })
  | .vector data rest =>
    let t := transfer c data rest r
    if t.error ≠ 0 then (false, t)
    else (!snapshot c r, complete data t)

def loop : ℕ → Replay → Replay
  | 0, r => r
  | fuel + 1, r =>
    if c.stopped r.sent.length then r
    else
      let (goes, r) := round c r
      if goes then loop fuel r else r

/-- Every round takes five bytes at least, so the length of the file is enough. -/
def replay (file : Bytes) : Replay := loop c (file.length + 1) (start file)

/-! ## The log -/

/-- The line of the write at a place in `vs`. -/
def line (vs : List Bytes) (marks : Bool) (i : ℕ) : Transfer where
  index := UInt32.ofNat i
  bytes := (vs.getD i []).length
  written := (c.bus i).length
  errno := (c.bus i).errno
  marked := marks
  markerRc := if marks then c.marker else 0

/-- One line for each of the first `n` writes; the last one says whether the marker was set. -/
def lines (vs : List Bytes) (n : ℕ) (marked : Bool) : List Transfer :=
  (List.range n).map fun i => line c vs (marked && decide (i + 1 = n)) i

variable {c} {file data rest : Bytes} {r : Replay}

/-- Lines are about the vectors written, whatever follows these. -/
theorem lines_append (vs more : List Bytes) {n : ℕ} (hn : n ≤ vs.length) (marked : Bool) :
    lines c (vs ++ more) n marked = lines c vs n marked := by
  refine List.map_congr_left fun i hi => ?_
  have hlt : i < vs.length := (List.mem_range.mp hi).trans_le hn
  rw [line, line, List.getD_append _ _ _ _ hlt]

theorem lines_concat (vs : List Bytes) (data : Bytes) (marked : Bool) :
    lines c (vs ++ [data]) (vs ++ [data]).length marked =
      lines c vs vs.length false ++ [line c (vs ++ [data]) marked vs.length] := by
  rw [← lines_append vs [data] (Nat.le_refl _), List.length_append, List.length_singleton]
  unfold lines
  rw [List.range_succ, List.map_append, List.map_singleton, decide_eq_true rfl, Bool.and_true]
  refine congrArg (· ++ _) (List.map_congr_left fun i hi => ?_)
  have hlt : i < vs.length := List.mem_range.mp hi
  rw [decide_eq_false (by omega), Bool.and_false, Bool.false_and]

/-! ## While the loop goes on -/

/-- What the loop keeps while no write has failed and the snapshot is not due. -/
structure Running (c : Setting) (file : Bytes) (r : Replay) : Prop where
  sendable : ∀ v ∈ r.sent, Sendable v
  file : file = packs r.sent ++ r.input
  index : r.index = UInt32.ofNat r.sent.length
  completed : r.completed = UInt64.ofNat r.sent.length
  total : r.total = UInt64.ofNat r.sent.flatten.length
  whole : ∀ i < r.sent.length, (c.bus i).length = (r.sent.getD i []).length
  early : c.snapshotAfter ≠ 0 → r.sent.length < c.snapshotAfter.toNat
  error : r.error = 0
  marked : r.marked = false
  kept : r.kept = none
  log : r.log = lines c r.sent r.sent.length false

namespace Running

theorem start (file : Bytes) : Running c file (start file) where
  sendable := fun v hv => by cases hv
  file := rfl
  index := rfl
  completed := rfl
  total := rfl
  whole := fun i hi => absurd hi (Nat.not_lt_zero i)
  early := fun hne => Nat.pos_of_ne_zero fun h => hne (UInt32.toNat_inj.mp h)
  error := rfl
  marked := rfl
  kept := rfl
  log := rfl

/-- The vectors written, with one more. -/
theorem file_concat (h : Running c file r) (hn : nextVector r.input = .vector data rest) :
    (∀ v ∈ r.sent ++ [data], Sendable v) ∧ file = packs (r.sent ++ [data]) ++ rest := by
  obtain ⟨hdata, hinput⟩ := pack_of_nextVector hn
  refine ⟨fun v hv => ?_, ?_⟩
  · rcases List.mem_append.mp hv with hv | hv
    · exact h.sendable v hv
    · rw [List.mem_singleton.mp hv]
      exact hdata
  · rw [packs_append, List.append_assoc, show packs [data] = pack data from List.append_nil _,
      ← hinput]
    exact h.file

/-- All writes so far were whole, also the one that `short` says was not short. -/
theorem whole_concat (h : Running c file r) (hs : short c data r = false) :
    ∀ i < (r.sent ++ [data]).length, (c.bus i).length = ((r.sent ++ [data]).getD i []).length := by
  intro i hi
  rw [List.length_append, List.length_singleton] at hi
  by_cases hlt : i < r.sent.length
  · rw [List.getD_append _ _ _ _ hlt]
    exact h.whole i hlt
  · obtain rfl : i = r.sent.length := by omega
    rw [List.getD_append_right _ _ _ _ (Nat.le_refl _), Nat.sub_self]
    exact not_not.mp (of_decide_eq_false hs)

/-- The log with the line of one more write. -/
theorem log_concat (h : Running c file r) (data : Bytes) (marked : Bool) :
    r.log ++ [⟨r.index, data.length, (written c r).length, (written c r).errno, marked,
        if marked then c.marker else 0⟩] =
      lines c (r.sent ++ [data]) (r.sent ++ [data]).length marked := by
  rw [lines_concat, h.log, h.index, line, List.getD_append_right _ _ _ _ (Nat.le_refl _),
    Nat.sub_self]
  rfl

/-- The snapshot is due at the write that makes their number that of the option. -/
theorem snapshot_iff (h : Running c file r) :
    snapshot c r = true ↔ c.snapshotAfter ≠ 0 ∧ r.sent.length + 1 = c.snapshotAfter.toNat := by
  have hnext : r.index + 1 = UInt32.ofNat (r.sent.length + 1) := by
    rw [h.index, UInt32.ofNat_add]
    rfl
  have hbound := c.snapshotAfter.toNat_lt
  unfold snapshot
  rw [decide_eq_true_iff, hnext]
  refine and_congr_right fun hne => ?_
  have hlt := h.early hne
  rw [← UInt32.toNat_inj, UInt32.toNat_ofNat', Nat.mod_eq_of_lt (by omega)]

/-- The counters with one more vector. -/
theorem counters_concat (h : Running c file r) (data : Bytes) :
    r.index + 1 = UInt32.ofNat (r.sent ++ [data]).length ∧
      r.completed + 1 = UInt64.ofNat (r.sent ++ [data]).length ∧
      r.total + UInt64.ofNat data.length = UInt64.ofNat (r.sent ++ [data]).flatten.length := by
  refine ⟨?_, ?_, ?_⟩
  · rw [h.index, List.length_append, UInt32.ofNat_add]
    rfl
  · rw [h.completed, List.length_append, UInt64.ofNat_add]
    rfl
  · rw [h.total, List.flatten_append, List.length_append, UInt64.ofNat_add,
      List.flatten_singleton]

theorem step (h : Running c file r) (hn : nextVector r.input = .vector data rest)
    (hs : short c data r = false) (hp : snapshot c r = false) :
    Running c file (complete data (transfer c data rest r)) := by
  obtain ⟨hsendable, hfile⟩ := h.file_concat hn
  obtain ⟨hindex, hcompleted, htotal⟩ := h.counters_concat data
  have hlog := h.log_concat data false
  have hearly : c.snapshotAfter ≠ 0 → (r.sent ++ [data]).length < c.snapshotAfter.toNat := by
    intro hne
    have hlt := h.early hne
    have hnot : r.sent.length + 1 ≠ c.snapshotAfter.toNat := fun heq =>
      ne_true_of_eq_false hp (h.snapshot_iff.mpr ⟨hne, heq⟩)
    rw [List.length_append, List.length_singleton]
    omega
  unfold complete transfer
  rw [hs, hp]
  refine ⟨hsendable, hfile, hindex, hcompleted, htotal, h.whole_concat hs, hearly, h.error, ?_,
    h.kept, hlog⟩
  rw [h.marked]
  rfl

end Running

/-! ## How it ends -/

/-- The state in which the last round began, and what ended it. -/
inductive Ended (c : Setting) (file : Bytes) : Replay → Prop
  | stopped {r : Replay} (h : Running c file r) (hs : c.stopped r.sent.length = true) :
      Ended c file r
  | done {r : Replay} (h : Running c file r) (hn : nextVector r.input = .done) : Ended c file r
  | invalid {r : Replay} (h : Running c file r) (hn : nextVector r.input = .invalid) :
      Ended c file { r with error := einval }
  | failed {r : Replay} {data rest : Bytes} (h : Running c file r)
      (hn : nextVector r.input = .vector data rest) (hs : short c data r = true) :
      Ended c file (transfer c data rest r)
  | snapped {r : Replay} {data rest : Bytes} (h : Running c file r)
      (hn : nextVector r.input = .vector data rest) (hs : short c data r = false)
      (hp : snapshot c r = true) : Ended c file (complete data (transfer c data rest r))

theorem errorOf_ne_zero (w : Written) : errorOf w ≠ 0 := by
  unfold errorOf
  split_ifs with hzero
  · exact hzero
  · decide

theorem loop_ended {fuel : ℕ} (h : Running c file r) (hf : r.input.length < fuel) :
    Ended c file (loop c fuel r) := by
  induction fuel generalizing r with
  | zero => exact absurd hf (Nat.not_lt_zero _)
  | succ fuel ih =>
    rw [loop]
    by_cases hstop : c.stopped r.sent.length = true
    · rw [if_pos hstop]
      exact .stopped h hstop
    · rw [if_neg hstop, round]
      cases hn : nextVector r.input with
      | done => exact .done h hn
      | invalid => exact .invalid h hn
      | vector data rest =>
        dsimp only
        cases hs : short c data r with
        | true =>
          have herror : (transfer c data rest r).error ≠ 0 := by
            simp only [transfer, hs, if_true]
            exact errorOf_ne_zero _
          rw [if_pos herror]
          exact .failed h hn hs
        | false =>
          have herror : (transfer c data rest r).error = 0 := by
            simp only [transfer, hs]
            exact h.error
          rw [if_neg (not_not.mpr herror)]
          cases hp : snapshot c r with
          | true => exact .snapped h hn hs hp
          | false =>
            have hshorter := length_of_nextVector hn
            exact ih (h.step hn hs hp) (Nat.lt_of_lt_of_le hshorter (Nat.le_of_lt_succ hf))

/-- How far the vectors were written and what is left behind, when `n` of them were completed:
these were written whole and in order, once each; after a write that was short, or at the snapshot,
nothing more was written, the marker was set and the vector is kept; every write has its line in the
log, the marker in that of the last one; and nothing else but a signal ends it before the end. -/
structure Exact (c : Setting) (vs : List Bytes) (n : ℕ) (r : Replay) : Prop where
  sent : r.sent <+: vs
  whole : ∀ i < n, (c.bus i).length = (vs.getD i []).length
  last : r.sent.length = n ∨
    r.sent.length = n + 1 ∧ (c.bus n).length ≠ (vs.getD n []).length
  index : r.index = UInt32.ofNat n
  completed : r.completed = UInt64.ofNat n
  total : r.total = UInt64.ofNat (vs.take n).flatten.length
  error : r.error = if r.sent.length = n then 0 else errorOf (c.bus n)
  marked : r.marked = true ↔
    r.sent.length ≠ n ∨ c.snapshotAfter ≠ 0 ∧ n = c.snapshotAfter.toNat
  kept : r.kept =
    if r.marked then some (decide (r.sent.length ≠ n), r.sent.getLastD []) else none
  log : r.log = lines c vs r.sent.length r.marked
  ended : r.marked = true ∨ c.stopped n = true ∨ r.sent = vs

/-- What was written in a running loop is the beginning of the packed list. -/
theorem Running.unread {vs : List Bytes} (h : Running c (packs vs) r)
    (hv : ∀ v ∈ vs, Sendable v) : ∃ more, vs = r.sent ++ more ∧ r.input = packs more :=
  packs_unique hv h.sendable h.file

theorem Running.exact {vs : List Bytes} (h : Running c (packs vs) r) (hv : ∀ v ∈ vs, Sendable v)
    (he : c.stopped r.sent.length = true ∨ r.sent = vs) : Exact c vs r.sent.length r := by
  obtain ⟨more, rfl, -⟩ := h.unread hv
  refine ⟨List.prefix_append _ _, fun i hi => ?_, .inl rfl, h.index, h.completed, ?_, ?_, ?_, ?_,
    ?_, .inr he⟩
  · rw [List.getD_append _ _ _ _ hi]
    exact h.whole i hi
  · rw [List.take_left]
    exact h.total
  · rw [if_pos rfl]
    exact h.error
  · rw [h.marked]
    refine ⟨fun hm => (by cases hm), fun hm => ?_⟩
    rcases hm with hm | ⟨hne, hm⟩
    · exact absurd rfl hm
    · exact absurd hm (h.early hne).ne
  · rw [h.kept, h.marked]
    rfl
  · rw [h.log, h.marked, lines_append _ _ (Nat.le_refl _)]

theorem nextVector_packs {vs : List Bytes} (hv : ∀ v ∈ vs, Sendable v) :
    nextVector (packs vs) ≠ .invalid ∧ (nextVector (packs vs) = .done → vs = []) := by
  cases vs with
  | nil => exact ⟨by decide, fun _ => rfl⟩
  | cons v vs =>
    rw [packs_cons, nextVector_pack (hv v List.mem_cons_self)]
    exact ⟨fun h => (by cases h), fun h => (by cases h)⟩

/-- The vector of a last round, among the vectors. -/
theorem Running.reading {vs : List Bytes} (h : Running c (packs vs) r)
    (hv : ∀ v ∈ vs, Sendable v) (hn : nextVector r.input = .vector data rest) :
    ∃ more, vs = r.sent ++ [data] ++ more ∧ vs.take r.sent.length = r.sent ∧
      vs.getD r.sent.length [] = data ∧ ∀ i < r.sent.length, vs.getD i [] = r.sent.getD i [] := by
  obtain ⟨hsendable, hfile⟩ := h.file_concat hn
  obtain ⟨more, rfl, -⟩ := packs_unique hv hsendable hfile
  refine ⟨more, rfl, ?_, ?_, fun i hi => ?_⟩
  · rw [List.append_assoc, List.take_left]
  · rw [List.append_assoc, List.getD_append_right _ _ _ _ (Nat.le_refl _), Nat.sub_self]
    rfl
  · rw [List.append_assoc, List.getD_append _ _ _ _ hi]

theorem transfer_failed (hs : short c data r = true) :
    transfer c data rest r = { r with
      input := rest, error := errorOf (written c r), sent := r.sent ++ [data]
      marked := true, kept := some (true, data)
      log := r.log ++
        [⟨r.index, data.length, (written c r).length, (written c r).errno, true, c.marker⟩] } := by
  have herror := decide_eq_true (errorOf_ne_zero (written c r))
  unfold transfer
  rw [hs, Bool.true_or]
  dsimp only
  rw [Bool.or_true]
  show Replay.mk _ _ _ _ _ _ _ (some (decide (errorOf (written c r) ≠ 0), data)) _ = _
  rw [herror]
  rfl

theorem transfer_snapped (hs : short c data r = false) (hp : snapshot c r = true)
    (he : r.error = 0) :
    transfer c data rest r = { r with
      input := rest, sent := r.sent ++ [data], marked := true, kept := some (false, data)
      log := r.log ++
        [⟨r.index, data.length, (written c r).length, (written c r).errno, true, c.marker⟩] } := by
  have herror := decide_eq_false (not_not.mpr he)
  unfold transfer
  rw [hs, hp, Bool.false_or]
  dsimp only
  rw [Bool.or_true]
  show Replay.mk _ _ _ _ _ _ _ (some (decide (r.error ≠ 0), data)) _ = _
  rw [herror]
  rfl

theorem Running.exact_failed {vs : List Bytes} (h : Running c (packs vs) r)
    (hv : ∀ v ∈ vs, Sendable v) (hn : nextVector r.input = .vector data rest)
    (hs : short c data r = true) : Exact c vs r.sent.length (transfer c data rest r) := by
  obtain ⟨more, hvs, htake, hdata, hfront⟩ := h.reading hv hn
  have hlen : (r.sent ++ [data]).length = r.sent.length + 1 := by
    rw [List.length_append]
    rfl
  have hne : (r.sent ++ [data]).length ≠ r.sent.length := by omega
  have hshort : (c.bus r.sent.length).length ≠ data.length := of_decide_eq_true hs
  rw [transfer_failed hs]
  refine ⟨⟨more, hvs.symm⟩, fun i hi => ?_, .inr ⟨hlen, by rw [hdata]; exact hshort⟩, h.index,
    h.completed, ?_, ?_, ?_, ?_, ?_, .inl rfl⟩
  · rw [hfront i hi]
    exact h.whole i hi
  · rw [htake]
    exact h.total
  · rw [if_neg hne]
    rfl
  · exact ⟨fun _ => .inl hne, fun _ => rfl⟩
  · rw [if_pos rfl, List.getLastD_concat, decide_eq_true hne]
  · rw [hvs, lines_append _ _ (Nat.le_refl _)]
    exact h.log_concat data true

theorem Running.exact_snapped {vs : List Bytes} (h : Running c (packs vs) r)
    (hv : ∀ v ∈ vs, Sendable v) (hn : nextVector r.input = .vector data rest)
    (hs : short c data r = false) (hp : snapshot c r = true) :
    Exact c vs (r.sent.length + 1) (complete data (transfer c data rest r)) := by
  obtain ⟨more, hvs, -, hdata, hfront⟩ := h.reading hv hn
  obtain ⟨hindex, hcompleted, htotal⟩ := h.counters_concat data
  have hlen : (r.sent ++ [data]).length = r.sent.length + 1 := by
    rw [List.length_append]
    rfl
  obtain ⟨hset, hdue⟩ := h.snapshot_iff.mp hp
  have hlast : (c.bus r.sent.length).length = data.length := not_not.mp (of_decide_eq_false hs)
  have hsent : vs.take (r.sent.length + 1) = r.sent ++ [data] := by
    rw [hvs, ← hlen, List.take_left]
  rw [hlen] at hindex hcompleted
  rw [transfer_snapped hs hp h.error, complete]
  refine ⟨⟨more, hvs.symm⟩, fun i hi => ?_, .inl hlen, hindex, hcompleted, ?_, ?_, ?_, ?_, ?_,
    .inl rfl⟩
  · rcases Nat.lt_succ_iff_lt_or_eq.mp hi with hi | rfl
    · rw [hfront i hi]
      exact h.whole i hi
    · rw [hdata]
      exact hlast
  · rw [hsent]
    exact htotal
  · rw [if_pos hlen]
    exact h.error
  · exact ⟨fun _ => .inr ⟨hset, hdue⟩, fun _ => rfl⟩
  · rw [if_pos rfl, List.getLastD_concat, decide_eq_false (not_not.mpr hlen)]
  · rw [hvs, lines_append _ _ (Nat.le_refl _)]
    exact h.log_concat data true

/-- Vectors that are neither empty nor too long, packed and replayed. -/
theorem exact_packs (c : Setting) {vs : List Bytes} (hv : ∀ v ∈ vs, Sendable v) :
    ∃ n, Exact c vs n (replay c (packs vs)) := by
  have hended : Ended c (packs vs) (replay c (packs vs)) :=
    loop_ended (.start (packs vs)) (Nat.lt_succ_self _)
  generalize replay c (packs vs) = result at hended ⊢
  cases hended with
  | stopped h hs => exact ⟨_, h.exact hv (.inl hs)⟩
  | done h hn =>
    obtain ⟨more, hmore, hinput⟩ := h.unread hv
    rw [hinput] at hn
    have hnil := (nextVector_packs fun v hm => hv v (hmore ▸ List.mem_append_right _ hm)).2 hn
    rw [hnil, List.append_nil] at hmore
    exact ⟨_, h.exact hv (.inr hmore.symm)⟩
  | invalid h hn =>
    obtain ⟨more, hmore, hinput⟩ := h.unread hv
    rw [hinput] at hn
    exact absurd hn (nextVector_packs fun v hm => hv v (hmore ▸ List.mem_append_right _ hm)).1
  | failed h hn hs => exact ⟨_, h.exact_failed hv hn hs⟩
  | snapped h hn hs hp => exact ⟨_, h.exact_snapped hv hn hs hp⟩

end Replay

open Replay in
/-- Whatever the bus makes of the writes, wherever the snapshot is and whenever a signal comes: any
packed list of vectors that are neither empty nor too long is replayed exactly, and so is every file
that the generator writes. -/
theorem replay_exact (c : Setting) :
    (∀ vs : List Bytes, (∀ v ∈ vs, Sendable v) → ∃ n, Exact c vs n (replay c (packs vs))) ∧
    ∀ (rng : Rng) (count : ℕ) (file : Bytes), vectorFile rng count = some file →
      ∃ n, Exact c (frames rng count) n (replay c file) := by
  refine ⟨fun vs hv => exact_packs c hv, fun rng count file hfile => ?_⟩
  unfold vectorFile at hfile
  split_ifs at hfile
  obtain rfl := Option.some.inj hfile
  exact exact_packs c (frames_sendable rng count)

/-- A bus on which the second write is cut short. -/
def cutShort : Replay.Setting where
  bus := fun i => if i = 1 then ⟨1, 121⟩ else ⟨2, 0⟩
  marker := 0
  snapshotAfter := 0
  stopped := fun _ => false

theorem replay_exact_short : ∃ n, Replay.Exact cutShort [[1, 2], [3, 4], [5, 6]] n
    (Replay.replay cutShort (packs [[1, 2], [3, 4], [5, 6]])) :=
  (replay_exact cutShort).1 [[1, 2], [3, 4], [5, 6]] (by decide)

end BscTarget
