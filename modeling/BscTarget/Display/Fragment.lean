import BscTarget.Display.Lookahead
import BscTarget.Lib.Reader

/-!
# Fragmentation

The parser is an incremental reader: its turns emit updates and framebuffers, and more input does
not change the turns it has taken. So what `DisplayRuntime` presents and counts does not depend on
how its input was cut into chunks.
-/

namespace BscTarget

/-! ## Updates add up -/

namespace ParseUpdate

def plus (u v : ParseUpdate) : ParseUpdate where
  completedFrames := u.completedFrames + v.completedFrames
  partialFrameBoundary := u.partialFrameBoundary || v.partialFrameBoundary
  discardedBytes := u.discardedBytes + v.discardedBytes
  displayUpdates := u.displayUpdates + v.displayUpdates

@[simp] theorem plus_none (u : ParseUpdate) : u.plus .none = u := by
  cases u
  simp [plus, ParseUpdate.none]

@[simp] theorem none_plus (u : ParseUpdate) : ParseUpdate.none.plus u = u := by
  cases u
  simp [plus, ParseUpdate.none]

theorem plus_assoc (u v w : ParseUpdate) : (u.plus v).plus w = u.plus (v.plus w) := by
  simp only [plus, Nat.add_assoc, Bool.or_assoc]

@[simp] theorem present_plus (u v : ParseUpdate) :
    (u.plus v).present = (u.present || v.present) := by
  rw [Bool.eq_iff_iff]
  simp only [present, plus, Bool.or_eq_true, decide_eq_true_eq, Nat.add_pos_iff_pos_or_pos]
  tauto

end ParseUpdate

namespace DisplayParser

/-- The same turn when `u` was counted before it. -/
def charge (u : ParseUpdate) (r : Progress) : Progress := (r.1, u.plus r.2.1, r.2.2)

@[simp] theorem charge_none (u : ParseUpdate) (b : Bool) (p : DisplayParser) :
    charge u (b, .none, p) = (b, u, p) := by
  rw [charge, ParseUpdate.plus_none]

theorem scanSsd1306_charge (u : ParseUpdate) (p : DisplayParser) :
    p.scanSsd1306 u = (p.scanSsd1306 .none).map (charge u) := by
  unfold scanSsd1306
  dsimp only
  split_ifs
  all_goals try cases addressWindow (p.byte 2) (p.byte 3) (p.byte 4) (p.byte 5) (p.byte 6)
  all_goals simp only [Option.map_some, Option.map_none, charge_none]

theorem scanPageCommand_charge (u : ParseUpdate) (p : DisplayParser) :
    p.scanPageCommand u = (p.scanPageCommand .none).map (charge u) := by
  unfold scanPageCommand
  cases pageRange (p.byte 2) (p.byte 3) (p.byte 4) (p.byte 5)
  all_goals
    dsimp only
    split_ifs
    all_goals simp [charge, ParseUpdate.plus, ParseUpdate.none]

theorem scanSh1106_charge (u : ParseUpdate) (p : DisplayParser) :
    p.scanSh1106 u = (p.scanSh1106 .none).map (charge u) := by
  unfold scanSh1106
  rw [scanPageCommand_charge]
  cases p.scanPageCommand .none
  all_goals
    dsimp only
    split_ifs
    all_goals simp [charge_none]

theorem scan_charge (u : ParseUpdate) (p : DisplayParser) :
    p.scan u = charge u (p.scan .none) := by
  have hdiscard : p.discard u = charge u (p.discard .none) := by
    unfold discard
    split_ifs
    · rw [charge_none]
    · simp [charge, ParseUpdate.plus, ParseUpdate.none]
  have hfound : ∀ found : Option Progress,
      (found.map (charge u)).getD (charge u (p.discard .none)) =
        charge u (found.getD (p.discard .none)) := by
    intro found
    cases found <;> rfl
  unfold scan
  rw [scanSsd1306_charge, scanSh1106_charge, hdiscard, hfound, hfound]
  cases p.controller <;> rfl

/-- A turn adds to the update it is given. -/
theorem advance_charge (u : ParseUpdate) (p : DisplayParser) :
    p.advance u = charge u (p.advance .none) := by
  unfold advance
  cases p.state with
  | scan => exact scan_charge u p
  | ssd1306Data w =>
    dsimp only [readSsd1306Data]
    split_ifs
    all_goals simp [charge, ParseUpdate.plus, ParseUpdate.none]
  | sh1106PageData page span =>
    dsimp only [readSh1106PageData]
    split_ifs
    all_goals simp [charge, ParseUpdate.plus, ParseUpdate.none]

/-! ## The parser as a reader -/

instance (r : Progress) : Decidable (Goes r) := inferInstanceAs (Decidable (_ ∨ _))

/-- A parser that waits for input, as every push of the runtime leaves it (`push_drained`). -/
def Drained (p : DisplayParser) : Prop := ¬ Goes (p.advance .none)

instance (p : DisplayParser) : Decidable p.Drained := inferInstanceAs (Decidable (¬ _))

/-- What a turn emits: its update, and the framebuffer behind it. -/
abbrev Emission := ParseUpdate × Framebuffer

def emitStep (p : DisplayParser) : Option (DisplayParser × Emission) :=
  let r := p.advance .none
  if Goes r then some (r.2.2, r.2.1, r.2.2.framebuffer) else none

theorem emitStep_extend {s s' : DisplayParser} {o : Emission} (q : List UInt8)
    (h : s.emitStep = some (s', o)) : (s.extend q).emitStep = some (s'.extend q, o) := by
  unfold emitStep at h ⊢
  dsimp only at h ⊢
  split_ifs at h with hgoes
  obtain ⟨hlater, -⟩ := (advance_turn s q).goes hgoes
  cases h
  rw [hlater, if_pos (show Goes (later q _) from hgoes)]
  rfl

def reader : Reader DisplayParser UInt8 Emission where
  extend := extend
  extend_nil := fun p => by simp only [extend, List.append_nil]
  extend_append := fun p q q' => by simp only [extend, List.append_assoc]
  step := emitStep
  stable := emitStep_extend

theorem emitStep_goes {p : DisplayParser} (h : Goes (p.advance .none)) :
    reader.step p = some ((p.advance .none).2.2, (p.advance .none).2.1,
      (p.advance .none).2.2.framebuffer) :=
  if_pos h

theorem emitStep_drained {p : DisplayParser} : reader.step p = none ↔ p.Drained := by
  show emitStep p = none ↔ _
  unfold emitStep Drained
  dsimp only
  split_ifs with h
  · exact iff_of_false (by simp) (not_not_intro h)
  · exact iff_of_true rfl h

/-- The sum of the updates. -/
def total : List Emission → ParseUpdate
  | [] => .none
  | o :: os => o.1.plus (total os)

/-- The framebuffers at a frame or a boundary. -/
def snapshots (os : List Emission) : List Framebuffer :=
  (os.filter fun o => o.1.present).map Prod.snd

theorem total_append (os os' : List Emission) :
    total (os ++ os') = (total os).plus (total os') := by
  induction os with
  | nil => exact (ParseUpdate.none_plus _).symm
  | cons o os ih => rw [List.cons_append, total, total, ih, ParseUpdate.plus_assoc]

theorem snapshots_append (os os' : List Emission) :
    snapshots (os ++ os') = snapshots os ++ snapshots os' := by
  rw [snapshots, List.filter_append, List.map_append]
  rfl

/-- A push that reads on from `p` to `p'` emits `os` and sums it up in `update`. -/
structure Pushed (p p' : DisplayParser) (update : ParseUpdate) (os : List Emission) : Prop where
  sums : update = total os
  reads : ∀ os' t, Reads reader p' os' t → Reads reader p (os ++ os') t
  shows : snapshots os = if update.present then [p'.framebuffer] else []
  shrinks : update.present = true → p'.size < p.size
  drains : update.present = false → p'.Drained

theorem pushLoop_pushed {fuel : ℕ} {u : ParseUpdate} {p : DisplayParser} (h : p.size < fuel)
    (hu : u.present = false) :
    ∃ update p' os, pushLoop fuel u p = (u.plus update, p') ∧ Pushed p p' update os := by
  induction fuel generalizing u p with
  | zero => omega
  | succ fuel ih =>
    rw [pushLoop, advance_charge]
    by_cases hgoes : Goes (p.advance .none)
    · obtain ⟨-, hsize⟩ := (advance_turn p []).goes hgoes
      have hstep := emitStep_goes hgoes
      generalize p.advance .none = r at hgoes hsize hstep ⊢
      obtain ⟨progressed, update, p'⟩ := r
      dsimp only [charge] at hsize hstep ⊢
      rw [ParseUpdate.present_plus, hu, Bool.false_or]
      cases hpresent : update.present with
      | true =>
        refine ⟨update, p', [(update, p'.framebuffer)], rfl, ?_, ?_, ?_, ?_, ?_⟩
        · exact (ParseUpdate.plus_none _).symm
        · exact fun os' t ht => .next hstep ht
        · simp [snapshots, hpresent]
        · exact fun _ => hsize
        · exact fun h => by rw [hpresent] at h; cases h
      | false =>
        have hprogressed : progressed = true := hgoes.resolve_right (by simp [hpresent])
        obtain ⟨update', p'', os, hloop, hpushed⟩ :=
          ih (u := u.plus update) (p := p') (by omega) (by simp [hu, hpresent])
        rw [if_neg Bool.false_ne_true, if_pos hprogressed, hloop]
        refine ⟨update.plus update', p'', (update, p'.framebuffer) :: os, ?_, ?_, ?_, ?_, ?_, ?_⟩
        · rw [ParseUpdate.plus_assoc]
        · rw [total, hpushed.sums]
        · exact fun os' t ht => .next hstep (hpushed.reads os' t ht)
        · simp [snapshots, hpresent, ← hpushed.shows]
        · exact fun h => (hpushed.shrinks (by simpa [hpresent] using h)).trans hsize
        · exact fun h => hpushed.drains (by simpa [hpresent] using h)
    · rw [(advance_turn p []).waits hgoes, charge_none]
      dsimp only
      rw [hu, if_neg Bool.false_ne_true, if_neg Bool.false_ne_true]
      refine ⟨.none, p, [], ?_, rfl, fun os' t ht => ht, rfl, ?_, fun _ => hgoes⟩
      · rw [ParseUpdate.plus_none]
      · exact fun h => by cases h

theorem push_pushed (p : DisplayParser) (input : List UInt8) :
    ∃ os, Pushed (p.extend input) (p.push input).2 (p.push input).1 os := by
  obtain ⟨update, p', os, hpush, hpushed⟩ :=
    pushLoop_pushed (u := .none) (Nat.lt_succ_self (p.extend input).size) rfl
  rw [ParseUpdate.none_plus] at hpush
  rw [push, hpush]
  exact ⟨os, hpushed⟩

end DisplayParser

namespace DisplayRuntime

open DisplayParser

variable {r : DisplayRuntime} {os os' : List Emission} {p p' : DisplayParser}

/-- The runtime once `os` is counted and presented. -/
def after (r : DisplayRuntime) (os : List Emission) (p : DisplayParser) : DisplayRuntime where
  parser := p
  renders := r.renders ++ snapshots os
  completedFrames := r.completedFrames + (total os).completedFrames
  discardedBytes := r.discardedBytes + (total os).discardedBytes
  displayUpdates := r.displayUpdates + (total os).displayUpdates

theorem after_nil (r : DisplayRuntime) : r.after [] r.parser = r := by
  simp [after, snapshots, total, ParseUpdate.none]

theorem after_append : (r.after os p).after os' p' = r.after (os ++ os') p' := by
  simp [after, snapshots_append, total_append, ParseUpdate.plus, Nat.add_assoc]

theorem absorb_pushed {update : ParseUpdate} (h : Pushed p p' update os) :
    r.absorb update p' = r.after os p' := by
  unfold absorb after
  rw [h.shows, h.sums]
  split_ifs
  · rfl
  · rw [List.append_nil]

theorem pushLoop_reads {fuel : ℕ} {input : List UInt8}
    (h : (r.parser.extend input).size < fuel) :
    ∃ os p', Reads reader (r.parser.extend input) os p' ∧
      pushLoop fuel input r = r.after os p' := by
  induction fuel generalizing r input with
  | zero => omega
  | succ fuel ih =>
    obtain ⟨os, hpushed⟩ := push_pushed r.parser input
    rw [pushLoop]
    dsimp only
    rw [absorb_pushed hpushed]
    by_cases hpresent : (r.parser.push input).1.present = true
    · have hsize := hpushed.shrinks hpresent
      have hnil : (r.parser.push input).2.extend [] = (r.parser.push input).2 := reader.extend_nil _
      have hfuel : ((r.after os (r.parser.push input).2).parser.extend []).size < fuel := by
        show ((r.parser.push input).2.extend []).size < fuel
        rw [hnil]
        omega
      obtain ⟨os', p', hreads, hloop⟩ := ih hfuel
      refine ⟨os ++ os', p', hpushed.reads os' p' ?_, ?_⟩
      · rw [← hnil]
        exact hreads
      · rw [if_pos hpresent, hloop, after_append]
    · have hdrained := hpushed.drains (Bool.eq_false_iff.mpr hpresent)
      refine ⟨os, (r.parser.push input).2, ?_, if_neg hpresent⟩
      have hreads := hpushed.reads [] _ (.wait (emitStep_drained.mpr hdrained))
      rwa [List.append_nil] at hreads

theorem push_reads (r : DisplayRuntime) (input : List UInt8) :
    ∃ os p', Reads reader (r.parser.extend input) os p' ∧ r.push input = r.after os p' :=
  pushLoop_reads (Nat.lt_succ_self _)

/-- A runtime starts drained, and every push leaves it so. -/
theorem start_drained (controller : DisplayController) : (start controller).parser.Drained := by
  cases controller <;> decide

theorem push_drained (r : DisplayRuntime) (input : List UInt8) :
    (r.push input).parser.Drained := by
  obtain ⟨os, p', hreads, hpush⟩ := push_reads r input
  rw [hpush]
  exact emitStep_drained.mp hreads.waits

theorem pushes_drained (r : DisplayRuntime) (hr : r.parser.Drained) (chunks : List (List UInt8)) :
    (chunks.foldl (fun r chunk => r.push chunk) r).parser.Drained := by
  induction chunks generalizing r with
  | nil => exact hr
  | cons chunk chunks ih => exact ih (r.push chunk) (push_drained r chunk)

theorem pushes_feed (r : DisplayRuntime) (chunks : List (List UInt8)) :
    ∃ os p', Feeds reader r.parser chunks os p' ∧
      chunks.foldl (fun r chunk => r.push chunk) r = r.after os p' := by
  induction chunks generalizing r with
  | nil => exact ⟨[], r.parser, .nil _, r.after_nil.symm⟩
  | cons chunk chunks ih =>
    obtain ⟨os, p, hreads, hpush⟩ := push_reads r chunk
    obtain ⟨os', p', hfeeds, hpushes⟩ := ih (r.push chunk)
    refine ⟨os ++ os', p', .cons hreads ?_, ?_⟩
    · rw [hpush] at hfeeds
      exact hfeeds
    · rw [List.foldl_cons, hpushes, hpush, after_append]

/-- Pushes in chunks read what one push of all of it reads. -/
theorem pushes_reads (r : DisplayRuntime) (hr : r.parser.Drained) (chunks : List (List UInt8)) :
    ∃ os p', Reads reader (r.parser.extend chunks.flatten) os p' ∧
      chunks.foldl (fun r chunk => r.push chunk) r = r.after os p' := by
  obtain ⟨os, p', hfeeds, hpushes⟩ := pushes_feed r chunks
  exact ⟨os, p', hfeeds.reads (emitStep_drained.mpr hr), hpushes⟩

/-- What the display presents, counts and remembers does not depend on how its input was cut into
chunks. -/
theorem fragmentation (r : DisplayRuntime) (hr : r.parser.Drained) (chunks : List (List UInt8)) :
    chunks.foldl (fun r chunk => r.push chunk) r = r.push chunks.flatten := by
  obtain ⟨os, p, hfed, hpushes⟩ := pushes_reads r hr chunks
  obtain ⟨os', p', hreads, hpush⟩ := push_reads r chunks.flatten
  obtain ⟨rfl, rfl⟩ := hfed.unique hreads
  rw [hpushes, hpush]

/-- A page command of the SH1106 that arrives in four pieces, one of them empty. -/
theorem fragmentation_page :
    [[0x00], [0xb0, 0x02], [], [0x10, 0x40, 0x40]].foldl (fun r chunk => r.push chunk)
      (start .sh1106) = (start .sh1106).push [0x00, 0xb0, 0x02, 0x10, 0x40, 0x40] :=
  fragmentation (start .sh1106) (start_drained .sh1106)
    [[0x00], [0xb0, 0x02], [], [0x10, 0x40, 0x40]]

end DisplayRuntime

end BscTarget
