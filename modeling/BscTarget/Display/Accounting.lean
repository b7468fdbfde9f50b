import Mathlib.Data.List.Induction
import BscTarget.Display.Moves

/-!
# Accounting for every byte

`Traced` is the record of a parser that is fed and turned in any order, newest move first. Whatever
the stream, the bytes fed are the segments taken and then the pending buffer, the segments form a
stream of the controller, and the counters and the framebuffer say what those segments say
(`Accounted`).
-/

namespace BscTarget

/-! ## Segment streams -/

namespace Segment

def discards : Segment → Bool
  | .discarded _ => true
  | _ => false

def draws : Segment → Bool
  | .payload _ _ => true
  | _ => false

/-- What a segment does to the framebuffer. -/
def apply (f : Framebuffer) : Segment → Framebuffer
  | .payload w data => f.draw w data
  | _ => f

end Segment

/-- The streams of a controller: its patterns, commands that address a window, payloads of the
declared size right behind their command, and single bytes that are dropped. -/
inductive Formed (c : DisplayController) : List Segment → Prop
  | nil : Formed c []
  | pattern {l : List Segment} {bytes : List UInt8} (h : Formed c l) (hb : bytes ∈ patterns c) :
      Formed c (l ++ [.pattern bytes])
  | command {l : List Segment} {bytes : List UInt8} {w : Window} (h : Formed c l)
      (ha : Addresses c bytes w) : Formed c (l ++ [.command bytes w])
  | payload {l : List Segment} {bytes : List UInt8} {w : Window} {data : List UInt8}
      (h : Formed c (l ++ [.command bytes w])) (hd : data.length = w.width * w.pages) :
      Formed c (l ++ [.command bytes w] ++ [.payload w data])
  | discarded {l : List Segment} (h : Formed c l) (byte : UInt8) :
      Formed c (l ++ [.discarded byte])

/-! ## Records of a parser -/

/-- A move and what it emitted. -/
abbrev Turned := Move × DisplayParser.Emission

namespace DisplayParser

/-- From `p₀`, fed `fed` and turned as often as it went on, the parser has made the moves of `log`
and is `p` now. -/
inductive Traced (p₀ : DisplayParser) : List UInt8 → List Turned → DisplayParser → Prop
  | start : Traced p₀ [] [] p₀
  | input {fed : List UInt8} {log : List Turned} {p : DisplayParser} (h : Traced p₀ fed log p)
      (q : List UInt8) : Traced p₀ (fed ++ q) log (p.extend q)
  | turn {fed : List UInt8} {log : List Turned} {p p' : DisplayParser} {m : Move} {o : Emission}
      (h : Traced p₀ fed log p) (hstep : reader.step p = some (p', o)) (hm : Moves p m o.1 p')
      (hf : o.2 = p'.framebuffer) : Traced p₀ fed ((m, o) :: log) p'

variable {p₀ p p' : DisplayParser} {fed : List UInt8} {log : List Turned} {os : List Emission}

/-- What a record emitted, in order. -/
def emitted (log : List Turned) : List Emission := (log.map Prod.snd).reverse

theorem emitted_append (newer older : List Turned) :
    emitted (newer ++ older) = emitted older ++ emitted newer := by
  rw [emitted, List.map_append, List.reverse_append]
  rfl

theorem Traced.emits (h : Traced p₀ fed log p) (he : Emits reader p os p') :
    ∃ newer, Traced p₀ fed (newer ++ log) p' ∧ emitted newer = os := by
  induction he generalizing log with
  | nil => exact ⟨[], h, rfl⟩
  | @cons s s' t o os hstep _ ih =>
    obtain ⟨m, hm, hf⟩ := step_moves hstep
    obtain ⟨newer, ht, hos⟩ := ih (h.turn hstep hm hf)
    refine ⟨newer ++ [(m, o)], ?_, ?_⟩
    · rwa [List.append_assoc]
    · rw [emitted_append, hos]
      rfl

/-! ## Pushes of the parser -/

theorem pushLoop_emits (fuel : ℕ) (u : ParseUpdate) (p : DisplayParser) :
    ∃ os, Emits reader p os (pushLoop fuel u p).2 ∧ (pushLoop fuel u p).1 = u.plus (total os) := by
  induction fuel generalizing u p with
  | zero => exact ⟨[], .nil _, (ParseUpdate.plus_none u).symm⟩
  | succ fuel ih =>
    rw [pushLoop, advance_charge]
    by_cases hgoes : Goes (p.advance .none)
    · have hstep := emitStep_goes hgoes
      generalize p.advance .none = r at hstep ⊢
      obtain ⟨progressed, update, p'⟩ := r
      have hlast : ∃ os, Emits reader p os p' ∧ u.plus update = u.plus (total os) :=
        ⟨_, .single hstep, by rw [total, total, ParseUpdate.plus_none]⟩
      dsimp only [charge]
      split_ifs
      · exact hlast
      · obtain ⟨os, hemits, htotal⟩ := ih (u.plus update) p'
        exact ⟨_, .cons hstep hemits, by rw [htotal, total, ParseUpdate.plus_assoc]⟩
      · exact hlast
    · rw [(advance_turn p []).waits hgoes, charge_none]
      refine ⟨[], ?_, ?_⟩ <;> dsimp only <;> split_ifs
      all_goals first | exact .nil _ | exact (ParseUpdate.plus_none u).symm | contradiction

theorem push_emits (p : DisplayParser) (input : List UInt8) :
    ∃ os, Emits reader (p.extend input) os (p.push input).2 ∧ (p.push input).1 = total os := by
  obtain ⟨os, hemits, htotal⟩ := pushLoop_emits ((p.extend input).size + 1) .none (p.extend input)
  rw [ParseUpdate.none_plus] at htotal
  exact ⟨os, hemits, htotal⟩

/-- A sequence of pushes: the sum of the updates, and the parser behind them. -/
def pushes (chunks : List (List UInt8)) (p : DisplayParser) : ParseUpdate × DisplayParser :=
  chunks.foldl (fun r chunk => (r.1.plus (r.2.push chunk).1, (r.2.push chunk).2)) (.none, p)

theorem total_emitted_append (newer older : List Turned) :
    total (emitted (newer ++ older)) = (total (emitted older)).plus (total (emitted newer)) := by
  rw [emitted_append, total_append]

theorem pushes_traced (chunks : List (List UInt8)) (p : DisplayParser) :
    ∃ log, Traced p chunks.flatten log (p.pushes chunks).2 ∧
      (p.pushes chunks).1 = total (emitted log) := by
  induction chunks using List.reverseRecOn with
  | nil => exact ⟨[], .start, rfl⟩
  | append_singleton chunks chunk ih =>
    obtain ⟨log, htraced, htotal⟩ := ih
    obtain ⟨os, hemits, hpush⟩ := push_emits (p.pushes chunks).2 chunk
    obtain ⟨newer, htraced', hnewer⟩ := (htraced.input chunk).emits hemits
    have hlast : p.pushes (chunks ++ [chunk]) =
        ((p.pushes chunks).1.plus ((p.pushes chunks).2.push chunk).1,
          ((p.pushes chunks).2.push chunk).2) := by
      rw [pushes, List.foldl_append]
      rfl
    refine ⟨newer ++ log, ?_, ?_⟩
    · rw [hlast, List.flatten_append, List.flatten_cons, List.flatten_nil, List.append_nil]
      exact htraced'
    · rw [hlast, total_emitted_append, hnewer, ← htotal, hpush]

/-! ## The account -/

/-- The segments taken, in order. -/
def taken : List Turned → List Segment
  | [] => []
  | (.take segment, _) :: log => taken log ++ [segment]
  | _ :: log => taken log

/-- A data state is behind the command of its window. -/
def Awaits (c : DisplayController) (segs : List Segment) : ParseState → Prop
  | .scan => True
  | .ssd1306Data w => c = .ssd1306 ∧ ∃ l bytes, segs = l ++ [.command bytes w]
  | .sh1106PageData page span =>
    c = .sh1106 ∧ ∃ l bytes, segs = l ++ [.command bytes (span.window page)]

/-- The bytes fed, the counters and the framebuffer, by the segments taken. -/
structure Accounted (c : DisplayController) (fed : List UInt8) (log : List Turned)
    (p : DisplayParser) : Prop where
  controller : p.controller = c
  formed : Formed c (taken log)
  bytes : fed = (taken log).flatMap Segment.bytes ++ p.pending
  discarded : (total (emitted log)).discardedBytes = (taken log).countP Segment.discards
  drawn : (total (emitted log)).displayUpdates = (taken log).countP Segment.draws
  framebuffer : p.framebuffer = (taken log).foldl Segment.apply (Vector.replicate framebufferSize 0)
  awaits : Awaits c (taken log) p.state

/-- A segment is taken off the front of the buffer. -/
theorem Moves.pending {m : Move} {u : ParseUpdate} (h : Moves p m u p') :
    p.pending = m.bytes ++ p'.pending := by
  cases h with
  | pattern _ _ hp => exact hp
  | discard _ hp => exact hp
  | address _ _ hp => exact hp
  | page _ _ _ hp => exact hp
  | boundary => rfl
  | abandon => rfl
  | window _ hp _ => exact hp
  | @span page span data rest hs hp _ =>
    unfold paint
    dsimp only
    split_ifs <;> exact hp

theorem Moves.controller {m : Move} {u : ParseUpdate} (h : Moves p m u p') :
    p'.controller = p.controller := by
  cases h with
  | span => unfold paint; dsimp only; split_ifs <;> rfl
  | _ => rfl

/-- What a move counts. -/
def Move.counts (u : ParseUpdate) : Move → Prop
  | .take segment => u.discardedBytes = (if segment.discards then 1 else 0) ∧
      u.displayUpdates = if segment.draws then 1 else 0
  | _ => u.discardedBytes = 0 ∧ u.displayUpdates = 0

theorem Moves.counts {m : Move} {u : ParseUpdate} (h : Moves p m u p') : Move.counts u m := by
  cases h with
  | window => split_ifs <;> exact ⟨rfl, rfl⟩
  | span => unfold pageUpdate; split_ifs <;> exact ⟨rfl, rfl⟩
  | _ => exact ⟨rfl, rfl⟩

/-- Only a payload draws. -/
theorem Moves.framebuffer {m : Move} {u : ParseUpdate} (h : Moves p m u p') :
    p'.framebuffer = match m with
      | .take segment => segment.apply p.framebuffer
      | _ => p.framebuffer := by
  cases h with
  | span => unfold paint; dsimp only; split_ifs <;> rfl
  | _ => rfl

namespace Accounted

variable {c : DisplayController}

/-- The segment of a move continues the stream. -/
theorem formed_turn {m : Move} {u : ParseUpdate} {o : Emission} (hi : Accounted c fed log p)
    (h : Moves p m u p') :
    Formed c (taken ((m, o) :: log)) ∧ Awaits c (taken ((m, o) :: log)) p'.state := by
  have hc := hi.controller
  cases h with
  | pattern hs hb hp =>
    rw [hc] at hb
    exact ⟨hi.formed.pattern hb, by rw [hs]; trivial⟩
  | discard hs hp => exact ⟨hi.formed.discarded _, by rw [hs]; trivial⟩
  | @address w rest hs hc' hp =>
    rw [hc] at hc'
    subst hc'
    exact ⟨hi.formed.command (.address w), rfl, taken log, _, rfl⟩
  | @page page span bytes rest hs hc' hb hp =>
    rw [hc] at hc'
    subst hc'
    exact ⟨hi.formed.command (.page hb), rfl, taken log, _, rfl⟩
  | boundary hs => exact ⟨hi.formed, by show Awaits _ _ p.state; rw [hs]; trivial⟩
  | abandon => exact ⟨hi.formed, trivial⟩
  | @window w data rest hs hp hd =>
    have hawaits := hi.awaits
    have hformed := hi.formed
    rw [hs] at hawaits
    obtain ⟨-, l, bytes, htaken⟩ := hawaits
    refine ⟨?_, trivial⟩
    show Formed c (taken log ++ [_])
    rw [htaken] at hformed ⊢
    exact hformed.payload hd
  | @span page span data rest hs hp hd =>
    have hawaits := hi.awaits
    have hformed := hi.formed
    rw [hs] at hawaits
    obtain ⟨-, l, bytes, htaken⟩ := hawaits
    refine ⟨?_, ?_⟩
    · show Formed c (taken log ++ [_])
      rw [htaken] at hformed ⊢
      exact hformed.payload (hd.trans (Nat.mul_one _).symm)
    · unfold paint
      dsimp only
      split_ifs <;> trivial

theorem turn {m : Move} {o : Emission} (hi : Accounted c fed log p) (h : Moves p m o.1 p') :
    Accounted c fed ((m, o) :: log) p' := by
  have htotal : total (emitted ((m, o) :: log)) = (total (emitted log)).plus o.1 := by
    rw [← List.singleton_append, total_emitted_append]
    simp [emitted, total]
  obtain ⟨hformed, hawaits⟩ := hi.formed_turn (o := o) h
  have hcounts := h.counts
  have hframe := h.framebuffer
  refine ⟨h.controller.trans hi.controller, hformed, ?_, ?_, ?_, ?_, hawaits⟩
  · rw [hi.bytes, h.pending]
    cases m <;> simp [taken, Move.bytes]
  · rw [htotal, ParseUpdate.plus, hi.discarded]
    cases m with
    | take segment => rw [hcounts.1, taken, List.countP_append, List.countP_singleton]
    | abandon => exact congrArg (_ + ·) hcounts.1
    | boundary => exact congrArg (_ + ·) hcounts.1
  · rw [htotal, ParseUpdate.plus, hi.drawn]
    cases m with
    | take segment => rw [hcounts.2, taken, List.countP_append, List.countP_singleton]
    | abandon => exact congrArg (_ + ·) hcounts.2
    | boundary => exact congrArg (_ + ·) hcounts.2
  · rw [hframe]
    cases m with
    | take segment => rw [taken, List.foldl_append, ← hi.framebuffer]; rfl
    | abandon => exact hi.framebuffer
    | boundary => exact hi.framebuffer

theorem of_traced (h : Traced (new c) fed log p) : Accounted c fed log p := by
  induction h with
  | start => exact ⟨rfl, .nil, rfl, rfl, rfl, rfl, trivial⟩
  | input _ q ih =>
    exact { ih with bytes := by rw [extend_pending, ← List.append_assoc, ← ih.bytes] }
  | turn _ _ hm _ ih => exact ih.turn hm

end Accounted

/-- Whatever is pushed, the bytes fed are segments of a stream of the controller and then the
pending buffer, and the updates and the framebuffer are what the segments make of them. -/
theorem pushes_accounted (c : DisplayController) (chunks : List (List UInt8)) :
    let r := (new c).pushes chunks
    ∃ segs, Formed c segs ∧ chunks.flatten = segs.flatMap Segment.bytes ++ r.2.pending ∧
      r.1.discardedBytes = segs.countP Segment.discards ∧
      r.1.displayUpdates = segs.countP Segment.draws ∧
      r.2.framebuffer = segs.foldl Segment.apply (Vector.replicate framebufferSize 0) := by
  intro r
  obtain ⟨log, htraced, htotal⟩ := pushes_traced chunks (new c)
  have ha : Accounted c chunks.flatten log r.2 := .of_traced htraced
  refine ⟨taken log, ha.formed, ha.bytes, ?_, ?_, ha.framebuffer⟩
  · rw [← ha.discarded, ← htotal]
  · rw [← ha.drawn, ← htotal]

end DisplayParser

namespace DisplayRuntime

open DisplayParser

theorem pushes_traced (r : DisplayRuntime) (chunks : List (List UInt8)) :
    ∃ log p, Traced r.parser chunks.flatten log p ∧
      chunks.foldl (fun r chunk => r.push chunk) r = r.after (emitted log) p := by
  induction chunks using List.reverseRecOn with
  | nil => exact ⟨[], r.parser, .start, r.after_nil.symm⟩
  | append_singleton chunks chunk ih =>
    obtain ⟨log, p, htraced, hpushes⟩ := ih
    obtain ⟨os, p', hreads, hpush⟩ := push_reads (r.after (emitted log) p) chunk
    obtain ⟨newer, htraced', hnewer⟩ := (htraced.input chunk).emits hreads.emits
    refine ⟨newer ++ log, p', ?_, ?_⟩
    · rw [List.flatten_append, List.flatten_cons, List.flatten_nil, List.append_nil]
      exact htraced'
    · rw [List.foldl_append, hpushes, List.foldl_cons, List.foldl_nil, hpush, after_append,
        emitted_append, hnewer]

end DisplayRuntime

end BscTarget
