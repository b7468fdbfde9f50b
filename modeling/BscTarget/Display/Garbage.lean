import Mathlib.Data.List.Chain
import BscTarget.Display.Bounds
import BscTarget.Display.Reconstruction

/-!
# Garbage

What the parser makes of bytes that are no message. A zero byte and a mark behind it are what every
command begins with, so a buffer without such a pair is skipped quietly (`unmarked_skipped`), and a
few bytes of any kind before a command are too little to become one (`short_skipped`).
-/

namespace BscTarget

namespace DisplayParser

/-- No command begins in `l`. -/
def Unmarked (c : DisplayController) (l : List UInt8) : Prop :=
  l.IsChain fun a b => ¬ (a = 0x00 ∧ Marks c b)

instance (c : DisplayController) (l : List UInt8) : Decidable (Unmarked c l) :=
  inferInstanceAs (Decidable (List.IsChain _ _))

variable {c : DisplayController} {p q : DisplayParser} {bytes g head l rest : List UInt8}
  {os os' : List Emission}

instance (c : DisplayController) : (l : List UInt8) → Decidable (Headed c l)
  | [] => .isFalse fun ⟨_, _, h, _⟩ => by cases h
  | [_] => .isFalse fun ⟨_, _, h, _⟩ => by cases h
  | a :: b :: rest => decidable_of_iff (a = 0x00 ∧ Marks c b) (by
      constructor
      · rintro ⟨rfl, hb⟩
        exact ⟨b, rest, rfl, hb⟩
      · rintro ⟨b', rest', h, hb⟩
        cases h
        exact ⟨rfl, hb⟩)

theorem not_marks_zero (c : DisplayController) : ¬ Marks c 0x00 := by
  cases c <;> decide

theorem patterns_unmarked : ∀ pattern ∈ patterns c, Unmarked c pattern := by
  cases c <;> decide

theorem Unmarked.of_begins (h : Unmarked c l) (hg : g <+: l) : Unmarked c g := by
  obtain ⟨t, rfl⟩ := hg
  exact List.IsChain.left_of_append h

theorem not_unmarked (hh : Headed c head) : ¬ Unmarked c (g ++ head) := by
  obtain ⟨b, rest, rfl, hb⟩ := hh
  intro h
  exact (List.isChain_append_cons_cons.mp h).2.1 ⟨rfl, hb⟩

/-- With a command behind, the parser does not wait for a pattern. -/
theorem not_begins_pattern (hh : Headed c head) (hb : bytes ∈ patterns c) :
    ¬ g ++ head <+: bytes :=
  fun h => not_unmarked hh ((patterns_unmarked bytes hb).of_begins h)

/-- A pattern does not reach into the command behind it. -/
theorem pattern_before (hh : Headed c head) (hb : bytes ∈ patterns c)
    (h : bytes <+: g ++ head) : bytes <+: g := by
  rcases List.prefix_or_prefix_of_prefix h (List.prefix_append g head) with hg | ⟨t, rfl⟩
  · exact hg
  have ht : t <+: head := (List.prefix_append_right_inj g).mp h
  obtain ⟨b, rest, rfl, hmark⟩ := hh
  match t with
  | [] => exact ⟨[], by rw [List.append_nil, List.append_nil]⟩
  | [a] =>
    obtain rfl : a = 0x00 := (List.cons_prefix_cons.mp ht).1
    have hlast : ∀ pattern ∈ patterns c, pattern.getLast? ≠ some 0x00 := by cases c <;> decide
    exact absurd List.getLast?_concat (hlast _ hb)
  | a :: a' :: t =>
    obtain ⟨rfl, ht'⟩ := List.cons_prefix_cons.mp ht
    obtain ⟨rfl, -⟩ := List.cons_prefix_cons.mp ht'
    exact absurd (patterns_unmarked _ hb) (not_unmarked ⟨_, _, rfl, hmark⟩)

/-- Nothing to present. -/
def Quiet (os : List Emission) : Prop := (total os).completedFrames = 0 ∧ snapshots os = []

theorem Quiet.append (h : Quiet os) (h' : Quiet os') : Quiet (os ++ os') := by
  refine ⟨?_, ?_⟩
  · rw [total_append, ParseUpdate.plus, h.1, h'.1]
  · rw [snapshots_append, h.2, h'.2]
    rfl

/-! ## One turn -/

/-- A turn that finds no pattern and no command drops a byte. -/
theorem discard_step {byte : UInt8} (hs : p.state = .scan) (hp : p.pending = byte :: rest)
    (h : match p.controller with
      | .ssd1306 => p.scanSsd1306 .none = none
      | .sh1106 => p.scanSh1106 .none = none) :
    reader.step p = some ({ p with pending := rest }, .discarded, p.framebuffer) := by
  have hdiscard : p.discard .none = (true, .discarded, { p with pending := rest }) := by
    rw [discard, if_neg (by rw [hp]; exact List.cons_ne_nil _ _), hp]
    rfl
  refine step_of_scan hs (r := (true, .discarded, { p with pending := rest })) ?_ (.inl rfl)
  rw [scan, ← hdiscard]
  rcases controller_cases p with hc | hc
  all_goals
    rw [hc] at h ⊢
    dsimp only at h ⊢
    rw [h]
    rfl

theorem scanSsd1306_none (hinit : ¬ ssd1306Init <+: p.pending)
    (hwait : ¬ p.pending <+: ssd1306Init) (hwait' : ¬ p.pending <+: [0x00, 0x21])
    (h : [0x00, 0x21] <+: p.pending → 7 ≤ p.pending.length ∧
      addressWindow (p.byte 2) (p.byte 3) (p.byte 4) (p.byte 5) (p.byte 6) = none) :
    p.scanSsd1306 .none = none := by
  rw [scanSsd1306, consumePattern_of_not hinit, if_neg Bool.false_ne_true]
  by_cases hmark : [0x00, 0x21] <+: p.pending
  · have hlen := (h hmark).1
    rw [if_neg fun h => by omega, if_pos hmark, (h hmark).2]
    exact if_neg (not_or.mpr ⟨hwait, hwait'⟩)
  · rw [if_neg fun h => hmark h.1, if_neg hmark]
    exact if_neg (not_or.mpr ⟨hwait, hwait'⟩)

theorem scanSh1106_none (hinit : ¬ sh1106Init <+: p.pending)
    (hon : ¬ sh1106DisplayOn <+: p.pending) (hwait : ¬ p.pending <+: sh1106Init)
    (hwait' : ¬ p.pending <+: sh1106DisplayOn)
    (h : Headed .sh1106 p.pending → p.scanPageCommand .none = none) :
    p.scanSh1106 .none = none := by
  have hshort : ¬ ([0x00] <+: p.pending ∧ p.pending.length < 2) := by
    rintro ⟨hzero, hlen⟩
    refine hwait ?_
    rw [← hzero.eq_of_length_le (Nat.le_of_lt_succ hlen)]
    decide
  rw [scanSh1106, consumePattern_of_not hinit, consumePattern_of_not hon,
    if_neg Bool.false_ne_true, if_neg Bool.false_ne_true, if_neg hshort]
  by_cases hpage : [0x00] <+: p.pending ∧ 0xb0 ≤ p.byte 1 ∧ p.byte 1 ≤ 0xb7
  · have hlen : 2 ≤ p.pending.length := by
      by_contra hlt
      exact hshort ⟨hpage.1, by omega⟩
    rw [if_pos hpage, h (headed_sh1106 hpage.1 hlen hpage.2)]
    exact if_neg (not_or.mpr ⟨hwait, hwait'⟩)
  · rw [if_neg hpage]
    exact if_neg (not_or.mpr ⟨hwait, hwait'⟩)

/-- A buffer that begins no command loses a pattern or a byte. -/
theorem skip_step {byte : UInt8} (hs : p.state = .scan) (hp : p.pending = byte :: rest)
    (hwait : ∀ pattern ∈ patterns p.controller, ¬ p.pending <+: pattern)
    (hh : ¬ Headed p.controller p.pending) (hlen : 2 ≤ p.pending.length) :
    (∃ bytes ∈ patterns p.controller, bytes <+: p.pending) ∨
      reader.step p = some ({ p with pending := rest }, .discarded, p.framebuffer) := by
  by_cases hpattern : ∃ bytes ∈ patterns p.controller, bytes <+: p.pending
  · exact .inl hpattern
  have hnot : ∀ bytes ∈ patterns p.controller, ¬ bytes <+: p.pending :=
    fun bytes hmem hbytes => hpattern ⟨bytes, hmem, hbytes⟩
  refine .inr (discard_step hs hp ?_)
  rcases controller_cases p with hc | hc
  · rw [hc] at hh hnot hwait ⊢
    refine scanSsd1306_none (hnot _ List.mem_cons_self) (hwait _ List.mem_cons_self) ?_ ?_
    · intro hbegins
      exact hh (headed_ssd1306 ⟨[], (hbegins.eq_of_length_le hlen).symm⟩)
    · exact fun hmark => absurd (headed_ssd1306 hmark) hh
  · rw [hc] at hh hnot hwait ⊢
    exact scanSh1106_none (hnot _ List.mem_cons_self)
      (hnot _ (List.mem_cons_of_mem _ List.mem_cons_self)) (hwait _ List.mem_cons_self)
      (hwait _ (List.mem_cons_of_mem _ List.mem_cons_self)) fun h => absurd h hh

/-- A buffer that begins like a command and is none. -/
def Refused : DisplayController → List UInt8 → Prop
  | .ssd1306, l => 7 ≤ l.length ∧
      addressWindow (l.getD 2 0) (l.getD 3 0) (l.getD 4 0) (l.getD 5 0) (l.getD 6 0) = none
  | .sh1106, l => 6 ≤ l.length ∧
      pageRange (l.getD 2 0) (l.getD 3 0) (l.getD 4 0) (l.getD 5 0) = none

theorem headed_not_pattern (hh : Headed c l) (hb : bytes ∈ patterns c) : ¬ bytes <+: l := by
  intro h
  have hlen : ∀ pattern ∈ patterns c, 2 ≤ pattern.length := by cases c <;> decide
  obtain ⟨b, rest, rfl, hmark⟩ := hh
  match bytes, hlen bytes hb with
  | a :: a' :: t, _ =>
    obtain ⟨rfl, h'⟩ := List.cons_prefix_cons.mp h
    obtain ⟨rfl, -⟩ := List.cons_prefix_cons.mp h'
    exact not_unmarked (g := []) ⟨_, _, rfl, hmark⟩ (patterns_unmarked _ hb)

/-- It is dropped byte by byte too, though a lower page may end a frame before. -/
theorem refused_emits {byte : UInt8} (hs : p.state = .scan) (hp : p.pending = byte :: rest)
    (hh : Headed p.controller p.pending) (hr : Refused p.controller p.pending) :
    ∃ os q, Emits reader p os q ∧ q.state = .scan ∧ q.controller = p.controller ∧
      q.pending = rest := by
  have hpattern : ∀ bytes ∈ patterns p.controller, ¬ bytes <+: p.pending :=
    fun bytes hmem => headed_not_pattern hh hmem
  have hwait : ∀ bytes ∈ patterns p.controller, ¬ p.pending <+: bytes :=
    fun bytes hmem h => not_unmarked (g := []) hh ((patterns_unmarked bytes hmem).of_begins h)
  rcases controller_cases p with hc | hc
  · refine ⟨_, _, .single (discard_step hs hp ?_), hs, rfl, rfl⟩
    rw [hc] at hh hr hwait hpattern ⊢
    refine scanSsd1306_none (hpattern _ List.mem_cons_self) (hwait _ List.mem_cons_self) ?_
      fun _ => hr
    intro h
    have hlen : p.pending.length ≤ 2 := h.length_le
    have hlen' : 7 ≤ p.pending.length := hr.1
    omega
  · rw [hc] at hh hr hwait hpattern ⊢
    have hnone : ∀ q : DisplayParser, q.pending = p.pending →
        ¬ ((decodeColumn (q.byte 2) (q.byte 3)).isSome = true ∧
          q.sh1106LastPageCommand.any ((pageOf (q.byte 1)).val < ·) = true) →
        q.scanSh1106 .none = none := by
      intro q hq hguard
      have hlen : 6 ≤ q.pending.length := hq ▸ hr.1
      rw [← hq] at hr hpattern hwait
      refine scanSh1106_none (hpattern _ List.mem_cons_self)
        (hpattern _ (List.mem_cons_of_mem _ List.mem_cons_self)) (hwait _ List.mem_cons_self)
        (hwait _ (List.mem_cons_of_mem _ List.mem_cons_self)) fun _ => ?_
      rw [scanPageCommand, if_neg fun h => hguard h.2, if_neg (by omega),
        if_neg (fun h => by omega)]
      exact Option.map_eq_none_iff.mpr hr.2
    by_cases hguard : (decodeColumn (p.byte 2) (p.byte 3)).isSome = true ∧
        p.sh1106LastPageCommand.any ((pageOf (p.byte 1)).val < ·) = true
    · have hlen : 6 ≤ p.pending.length := hr.1
      obtain ⟨b, t, ht, hmark⟩ := hh
      have hb : p.byte 1 = b := by
        rw [DisplayParser.byte, ht]
        rfl
      have hboundary : reader.step p = some (p.untracked, .boundary, p.framebuffer) := by
        refine step_of_scan hs (r := (false, .boundary, p.untracked)) ?_ (.inr rfl)
        refine scan_page hc (by rw [ht]; exact List.prefix_append [0x00] _) (by omega)
          (by rw [hb]; exact hmark) ?_
        rw [scanPageCommand, if_pos ⟨by omega, hguard⟩]
        rfl
      have hdropped := discard_step (p := p.untracked) hs hp (by
        show match p.controller with
          | .ssd1306 => _
          | .sh1106 => _
        rw [hc]
        exact hnone p.untracked rfl fun h => by cases h.2)
      exact ⟨_, _, .cons hboundary (.single hdropped), hs, hc, rfl⟩
    · refine ⟨_, _, .single (discard_step hs hp ?_), hs, hc, rfl⟩
      rw [hc]
      exact hnone p rfl hguard

/-! ## Skipping on to a command -/

/-- Where no command begins, the first bytes before one are skipped. -/
theorem front_skipped {byte : UInt8} (hs : p.state = .scan) (hp : p.pending = byte :: g ++ head)
    (hh : Headed p.controller head) (hfront : ¬ Headed p.controller (byte :: g ++ head)) :
    ∃ g' u, g' <:+ byte :: g ∧ g'.length ≤ g.length ∧ (u = .none ∨ u = .discarded) ∧
      reader.step p = some ({ p with pending := g' ++ head }, u, p.framebuffer) := by
  have hlen : 2 ≤ p.pending.length := by
    obtain ⟨b, rest, rfl, -⟩ := hh
    simp only [hp, List.length_append, List.length_cons]
    omega
  have hwait : ∀ pattern ∈ patterns p.controller, ¬ p.pending <+: pattern := by
    intro pattern hmem
    rw [hp]
    exact not_begins_pattern hh hmem
  rw [← hp] at hfront
  rcases skip_step hs hp hwait hfront hlen with ⟨bytes, hmem, hbytes⟩ | hdiscard
  · have hpos : ∀ pattern ∈ patterns p.controller, 0 < pattern.length := by
      cases p.controller <;> decide
    rw [hp] at hbytes
    obtain ⟨g', hg'⟩ := pattern_before hh hmem hbytes
    have hlen' := congrArg List.length hg'
    rw [List.length_append, List.length_cons] at hlen'
    have hbytes' := hpos bytes hmem
    refine ⟨g', .none, ⟨bytes, hg'⟩, by omega, .inl rfl, pattern_step hs hmem ?_⟩
    rw [hp, ← hg', List.append_assoc]
  · exact ⟨g, .discarded, List.suffix_cons byte g, Nat.le_refl _, .inr rfl, hdiscard⟩

theorem quiet_single {u : ParseUpdate} {f : Framebuffer} (h : u = .none ∨ u = .discarded) :
    Quiet [(u, f)] := by
  rcases h with rfl | rfl <;> exact ⟨rfl, rfl⟩

theorem not_headed {byte : UInt8} (hg : Unmarked c (byte :: g)) (hh : Headed c head) :
    ¬ Headed c (byte :: g ++ head) := by
  rintro ⟨b, rest, h, hb⟩
  cases g with
  | nil =>
    obtain ⟨b', rest', rfl, -⟩ := hh
    cases h
    exact not_marks_zero c hb
  | cons a g =>
    cases h
    exact not_unmarked (g := []) ⟨_, _, rfl, hb⟩ hg

/-- Bytes in which no command begins are skipped, and nothing else happens. -/
theorem unmarked_skipped (hs : p.state = .scan) (hg : Unmarked p.controller g)
    (hp : p.pending = g ++ head) (hh : Headed p.controller head) :
    ∃ os, Emits reader p os { p with pending := head } ∧ Quiet os := by
  induction hn : g.length using Nat.strong_induction_on generalizing g p with
  | _ n ih =>
    cases g with
    | nil =>
      have heq : { p with pending := head } = p := by
        rw [List.nil_append] at hp
        rw [← hp]
      rw [heq]
      exact ⟨[], .nil p, rfl, rfl⟩
    | cons byte g =>
      rw [List.length_cons] at hn
      obtain ⟨g', u, hsuffix, hlen, hu, hstep⟩ := front_skipped hs hp hh (not_headed hg hh)
      obtain ⟨os, hemits, hquiet⟩ := ih g'.length (by omega)
        (p := { p with pending := g' ++ head }) hs (hg.suffix hsuffix) rfl hh rfl
      exact ⟨_, .cons hstep hemits, (quiet_single hu).append hquiet⟩

/-- So are a few bytes that no command can be made of, even with what follows. -/
theorem short_skipped {n : ℕ} (hs : p.state = .scan) (hlen : g.length ≤ n)
    (hp : p.pending = g ++ head) (hh : Headed p.controller head)
    (hr : ∀ byte g, (byte :: g).length ≤ n → Headed p.controller (byte :: g ++ head) →
      Refused p.controller (byte :: g ++ head)) :
    ∃ os q, Emits reader p os q ∧ q.state = .scan ∧ q.controller = p.controller ∧
      q.pending = head := by
  induction hk : g.length using Nat.strong_induction_on generalizing g p with
  | _ k ih =>
    cases g with
    | nil => exact ⟨[], p, .nil p, hs, rfl, hp⟩
    | cons byte g =>
      rw [List.length_cons] at hk
      have hnext : ∀ g' q os, Emits reader p os q → q.state = .scan →
          q.controller = p.controller → q.pending = g' ++ head → g'.length ≤ g.length →
          ∃ os q, Emits reader p os q ∧ q.state = .scan ∧ q.controller = p.controller ∧
            q.pending = head := by
        intro g' q os hemits hqs hqc hqp hlen'
        rw [List.length_cons] at hlen
        obtain ⟨os', q', hemits', hs', hc', hp'⟩ := ih g'.length (by omega) hqs (by omega) hqp
          (by rw [hqc]; exact hh) (by rw [hqc]; exact hr) rfl
        exact ⟨_, q', hemits.trans hemits', hs', hc'.trans hqc, hp'⟩
      by_cases hfront : Headed p.controller (byte :: g ++ head)
      · have hrefused := hr byte g hlen hfront
        rw [← hp] at hfront hrefused
        obtain ⟨os, q, hemits, hqs, hqc, hqp⟩ := refused_emits hs hp hfront hrefused
        exact hnext g q os hemits hqs hqc hqp (Nat.le_refl _)
      · obtain ⟨g', u, -, hlen', -, hstep⟩ := front_skipped hs hp hh hfront
        exact hnext g' _ _ (.single hstep) hs rfl rfl hlen'

end DisplayParser

end BscTarget
