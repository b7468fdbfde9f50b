import BscTarget.Display.Moves

/-!
# Loops that end and buffers that stay small

The loops of `DisplayParser::push` and `DisplayRuntime::push` as the source has them, without a
bound on their turns, end; and what waits behind them is less than one message (`push_ends`).
-/

namespace BscTarget

namespace DisplayParser

variable {p : DisplayParser}

/-- The loop of `DisplayParser::push`: it breaks at something to present, and where a turn made no
progress. -/
inductive PushEnds : ParseUpdate → DisplayParser → ParseUpdate × DisplayParser → Prop
  | present {u : ParseUpdate} {p : DisplayParser} (h : (p.advance u).2.1.present = true) :
      PushEnds u p (p.advance u).2
  | stuck {u : ParseUpdate} {p : DisplayParser} (h : (p.advance u).2.1.present = false)
      (hs : (p.advance u).1 = false) : PushEnds u p (p.advance u).2
  | next {u : ParseUpdate} {p : DisplayParser} {r : ParseUpdate × DisplayParser}
      (h : (p.advance u).2.1.present = false) (hs : (p.advance u).1 = true)
      (ht : PushEnds (p.advance u).2.1 (p.advance u).2.2 r) : PushEnds u p r

/-- A turn that makes progress leaves less to do, whatever was counted before it. -/
theorem advance_size {u : ParseUpdate} (h : (p.advance u).1 = true) :
    (p.advance u).2.2.size < p.size := by
  rw [advance_charge] at h ⊢
  exact ((advance_turn p []).goes (.inl h)).2

theorem pushLoop_ends {fuel : ℕ} {u : ParseUpdate} (h : p.size < fuel) :
    PushEnds u p (pushLoop fuel u p) := by
  induction fuel generalizing u p with
  | zero => omega
  | succ fuel ih =>
    rw [pushLoop]
    dsimp only
    by_cases hpresent : (p.advance u).2.1.present = true
    · rw [if_pos hpresent]
      exact .present hpresent
    rw [if_neg hpresent]
    have hpresent := Bool.eq_false_iff.mpr hpresent
    by_cases hprogress : (p.advance u).1 = true
    · rw [if_pos hprogress]
      have hsize := advance_size hprogress
      exact .next hpresent hprogress (ih (by omega))
    · rw [if_neg hprogress]
      exact .stuck hpresent (Bool.eq_false_iff.mpr hprogress)

theorem parser_push_ends (p : DisplayParser) (input : List UInt8) :
    PushEnds .none (p.extend input) (p.push input) :=
  pushLoop_ends (Nat.lt_succ_self _)

/-! ## What waits -/

/-- The bytes that make a command of the zero byte before them. -/
def Marks : DisplayController → UInt8 → Prop
  | .ssd1306, b => b = 0x21
  | .sh1106, b => 0xb0 ≤ b ∧ b ≤ 0xb7

instance (c : DisplayController) (b : UInt8) : Decidable (Marks c b) :=
  match c with
  | .ssd1306 => inferInstanceAs (Decidable (_ = _))
  | .sh1106 => inferInstanceAs (Decidable (_ ∧ _))

/-- A buffer that begins like a command. -/
def Headed (c : DisplayController) (l : List UInt8) : Prop :=
  ∃ b rest, l = 0x00 :: b :: rest ∧ Marks c b

/-- Too few bytes to tell whether a command is one. -/
def Short : DisplayController → List UInt8 → Prop
  | .ssd1306, l => l.length < 7
  | .sh1106, l => l.length < 5 ∨ (l.getD 4 0 ≠ 0x40 ∧ l.length < 6)

/-- A buffer that may still become a pattern or a command. -/
def Waiting (c : DisplayController) (l : List UInt8) : Prop :=
  (∃ pattern ∈ patterns c, l <+: pattern ∧ ¬ pattern <+: l) ∨ (Headed c l ∧ Short c l)

theorem headed_ssd1306 {l : List UInt8} (h : [0x00, 0x21] <+: l) : Headed .ssd1306 l := by
  obtain ⟨rest, rfl⟩ := h
  exact ⟨0x21, rest, rfl, rfl⟩

theorem headed_sh1106 (h₀ : [0x00] <+: p.pending) (hlen : 2 ≤ p.pending.length)
    (hb : 0xb0 ≤ p.byte 1 ∧ p.byte 1 ≤ 0xb7) : Headed .sh1106 p.pending := by
  obtain ⟨rest, hrest⟩ := h₀
  cases rest with
  | nil =>
    rw [← hrest] at hlen
    simp at hlen
  | cons b rest =>
    rw [DisplayParser.byte, ← hrest] at hb
    exact ⟨b, rest, hrest.symm, hb⟩

theorem discard_waits (h : ¬ Goes (p.discard .none)) : p.pending = [] := by
  by_contra hp
  refine h (.inl ?_)
  rw [discard, if_neg hp]

theorem scanSsd1306_waits {r : Progress} (h : p.scanSsd1306 .none = some r) (hr : ¬ Goes r) :
    Waiting .ssd1306 p.pending := by
  rcases scanSsd1306_cases h with ⟨-, rfl⟩ | ⟨w, -, -, -, rfl⟩ | ⟨hshort | hwait, -⟩
  · exact absurd (.inl rfl) hr
  · exact absurd (.inl rfl) hr
  · exact .inr ⟨headed_ssd1306 hshort.1, hshort.2⟩
  · exact .inl ⟨_, List.mem_cons_self, hwait⟩

theorem scanPageCommand_waits {r : Progress} (h : p.scanPageCommand .none = some r)
    (hr : ¬ Goes r) : Short .sh1106 p.pending := by
  rcases scanPageCommand_cases p with ⟨-, heq⟩ | ⟨hshort, -⟩ | ⟨-, -, heq⟩
  · obtain rfl := Option.some.inj (heq.symm.trans h)
    exact absurd (.inr rfl) hr
  · exact hshort
  · obtain ⟨_, _, rfl⟩ := Option.map_eq_some_iff.mp (heq.symm.trans h)
    exact absurd (.inl rfl) hr

theorem scanSh1106_waits {r : Progress} (h : p.scanSh1106 .none = some r) (hr : ¬ Goes r) :
    Waiting .sh1106 p.pending := by
  rcases scanSh1106_cases h with ⟨_, -, -, rfl⟩ | ⟨h₀, hlen, hb, hfound⟩ | ⟨hwait, -⟩
  · exact absurd (.inl rfl) hr
  · exact .inr ⟨headed_sh1106 h₀ (Nat.le_of_not_lt hlen) hb, scanPageCommand_waits hfound hr⟩
  · exact .inl hwait

theorem waiting_nil (c : DisplayController) : Waiting c [] := by
  cases c <;> exact .inl ⟨_, List.mem_cons_self, List.nil_prefix, by decide⟩

theorem scan_waits (h : ¬ Goes (p.scan .none)) : Waiting p.controller p.pending := by
  have hfound : ∀ (c : DisplayController) (found : Option Progress),
      (∀ r, found = some r → ¬ Goes r → Waiting c p.pending) →
      ¬ Goes (found.getD (p.discard .none)) → Waiting c p.pending := by
    intro c found hwaits hgoes
    cases found with
    | some r => exact hwaits r rfl hgoes
    | none =>
      rw [discard_waits hgoes]
      exact waiting_nil c
  unfold scan at h
  cases hc : p.controller with
  | ssd1306 =>
    rw [hc] at h
    exact hfound _ _ (fun r => scanSsd1306_waits) h
  | sh1106 =>
    rw [hc] at h
    exact hfound _ _ (fun r => scanSh1106_waits) h

theorem Drained.waiting (h : p.Drained) (hs : p.state = .scan) :
    Waiting p.controller p.pending := by
  unfold Drained advance at h
  rw [hs] at h
  exact scan_waits h

theorem Waiting.length_le {c : DisplayController} {l : List UInt8} (h : Waiting c l) :
    l.length ≤ 25 := by
  rcases h with ⟨pattern, hmem, hbegins, hnot⟩ | ⟨-, hshort⟩
  · have hlt : l.length < pattern.length := by
      refine Nat.lt_of_le_of_ne hbegins.length_le fun heq => hnot ?_
      obtain rfl := hbegins.eq_of_length heq
      exact hbegins
    have hall : ∀ pattern ∈ patterns c, pattern.length ≤ 26 := by cases c <;> decide
    have hle := hall pattern hmem
    omega
  · cases c with
    | ssd1306 =>
      have hlt : l.length < 7 := hshort
      omega
    | sh1106 =>
      rcases hshort with hlt | hlt <;> omega

/-- What waits for the rest of its data: nothing, or a part of one message. -/
theorem Drained.data (h : p.Drained) (hs : p.state ≠ .scan) :
    p.pending = [] ∨ ∃ rest, p.pending = 0x40 :: rest ∧ match p.state with
      | .scan => False
      | .ssd1306Data w => rest.length < w.width * w.pages
      | .sh1106PageData _ span => rest.length < span.width := by
  unfold Drained advance at h
  cases hstate : p.state with
  | scan => exact absurd hstate hs
  | ssd1306Data w =>
    rw [hstate] at h
    dsimp only at h ⊢
    rcases message_cases p (w.width * w.pages) with hp | ⟨byte, rest, hp, hb⟩ | ⟨data, rest, hp, hd⟩
    · exact hp
    · rw [readSsd1306Data_mark hp hb] at h
      exact absurd (.inl rfl) h
    · rw [readSsd1306Data_data hp hd] at h
      exact absurd (.inl rfl) h
  | sh1106PageData page span =>
    rw [hstate] at h
    dsimp only at h ⊢
    rcases message_cases p span.width with hp | ⟨byte, rest, hp, hb⟩ | ⟨data, rest, hp, hd⟩
    · exact hp
    · rw [readSh1106PageData_mark hp hb] at h
      exact absurd (.inl rfl) h
    · rw [readSh1106PageData_data hp hd] at h
      exact absurd (.inl rfl) h

/-- A payload fits the framebuffer. -/
theorem size_le (w : Window) : w.width * w.pages ≤ framebufferSize := by
  have hx := w.x_fits
  have hpage := w.page_fits
  exact Nat.mul_le_mul (by omega : w.width ≤ displayWidth) (by omega : w.pages ≤ displayHeight / 8)

theorem Drained.length_le (h : p.Drained) : p.pending.length ≤ framebufferSize := by
  by_cases hs : p.state = .scan
  · exact (h.waiting hs).length_le.trans (by decide)
  · rcases h.data hs with hp | ⟨rest, hp, hlt⟩
    · rw [hp]
      exact Nat.zero_le _
    · rw [hp, List.length_cons]
      cases hstate : p.state with
      | scan => exact absurd hstate hs
      | ssd1306Data w =>
        rw [hstate] at hlt
        exact Nat.le_trans hlt (size_le w)
      | sh1106PageData page span =>
        rw [hstate] at hlt
        have hx := span.x_fits
        exact Nat.le_trans hlt ((by omega : span.width ≤ displayWidth).trans (by decide))

end DisplayParser

namespace DisplayRuntime

open DisplayParser

/-- The loop of `DisplayRuntime::push`: the parser is pushed again, with no input, for as long as
it reports a frame or a boundary. -/
inductive PushEnds : List UInt8 → DisplayRuntime → DisplayRuntime → Prop
  | last {input : List UInt8} {r : DisplayRuntime} (h : (r.parser.push input).1.present = false) :
      PushEnds input r (r.absorb (r.parser.push input).1 (r.parser.push input).2)
  | again {input : List UInt8} {r r' : DisplayRuntime}
      (h : (r.parser.push input).1.present = true)
      (ht : PushEnds [] (r.absorb (r.parser.push input).1 (r.parser.push input).2) r') :
      PushEnds input r r'

theorem pushLoop_ends {fuel : ℕ} {input : List UInt8} {r : DisplayRuntime}
    (h : (r.parser.extend input).size < fuel) : PushEnds input r (pushLoop fuel input r) := by
  induction fuel generalizing r input with
  | zero => omega
  | succ fuel ih =>
    obtain ⟨os, hpushed⟩ := push_pushed r.parser input
    rw [pushLoop]
    dsimp only
    by_cases hpresent : (r.parser.push input).1.present = true
    · rw [if_pos hpresent]
      have hsize := hpushed.shrinks hpresent
      refine .again hpresent (ih ?_)
      show ((r.parser.push input).2.extend []).size < fuel
      rw [show (r.parser.push input).2.extend [] = (r.parser.push input).2 from
        reader.extend_nil _]
      omega
    · rw [if_neg hpresent]
      exact .last (Bool.eq_false_iff.mpr hpresent)

/-- Whatever a parser is and is fed, its loop ends, the loop that re-enters it ends, and what it
keeps pending then fits into a message. -/
theorem push_ends (r : DisplayRuntime) (input : List UInt8) :
    (∀ (p : DisplayParser) (input' : List UInt8),
      DisplayParser.PushEnds .none (p.extend input') (p.push input')) ∧
      PushEnds input r (r.push input) ∧
      (r.push input).parser.pending.length ≤ 1024 ∧
      ((r.push input).parser.state = .scan → (r.push input).parser.pending.length ≤ 25) := by
  have hdrained := push_drained r input
  exact ⟨parser_push_ends, pushLoop_ends (Nat.lt_succ_self _), hdrained.length_le,
    fun hs => (hdrained.waiting hs).length_le⟩

end DisplayRuntime

end BscTarget
