import BscTarget.Display.Parser

/-!
# Lookahead

A turn of the parser that goes on, or that ends a `push`, has seen enough: with more input pending
it does the same, and it leaves less to do. Any other turn changes nothing (`advance_turn`).
-/

namespace BscTarget

/-! ## Prefix tests -/

section Prefix

variable {α : Type*} {pattern pattern' l q : List α}

theorem prefix_extend (h : pattern <+: l) : pattern <+: l ++ q := h.trans (List.prefix_append l q)

/-- A pattern that disagrees with a buffer disagrees with what the buffer grows to. -/
theorem not_prefix_extend (h : ¬ pattern <+: l) (h' : ¬ l <+: pattern) : ¬ pattern <+: l ++ q := by
  intro hp
  rcases List.prefix_or_prefix_of_prefix hp (List.prefix_append l q) with h₁ | h₁
  · exact h h₁
  · exact h' h₁

/-- Two patterns at the start of one buffer agree. -/
theorem not_prefix_of_conflict (h : pattern <+: l) (hc : ¬ (pattern <+: pattern' ∨
    pattern' <+: pattern)) : ¬ pattern' <+: l :=
  fun h' => hc (List.prefix_or_prefix_of_prefix h h')

end Prefix

namespace DisplayParser

variable {p : DisplayParser} {q : List UInt8}

@[simp] theorem extend_pending (p : DisplayParser) (q : List UInt8) :
    (p.extend q).pending = p.pending ++ q := rfl

@[simp] theorem extend_state (p : DisplayParser) (q : List UInt8) :
    (p.extend q).state = p.state := rfl

@[simp] theorem extend_sh1106LastPageCommand (p : DisplayParser) (q : List UInt8) :
    (p.extend q).sh1106LastPageCommand = p.sh1106LastPageCommand := rfl

theorem length_extend (p : DisplayParser) (q : List UInt8) :
    p.pending.length ≤ (p.extend q).pending.length := by
  rw [extend_pending, List.length_append]
  omega

theorem byte_extend {i : ℕ} (h : i < p.pending.length) : (p.extend q).byte i = p.byte i :=
  List.getD_append _ _ _ _ h

theorem byte_of_begins {pattern : List UInt8} (h : pattern <+: p.pending) {i : ℕ}
    (hi : i < pattern.length) : p.byte i = pattern.getD i 0 := by
  obtain ⟨rest, h⟩ := h
  rw [byte, ← h]
  exact List.getD_append _ _ _ _ hi

theorem drop_extend {n : ℕ} (h : n ≤ p.pending.length) :
    (p.extend q).pending.drop n = p.pending.drop n ++ q :=
  List.drop_append_of_le_length h

theorem consumePattern_of_begins {pattern : List UInt8} (h : pattern <+: p.pending) :
    p.consumePattern pattern = (true, { p with pending := p.pending.drop pattern.length }) :=
  if_neg (by simp [h, h.length_le])

theorem consumePattern_of_not {pattern : List UInt8} (h : ¬ pattern <+: p.pending) :
    p.consumePattern pattern = (false, p) :=
  if_pos (.inr h)

theorem consumePattern_fst {pattern : List UInt8} :
    (p.consumePattern pattern).1 = true ↔ pattern <+: p.pending := by
  by_cases h : pattern <+: p.pending
  · rw [consumePattern_of_begins h]
    exact iff_of_true rfl h
  · rw [consumePattern_of_not h]
    exact iff_of_false Bool.false_ne_true h

/-! ## Turns that go on -/

/-- A turn that makes progress, or that ends the `push` with something to present. -/
def Goes (r : Progress) : Prop := r.1 = true ∨ r.2.1.present = true

/-- The same turn with more input pending behind it. -/
def later (q : List UInt8) (r : Progress) : Progress := (r.1, r.2.1, r.2.2.extend q)

theorem not_goes_wait (p : DisplayParser) : ¬ Goes (false, .none, p) := by
  rintro (h | h) <;> cases h

/-- A turn with result `r`, and with `r'` when `q` is pending as well: it goes on alike and leaves
less to do, or it changes nothing. -/
structure Turn (p : DisplayParser) (q : List UInt8) (r r' : Progress) : Prop where
  goes : Goes r → r' = later q r ∧ r.2.2.size < p.size
  waits : ¬ Goes r → r = (false, .none, p)

theorem Turn.of_wait (r' : Progress) : Turn p q (false, .none, p) r' where
  goes := fun h => absurd h (not_goes_wait p)
  waits := fun _ => rfl

theorem Turn.of_goes {r r' : Progress} (hgoes : Goes r) (h : r' = later q r)
    (hsize : r.2.2.size < p.size) : Turn p q r r' where
  goes := fun _ => ⟨h, hsize⟩
  waits := fun h => absurd hgoes h

/-- A turn as `Turn`, or one that falls through both times. -/
structure Extends (p : DisplayParser) (q : List UInt8) (found found' : Option Progress) : Prop where
  goes : ∀ r, found = some r → Goes r → found' = some (later q r) ∧ r.2.2.size < p.size
  waits : ∀ r, found = some r → ¬ Goes r → r = (false, .none, p)
  falls : found = none → found' = none

theorem Extends.of_wait (found' : Option Progress) :
    Extends p q (some (false, .none, p)) found' where
  goes := fun r hr hgoes => by
    obtain rfl := Option.some.inj hr
    exact absurd hgoes (not_goes_wait p)
  waits := fun r hr _ => (Option.some.inj hr).symm
  falls := fun h => by cases h

theorem Extends.of_goes {r : Progress} {found' : Option Progress} (hgoes : Goes r)
    (h : found' = some (later q r)) (hsize : r.2.2.size < p.size) :
    Extends p q (some r) found' where
  goes := fun r' hr _ => by
    obtain rfl := Option.some.inj hr
    exact ⟨h, hsize⟩
  waits := fun r' hr hwait => by
    obtain rfl := Option.some.inj hr
    exact absurd hgoes hwait
  falls := fun h => by cases h

theorem Extends.of_none {found' : Option Progress} (h : found' = none) :
    Extends p q none found' where
  goes := fun r hr => by cases hr
  waits := fun r hr => by cases hr
  falls := fun _ => h

/-- A buffer that begins neither of two patterns will not begin them later. -/
theorem Extends.of_undecided (p : DisplayParser) (q a b : List UInt8) :
    Extends p q (if p.pending <+: a ∨ p.pending <+: b then some (false, .none, p) else none)
      (if (p.extend q).pending <+: a ∨ (p.extend q).pending <+: b then
        some (false, .none, p.extend q) else none) := by
  split_ifs with hw hw' hw'
  · exact .of_wait _
  · exact .of_wait _
  · rcases hw' with h | h
    · exact absurd (.inl ((List.prefix_append _ q).trans h)) hw
    · exact absurd (.inr ((List.prefix_append _ q).trans h)) hw
  · exact .of_none rfl

theorem taken_extend {n : ℕ} (h : n ≤ p.pending.length) (state : ParseState) :
    extend { p with pending := p.pending.drop n, state := state } q =
      { p with pending := (p.pending ++ q).drop n, state := state } := by
  rw [List.drop_append_of_le_length h]
  rfl

theorem size_taken {n : ℕ} (h : 0 < n) (hn : n ≤ p.pending.length) (state : ParseState) :
    size { p with pending := p.pending.drop n, state := state } < p.size := by
  simp only [size, List.length_drop]
  split_ifs <;> omega

/-- A pattern is consumed with more input as without. -/
theorem Extends.of_consume {pattern : List UInt8} (h : pattern <+: p.pending)
    (hpos : 0 < pattern.length) {found' : Option Progress}
    (hfound : found' = some (true, .none, ((p.extend q).consumePattern pattern).2)) :
    Extends p q (some (true, .none, (p.consumePattern pattern).2)) found' := by
  have h' : pattern <+: (p.extend q).pending := prefix_extend h
  rw [hfound, consumePattern_of_begins h, consumePattern_of_begins h']
  refine .of_goes (.inl rfl) ?_ (size_taken hpos h.length_le p.state)
  rw [later, taken_extend h.length_le]
  rfl

theorem scanSsd1306_extend (p : DisplayParser) (q : List UInt8) :
    Extends p q (p.scanSsd1306 .none) ((p.extend q).scanSsd1306 .none) := by
  unfold scanSsd1306
  by_cases hinit : ssd1306Init <+: p.pending
  · rw [if_pos (consumePattern_fst.mpr hinit)]
    exact .of_consume hinit (by decide) (if_pos (consumePattern_fst.mpr (prefix_extend hinit)))
  rw [consumePattern_of_not hinit]
  by_cases haddr : [0x00, 0x21] <+: p.pending
  · have haddr' : [0x00, 0x21] <+: (p.extend q).pending := prefix_extend haddr
    rw [consumePattern_of_not (not_prefix_of_conflict haddr' (by decide))]
    by_cases hlen : p.pending.length < 7
    · simp only [haddr, hlen, Bool.false_eq_true, if_false, and_self, if_true]
      exact .of_wait _
    have hlen' : ¬ (p.extend q).pending.length < 7 := by
      have := length_extend p q
      omega
    have hbyte : ∀ i < 7, (p.extend q).byte i = p.byte i := fun i hi => byte_extend (by omega)
    simp only [haddr, haddr', hlen, hlen', true_and, if_true, if_false, Bool.false_eq_true,
      hbyte 2 (by decide), hbyte 3 (by decide), hbyte 4 (by decide), hbyte 5 (by decide),
      hbyte 6 (by decide)]
    cases addressWindow (p.byte 2) (p.byte 3) (p.byte 4) (p.byte 5) (p.byte 6) with
    | some w =>
      refine .of_goes (.inl rfl) ?_ (size_taken (by decide) (by omega) _)
      rw [later, taken_extend (by omega)]
      rfl
    | none => exact .of_undecided p q _ _
  · simp only [haddr, false_and, if_false, Bool.false_eq_true]
    by_cases hw : p.pending <+: ssd1306Init ∨ p.pending <+: [0x00, 0x21]
    · rw [if_pos hw]
      exact .of_wait _
    · have hinit' : ¬ ssd1306Init <+: (p.extend q).pending :=
        not_prefix_extend hinit fun h => hw (.inl h)
      have haddr' : ¬ [0x00, 0x21] <+: (p.extend q).pending :=
        not_prefix_extend haddr fun h => hw (.inr h)
      rw [consumePattern_of_not hinit']
      simp only [haddr', false_and, if_false, Bool.false_eq_true]
      exact .of_undecided p q _ _

/-- A legacy command ends before its fifth byte and another one with its sixth. -/
theorem pageRange_size {a b c d : UInt8} {n : ℕ} {span : Span}
    (h : pageRange a b c d = some (n, span)) : n = 4 ∨ n = 6 ∧ c ≠ 0x40 := by
  unfold pageRange at h
  dsimp only at h
  split_ifs at h with hc
  · obtain ⟨_, _, h⟩ := Option.map_eq_some_iff.mp h
    exact .inl (congrArg Prod.fst h).symm
  · obtain ⟨_, _, h⟩ := Option.bind_eq_some_iff.mp h
    obtain ⟨_, _, h⟩ := Option.bind_eq_some_iff.mp h
    split_ifs at h
    exact .inr ⟨(congrArg Prod.fst (Option.some.inj h)).symm, hc⟩

theorem pageRange_legacy (a b d d' : UInt8) : pageRange a b 0x40 d = pageRange a b 0x40 d' := rfl

/-- A page command is decided by the bytes it waited for. -/
theorem pageRange_extend (h : 4 < p.pending.length) (h' : p.byte 4 = 0x40 ∨ 5 < p.pending.length)
    (a b : UInt8) : pageRange a b ((p.extend q).byte 4) ((p.extend q).byte 5) =
      pageRange a b (p.byte 4) (p.byte 5) := by
  rw [byte_extend h]
  rcases h' with hdata | hlen
  · rw [hdata]
    exact pageRange_legacy a b _ _
  · rw [byte_extend hlen]

theorem scanPageCommand_extend (h : 2 ≤ p.pending.length) (q : List UInt8) :
    Extends p q (p.scanPageCommand .none) ((p.extend q).scanPageCommand .none) := by
  have hgrow := length_extend p q
  unfold scanPageCommand
  rw [byte_extend (i := 1) (by omega), extend_sh1106LastPageCommand]
  by_cases h4 : p.pending.length < 4
  · have hend : ¬ 4 ≤ p.pending.length := by omega
    have h5 : p.pending.length < 5 := by omega
    simp only [hend, h5, false_and, if_false, if_true]
    exact .of_wait _
  rw [byte_extend (i := 2) (by omega), byte_extend (i := 3) (by omega)]
  have hend : 4 ≤ p.pending.length := by omega
  have hend' : 4 ≤ (p.extend q).pending.length := by omega
  simp only [hend, hend', true_and]
  by_cases hframe : (decodeColumn (p.byte 2) (p.byte 3)).isSome = true ∧
      p.sh1106LastPageCommand.any ((pageOf (p.byte 1)).val < ·) = true
  · rw [if_pos hframe, if_pos hframe]
    refine .of_goes (.inr rfl) rfl ?_
    cases hlast : p.sh1106LastPageCommand with
    | none =>
      rw [hlast] at hframe
      cases hframe.2
    | some page => simp [size, hlast]
  rw [if_neg hframe, if_neg hframe]
  by_cases h5 : p.pending.length < 5
  · rw [if_pos h5]
    exact .of_wait _
  rw [if_neg h5, if_neg (show ¬ (p.extend q).pending.length < 5 by omega)]
  by_cases h6 : p.byte 4 ≠ 0x40 ∧ p.pending.length < 6
  · rw [if_pos h6]
    exact .of_wait _
  have h6' : ¬ ((p.extend q).byte 4 ≠ 0x40 ∧ (p.extend q).pending.length < 6) := by
    rw [byte_extend (by omega)]
    exact fun h => h6 ⟨h.1, by omega⟩
  have hknown : p.byte 4 = 0x40 ∨ 5 < p.pending.length := by
    by_contra hc
    rw [not_or] at hc
    exact h6 ⟨hc.1, by omega⟩
  rw [if_neg h6, if_neg h6', pageRange_extend (by omega) hknown]
  cases hrange : pageRange (p.byte 2) (p.byte 3) (p.byte 4) (p.byte 5) with
  | none => exact .of_none rfl
  | some range =>
    have hsize : 4 ≤ range.1 ∧ range.1 ≤ p.pending.length := by
      rcases pageRange_size hrange with hn | ⟨hn, hc⟩
      · omega
      · have := hknown.resolve_left hc
        omega
    refine .of_goes (.inl rfl) ?_ ?_
    · simp only [Option.map_some, later, extend, List.drop_append_of_le_length hsize.2]
    · simp only [size, List.length_drop, Option.isSome_some]
      split_ifs <;> omega

/-- The second byte of a page command tells it from the other messages. -/
theorem not_prefix_of_page {pattern : List UInt8} (h : 2 ≤ pattern.length)
    (hpage : ¬ pattern.getD 1 0 ≤ 0xb7 ∨ ¬ 0xb0 ≤ pattern.getD 1 0)
    (hb : 0xb0 ≤ p.byte 1 ∧ p.byte 1 ≤ 0xb7) : ¬ pattern <+: p.pending := by
  intro hp
  rw [byte_of_begins hp (by omega)] at hb
  exact hpage.elim (fun h => h hb.2) (fun h => h hb.1)

theorem scanSh1106_extend (p : DisplayParser) (q : List UInt8) :
    Extends p q (p.scanSh1106 .none) ((p.extend q).scanSh1106 .none) := by
  unfold scanSh1106
  by_cases hinit : sh1106Init <+: p.pending
  · rw [if_pos (consumePattern_fst.mpr hinit)]
    exact .of_consume hinit (by decide) (if_pos (consumePattern_fst.mpr (prefix_extend hinit)))
  rw [consumePattern_of_not hinit]
  by_cases hon : sh1106DisplayOn <+: p.pending
  · have hon' : sh1106DisplayOn <+: (p.extend q).pending := prefix_extend hon
    have hinit' : ¬ sh1106Init <+: (p.extend q).pending := not_prefix_of_conflict hon' (by decide)
    rw [consumePattern_of_not hinit', if_neg Bool.false_ne_true,
      if_pos (consumePattern_fst.mpr hon)]
    exact .of_consume hon (by decide) (if_pos (consumePattern_fst.mpr hon'))
  rw [consumePattern_of_not hon]
  by_cases hshort : [0x00] <+: p.pending ∧ p.pending.length < 2
  · simp only [hshort, Bool.false_eq_true, if_false, and_self, if_true]
    exact .of_wait _
  by_cases hpage : [0x00] <+: p.pending ∧ 0xb0 ≤ p.byte 1 ∧ p.byte 1 ≤ 0xb7
  · have hlen : 2 ≤ p.pending.length := by
      by_contra h
      exact hshort ⟨hpage.1, by omega⟩
    have hpage' : [0x00] <+: (p.extend q).pending ∧
        0xb0 ≤ (p.extend q).byte 1 ∧ (p.extend q).byte 1 ≤ 0xb7 := by
      rw [byte_extend (by omega)]
      exact ⟨prefix_extend hpage.1, hpage.2⟩
    have hshort' : ¬ ([0x00] <+: (p.extend q).pending ∧ (p.extend q).pending.length < 2) := by
      have := length_extend p q
      omega
    rw [consumePattern_of_not (not_prefix_of_page (by decide) (by decide) hpage'.2),
      consumePattern_of_not (not_prefix_of_page (by decide) (by decide) hpage'.2)]
    simp only [Bool.false_eq_true, if_false]
    rw [if_neg hshort, if_neg hshort', if_pos hpage, if_pos hpage']
    have hcommand := scanPageCommand_extend hlen q
    cases hfound : p.scanPageCommand .none with
    | some r =>
      refine ⟨fun r' hr hgoes => ?_, fun r' hr => ?_, fun h => by cases h⟩
      · obtain rfl := Option.some.inj hr
        obtain ⟨hlater, hsize⟩ := hcommand.goes r hfound hgoes
        rw [hlater]
        exact ⟨rfl, hsize⟩
      · obtain rfl := Option.some.inj hr
        exact hcommand.waits r hfound
    | none =>
      rw [hcommand.falls hfound]
      exact .of_undecided p q _ _
  · by_cases hwait : p.pending <+: sh1106Init ∨ p.pending <+: sh1106DisplayOn
    · simp only [Bool.false_eq_true, if_false]
      rw [if_neg hshort, if_neg hpage]
      dsimp only
      rw [if_pos hwait]
      exact .of_wait _
    have hinit' : ¬ sh1106Init <+: (p.extend q).pending :=
      not_prefix_extend hinit fun h => hwait (.inl h)
    have hon' : ¬ sh1106DisplayOn <+: (p.extend q).pending :=
      not_prefix_extend hon fun h => hwait (.inr h)
    rw [consumePattern_of_not hinit', consumePattern_of_not hon']
    have hother : ¬ ([0x00] <+: (p.extend q).pending ∧ (p.extend q).pending.length < 2) ∧
        ¬ ([0x00] <+: (p.extend q).pending ∧
          0xb0 ≤ (p.extend q).byte 1 ∧ (p.extend q).byte 1 ≤ 0xb7) := by
      by_cases hstart : [0x00] <+: p.pending
      · have hlen : 2 ≤ p.pending.length := by
          by_contra h
          exact hshort ⟨hstart, by omega⟩
        have hgrow := length_extend p q
        rw [byte_extend (by omega)]
        exact ⟨fun h => by omega, fun h => hpage ⟨hstart, h.2⟩⟩
      · have hstart' : ¬ [0x00] <+: (p.extend q).pending :=
          not_prefix_extend hstart fun h => hwait (.inl (h.trans (by decide)))
        exact ⟨fun h => hstart' h.1, fun h => hstart' h.1⟩
    simp only [Bool.false_eq_true, if_false]
    rw [if_neg hshort, if_neg hother.1, if_neg hpage, if_neg hother.2]
    exact .of_undecided p q _ _

theorem discard_turn (p : DisplayParser) (q : List UInt8) :
    Turn p q (p.discard .none) ((p.extend q).discard .none) := by
  unfold discard
  by_cases hp : p.pending = []
  · rw [if_pos hp]
    exact .of_wait _
  · have hp' : (p.extend q).pending ≠ [] := List.append_ne_nil_of_left_ne_nil hp q
    rw [if_neg hp, if_neg hp']
    refine .of_goes (.inl rfl) ?_ ?_
    · simp only [later, extend, List.tail_append_of_ne_nil hp]
    · have := List.length_pos_iff.mpr hp
      simp only [size, List.length_tail]
      omega

/-- What falls through is discarded. -/
theorem Extends.turn {found found' : Option Progress} (hext : Extends p q found found') :
    Turn p q (found.getD (p.discard .none)) (found'.getD ((p.extend q).discard .none)) := by
  cases hfound : found with
  | some r =>
    refine ⟨fun hgoes => ?_, hext.waits r hfound⟩
    obtain ⟨hlater, hsize⟩ := hext.goes r hfound hgoes
    rw [hlater]
    exact ⟨rfl, hsize⟩
  | none =>
    rw [hext.falls hfound]
    exact discard_turn p q

theorem scan_turn (p : DisplayParser) (q : List UInt8) :
    Turn p q (p.scan .none) ((p.extend q).scan .none) := by
  unfold scan
  rw [show (p.extend q).controller = p.controller from rfl]
  cases p.controller with
  | ssd1306 => exact (scanSsd1306_extend p q).turn
  | sh1106 => exact (scanSh1106_extend p q).turn

theorem slice_extend {n k : ℕ} (h : n + k ≤ p.pending.length) :
    ((p.extend q).pending.drop n).take k = (p.pending.drop n).take k := by
  rw [drop_extend (by omega)]
  exact List.take_append_of_le_length (by rw [List.length_drop]; omega)

/-- The rows of a window lie within its message. -/
theorem row_le {w : Window} {offset : ℕ} (h : offset < w.pages) :
    1 + offset * w.width + w.width ≤ w.width * w.pages + 1 := by
  have := Nat.mul_le_mul_right w.width (Nat.succ_le_of_lt h)
  rw [Nat.succ_mul, Nat.mul_comm w.pages] at this
  omega

/-- The guards before the data of a message. -/
theorem message_turn {size : ℕ} {data data' : Progress} (hstate : p.state ≠ .scan)
    (hdata : size ≤ p.pending.length → Turn p q data data') :
    Turn p q
      (if p.pending = [] then (false, .none, p)
        else if p.byte 0 ≠ 0x40 then (true, .none, { p with state := .scan })
        else if p.pending.length < size then (false, .none, p) else data)
      (if (p.extend q).pending = [] then (false, .none, p.extend q)
        else if (p.extend q).byte 0 ≠ 0x40 then (true, .none, { p.extend q with state := .scan })
        else if (p.extend q).pending.length < size then (false, .none, p.extend q)
        else data') := by
  by_cases hp : p.pending = []
  · rw [if_pos hp]
    exact .of_wait _
  have hp' : (p.extend q).pending ≠ [] := List.append_ne_nil_of_left_ne_nil hp q
  have hbyte : (p.extend q).byte 0 = p.byte 0 := byte_extend (List.length_pos_iff.mpr hp)
  rw [if_neg hp, if_neg hp', hbyte]
  by_cases hmark : p.byte 0 ≠ 0x40
  · rw [if_pos hmark, if_pos hmark]
    refine .of_goes (.inl rfl) rfl ?_
    simp only [DisplayParser.size, if_neg hstate, if_true]
    omega
  rw [if_neg hmark, if_neg hmark]
  by_cases hlen : p.pending.length < size
  · rw [if_pos hlen]
    exact .of_wait _
  have hlen' : ¬ (p.extend q).pending.length < size := by
    have := length_extend p q
    omega
  rw [if_neg hlen, if_neg hlen']
  exact hdata (by omega)

theorem readSsd1306Data_turn (w : Window) (q : List UInt8) (hstate : p.state ≠ .scan) :
    Turn p q (p.readSsd1306Data w .none) ((p.extend q).readSsd1306Data w .none) := by
  refine message_turn hstate fun hlen => ?_
  have hdraw : (List.range w.pages).foldl (fun f offset =>
      f.copy ((w.page + offset) * displayWidth + w.x)
        (((p.extend q).pending.drop (1 + offset * w.width)).take w.width)) p.framebuffer =
      (List.range w.pages).foldl (fun f offset =>
        f.copy ((w.page + offset) * displayWidth + w.x)
          ((p.pending.drop (1 + offset * w.width)).take w.width)) p.framebuffer := by
    apply List.foldl_ext
    intro f offset hoffset
    have hrow := row_le (List.mem_range.mp hoffset)
    rw [slice_extend (by omega)]
  rw [show (p.extend q).framebuffer = p.framebuffer from rfl, hdraw, drop_extend hlen]
  have hsize : ∀ f, size { p with
      framebuffer := f, pending := p.pending.drop (w.width * w.pages + 1), state := .scan } <
      p.size := fun _ => size_taken (Nat.succ_pos _) hlen .scan
  by_cases hfull : w.x = 0 ∧ w.width = displayWidth ∧ w.page = 0 ∧ w.pages = displayHeight / 8
  · rw [if_pos hfull, if_pos hfull]
    exact .of_goes (.inl rfl) rfl (hsize _)
  · rw [if_neg hfull, if_neg hfull]
    exact .of_goes (.inl rfl) rfl (hsize _)

theorem readSh1106PageData_turn (page : Page) (span : Span) (q : List UInt8)
    (hstate : p.state ≠ .scan) :
    Turn p q (p.readSh1106PageData page span .none)
      ((p.extend q).readSh1106PageData page span .none) := by
  refine message_turn hstate fun hlen => ?_
  rw [slice_extend (by omega), drop_extend hlen]
  by_cases hlast : page.val = 7
  · rw [if_pos hlast, if_pos hlast]
    refine .of_goes (.inl rfl) rfl ?_
    simp only [size, List.length_drop, if_neg hstate, Option.isSome_none]
    split_ifs <;> omega
  · rw [if_neg hlast, if_neg hlast]
    refine .of_goes (.inl rfl) rfl ?_
    simp only [size, List.length_drop, if_neg hstate]
    split_ifs <;> omega

theorem advance_turn (p : DisplayParser) (q : List UInt8) :
    Turn p q (p.advance .none) ((p.extend q).advance .none) := by
  unfold advance
  rw [extend_state]
  cases hstate : p.state with
  | scan => exact scan_turn p q
  | ssd1306Data w => exact readSsd1306Data_turn w q (by rw [hstate]; simp)
  | sh1106PageData page span => exact readSh1106PageData_turn page span q (by rw [hstate]; simp)

end DisplayParser

end BscTarget
