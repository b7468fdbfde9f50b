import BscTarget.Display.Turns

/-!
# Reconstruction

The messages of a controller, as a host encodes them. Whatever the order of its messages and the
bytes of its payloads, a stream of them is decoded message by message: nothing is discarded, every
payload is drawn where its command says, and nothing stays behind (`reconstruction`).
-/

namespace BscTarget

/-! ## Messages -/

inductive Message : DisplayController → Type
  | ssd1306Init : Message .ssd1306
  | rectangle (w : Window) (data : Vector UInt8 (w.width * w.pages)) : Message .ssd1306
  | sh1106Init : Message .sh1106
  | sh1106DisplayOn : Message .sh1106
  | ranged (page : Page) (span : Span) (data : Vector UInt8 span.width) : Message .sh1106
  | legacy (page : Page) (data : Vector UInt8 displayWidth) : Message .sh1106

namespace Message

variable {c : DisplayController}

def encode : Message c → List UInt8
  | .ssd1306Init => BscTarget.ssd1306Init
  | .rectangle w data => addressCommand w ++ 0x40 :: data.toList
  | .sh1106Init => BscTarget.sh1106Init
  | .sh1106DisplayOn => BscTarget.sh1106DisplayOn
  | .ranged page span data => rangedCommand page span ++ 0x40 :: data.toList
  | .legacy page data => legacyCommand page ++ 0x40 :: data.toList

/-- Whether a message carries a payload. -/
def draws : Message c → Bool
  | .rectangle _ _ => true
  | .ranged _ _ _ => true
  | .legacy _ _ => true
  | _ => false

def apply (f : Framebuffer) : Message c → Framebuffer
  | .rectangle w data => f.draw w data.toList
  | .ranged page span data => f.draw (span.window page) data.toList
  | .legacy page data => f.draw (Span.full.window page) data.toList
  | _ => f

end Message

namespace DisplayParser

variable {p p' p'' : DisplayParser} {os os' : List Emission} {rest rest' : List UInt8}
  {f f' : Framebuffer} {n n' : ℕ}

/-! ## Decoding -/

/-- The parser has read on to `rest`, has drawn `n` payloads that make the framebuffer `f`, and has
dropped nothing. -/
structure Decoded (p : DisplayParser) (f : Framebuffer) (n : ℕ) (rest : List UInt8)
    (os : List Emission) (p' : DisplayParser) : Prop where
  emits : Emits reader p os p'
  controller : p'.controller = p.controller
  state : p'.state = .scan
  pending : p'.pending = rest
  framebuffer : p'.framebuffer = f
  discarded : (total os).discardedBytes = 0
  drawn : (total os).displayUpdates = n

theorem Decoded.trans (h : Decoded p f n rest os p') (h' : Decoded p' f' n' rest' os' p'') :
    Decoded p f' (n + n') rest' (os ++ os') p'' where
  emits := h.emits.trans h'.emits
  controller := h'.controller.trans h.controller
  state := h'.state
  pending := h'.pending
  framebuffer := h'.framebuffer
  discarded := by
    rw [total_append, ParseUpdate.plus, h.discarded, h'.discarded]
  drawn := by
    rw [total_append, ParseUpdate.plus, h.drawn, h'.drawn]

theorem pattern_decoded {bytes : List UInt8} (hs : p.state = .scan)
    (hb : bytes ∈ patterns p.controller) (hp : p.pending = bytes ++ rest) :
    ∃ os p', Decoded p p.framebuffer 0 rest os p' :=
  ⟨_, _, .single (pattern_step hs hb hp), rfl, hs, rfl, rfl, rfl, rfl⟩

theorem rectangle_decoded {w : Window} {data : List UInt8} (hs : p.state = .scan)
    (hc : p.controller = .ssd1306) (hp : p.pending = addressCommand w ++ (0x40 :: data ++ rest))
    (hd : data.length = w.width * w.pages) :
    ∃ os p', Decoded p (p.framebuffer.draw w data) 1 rest os p' := by
  have haddress := address_step hs hc hp
  have hwindow := window_step (p := { p with
    pending := 0x40 :: data ++ rest, state := .ssd1306Data w }) rfl rfl hd
  refine ⟨_, _, .cons haddress (.single hwindow), rfl, rfl, rfl, rfl, ?_, ?_⟩
  · simp only [total, ParseUpdate.plus]
    split_ifs <;> rfl
  · simp only [total, ParseUpdate.plus]
    split_ifs <;> rfl

section Page

variable {page : Page} {span : Span} {bytes data : List UInt8}

theorem paint_eq (p : DisplayParser) (page : Page) (span : Span) (data rest : List UInt8) :
    (p.paint page span data rest).controller = p.controller ∧
      (p.paint page span data rest).state = .scan ∧
      (p.paint page span data rest).pending = rest ∧
      (p.paint page span data rest).framebuffer = p.framebuffer.draw (span.window page) data := by
  unfold paint
  dsimp only
  split_ifs <;> exact ⟨rfl, rfl, rfl, rfl⟩

theorem pageUpdate_counts (p : DisplayParser) (page : Page) (span : Span) :
    (p.pageUpdate page span).discardedBytes = 0 ∧ (p.pageUpdate page span).displayUpdates = 1 := by
  unfold pageUpdate
  split_ifs <;> exact ⟨rfl, rfl⟩

/-- A page command and its data, where no frame ends before it. -/
theorem selected_emits (hs : p.state = .scan) (hc : p.controller = .sh1106)
    (hb : PageCommand bytes page span) (hp : p.pending = bytes ++ (0x40 :: data ++ rest))
    (hd : data.length = span.width)
    (hl : ¬ p.sh1106LastPageCommand.any (page.val < ·) = true) :
    let q := p.select page span (0x40 :: data ++ rest)
    Emits reader p [(.none, p.framebuffer),
      (q.pageUpdate page span, p.framebuffer.draw (span.window page) data)]
      (q.paint page span data rest) := by
  intro q
  have hpage := (selects hb hp).page_step hs hc hl
  rw [hp, List.drop_left] at hpage
  have hspan := span_step (p := q) rfl rfl hd
  rw [(paint_eq q page span data rest).2.2.2] at hspan
  exact .cons hpage (.single hspan)

/-- A page command and its data, after the boundary if a frame ends before it. -/
theorem page_emits (hs : p.state = .scan) (hc : p.controller = .sh1106)
    (hb : PageCommand bytes page span) (hp : p.pending = bytes ++ (0x40 :: data ++ rest))
    (hd : data.length = span.width) :
    ∃ os q, Emits reader p os (paint q page span data rest) ∧ q.controller = p.controller ∧
      q.framebuffer = p.framebuffer ∧ (total os).discardedBytes = 0 ∧
      (total os).displayUpdates = 1 := by
  by_cases hl : p.sh1106LastPageCommand.any (page.val < ·) = true
  · have hboundary := (selects hb hp).boundary_step hs hc hl
    have hemits := selected_emits (p := p.untracked) hs hc hb hp hd (by simp [untracked])
    obtain ⟨hdiscarded, hdrawn⟩ :=
      pageUpdate_counts (p.untracked.select page span (0x40 :: data ++ rest)) page span
    refine ⟨_, _, .cons hboundary hemits, rfl, rfl, ?_, ?_⟩
    · simp only [total, ParseUpdate.plus, ParseUpdate.none, ParseUpdate.boundary, hdiscarded]
    · simp only [total, ParseUpdate.plus, ParseUpdate.none, ParseUpdate.boundary, hdrawn]
  · obtain ⟨hdiscarded, hdrawn⟩ :=
      pageUpdate_counts (p.select page span (0x40 :: data ++ rest)) page span
    refine ⟨_, _, selected_emits hs hc hb hp hd hl, rfl, rfl, ?_, ?_⟩
    · simp only [total, ParseUpdate.plus, ParseUpdate.none, hdiscarded]
    · simp only [total, ParseUpdate.plus, ParseUpdate.none, hdrawn]

theorem page_decoded (hs : p.state = .scan) (hc : p.controller = .sh1106)
    (hb : PageCommand bytes page span) (hp : p.pending = bytes ++ (0x40 :: data ++ rest))
    (hd : data.length = span.width) :
    ∃ os p', Decoded p (p.framebuffer.draw (span.window page) data) 1 rest os p' := by
  obtain ⟨os, q, hemits, hcontroller, hframe, hdiscarded, hdrawn⟩ := page_emits hs hc hb hp hd
  obtain ⟨hc', hs', hp', hf'⟩ := paint_eq q page span data rest
  rw [hframe] at hf'
  exact ⟨os, _, hemits, hc'.trans hcontroller, hs', hp', hf', hdiscarded, hdrawn⟩

end Page

/-- Every message is decoded as it was encoded. -/
theorem message_decoded {c : DisplayController} (m : Message c) (hs : p.state = .scan)
    (hc : p.controller = c) (hp : p.pending = m.encode ++ rest) :
    ∃ os p', Decoded p (m.apply p.framebuffer) (if m.draws then 1 else 0) rest os p' := by
  cases m with
  | ssd1306Init => exact pattern_decoded hs (by rw [hc]; exact List.mem_cons_self) hp
  | sh1106Init => exact pattern_decoded hs (by rw [hc]; exact List.mem_cons_self) hp
  | sh1106DisplayOn =>
    exact pattern_decoded hs (by rw [hc]; exact List.mem_cons_of_mem _ List.mem_cons_self) hp
  | rectangle w data =>
    rw [Message.encode, List.append_assoc] at hp
    exact rectangle_decoded hs hc hp data.length_toList
  | ranged page span data =>
    rw [Message.encode, List.append_assoc] at hp
    exact page_decoded hs hc (.ranged page span) hp data.length_toList
  | legacy page data =>
    rw [Message.encode, List.append_assoc] at hp
    exact page_decoded hs hc (.legacy page) hp data.length_toList

theorem messages_decoded {c : DisplayController} (ms : List (Message c)) (hs : p.state = .scan)
    (hc : p.controller = c) (hp : p.pending = ms.flatMap Message.encode ++ rest) :
    ∃ os p', Decoded p (ms.foldl Message.apply p.framebuffer) (ms.countP Message.draws) rest
      os p' := by
  induction ms generalizing p with
  | nil => exact ⟨[], p, .nil p, rfl, hs, hp, rfl, rfl, rfl⟩
  | cons m ms ih =>
    rw [List.flatMap_cons, List.append_assoc] at hp
    obtain ⟨os, p', hm⟩ := message_decoded m hs hc hp
    obtain ⟨os', p'', hms⟩ := ih hm.state (hm.controller.trans hc) hm.pending
    rw [hm.framebuffer] at hms
    refine ⟨os ++ os', p'', ?_⟩
    rw [List.foldl_cons, List.countP_cons, Nat.add_comm]
    exact hm.trans hms

end DisplayParser

namespace DisplayRuntime

open DisplayParser

/-- A stream of messages, cut into any chunks, is reconstructed: nothing is discarded, every
payload is one update drawn into its window, and the parser is back where it began. -/
theorem reconstruction (r : DisplayRuntime) (hs : r.parser.state = .scan)
    (hp : r.parser.pending = []) (ms : List (Message r.parser.controller))
    (chunks : List (List UInt8)) (hchunks : chunks.flatten = ms.flatMap Message.encode) :
    let r' := chunks.foldl (fun r chunk => r.push chunk) r
    r'.discardedBytes = r.discardedBytes ∧
      r'.displayUpdates = r.displayUpdates + ms.countP Message.draws ∧
      r'.parser.state = .scan ∧ r'.parser.pending = [] ∧
      r'.parser.framebuffer = ms.foldl Message.apply r.parser.framebuffer := by
  intro r'
  obtain ⟨os, p, hreads, hr'⟩ := pushes_reads r (drained_of_nil hs hp) chunks
  have hpending : (r.parser.extend chunks.flatten).pending = ms.flatMap Message.encode ++ [] := by
    rw [extend_pending, hp, hchunks, List.nil_append, List.append_nil]
  obtain ⟨os', p', hdecoded⟩ :=
    messages_decoded (p := r.parser.extend chunks.flatten) ms hs rfl hpending
  have hwaits := emitStep_drained.mpr (drained_of_nil hdecoded.state hdecoded.pending)
  obtain ⟨rfl, rfl⟩ := hreads.unique (hdecoded.emits.reads (.wait hwaits))
  rw [List.append_nil] at hr'
  rw [show r' = _ from hr']
  refine ⟨?_, ?_, hdecoded.state, hdecoded.pending, hdecoded.framebuffer⟩
  · show _ + _ = _
    rw [hdecoded.discarded, Nat.add_zero]
  · show _ + _ = _
    rw [hdecoded.drawn]

/-- Display on, then three bytes of page 3 that begin like another display-on command. -/
theorem reconstruction_lookalike :
    let ms : List (Message .sh1106) := [.sh1106DisplayOn,
      .ranged ⟨3, by decide⟩ ⟨4, 3, by decide, by decide⟩ #v[0x00, 0xaf, 0x00]]
    let chunks := [[0x00, 0xaf, 0x00], [0xb3, 0x08, 0x10, 0x06, 0x10, 0x40, 0x00, 0xaf], [0x00]]
    let r := chunks.foldl (fun r chunk => r.push chunk) (start .sh1106)
    r.discardedBytes = 0 ∧ r.displayUpdates = 0 + ms.countP Message.draws ∧
      r.parser.state = .scan ∧ r.parser.pending = [] ∧
      r.parser.framebuffer = ms.foldl Message.apply (start .sh1106).parser.framebuffer := by
  intro ms chunks r
  exact reconstruction (start .sh1106) rfl rfl ms chunks rfl

end DisplayRuntime

end BscTarget
