import Mathlib.Data.Nat.Bitwise
import BscTarget.Display.Accounting

/-!
# Complete frames of the SH1106

Three variables track the pages of a frame. By the moves made so far they say whether page 0 was
selected since the last reset and which pages were written in full since then (`Tracking`), so
page 7 completes a frame exactly when nothing of it is older than its page 0 (`completion_exact`).
-/

namespace BscTarget

/-! ## What the moves say -/

/-- A window as wide as the display. -/
def Window.Wide (w : Window) : Prop := w.x = 0 ∧ w.width = displayWidth

instance (w : Window) : Decidable w.Wide := inferInstanceAs (Decidable (_ ∧ _))

/-- Whether page 0 was selected since the last page-7 payload and the last boundary. -/
def begun : List Move → Bool
  | [] => false
  | .boundary :: _ => false
  | .take (.payload w _) :: log => if w.page = 7 then false else begun log
  | .take (.command _ w) :: log => if w.page = 0 then true else begun log
  | _ :: log => begun log

/-- Whether a page received a payload of its full width since page 0 was selected last. -/
def covered (page : ℕ) : List Move → Bool
  | [] => false
  | .take (.command _ w) :: log => if w.page = 0 then false else covered page log
  | .take (.payload w _) :: log => (decide w.Wide && w.page == page) || covered page log
  | _ :: log => covered page log

/-- The payloads since page 0 was selected last, drawn over `f`. -/
def redrawn (f : Framebuffer) : List Move → Framebuffer
  | [] => f
  | .take (.command _ w) :: log => if w.page = 0 then f else redrawn f log
  | .take (.payload w data) :: log => (redrawn f log).draw w data
  | _ :: log => redrawn f log

/-- What a payload of a whole page leaves of the cells there does not depend on what it is drawn
over. -/
theorem redrawn_covered {log : List Move} (hpages : ∀ w data, .take (.payload w data) ∈ log →
    w.pages = 1) (f g : Framebuffer) {i : ℕ} (hi : i < framebufferSize)
    (h : covered (i / displayWidth) log = true) : (redrawn f log)[i] = (redrawn g log)[i] := by
  induction log with
  | nil => cases h
  | cons m log ih =>
    have hpages' : ∀ w data, .take (.payload w data) ∈ log → w.pages = 1 :=
      fun w data hm => hpages w data (List.mem_cons_of_mem _ hm)
    match m with
    | .take (.command bytes w) =>
      rw [covered] at h
      split_ifs at h with h0
      rw [redrawn, redrawn, if_neg h0, if_neg h0]
      exact ih hpages' h
    | .take (.payload w data) =>
      have hone := hpages w data List.mem_cons_self
      rw [redrawn, redrawn, Framebuffer.getElem_draw _ _ _ hi, Framebuffer.getElem_draw _ _ _ hi]
      by_cases hin : Framebuffer.Inside w i
      · rw [if_pos hin, if_pos hin]
      · rw [if_neg hin, if_neg hin]
        refine ih hpages' ?_
        rw [covered, Bool.or_eq_true, Bool.and_eq_true, decide_eq_true_eq, beq_iff_eq] at h
        refine h.resolve_left fun ⟨hwide, hpage⟩ => hin ?_
        have hcolumn : i % displayWidth < displayWidth := Nat.mod_lt _ (by decide)
        exact ⟨hpage.le, by omega, by rw [hwide.1]; exact Nat.zero_le _,
          by rw [hwide.1, hwide.2, Nat.zero_add]; exact hcolumn⟩
    | .take (.pattern _) => exact ih hpages' h
    | .take (.discarded _) => exact ih hpages' h
    | .abandon => exact ih hpages' h
    | .boundary => exact ih hpages' h

/-! ## The pages as bits -/

theorem eq_full_iff (pages : UInt8) : pages = 0xff ↔ ∀ k < 8, pages.toNat.testBit k = true := by
  constructor
  · rintro rfl
    decide
  · intro h
    apply UInt8.toNat_inj.mp
    apply Nat.eq_of_testBit_eq
    intro k
    by_cases hk : k < 8
    · have hfull : ∀ k < 8, (0xff : UInt8).toNat.testBit k = true := by decide
      rw [h k hk, hfull k hk]
    · have hlt : ∀ b : UInt8, b.toNat.testBit k = false := fun b =>
        Nat.testBit_lt_two_pow (Nat.lt_of_lt_of_le b.toNat_lt
          (Nat.pow_le_pow_right (by decide) (by omega : 8 ≤ k)))
      rw [hlt, hlt]

/-- `|= 1 << page` sets the bit of the page. -/
theorem testBit_mark (pages : UInt8) (page : Page) {k : ℕ} (hk : k < 8) :
    (pages ||| (1 <<< page.val)).toNat.testBit k =
      (page.val.toNat == k || pages.toNat.testBit k) := by
  have hbit : ∀ n < 8, ∀ k < 8,
      (1 <<< UInt8.ofNat n : UInt8).toNat.testBit k = ((UInt8.ofNat n).toNat == k) := by decide
  have hpage := hbit page.val.toNat page.property k hk
  rw [UInt8.ofNat_toNat] at hpage
  rw [UInt8.toNat_or, Nat.testBit_or, hpage, Bool.or_comm]

namespace DisplayParser

variable {p₀ p p' : DisplayParser} {fed : List UInt8} {log : List Turned} {moves : List Move}

/-- The tracker of an SH1106 parser, by the moves made. -/
structure Tracking (moves : List Move) (p : DisplayParser) : Prop where
  controller : p.controller = .sh1106
  plain : ∀ w, p.state ≠ .ssd1306Data w
  started : p.sh1106FrameStarted = begun moves
  pages : begun moves = true → ∀ k < 8, p.sh1106Pages.toNat.testBit k = covered k moves
  rows : ∀ w data, .take (.payload w data) ∈ moves → w.pages = 1
  drawn : ∃ f, p.framebuffer = redrawn f moves

/-- Page 7 completes a frame when page 0 began it and every page was written in full since. -/
def Completes (m : Move) (older : List Move) : Prop :=
  begun older = true ∧ ∀ page < displayHeight / 8, covered page (m :: older) = true

instance (m : Move) (older : List Move) : Decidable (Completes m older) :=
  inferInstanceAs (Decidable (_ ∧ _))

/-- What a move reports, by the moves before it. -/
structure Exact (m : Move) (older : List Move) (o : Emission) : Prop where
  last : ∀ w data, m = .take (.payload w data) → w.page = 7 →
    o.1.completedFrames = (if Completes m older then 1 else 0) ∧
    o.1.partialFrameBoundary = !decide (Completes m older)
  only : (∀ w data, m = .take (.payload w data) → w.page ≠ 7) → o.1.completedFrames = 0
  fresh : o.1.completedFrames ≠ 0 → ∀ f, o.2 = redrawn f (m :: older)

namespace Tracking

theorem page_seven (page : Page) : page.val = 7 ↔ page.val.toNat = 7 :=
  (UInt8.toNat_inj (a := page.val) (b := 7)).symm

theorem page_zero (page : Page) : page.val = 0 ↔ page.val.toNat = 0 :=
  (UInt8.toNat_inj (a := page.val) (b := 0)).symm

/-- The bits behind a page payload. -/
theorem stored_bits (hi : Tracking moves p) (hb : begun moves = true) (page : Page) (span : Span)
    (data : List UInt8) {k : ℕ} (hk : k < 8) :
    (p.stored page span).toNat.testBit k =
      covered k (.take (.payload (span.window page) data) :: moves) := by
  rw [covered, ← hi.pages hb k hk, stored]
  by_cases hwide : span.x = 0 ∧ span.width = displayWidth
  · rw [if_pos hwide, testBit_mark _ _ hk, decide_eq_true (show (span.window page).Wide from hwide),
      Bool.true_and]
    rfl
  · rw [if_neg hwide, decide_eq_false (show ¬ (span.window page).Wide from hwide), Bool.false_and,
      Bool.false_or]

/-- The test of `read_sh1106_page_data` at page 7. -/
theorem frame_iff (hi : Tracking moves p) (page : Page) (span : Span) (data : List UInt8) :
    (p.sh1106FrameStarted = true ∧ p.stored page span = 0xff) ↔
      Completes (.take (.payload (span.window page) data)) moves := by
  rw [Completes, hi.started, eq_full_iff]
  refine and_congr_right fun hb => forall₂_congr fun k hk => ?_
  rw [hi.stored_bits hb page span data hk]

theorem turn {m : Move} {u : ParseUpdate} (hi : Tracking moves p) (h : Moves p m u p') :
    Tracking (m :: moves) p' := by
  have hrows : (∀ w data, m = .take (.payload w data) → w.pages = 1) →
      ∀ w data, .take (.payload w data) ∈ m :: moves → w.pages = 1 := fun hm w data hmem =>
    (List.mem_cons.mp hmem).elim (fun heq => hm w data heq.symm) (hi.rows w data)
  obtain ⟨f, hf⟩ := hi.drawn
  refine ⟨h.controller.trans hi.controller, ?_, ?_, ?_, hrows ?_, ?_⟩
  · cases h with
    | address _ hc => rw [hi.controller] at hc; cases hc
    | span => unfold paint; dsimp only; split_ifs <;> exact fun w h => by cases h
    | pattern | discard | boundary => exact hi.plain
    | _ => exact fun w h => by cases h
  · cases h with
    | address _ hc => rw [hi.controller] at hc; cases hc
    | window hs => exact absurd hs (hi.plain _)
    | @page page span =>
      show (if page.val = 0 then true else p.sh1106FrameStarted) =
        if page.val.toNat = 0 then true else begun moves
      rw [hi.started]
      exact if_congr (page_zero page) rfl rfl
    | @span page span =>
      unfold paint
      show _ = if page.val.toNat = 7 then false else begun moves
      dsimp only
      split_ifs with h₁ h₂ h₂
      · rfl
      · exact absurd ((page_seven page).mp h₁) h₂
      · exact absurd ((page_seven page).mpr h₂) h₁
      · exact hi.started
    | boundary => rfl
    | _ => exact hi.started
  · cases h with
    | address _ hc => rw [hi.controller] at hc; cases hc
    | window hs => exact absurd hs (hi.plain _)
    | @page page span =>
      intro hb k hk
      show (if page.val = 0 then (0 : UInt8) else p.sh1106Pages).toNat.testBit k =
        if page.val.toNat = 0 then false else covered k moves
      by_cases h0 : page.val.toNat = 0
      · rw [if_pos h0, if_pos ((page_zero page).mpr h0)]
        exact Nat.zero_testBit k
      · rw [if_neg h0, if_neg fun h => h0 ((page_zero page).mp h)]
        refine hi.pages ?_ k hk
        rwa [begun, if_neg (show ¬ (span.window page).page = 0 from h0)] at hb
    | @span page span data rest =>
      intro hb k hk
      rw [begun] at hb
      split_ifs at hb with h7
      rw [← hi.stored_bits hb page span data hk]
      unfold paint
      rw [if_neg fun h => h7 ((page_seven page).mp h)]
    | boundary => exact fun hb => by cases hb
    | _ => exact hi.pages
  · cases h with
    | window hs => exact absurd hs (hi.plain _)
    | span => exact fun w data heq => by cases heq; rfl
    | _ => exact fun w data heq => by cases heq
  · have hframe := h.framebuffer
    cases h with
    | @page page span =>
      by_cases h0 : (span.window page).page = 0
      · exact ⟨p.framebuffer, by rw [hframe, redrawn, if_pos h0]; rfl⟩
      · exact ⟨f, by rw [hframe, redrawn, if_neg h0]; exact hf⟩
    | address _ hc => rw [hi.controller] at hc; cases hc
    | window hs => exact absurd hs (hi.plain _)
    | span => exact ⟨f, by rw [hframe, redrawn, ← hf]; rfl⟩
    | _ => exact ⟨f, hf⟩

theorem exact {m : Move} {o : Emission} (hi : Tracking moves p) (h : Moves p m o.1 p')
    (hf : o.2 = p'.framebuffer) : Exact m moves o := by
  have hi' := hi.turn h
  obtain ⟨u, f'⟩ := o
  dsimp only at h hf
  refine ⟨?_, ?_, ?_⟩
  · rintro w data rfl h7
    cases h with
    | window hs => exact absurd hs (hi.plain _)
    | @span page span =>
      show (p.pageUpdate page span).completedFrames = _ ∧
        (p.pageUpdate page span).partialFrameBoundary = _
      rw [pageUpdate, if_pos ((page_seven page).mpr h7)]
      by_cases hc : Completes (.take (.payload (span.window page) data)) moves
      · rw [if_pos ((hi.frame_iff page span data).mpr hc), if_pos hc, decide_eq_true hc]
        exact ⟨rfl, rfl⟩
      · rw [if_neg fun h => hc ((hi.frame_iff page span data).mp h), if_neg hc,
          decide_eq_false hc]
        exact ⟨rfl, rfl⟩
  · intro hm
    cases h with
    | window hs => exact absurd hs (hi.plain _)
    | @span page span data =>
      show (p.pageUpdate page span).completedFrames = 0
      rw [pageUpdate, if_neg fun h => hm _ _ rfl ((page_seven page).mp h)]
      rfl
    | _ => rfl
  · intro hne f
    cases h with
    | window hs => exact absurd hs (hi.plain _)
    | @span page span data =>
      have hcomplete : Completes (.take (.payload (span.window page) data)) moves := by
        rw [← hi.frame_iff]
        by_contra hframe
        refine hne ?_
        show (p.pageUpdate page span).completedFrames = 0
        rw [pageUpdate, if_neg hframe]
        split_ifs <;> rfl
      obtain ⟨g, hg⟩ := hi'.drawn
      dsimp only at hf ⊢
      rw [hf, hg]
      refine Vector.ext fun i hi => redrawn_covered hi'.rows g f hi (hcomplete.2 _ ?_)
      have : i < 1024 := hi
      simp only [displayWidth, displayHeight]
      omega
    | _ => exact absurd rfl hne

theorem of_traced (h : Traced (new .sh1106) fed log p) :
    Tracking (log.map Prod.fst) p ∧ ∀ newer m o older, log = newer ++ (m, o) :: older →
      Exact m (older.map Prod.fst) o := by
  induction h with
  | start =>
    refine ⟨⟨rfl, (fun w h => by cases h), rfl, (fun h => by cases h), (fun w data h => by cases h),
      _, rfl⟩, ?_⟩
    intro newer m o older h
    simp at h
  | input _ q ih =>
    obtain ⟨⟨hc, hplain, hstarted, hpages, hrows, hdrawn⟩, hexact⟩ := ih
    exact ⟨⟨hc, hplain, hstarted, hpages, hrows, hdrawn⟩, hexact⟩
  | turn _ hstep hm hf ih =>
    refine ⟨ih.1.turn hm, ?_⟩
    intro newer m' o' older h
    rcases newer with _ | ⟨x, newer⟩
    · obtain ⟨heq, rfl⟩ := List.cons.inj h
      cases heq
      exact ih.1.exact hm hf
    · exact ih.2 newer m' o' older (List.cons.inj h).2

end Tracking

end DisplayParser

namespace DisplayRuntime

open DisplayParser

/-- Whatever an SH1106 display is fed, a page-7 payload reports a complete frame if and only if a
page 0 began it and every page was written in full since, nothing else reports one, and nothing of
what a complete frame presents is older than its page 0. -/
theorem completion_exact (chunks : List (List UInt8)) :
    ∃ log p, Traced (new .sh1106) chunks.flatten log p ∧
      chunks.foldl (fun r chunk => r.push chunk) (start .sh1106) =
        (start .sh1106).after (emitted log) p ∧
      ∀ newer m o older, log = newer ++ (m, o) :: older → Exact m (older.map Prod.fst) o := by
  obtain ⟨log, p, htraced, hpushes⟩ := pushes_traced (start .sh1106) chunks
  exact ⟨log, p, htraced, hpushes, (Tracking.of_traced htraced).2⟩

end DisplayRuntime

end BscTarget
