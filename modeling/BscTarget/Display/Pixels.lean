import BscTarget.Display.Parser
import BscTarget.Lib.Raster

/-!
# Pixels

`SdlDisplay::render` paints the framebuffer, turned by half a turn, into a texture of 32-bit pixels,
and the shim of `sdl_capture.c` scans what is shown of it back into the bytes of a framebuffer. With
SDL between them that shows the nearest texel, the capture is the framebuffer (`capture_render`).
-/

namespace BscTarget

open Raster

def pixelOff : UInt32 := 0xff000000
def pixelOn : UInt32 := 0xfff2f2f2

/-! ## Painting the texture -/

/-- The color of the output pixel in row `outputY` and column `outputX`. -/
def Framebuffer.color (framebuffer : Framebuffer) (outputY outputX : ℕ) : UInt32 :=
  let sourceY := displayHeight - 1 - outputY
  let page := sourceY / 8
  let bit := sourceY % 8
  let sourceX := displayWidth - 1 - outputX
  let byte := framebuffer.toList.getD (page * displayWidth + sourceX) 0
  if byte &&& 1 <<< UInt8.ofNat bit ≠ 0 then pixelOn else pixelOff

/-- The loops of `SdlDisplay::render`: `pixels` and `pitch` are those of the locked texture. -/
def Framebuffer.paint (framebuffer : Framebuffer) (pitch : ℕ) (pixels : Mem UInt8) : Mem UInt8 :=
  (List.range displayHeight).foldl (fun pixels outputY =>
    (List.range displayWidth).foldl (fun pixels outputX =>
      let row := outputY * pitch
      putWord pixels (row + outputX * 4) (framebuffer.color outputY outputX)) pixels) pixels

/-- The texel in column `x` of row `y`. -/
def texel (pitch : ℕ) (pixels : Mem UInt8) (x y : ℕ) : UInt32 := getWord pixels (y * pitch + x * 4)

section Paint

variable {f : Framebuffer} {pitch : ℕ} {pixels : Mem UInt8}

theorem paint_eq : f.paint pitch pixels =
    stores (fun p => p.1 * pitch + p.2 * 4) (fun p => f.color p.1 p.2) pixels
      (points displayHeight displayWidth) :=
  foldl_points (fun m p => putWord m (p.1 * pitch + p.2 * 4) (f.color p.1 p.2)) _ _ _

/-- The words of different pixels do not overlap. -/
theorem texels_disjoint (hpitch : displayWidth * 4 ≤ pitch) {p q : ℕ × ℕ}
    (hp : p ∈ points displayHeight displayWidth) (hq : q ∈ points displayHeight displayWidth)
    (hne : p ≠ q) : p.1 * pitch + p.2 * 4 + 4 ≤ q.1 * pitch + q.2 * 4 ∨
      q.1 * pitch + q.2 * 4 + 4 ≤ p.1 * pitch + p.2 * 4 := by
  obtain ⟨y, x⟩ := p
  obtain ⟨y', x'⟩ := q
  obtain ⟨-, hx⟩ := mem_points.mp hp
  obtain ⟨-, hx'⟩ := mem_points.mp hq
  dsimp only at *
  have hbelow {y y' : ℕ} (h : y < y') : y * pitch + displayWidth * 4 ≤ y' * pitch := by
    have := Nat.mul_le_mul_right pitch (Nat.succ_le_of_lt h)
    rw [Nat.succ_mul] at this
    omega
  rcases Nat.lt_trichotomy y y' with h | rfl | h
  · have := hbelow h
    omega
  · have : x ≠ x' := fun h => hne (by rw [h])
    omega
  · have := hbelow h
    omega

theorem texel_paint (hpitch : displayWidth * 4 ≤ pitch) {x y : ℕ} (hx : x < displayWidth)
    (hy : y < displayHeight) : texel pitch (f.paint pitch pixels) x y = f.color y x := by
  have hmem : (y, x) ∈ points displayHeight displayWidth := mem_points.mpr ⟨hy, hx⟩
  unfold texel
  rw [paint_eq]
  exact (getWord_stores (nodup_points _ _) (fun p hp q hq => texels_disjoint hpitch hp hq) hmem :)

end Paint

/-! ## Scanning what is shown -/

/-- The loops of the shim's `SDL_RenderPresent`, over the pixels as they are read back; it aborts
at an output that is too small and at a color that `render` does not paint. -/
def capture (width height : ℕ) (pixels : ℕ → UInt32) : Option Framebuffer :=
  if width < 128 ∨ height < 64 then none
  else
    (List.range 64).foldlM (fun frame y =>
      (List.range 128).foldlM (fun frame x =>
        let py := (2 * y + 1) * height / 128
        let px := (2 * x + 1) * width / 256
        let color := pixels (py * width + px)
        if color = pixelOn then
          let sy := 63 - y
          let sx := 127 - x
          some (mark frame (sy / 8 * 128 + sx) (sy % 8))
        else if color = pixelOff then some frame
        else none) frame) (Vector.replicate framebufferSize 0)

/-- What the capture makes of a pixel. -/
def lit (color : UInt32) : Option Bool :=
  if color = pixelOn then some true else if color = pixelOff then some false else none

/-- Whether a pixel of the framebuffer is on. -/
def Framebuffer.on (f : Framebuffer) (x y : ℕ) : Bool :=
  (f.toList.getD (y / 8 * displayWidth + x) 0).toNat.testBit (y % 8)

theorem capture_eq {width height : ℕ} (hw : 128 ≤ width) (hh : 64 ≤ height) (pixels : ℕ → UInt32) :
    capture width height pixels =
      marks (fun p : ℕ × ℕ =>
          lit (pixels ((2 * p.1 + 1) * height / 128 * width + (2 * p.2 + 1) * width / 256)))
        (fun p => (63 - p.1) / 8 * 128 + (127 - p.2)) (fun p => (63 - p.1) % 8)
        (Vector.replicate framebufferSize 0) (points 64 128) := by
  rw [capture, if_neg (by omega), marks, ← foldlM_points]
  congr 1
  funext frame y
  congr 1
  funext frame x
  unfold lit
  dsimp only
  split_ifs <;> rfl

theorem cell_lt {x y : ℕ} (hx : x < displayWidth) (hy : y < displayHeight) :
    y / 8 * displayWidth + x < framebufferSize := by
  simp only [displayWidth, displayHeight, framebufferSize] at *
  omega

theorem Framebuffer.on_eq (f : Framebuffer) {x y : ℕ} (hx : x < displayWidth)
    (hy : y < displayHeight) :
    have := cell_lt hx hy
    f.on x y = f[y / 8 * displayWidth + x].toNat.testBit (y % 8) := by
  intro hcell
  rw [Framebuffer.on, List.getD_eq_getElem?_getD, Vector.getElem?_toList,
    Vector.getElem?_eq_getElem hcell]
  rfl

/-- Framebuffers with the same pixels are the same. -/
theorem Framebuffer.ext_on {f g : Framebuffer}
    (h : ∀ x < displayWidth, ∀ y < displayHeight, f.on x y = g.on x y) : f = g := by
  refine Vector.ext fun i hi => ?_
  apply UInt8.toNat_inj.mp
  apply Nat.eq_of_testBit_eq
  intro k
  by_cases hk : k < 8
  · have hx : i % displayWidth < displayWidth := Nat.mod_lt _ (by decide)
    have hy : i / displayWidth * 8 + k < displayHeight := by
      simp only [displayWidth, displayHeight, framebufferSize] at *
      omega
    have hcell : (i / displayWidth * 8 + k) / 8 * displayWidth + i % displayWidth = i := by
      simp only [displayWidth]
      omega
    have hbit : (i / displayWidth * 8 + k) % 8 = k := by omega
    have heq := h _ hx _ hy
    rw [f.on_eq hx hy, g.on_eq hx hy] at heq
    simpa only [hcell, hbit] using heq
  · have hlt (b : UInt8) : b.toNat < 2 ^ k :=
      b.toNat_lt.trans_le (Nat.pow_le_pow_right (by decide) (by omega))
    rw [Nat.testBit_lt_two_pow (hlt _), Nat.testBit_lt_two_pow (hlt _)]

/-- The pixel of the output that is sampled for a pixel of the display. -/
def sample (width height x y : ℕ) : ℕ :=
  (2 * y + 1) * height / 128 * width + (2 * x + 1) * width / 256

/-- What a capture that knows every sample makes of them. -/
theorem capture_spec {width height : ℕ} (hw : 128 ≤ width) (hh : 64 ≤ height)
    (pixels : ℕ → UInt32) (value : ℕ → ℕ → Bool)
    (h : ∀ y < 64, ∀ x < 128,
      lit (pixels (sample width height x y)) = some (value (127 - x) (63 - y))) :
    ∃ g, capture width height pixels = some g ∧
      ∀ x < displayWidth, ∀ y < displayHeight, Framebuffer.on g x y = value x y := by
  obtain ⟨g, hg, hbits⟩ := testBit_marks (fun p : ℕ × ℕ => value (127 - p.2) (63 - p.1))
    (l := points 64 128)
    (fun p hp => h p.1 (mem_points.mp hp).1 p.2 (mem_points.mp hp).2)
    (fun p _ => Nat.mod_lt _ (by decide)) (Vector.replicate framebufferSize 0)
  refine ⟨g, (capture_eq hw hh pixels).trans hg, fun x hx y hy => ?_⟩
  rw [Framebuffer.on_eq g hx hy, hbits, Vector.getElem_replicate, UInt8.toNat_zero,
    Nat.zero_testBit, Bool.false_or]
  simp only [displayWidth, displayHeight] at hx hy
  apply Bool.eq_iff_iff.mpr
  rw [List.any_eq_true]
  constructor
  · rintro ⟨p, hp, hvalue⟩
    obtain ⟨hp₁, hp₂⟩ := mem_points.mp hp
    rw [Bool.and_eq_true, decide_eq_true_iff] at hvalue
    obtain ⟨hvalue, hcell, hbit⟩ := hvalue
    simp only [displayWidth] at hcell
    have hx' : 127 - p.2 = x := by omega
    have hy' : 63 - p.1 = y := by omega
    rw [← hx', ← hy']
    exact hvalue
  · intro hvalue
    refine ⟨(63 - y, 127 - x), mem_points.mpr ⟨by omega, by omega⟩, ?_⟩
    rw [Bool.and_eq_true, decide_eq_true_iff]
    dsimp only
    rw [show 127 - (127 - x) = x by omega, show 63 - (63 - y) = y by omega]
    exact ⟨hvalue, rfl, rfl⟩

/-- A frame is captured exactly where the output is large enough and shows it at every sample. -/
theorem capture_eq_some_iff {width height : ℕ} {pixels : ℕ → UInt32} {g : Framebuffer} :
    capture width height pixels = some g ↔ 128 ≤ width ∧ 64 ≤ height ∧
      ∀ y < 64, ∀ x < 128,
        lit (pixels (sample width height x y)) = some (g.on (127 - x) (63 - y)) := by
  constructor
  · intro hg
    by_cases hsmall : width < 128 ∨ height < 64
    · rw [capture, if_pos hsmall] at hg
      cases hg
    · have hw : 128 ≤ width := by omega
      have hh : 64 ≤ height := by omega
      have hseen : ∀ y < 64, ∀ x < 128, ∃ b, lit (pixels (sample width height x y)) = some b := by
        intro y hy x hx
        rw [capture_eq hw hh] at hg
        exact on_of_marks hg (y, x) (mem_points.mpr ⟨hy, hx⟩)
      have hvalue : ∀ y < 64, ∀ x < 128, lit (pixels (sample width height x y)) =
          some ((lit (pixels (sample width height (127 - (127 - x)) (63 - (63 - y))))).getD
            false) := by
        intro y hy x hx
        obtain ⟨b, hb⟩ := hseen y hy x hx
        rw [show 127 - (127 - x) = x by omega, show 63 - (63 - y) = y by omega, hb]
        rfl
      obtain ⟨g', hg', hon⟩ := capture_spec hw hh pixels
        (fun x y => (lit (pixels (sample width height (127 - x) (63 - y)))).getD false) hvalue
      obtain rfl := Option.some.inj (hg.symm.trans hg')
      refine ⟨hw, hh, fun y hy x hx => ?_⟩
      rw [hvalue y hy x hx, hon _ (by simp only [displayWidth]; omega) _
        (by simp only [displayHeight]; omega)]
  · rintro ⟨hw, hh, hshown⟩
    obtain ⟨g', hg', hon⟩ := capture_spec hw hh pixels g.on hshown
    rw [hg', Framebuffer.ext_on hon]

/-! ## From framebuffer to framebuffer -/

/-- What is painted for a pixel is known to the capture. -/
theorem lit_color (f : Framebuffer) (outputY outputX : ℕ) :
    lit (f.color outputY outputX) =
      some (f.on (displayWidth - 1 - outputX) (displayHeight - 1 - outputY)) := by
  have hbit : (displayHeight - 1 - outputY) % 8 < 8 := Nat.mod_lt _ (by decide)
  have hiff := and_shiftLeft_ne_zero (f.toList.getD
    ((displayHeight - 1 - outputY) / 8 * displayWidth + (displayWidth - 1 - outputX)) 0) hbit
  unfold Framebuffer.color Framebuffer.on
  dsimp only
  by_cases hon : f.on (displayWidth - 1 - outputX) (displayHeight - 1 - outputY) = true
  · rw [if_pos (hiff.mpr hon)]
    exact congrArg some hon.symm
  · rw [if_neg fun h => hon (hiff.mp h)]
    exact congrArg some (eq_false_of_ne_true hon).symm

/-- SDL shows of a texture, on an output of the shape of the display, the texel that lies under
the middle of each pixel. -/
def Nearest (present : ℕ → ℕ → (ℕ → ℕ → UInt32) → ℕ → ℕ → UInt32) : Prop :=
  ∀ width height texels, width * displayHeight = height * displayWidth →
    ∀ px < width, ∀ py < height, present width height texels px py =
      texels ((2 * px + 1) * displayWidth / (2 * width))
        ((2 * py + 1) * displayHeight / (2 * height))

/-- Every framebuffer that is rendered is captured as it was, whatever was in the texture, however
its rows are padded and however large the output is. -/
theorem capture_render {present : ℕ → ℕ → (ℕ → ℕ → UInt32) → ℕ → ℕ → UInt32}
    (hp : Nearest present) (f : Framebuffer) (pixels : Mem UInt8) {pitch width height : ℕ}
    (hpitch : displayWidth * 4 ≤ pitch) (hh : displayHeight ≤ height)
    (hshape : width * displayHeight = height * displayWidth) :
    capture width height (fun i =>
      present width height (texel pitch (f.paint pitch pixels)) (i % width) (i / width)) =
        some f := by
  have hw : displayWidth ≤ width := by
    simp only [displayWidth, displayHeight] at *
    omega
  have hseen : ∀ y < 64, ∀ x < 128, present width height (texel pitch (f.paint pitch pixels))
      (((2 * y + 1) * height / 128 * width + (2 * x + 1) * width / 256) % width)
      (((2 * y + 1) * height / 128 * width + (2 * x + 1) * width / 256) / width) =
        f.color y x := by
    intro y hy x hx
    have hpx : (2 * x + 1) * width / 256 < width := by
      apply Nat.div_lt_of_lt_mul
      exact Nat.mul_lt_mul_of_pos_right (by omega) (by simp only [displayWidth] at hw; omega)
    have hpy : (2 * y + 1) * height / 128 < height := by
      apply Nat.div_lt_of_lt_mul
      exact Nat.mul_lt_mul_of_pos_right (by omega) (by simp only [displayHeight] at hh; omega)
    rw [Nat.add_comm, Nat.add_mul_mod_self_right, Nat.add_mul_div_right _ _ (by omega),
      Nat.mod_eq_of_lt hpx, Nat.div_eq_of_lt hpx, Nat.zero_add,
      hp width height _ hshape _ hpx _ hpy,
      show (256 : ℕ) = 2 * displayWidth from rfl, show (128 : ℕ) = 2 * displayHeight from rfl,
      sample_center (by decide) hw, sample_center (by decide) hh]
    exact texel_paint hpitch hx hy
  exact capture_eq_some_iff.mpr ⟨hw, hh, fun y hy x hx =>
    (congrArg lit (hseen y hy x hx)).trans (lit_color f y x)⟩

/-- An output that shows the nearest texel. -/
def enlarged (width height : ℕ) (texels : ℕ → ℕ → UInt32) (px py : ℕ) : UInt32 :=
  texels ((2 * px + 1) * displayWidth / (2 * width)) ((2 * py + 1) * displayHeight / (2 * height))

/-- The cells in their order. -/
def ramp : Framebuffer := Vector.ofFn fun i => UInt8.ofNat i.val

theorem capture_render_ramp :
    capture 260 130 (fun i => enlarged 260 130 (texel 520 (ramp.paint 520 fun _ => 0xaa))
      (i % 260) (i / 260)) = some ramp :=
  capture_render (fun _ _ _ _ _ _ _ _ => rfl) ramp (fun _ => 0xaa) (by decide) (by decide)
    (by decide)

end BscTarget
