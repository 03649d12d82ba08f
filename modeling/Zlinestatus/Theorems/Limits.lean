import Zlinestatus.Lib.Round
import Zlinestatus.Theorems.Rectangle
import Zlinestatus.Theorems.Resize

/-! The largest surfaces: where the arithmetic of `renderFrame` ends before its guard, and where the
    conversion to f32 makes a full line longer than its axis. -/

namespace Zlinestatus
open F32
variable {ar : F32Arith} {width height : ℕ} {percent : F32} {orientation : Orientation} {alignment : Alignment}
  {color : Pixel}

/-! ### The size guard -/

/-- The frame or one of its rows takes more bytes than 31 bits can count. -/
def TooLarge (width height : ℕ) : Prop := 2 ^ 31 - 1 < width * height * 4 ∨ 2 ^ 31 - 1 < width * 4

theorem renderFrame_tooLarge {byteSize stride : ℕ} (hsize : framebufferByteSize width height = some byteSize)
    (hstride : usizeMul width 4 = some stride) (hlarge : 2 ^ 31 - 1 < byteSize ∨ 2 ^ 31 - 1 < stride) (io : FrameIO) :
    renderFrame ar io width height percent orientation alignment color = ([], .error .frameTooLarge) := by
  simp only [renderFrame, hsize, hstride]
  split
  · next hbyteSize hcast =>
    have hlt := (castU31_eq_some.mp hbyteSize).1
    have hlt' := (castU31_eq_some.mp hcast).1
    omega
  · rfl

/-- Behind the guard no step fails with `FrameTooLarge`. -/
theorem renderFrame_ne_tooLarge {byteSize stride : ℕ} (hsize : framebufferByteSize width height = some byteSize)
    (hstride : usizeMul width 4 = some stride) (hbytes : byteSize ≤ 2 ^ 31 - 1) (hrow : stride ≤ 2 ^ 31 - 1)
    (io : FrameIO) :
    (renderFrame ar io width height percent orientation alignment color).2 ≠ .error .frameTooLarge := by
  have hcastSize : castU31 byteSize = some byteSize := castU31_eq_some.mpr ⟨by omega, rfl⟩
  have hcastStride : castU31 stride = some stride := castU31_eq_some.mpr ⟨by omega, rfl⟩
  simp only [renderFrame, hsize, hstride, hcastSize, hcastStride]
  split
  · simp
  · split
    · simp
    · split
      · simp only [sendAll]
        split <;> simp
      · simp

/-- The size arithmetic does not overflow, and `FrameTooLarge` is what every call for a frame that is too
    large returns, before it maps a buffer or sends a request, and no other call. -/
structure SizeChecked (ar : F32Arith) (width height : ℕ) : Prop where
  byteSize : (framebufferByteSize width height).isSome
  stride : (usizeMul width 4).isSome
  guarded : ∀ io percent orientation alignment color,
    (renderFrame ar io width height percent orientation alignment color).2 = .error .frameTooLarge ↔ TooLarge width height
  untouched : TooLarge width height → ∀ io percent orientation alignment color,
    renderFrame ar io width height percent orientation alignment color = ([], .error .frameTooLarge)

/-- For the sizes a configure event can store, the arithmetic overflows exactly where the number of bytes
    exceeds 64 bits. -/
theorem size_checked_iff (ar : F32Arith) (width height : UInt32) :
    SizeChecked ar width.toNat height.toNat ↔ width.toNat * height.toNat * 4 < 2 ^ 64 := by
  have hw := width.toNat_lt
  have hh := height.toNat_lt
  constructor
  · intro h
    obtain ⟨size, hsize⟩ := Option.isSome_iff_exists.mp h.byteSize
    obtain ⟨area, harea, hsize⟩ := Option.bind_eq_some_iff.mp hsize
    obtain ⟨-, rfl⟩ := usizeMul_eq_some.mp harea
    exact (usizeMul_eq_some.mp hsize).1
  · intro h
    have hsize : framebufferByteSize width.toNat height.toNat = some (width.toNat * height.toNat * 4) := by
      have harea : usizeMul width.toNat height.toNat = some (width.toNat * height.toNat) :=
        usizeMul_eq_some.mpr ⟨by omega, rfl⟩
      rw [framebufferByteSize, harea, Option.bind_some]
      exact usizeMul_eq_some.mpr ⟨h, rfl⟩
    have hstride : usizeMul width.toNat 4 = some (width.toNat * 4) := usizeMul_eq_some.mpr ⟨by omega, rfl⟩
    have hlarge : TooLarge width.toNat height.toNat → ∀ io percent orientation alignment color,
        renderFrame ar io width.toNat height.toNat percent orientation alignment color = ([], .error .frameTooLarge) :=
      fun hlarge io _ _ _ _ => renderFrame_tooLarge hsize hstride hlarge io
    refine ⟨by rw [hsize]; rfl, by rw [hstride]; rfl, fun io percent orientation alignment color => ?_, hlarge⟩
    constructor
    · intro heq
      by_contra hfits
      simp only [TooLarge, not_or, Nat.not_lt] at hfits
      exact renderFrame_ne_tooLarge hsize hstride hfits.1 hfits.2 io heq
    · intro hl
      rw [hlarge hl io percent orientation alignment color]

/-- A configure event of serial 7 gives the surface the largest size. -/
def hugeWakeup : Wakeup :=
  { recv := ⟨[⟨.layerSurface (.configure 7 0xFFFFFFFF 0xFFFFFFFF), true⟩], true⟩, io := freshIO }

/-- The frame is far too large, and `renderFrame` panics on its size instead of returning an error. -/
theorem huge_frame_panics :
    (main parseNumeral .exact batteryStartup [registryWakeup, hugeWakeup]).2 = .stopped .panicked ∧
    renderFrame .exact freshIO 0xFFFFFFFF 0xFFFFFFFF (finite 0) .horizontal .center opaqueWhite =
      ([], .error .panicked) ∧
    TooLarge 0xFFFFFFFF 0xFFFFFFFF ∧ ¬SizeChecked .exact 0xFFFFFFFF 0xFFFFFFFF := by
  have hnone : framebufferByteSize 0xFFFFFFFF 0xFFFFFFFF = none := by decide
  have hpanic : renderFrame .exact freshIO 0xFFFFFFFF 0xFFFFFFFF (finite 0) .horizontal .center opaqueWhite =
      ([], .error .panicked) := by
    rw [renderFrame, hnone]
  refine ⟨by decide +kernel, hpanic, Or.inl (by decide), fun h => ?_⟩
  have := h.byteSize
  rw [hnone] at this
  cases this

/-! ### Full lines -/

/-- The exact arithmetic on sizes that a function turns into f32 values. -/
def F32Arith.converting (convert : ℕ → ℕ) : F32Arith :=
  { F32Arith.exact with floatFromInt := fun n => finite (convert n : ℕ) }

/-- At 100 percent neither axis is overrun, and every draw succeeds. -/
structure FullLineFits (ar : F32Arith) (width height : ℕ) : Prop where
  columns : ∀ fillWidth, (scaledSize ar width (finite 100)).intFromFloat = some fillWidth → fillWidth ≤ width
  rows : ∀ fillHeight, (scaledSize ar height (finite 100)).intFromFloat = some fillHeight → fillHeight ≤ height
  draws : ∀ (pixels : List Pixel) orientation alignment color, pixels.length = width * height →
    ∃ drawn, drawPercent ar pixels width height (finite 100) orientation alignment color = some drawn

theorem fill_converting {convert : ℕ → ℕ} {n : ℕ} (h : convert n < 2 ^ 32) :
    (scaledSize (.converting convert) n (finite 100)).intFromFloat = some (convert n) := by
  have hscaled : scaledSize (.converting convert) n (finite 100) = finite (convert n : ℕ) := by
    have hone : F32Arith.exact.div (finite 100) (finite 100) = finite 1 := by
      rw [F32Arith.exact_div _ (by norm_num), div_self (by norm_num)]
    change F32Arith.exact.mul (finite (convert n : ℕ)) (F32Arith.exact.div (finite 100) (finite 100)) = _
    rw [hone, F32Arith.exact_mul, mul_one]
  rw [hscaled]
  exact intFromFloat_natCast (by exact_mod_cast h) (Int.floor_natCast _)

/-- On a surface that fits a buffer, and with a conversion that rounds to 24 bits, a full line fits exactly
    when the conversion rounds neither axis up. -/
theorem full_line_fits_iff {convert : ℕ → ℕ} (hconvert : ∀ n, Round.RoundsTo 24 n (convert n)) (hwidth : 1 ≤ width)
    (hheight : 1 ≤ height) (hfits : FrameFits width height) :
    FullLineFits (.converting convert) width height ↔ Round.Down 24 width ∧ Round.Down 24 height := by
  have fill : ∀ n, n * 4 ≤ 2 ^ 31 - 1 →
      (scaledSize (.converting convert) n (finite 100)).intFromFloat = some (convert n) := by
    intro n hn
    have hle : convert n ≤ 2 ^ 30 := (hconvert n).le_two_pow (by decide) (by omega)
    exact fill_converting (by omega)
  have hfillWidth := fill width (hfits.width_le hheight)
  have hfillHeight := fill height (hfits.height_le hwidth)
  have down : ∀ n, Round.Down 24 n ↔ convert n ≤ n := fun n => ((hconvert n).le_iff (by decide)).symm
  rw [down, down]
  constructor
  · intro h
    exact ⟨h.columns _ hfillWidth, h.rows _ hfillHeight⟩
  · rintro ⟨hw, hh⟩
    refine ⟨fun _ h => ?_, fun _ h => ?_, fun pixels orientation alignment color hl => ?_⟩
    · rwa [← Option.some.inj (hfillWidth.symm.trans h)]
    · rwa [← Option.some.inj (hfillHeight.symm.trans h)]
    · cases orientation with
      | horizontal =>
        obtain ⟨start, hstart, hcolumns, -⟩ := startX_aligned alignment hw
        exact drawPercent_isSome (fillRegion_horizontal.mpr ⟨hfillWidth, hstart, rfl⟩) hcolumns le_rfl hl
      | vertical => exact drawPercent_isSome (fillRegion_vertical.mpr ⟨hfillHeight, rfl, rfl⟩) (by omega) hh hl

/-- 1920 and 3 are converted exactly, and 16777217 is rounded down. -/
theorem default_line_fits : Round.nearest 24 16777217 = 16777216 ∧
    FullLineFits (.converting (Round.nearest 24)) 1920 3 ∧ FullLineFits (.converting (Round.nearest 24)) 16777217 1 := by
  have hround : ∀ n, Round.RoundsTo 24 n (Round.nearest 24 n) := Round.nearest_roundsTo (by decide)
  refine ⟨by decide, (full_line_fits_iff hround (by decide) (by decide) ?_).mpr (by decide),
    (full_line_fits_iff hround (by decide) (by decide) ?_).mpr (by decide)⟩ <;>
    (unfold FrameFits; decide)

/-- 16777219 columns are converted to 16777220, and their full line fits neither at the right edge nor at
    any other. -/
theorem wide_line_overruns : Round.nearest 24 16777219 = 16777220 ∧ FrameFits 16777219 1 ∧
    drawPercent (.converting (Round.nearest 24)) (List.replicate 16777219 transparent) 16777219 1 (finite 100)
      .horizontal .right opaqueWhite = none ∧
    ¬FullLineFits (.converting (Round.nearest 24)) 16777219 1 := by
  have hround : Round.nearest 24 16777219 = 16777220 := by decide
  have hfill : (scaledSize (.converting (Round.nearest 24)) 16777219 (finite 100)).intFromFloat = some 16777220 := by
    rw [fill_converting (by rw [hround]; decide), hround]
  refine ⟨hround, by unfold FrameFits; decide, ?_, fun h => absurd (h.columns _ hfill) (by decide)⟩
  have hregion : fillRegion (.converting (Round.nearest 24)) 16777219 1 (finite 100) .horizontal .right = none := by
    rw [fillRegion, hfill]
    rfl
  rw [drawPercent_eq, hregion, Option.bind_none]

end Zlinestatus
