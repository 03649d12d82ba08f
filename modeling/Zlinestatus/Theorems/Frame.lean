import Zlinestatus.Model.Render

/-! One frame: which pixels `drawPercent` paints, and what the compositor reads of them in the buffer
    `renderFrame` attaches. -/

namespace Zlinestatus
open F32
variable {ar : F32Arith} {width height : ℕ} {percent : F32} {orientation : Orientation} {alignment : Alignment}
  {color : Pixel} {pixels drawn : List Pixel} {x y : ℕ}

/-! ### Checked arithmetic -/

@[simp] theorem checkedSub_eq_some {a b c : ℕ} : checkedSub a b = some c ↔ b ≤ a ∧ a - b = c := by
  simp [checkedSub]

@[simp] theorem usizeMul_eq_some {a b c : ℕ} : usizeMul a b = some c ↔ a * b < 2 ^ 64 ∧ a * b = c := by
  simp [usizeMul]

@[simp] theorem castU31_eq_some {n m : ℕ} : castU31 n = some m ↔ n < 2 ^ 31 ∧ n = m := by
  simp [castU31]

/-! ### The painted region -/

/-- The region `drawPercent` fills: the first column, the number of columns and the number of rows. -/
def fillRegion (ar : F32Arith) (width height : ℕ) (percent : F32) (orientation : Orientation)
    (alignment : Alignment) : Option (ℕ × ℕ × ℕ) :=
  match orientation with
  | .horizontal => (scaledSize ar width percent).intFromFloat.bind fun fillWidth =>
      (startX alignment width fillWidth).map fun start => (start, fillWidth, height)
  | .vertical => (scaledSize ar height percent).intFromFloat.map fun fillHeight => (0, width, fillHeight)

theorem fillRegion_horizontal {start columns rows : ℕ} :
    fillRegion ar width height percent .horizontal alignment = some (start, columns, rows) ↔
      (scaledSize ar width percent).intFromFloat = some columns ∧ startX alignment width columns = some start ∧
        rows = height := by
  constructor
  · intro h
    obtain ⟨fillWidth, hfill, hstart⟩ := Option.bind_eq_some_iff.mp h
    obtain ⟨s, hs, heq⟩ := Option.map_eq_some_iff.mp hstart
    cases heq
    exact ⟨hfill, hs, rfl⟩
  · rintro ⟨hfill, hstart, rfl⟩
    simp only [fillRegion, hfill, Option.bind_some, hstart, Option.map_some]

theorem fillRegion_vertical {start columns rows : ℕ} :
    fillRegion ar width height percent .vertical alignment = some (start, columns, rows) ↔
      (scaledSize ar height percent).intFromFloat = some rows ∧ start = 0 ∧ columns = width := by
  constructor
  · intro h
    obtain ⟨fillHeight, hfill, heq⟩ := Option.map_eq_some_iff.mp h
    cases heq
    exact ⟨hfill, rfl, rfl⟩
  · rintro ⟨hfill, rfl, rfl⟩
    simp only [fillRegion, hfill, Option.map_some]

theorem drawPercent_eq : drawPercent ar pixels width height percent orientation alignment color =
    (fillRegion ar width height percent orientation alignment).bind fun (start, columns, rows) =>
      Raster.fillRect (List.replicate pixels.length transparent) width rows start columns color := by
  have hblank : (pixels.map fun _ => transparent) = List.replicate pixels.length transparent := List.map_const ..
  cases orientation with
  | horizontal =>
    simp only [drawPercent, fillRegion, hblank]
    cases (scaledSize ar width percent).intFromFloat with
    | none => rfl
    | some fillWidth => cases h : startX alignment width fillWidth <;> simp [h]
  | vertical =>
    simp only [drawPercent, fillRegion, hblank]
    cases (scaledSize ar height percent).intFromFloat <;> rfl

/-- Whatever the buffer held before, the result is that on a blank buffer of the same size. -/
theorem drawPercent_blank : drawPercent ar pixels width height percent orientation alignment color =
    drawPercent ar (List.replicate pixels.length transparent) width height percent orientation alignment color := by
  rw [drawPercent_eq, drawPercent_eq, List.length_replicate]

theorem startX_le {alignment : Alignment} {width fillWidth start : ℕ} (h : startX alignment width fillWidth = some start) :
    start ≤ width := by
  cases alignment with
  | left => simp only [startX, Option.some.injEq] at h; omega
  | right => simp only [startX, checkedSub_eq_some] at h; omega
  | center =>
    obtain ⟨d, hd, rfl⟩ := Option.map_eq_some_iff.mp h
    obtain ⟨-, rfl⟩ := checkedSub_eq_some.mp hd
    omega

/-- Where a line of `fill` columns starts: at the left edge, at the right edge, or so that the margins
    differ by at most one, the smaller one on the left. -/
def Aligned (alignment : Alignment) (width fill start : ℕ) : Prop :=
  match alignment with
  | .left => start = 0
  | .right => start + fill = width
  | .center => ∃ margin, start + fill + margin = width ∧ start ≤ margin ∧ margin ≤ start + 1

theorem startX_aligned {width fill : ℕ} (alignment : Alignment) (hle : fill ≤ width) :
    ∃ start, startX alignment width fill = some start ∧ start + fill ≤ width ∧ Aligned alignment width fill start := by
  cases alignment with
  | left => exact ⟨0, rfl, by omega, rfl⟩
  | right => exact ⟨width - fill, by simp [startX, hle], by omega, by simp only [Aligned]; omega⟩
  | center =>
    refine ⟨(width - fill) / 2, by simp [startX, checkedSub, hle], by omega, ?_⟩
    exact ⟨width - fill - (width - fill) / 2, by omega, by omega, by omega⟩

/-- The scaled size of a percentage is its floor, and fits the size. -/
theorem fill_floor {n : ℕ} {q : ℚ} (hn : n < 2 ^ 32) (h0 : 0 ≤ q) (h1 : q ≤ 100) :
    ∃ f : ℕ, (f : ℤ) = ⌊(n : ℚ) * q / 100⌋ ∧ f ≤ n ∧ (scaledSize .exact n (finite q)).intFromFloat = some f := by
  have hscaled : scaledSize .exact n (finite q) = finite ((n : ℚ) * q / 100) := by
    rw [scaledSize, F32Arith.exact_div _ (by norm_num), F32Arith.exact_floatFromInt, F32Arith.exact_mul, mul_div_assoc]
  have hle : (n : ℚ) * q / 100 ≤ n := by
    rw [div_le_iff₀ (by norm_num)]
    exact mul_le_mul_of_nonneg_left h1 (Nat.cast_nonneg n)
  obtain ⟨f, hf⟩ := Int.eq_ofNat_of_zero_le (Int.floor_nonneg.mpr (show 0 ≤ (n : ℚ) * q / 100 by positivity))
  refine ⟨f, hf.symm, ?_, ?_⟩
  · have hfloor := (Int.floor_le ((n : ℚ) * q / 100)).trans hle
    rw [hf] at hfloor
    exact_mod_cast hfloor
  · rw [hscaled]
    exact intFromFloat_natCast (hle.trans_lt (by exact_mod_cast hn)) hf

/-- A draw that does not panic fills a region inside the surface. -/
theorem drawPercent_cases (hl : pixels.length = width * height) (hwidth : 0 < width) (hheight : 0 < height)
    (h : drawPercent ar pixels width height percent orientation alignment color = some drawn) :
    ∃ start columns rows, fillRegion ar width height percent orientation alignment = some (start, columns, rows) ∧
      start + columns ≤ width ∧ rows ≤ height ∧
      Raster.fillRect (List.replicate pixels.length transparent) width rows start columns color = some drawn := by
  rw [drawPercent_eq] at h
  obtain ⟨⟨start, columns, rows⟩, hregion, hfill⟩ := Option.bind_eq_some_iff.mp h
  have hlen : (List.replicate pixels.length transparent).length = width * height := by simp [hl]
  cases orientation with
  | horizontal =>
    obtain ⟨-, hstart, rfl⟩ := fillRegion_horizontal.mp hregion
    exact ⟨start, columns, _, hregion, Raster.fillRect_columns_le hlen hheight (startX_le hstart) hfill, le_rfl, hfill⟩
  | vertical =>
    obtain ⟨-, rfl, rfl⟩ := fillRegion_vertical.mp hregion
    exact ⟨0, _, rows, hregion, (Nat.zero_add _).le, Raster.fillRect_rows_le hlen hwidth hfill, hfill⟩

/-- The pixel in column `x` of row `y` belongs to the line: it takes the colour, on every buffer and for
    every colour. -/
def Painted (ar : F32Arith) (width height : ℕ) (percent : F32) (orientation : Orientation) (alignment : Alignment)
    (x y : ℕ) : Prop :=
  ∀ (pixels : List Pixel) (color : Pixel), pixels.length = width * height →
    ∃ drawn, drawPercent ar pixels width height percent orientation alignment color = some drawn ∧
      drawn[y * width + x]? = some color

/-- A region inside the surface is filled on every buffer. -/
theorem drawPercent_isSome {start columns rows : ℕ}
    (hregion : fillRegion ar width height percent orientation alignment = some (start, columns, rows))
    (hcolumns : start + columns ≤ width) (hrows : rows ≤ height) (hl : pixels.length = width * height) :
    ∃ drawn, drawPercent ar pixels width height percent orientation alignment color = some drawn := by
  rw [drawPercent_eq, hregion, Option.bind_some]
  exact Raster.fillRect_isSome_of_fits color (by simp [hl]) hcolumns hrows

theorem drawPercent_length (h : drawPercent ar pixels width height percent orientation alignment color = some drawn) :
    drawn.length = pixels.length := by
  rw [drawPercent_eq] at h
  obtain ⟨_, -, hfill⟩ := Option.bind_eq_some_iff.mp h
  rw [(Raster.fillRect_stored hfill).length, List.length_replicate]

theorem painted_iff {start columns rows : ℕ}
    (hregion : fillRegion ar width height percent orientation alignment = some (start, columns, rows))
    (hcolumns : start + columns ≤ width) (hrows : rows ≤ height) (hx : x < width) :
    Painted ar width height percent orientation alignment x y ↔ (start ≤ x ∧ x < start + columns) ∧ y < rows := by
  have filled : ∀ {pixels color drawn},
      drawPercent ar pixels width height percent orientation alignment color = some drawn →
      Raster.fillRect (List.replicate pixels.length transparent) width rows start columns color = some drawn := by
    intro pixels color drawn h
    rwa [drawPercent_eq, hregion, Option.bind_some] at h
  constructor
  · intro h
    obtain ⟨drawn, hdrawn, hpixel⟩ := h (List.replicate (width * height) transparent) opaqueWhite (by simp)
    by_contra hout
    rw [Raster.fillRect_cell (filled hdrawn) hcolumns hx, if_neg hout, List.getElem?_replicate] at hpixel
    split at hpixel
    · exact absurd hpixel (by decide)
    · cases hpixel
  · intro hin pixels color hl
    obtain ⟨drawn, hdrawn⟩ : ∃ drawn,
        drawPercent ar pixels width height percent orientation alignment color = some drawn :=
      drawPercent_isSome hregion hcolumns hrows hl
    exact ⟨drawn, hdrawn, by rw [Raster.fillRect_cell (filled hdrawn) hcolumns hx, if_pos hin]⟩

/-- Every pixel of a drawn buffer has the colour where the line is painted, and is transparent elsewhere. -/
theorem drawPercent_pixel (hl : pixels.length = width * height) (hx : x < width) (hy : y < height)
    (h : drawPercent ar pixels width height percent orientation alignment color = some drawn) :
    (Painted ar width height percent orientation alignment x y → drawn[y * width + x]? = some color) ∧
      (¬Painted ar width height percent orientation alignment x y → drawn[y * width + x]? = some transparent) := by
  obtain ⟨start, columns, rows, hregion, hcolumns, hrows, hfill⟩ := drawPercent_cases hl (by omega) (by omega) h
  have hblank : (List.replicate pixels.length transparent)[y * width + x]? = some transparent := by
    rw [List.getElem?_replicate, hl]
    exact if_pos (Raster.cell_lt hx hy)
  rw [painted_iff hregion hcolumns hrows hx, Raster.fillRect_cell hfill hcolumns hx, hblank]
  exact ⟨fun hin => if_pos hin, fun hout => if_neg hout⟩

def lineSize (orientation : Orientation) (width height : ℕ) : ℕ :=
  match orientation with
  | .horizontal => width
  | .vertical => height

/-- The surface has no pixel, or the scaled length is below one pixel. -/
def LineEmpty (ar : F32Arith) (width height : ℕ) (percent : F32) (orientation : Orientation) : Prop :=
  width = 0 ∨ height = 0 ∨ ∃ q, scaledSize ar (lineSize orientation width height) percent = finite q ∧ q < 1

/-- An empty line paints nothing, and it is the only one. -/
theorem lineEmpty_iff (hl : pixels.length = width * height)
    (h : drawPercent ar pixels width height percent orientation alignment color = some drawn) :
    LineEmpty ar width height percent orientation ↔
      ∀ x < width, ∀ y < height, ¬Painted ar width height percent orientation alignment x y := by
  rcases Nat.eq_zero_or_pos width with rfl | hwidth
  · simp [LineEmpty]
  rcases Nat.eq_zero_or_pos height with rfl | hheight
  · simp [LineEmpty]
  obtain ⟨start, columns, rows, hregion, hcolumns, hrows, -⟩ := drawPercent_cases hl hwidth hheight h
  have unpainted : (∀ x < width, ∀ y < height, ¬Painted ar width height percent orientation alignment x y) ↔
      columns = 0 ∨ rows = 0 := by
    constructor
    · intro hnone
      by_contra hpos
      rw [not_or] at hpos
      exact hnone start (by omega) 0 hheight
        ((painted_iff hregion hcolumns hrows (by omega)).mpr ⟨⟨by omega, by omega⟩, by omega⟩)
    · rintro hzero x hx y hy hp
      have := (painted_iff hregion hcolumns hrows hx).mp hp
      omega
  have below : ∀ {n : ℕ}, (scaledSize ar (lineSize orientation width height) percent).intFromFloat = some n →
      (LineEmpty ar width height percent orientation ↔ n = 0) := by
    intro n hn
    obtain ⟨q, hq, -, -, rfl⟩ := intFromFloat_eq_some.mp hn
    simp [LineEmpty, hq, hwidth.ne', hheight.ne', Int.toNat_eq_zero, ← Int.lt_add_one_iff, Int.floor_lt]
  rw [unpainted]
  cases orientation with
  | horizontal =>
    obtain ⟨hfill, -, rfl⟩ := fillRegion_horizontal.mp hregion
    rw [below hfill]
    omega
  | vertical =>
    obtain ⟨hfill, -, rfl⟩ := fillRegion_vertical.mp hregion
    rw [below hfill]
    omega

/-! ### The buffer -/

theorem sliceAsBytes_drop (pixels : List Pixel) (i : ℕ) :
    (sliceAsBytes pixels).drop (4 * i) = sliceAsBytes (pixels.drop i) := by
  induction i generalizing pixels with
  | zero => rfl
  | succ i ih =>
    cases pixels with
    | nil => simp [sliceAsBytes]
    | cons p pixels => exact ih pixels

theorem bytesAsSlice_length : ∀ {n : ℕ} {bytes : Bytes}, bytes.length = n * 4 → (bytesAsSlice bytes).length = n
  | 0, bytes, h => by
    have hnil : bytes = [] := List.length_eq_zero_iff.mp (by simpa using h)
    subst hnil
    rfl
  | n + 1, b0 :: b1 :: b2 :: b3 :: bytes, h => by
    simp only [bytesAsSlice, List.length_cons] at h ⊢
    have := @bytesAsSlice_length n bytes (by omega)
    omega
  | n + 1, [], h => by simp at h
  | n + 1, [_], h => by simp at h; omega
  | n + 1, [_, _], h => by simp at h; omega
  | n + 1, [_, _, _], h => by simp at h; omega

/-- The pixel of the code and the pixel of the compositor: column `x` of row `y` lies at the same place. -/
theorem word_eq {format : Format} : WlBuffer.word ⟨sliceAsBytes pixels, width, height, width * 4, format⟩ x y =
    pixels[y * width + x]?.map fun p => wordOf p.b0 p.b1 p.b2 p.b3 := by
  have hoffset : y * (width * 4) + 4 * x = 4 * (y * width + x) := by ring
  rw [WlBuffer.word, hoffset, sliceAsBytes_drop, ← List.head?_drop]
  cases pixels.drop (y * width + x) <;> rfl

theorem channels_wordOf (b0 b1 b2 b3 : UInt8) : wordAlpha (wordOf b0 b1 b2 b3) = b3 ∧
    wordRed (wordOf b0 b1 b2 b3) = b2 ∧ wordGreen (wordOf b0 b1 b2 b3) = b1 ∧ wordBlue (wordOf b0 b1 b2 b3) = b0 := by
  refine ⟨?_, ?_, ?_, ?_⟩ <;> refine UInt8.toBitVec_inj.mp (BitVec.eq_of_getLsbD_eq fun i hi => ?_) <;>
    simp only [wordAlpha, wordRed, wordGreen, wordBlue, wordOf, BitVec.getLsbD_extractLsb', BitVec.getLsbD_append] <;>
    grind

/-- How a call of `renderFrame` goes: it fails before it sends anything, or it draws into the slice the
    swapchain gave it and sends the requests of one frame. -/
theorem renderFrame_cases (ar : F32Arith) (io : FrameIO) (width height : ℕ) (percent : F32)
    (orientation : Orientation) (alignment : Alignment) (color : Pixel) :
    (∃ e, renderFrame ar io width height percent orientation alignment color = ([], .error e)) ∨
    ∃ previous drawn, previous.length = width * height ∧ width < 2 ^ 31 ∧ height < 2 ^ 31 ∧
      drawPercent ar previous width height percent orientation alignment color = some drawn ∧
      renderFrame ar io width height percent orientation alignment color =
        sendAll io.sends (frameRequests ⟨sliceAsBytes drawn, width, height, width * 4, .argb8888⟩) := by
  cases hr : renderFrame ar io width height percent orientation alignment color with
  | mk sent result =>
    unfold renderFrame at hr
    split at hr
    · next byteSize stride hsize hstride =>
      obtain ⟨area, harea, hsize⟩ := Option.bind_eq_some_iff.mp hsize
      obtain ⟨-, rfl⟩ := usizeMul_eq_some.mp harea
      obtain ⟨-, rfl⟩ := usizeMul_eq_some.mp hsize
      obtain ⟨-, rfl⟩ := usizeMul_eq_some.mp hstride
      split at hr
      · next byteSize' stride' hsize' hstride' =>
        obtain ⟨-, rfl⟩ := castU31_eq_some.mp hsize'
        obtain ⟨-, rfl⟩ := castU31_eq_some.mp hstride'
        split at hr
        · exact Or.inl ⟨_, hr.symm⟩
        · next mapped _ =>
          split at hr
          · exact Or.inl ⟨_, hr.symm⟩
          · next drawn hdrawn =>
            split at hr
            · next w h hw hh =>
              obtain ⟨hw', rfl⟩ := castU31_eq_some.mp hw
              obtain ⟨hh', rfl⟩ := castU31_eq_some.mp hh
              exact Or.inr ⟨_, drawn, bytesAsSlice_length mapped.toList_length, hw', hh', hdrawn, hr.symm⟩
            · exact Or.inl ⟨_, hr.symm⟩
      · exact Or.inl ⟨_, hr.symm⟩
    · exact Or.inl ⟨_, hr.symm⟩

theorem renderFrame_attach {io : FrameIO} {buffer : WlBuffer}
    (h : Request.attach buffer ∈ (renderFrame ar io width height percent orientation alignment color).1) :
    ∃ previous drawn, previous.length = width * height ∧
      drawPercent ar previous width height percent orientation alignment color = some drawn ∧
      buffer = ⟨sliceAsBytes drawn, width, height, width * 4, .argb8888⟩ := by
  rcases renderFrame_cases ar io width height percent orientation alignment color with
    ⟨e, heq⟩ | ⟨previous, drawn, hl, -, -, hdrawn, heq⟩
  · rw [heq] at h
    cases h
  · rw [heq] at h
    have := List.mem_of_mem_take h
    simp only [frameRequests, List.mem_cons, Request.attach.injEq, reduceCtorEq, List.not_mem_nil, or_false,
      false_or] at this
    exact ⟨previous, drawn, hl, hdrawn, this⟩

/-- A swapchain whose memory is blank, on a connection that takes every request. -/
def freshIO : FrameIO := ⟨fun numBytes => some (List.Vector.replicate numBytes 0), 16⟩

end Zlinestatus
