import Zlinestatus.Model.Message
import Zlinestatus.Theorems.Frame

/-! A message drawn on a surface that fits a buffer: one aligned rectangle, inside the surface. -/

namespace Zlinestatus
open F32
variable {parseFloat : Bytes → Option F32} {ar : F32Arith} {width height : ℕ} {percent : F32} {orientation : Orientation}
  {alignment : Alignment} {color : Pixel}

/-! ### The casts of renderFrame -/

/-- The buffer and its rows are addressed by numbers of 31 bits. -/
def FrameFits (width height : ℕ) : Prop := width * height * 4 ≤ 2 ^ 31 - 1

theorem FrameFits.width_le (h : FrameFits width height) (hheight : 1 ≤ height) : width * 4 ≤ 2 ^ 31 - 1 := by
  have : width * 1 ≤ width * height := Nat.mul_le_mul_left width hheight
  unfold FrameFits at h
  omega

theorem FrameFits.height_le (h : FrameFits width height) (hwidth : 1 ≤ width) : height * 4 ≤ 2 ^ 31 - 1 := by
  have : 1 * height ≤ width * height := Nat.mul_le_mul_right height hwidth
  unfold FrameFits at h
  omega

/-- The arithmetic of `renderFrame` neither overflows nor cuts a number off. -/
structure Lossless (width height : ℕ) : Prop where
  byteSize : framebufferByteSize width height = some (width * height * 4)
  stride : usizeMul width 4 = some (width * 4)
  castByteSize : castU31 (width * height * 4) = some (width * height * 4)
  castStride : castU31 (width * 4) = some (width * 4)
  castWidth : castU31 width = some width
  castHeight : castU31 height = some height

theorem FrameFits.lossless (h : FrameFits width height) (hwidth : 1 ≤ width) (hheight : 1 ≤ height) :
    Lossless width height := by
  have hw := h.width_le hheight
  have hh := h.height_le hwidth
  unfold FrameFits at h
  have harea : usizeMul width height = some (width * height) := usizeMul_eq_some.mpr ⟨by omega, rfl⟩
  refine ⟨?_, usizeMul_eq_some.mpr ⟨by omega, rfl⟩, ?_, ?_, ?_, ?_⟩
  · rw [framebufferByteSize, harea, Option.bind_some, usizeMul_eq_some]
    exact ⟨by omega, rfl⟩
  all_goals exact castU31_eq_some.mpr ⟨by omega, rfl⟩

/-- With lossless arithmetic, and a draw that succeeds on every buffer, only the swapchain and the
    connection can fail. -/
theorem renderFrame_of_lossless (h : Lossless width height) (io : FrameIO)
    (hdraw : ∀ pixels : List Pixel, pixels.length = width * height →
      ∃ drawn, drawPercent ar pixels width height percent orientation alignment color = some drawn) :
    (io.mapBuffer (width * height * 4) = none ∧
      renderFrame ar io width height percent orientation alignment color = ([], .error .connection)) ∨
    ∃ mapped drawn, io.mapBuffer (width * height * 4) = some mapped ∧
      drawPercent ar (bytesAsSlice mapped.toList) width height percent orientation alignment color = some drawn ∧
      renderFrame ar io width height percent orientation alignment color =
        sendAll io.sends (frameRequests ⟨sliceAsBytes drawn, width, height, width * 4, .argb8888⟩) := by
  simp only [renderFrame, h.byteSize, h.stride, h.castByteSize, h.castStride, h.castWidth, h.castHeight]
  cases hmap : io.mapBuffer (width * height * 4) with
  | none => exact Or.inl ⟨rfl, rfl⟩
  | some mapped =>
    obtain ⟨drawn, hdrawn⟩ := hdraw (bytesAsSlice mapped.toList) (bytesAsSlice_length mapped.toList_length)
    exact Or.inr ⟨mapped, drawn, rfl, hdrawn, by simp only [hdrawn]⟩

/-! ### The rectangle -/

/-- The cells of a line of `fill` pixels along its axis that starts at `start`. -/
def LineCell (orientation : Orientation) (start fill x y : ℕ) : Prop :=
  match orientation with
  | .horizontal => start ≤ x ∧ x < start + fill
  | .vertical => y < fill

/-- The buffer holds the line in its colour, and is transparent elsewhere. -/
structure ShowsLine (drawn : List Pixel) (width height : ℕ) (orientation : Orientation) (start fill : ℕ) (color : Pixel) :
    Prop where
  length : drawn.length = width * height
  line : ∀ x < width, ∀ y < height, LineCell orientation start fill x y → drawn[y * width + x]? = some color
  rest : ∀ x < width, ∀ y < height, ¬LineCell orientation start fill x y → drawn[y * width + x]? = some transparent

/-- Drawn exactly, a percentage is a rectangle whose length is its floor. -/
theorem drawPercent_line {q : ℚ} (hw : width < 2 ^ 32) (hh : height < 2 ^ 32) (h0 : 0 ≤ q) (h1 : q ≤ 100)
    (orientation : Orientation) (alignment : Alignment) :
    ∃ fill start : ℕ, (fill : ℤ) = ⌊(lineSize orientation width height : ℚ) * q / 100⌋ ∧
      (orientation = .horizontal → Aligned alignment width fill start) ∧
      ∀ (pixels : List Pixel) (color : Pixel), pixels.length = width * height →
        ∃ drawn, drawPercent .exact pixels width height (finite q) orientation alignment color = some drawn ∧
          ShowsLine drawn width height orientation start fill color := by
  have shows : ∀ {start columns rows fill : ℕ},
      fillRegion .exact width height (finite q) orientation alignment = some (start, columns, rows) →
      start + columns ≤ width → rows ≤ height →
      (∀ x < width, ∀ y < height, LineCell orientation start fill x y ↔ (start ≤ x ∧ x < start + columns) ∧ y < rows) →
      ∀ (pixels : List Pixel) (color : Pixel), pixels.length = width * height →
        ∃ drawn, drawPercent .exact pixels width height (finite q) orientation alignment color = some drawn ∧
          ShowsLine drawn width height orientation start fill color := by
    intro start columns rows fill hregion hcolumns hrows hcell pixels color hl
    obtain ⟨drawn, hdrawn⟩ : ∃ drawn,
        drawPercent .exact pixels width height (finite q) orientation alignment color = some drawn :=
      drawPercent_isSome hregion hcolumns hrows hl
    refine ⟨drawn, hdrawn, (drawPercent_length hdrawn).trans hl, fun x hx y hy hin => ?_, fun x hx y hy hout => ?_⟩
    · refine (drawPercent_pixel hl hx hy hdrawn).1 ?_
      exact (painted_iff hregion hcolumns hrows hx).mpr ((hcell x hx y hy).mp hin)
    · refine (drawPercent_pixel hl hx hy hdrawn).2 fun hp => hout ?_
      exact (hcell x hx y hy).mpr ((painted_iff hregion hcolumns hrows hx).mp hp)
  cases orientation with
  | horizontal =>
    obtain ⟨fill, hfill, hle, hscaled⟩ := fill_floor hw h0 h1
    obtain ⟨start, hstart, hfits, haligned⟩ := startX_aligned alignment hle
    refine ⟨fill, start, hfill, fun _ => haligned, ?_⟩
    exact shows (fillRegion_horizontal.mpr ⟨hscaled, hstart, rfl⟩) hfits le_rfl fun x _ y hy => by simp [LineCell, hy]
  | vertical =>
    obtain ⟨fill, hfill, hle, hscaled⟩ := fill_floor hh h0 h1
    refine ⟨fill, 0, hfill, fun h => absurd h (by decide), ?_⟩
    exact shows (fillRegion_vertical.mpr ⟨hscaled, rfl, rfl⟩) (by omega) hle fun x hx y _ => by simp [LineCell, hx]

/-- Whatever percentage a message carries: on a surface that fits a buffer every draw succeeds, paints
    the aligned rectangle of that share and nothing else, and the frame is cut off nowhere. -/
theorem message_rectangle {raw : Bytes} {message : ParsedMessage}
    (hmessage : parseIncomingMessage parseFloat ar raw = some message) (hwidth : 1 ≤ width) (hheight : 1 ≤ height)
    (hfits : FrameFits width height) (orientation : Orientation) (alignment : Alignment) :
    ∃ (q : ℚ) (fill start : ℕ), message.percent = finite q ∧
      (fill : ℤ) = ⌊(lineSize orientation width height : ℚ) * q / 100⌋ ∧
      (orientation = .horizontal → Aligned alignment width fill start) ∧
      (∀ (pixels : List Pixel) (color : Pixel), pixels.length = width * height →
        ∃ drawn, drawPercent .exact pixels width height message.percent orientation alignment color = some drawn ∧
          ShowsLine drawn width height orientation start fill color) ∧
      Lossless width height ∧
      ∀ (io : FrameIO) (color : Pixel),
        (io.mapBuffer (width * height * 4) = none ∧
          renderFrame .exact io width height message.percent orientation alignment color = ([], .error .connection)) ∨
        ∃ drawn, ShowsLine drawn width height orientation start fill color ∧
          renderFrame .exact io width height message.percent orientation alignment color =
            sendAll io.sends (frameRequests ⟨sliceAsBytes drawn, width, height, width * 4, .argb8888⟩) := by
  obtain ⟨number, -, hpercent, -⟩ := parseIncomingMessage_eq_some.mp hmessage
  obtain ⟨q, hq, h0, h1⟩ := scalePercent_mem ar number
  have hpercent : message.percent = finite q := hpercent.trans hq
  have hw := hfits.width_le hheight
  have hh := hfits.height_le hwidth
  obtain ⟨fill, start, hfill, haligned, hdraw⟩ :=
    drawPercent_line (by omega : width < 2 ^ 32) (by omega : height < 2 ^ 32) h0 h1 orientation alignment
  have hlossless := hfits.lossless hwidth hheight
  rw [hpercent]
  refine ⟨q, fill, start, rfl, hfill, haligned, hdraw, hlossless, fun io color => ?_⟩
  rcases renderFrame_of_lossless hlossless io (fun pixels hl => (hdraw pixels color hl).imp fun _ h => h.1) with
    hnone | ⟨mapped, drawn, -, hdrawn, hrender⟩
  · exact Or.inl hnone
  · obtain ⟨drawn', hdrawn', hshows⟩ := hdraw _ color (bytesAsSlice_length mapped.toList_length)
    rw [hdrawn] at hdrawn'
    exact Or.inr ⟨drawn, Option.some.inj hdrawn' ▸ hshows, hrender⟩

/-- Half of 5 columns: 2 of them, with one column on their left and two on their right. -/
theorem fifty_rectangle : ∃ message drawn, parseIncomingMessage parseNumeral .exact (ascii "50") = some message ∧
    drawPercent .exact (List.replicate 10 opaqueWhite) 5 2 message.percent .horizontal .center opaqueWhite = some drawn ∧
    ShowsLine drawn 5 2 .horizontal 1 2 opaqueWhite := by
  have hparse : ∃ message ∈ parseIncomingMessage parseNumeral .exact (ascii "50"), message.percent = finite 50 := by
    decide +kernel
  obtain ⟨message, hmessage, hpercent⟩ := hparse
  obtain ⟨q, fill, start, hq, hfill, haligned, hdraw, -⟩ :=
    message_rectangle hmessage (by decide) (by decide) (by unfold FrameFits; decide : FrameFits 5 2) .horizontal .center
  obtain rfl : 50 = q := finite.inj (hpercent.symm.trans hq)
  obtain rfl : fill = 2 := by
    have hfloor : ⌊((5 : ℕ) : ℚ) * 50 / 100⌋ = 2 := by norm_num [Int.floor_eq_iff]
    exact Int.ofNat_inj.mp (hfill.trans hfloor)
  obtain rfl : start = 1 := by
    obtain ⟨margin, hsum, hle, hge⟩ := haligned rfl
    omega
  obtain ⟨drawn, hdrawn, hshows⟩ := hdraw (List.replicate 10 opaqueWhite) opaqueWhite rfl
  exact ⟨message, drawn, hmessage, hdrawn, hshows⟩

end Zlinestatus
