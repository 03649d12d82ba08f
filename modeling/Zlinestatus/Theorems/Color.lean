import Zlinestatus.Theorems.Length
import Zlinestatus.Theorems.Pick
import Zlinestatus.Theorems.StyleFile

/-! The colour of the line from the style file to the compositor. `parseHexColor` stores red, green, blue,
    alpha; a little-endian `argb8888` word is read blue, green, red, alpha, with the colours already
    multiplied by alpha. -/

namespace Zlinestatus
variable {ar : F32Arith} {width height : ℕ} {percent : F32} {orientation : Orientation} {alignment : Alignment}
  {color : Pixel} {io : FrameIO} {buffer : WlBuffer}

/-! ### The colour grammar -/

/-- `c` is the hexadecimal digit of value `d`, in either letter case. -/
def HexDigit (c : UInt8) (d : ℕ) : Prop := (ascii "0123456789abcdef").idxOf? (toLower c) = some d

/-- Two hexadecimal digits stand for the byte. -/
def HexByte (digits : Bytes) (byte : UInt8) : Prop :=
  ∃ high low d e, digits = [high, low] ∧ HexDigit high d ∧ HexDigit low e ∧ byte.toNat = 16 * d + e

/-- `#RRGGBB` with an opaque alpha, or `#RRGGBBAA`. -/
def HexColor (value : Bytes) (r g b a : UInt8) : Prop :=
  ∃ red green blue alpha, value = 0x23 :: (red ++ (green ++ (blue ++ alpha))) ∧
    HexByte red r ∧ HexByte green g ∧ HexByte blue b ∧ (alpha = [] ∧ a = 0xFF ∨ HexByte alpha a)

theorem hexDigit_iff {c : UInt8} {d : ℕ} : HexDigit c d ↔ charToDigit c 16 = some d := by
  have hdigits : ascii "0123456789abcdef" =
      [0x30, 0x31, 0x32, 0x33, 0x34, 0x35, 0x36, 0x37, 0x38, 0x39, 0x61, 0x62, 0x63, 0x64, 0x65, 0x66] := by decide
  have table : ∀ n < 256, charToDigit (UInt8.ofNat n) 16 =
      [0x30, 0x31, 0x32, 0x33, 0x34, 0x35, 0x36, 0x37, 0x38, 0x39, 0x61, 0x62, 0x63, 0x64, 0x65, 0x66].idxOf?
        (toLower (UInt8.ofNat n)) := by decide +kernel
  have hc := table c.toNat c.toNat_lt
  rw [UInt8.ofNat_toNat] at hc
  rw [HexDigit, hdigits, hc]

theorem HexDigit.lt {c : UInt8} {d : ℕ} (h : HexDigit c d) : d < 16 := by
  have hd := hexDigit_iff.mp h
  simp only [charToDigit] at hd
  split at hd
  · simp only [ge_iff_le, Option.ite_none_left_eq_some, Nat.not_le, Option.some.injEq] at hd
    exact hd.2 ▸ hd.1
  · cases hd

theorem HexDigit.ne {c c' : UInt8} {d : ℕ} (h : HexDigit c d) (hnone : charToDigit c' 16 = none) : c ≠ c' := by
  rintro rfl
  rw [hexDigit_iff.mp h] at hnone
  cases hnone

theorem HexDigit.ne_underscore {c : UInt8} {d : ℕ} (h : HexDigit c d) : c ≠ 0x5F := h.ne (by decide)

/-! ### The decoder -/

/-- A sign and one digit: `+` and any, or `-` and the digit 0. -/
inductive SignedByte : Bytes → UInt8 → Prop where
  | plus {digit byte : UInt8} (h : HexDigit digit byte.toNat) : SignedByte [0x2B, digit] byte
  | minus {digit : UInt8} (h : HexDigit digit 0) : SignedByte [0x2D, digit] 0

/-- A pair of bytes that the decoder takes for one. -/
def DecodedPair (pair : Bytes) (byte : UInt8) : Prop := pair.length = 2 ∧ parseInt pair 16 = some byte

theorem digit_of_step {acc n : ℕ} {neg : Bool} {c : UInt8} (hc : c ≠ 0x5F) (h : parseIntStep 16 neg acc c = some n) :
    ∃ d, HexDigit c d := by
  rw [parseIntStep, if_neg hc] at h
  cases hd : charToDigit c 16 with
  | none =>
    rw [hd] at h
    cases h
  | some d => exact ⟨d, hexDigit_iff.mpr hd⟩

theorem step_of_digit {acc : ℕ} {c : UInt8} {d : ℕ} (hacc : acc < 16) (h : HexDigit c d) :
    parseIntStep 16 false acc c = some (16 * acc + d) := by
  have hlt := h.lt
  simp only [parseIntStep, if_neg h.ne_underscore, hexDigit_iff.mp h, Bool.false_eq_true, and_false, if_false]
  rw [if_neg (by omega), if_neg (by omega), Nat.mul_comm]

theorem step_of_first_digit {c : UInt8} {d : ℕ} (h : HexDigit c d) : parseIntStep 16 false 0 c = some d := by
  rw [step_of_digit (by decide) h, Nat.mul_zero, Nat.zero_add]

theorem parseIntWithSign_single (c : UInt8) (neg : Bool) :
    parseIntWithSign [c] 16 neg = if c = 0x5F then none else parseIntStep 16 neg 0 c := by
  simp only [parseIntWithSign, List.cons_ne_nil, List.head?_cons, List.getLast?_singleton, Option.some.injEq, false_or,
    or_self, List.foldlM_cons, List.foldlM_nil, Option.bind_eq_bind, Option.pure_def, Option.bind_fun_some]

theorem parseIntWithSign_plus {c : UInt8} {n : ℕ} : parseIntWithSign [c] 16 false = some n ↔ HexDigit c n := by
  rw [parseIntWithSign_single]
  constructor
  · intro h
    rw [Option.ite_none_left_eq_some] at h
    obtain ⟨d, hd⟩ := digit_of_step h.1 h.2
    rw [step_of_first_digit hd] at h
    obtain rfl : d = n := Option.some.inj h.2
    exact hd
  · intro h
    rw [if_neg h.ne_underscore, step_of_first_digit h]

theorem parseIntWithSign_minus {c : UInt8} {n : ℕ} :
    parseIntWithSign [c] 16 true = some n ↔ HexDigit c 0 ∧ n = 0 := by
  rw [parseIntWithSign_single]
  constructor
  · intro h
    rw [Option.ite_none_left_eq_some] at h
    obtain ⟨d, hd⟩ := digit_of_step h.1 h.2
    simp only [parseIntStep, if_neg h.1, hexDigit_iff.mp hd, and_self, if_true, Option.ite_none_right_eq_some] at h
    exact ⟨h.2.1 ▸ hd, (Option.some.inj h.2.2).symm⟩
  · rintro ⟨h, rfl⟩
    simp only [parseIntStep, if_neg h.ne_underscore, hexDigit_iff.mp h, and_self, if_true]

theorem parseIntWithSign_pair {c c' : UInt8} {n : ℕ} : parseIntWithSign [c, c'] 16 false = some n ↔
    ∃ d e, HexDigit c d ∧ HexDigit c' e ∧ n = 16 * d + e := by
  have heq : parseIntWithSign [c, c'] 16 false = if c = 0x5F ∨ c' = 0x5F then none
      else (parseIntStep 16 false 0 c).bind fun acc => parseIntStep 16 false acc c' := by
    simp only [parseIntWithSign, List.cons_ne_nil, List.head?_cons, List.getLast?_cons_cons, List.getLast?_singleton,
      Option.some.injEq, false_or, List.foldlM_cons, List.foldlM_nil, Option.bind_eq_bind, Option.pure_def,
      Option.bind_fun_some]
  rw [heq]
  constructor
  · intro h
    rw [Option.ite_none_left_eq_some, not_or] at h
    obtain ⟨⟨hc, hc'⟩, h⟩ := h
    obtain ⟨acc, hfirst, hsecond⟩ := Option.bind_eq_some_iff.mp h
    obtain ⟨d, hd⟩ := digit_of_step hc hfirst
    obtain ⟨e, he⟩ := digit_of_step hc' hsecond
    rw [step_of_first_digit hd] at hfirst
    obtain rfl : d = acc := Option.some.inj hfirst
    rw [step_of_digit hd.lt he] at hsecond
    exact ⟨d, e, hd, he, (Option.some.inj hsecond).symm⟩
  · rintro ⟨d, e, hd, he, rfl⟩
    have hscore : ¬(c = 0x5F ∨ c' = 0x5F) := not_or.mpr ⟨hd.ne_underscore, he.ne_underscore⟩
    rw [if_neg hscore, step_of_first_digit hd, Option.bind_some, step_of_digit hd.lt he]

theorem ofNat_eq_iff {n : ℕ} (hn : n < 256) {byte : UInt8} : UInt8.ofNat n = byte ↔ byte.toNat = n := by
  rw [← UInt8.toNat_inj, UInt8.toNat_ofNat_of_lt' hn, eq_comm]

theorem parseInt_unsigned {c c' : UInt8} (hplus : c ≠ 0x2B) (hminus : c ≠ 0x2D) :
    parseInt [c, c'] 16 = (parseIntWithSign [c, c'] 16 false).map UInt8.ofNat := by
  unfold parseInt
  split <;> simp_all

theorem decodedPair_iff {pair : Bytes} {byte : UInt8} : DecodedPair pair byte ↔ HexByte pair byte ∨ SignedByte pair byte := by
  constructor
  · rintro ⟨hlen, h⟩
    obtain ⟨c, c', rfl⟩ := List.length_eq_two.mp hlen
    by_cases hplus : c = 0x2B
    · subst hplus
      obtain ⟨n, hn, heq⟩ := Option.map_eq_some_iff.mp h
      have hdigit := parseIntWithSign_plus.mp hn
      have hlt := hdigit.lt
      rw [← (ofNat_eq_iff (by omega)).mp heq] at hdigit
      exact Or.inr (.plus hdigit)
    by_cases hminus : c = 0x2D
    · subst hminus
      obtain ⟨n, hn, rfl⟩ := Option.map_eq_some_iff.mp h
      obtain ⟨hdigit, rfl⟩ := parseIntWithSign_minus.mp hn
      exact Or.inr (.minus hdigit)
    · rw [parseInt_unsigned hplus hminus] at h
      obtain ⟨n, hn, heq⟩ := Option.map_eq_some_iff.mp h
      obtain ⟨d, e, hd, he, rfl⟩ := parseIntWithSign_pair.mp hn
      have hd' := hd.lt
      have he' := he.lt
      exact Or.inl ⟨c, c', d, e, rfl, hd, he, (ofNat_eq_iff (by omega)).mp heq⟩
  · rintro (⟨c, c', d, e, rfl, hd, he, hbyte⟩ | hsigned)
    · have hd' := hd.lt
      have he' := he.lt
      refine ⟨rfl, ?_⟩
      rw [parseInt_unsigned (hd.ne (by decide)) (hd.ne (by decide)), parseIntWithSign_pair.mpr ⟨d, e, hd, he, rfl⟩,
        Option.map_some, (ofNat_eq_iff (by omega)).mpr hbyte]
    · cases hsigned with
      | plus h =>
        refine ⟨rfl, ?_⟩
        change (parseIntWithSign _ 16 false).map UInt8.ofNat = _
        rw [parseIntWithSign_plus.mpr h, Option.map_some, UInt8.ofNat_toNat]
      | minus h =>
        refine ⟨rfl, ?_⟩
        change (parseIntWithSign _ 16 true).map UInt8.ofNat = _
        rw [parseIntWithSign_minus.mpr ⟨h, rfl⟩]
        rfl

theorem parseHexColor_eq_some {value : Bytes} : parseHexColor value = some color ↔
    ∃ red green blue alpha, value = 0x23 :: (red ++ (green ++ (blue ++ alpha))) ∧ DecodedPair red color.b0 ∧
      DecodedPair green color.b1 ∧ DecodedPair blue color.b2 ∧
      (alpha = [] ∧ color.b3 = 0xFF ∨ DecodedPair alpha color.b3) := by
  constructor
  · intro h
    unfold parseHexColor at h
    split at h
    · cases h
    · next hlen =>
      split at h
      · cases h
      · next hhash =>
        obtain ⟨rest, rfl⟩ : ∃ rest, value = 0x23 :: rest := by
          cases value with
          | nil => simp at hhash
          | cons b rest => exact ⟨rest, by simpa using hhash⟩
        split at h
        · next r g b a hr hg hb ha =>
          cases h
          rw [List.length_cons] at hlen
          have hslice : ∀ n, slice (0x23 :: rest) (n + 1) (n + 3) = (rest.drop n).take 2 := fun n => by
            simp [slice, List.drop_take]
          rw [hslice 0] at hr
          rw [hslice 2] at hg
          rw [hslice 4] at hb
          refine ⟨(rest.drop 0).take 2, (rest.drop 2).take 2, (rest.drop 4).take 2, rest.drop 6, ?_, ⟨?_, hr⟩, ⟨?_, hg⟩,
            ⟨?_, hb⟩, ?_⟩
          · have hsplit : ∀ n, rest.drop n = (rest.drop n).take 2 ++ rest.drop (n + 2) := fun n => by
              rw [← List.drop_drop, List.take_append_drop]
            rw [← hsplit 4, ← hsplit 2, ← hsplit 0, List.drop_zero]
          · simp; omega
          · simp; omega
          · simp; omega
          · split at ha
            · next hnine =>
              have hall : (rest.drop 6).take 2 = rest.drop 6 := List.take_of_length_le (by simp at hnine ⊢; omega)
              rw [hslice 6, hall] at ha
              exact Or.inr ⟨by simp at hnine ⊢; omega, ha⟩
            · next hseven =>
              exact Or.inl ⟨List.drop_eq_nil_of_le (by simp at hseven; omega), (Option.some.inj ha).symm⟩
        · cases h
  · rintro ⟨red, green, blue, alpha, rfl, ⟨hred, pr⟩, ⟨hgreen, pg⟩, ⟨hblue, pb⟩, halpha⟩
    obtain ⟨r₁, r₂, rfl⟩ := List.length_eq_two.mp hred
    obtain ⟨g₁, g₂, rfl⟩ := List.length_eq_two.mp hgreen
    obtain ⟨b₁, b₂, rfl⟩ := List.length_eq_two.mp hblue
    rcases halpha with ⟨rfl, ha⟩ | ⟨hlen, pa⟩
    · simp [parseHexColor, slice, pr, pg, pb, ← ha]
    · obtain ⟨a₁, a₂, rfl⟩ := List.length_eq_two.mp hlen
      simp [parseHexColor, slice, pr, pg, pb, pa]

/-- The decoder stores the four bytes in the order in which they are written. -/
theorem HexColor.parseHexColor {value : Bytes} {r g b a : UInt8} (h : HexColor value r g b a) :
    parseHexColor value = some ⟨r, g, b, a⟩ := by
  obtain ⟨red, green, blue, alpha, rfl, hr, hg, hb, ha⟩ := h
  have decoded : ∀ {pair byte}, HexByte pair byte → DecodedPair pair byte := fun h => decodedPair_iff.mpr (Or.inl h)
  exact parseHexColor_eq_some.mpr ⟨red, green, blue, alpha, rfl, decoded hr, decoded hg, decoded hb, ha.imp id decoded⟩

/-! ### The words of an attached buffer -/

theorem attached_word (h : Request.attach buffer ∈
      (renderFrame ar io width height percent orientation alignment color).1) {x y : ℕ} (hx : x < width)
    (hy : y < height) :
    (Painted ar width height percent orientation alignment x y →
        buffer.word x y = some (wordOf color.b0 color.b1 color.b2 color.b3)) ∧
      (¬Painted ar width height percent orientation alignment x y → buffer.word x y = some 0) := by
  obtain ⟨previous, drawn, hl, hdrawn, rfl⟩ := renderFrame_attach h
  obtain ⟨hin, hout⟩ := drawPercent_pixel hl hx hy hdrawn
  exact ⟨fun hp => by rw [word_eq, hin hp]; rfl, fun hp => by rw [word_eq, hout hp]; rfl⟩

/-- A property of the words of the line holds of the whole line when the word of the colour has it, or
    when there is no line. -/
theorem attached_line_iff {Good : BitVec 32 → Prop} (h : Request.attach buffer ∈
      (renderFrame ar io width height percent orientation alignment color).1) :
    (∀ x < width, ∀ y < height,
      (Painted ar width height percent orientation alignment x y → ∃ word, buffer.word x y = some word ∧ Good word) ∧
        (¬Painted ar width height percent orientation alignment x y → buffer.word x y = some 0)) ↔
      Good (wordOf color.b0 color.b1 color.b2 color.b3) ∨ LineEmpty ar width height percent orientation := by
  obtain ⟨previous, drawn, hl, hdrawn, -⟩ := renderFrame_attach h
  rw [lineEmpty_iff hl hdrawn]
  constructor
  · intro hall
    by_contra hno
    rw [not_or] at hno
    refine hno.2 fun x hx y hy hp => hno.1 ?_
    obtain ⟨word, hword, hgood⟩ := (hall x hx y hy).1 hp
    rw [(attached_word h hx hy).1 hp] at hword
    exact Option.some.inj hword ▸ hgood
  · rintro (hgood | hnone) x hx y hy
    · exact ⟨fun hp => ⟨_, (attached_word h hx hy).1 hp, hgood⟩, (attached_word h hx hy).2⟩
    · exact ⟨fun hp => absurd hp (hnone x hx y hy), (attached_word h hx hy).2⟩

/-- Where the blank word has the property too, it is a property of every word. -/
theorem attached_words_iff {Good : BitVec 32 → Prop} (hblank : Good 0) (h : Request.attach buffer ∈
      (renderFrame ar io width height percent orientation alignment color).1) :
    (∀ x < width, ∀ y < height, ∃ word, buffer.word x y = some word ∧ Good word) ↔
      Good (wordOf color.b0 color.b1 color.b2 color.b3) ∨ LineEmpty ar width height percent orientation := by
  rw [← attached_line_iff h]
  constructor
  · exact fun hall x hx y hy => ⟨fun _ => hall x hx y hy, (attached_word h hx hy).2⟩
  · intro hline x hx y hy
    by_cases hp : Painted ar width height percent orientation alignment x y
    · exact (hline x hx y hy).1 hp
    · exact ⟨0, (hline x hx y hy).2 hp, hblank⟩

/-! ### Opaque colours -/

/-- The style file gives the colour as the opaque value `#RRGGBB` or `#RRGGBBFF`. -/
def WrittenOpaque (content : Bytes) (color : Pixel) (rr gg bb : UInt8) : Prop :=
  ∃ line ∈ content.splitOn 0x0A, ∃ key value, styleLine line = some (key, value, color) ∧ HexColor value rr gg bb 0xFF

theorem WrittenOpaque.eq {content : Bytes} {rr gg bb : UInt8} (h : WrittenOpaque content color rr gg bb) :
    color = ⟨rr, gg, bb, 0xFF⟩ := by
  obtain ⟨line, -, key, value, hline, hhex⟩ := h
  exact Option.some.inj ((styleLine_eq_some.mp hline).2.2.2.symm.trans hhex.parseHexColor)

/-- An opaque colour of the style file reaches the compositor as written exactly when its red and blue
    are the same byte (or the line is empty): the decoder puts red where the format has blue. -/
theorem opaque_color_read_iff {content : Bytes} {message : ParsedMessage} {rr gg bb : UInt8}
    (hwritten : WrittenOpaque content (pickColorForStates (styleOfContent content) message.states) rr gg bb)
    (hsent : Request.attach buffer ∈ (renderFrame ar io width height message.percent orientation alignment
      (pickColorForStates (styleOfContent content) message.states)).1) :
    (∀ x < width, ∀ y < height,
      (Painted ar width height message.percent orientation alignment x y → ∃ word, buffer.word x y = some word ∧
        wordAlpha word = 0xFF ∧ wordRed word = rr ∧ wordGreen word = gg ∧ wordBlue word = bb) ∧
      (¬Painted ar width height message.percent orientation alignment x y → buffer.word x y = some 0)) ↔
    rr = bb ∨ LineEmpty ar width height message.percent orientation := by
  rw [attached_line_iff hsent, hwritten.eq]
  obtain ⟨halpha, hred, hgreen, hblue⟩ := channels_wordOf rr gg bb 0xFF
  simp only [halpha, hred, hgreen, hblue, true_and]
  constructor
  · rintro (⟨-, heq⟩ | hempty)
    · exact Or.inl heq
    · exact Or.inr hempty
  · rintro (heq | hempty)
    · exact Or.inl ⟨heq.symm, heq⟩
    · exact Or.inr hempty

/-- A row of four pixels, half of it the line. -/
def halfLine (color : Pixel) : WlBuffer :=
  ⟨sliceAsBytes [color, color, transparent, transparent], 4, 1, 16, .argb8888⟩

/-- The message `50 low`. -/
def halfLow : ParsedMessage := ⟨.finite 50, [ascii "low"], by decide⟩

theorem halfLow_fill : (scaledSize .exact 4 halfLow.percent).intFromFloat = some 2 :=
  @fill_eq 4 50 (by decide) (by decide)

theorem halfLine_sent (color : Pixel) : Request.attach (halfLine color) ∈
    (renderFrame .exact freshIO 4 1 halfLow.percent .horizontal .left color).1 := by
  have hdrawn : ∀ pixels : List Pixel, pixels.length = 4 →
      drawPercent .exact pixels 4 1 halfLow.percent .horizontal .left color =
        some [color, color, transparent, transparent] := by
    intro pixels hl
    rw [drawPercent_blank, hl]
    simp only [drawPercent, halfLow_fill]
    rfl
  simp [renderFrame, framebufferByteSize, usizeMul, castU31, freshIO, bytesAsSlice, hdrawn, sendAll, frameRequests,
    halfLine]

theorem opaque_color_read_magenta : WrittenOpaque (ascii "low=#FF00FF\n")
      (pickColorForStates (styleOfContent (ascii "low=#FF00FF\n")) halfLow.states) 0xFF 0x00 0xFF ∧
    ∀ x < 4, ∀ y < 1,
      (Painted .exact 4 1 halfLow.percent .horizontal .left x y →
        ∃ word, (halfLine ⟨0xFF, 0x00, 0xFF, 0xFF⟩).word x y = some word ∧
        wordAlpha word = 0xFF ∧ wordRed word = 0xFF ∧ wordGreen word = 0x00 ∧ wordBlue word = 0xFF) ∧
      (¬Painted .exact 4 1 halfLow.percent .horizontal .left x y →
        (halfLine ⟨0xFF, 0x00, 0xFF, 0xFF⟩).word x y = some 0) := by
  have hcolor : pickColorForStates (styleOfContent (ascii "low=#FF00FF\n")) halfLow.states =
      ⟨0xFF, 0x00, 0xFF, 0xFF⟩ := by decide
  have hwritten : WrittenOpaque (ascii "low=#FF00FF\n")
      (pickColorForStates (styleOfContent (ascii "low=#FF00FF\n")) halfLow.states) 0xFF 0x00 0xFF := by
    rw [hcolor]
    refine ⟨ascii "low=#FF00FF", by decide, ascii "low", ascii "#FF00FF", by decide, ascii "FF", ascii "00",
      ascii "FF", [], rfl, ?_, ?_, ?_, Or.inl ⟨rfl, rfl⟩⟩
    · exact ⟨0x46, 0x46, 15, 15, rfl, rfl, rfl, rfl⟩
    · exact ⟨0x30, 0x30, 0, 0, rfl, rfl, rfl, rfl⟩
    · exact ⟨0x46, 0x46, 15, 15, rfl, rfl, rfl, rfl⟩
  have hsent : Request.attach (halfLine ⟨0xFF, 0x00, 0xFF, 0xFF⟩) ∈
      (renderFrame .exact freshIO 4 1 halfLow.percent .horizontal .left
        (pickColorForStates (styleOfContent (ascii "low=#FF00FF\n")) halfLow.states)).1 := by
    rw [hcolor]
    exact halfLine_sent _
  exact ⟨hwritten, (opaque_color_read_iff hwritten hsent).mpr (Or.inl rfl)⟩

/-- A pure red of the style file is a pure blue in the frame. -/
theorem red_read_as_blue : WrittenOpaque (ascii "low=#FF0000\n")
      (pickColorForStates (styleOfContent (ascii "low=#FF0000\n")) halfLow.states) 0xFF 0x00 0x00 ∧
    acceptMessage parseNumeral .exact (ascii "50 low\n") = some halfLow ∧
    Request.attach (halfLine ⟨0xFF, 0x00, 0x00, 0xFF⟩) ∈
      (renderFrame .exact freshIO 4 1 halfLow.percent .horizontal .left
        (pickColorForStates (styleOfContent (ascii "low=#FF0000\n")) halfLow.states)).1 ∧
    Painted .exact 4 1 halfLow.percent .horizontal .left 0 0 ∧
    ∃ word, (halfLine ⟨0xFF, 0x00, 0x00, 0xFF⟩).word 0 0 = some word ∧
      wordRed word = 0x00 ∧ wordBlue word = 0xFF := by
  have hcolor : pickColorForStates (styleOfContent (ascii "low=#FF0000\n")) halfLow.states =
      ⟨0xFF, 0x00, 0x00, 0xFF⟩ := by decide
  have hregion : fillRegion .exact 4 1 halfLow.percent .horizontal .left = some (0, 2, 1) :=
    fillRegion_horizontal.mpr ⟨halfLow_fill, rfl, rfl⟩
  rw [hcolor]
  refine ⟨⟨ascii "low=#FF0000", by decide, ascii "low", ascii "#FF0000", by decide, ascii "FF", ascii "00",
    ascii "00", [], rfl, ?_, ?_, ?_, Or.inl ⟨rfl, rfl⟩⟩, by decide, halfLine_sent _, ?_, 0xFF0000FF, rfl, rfl, rfl⟩
  · exact ⟨0x46, 0x46, 15, 15, rfl, rfl, rfl, rfl⟩
  · exact ⟨0x30, 0x30, 0, 0, rfl, rfl, rfl, rfl⟩
  · exact ⟨0x30, 0x30, 0, 0, rfl, rfl, rfl, rfl⟩
  · exact (painted_iff hregion (by decide) (by decide) (by decide)).mpr (by decide)

/-! ### Premultiplied alpha -/

/-- No colour of the word exceeds its alpha. -/
def WordPremultiplied (word : BitVec 32) : Prop :=
  wordRed word ≤ wordAlpha word ∧ wordGreen word ≤ wordAlpha word ∧ wordBlue word ≤ wordAlpha word

/-- No byte of the colour exceeds its last one, the alpha of the style file. -/
def Pixel.Premultiplied (p : Pixel) : Prop := p.b0 ≤ p.b3 ∧ p.b1 ≤ p.b3 ∧ p.b2 ≤ p.b3

theorem wordPremultiplied_wordOf (p : Pixel) : WordPremultiplied (wordOf p.b0 p.b1 p.b2 p.b3) ↔ p.Premultiplied := by
  obtain ⟨halpha, hred, hgreen, hblue⟩ := channels_wordOf p.b0 p.b1 p.b2 p.b3
  rw [WordPremultiplied, halpha, hred, hgreen, hblue]
  exact ⟨fun ⟨h2, h1, h0⟩ => ⟨h0, h1, h2⟩, fun ⟨h0, h1, h2⟩ => ⟨h2, h1, h0⟩⟩

theorem wordOf_channels (word : BitVec 32) :
    word = wordOf (wordBlue word) (wordGreen word) (wordRed word) (wordAlpha word) := by
  refine BitVec.eq_of_getLsbD_eq fun i hi => ?_
  simp only [wordAlpha, wordRed, wordGreen, wordBlue, wordOf, BitVec.getLsbD_extractLsb', BitVec.getLsbD_append]
  grind

theorem WordPremultiplied.eq_zero {word : BitVec 32} (h : WordPremultiplied word) (halpha : wordAlpha word = 0) :
    word = 0 := by
  rw [WordPremultiplied, halpha] at h
  obtain ⟨hred, hgreen, hblue⟩ := h
  rw [wordOf_channels word, halpha, UInt8.le_zero_iff.mp hred, UInt8.le_zero_iff.mp hgreen, UInt8.le_zero_iff.mp hblue]
  rfl

/-! ### The value that gives a colour -/

/-- The line gives these states their colour: it has the last of the longest matching rules; or no rule matches, and it is
    the last line that sets the default colour. -/
inductive Gives (content : Bytes) (states : List Bytes) : Bytes → Prop
  | rule {pre post : List Bytes} {line : Bytes} {rule : ColorRule} (hlines : content.splitOn 0x0A = pre ++ line :: post)
    (hrule : lineRule line = some rule)
    (hlast : LastMax.IsLast (Eligible states) specificity (pre.filterMap lineRule) rule (post.filterMap lineRule)) :
    Gives content states line
  | default {pre post : List Bytes} {line : Bytes} (hlines : content.splitOn 0x0A = pre ++ line :: post)
    (hdefault : (lineDefault line).isSome) (hlater : ∀ later ∈ post, lineDefault later = none)
    (hnone : ∀ other ∈ content.splitOn 0x0A, ∀ rule, lineRule other = some rule → ¬Eligible states rule) :
    Gives content states line

/-- The pairs RR, GG and BB of the value stand for no more than its pair AA does, if it has one. -/
def ValuePremultiplied (value : Bytes) : Prop :=
  ∀ red green blue alpha r g b a, value = 0x23 :: (red ++ (green ++ (blue ++ alpha))) → DecodedPair red r →
    DecodedPair green g → DecodedPair blue b → DecodedPair alpha a → r ≤ a ∧ g ≤ a ∧ b ≤ a

theorem lineColor_of_rule {line : Bytes} {rule : ColorRule} (h : lineRule line = some rule) :
    parseHexColor (lineValue line) = some rule.color := by
  obtain ⟨key, value, color, hline, -, rfl⟩ := lineRule_eq_some h
  obtain ⟨-, -, rfl, hcolor⟩ := styleLine_eq_some.mp hline
  exact hcolor

theorem lineColor_of_default {line : Bytes} (h : lineDefault line = some color) :
    parseHexColor (lineValue line) = some color := by
  obtain ⟨-, hcolor⟩ := Option.ite_none_right_eq_some.mp h
  exact (Option.ite_none_left_eq_some.mp hcolor).2

/-- The colour is what the value of such a line stands for. -/
theorem gives_color {content line : Bytes} {states : List Bytes} (h : Gives content states line) :
    parseHexColor (lineValue line) = some (pickColorForStates (styleOfContent content) states) := by
  cases h with
  | @rule pre post line rule hlines hrule hlast =>
    have hrules : (styleOfContent content).rules = pre.filterMap lineRule ++ rule :: post.filterMap lineRule := by
      rw [styleOfContent_eq, hlines]
      change (pre ++ line :: post).filterMap lineRule = _
      rw [List.filterMap_append, List.filterMap_cons_some hrule]
    rw [pickColorForStates_of_isLast hrules hlast]
    exact lineColor_of_rule hrule
  | @default pre post line hlines hdefault hlater hnone =>
    obtain ⟨color, hcolor⟩ := Option.isSome_iff_exists.mp hdefault
    rcases pickColorForStates_cases (styleOfContent content) states with ⟨_, rule, _, hrules, hlast, -⟩ | ⟨-, hpick⟩
    · obtain ⟨other, hother, hrule⟩ := mem_styleOfContent (hrules ▸ List.mem_append_right _ (List.mem_cons_self ..))
      exact absurd hlast.chosen (hnone other hother rule hrule)
    · rw [hpick, styleOfContent_eq, hlines]
      change _ = some (((pre ++ line :: post).filterMap lineDefault).getLastD opaqueWhite)
      rw [List.filterMap_append, List.filterMap_cons_some hcolor, List.filterMap_eq_nil_iff.mpr hlater, List.getLastD_concat]
      exact lineColor_of_default hcolor

/-- Where no line gives the colour it is white. -/
theorem exists_gives (content : Bytes) (states : List Bytes) :
    (∃ line, Gives content states line) ∨ pickColorForStates (styleOfContent content) states = opaqueWhite := by
  rcases pickColorForStates_cases (styleOfContent content) states with ⟨rules, rule, later, hrules, hlast, -⟩ | ⟨hnone, hpick⟩
  · rw [styleOfContent_eq] at hrules
    obtain ⟨before, rest, hlines, rfl, hrest⟩ := List.filterMap_eq_append_iff.mp hrules
    obtain ⟨between, line, post, rfl, hbetween, hrule, rfl⟩ := List.filterMap_eq_cons_iff.mp hrest
    have hsplit : content.splitOn 0x0A = (before ++ between) ++ line :: post := by rw [hlines, List.append_assoc]
    refine Or.inl ⟨line, .rule hsplit hrule ?_⟩
    rw [List.filterMap_append, List.filterMap_eq_nil_iff.mpr hbetween, List.append_nil]
    exact hlast
  · have hfile : ∀ other ∈ content.splitOn 0x0A, ∀ rule, lineRule other = some rule → ¬Eligible states rule :=
      fun other hother rule hrule => hnone rule (by
        rw [styleOfContent_eq]
        exact List.mem_filterMap.mpr ⟨other, hother, hrule⟩)
    rw [hpick, styleOfContent_eq]
    rcases List.eq_nil_or_concat ((content.splitOn 0x0A).filterMap lineDefault) with hdefaults | ⟨defaults, color, hdefaults⟩
    · exact Or.inr (by rw [hdefaults]; rfl)
    · rw [List.concat_eq_append] at hdefaults
      obtain ⟨before, rest, hlines, -, hrest⟩ := List.filterMap_eq_append_iff.mp hdefaults
      obtain ⟨between, line, post, rfl, -, hcolor, hpost⟩ := List.filterMap_eq_cons_iff.mp hrest
      have hsplit : content.splitOn 0x0A = (before ++ between) ++ line :: post := by rw [hlines, List.append_assoc]
      exact Or.inl ⟨line, .default hsplit (Option.isSome_of_eq_some hcolor) (List.filterMap_eq_nil_iff.mp hpost) hfile⟩

theorem valuePremultiplied_iff {value : Bytes} (h : parseHexColor value = some color) :
    ValuePremultiplied value ↔ color.Premultiplied := by
  constructor
  · intro hvalue
    obtain ⟨red, green, blue, alpha, rfl, hr, hg, hb, ⟨rfl, ha⟩ | ha⟩ := parseHexColor_eq_some.mp h
    · have hle : ∀ byte : UInt8, byte ≤ 0xFF := fun byte => UInt8.le_iff_toNat_le.mpr (Nat.le_of_lt_succ byte.toNat_lt)
      rw [Pixel.Premultiplied, ha]
      exact ⟨hle _, hle _, hle _⟩
    · exact hvalue red green blue alpha _ _ _ _ rfl hr hg hb ha
  · rintro hcolor red green blue alpha r g b a rfl hr hg hb ha
    have hparsed : parseHexColor (0x23 :: (red ++ (green ++ (blue ++ alpha)))) = some ⟨r, g, b, a⟩ :=
      parseHexColor_eq_some.mpr ⟨red, green, blue, alpha, rfl, hr, hg, hb, Or.inr ha⟩
    obtain rfl := Option.some.inj (h.symm.trans hparsed)
    exact hcolor

theorem gives_premultiplied_iff (content : Bytes) (states : List Bytes) :
    (∀ line, Gives content states line → ValuePremultiplied (lineValue line)) ↔
      (pickColorForStates (styleOfContent content) states).Premultiplied := by
  constructor
  · intro h
    rcases exists_gives content states with ⟨line, hgives⟩ | hwhite
    · exact (valuePremultiplied_iff (gives_color hgives)).mp (h line hgives)
    · rw [hwhite]
      exact ⟨by decide, by decide, by decide⟩
  · intro h line hgives
    exact (valuePremultiplied_iff (gives_color hgives)).mpr h

/-- The words of a frame are premultiplied, so that full transparency is the word 0, exactly when the value that
    gives the colour writes no pair above its alpha (or the line is empty): nothing on the way multiplies. -/
theorem premultiplied_iff {content : Bytes} {message : ParsedMessage}
    (hsent : Request.attach buffer ∈ (renderFrame ar io width height message.percent orientation alignment
      (pickColorForStates (styleOfContent content) message.states)).1) :
    (∀ x < width, ∀ y < height, ∃ word, buffer.word x y = some word ∧ WordPremultiplied word ∧
      (wordAlpha word = 0 → word = 0)) ↔
    (∀ line, Gives content message.states line → ValuePremultiplied (lineValue line)) ∨
      LineEmpty ar width height message.percent orientation := by
  have hblank : WordPremultiplied 0 := ⟨by decide, by decide, by decide⟩
  rw [attached_words_iff ⟨hblank, fun _ => rfl⟩ hsent, wordPremultiplied_wordOf, gives_premultiplied_iff]
  refine or_congr_left ⟨fun h => h.1, fun h => ⟨h, ?_⟩⟩
  exact ((wordPremultiplied_wordOf _).mpr h).eq_zero

theorem premultiplied_opaque : Request.attach (halfLine ⟨0xFF, 0x00, 0xFF, 0xFF⟩) ∈
      (renderFrame .exact freshIO 4 1 halfLow.percent .horizontal .left
        (pickColorForStates (styleOfContent (ascii "low=#FF00FF\n")) halfLow.states)).1 ∧
    ∀ x < 4, ∀ y < 1, ∃ word, (halfLine ⟨0xFF, 0x00, 0xFF, 0xFF⟩).word x y = some word ∧ WordPremultiplied word ∧
      (wordAlpha word = 0 → word = 0) := by
  have hcolor : pickColorForStates (styleOfContent (ascii "low=#FF00FF\n")) halfLow.states =
      ⟨0xFF, 0x00, 0xFF, 0xFF⟩ := by decide
  have hsent : Request.attach (halfLine ⟨0xFF, 0x00, 0xFF, 0xFF⟩) ∈
      (renderFrame .exact freshIO 4 1 halfLow.percent .horizontal .left
        (pickColorForStates (styleOfContent (ascii "low=#FF00FF\n")) halfLow.states)).1 := by
    rw [hcolor]
    exact halfLine_sent _
  refine ⟨hsent, (premultiplied_iff hsent).mpr (Or.inl ((gives_premultiplied_iff _ _).mpr ?_))⟩
  rw [hcolor]
  exact ⟨by decide, by decide, by decide⟩

/-- A half transparent red keeps its full red byte, and a fully transparent one is not the word 0. -/
theorem translucent_not_premultiplied : acceptMessage parseNumeral .exact (ascii "50 low\n") = some halfLow ∧
    (Request.attach (halfLine ⟨0xFF, 0x00, 0x00, 0x80⟩) ∈
      (renderFrame .exact freshIO 4 1 halfLow.percent .horizontal .left
        (pickColorForStates (styleOfContent (ascii "low=#FF000080\n")) halfLow.states)).1 ∧
      ∃ word, (halfLine ⟨0xFF, 0x00, 0x00, 0x80⟩).word 0 0 = some word ∧ ¬WordPremultiplied word) ∧
    Request.attach (halfLine ⟨0xFF, 0x00, 0x00, 0x00⟩) ∈
      (renderFrame .exact freshIO 4 1 halfLow.percent .horizontal .left
        (pickColorForStates (styleOfContent (ascii "low=#FF000000\n")) halfLow.states)).1 ∧
      (halfLine ⟨0xFF, 0x00, 0x00, 0x00⟩).word 0 0 ≠ some 0 := by
  have hhalf : pickColorForStates (styleOfContent (ascii "low=#FF000080\n")) halfLow.states =
      ⟨0xFF, 0x00, 0x00, 0x80⟩ := by decide
  have hnone : pickColorForStates (styleOfContent (ascii "low=#FF000000\n")) halfLow.states =
      ⟨0xFF, 0x00, 0x00, 0x00⟩ := by decide
  rw [hhalf, hnone]
  refine ⟨by decide, ⟨halfLine_sent _, 0x800000FF, rfl, fun h => absurd h.2.2 (by decide)⟩, halfLine_sent _, by decide⟩

end Zlinestatus
