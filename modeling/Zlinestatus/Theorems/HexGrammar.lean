import Zlinestatus.Theorems.Color

/-! What `parseHexColor` accepts. It reads each pair of digits with `parseInt`, which takes a sign, so that
    it accepts `#+1+2+3` beside the documented colours. -/

namespace Zlinestatus
variable {value : Bytes} {color : Pixel}

/-- A colour of which at least one byte is written with a sign. -/
def Signed (value : Bytes) : Prop :=
  ∃ pairs : List Bytes, (pairs.length = 3 ∨ pairs.length = 4) ∧ value = 0x23 :: pairs.flatten ∧
    (∀ pair ∈ pairs, ∃ byte, HexByte pair byte ∨ SignedByte pair byte) ∧ ∃ pair ∈ pairs, ∃ byte, SignedByte pair byte

/-- The decoder accepts the value as the documented colour it is, or else a line with it changes nothing. -/
structure ReadAsDocumented (value : Bytes) : Prop where
  decodes : ∀ color, parseHexColor value = some color ↔ HexColor value color.b0 color.b1 color.b2 color.b3
  harmless : (∀ r g b a, ¬HexColor value r g b a) → ∀ style line, lineValue line = value → loadLine style line = style

/-! ### Signs -/

theorem HexByte.digits {pair : Bytes} {byte : UInt8} (h : HexByte pair byte) : ∀ c ∈ pair, ∃ d, HexDigit c d := by
  obtain ⟨high, low, d, e, rfl, hd, he, -⟩ := h
  simp only [List.mem_cons, List.not_mem_nil, or_false, forall_eq_or_imp, forall_eq]
  exact ⟨⟨d, hd⟩, ⟨e, he⟩⟩

theorem HexColor.digits {r g b a : UInt8} (h : HexColor value r g b a) : ∀ c ∈ value.tail, ∃ d, HexDigit c d := by
  obtain ⟨red, green, blue, alpha, rfl, hr, hg, hb, ha⟩ := h
  simp only [List.tail_cons, List.mem_append]
  rintro c (hc | hc | hc | hc)
  · exact hr.digits c hc
  · exact hg.digits c hc
  · exact hb.digits c hc
  · rcases ha with ⟨rfl, -⟩ | ha
    · cases hc
    · exact ha.digits c hc

theorem not_hexDigit {c : UInt8} (h : charToDigit c 16 = none) (d : ℕ) : ¬HexDigit c d := fun hd => absurd rfl (hd.ne h)

theorem SignedByte.sign {pair : Bytes} {byte : UInt8} (h : SignedByte pair byte) : ∃ c ∈ pair, ∀ d, ¬HexDigit c d := by
  cases h with
  | plus h => exact ⟨0x2B, by simp, not_hexDigit (by decide)⟩
  | minus h => exact ⟨0x2D, by simp, not_hexDigit (by decide)⟩

/-- A sign is no digit, so that a colour with one is not a documented colour. -/
theorem Signed.not_hexColor (h : Signed value) (r g b a : UInt8) : ¬HexColor value r g b a := by
  obtain ⟨pairs, -, rfl, -, pair, hpair, byte, hsigned⟩ := h
  obtain ⟨c, hc, hnone⟩ := hsigned.sign
  intro hcolor
  obtain ⟨d, hd⟩ := hcolor.digits c (List.mem_flatten.mpr ⟨pair, hpair, hc⟩)
  exact hnone d hd

/-- The decoder accepts a signed colour. -/
theorem Signed.parseHexColor (h : Signed value) : ∃ color, parseHexColor value = some color := by
  obtain ⟨pairs, hlen, rfl, hpairs, -⟩ := h
  have decoded : ∀ pair ∈ pairs, ∃ byte, DecodedPair pair byte :=
    fun pair hp => (hpairs pair hp).imp fun _ => decodedPair_iff.mpr
  rcases hlen with hlen | hlen
  · obtain ⟨red, green, blue, rfl⟩ := List.length_eq_three.mp hlen
    obtain ⟨r, hr⟩ := decoded red (by simp)
    obtain ⟨g, hg⟩ := decoded green (by simp)
    obtain ⟨b, hb⟩ := decoded blue (by simp)
    exact ⟨⟨r, g, b, 0xFF⟩, parseHexColor_eq_some.mpr ⟨red, green, blue, [], by simp, hr, hg, hb, Or.inl ⟨rfl, rfl⟩⟩⟩
  · obtain ⟨red, green, blue, alpha, rfl⟩ := List.length_eq_four.mp hlen
    obtain ⟨r, hr⟩ := decoded red (by simp)
    obtain ⟨g, hg⟩ := decoded green (by simp)
    obtain ⟨b, hb⟩ := decoded blue (by simp)
    obtain ⟨a, ha⟩ := decoded alpha (by simp)
    exact ⟨⟨r, g, b, a⟩, parseHexColor_eq_some.mpr ⟨red, green, blue, alpha, by simp, hr, hg, hb, Or.inr ha⟩⟩

/-- Whatever the decoder accepts without a sign is a documented colour. -/
theorem hexColor_of_unsigned (h : parseHexColor value = some color) (hunsigned : ¬Signed value) :
    HexColor value color.b0 color.b1 color.b2 color.b3 := by
  obtain ⟨red, green, blue, alpha, hvalue, hr, hg, hb, ha⟩ := parseHexColor_eq_some.mp h
  rw [decodedPair_iff] at hr hg hb ha
  have plain : ∀ (pairs : List Bytes), (pairs.length = 3 ∨ pairs.length = 4) → value = 0x23 :: pairs.flatten →
      (∀ pair ∈ pairs, ∃ byte, HexByte pair byte ∨ SignedByte pair byte) → ∀ pair ∈ pairs, ∀ byte, ¬SignedByte pair byte :=
    fun pairs hlen heq hpairs pair hp byte hs => hunsigned ⟨pairs, hlen, heq, hpairs, pair, hp, byte, hs⟩
  rcases ha with ⟨rfl, ha⟩ | ha
  · have hplain := plain [red, green, blue] (Or.inl rfl) (by simp [hvalue]) (by simp; exact ⟨⟨_, hr⟩, ⟨_, hg⟩, ⟨_, hb⟩⟩)
    exact ⟨red, green, blue, [], hvalue, hr.resolve_right (hplain red (by simp) _),
      hg.resolve_right (hplain green (by simp) _), hb.resolve_right (hplain blue (by simp) _), Or.inl ⟨rfl, ha⟩⟩
  · have hplain := plain [red, green, blue, alpha] (Or.inr rfl) (by simp [hvalue])
      (by simp; exact ⟨⟨_, hr⟩, ⟨_, hg⟩, ⟨_, hb⟩, ⟨_, ha⟩⟩)
    exact ⟨red, green, blue, alpha, hvalue, hr.resolve_right (hplain red (by simp) _),
      hg.resolve_right (hplain green (by simp) _), hb.resolve_right (hplain blue (by simp) _),
      Or.inr (ha.resolve_right (hplain alpha (by simp) _))⟩

/-- A value is read as the README says exactly when none of its bytes is written with a sign. -/
theorem read_as_documented_iff (value : Bytes) : ReadAsDocumented value ↔ ¬Signed value := by
  constructor
  · rintro h hsigned
    obtain ⟨color, hcolor⟩ := hsigned.parseHexColor
    exact hsigned.not_hexColor _ _ _ _ ((h.decodes color).mp hcolor)
  · intro hunsigned
    have hdecodes : ∀ color, parseHexColor value = some color ↔ HexColor value color.b0 color.b1 color.b2 color.b3 :=
      fun color => ⟨fun h => hexColor_of_unsigned h hunsigned, fun h => h.parseHexColor⟩
    refine ⟨hdecodes, fun hno style line hline => ?_⟩
    have hbad : parseHexColor (lineValue line) = none := by
      rw [hline]
      exact Option.eq_none_iff_forall_not_mem.mpr fun color hcolor => hno _ _ _ _ ((hdecodes color).mp hcolor)
    rw [loadLine, styleLine_of_badValue hbad]

/-- `#+1+2+3` is accepted as the colour `#010203`, and a line with it sets the default colour. -/
theorem signed_color_accepted : parseHexColor (ascii "#+1+2+3") = some ⟨0x01, 0x02, 0x03, 0xFF⟩ ∧
    ¬HexColor (ascii "#+1+2+3") 0x01 0x02 0x03 0xFF ∧
    loadLine {} (ascii "default=#+1+2+3") = { defaultColor := ⟨0x01, 0x02, 0x03, 0xFF⟩ } ∧
    ¬ReadAsDocumented (ascii "#+1+2+3") := by
  have hcolor : parseHexColor (ascii "#+1+2+3") = some ⟨0x01, 0x02, 0x03, 0xFF⟩ := by decide
  have hnot : ¬HexColor (ascii "#+1+2+3") 0x01 0x02 0x03 0xFF := fun h => by
    obtain ⟨d, hd⟩ := h.digits 0x2B (by decide)
    exact not_hexDigit (by decide) d hd
  exact ⟨hcolor, hnot, by decide, fun h => hnot ((h.decodes _).mp hcolor)⟩

end Zlinestatus
