import Mathlib.Data.Rat.Floor
import Mathlib.Data.Set.Card
import Mathlib.Order.Interval.Finset.Nat
import Zlinestatus.Theorems.Frame
import Zlinestatus.Theorems.Roundtrip

/-! The length of the line drawn for a reported percentage. A number up to 1 counts as a fraction, so
    that the percentage 1 is drawn as 100. -/

namespace Zlinestatus
open F32
variable {parseFloat : Bytes → Option F32} {width height : ℕ} {orientation : Orientation} {alignment : Alignment}

/-- The painted columns of a horizontal line, the painted rows of a vertical one. -/
noncomputable def lineLength (ar : F32Arith) (width height : ℕ) (percent : F32) (orientation : Orientation)
    (alignment : Alignment) : ℕ :=
  match orientation with
  | .horizontal => {x | x < width ∧ ∃ y < height, Painted ar width height percent .horizontal alignment x y}.ncard
  | .vertical => {y | y < height ∧ ∃ x < width, Painted ar width height percent .vertical alignment x y}.ncard

def shownPercent (p : ℕ) : ℕ := if p = 1 then 100 else min p 100

theorem shownPercent_le (p : ℕ) : shownPercent p ≤ 100 := by
  unfold shownPercent
  split <;> omega

theorem scalePercent_natCast (p : ℕ) : scalePercent .exact (finite p) = finite (shownPercent p : ℕ) := by
  simp only [scalePercent, shownPercent, le_finite, decide_eq_true_eq, Nat.cast_le_one]
  rcases Nat.lt_trichotomy p 1 with hlt | rfl | hgt
  · obtain rfl : p = 0 := by omega
    simp [clamp_finite]
  · simp [clamp_finite]
  · rw [if_neg (by omega), if_neg (by omega), clamp_finite, Nat.cast_min, Nat.cast_ofNat,
      max_eq_right (le_min (Nat.cast_nonneg p) (by norm_num))]

/-! ### The fill -/

theorem fill_eq {n s : ℕ} (hn : n < 2 ^ 32) (hs : s ≤ 100) :
    (scaledSize .exact n (finite s)).intFromFloat = some (n * s / 100) := by
  obtain ⟨f, hf, -, hfill⟩ := fill_floor hn (Nat.cast_nonneg s) (by exact_mod_cast hs : (s : ℚ) ≤ 100)
  have heq : ⌊(n : ℚ) * s / 100⌋ = (n * s / 100 : ℕ) := by
    have := Rat.floor_natCast_div_natCast (n * s) 100
    push_cast at this ⊢
    exact this
  rw [hfill, Int.ofNat_inj.mp (hf.trans heq)]

theorem fill_le (n : ℕ) {s : ℕ} (hs : s ≤ 100) : n * s / 100 ≤ n :=
  Nat.div_le_of_le_mul (by rw [Nat.mul_comm 100]; exact Nat.mul_le_mul_left n hs)

theorem lineLength_eq {s : ℕ} (hwidth : 0 < width) (hheight : 0 < height) (hw : width < 2 ^ 32) (hh : height < 2 ^ 32)
    (hs : s ≤ 100) : lineLength .exact width height (finite s) orientation alignment =
      lineSize orientation width height * s / 100 := by
  cases orientation with
  | horizontal =>
    have hle := fill_le width hs
    obtain ⟨start, hstart, hfits, -⟩ := startX_aligned alignment hle
    have hregion : fillRegion .exact width height (finite s) .horizontal alignment =
        some (start, width * s / 100, height) := fillRegion_horizontal.mpr ⟨fill_eq hw hs, hstart, rfl⟩
    have hset : {x | x < width ∧ ∃ y < height, Painted .exact width height (finite s) .horizontal alignment x y} =
        (Finset.Ico start (start + width * s / 100) : Set ℕ) := by
      ext x
      simp only [Set.mem_ofPred_eq, Finset.coe_Ico, Set.mem_Ico]
      constructor
      · rintro ⟨hx, y, hy, hp⟩
        exact ((painted_iff hregion hfits le_rfl hx).mp hp).1
      · intro hx
        exact ⟨by omega, 0, hheight, (painted_iff hregion hfits le_rfl (by omega)).mpr ⟨hx, hheight⟩⟩
    rw [lineLength, hset, Set.ncard_coe_finset, Nat.card_Ico, lineSize]
    omega
  | vertical =>
    have hregion : fillRegion .exact width height (finite s) .vertical alignment =
        some (0, width, height * s / 100) := fillRegion_vertical.mpr ⟨fill_eq hh hs, rfl, rfl⟩
    have hset : {y | y < height ∧ ∃ x < width, Painted .exact width height (finite s) .vertical alignment x y} =
        (Finset.range (height * s / 100) : Set ℕ) := by
      ext y
      simp only [Set.mem_ofPred_eq, Finset.coe_range, Set.mem_Iio]
      constructor
      · rintro ⟨-, x, hx, hp⟩
        exact ((painted_iff hregion (by omega) (fill_le height hs) hx).mp hp).2
      · intro hy
        have := fill_le height hs
        exact ⟨by omega, 0, hwidth,
          (painted_iff hregion (by omega) this hwidth).mpr ⟨⟨Nat.zero_le _, by omega⟩, hy⟩⟩
    rw [lineLength, hset, Set.ncard_coe_finset, Finset.card_range, lineSize]

/-! ### Reported percentages -/

/-- A message whose percentage text is a numeral for `p`. -/
def Reports (parseFloat : Bytes → Option F32) (p : ℕ) (message : ParsedMessage) : Prop :=
  ∃ raw, parseFloat (percentRaw raw) = some (finite p) ∧ parseIncomingMessage parseFloat .exact raw = some message

/-- What `zsendvalue` sends for a percentage that prints as a numeral for `p` reports `p`, whatever the
    states are. -/
theorem sent_reports {t : Bytes} {p : ℕ} (states : List Bytes) (ht : PercentText t) (hlen : t.length ≤ 64)
    (hp : parseFloat t = some (finite p)) :
    ∃ message, acceptMessage parseFloat .exact (sentMessage t states) = some message ∧ Reports parseFloat p message := by
  have hparse : parseFloat (percentRaw (trim (recv (sentMessage t states)) whitespace)) = some (finite p) := by
    rw [percentRaw_recv ht hlen, hp]
  obtain ⟨message, hm⟩ : ∃ message,
      parseIncomingMessage parseFloat .exact (trim (recv (sentMessage t states)) whitespace) = some message := by
    rw [parseIncomingMessage, hparse]
    exact ⟨_, rfl⟩
  exact ⟨message, (acceptMessage_sent ht).trans hm, _, hparse, hm⟩

theorem Reports.percent {p : ℕ} {message : ParsedMessage} (h : Reports parseFloat p message) :
    message.percent = finite (shownPercent p : ℕ) := by
  obtain ⟨raw, hp, hm⟩ := h
  obtain ⟨number, hnumber, hpercent, -⟩ := parseIncomingMessage_eq_some.mp hm
  rw [hp] at hnumber
  rw [hpercent, ← Option.some.inj hnumber, scalePercent_natCast]

theorem Reports.lineLength {p : ℕ} {message : ParsedMessage} (h : Reports parseFloat p message) (hwidth : 0 < width)
    (hheight : 0 < height) (hw : width < 2 ^ 32) (hh : height < 2 ^ 32) :
    lineLength .exact width height message.percent orientation alignment =
      lineSize orientation width height * shownPercent p / 100 := by
  rw [h.percent, lineLength_eq hwidth hheight hw hh (shownPercent_le p)]

theorem share_lt {n s : ℕ} (hn : 0 < n) (hs : s < 100) : n * s / 100 < n :=
  (Nat.div_lt_iff_lt_mul (by norm_num)).mpr (Nat.mul_lt_mul_of_pos_left hs hn)

/-- The line for the percentage `p` is the floor of that share of the axis exactly when `p` is not 1,
    and a larger percentage never draws a shorter line unless the smaller one is 1. -/
theorem line_length_iff {p : ℕ} {message : ParsedMessage} (hwidth : 0 < width) (hheight : 0 < height)
    (hw : width < 2 ^ 32) (hh : height < 2 ^ 32) (hp : Reports parseFloat p message) :
    (lineLength .exact width height message.percent orientation alignment =
      lineSize orientation width height * min p 100 / 100 ↔ p ≠ 1) ∧
    ∀ q message', Reports parseFloat q message' → p ≤ q →
      (lineLength .exact width height message.percent orientation alignment ≤
        lineLength .exact width height message'.percent orientation alignment ↔ p ≠ 1 ∨ q = 1 ∨ 100 ≤ q) := by
  have hsize : 0 < lineSize orientation width height := by cases orientation <;> assumption
  generalize hn : lineSize orientation width height = n at hsize
  rw [hp.lineLength hwidth hheight hw hh, hn]
  constructor
  · constructor
    · rintro heq rfl
      exact absurd heq (ne_of_gt (by simpa [shownPercent] using share_lt hsize (by norm_num : 1 < 100)))
    · intro hp1
      rw [shownPercent, if_neg hp1]
  · intro q message' hq hle
    rw [hq.lineLength hwidth hheight hw hh, hn]
    constructor
    · intro hmono
      by_contra hno
      simp only [not_or, not_not, Nat.not_le] at hno
      obtain ⟨rfl, hq1, hq100⟩ := hno
      have hlt := share_lt hsize hq100
      simp only [shownPercent, if_true, if_neg hq1, Nat.min_eq_left hq100.le, Nat.mul_div_cancel n (by norm_num : 0 < 100)]
        at hmono
      omega
    · intro hcases
      refine Nat.div_le_div_right (Nat.mul_le_mul_left n ?_)
      unfold shownPercent
      split <;> split <;> omega

theorem line_length_half : ∃ message,
    acceptMessage parseNumeral .exact (sentMessage (ascii "50") [ascii "low"]) = some message ∧
      lineLength .exact 1920 3 message.percent .horizontal .center = 960 := by
  obtain ⟨message, hm, hp⟩ := @sent_reports parseNumeral (ascii "50") 50 [ascii "low"]
    (.of_all (by decide) (by decide)) (by decide) (by decide)
  exact ⟨message, hm, (line_length_iff (by decide) (by decide) (by decide) (by decide) hp).1.mpr (by decide)⟩

/-- One percent is drawn as the full line, two percent as 38 of 1920 columns. -/
theorem one_percent_full : ∃ one two,
    acceptMessage parseNumeral .exact (sentMessage (ascii "1") []) = some one ∧
    acceptMessage parseNumeral .exact (sentMessage (ascii "2") []) = some two ∧
    lineLength .exact 1920 3 one.percent .horizontal .left = 1920 ∧
    lineLength .exact 1920 3 two.percent .horizontal .left = 38 := by
  obtain ⟨one, hone, hp⟩ := @sent_reports parseNumeral (ascii "1") 1 [] (.of_all (by decide) (by decide)) (by decide)
    (by decide)
  obtain ⟨two, htwo, hq⟩ := @sent_reports parseNumeral (ascii "2") 2 [] (.of_all (by decide) (by decide)) (by decide)
    (by decide)
  exact ⟨one, two, hone, htwo, hp.lineLength (by decide) (by decide) (by decide) (by decide),
    hq.lineLength (by decide) (by decide) (by decide) (by decide)⟩

end Zlinestatus
