import Mathlib.Data.Rat.Floor
import Zlinestatus.Model.Bytes

/-! The f32 values of the message and drawing code. A value is an extended rational; signed zeros are
    not told apart, since no operation below does. The rounding operations are a parameter
    (`F32Arith`), so that a result can be stated for every arithmetic or for the exact one. -/

namespace Zlinestatus

/-- An f32: not a number, an infinity, or a finite value. -/
inductive F32 where
  | nan
  | negInf
  | posInf
  | finite (q : ℚ)
  deriving DecidableEq

namespace F32

/-- `x <= y`, false when an operand is NaN -/
def le : F32 → F32 → Bool
  | nan, _ => false
  | _, nan => false
  | negInf, _ => true
  | _, posInf => true
  | posInf, _ => false
  | _, negInf => false
  | finite a, finite b => decide (a ≤ b)

/-- `@min`, which ignores a NaN operand -/
def min : F32 → F32 → F32
  | nan, y => y
  | x, nan => x
  | x, y => if x.le y then x else y

/-- `@max`, which ignores a NaN operand -/
def max : F32 → F32 → F32
  | nan, y => y
  | x, nan => x
  | x, y => if x.le y then y else x

def clamp (val lower upper : F32) : F32 := max lower (min val upper)

/-- `@intFromFloat` to u32: truncation, and `none` where the safety check panics. -/
def intFromFloat : F32 → Option ℕ
  | finite q => if -1 < q ∧ q < 2 ^ 32 then some ⌊q⌋.toNat else none
  | _ => none

/-- -1, 0 or 1 by the sign of the value; NaN has none. -/
def sign : F32 → ℤ
  | nan => 0
  | negInf => -1
  | posInf => 1
  | finite q => if q < 0 then -1 else if 0 < q then 1 else 0

def infinity (s : ℤ) : F32 := if s < 0 then negInf else if 0 < s then posInf else nan

end F32

/-- The operations on f32 that round: `@floatFromInt` from u32, `*` and `/`. -/
structure F32Arith where
  floatFromInt : ℕ → F32
  mul : F32 → F32 → F32
  div : F32 → F32 → F32

namespace F32Arith
open F32

/-- Arithmetic without rounding, with the IEEE rules for NaN and the infinities. -/
def exact : F32Arith where
  floatFromInt n := finite n
  mul
    | nan, _ => nan
    | _, nan => nan
    | finite a, finite b => finite (a * b)
    | x, y => infinity (x.sign * y.sign)
  div
    | nan, _ => nan
    | _, nan => nan
    | finite a, finite b => if b = 0 then infinity (finite a).sign else finite (a / b)
    | finite _, _ => finite 0
    | x, finite b => infinity (x.sign * (if b < 0 then -1 else 1))
    | _, _ => nan

@[simp] theorem exact_floatFromInt (n : ℕ) : exact.floatFromInt n = finite n := rfl

@[simp] theorem exact_mul (a b : ℚ) : exact.mul (finite a) (finite b) = finite (a * b) := rfl

theorem exact_div (a : ℚ) {b : ℚ} (h : b ≠ 0) : exact.div (finite a) (finite b) = finite (a / b) := by
  simp [exact, h]

end F32Arith

namespace F32

@[simp] theorem le_finite (a b : ℚ) : (finite a).le (finite b) = decide (a ≤ b) := rfl

@[simp] theorem min_finite (a b : ℚ) : (finite a).min (finite b) = finite (Min.min a b) := by
  simp only [min, le_finite, decide_eq_true_eq, min_def]
  split <;> rfl

@[simp] theorem max_finite (a b : ℚ) : (finite a).max (finite b) = finite (Max.max a b) := by
  simp only [max, le_finite, decide_eq_true_eq, max_def]
  split <;> rfl

theorem clamp_finite (q lo hi : ℚ) :
    clamp (finite q) (finite lo) (finite hi) = finite (Max.max lo (Min.min q hi)) := by
  simp [clamp]

/-- Whatever is clamped, NaN included, the result is a finite value between the bounds. -/
theorem clamp_mem (v : F32) {lo hi : ℚ} (h : lo ≤ hi) :
    ∃ q, clamp v (finite lo) (finite hi) = finite q ∧ lo ≤ q ∧ q ≤ hi := by
  cases v with
  | nan => exact ⟨hi, by simp [clamp, min, h], h, le_refl _⟩
  | negInf => exact ⟨lo, rfl, le_refl _, h⟩
  | posInf => exact ⟨hi, by simp [clamp, min, le, h], h, le_refl _⟩
  | finite q => exact ⟨_, clamp_finite q lo hi, le_max_left _ _, max_le h (min_le_right _ _)⟩

@[simp] theorem intFromFloat_eq_some {v : F32} {n : ℕ} :
    v.intFromFloat = some n ↔ ∃ q, v = finite q ∧ -1 < q ∧ q < 2 ^ 32 ∧ ⌊q⌋.toNat = n := by
  cases v with
  | finite q =>
    simp only [intFromFloat, finite.injEq, exists_eq_left', Option.ite_none_right_eq_some,
      Option.some.injEq, and_assoc]
  | _ => simp [intFromFloat]

theorem intFromFloat_natCast {n : ℕ} {q : ℚ} (h : q < 2 ^ 32) (hn : ⌊q⌋ = n) :
    (finite q).intFromFloat = some n := by
  have h0 : (0 : ℤ) ≤ ⌊q⌋ := hn ▸ Int.natCast_nonneg n
  refine intFromFloat_eq_some.mpr ⟨q, rfl, ?_, h, by simp [hn]⟩
  linarith [Int.floor_nonneg.mp h0]

end F32

/-- `std.fmt.parseFloat` on a plain decimal numeral without sign, point or exponent. -/
def parseNumeral (s : Bytes) : Option F32 :=
  if s ≠ [] ∧ s.all (fun c => 0x30 ≤ c ∧ c ≤ 0x39) then
    some (.finite (s.foldl (fun n c => n * 10 + (c.toNat - 0x30)) 0 : ℕ))
  else none

end Zlinestatus
