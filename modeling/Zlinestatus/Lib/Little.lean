import Mathlib.Data.UInt

/-! Natural numbers as a fixed number of bytes, the least significant one first. -/

namespace Little
variable {width n : ℕ}

def bytes : ℕ → ℕ → List UInt8
  | 0, _ => []
  | width + 1, n => UInt8.ofNat n :: bytes width (n / 256)

def value : List UInt8 → ℕ
  | [] => 0
  | b :: bytes => b.toNat + 256 * value bytes

@[simp] theorem length_bytes (width n : ℕ) : (bytes width n).length = width := by
  induction width generalizing n with
  | zero => rfl
  | succ width ih => rw [bytes, List.length_cons, ih]

theorem value_bytes (h : n < 256 ^ width) : value (bytes width n) = n := by
  induction width generalizing n with
  | zero => exact (Nat.lt_one_iff.mp h).symm
  | succ width ih =>
    have hrest : n / 256 < 256 ^ width := by
      rw [Nat.div_lt_iff_lt_mul (by decide), ← Nat.pow_succ]
      exact h
    rw [bytes, value, ih hrest, UInt8.toNat_ofNat']
    exact Nat.mod_add_div n 256

end Little
