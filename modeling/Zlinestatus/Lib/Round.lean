import Mathlib.Data.Nat.Dist
import Mathlib.Data.Nat.Log

/-! Rounding a natural number to its leading bits: to the nearest number of that many significant bits,
    and to the even one of two that are equally near. -/

namespace Round
variable {p n m r : ℕ}

/-- The numbers of `p` significant bits. -/
def Representable (p m : ℕ) : Prop := ∃ k e, k < 2 ^ p ∧ m = k * 2 ^ e

/-- The weight of the last of the `p` leading bits. -/
def unit (p n : ℕ) : ℕ := 2 ^ (n.log2 + 1 - p)

/-- `r` is a nearest number of `p` significant bits; if another one is as near, its last bit is 0. -/
structure RoundsTo (p n r : ℕ) : Prop where
  representable : Representable p r
  closest : ∀ m, Representable p m → Nat.dist n r ≤ Nat.dist n m
  even : ∀ m, Representable p m → m ≠ r → Nat.dist n m = Nat.dist n r → r / unit p n % 2 = 0

/-- The bits cut off weigh less than half a unit, or half a unit behind an even bit. -/
def Down (p n : ℕ) : Prop :=
  2 * (n % unit p n) < unit p n ∨ 2 * (n % unit p n) = unit p n ∧ n / unit p n % 2 = 0

instance : Decidable (Down p n) := inferInstanceAs (Decidable (_ ∨ _))

/-! ### The two neighbours -/

/-- `n` with the bits behind the `p` leading ones cut off. -/
def floor (p n : ℕ) : ℕ := n / unit p n * unit p n

def ceil (p n : ℕ) : ℕ := floor p n + unit p n

theorem unit_pos (p n : ℕ) : 0 < unit p n := Nat.two_pow_pos _

theorem mod_unit_lt (p n : ℕ) : n % unit p n < unit p n := Nat.mod_lt n (unit_pos p n)

theorem floor_add_mod (p n : ℕ) : floor p n + n % unit p n = n := Nat.div_add_mod' n _

theorem floor_div (p n : ℕ) : floor p n / unit p n = n / unit p n := Nat.mul_div_cancel _ (unit_pos p n)

theorem ceil_div (p n : ℕ) : ceil p n / unit p n = n / unit p n + 1 := by
  rw [ceil, Nat.add_div_right _ (unit_pos p n), floor_div]

theorem div_unit_lt (p n : ℕ) : n / unit p n < 2 ^ p := by
  rw [Nat.div_lt_iff_lt_mul (unit_pos p n), unit, ← Nat.pow_add]
  exact Nat.lt_of_lt_of_le Nat.lt_log2_self (Nat.pow_le_pow_right (by decide) (by omega))

theorem representable_floor (p n : ℕ) : Representable p (floor p n) := ⟨n / unit p n, _, div_unit_lt p n, rfl⟩

theorem representable_ceil (hp : 0 < p) (n : ℕ) : Representable p (ceil p n) := by
  have hceil : ceil p n = (n / unit p n + 1) * unit p n := by rw [ceil, floor, Nat.succ_mul]
  rcases Nat.lt_or_ge (n / unit p n + 1) (2 ^ p) with hlt | hge
  · exact ⟨_, _, hlt, hceil⟩
  · -- The carry runs through all the leading bits.
    have hcarry : n / unit p n + 1 = 2 ^ p := Nat.le_antisymm (div_unit_lt p n) hge
    refine ⟨1, p + (n.log2 + 1 - p), Nat.one_lt_two_pow (by omega), ?_⟩
    rw [hceil, hcarry, unit, ← Nat.pow_add, Nat.one_mul]

/-- No number of `p` significant bits lies between the neighbours. -/
theorem Representable.le_floor_or_ceil_le (hp : 0 < p) (h : Representable p m) (n : ℕ) :
    m ≤ floor p n ∨ ceil p n ≤ m := by
  obtain ⟨k, e, hk, rfl⟩ := h
  rcases Nat.lt_or_ge e (n.log2 + 1 - p) with hlt | hge
  · -- The last bit of `m` weighs less than the unit, so `m` has fewer bits than `n`.
    have hn : n ≠ 0 := by
      rintro rfl
      simp only [Nat.log2_zero] at hlt
      omega
    have hbits : k * 2 ^ e ≤ 2 ^ (p - 1) * unit p n := by
      have hlt' : k * 2 ^ e < 2 ^ p * 2 ^ e := Nat.mul_lt_mul_of_pos_right hk (Nat.two_pow_pos e)
      have hle : 2 ^ p * 2 ^ e ≤ 2 ^ (p - 1) * unit p n := by
        rw [unit, ← Nat.pow_add, ← Nat.pow_add]
        exact Nat.pow_le_pow_right (by decide) (by omega)
      omega
    have hlead : 2 ^ (p - 1) ≤ n / unit p n := by
      rw [Nat.le_div_iff_mul_le (unit_pos p n), unit, ← Nat.pow_add]
      exact Nat.le_trans (Nat.pow_le_pow_right (by decide) (by omega)) (Nat.log2_self_le hn)
    exact Or.inl (Nat.le_trans hbits (Nat.mul_le_mul_right _ hlead))
  · obtain ⟨c, hc⟩ : unit p n ∣ k * 2 ^ e := Nat.dvd_mul_left_of_dvd (Nat.pow_dvd_pow 2 hge) k
    rw [hc, Nat.mul_comm]
    rcases Nat.lt_or_ge (n / unit p n) c with hlt | hge
    · right
      rw [ceil, floor, ← Nat.succ_mul]
      exact Nat.mul_le_mul_right _ hlt
    · exact Or.inl (Nat.mul_le_mul_right _ hge)

/-! ### The direction -/

/-- A number is rounded down exactly when the bits cut off say so. -/
theorem RoundsTo.le_iff (hp : 0 < p) (h : RoundsTo p n r) : r ≤ n ↔ Down p n := by
  have hsum := floor_add_mod p n
  have hmod := mod_unit_lt p n
  have hfloor := h.closest _ (representable_floor p n)
  have hceil := h.closest _ (representable_ceil hp n)
  have heven := h.even
  simp only [Nat.dist, ceil] at hfloor hceil heven
  rcases h.representable.le_floor_or_ceil_le hp n with hle | hge
  · refine iff_of_true (by omega) ?_
    obtain rfl : r = floor p n := by omega
    rcases Nat.lt_or_ge (2 * (n % unit p n)) (unit p n) with hlt | hhalf
    · exact Or.inl hlt
    · refine Or.inr ⟨by omega, ?_⟩
      rw [← floor_div]
      exact heven _ (representable_ceil hp n) (by unfold ceil; omega) (by unfold ceil; omega)
  · unfold ceil at hge
    refine iff_of_false (by omega) ?_
    rintro (hlt | ⟨hhalf, hzero⟩)
    · omega
    · obtain rfl : r = ceil p n := by unfold ceil; omega
      have := heven _ (representable_floor p n) (by unfold ceil; omega) (by unfold ceil; omega)
      rw [ceil_div] at this
      omega

/-- Rounding does not pass a power of two. -/
theorem RoundsTo.le_two_pow (hp : 0 < p) (h : RoundsTo p n r) {e : ℕ} (hn : n ≤ 2 ^ e) : r ≤ 2 ^ e := by
  have hclosest := h.closest _ ⟨1, e, Nat.one_lt_two_pow (by omega), (Nat.one_mul _).symm⟩
  simp only [Nat.dist] at hclosest
  omega

/-- The function that rounds to the nearest number of `p` significant bits, ties to even. -/
def nearest (p n : ℕ) : ℕ := if Down p n then floor p n else ceil p n

theorem nearest_roundsTo (hp : 0 < p) (n : ℕ) : RoundsTo p n (nearest p n) := by
  have hsum := floor_add_mod p n
  have hmod := mod_unit_lt p n
  unfold nearest
  split
  · next hdown =>
    have hhalf : 2 * (n % unit p n) ≤ unit p n := by
      rcases hdown with hlt | ⟨heq, -⟩
      · exact Nat.le_of_lt hlt
      · exact Nat.le_of_eq heq
    refine ⟨representable_floor p n, fun m hm => ?_, fun m hm hne hdist => ?_⟩
    · have := hm.le_floor_or_ceil_le hp n
      simp only [Nat.dist, ceil] at this ⊢
      omega
    · have := hm.le_floor_or_ceil_le hp n
      simp only [Nat.dist, ceil] at this hdist
      rcases hdown with hlt | ⟨-, hzero⟩
      · omega
      · rwa [floor_div]
  · next hup =>
    rw [Down, not_or] at hup
    refine ⟨representable_ceil hp n, fun m hm => ?_, fun m hm hne hdist => ?_⟩
    · have := hm.le_floor_or_ceil_le hp n
      simp only [Nat.dist, ceil] at this ⊢
      omega
    · have := hm.le_floor_or_ceil_le hp n
      rw [ceil_div]
      simp only [Nat.dist, ceil] at this hdist hne
      have hodd : 2 * (n % unit p n) = unit p n → ¬n / unit p n % 2 = 0 := fun heq hzero => hup.2 ⟨heq, hzero⟩
      omega

end Round
