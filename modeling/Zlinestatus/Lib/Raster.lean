import Mathlib.Data.List.Basic
import Mathlib.Tactic.Ring

/-! Storing one value into a rectangle of a row-major grid through checked stores. -/

namespace Raster
variable {α : Type}

/-- A store that checks its index. -/
def store (l : List α) (i : ℕ) (a : α) : Option (List α) := if i < l.length then some (l.set i a) else none

/-- Two nested loops: in each of the first `rows` rows of a grid `width` wide, `columns` cells from column
    `start` on. -/
def fillRect (l : List α) (width rows start columns : ℕ) (a : α) : Option (List α) :=
  (List.range rows).foldlM
    (fun l y =>
      let rowStart := y * width
      (List.range columns).foldlM (fun l x => store l (rowStart + (start + x)) a) l)
    l

/-! ### One row -/

theorem store_eq_some {l l' : List α} {i : ℕ} {a : α} : store l i a = some l' ↔ i < l.length ∧ l' = l.set i a := by
  unfold store
  split <;> simp_all [eq_comm]

/-- What the stores of `a` at the indices `is`, in turn, leave of `l`. -/
structure Stored (l l' : List α) (is : ℕ → Prop) (a : α) : Prop where
  inside : ∀ i, is i → i < l.length
  length : l'.length = l.length
  hit : ∀ i, is i → l'[i]? = some a
  miss : ∀ i, ¬is i → l'[i]? = l[i]?

theorem Stored.nil (l : List α) {is : ℕ → Prop} (a : α) (h : ∀ i, ¬is i) : Stored l l is a where
  inside i hi := absurd hi (h i)
  length := rfl
  hit i hi := absurd hi (h i)
  miss _ _ := rfl

theorem Stored.trans {l l' l'' : List α} {is js : ℕ → Prop} {a : α} (h₁ : Stored l l' is a)
    (h₂ : Stored l' l'' js a) : Stored l l'' (fun i => is i ∨ js i) a where
  inside i hi := by
    rcases hi with hi | hi
    · exact h₁.inside i hi
    · exact h₁.length ▸ h₂.inside i hi
  length := h₂.length.trans h₁.length
  hit i hi := by
    by_cases hj : js i
    · exact h₂.hit i hj
    · rw [h₂.miss i hj]
      exact h₁.hit i (hi.resolve_right hj)
  miss i hi := by
    rw [not_or] at hi
    rw [h₂.miss i hi.2, h₁.miss i hi.1]

theorem Stored.congr {l l' : List α} {is js : ℕ → Prop} {a : α} (h : Stored l l' is a) (heq : ∀ i, is i ↔ js i) :
    Stored l l' js a := by
  have : is = js := funext fun i => propext (heq i)
  exact this ▸ h

theorem stored_of_store {l l' : List α} {i : ℕ} {a : α} (h : store l i a = some l') : Stored l l' (· = i) a := by
  obtain ⟨hi, rfl⟩ := store_eq_some.mp h
  refine ⟨fun j hj => hj ▸ hi, List.length_set, fun j hj => ?_, fun j hj => ?_⟩
  · rw [hj, List.getElem?_set_self hi]
  · rw [List.getElem?_set_ne (Ne.symm hj)]

/-! ### Loops of stores

A loop whose rounds store `a` at known indices stores it at all of them; it runs to its end exactly when
no index is outside. -/

section
variable {body : List α → ℕ → Option (List α)} {at' : ℕ → ℕ → Prop} {a : α}

theorem stored_of_loop (hbody : ∀ l l' k, body l k = some l' → Stored l l' (at' k) a) {n : ℕ} {l l' : List α}
    (h : (List.range n).foldlM body l = some l') : Stored l l' (fun i => ∃ k < n, at' k i) a := by
  induction n generalizing l' with
  | zero =>
    simp only [List.range_zero, List.foldlM_nil, Option.pure_def, Option.some.injEq] at h
    exact h ▸ Stored.nil l a (by simp)
  | succ n ih =>
    rw [List.range_succ, List.foldlM_append] at h
    obtain ⟨mid, hmid, hlast⟩ := Option.bind_eq_some_iff.mp h
    rw [List.foldlM_cons] at hlast
    obtain ⟨last, hstep, hnil⟩ := Option.bind_eq_some_iff.mp hlast
    simp only [List.foldlM_nil, Option.pure_def, Option.some.injEq] at hnil
    refine ((ih hmid).trans (hnil ▸ hbody mid last n hstep)).congr fun i => ?_
    constructor
    · rintro (⟨k, hk, hi⟩ | hi)
      · exact ⟨k, by omega, hi⟩
      · exact ⟨n, by omega, hi⟩
    · rintro ⟨k, hk, hi⟩
      by_cases hkn : k = n
      · exact Or.inr (hkn ▸ hi)
      · exact Or.inl ⟨k, by omega, hi⟩

theorem loop_isSome {n m : ℕ} (hbody : ∀ l k, k < n → l.length = m → ∃ l', body l k = some l' ∧ l'.length = m)
    {l : List α} (hl : l.length = m) : ∃ l', (List.range n).foldlM body l = some l' ∧ l'.length = m := by
  induction n with
  | zero => exact ⟨l, rfl, hl⟩
  | succ n ih =>
    obtain ⟨mid, hmid, hlen⟩ := ih fun l k hk => hbody l k (by omega)
    obtain ⟨last, hstep, hlast⟩ := hbody mid n (by omega) hlen
    refine ⟨last, ?_, hlast⟩
    rw [List.range_succ, List.foldlM_append, hmid]
    simp [hstep]

end

/-! ### The rectangle -/

theorem fillRect_stored {l l' : List α} {width rows start columns : ℕ} {a : α}
    (h : fillRect l width rows start columns a = some l') :
    Stored l l' (fun i => ∃ y < rows, ∃ x < columns, i = y * width + (start + x)) a :=
  stored_of_loop (fun _ _ _ hrow => stored_of_loop (fun _ _ _ hx => stored_of_store hx) hrow) h

theorem fillRect_isSome {l : List α} {width rows start columns : ℕ} (a : α)
    (h : ∀ y < rows, ∀ x < columns, y * width + (start + x) < l.length) :
    ∃ l', fillRect l width rows start columns a = some l' := by
  have row : ∀ l₁ y, y < rows → l₁.length = l.length →
      ∃ l', (List.range columns).foldlM (fun l x => store l (y * width + (start + x)) a) l₁ = some l' ∧
        l'.length = l.length :=
    fun l₁ y hy hl₁ => loop_isSome (fun l₂ x hx hl₂ =>
      ⟨_, store_eq_some.mpr ⟨hl₂ ▸ h y hy x hx, rfl⟩, by simpa using hl₂⟩) hl₁
  obtain ⟨l', hl', -⟩ := loop_isSome row rfl
  exact ⟨l', hl'⟩

theorem cell_inj {width x x' y y' : ℕ} (hx : x < width) (hx' : x' < width)
    (h : y * width + x = y' * width + x') : x = x' ∧ y = y' := by
  have above : ∀ {a b c d : ℕ}, c < width → a < b → a * width + c ≠ b * width + d := by
    intro a b c d hc hab
    have := Nat.mul_le_mul_right width (Nat.succ_le_of_lt hab)
    rw [Nat.succ_mul] at this
    omega
  rcases Nat.lt_trichotomy y y' with hlt | rfl | hgt
  · exact absurd h (above hx hlt)
  · exact ⟨by omega, rfl⟩
  · exact absurd h.symm (above hx' hgt)

theorem cell_lt {width height x y : ℕ} (hx : x < width) (hy : y < height) : y * width + x < width * height := by
  have := Nat.mul_le_mul_right width (Nat.succ_le_of_lt hy)
  rw [Nat.succ_mul, Nat.mul_comm height] at this
  omega

theorem fillRect_columns_le {l l' : List α} {width height start columns : ℕ} {a : α}
    (hl : l.length = width * height) (hheight : 0 < height) (hstart : start ≤ width)
    (h : fillRect l width height start columns a = some l') : start + columns ≤ width := by
  rcases Nat.eq_zero_or_pos columns with rfl | hcolumns
  · exact hstart
  · have hlast := (fillRect_stored h).inside _ ⟨height - 1, by omega, columns - 1, by omega, rfl⟩
    obtain ⟨h', rfl⟩ : ∃ h', height = h' + 1 := ⟨height - 1, by omega⟩
    rw [hl, Nat.mul_succ, Nat.mul_comm width] at hlast
    simp only [Nat.add_sub_cancel] at hlast
    omega

theorem fillRect_rows_le {l l' : List α} {width height rows : ℕ} {a : α} (hl : l.length = width * height)
    (hwidth : 0 < width) (h : fillRect l width rows 0 width a = some l') : rows ≤ height := by
  rcases Nat.eq_zero_or_pos rows with rfl | hrows
  · exact Nat.zero_le _
  · have hlast := (fillRect_stored h).inside _ ⟨rows - 1, by omega, width - 1, by omega, rfl⟩
    obtain ⟨r, rfl⟩ : ∃ r, rows = r + 1 := ⟨rows - 1, by omega⟩
    rw [hl, Nat.add_sub_cancel] at hlast
    refine Nat.le_of_not_lt fun hlt => ?_
    have := Nat.mul_le_mul_right width (Nat.lt_succ_iff.mp hlt)
    rw [Nat.mul_comm width] at hlast
    omega

theorem fillRect_isSome_of_fits {l : List α} {width height rows start columns : ℕ} (a : α)
    (hl : l.length = width * height) (hcolumns : start + columns ≤ width) (hrows : rows ≤ height) :
    ∃ l', fillRect l width rows start columns a = some l' :=
  fillRect_isSome a fun _ hy _ hx => hl ▸ cell_lt (by omega) (by omega)

/-- The cells of the rectangle hold the value, every other cell what it held. -/
theorem fillRect_cell {l l' : List α} {width rows start columns : ℕ} {a : α}
    (h : fillRect l width rows start columns a = some l') (hcolumns : start + columns ≤ width) {x y : ℕ}
    (hx : x < width) : l'[y * width + x]? =
      if (start ≤ x ∧ x < start + columns) ∧ y < rows then some a else l[y * width + x]? := by
  split
  · next hin => exact (fillRect_stored h).hit _ ⟨y, hin.2, x - start, by omega, by rw [show start + (x - start) = x by omega]⟩
  · next hout =>
    refine (fillRect_stored h).miss _ ?_
    rintro ⟨y', hy', x', hx', heq⟩
    obtain ⟨rfl, rfl⟩ := cell_inj hx (by omega) heq
    exact hout ⟨⟨by omega, by omega⟩, hy'⟩

end Raster
