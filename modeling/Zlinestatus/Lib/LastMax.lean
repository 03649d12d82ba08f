import Mathlib.Data.List.Induction
import Mathlib.Data.List.MinMax

/-! A loop that keeps the best element so far and lets a later one of the same rank win: it ends on the
    last of the greatest eligible elements. -/

namespace LastMax
variable {ρ α : Type} {eligible : ρ → Prop} [DecidablePred eligible] {rank : ρ → ℕ} {value : ρ → α}

/-- One round: an eligible element of at least the best rank replaces the best value. -/
def step (eligible : ρ → Prop) [DecidablePred eligible] (rank : ρ → ℕ) (value : ρ → α) (acc : α × ℕ) (r : ρ) :
    α × ℕ :=
  if eligible r ∧ acc.2 ≤ rank r then (value r, rank r) else acc

/-- `r`, between `pre` and `post`, is the last of the greatest eligible elements. -/
structure IsLast (eligible : ρ → Prop) (rank : ρ → ℕ) (pre : List ρ) (r : ρ) (post : List ρ) : Prop where
  chosen : eligible r
  before : ∀ q ∈ pre, eligible q → rank q ≤ rank r
  after : ∀ q ∈ post, eligible q → rank q < rank r

omit [DecidablePred eligible] in
/-- An eligible element that is not the last greatest is beaten by one of a greater rank, or by one of
    the same rank behind it. -/
theorem not_isLast_iff {pre post : List ρ} {r : ρ} (hr : eligible r) : ¬IsLast eligible rank pre r post ↔
    (∃ q ∈ pre, eligible q ∧ rank r < rank q) ∨ ∃ q ∈ post, eligible q ∧ rank r ≤ rank q := by
  constructor
  · intro h
    by_contra hno
    simp only [not_or, not_exists, not_and, Nat.not_lt, Nat.not_le] at hno
    exact h ⟨hr, hno.1, hno.2⟩
  · rintro (⟨q, hq, he, hlt⟩ | ⟨q, hq, he, hle⟩) h
    · exact absurd (h.before q hq he) (by omega)
    · exact absurd (h.after q hq he) (by omega)

omit [DecidablePred eligible] in
/-- Elements that others of the same rank stand in for leave the last greatest where it is. -/
theorem IsLast.of_ranks {pre pre' post post' : List ρ} {r : ρ} (h : IsLast eligible rank pre r post)
    (hpre : ∀ q ∈ pre', eligible q → ∃ q₀ ∈ pre, eligible q₀ ∧ rank q₀ = rank q)
    (hpost : ∀ q ∈ post', eligible q → ∃ q₀ ∈ post, eligible q₀ ∧ rank q₀ = rank q) :
    IsLast eligible rank pre' r post' where
  chosen := h.chosen
  before q hq he := by
    obtain ⟨q₀, hq₀, he₀, heq⟩ := hpre q hq he
    exact heq ▸ h.before q₀ hq₀ he₀
  after q hq he := by
    obtain ⟨q₀, hq₀, he₀, heq⟩ := hpost q hq he
    exact heq ▸ h.after q₀ hq₀ he₀

/-- The invariant over the elements seen: the accumulator holds the last greatest of them, or still the
    start value because every eligible one ranks below it. -/
theorem foldl_step (eligible : ρ → Prop) [DecidablePred eligible] (rank : ρ → ℕ) (value : ρ → α) (acc : α × ℕ)
    (l : List ρ) :
    (∃ pre r post, l = pre ++ r :: post ∧ IsLast eligible rank pre r post ∧ acc.2 ≤ rank r ∧
      l.foldl (step eligible rank value) acc = (value r, rank r)) ∨
    ((∀ q ∈ l, eligible q → rank q < acc.2) ∧ l.foldl (step eligible rank value) acc = acc) := by
  induction l using List.reverseRecOn with
  | nil => exact Or.inr ⟨by simp, rfl⟩
  | append_singleton l x ih =>
    rw [List.foldl_append, List.foldl_cons, List.foldl_nil]
    rcases ih with ⟨pre, r, post, rfl, hlast, hle, heq⟩ | ⟨hlow, heq⟩
    · rw [heq, step]
      split
      · next hx =>
        refine Or.inl ⟨pre ++ r :: post, x, [], rfl, ⟨hx.1, fun q hq he => ?_, by simp⟩, Nat.le_trans hle hx.2, rfl⟩
        rcases List.mem_append.mp hq with hq | hq
        · exact Nat.le_trans (hlast.before q hq he) hx.2
        · rcases List.mem_cons.mp hq with rfl | hq
          · exact hx.2
          · exact Nat.le_trans (Nat.le_of_lt (hlast.after q hq he)) hx.2
      · next hx =>
        refine Or.inl ⟨pre, r, post ++ [x], by simp, ⟨hlast.chosen, hlast.before, fun q hq he => ?_⟩, hle, rfl⟩
        rcases List.mem_append.mp hq with hq | hq
        · exact hlast.after q hq he
        · rw [List.mem_singleton.mp hq] at he ⊢
          exact Nat.lt_of_not_le fun hge => hx ⟨he, hge⟩
    · rw [heq, step]
      split
      · next hx =>
        exact Or.inl ⟨l, x, [], rfl, ⟨hx.1, fun q hq he => Nat.le_of_lt (Nat.lt_of_lt_of_le (hlow q hq he) hx.2), by simp⟩,
          hx.2, rfl⟩
      · next hx =>
        refine Or.inr ⟨fun q hq he => ?_, rfl⟩
        rcases List.mem_append.mp hq with hq | hq
        · exact hlow q hq he
        · rw [List.mem_singleton.mp hq] at he ⊢
          exact Nat.lt_of_not_le fun hge => hx ⟨he, hge⟩

theorem foldl_of_isLast {acc : α × ℕ} {pre post : List ρ} {r : ρ} (h : IsLast eligible rank pre r post)
    (hacc : acc.2 ≤ rank r) :
    (pre ++ r :: post).foldl (step eligible rank value) acc = (value r, rank r) := by
  have hpre : (pre.foldl (step eligible rank value) acc).2 ≤ rank r := by
    rcases foldl_step eligible rank value acc pre with ⟨pre', q, post', rfl, hq, -, heq⟩ | ⟨-, heq⟩
    · rw [heq]
      exact h.before q (by simp) hq.chosen
    · rw [heq]
      exact hacc
  have hstep : step eligible rank value (pre.foldl (step eligible rank value) acc) r = (value r, rank r) :=
    if_pos ⟨h.chosen, hpre⟩
  rw [List.foldl_append, List.foldl_cons, hstep]
  rcases foldl_step eligible rank value (value r, rank r) post with ⟨pre', q, post', rfl, hq, hle, -⟩ | ⟨-, heq⟩
  · exact absurd (h.after q (by simp) hq.chosen) (by simpa using hle)
  · exact heq

/-! ### The greatest element -/

/-- The greatest element of a list, the last of those of its rank. -/
def lastMax (rank : ρ → ℕ) (l : List ρ) : Option ρ := l.reverse.argmax rank

theorem lastMax_eq_none {l : List ρ} : lastMax rank l = none ↔ l = [] := by
  rw [lastMax, List.argmax_eq_none, List.reverse_eq_nil_iff]

theorem lastMax_append_singleton (rank : ρ → ℕ) (l : List ρ) (x : ρ) : lastMax rank (l ++ [x]) =
    match lastMax rank l with
    | none => some x
    | some r => if rank x < rank r then some r else some x := by
  rw [lastMax, List.reverse_append, List.reverse_singleton, List.singleton_append, List.argmax_cons, lastMax]
  cases l.reverse.argmax rank <;> rfl

/-- From the bottom rank, the loop computes the greatest of the eligible elements. -/
theorem foldl_eq_lastMax (eligible : ρ → Prop) [DecidablePred eligible] (rank : ρ → ℕ) (value : ρ → α) (start : α)
    (l : List ρ) : l.foldl (step eligible rank value) (start, 0) =
      (lastMax rank (l.filter eligible)).elim (start, 0) fun r => (value r, rank r) := by
  induction l using List.reverseRecOn with
  | nil => rfl
  | append_singleton l x ih =>
    rw [List.foldl_append, List.foldl_cons, List.foldl_nil, ih, List.filter_append, step]
    by_cases hx : eligible x
    · rw [List.filter_cons_of_pos (by simpa using hx), List.filter_nil, lastMax_append_singleton]
      cases lastMax rank (l.filter eligible) with
      | none => simp [hx]
      | some r =>
        by_cases hlt : rank x < rank r
        · simp [hlt, Nat.not_le.mpr hlt]
        · simp [hx, hlt, Nat.not_lt.mp hlt]
    · rw [List.filter_cons_of_neg (by simpa using hx), List.filter_nil, List.append_nil, if_neg fun h => hx h.1]

/-- The greatest of the eligible elements of a list is the last greatest eligible one. -/
theorem lastMax_eq_some {l : List ρ} {r : ρ} : lastMax rank (l.filter eligible) = some r ↔
    ∃ pre post, l = pre ++ r :: post ∧ IsLast eligible rank pre r post := by
  have hfold := foldl_eq_lastMax eligible rank some none l
  constructor
  · intro h
    rw [h] at hfold
    rcases foldl_step eligible rank some (none, 0) l with ⟨pre, q, post, hl, hlast, -, heq⟩ | ⟨-, heq⟩
    · rw [heq] at hfold
      cases hfold
      exact ⟨pre, post, hl, hlast⟩
    · rw [heq] at hfold
      cases hfold
  · rintro ⟨pre, post, rfl, hlast⟩
    rw [foldl_of_isLast hlast (Nat.zero_le _)] at hfold
    cases hmax : lastMax rank ((pre ++ r :: post).filter eligible) with
    | none =>
      rw [hmax] at hfold
      cases hfold
    | some q =>
      rw [hmax] at hfold
      exact (Prod.mk.inj hfold).1.symm

end LastMax
