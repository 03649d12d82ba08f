import Mathlib.Data.Finset.Card
import Zlinestatus.Lib.LastMax
import Zlinestatus.Model.Style

/-! The rule `pickColorForStates` picks: the last of the matching rules with the longest state list. -/

namespace Zlinestatus
open LastMax

/-- The names of a state list, ignoring letter case. -/
def lowerNames (states : List Bytes) : Finset Bytes := (states.map (·.map toLower)).toFinset

/-- The rule takes part in the choice: it requires some state, and all it requires are active. -/
def Eligible (activeStates : List Bytes) (rule : ColorRule) : Prop :=
  rule.states ≠ [] ∧ ruleMatches rule activeStates = true

instance (activeStates : List Bytes) : DecidablePred (Eligible activeStates) := fun _ =>
  inferInstanceAs (Decidable (_ ∧ _))

abbrev specificity (rule : ColorRule) : ℕ := rule.states.length

/-- The colour picked is the colour of the rule between `pre` and `post`, whatever that colour is. -/
def Picks (style : StyleConfig) (activeStates : List Bytes) (pre : List ColorRule) (rule : ColorRule)
    (post : List ColorRule) : Prop :=
  style.rules = pre ++ rule :: post ∧ ∀ color,
    pickColorForStates { style with rules := pre ++ { rule with color := color } :: post } activeStates = color

/-! ### Matching -/

theorem mem_lowerNames {states : List Bytes} {n : Bytes} :
    n ∈ lowerNames states ↔ ∃ s ∈ states, s.map toLower = n := by
  simp [lowerNames]

theorem ruleMatches_iff {rule : ColorRule} {activeStates : List Bytes} :
    ruleMatches rule activeStates = true ↔ lowerNames rule.states ⊆ lowerNames activeStates := by
  simp only [ruleMatches, List.all_eq_true, List.any_eq_true, eqlIgnoreCase_iff, Finset.subset_iff, mem_lowerNames]
  constructor
  · rintro h _ ⟨required, hr, rfl⟩
    obtain ⟨active, ha, heq⟩ := h required hr
    exact ⟨active, ha, heq.symm⟩
  · intro h required hr
    obtain ⟨active, ha, heq⟩ := h ⟨required, hr, rfl⟩
    exact ⟨active, ha, heq.symm⟩

/-! ### The loop -/

theorem pickStep_eq (activeStates : List Bytes) :
    pickStep activeStates = LastMax.step (Eligible activeStates) specificity (·.color) := by
  funext acc rule
  simp only [pickStep, LastMax.step, Eligible, List.length_eq_zero_iff]
  by_cases hnil : rule.states = [] <;> simp [hnil]

theorem pickColorForStates_eq (style : StyleConfig) (activeStates : List Bytes) :
    pickColorForStates style activeStates =
      (style.rules.foldl (LastMax.step (Eligible activeStates) specificity (·.color)) (style.defaultColor, 0)).1 := by
  rw [pickColorForStates, pickStep_eq]

/-- The picked colour is that of the last longest matching rule, or the default colour when no rule
    matches. -/
theorem pickColorForStates_cases (style : StyleConfig) (activeStates : List Bytes) :
    (∃ pre rule post, style.rules = pre ++ rule :: post ∧
      IsLast (Eligible activeStates) specificity pre rule post ∧
      pickColorForStates style activeStates = rule.color) ∨
    ((∀ rule ∈ style.rules, ¬Eligible activeStates rule) ∧
      pickColorForStates style activeStates = style.defaultColor) := by
  rw [pickColorForStates_eq]
  rcases foldl_step (Eligible activeStates) specificity (·.color) (style.defaultColor, 0)
    style.rules with ⟨pre, rule, post, hrules, hlast, -, heq⟩ | ⟨hnone, heq⟩
  · exact Or.inl ⟨pre, rule, post, hrules, hlast, by rw [heq]⟩
  · exact Or.inr ⟨fun rule hr he => absurd (hnone rule hr he) (by simp), by rw [heq]⟩

theorem pickColorForStates_of_isLast {style : StyleConfig} {activeStates : List Bytes} {pre post : List ColorRule}
    {rule : ColorRule} (hrules : style.rules = pre ++ rule :: post)
    (h : IsLast (Eligible activeStates) specificity pre rule post) :
    pickColorForStates style activeStates = rule.color := by
  rw [pickColorForStates_eq, hrules, foldl_of_isLast h (by simp)]

theorem isLast_recolor {activeStates : List Bytes} {pre post : List ColorRule} {rule : ColorRule} {color : Pixel} :
    IsLast (Eligible activeStates) specificity pre { rule with color := color } post ↔
      IsLast (Eligible activeStates) specificity pre rule post :=
  ⟨fun h => ⟨h.chosen, h.before, h.after⟩, fun h => ⟨h.chosen, h.before, h.after⟩⟩

/-- Recolouring one rule leaves an equally eligible rule of the same specificity in its place. -/
theorem recolor_standIn {activeStates : List Bytes} {l₁ l₂ : List ColorRule} {rule : ColorRule} {c₁ c₂ : Pixel} :
    ∀ q ∈ l₁ ++ { rule with color := c₂ } :: l₂, Eligible activeStates q →
      ∃ q₀ ∈ l₁ ++ { rule with color := c₁ } :: l₂, Eligible activeStates q₀ ∧ specificity q₀ = specificity q := by
  intro q hq he
  rcases List.mem_append.mp hq with hq | hq
  · exact ⟨q, by simp [hq], he, rfl⟩
  · rcases List.mem_cons.mp hq with rfl | hq
    · exact ⟨{ rule with color := c₁ }, by simp, he, rfl⟩
    · exact ⟨q, by simp [hq], he, rfl⟩

/-- The rule picked is the last of the longest matching rules: a rule elsewhere would give its own
    colour to every recolouring of this one. -/
theorem picks_iff {style : StyleConfig} {activeStates : List Bytes} {pre post : List ColorRule} {rule : ColorRule}
    (hrules : style.rules = pre ++ rule :: post) :
    Picks style activeStates pre rule post ↔ IsLast (Eligible activeStates) specificity pre rule post := by
  constructor
  · rintro ⟨-, hcolor⟩
    by_contra hnot
    have c₁ := hcolor transparent
    have c₂ := hcolor opaqueWhite
    suffices same : pickColorForStates { style with rules := pre ++ { rule with color := transparent } :: post }
        activeStates =
        pickColorForStates { style with rules := pre ++ { rule with color := opaqueWhite } :: post } activeStates by
      rw [c₁, c₂] at same
      exact absurd same (by decide)
    rcases pickColorForStates_cases { style with rules := pre ++ { rule with color := transparent } :: post }
      activeStates with ⟨pre', r, post', hsplit, hlast, heq⟩ | ⟨hnone, heq⟩
    · rw [heq]
      -- The rule picked stands behind or before the recoloured one; it is not that one.
      rcases List.append_eq_append_iff.mp hsplit with ⟨mid, rfl, hmid⟩ | ⟨mid, rfl, hmid⟩
      · cases mid with
        | nil =>
          obtain ⟨rfl, rfl⟩ := List.cons.inj (by simpa using hmid)
          exact absurd (isLast_recolor.mp (by simpa using hlast)) hnot
        | cons x mid =>
          obtain ⟨rfl, rfl⟩ := List.cons.inj hmid
          have hlast' : IsLast (Eligible activeStates) specificity
              (pre ++ { rule with color := opaqueWhite } :: mid) r post' :=
            hlast.of_ranks recolor_standIn fun q hq he => ⟨q, hq, he, rfl⟩
          exact (pickColorForStates_of_isLast (by simp) hlast').symm
      · cases mid with
        | nil =>
          obtain ⟨rfl, rfl⟩ := List.cons.inj (by simpa using hmid)
          exact absurd (isLast_recolor.mp (by simpa using hlast)) hnot
        | cons x mid =>
          obtain ⟨rfl, rfl⟩ := List.cons.inj hmid
          have hlast' : IsLast (Eligible activeStates) specificity pre' r
              (mid ++ { rule with color := opaqueWhite } :: post) :=
            hlast.of_ranks (fun q hq he => ⟨q, hq, he, rfl⟩) recolor_standIn
          exact (pickColorForStates_of_isLast (by simp) hlast').symm
    · rw [heq]
      rcases pickColorForStates_cases { style with rules := pre ++ { rule with color := opaqueWhite } :: post }
        activeStates with ⟨pre', r, post', hsplit, hlast, -⟩ | ⟨-, heq'⟩
      · have hr : r ∈ pre ++ { rule with color := opaqueWhite } :: post := by
          change pre ++ { rule with color := opaqueWhite } :: post = pre' ++ r :: post' at hsplit
          rw [hsplit]
          simp
        obtain ⟨q, hq, he, -⟩ : ∃ q ∈ pre ++ { rule with color := transparent } :: post, Eligible activeStates q ∧
            specificity q = specificity r := recolor_standIn r hr hlast.chosen
        exact absurd he (hnone q hq)
      · rw [heq']
  · intro h
    refine ⟨hrules, fun color => ?_⟩
    exact pickColorForStates_of_isLast rfl (isLast_recolor.mpr h)

theorem exists_picks {style : StyleConfig} {activeStates : List Bytes} {rule : ColorRule} (hr : rule ∈ style.rules)
    (he : Eligible activeStates rule) :
    ∃ pre picked post, Picks style activeStates pre picked post ∧ specificity rule ≤ specificity picked := by
  rcases pickColorForStates_cases style activeStates with ⟨pre, picked, post, hrules, hlast, -⟩ | ⟨hnone, -⟩
  · refine ⟨pre, picked, post, (picks_iff hrules).mpr hlast, ?_⟩
    rw [hrules] at hr
    rcases List.mem_append.mp hr with hr | hr
    · exact hlast.before rule hr he
    · rcases List.mem_cons.mp hr with rfl | hr
      · exact Nat.le_refl _
      · exact Nat.le_of_lt (hlast.after rule hr he)
  · exact absurd he (hnone rule hr)

end Zlinestatus
