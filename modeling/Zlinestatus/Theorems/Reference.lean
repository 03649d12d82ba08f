import Zlinestatus.Theorems.Pick

/-! What `pickColorForStates` is for: the colour of the most specific rule that matches, the later one
    of two equally specific rules. -/

namespace Zlinestatus
open LastMax

/-- Every state the rule names, and it names one, equals an active state ignoring letter case. -/
def Matches (activeStates : List Bytes) (rule : ColorRule) : Prop :=
  rule.states ≠ [] ∧ ∀ required ∈ rule.states, ∃ active ∈ activeStates, required.map toLower = active.map toLower

instance (activeStates : List Bytes) : DecidablePred (Matches activeStates) := fun _ =>
  inferInstanceAs (Decidable (_ ∧ _))

/-- The matching rule with the longest state list, the last one in the file on a tie. -/
def referenceRule (style : StyleConfig) (activeStates : List Bytes) : Option ColorRule :=
  lastMax specificity (style.rules.filter (Matches activeStates))

def referenceColor (style : StyleConfig) (activeStates : List Bytes) : Pixel :=
  match referenceRule style activeStates with
  | some rule => rule.color
  | none => style.defaultColor

theorem eligible_iff_matches {activeStates : List Bytes} {rule : ColorRule} :
    Eligible activeStates rule ↔ Matches activeStates rule := by
  simp only [Eligible, Matches, ruleMatches, List.all_eq_true, List.any_eq_true, eqlIgnoreCase_iff]

theorem pickColorForStates_eq_reference (style : StyleConfig) (activeStates : List Bytes) :
    pickColorForStates style activeStates = referenceColor style activeStates := by
  have hfilter : style.rules.filter (Eligible activeStates) = style.rules.filter (Matches activeStates) :=
    List.filter_congr fun rule _ => decide_eq_decide.mpr eligible_iff_matches
  rw [pickColorForStates_eq, foldl_eq_lastMax, hfilter, referenceColor, referenceRule]
  cases lastMax specificity (style.rules.filter (Matches activeStates)) <;> rfl

/-- Only the names of the active states count, ignoring letter case. -/
theorem matches_congr {activeStates activeStates' : List Bytes} (h : lowerNames activeStates = lowerNames activeStates') :
    Matches activeStates = Matches activeStates' := by
  funext rule
  have hmatch := (@ruleMatches_iff rule activeStates).trans (h ▸ (@ruleMatches_iff rule activeStates').symm)
  refine propext (eligible_iff_matches.symm.trans ?_ |>.trans eligible_iff_matches)
  rw [Eligible, Eligible, hmatch]

/-- The colour is that of the reference rule, which is the last of the longest matching rules and is
    missing only where no rule matches; two ways to send the same names give the same colour. -/
theorem pickColorForStates_reference (style : StyleConfig) (activeStates : List Bytes) :
    pickColorForStates style activeStates = referenceColor style activeStates ∧
    (∀ rule, referenceRule style activeStates = some rule ↔
      ∃ pre post, style.rules = pre ++ rule :: post ∧ IsLast (Matches activeStates) specificity pre rule post) ∧
    (referenceRule style activeStates = none ↔ ∀ rule ∈ style.rules, ¬Matches activeStates rule) ∧
    ∀ activeStates', lowerNames activeStates' = lowerNames activeStates →
      pickColorForStates style activeStates' = pickColorForStates style activeStates := by
  refine ⟨pickColorForStates_eq_reference style activeStates, fun rule => lastMax_eq_some, ?_,
    fun activeStates' h => ?_⟩
  · rw [referenceRule, lastMax_eq_none, List.filter_eq_nil_iff]
    simp only [decide_eq_true_eq]
  · simp only [pickColorForStates_eq_reference, referenceColor, referenceRule, matches_congr h]

/-- A rule for `LOW` gives its colour to a message of the state `low`, and not to one of the state `lower`. -/
theorem low_rule_reference :
    pickColorForStates (styleOfContent (ascii "LOW=#FF0000\n")) [ascii "low"] = ⟨0xFF, 0x00, 0x00, 0xFF⟩ ∧
    pickColorForStates (styleOfContent (ascii "LOW=#FF0000\n")) [ascii "lower"] = opaqueWhite := by
  constructor
  · rw [(pickColorForStates_reference _ _).1]
    decide
  · rw [(pickColorForStates_reference _ _).1]
    decide

end Zlinestatus
