import Zlinestatus.Theorems.Pick
import Zlinestatus.Theorems.StyleFile

/-! The most specific matching rule. The code ranks a rule by the length of its state list, and so a name
    that a key repeats counts again. -/

namespace Zlinestatus
open LastMax

/-- Wherever the names of rule `a` are a strict subset of those of rule `b`, some rule whose names are
    all among those of `b` lists more states than `a`, or as many and stands behind it. -/
def SubsetsOutranked (rules : List ColorRule) : Prop :=
  ∀ pre a post, rules = pre ++ a :: post → ∀ b ∈ rules, lowerNames a.states ⊂ lowerNames b.states →
    (∃ c ∈ pre, lowerNames c.states ⊆ lowerNames b.states ∧ specificity a < specificity c) ∨
      ∃ c ∈ post, lowerNames c.states ⊆ lowerNames b.states ∧ specificity a ≤ specificity c

/-- For one list of active states: of two matching rules the one with fewer names is not picked exactly
    when some matching rule outranks it. -/
theorem not_picks_iff {content : Bytes} {activeStates : List Bytes} {pre post : List ColorRule} {a : ColorRule}
    (hrules : (styleOfContent content).rules = pre ++ a :: post) (ha : ruleMatches a activeStates = true) :
    ¬Picks (styleOfContent content) activeStates pre a post ↔
      (∃ c ∈ pre, ruleMatches c activeStates = true ∧ specificity a < specificity c) ∨
        ∃ c ∈ post, ruleMatches c activeStates = true ∧ specificity a ≤ specificity c := by
  have loaded : ∀ rule ∈ pre ++ a :: post, rule.states ≠ [] := fun rule hr =>
    styleOfContent_states_ne_nil (hrules ▸ hr)
  rw [picks_iff hrules, not_isLast_iff ⟨loaded a (by simp), ha⟩]
  constructor
  · rintro (⟨c, hc, he, hlt⟩ | ⟨c, hc, he, hle⟩)
    · exact Or.inl ⟨c, hc, he.2, hlt⟩
    · exact Or.inr ⟨c, hc, he.2, hle⟩
  · rintro (⟨c, hc, hm, hlt⟩ | ⟨c, hc, hm, hle⟩)
    · exact Or.inl ⟨c, hc, ⟨loaded c (by simp [hc]), hm⟩, hlt⟩
    · exact Or.inr ⟨c, hc, ⟨loaded c (by simp [hc]), hm⟩, hle⟩

theorem lowerNames_card_le (states : List Bytes) : (lowerNames states).card ≤ states.length := by
  simpa [lowerNames] using List.toFinset_card_le (states.map (·.map toLower))

/-- When no key repeats a name, the file outranks every strict subset: the rule `b` does so itself. -/
theorem subsetsOutranked_of_nodup {rules : List ColorRule}
    (h : ∀ rule ∈ rules, (rule.states.map (·.map toLower)).Nodup) : SubsetsOutranked rules := by
  intro pre a post hrules b hb hsub
  have hcard : (lowerNames a.states).card = specificity a := by
    have := List.toFinset_card_of_nodup (h a (by simp [hrules]))
    simpa [lowerNames] using this
  have hlt : specificity a < specificity b :=
    hcard ▸ Nat.lt_of_lt_of_le (Finset.card_lt_card hsub) (lowerNames_card_le b.states)
  rw [hrules] at hb
  rcases List.mem_append.mp hb with hb | hb
  · exact Or.inl ⟨b, hb, Finset.Subset.refl _, hlt⟩
  · rcases List.mem_cons.mp hb with rfl | hb
    · exact absurd hsub (by simp)
    · exact Or.inr ⟨b, hb, Finset.Subset.refl _, hlt.le⟩

/-- A rule with strictly fewer names than another matching one is never picked exactly when the state
    lists of the file outrank it, as they do where no key repeats a name. -/
theorem most_specific_wins_iff (content : Bytes) :
    ((∀ activeStates pre a post, ∀ b ∈ (styleOfContent content).rules,
      (styleOfContent content).rules = pre ++ a :: post → ruleMatches a activeStates = true →
      ruleMatches b activeStates = true → lowerNames a.states ⊂ lowerNames b.states →
      ¬Picks (styleOfContent content) activeStates pre a post) ↔
    SubsetsOutranked (styleOfContent content).rules) ∧
    ((∀ rule ∈ (styleOfContent content).rules, (rule.states.map (·.map toLower)).Nodup) →
      SubsetsOutranked (styleOfContent content).rules) := by
  refine ⟨?_, subsetsOutranked_of_nodup⟩
  constructor
  · -- With the states of `b` alone active, the matching rules are those with names among the names of `b`.
    intro h pre a post hrules b hb hsub
    have ha : ruleMatches a b.states = true := ruleMatches_iff.mpr hsub.subset
    have hnot := h b.states pre a post b hb hrules ha (ruleMatches_iff.mpr (Finset.Subset.refl _)) hsub
    simpa only [not_picks_iff hrules ha, ruleMatches_iff] using hnot
  · intro h activeStates pre a post b hb hrules ha hmb hsub
    have among : ∀ c : ColorRule, lowerNames c.states ⊆ lowerNames b.states → ruleMatches c activeStates = true :=
      fun c hc => ruleMatches_iff.mpr (hc.trans (ruleMatches_iff.mp hmb))
    rw [not_picks_iff hrules ha]
    rcases h pre a post hrules b hb hsub with ⟨c, hc, hn, hlt⟩ | ⟨c, hc, hn, hle⟩
    · exact Or.inl ⟨c, hc, among c hn, hlt⟩
    · exact Or.inr ⟨c, hc, among c hn, hle⟩

def repeatedKey : Bytes := ascii "low+LOW+low=#FF0000\nlow+critical=#0000FF\n"

/-- Three entries for the one name `low` outrank the two names `low` and `critical`. -/
theorem repeated_name_wins : ∃ a b : ColorRule, (styleOfContent repeatedKey).rules = [] ++ a :: [b] ∧
    ruleMatches a [ascii "low", ascii "critical"] = true ∧ ruleMatches b [ascii "low", ascii "critical"] = true ∧
    lowerNames a.states ⊂ lowerNames b.states ∧
    Picks (styleOfContent repeatedKey) [ascii "low", ascii "critical"] [] a [b] := by
  have hrules : (styleOfContent repeatedKey).rules =
      [] ++ ⟨[ascii "low", ascii "LOW", ascii "low"], ⟨0xFF, 0, 0, 0xFF⟩⟩ ::
        [⟨[ascii "low", ascii "critical"], ⟨0, 0, 0xFF, 0xFF⟩⟩] := by decide
  refine ⟨_, _, hrules, by decide, by decide, by decide, (picks_iff hrules).mpr ?_⟩
  refine ⟨⟨by simp, by decide⟩, by simp, fun q hq _ => ?_⟩
  rw [List.mem_singleton.mp hq]
  decide

end Zlinestatus
