import Zlinestatus.Model.Style

/-! The style file line by line: each line sets the default colour, adds one rule, or does nothing. -/

namespace Zlinestatus

/-! ### Keys and values -/

/-- The line without the blanks around it. -/
def lineText (line : Bytes) : Bytes := trim line (ascii " \t\r")

/-- The text before the first `=`. -/
def lineKey (line : Bytes) : Bytes := trim ((lineText line).takeWhile (· != 0x3D)) (ascii " \t")

/-- The text behind the first `=`. -/
def lineValue (line : Bytes) : Bytes := trim (((lineText line).dropWhile (· != 0x3D)).drop 1) (ascii " \t")

theorem indexOfScalar_eq_some {l : Bytes} {value : UInt8} {i : ℕ} (h : indexOfScalar l value = some i) :
    l.take i = l.takeWhile (· != value) ∧ l.drop (i + 1) = (l.dropWhile (· != value)).drop 1 := by
  obtain ⟨-, rfl⟩ := List.findIdx?_eq_some_iff_findIdx_eq.mp h
  have hnot : (fun x : UInt8 => x == value) = fun x => !(x != value) := by simp [bne]
  rw [hnot, ← List.takeWhile_eq_take_findIdx_not, List.dropWhile_eq_drop_findIdx_not, List.drop_drop]
  exact ⟨rfl, rfl⟩

theorem indexOfScalar_eq_none {l : Bytes} {value : UInt8} : indexOfScalar l value = none ↔ value ∉ l := by
  rw [indexOfScalar, List.findIdx?_eq_none_iff]
  constructor
  · intro h hmem
    exact absurd (h value hmem) (by simp)
  · intro h b hb
    exact beq_eq_false_iff_ne.mpr fun heq => h (heq ▸ hb)

/-- The ways in which a line has no key and value. -/
def Malformed (line : Bytes) : Prop :=
  lineText line = [] ∨ (lineText line).head? = some 0x23 ∨ 0x3D ∉ lineText line ∨ lineKey line = [] ∨ lineValue line = []

instance (line : Bytes) : Decidable (Malformed line) := inferInstanceAs (Decidable (_ ∨ _ ∨ _ ∨ _ ∨ _))

/-- The colour that the value of the line stands for. -/
def lineColor (line : Bytes) : Option Pixel := if Malformed line then none else parseHexColor (lineValue line)

theorem styleLine_eq_some {line key value : Bytes} {color : Pixel} : styleLine line = some (key, value, color) ↔
    ¬Malformed line ∧ key = lineKey line ∧ value = lineValue line ∧ parseHexColor value = some color := by
  have hline : trim line (ascii " \t\r") = lineText line := rfl
  unfold styleLine
  simp only [hline, List.length_eq_zero_iff]
  split
  · next hskip =>
    have hbad : Malformed line := by
      rcases hskip with hskip | hskip
      · exact Or.inl hskip
      · exact Or.inr (Or.inl hskip)
    simp [hbad]
  · next hskip =>
    rw [not_or] at hskip
    split
    · next hnone =>
      have hbad : Malformed line := Or.inr (Or.inr (Or.inl (indexOfScalar_eq_none.mp hnone)))
      simp [hbad]
    · next eqIndex hindex =>
      obtain ⟨hkey, hvalue⟩ := indexOfScalar_eq_some hindex
      have htext : trim ((lineText line).takeWhile (· != 0x3D)) (ascii " \t") = lineKey line ∧
          trim (((lineText line).dropWhile (· != 0x3D)).drop 1) (ascii " \t") = lineValue line := ⟨rfl, rfl⟩
      rw [hkey, hvalue, htext.1, htext.2]
      split
      · next hempty =>
        have hbad : Malformed line := Or.inr (Or.inr (Or.inr hempty))
        simp [hbad]
      · next hfull =>
        have hgood : ¬Malformed line := by
          rintro (h | h | h | h)
          · exact hskip.1 h
          · exact hskip.2 h
          · rw [indexOfScalar_eq_none.mpr h] at hindex
            cases hindex
          · exact hfull h
        cases hcolor : parseHexColor (lineValue line) with
        | none =>
          simp only [reduceCtorEq, false_iff, not_and]
          rintro - - rfl
          simp [hcolor]
        | some c =>
          simp only [Option.some.injEq, Prod.mk.injEq, hgood, not_false_eq_true, true_and]
          constructor
          · rintro ⟨rfl, rfl, rfl⟩
            exact ⟨rfl, rfl, hcolor⟩
          · rintro ⟨rfl, rfl, h⟩
            rw [hcolor] at h
            exact ⟨rfl, rfl, Option.some.inj h⟩

/-- The line as the loader takes it apart. -/
theorem styleLine_eq (line : Bytes) :
    styleLine line = (lineColor line).map fun color => (lineKey line, lineValue line, color) := by
  unfold lineColor
  refine Option.ext fun parsed => ?_
  obtain ⟨key, value, color⟩ := parsed
  rw [styleLine_eq_some]
  split
  · next hbad => simp [hbad]
  · next hgood =>
    rw [Option.map_eq_some_iff]
    constructor
    · rintro ⟨-, rfl, rfl, hcolor⟩
      exact ⟨color, hcolor, rfl⟩
    · rintro ⟨color', hcolor, heq⟩
      cases heq
      exact ⟨hgood, rfl, rfl, hcolor⟩

theorem lineColor_eq_none {line : Bytes} : lineColor line = none ↔ styleLine line = none := by
  rw [styleLine_eq, Option.map_eq_none_iff]

theorem styleLine_of_malformed {line : Bytes} (h : Malformed line) : styleLine line = none :=
  lineColor_eq_none.mp (if_pos h)

theorem styleLine_of_badValue {line : Bytes} (h : parseHexColor (lineValue line) = none) : styleLine line = none := by
  refine lineColor_eq_none.mp ?_
  rw [lineColor, h, ite_self]

theorem lineKey_subset (line : Bytes) : lineKey line ⊆ line :=
  fun _ hb => Tokens.trim_subset ((List.takeWhile_sublist _).subset (Tokens.trim_subset hb))

/-! ### Lines -/

/-- The states that a key names. -/
def keyStates (key : Bytes) : List Bytes := tokenizeAny key (ascii "+, ")

/-- The default colour, if the line sets one. -/
def lineDefault (line : Bytes) : Option Pixel :=
  if lineKey line = ascii "default" ∨ lineKey line = ascii "default_color" then lineColor line else none

/-- The rule that the line adds, if it adds one. -/
def lineRule (line : Bytes) : Option ColorRule :=
  if lineKey line = ascii "default" ∨ lineKey line = ascii "default_color" ∨ keyStates (lineKey line) = [] then none
  else (lineColor line).map fun color => ⟨keyStates (lineKey line), color⟩

/-- The tokeniser returns no empty token, so the loop's own check for one drops nothing. -/
theorem filter_keyStates (key : Bytes) :
    ((tokenizeAny key (ascii "+, ")).filter fun state => state.length ≠ 0) = keyStates key :=
  List.filter_eq_self.mpr fun _ hs => by simpa using (Tokens.tokenize_mem hs).1.1

theorem loadLine_eq (style : StyleConfig) (line : Bytes) : loadLine style line =
    { defaultColor := (lineDefault line).getD style.defaultColor, rules := style.rules ++ (lineRule line).toList } := by
  unfold loadLine lineDefault lineRule
  rw [styleLine_eq]
  cases lineColor line with
  | none => simp
  | some color =>
    simp only [Option.map_some, applyLine, filter_keyStates, List.length_eq_zero_iff]
    generalize lineKey line = key
    by_cases hkey : key = ascii "default" ∨ key = ascii "default_color"
    · have : key = ascii "default" ∨ key = ascii "default_color" ∨ keyStates key = [] := by tauto
      simp [hkey, this]
    · by_cases hnil : keyStates key = [] <;> simp [hkey, hnil]

/-- The style of a file: the rules of its lines in order, and the default colour of the last line that
    sets one. -/
theorem styleOfContent_eq (content : Bytes) : styleOfContent content =
    { defaultColor := ((content.splitOn 0x0A).filterMap lineDefault).getLastD opaqueWhite
      rules := (content.splitOn 0x0A).filterMap lineRule } := by
  unfold styleOfContent
  generalize content.splitOn 0x0A = lines
  induction lines using List.reverseRecOn with
  | nil => rfl
  | append_singleton lines line ih =>
    rw [List.foldl_append, List.foldl_cons, List.foldl_nil, ih, loadLine_eq]
    cases hd : lineDefault line <;> cases hr : lineRule line <;> simp [hd, hr]

theorem mem_styleOfContent {content : Bytes} {rule : ColorRule} (h : rule ∈ (styleOfContent content).rules) :
    ∃ line ∈ content.splitOn 0x0A, lineRule line = some rule := by
  rw [styleOfContent_eq] at h
  exact List.mem_filterMap.mp h

theorem lineRule_eq_some {line : Bytes} {rule : ColorRule} (h : lineRule line = some rule) :
    ∃ key value color, styleLine line = some (key, value, color) ∧ keyStates key ≠ [] ∧
      rule = ⟨keyStates key, color⟩ := by
  obtain ⟨hkey, hrule⟩ := Option.ite_none_left_eq_some.mp h
  obtain ⟨color, hcolor, rfl⟩ := Option.map_eq_some_iff.mp hrule
  rw [not_or, not_or] at hkey
  exact ⟨_, _, color, by rw [styleLine_eq, hcolor]; rfl, hkey.2.2, rfl⟩

theorem styleOfContent_states_ne_nil {content : Bytes} {rule : ColorRule}
    (h : rule ∈ (styleOfContent content).rules) : rule.states ≠ [] := by
  obtain ⟨line, -, hline⟩ := mem_styleOfContent h
  obtain ⟨key, value, color, -, hne, rfl⟩ := lineRule_eq_some hline
  exact hne

/-- The states of a loaded rule: free of the separators of the key, and of the line feed, which ends the
    line. -/
theorem styleOfContent_token {content : Bytes} {rule : ColorRule} (h : rule ∈ (styleOfContent content).rules) :
    ∀ s ∈ rule.states, Tokens.Token (anyOf (ascii "+, \n")) s := by
  obtain ⟨line, hmem, hline⟩ := mem_styleOfContent h
  obtain ⟨key, value, color, hstyle, -, rfl⟩ := lineRule_eq_some hline
  intro s hs
  obtain ⟨htoken, hsub⟩ := Tokens.tokenize_mem hs
  refine ⟨htoken.1, fun b hb => ?_⟩
  have hkey := htoken.2 b hb
  have hin : b ∈ line := lineKey_subset line ((styleLine_eq_some.mp hstyle).2.1 ▸ hsub b hb)
  have hnl : (b == 0x0A) = false := (Tokens.splitOnP_mem hmem b hin).1
  simp only [anyOf, List.contains_eq_mem, decide_eq_false_iff_not, beq_eq_false_iff_ne] at hkey hnl ⊢
  have hset : ascii "+, \n" = ascii "+, " ++ [0x0A] := by decide
  rw [hset]
  simp [hkey, hnl]

end Zlinestatus
