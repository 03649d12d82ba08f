import Zlinestatus.Theorems.StyleFile

/-! The style file as text: files joined, lines inserted that say nothing, and the line ends CR LF. -/

namespace Zlinestatus
variable {content line : Bytes}

/-! ### Reading the file -/

/-- The environment names a style file for the type, and `content` is what it holds. -/
def HoldsStyle (env : Environment) (typeArg content : Bytes) : Prop :=
  ∃ configHome, env.xdgConfigHome.or (env.home.map (· ++ ascii "/.config")) = some configHome ∧
    env.openFileAbsolute (configHome ++ ascii "/zlinestatus/" ++ typeArg ++ ascii ".conf") = .content content

theorem loadStyleConfig_of_holds {env : Environment} {typeArg : Bytes} (h : HoldsStyle env typeArg content)
    (hlen : content.length ≤ 64 * 1024) : loadStyleConfig env typeArg = .ok (styleOfContent content) := by
  obtain ⟨configHome, hhome, hopen⟩ := h
  simp only [loadStyleConfig, hhome, hopen]
  exact if_neg (Nat.not_lt.mpr hlen)

/-! ### Files joined by a newline -/

theorem styleOfContent_append (a b : Bytes) : styleOfContent (a ++ 0x0A :: b) =
    { defaultColor := ((b.splitOn 0x0A).filterMap lineDefault).getLastD (styleOfContent a).defaultColor
      rules := (styleOfContent a).rules ++ (styleOfContent b).rules } := by
  simp only [styleOfContent_eq, List.splitOn_append_cons_self, List.filterMap_append, List.getLastD_eq_getLast?,
    List.getLast?_append]
  cases ((b.splitOn 0x0A).filterMap lineDefault).getLast? <;> rfl

/-! ### Lines that say nothing -/

/-- Lines the file can do without. -/
inductive Harmless (line : Bytes) : Prop where
  | blank (h : ∀ b ∈ line, b ∈ ascii " \t\r")
  | comment (indent text : Bytes) (h : line = indent ++ 0x23 :: text) (hindent : ∀ b ∈ indent, b ∈ ascii " \t\r")
  | noEquals (h : 0x3D ∉ line)
  | emptyKey (h : lineKey line = [])
  | emptyValue (h : lineValue line = [])
  | badValue (h : parseHexColor (lineValue line) = none)
  | onlySeparators (h : ∀ b ∈ lineKey line, b ∈ ascii "+, ")

theorem keyStates_of_separators {key : Bytes} (h : ∀ b ∈ key, b ∈ ascii "+, ") : keyStates key = [] := by
  have hall : ∀ b ∈ key, anyOf (ascii "+, ") b = true := fun b hb => by
    simpa only [anyOf, List.contains_eq_mem, decide_eq_true_eq] using h b hb
  exact (Tokens.tokenize_append_of_all [] hall).trans Tokens.tokenize_nil

/-- A line without key and value, or with a value that is no colour, is skipped before its key is read. -/
theorem silent_of_styleLine (h : styleLine line = none) : lineDefault line = none ∧ lineRule line = none := by
  rw [lineDefault, lineRule, lineColor_eq_none.mpr h]
  simp

theorem Harmless.silent (h : Harmless line) : lineDefault line = none ∧ lineRule line = none := by
  have blank : ∀ {l : Bytes}, (∀ b ∈ l, b ∈ ascii " \t\r") → ∀ b ∈ l, anyOf (ascii " \t\r") b = true :=
    fun h b hb => by simpa only [anyOf, List.contains_eq_mem, decide_eq_true_eq] using h b hb
  cases h with
  | blank h => exact silent_of_styleLine (styleLine_of_malformed (Or.inl (Tokens.trim_of_all (blank h))))
  | comment indent text h hindent =>
    refine silent_of_styleLine (styleLine_of_malformed (Or.inr (Or.inl ?_)))
    rw [lineText, h, trim, Tokens.trim_append_cons (blank hindent) (by decide)]
    rfl
  | noEquals h =>
    exact silent_of_styleLine (styleLine_of_malformed (Or.inr (Or.inr (Or.inl fun hmem => h (Tokens.trim_subset hmem)))))
  | emptyKey h => exact silent_of_styleLine (styleLine_of_malformed (Or.inr (Or.inr (Or.inr (Or.inl h)))))
  | emptyValue h => exact silent_of_styleLine (styleLine_of_malformed (Or.inr (Or.inr (Or.inr (Or.inr h)))))
  | badValue h => exact silent_of_styleLine (styleLine_of_badValue h)
  | onlySeparators h =>
    have hnot : ∀ {name : Bytes}, ¬name.all (ascii "+, ").contains → lineKey line ≠ name := by
      rintro name hname rfl
      refine hname (List.all_eq_true.mpr fun b hb => ?_)
      simpa using h b hb
    have hdefault : ¬(lineKey line = ascii "default" ∨ lineKey line = ascii "default_color") := by
      rintro (h | h)
      · exact hnot (by decide) h
      · exact hnot (by decide) h
    rw [lineDefault, lineRule, if_neg hdefault, if_pos (Or.inr (Or.inr (keyStates_of_separators h)))]
    exact ⟨rfl, rfl⟩

/-- The second list is the first with harmless lines inserted. -/
inductive Padded : List Bytes → List Bytes → Prop where
  | nil : Padded [] []
  | keep (line : Bytes) {lines lines' : List Bytes} (h : Padded lines lines') : Padded (line :: lines) (line :: lines')
  | insert {line : Bytes} (hline : Harmless line) (hwhole : 0x0A ∉ line) {lines lines' : List Bytes}
    (h : Padded lines lines') : Padded lines (line :: lines')

theorem Padded.whole {lines lines' : List Bytes} (h : Padded lines lines') (hwhole : ∀ l ∈ lines, 0x0A ∉ l) :
    ∀ l ∈ lines', 0x0A ∉ l := by
  induction h with
  | nil => exact hwhole
  | keep line _ ih =>
    obtain ⟨hline, hrest⟩ := List.forall_mem_cons.mp hwhole
    exact List.forall_mem_cons.mpr ⟨hline, ih hrest⟩
  | insert _ hline _ ih => exact List.forall_mem_cons.mpr ⟨hline, ih hwhole⟩

theorem Padded.ne_nil {lines lines' : List Bytes} (h : Padded lines lines') (hne : lines ≠ []) : lines' ≠ [] := by
  cases h with
  | nil => exact hne
  | keep line h => exact List.cons_ne_nil _ _
  | insert hline hwhole h => exact List.cons_ne_nil _ _

theorem Padded.filterMap_eq {γ : Type} {f : Bytes → Option γ} (hf : ∀ line, Harmless line → f line = none)
    {lines lines' : List Bytes} (h : Padded lines lines') : lines'.filterMap f = lines.filterMap f := by
  induction h with
  | nil => rfl
  | keep line _ ih => rw [List.filterMap_cons, List.filterMap_cons, ih]
  | insert hline _ _ ih => rw [List.filterMap_cons_none (hf _ hline), ih]

theorem splitOn_whole (content : Bytes) : ∀ l ∈ content.splitOn 0x0A, 0x0A ∉ l :=
  fun _ hl hmem => absurd (Tokens.splitOnP_mem hl _ hmem).1 (by decide)

theorem styleOfContent_padded {lines : List Bytes} (h : Padded (content.splitOn 0x0A) lines) :
    styleOfContent ([0x0A].intercalate lines) = styleOfContent content := by
  have hlines : ([0x0A].intercalate lines).splitOn 0x0A = lines :=
    List.splitOn_intercalate 0x0A (h.whole (splitOn_whole content)) (h.ne_nil (List.splitOn_ne_nil _ _))
  rw [styleOfContent_eq, styleOfContent_eq, hlines, h.filterMap_eq fun _ hline => hline.silent.1,
    h.filterMap_eq fun _ hline => hline.silent.2]

/-! ### CR LF -/

def crlf (content : Bytes) : Bytes := content.flatMap fun b => if b = 0x0A then [0x0D, 0x0A] else [b]

theorem crlf_whole (h : 0x0A ∉ line) : crlf line = line := by
  induction line with
  | nil => rfl
  | cons b line ih =>
    rw [List.mem_cons, not_or] at h
    rw [crlf, List.flatMap_cons, if_neg (Ne.symm h.1), List.singleton_append]
    exact congrArg (b :: ·) (ih h.2)

theorem crlf_append_cons (a b : Bytes) : crlf (a ++ 0x0A :: b) = crlf a ++ 0x0D :: 0x0A :: crlf b := by
  simp [crlf]

/-- The lines of the text with CR LF are those of the text, but for a CR at their ends. -/
theorem filterMap_crlf_intercalate {γ : Type} {f : Bytes → Option γ} (hf : ∀ line, f (line ++ [0x0D]) = f line) :
    ∀ {lines : List Bytes}, lines ≠ [] → (∀ l ∈ lines, 0x0A ∉ l) →
      ((crlf ([0x0A].intercalate lines)).splitOn 0x0A).filterMap f = lines.filterMap f
  | [], hne, _ => absurd rfl hne
  | [line], _, hwhole => by
    have hline : 0x0A ∉ line := hwhole line (by simp)
    rw [List.intercalate_singleton, crlf_whole hline, List.splitOn_eq_singleton hline]
  | line :: next :: lines, _, hwhole => by
    obtain ⟨hline, hrest⟩ := List.forall_mem_cons.mp hwhole
    have hcr : 0x0A ∉ line ++ [0x0D] := by simp [hline]
    rw [List.intercalate_cons_cons, List.append_assoc, List.singleton_append, crlf_append_cons, crlf_whole hline,
      List.append_cons, List.splitOn_append_cons_self, List.splitOn_eq_singleton hcr, List.filterMap_append,
      filterMap_crlf_intercalate hf (List.cons_ne_nil _ _) hrest]
    simp only [List.filterMap_cons, hf, List.filterMap_nil]
    cases f line <;> rfl

theorem filterMap_splitOn_crlf {γ : Type} {f : Bytes → Option γ} (hf : ∀ line, f (line ++ [0x0D]) = f line)
    (content : Bytes) : ((crlf content).splitOn 0x0A).filterMap f = (content.splitOn 0x0A).filterMap f := by
  have hlines := filterMap_crlf_intercalate hf (List.splitOn_ne_nil 0x0A content) (splitOn_whole content)
  rwa [List.intercalate_splitOn] at hlines

theorem lineText_cr (line : Bytes) : lineText (line ++ [0x0D]) = lineText line :=
  Tokens.trim_append_of_all (List.forall_mem_singleton.mpr (by decide))

theorem lineKey_cr (line : Bytes) : lineKey (line ++ [0x0D]) = lineKey line := by rw [lineKey, lineText_cr, lineKey]

theorem lineColor_cr (line : Bytes) : lineColor (line ++ [0x0D]) = lineColor line := by
  have hvalue : lineValue (line ++ [0x0D]) = lineValue line := by rw [lineValue, lineText_cr, lineValue]
  have hbad : Malformed (line ++ [0x0D]) ↔ Malformed line := by
    rw [Malformed, Malformed, lineText_cr, lineKey_cr, hvalue]
  rw [lineColor, lineColor, hvalue]
  exact if_congr hbad rfl rfl

theorem styleOfContent_crlf (content : Bytes) : styleOfContent (crlf content) = styleOfContent content := by
  have hdefault : ∀ line, lineDefault (line ++ [0x0D]) = lineDefault line := fun line => by
    rw [lineDefault, lineDefault, lineKey_cr, lineColor_cr]
  have hrule : ∀ line, lineRule (line ++ [0x0D]) = lineRule line := fun line => by
    rw [lineRule, lineRule, lineKey_cr, lineColor_cr]
  rw [styleOfContent_eq, styleOfContent_eq, filterMap_splitOn_crlf hdefault, filterMap_splitOn_crlf hrule]

/-- The style of a file is read line by line: joined files give the rules of both, lines that say nothing
    may stand anywhere, and each line may end in CR LF. -/
theorem style_lines :
    (∀ env typeArg content, HoldsStyle env typeArg content → content.length ≤ 64 * 1024 →
      loadStyleConfig env typeArg = .ok (styleOfContent content)) ∧
    (∀ a b, (styleOfContent (a ++ 0x0A :: b)).rules = (styleOfContent a).rules ++ (styleOfContent b).rules ∧
      (styleOfContent (a ++ 0x0A :: b)).defaultColor =
        ((b.splitOn 0x0A).filterMap lineDefault).getLastD (styleOfContent a).defaultColor) ∧
    (∀ content lines, Padded (content.splitOn 0x0A) lines →
      styleOfContent ([0x0A].intercalate lines) = styleOfContent content) ∧
    ∀ content, styleOfContent (crlf content) = styleOfContent content := by
  refine ⟨fun env typeArg content => loadStyleConfig_of_holds, fun a b => ?_, fun content lines => styleOfContent_padded,
    styleOfContent_crlf⟩
  rw [styleOfContent_append]
  exact ⟨rfl, rfl⟩

end Zlinestatus
