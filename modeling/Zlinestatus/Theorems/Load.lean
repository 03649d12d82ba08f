import Zlinestatus.Model.Load
import Zlinestatus.Theorems.StyleFile

/-! The blocks of a load. Each is given back or handed to the caller, save those that are between two owners
    when `append` fails: a copy not yet in its list, and the states of a rule not yet in the rules. -/

namespace Zlinestatus.Owned
open Alloc
variable {replies : ℕ → Reply} {l l' : Ledger} {owned : Multiset ℕ} {rules : Buffer ColorRule} {key : Bytes}
  {color : Pixel} {style : StyleConfig}

/-! ### What is owned -/

/-- The block of a string. -/
def Str.blocks (str : Str) : Multiset ℕ := {str.block}

/-- The blocks of a rule: its list of states, and each of these. -/
def ColorRule.blocks (rule : ColorRule) : Multiset ℕ := rule.states.blocks Str.blocks

/-- The blocks that a style owns. -/
def StyleConfig.blocks (style : StyleConfig) : Multiset ℕ := style.rules.blocks ColorRule.blocks

/-- The rule without its blocks. -/
def ColorRule.value (rule : ColorRule) : Zlinestatus.ColorRule := ⟨rule.states.items.map Str.bytes, rule.color⟩

/-- The style without its blocks. -/
def StyleConfig.value (style : StyleConfig) : Zlinestatus.StyleConfig :=
  ⟨style.defaultColor, style.rules.items.map ColorRule.value⟩

theorem releases_freeStates (states : List Str) : Releases (freeStates · states) (ownedBy Str.blocks states) := by
  have hstr : ∀ state : Str, Releases (fun l => l.free state.block) state.blocks :=
    fun state => releases_free state.block
  exact releases_foldl hstr states

theorem releases_dropStates (statesList : Buffer Str) :
    Releases (dropStates · statesList) (statesList.blocks Str.blocks) := by
  rw [Buffer.blocks, add_comm]
  exact (releases_freeStates statesList.items).comp statesList.releases_release

theorem releases_dropRules (rules : Buffer ColorRule) : Releases (dropRules · rules) (rules.blocks ColorRule.blocks) := by
  rw [Buffer.blocks, add_comm]
  have hrule : ∀ rule : ColorRule, Releases (fun l => dropStates l rule.states) rule.blocks :=
    fun rule => releases_dropStates rule.states
  exact (releases_foldl hrule rules.items).comp rules.releases_release

theorem releases_freeStyleConfig (h : style.rules.items = [] → style.rules.block = none) :
    Releases (freeStyleConfig · style) style.blocks := by
  by_cases hnil : style.rules.items = []
  · have hblocks : style.blocks = 0 := by
      rw [StyleConfig.blocks, Buffer.blocks, h hnil, hnil]
      rfl
    simp only [freeStyleConfig, hnil, List.length_nil, if_true, hblocks]
    exact releases_id
  · simp only [freeStyleConfig, List.length_eq_zero_iff, if_neg hnil]
    exact releases_dropRules style.rules

theorem blocks_ne_zero {states : Buffer Str} (h : states.items.length ≠ 0) : states.blocks Str.blocks ≠ 0 := by
  obtain ⟨block, _ | ⟨state, items⟩⟩ := states
  · exact absurd rfl h
  · intro hzero
    have hmem : state.block ∈ Buffer.blocks Str.blocks ⟨block, state :: items⟩ :=
      Multiset.mem_add.mpr (Or.inr (Multiset.mem_add.mpr (Or.inl (Multiset.mem_singleton_self _))))
    rw [hzero] at hmem
    exact Multiset.notMem_zero _ hmem

/-! ### The loops -/

/-- The calls of a part of the load end so: only a failed `append` may lose a block. -/
abbrev LoadEnded (replies : ℕ → Reply) : List Call → Ledger → Ledger → Bool → Multiset ℕ → Prop :=
  Ended replies (· = Call.append)

theorem dupeStates_ended {states : List Bytes} (hne : ∀ s ∈ states, s ≠ []) {statesList : Buffer Str}
    (h : Accounted l (statesList.blocks Str.blocks + owned)) :
    ∃ l' statesList' ok, dupeStates replies l statesList states = (l', statesList', ok) ∧
      LoadEnded replies (states.flatMap fun _ => [.dupe, .append]) l l' ok (statesList'.blocks Str.blocks + owned) ∧
      (ok = true → statesList'.items.map Str.bytes = statesList.items.map Str.bytes ++ states) := by
  induction states generalizing l statesList with
  | nil => exact ⟨l, statesList, true, rfl, ended_nil h, fun _ => (List.append_nil _).symm⟩
  | cons state states ih =>
    obtain ⟨hstate, hrest⟩ := List.forall_mem_cons.mp hne
    have hplan : ((state :: states).flatMap fun _ => [Call.dupe, Call.append]) =
        [.dupe] ++ ([.append] ++ states.flatMap fun _ => [.dupe, .append]) := rfl
    simp only [dupeStates, List.length_eq_zero_iff, if_neg hstate, hplan]
    rcases alloc_ended replies (· = Call.append) h (c := .dupe) (by decide) with
      ⟨l₁, heq, hended⟩ | ⟨l₁, dup, heq, hended⟩
    · rw [heq]
      exact ⟨l₁, statesList, false, rfl, hended.stop _, fun h => by cases h⟩
    · rw [heq]
      have h₁ : Accounted l₁ (statesList.blocks Str.blocks + ((Str.mk dup state).blocks + owned)) := by
        have := hended.accounted
        rwa [add_left_comm] at this
      dsimp only
      rcases append_ended replies (· = Call.append) (Str.mk dup state) h₁ Call.append with
        ⟨l₂, heq₂, hended₂⟩ | ⟨l₂, statesList₂, heq₂, hitems, hended₂⟩
      · rw [heq₂]
        have hlost := hended₂ {dup} (statesList.blocks Str.blocks + owned) (add_left_comm _ _ _) (by simp)
        exact ⟨l₂, statesList, false, rfl, hended.seq (hlost.stop _), fun h => by cases h⟩
      · rw [heq₂]
        obtain ⟨l₃, statesList₃, ok, heq₃, hended₃, hbytes⟩ := ih hrest hended₂.accounted
        refine ⟨l₃, statesList₃, ok, heq₃, hended.seq (hended₂.seq hended₃), fun hok => ?_⟩
        rw [hbytes hok, hitems]
        simp

theorem keyStates_ne_nil (key : Bytes) : ∀ s ∈ keyStates key, s ≠ [] := fun _ hs => (Tokens.tokenize_mem hs).1.1

theorem loadRule_ended (replies : ℕ → Reply) (key : Bytes) (color : Pixel)
    (h : Accounted l (rules.blocks ColorRule.blocks + owned)) :
    ∃ l' rules' ok, loadRule replies l rules key color = (l', rules', ok) ∧
      LoadEnded replies (ruleCalls key) l l' ok (rules'.blocks ColorRule.blocks + owned) ∧
      (ok = true → rules'.items.map ColorRule.value =
        rules.items.map ColorRule.value ++ if keyStates key = [] then [] else [⟨keyStates key, color⟩]) := by
  have hstates : tokenizeAny key (ascii "+, ") = keyStates key := rfl
  simp only [loadRule, ruleCalls, hstates]
  by_cases hnil : keyStates key = []
  · simp only [hnil, dupeStates, List.length_nil, if_true, List.append_nil]
    exact ⟨l, rules, true, rfl, ended_nil h, fun _ => rfl⟩
  simp only [if_neg hnil]
  have hempty : Accounted l (({} : Buffer Str).blocks Str.blocks + (rules.blocks ColorRule.blocks + owned)) :=
    (zero_add (rules.blocks ColorRule.blocks + owned)).symm ▸ h
  obtain ⟨l₁, statesList, ok, heq, hended, hbytes⟩ := dupeStates_ended (keyStates_ne_nil key) hempty
  rw [heq]
  cases ok with
  | false =>
    exact ⟨_, rules, false, rfl, (hended.release (releases_dropStates statesList)).stop _, fun h => by cases h⟩
  | true =>
    have hbytes : statesList.items.map Str.bytes = keyStates key := hbytes rfl
    have hne : statesList.items.length ≠ 0 := by
      rw [← List.length_map (f := Str.bytes), hbytes]
      exact fun hzero => hnil (List.length_eq_zero_iff.mp hzero)
    simp only [if_neg hne]
    rcases toOwnedSlice_ended replies (· = Call.append) hne hended.accounted (c := .toOwnedSlice) (by decide) with
      ⟨l₂, heq₂, hended₂⟩ | ⟨l₂, slice, heq₂, hitems, hended₂⟩
    · rw [heq₂]
      have hdropped := hended₂.release (releases_dropStates statesList)
      exact ⟨_, rules, false, rfl, hended.seq (hdropped.stop [.append]), fun h => by cases h⟩
    · rw [heq₂]
      have h₂ : Accounted l₂ (rules.blocks ColorRule.blocks + ((ColorRule.mk slice color).blocks + owned)) := by
        have := hended₂.accounted
        rwa [add_left_comm] at this
      dsimp only
      rcases append_ended replies (· = Call.append) (ColorRule.mk slice color) h₂ Call.append with
        ⟨l₃, heq₃, hended₃⟩ | ⟨l₃, rules₃, heq₃, hrules, hended₃⟩
      · rw [heq₃]
        have hlost : (ColorRule.mk slice color).blocks ≠ 0 := blocks_ne_zero (hitems ▸ hne)
        have hdropped := hended₃ (ColorRule.mk slice color).blocks (rules.blocks ColorRule.blocks + owned)
          (add_left_comm _ _ _) (by simp [hlost])
        exact ⟨l₃, rules, false, rfl, hended.seq (hended₂.seq hdropped), fun h => by cases h⟩
      · rw [heq₃]
        refine ⟨l₃, rules₃, true, rfl, hended.seq (hended₂.seq hended₃), fun _ => ?_⟩
        rw [hrules, List.map_append, List.map_singleton, ColorRule.value, hitems, hbytes]

theorem loadLines_ended (replies : ℕ → Reply) (lines : List Bytes) (defaultColor : Pixel)
    (h : Accounted l (rules.blocks ColorRule.blocks + owned)) :
    ∃ l' defaultColor' rules' ok, loadLines replies l defaultColor rules lines = (l', defaultColor', rules', ok) ∧
      LoadEnded replies (linesCalls lines) l l' ok (rules'.blocks ColorRule.blocks + owned) ∧
      (ok = true → (StyleConfig.mk defaultColor' rules').value =
        lines.foldl loadLine (StyleConfig.mk defaultColor rules).value) := by
  induction lines generalizing l defaultColor rules with
  | nil => exact ⟨l, defaultColor, rules, true, rfl, ended_nil h, fun _ => rfl⟩
  | cons line lines ih =>
    simp only [loadLines, linesCalls, List.flatMap_cons, List.foldl_cons, lineCalls, loadLine]
    cases styleLine line with
    | none => exact ih defaultColor h
    | some parsed =>
      obtain ⟨key, value, color⟩ := parsed
      dsimp only
      by_cases hdefault : key = ascii "default" ∨ key = ascii "default_color"
      · simp only [if_pos hdefault, applyLine]
        exact ih color h
      · simp only [if_neg hdefault, applyLine, filter_keyStates]
        obtain ⟨l₁, rules₁, ok, heq, hended, hvalue⟩ := loadRule_ended replies key color h
        rw [heq]
        cases ok with
        | false => exact ⟨l₁, defaultColor, rules₁, false, rfl, hended.stop _, fun h => by cases h⟩
        | true =>
          obtain ⟨l₂, defaultColor₂, rules₂, ok, heq₂, hended₂, hvalue₂⟩ := ih defaultColor hended.accounted
          refine ⟨l₂, defaultColor₂, rules₂, ok, heq₂, hended.seq hended₂, fun hok => ?_⟩
          rw [hvalue₂ hok, StyleConfig.value, hvalue rfl]
          by_cases hnil : keyStates key = []
          · simp only [hnil, if_true, List.length_nil, List.append_nil]
            rfl
          · have hlen : (keyStates key).length ≠ 0 := fun hzero => hnil (List.length_eq_zero_iff.mp hzero)
            simp only [if_neg hnil, if_neg hlen]
            rfl

theorem lineRule_eq_none {line : Bytes} : lineRule line = none ↔ lineCalls line = [] := by
  unfold lineRule lineCalls
  rw [styleLine_eq]
  cases lineColor line with
  | none => simp
  | some color =>
    generalize lineKey line = key
    have hstates : tokenizeAny key (ascii "+, ") = keyStates key := rfl
    by_cases hdefault : key = ascii "default" ∨ key = ascii "default_color"
    · simp [← or_assoc, hdefault]
    · by_cases hnil : keyStates key = [] <;> simp [hdefault, ruleCalls, hstates, hnil]

theorem linesCalls_eq_nil {content : Bytes} :
    linesCalls (content.splitOn 0x0A) = [] ↔ (styleOfContent content).rules = [] := by
  rw [styleOfContent_eq, linesCalls, List.flatMap_eq_nil_iff, List.filterMap_eq_nil_iff]
  exact forall₂_congr fun line _ => lineRule_eq_none.symm

/-! ### Whole loads -/

/-- How a load of the calls `cs` ends: with the style or the error that a load without failures computes, or
    out of memory. -/
inductive LoadEnds (replies : ℕ → Reply) (computed : Except Error Zlinestatus.StyleConfig) (cs : List Call) (l : Ledger)
    (owned : Multiset ℕ) : Ledger × Except LoadError StyleConfig → Prop where
  | ok {l' : Ledger} {style : StyleConfig} (hvalue : computed = .ok style.value)
    (hblock : style.rules.items = [] → style.rules.block = none)
    (h : LoadEnded replies cs l l' true (style.blocks + owned)) : LoadEnds replies computed cs l owned (l', .ok style)
  | file {l' : Ledger} {e : Error} (hvalue : computed = .error e) (h : LoadEnded replies cs l l' true owned) :
    LoadEnds replies computed cs l owned (l', .error (.file e))
  | outOfMemory {l' : Ledger} (h : LoadEnded replies cs l l' false owned) :
    LoadEnds replies computed cs l owned (l', .error .outOfMemory)

section
variable {computed : Except Error Zlinestatus.StyleConfig} {cs ds : List Call} {l₁ : Ledger} {b : ℕ}
  {result : Except LoadError StyleConfig}

theorem LoadEnds.free (h : LoadEnds replies computed cs l ({b} + owned) (l', result)) :
    LoadEnds replies computed cs l owned (l'.free b, result) := by
  cases h with
  | ok hvalue hblock h => exact .ok hvalue hblock ((h.congr (add_left_comm _ _ _)).release (releases_free b))
  | file hvalue h => exact .file hvalue (h.release (releases_free b))
  | outOfMemory h => exact .outOfMemory (h.release (releases_free b))

theorem LoadEnds.after {owned₁ : Multiset ℕ} {run : Ledger × Except LoadError StyleConfig}
    (h : LoadEnds replies computed ds l₁ owned run) (hfirst : LoadEnded replies cs l l₁ true owned₁) :
    LoadEnds replies computed (cs ++ ds) l owned run := by
  cases h with
  | ok hvalue hblock h => exact .ok hvalue hblock (hfirst.seq h)
  | file hvalue h => exact .file hvalue (hfirst.seq h)
  | outOfMemory h => exact .outOfMemory (hfirst.seq h)

end

theorem loadContent_ends (replies : ℕ → Reply) (content : Bytes) (h : Accounted l owned) :
    LoadEnds replies (.ok (styleOfContent content)) (contentCalls content) l owned (loadContent replies l content) := by
  have hempty : Accounted l (({} : Buffer ColorRule).blocks ColorRule.blocks + owned) := (zero_add owned).symm ▸ h
  obtain ⟨l₁, defaultColor, rules, ok, heq, hended, hvalue⟩ :=
    loadLines_ended replies (content.splitOn 0x0A) opaqueWhite hempty
  rw [loadContent, heq, contentCalls]
  cases ok with
  | false => exact .outOfMemory ((hended.release (releases_dropRules rules)).stop _)
  | true =>
    have hstyle : (StyleConfig.mk defaultColor rules).value = styleOfContent content := hvalue rfl
    have hrules : (styleOfContent content).rules = rules.items.map ColorRule.value := by rw [← hstyle]; rfl
    have hcalls : linesCalls (content.splitOn 0x0A) = [] ↔ rules.items = [] := by
      rw [linesCalls_eq_nil, hrules, List.map_eq_nil_iff]
    dsimp only
    by_cases hnil : rules.items = []
    · have hslice : rules.toOwnedSlice replies l₁ = (rules.release l₁, {}, some {}) :=
        if_pos (List.length_eq_zero_iff.mpr hnil)
      rw [hslice, if_pos (hcalls.mpr hnil), List.append_nil]
      refine .ok ?_ (fun _ => rfl) ?_
      · rw [← hstyle, StyleConfig.value, hnil]
        rfl
      · have hblocks : rules.blocks ColorRule.blocks + owned = held rules.block + (0 + owned) := by
          rw [Buffer.blocks, hnil, ownedBy, List.foldr_nil, add_assoc]
        exact (hended.congr hblocks).release rules.releases_release
    · have hne : rules.items.length ≠ 0 := fun hzero => hnil (List.length_eq_zero_iff.mp hzero)
      rw [if_neg fun hzero => hnil (hcalls.mp hzero)]
      rcases toOwnedSlice_ended replies (· = Call.append) hne hended.accounted (c := .toOwnedSlice) (by decide) with
        ⟨l₂, heq₂, hended₂⟩ | ⟨l₂, slice, heq₂, hitems, hended₂⟩
      · rw [heq₂]
        exact .outOfMemory (hended.seq (hended₂.release (releases_dropRules rules)))
      · rw [heq₂]
        refine .ok ?_ (fun h => absurd (hitems ▸ h) hnil) (hended.seq hended₂)
        rw [← hstyle, StyleConfig.value, StyleConfig.value, hitems]

theorem loadFrom_ends (replies : ℕ → Reply) {env : Environment} {configHome : Bytes} (typeArg : Bytes)
    (hhome : env.xdgConfigHome.or (env.home.map (· ++ ascii "/.config")) = some configHome) (h : Accounted l owned) :
    LoadEnds replies (Zlinestatus.loadStyleConfig env typeArg) (fileCalls env typeArg configHome) l owned
      (loadFrom replies l env typeArg configHome) := by
  simp only [Zlinestatus.loadStyleConfig, hhome, loadFrom, fileCalls]
  rcases alloc_ended replies (· = Call.append) h (c := .allocPrint) (by decide) with
    ⟨l₁, heq, hended⟩ | ⟨l₁, path, heq, hended⟩
  · rw [heq]
    exact .outOfMemory (hended.stop _)
  rw [heq]
  dsimp only
  have hpath := hended.accounted
  cases env.openFileAbsolute (configHome ++ ascii "/zlinestatus/" ++ typeArg ++ ascii ".conf") with
  | fileNotFound =>
    have hdefault : LoadEnded replies [] l₁ l₁ true (StyleConfig.blocks {} + ({path} + owned)) :=
      (ended_nil hpath).congr (zero_add _).symm
    exact (LoadEnds.ok rfl (fun _ => rfl) hdefault).free.after hended
  | failed => exact ((LoadEnds.file rfl (ended_nil hpath)).free).after hended
  | content bytes =>
    dsimp only [readToEndAlloc]
    rcases alloc_ended replies (· = Call.append) hpath (c := .readToEndAlloc) (by decide) with
      ⟨l₂, heq₂, hended₂⟩ | ⟨l₂, content, heq₂, hended₂⟩
    · rw [heq₂]
      exact (LoadEnds.outOfMemory (hended₂.stop _)).free.after hended
    rw [heq₂]
    dsimp only
    by_cases hlen : bytes.length > 64 * 1024
    · rw [if_pos hlen, if_pos hlen, if_pos hlen]
      exact (LoadEnds.file rfl hended₂).free.free.after hended
    · rw [if_neg hlen, if_neg hlen, if_neg hlen]
      exact ((loadContent_ends replies bytes hended₂.accounted).after hended₂).free.free.after hended

/-- With an allocator, a load computes what the load without one does, as long as no call fails. -/
theorem loadStyleConfig_ends (replies : ℕ → Reply) (env : Environment) (typeArg : Bytes) (h : Accounted l owned) :
    LoadEnds replies (Zlinestatus.loadStyleConfig env typeArg) (loadCalls env typeArg) l owned
      (loadStyleConfig replies l env typeArg) := by
  rw [loadStyleConfig, loadCalls]
  cases hxdg : env.xdgConfigHome with
  | some configHome => exact loadFrom_ends replies typeArg (by rw [hxdg]; rfl) h
  | none =>
    cases hhome : env.home with
    | none =>
      have hvalue : Zlinestatus.loadStyleConfig env typeArg = .ok {} := by
        rw [Zlinestatus.loadStyleConfig, hxdg, hhome]
        rfl
      exact .ok hvalue (fun _ => rfl) ((ended_nil h).congr (zero_add owned).symm)
    | some home =>
      dsimp only
      rcases alloc_ended replies (· = Call.append) h (c := .allocPrint) (by decide) with
        ⟨l₁, heq, hended⟩ | ⟨l₁, configHome, heq, hended⟩
      · rw [heq]
        exact .outOfMemory (hended.stop _)
      · rw [heq]
        have hfrom := loadFrom_ends replies typeArg (by rw [hxdg, hhome]; rfl) hended.accounted
        exact (hfrom.after hended).free

/-! ### The balance of a load -/

/-- Nothing is lost and nothing is given back twice. Behind a load that fails, the blocks that are live are
    those that were; behind one that does not, the blocks `freeStyleConfig` gives back are live as well. -/
structure Balanced (before : Ledger) (run : Ledger × Except LoadError StyleConfig) : Prop where
  wellFormed : run.1.WellFormed
  failed : ∀ e, run.2 = .error e → ∀ b, run.1.Live b ↔ before.Live b
  loaded : ∀ style, run.2 = .ok style → ∀ b, run.1.Live b ↔
    before.Live b ∨ b ∈ (freeStyleConfig run.1 style).released ∧ b ∉ run.1.released
  freed : ∀ style, run.2 = .ok style → (freeStyleConfig run.1 style).WellFormed

theorem balanced_ok (h : Accounted l owned) (h' : Accounted l' (style.blocks + owned))
    (hblock : style.rules.items = [] → style.rules.block = none) : Balanced l (l', .ok style) where
  wellFormed := h'.wellFormed
  failed _ he := by cases he
  loaded _ he b := by
    cases he
    have hfreed := h'.mem_release (releases_freeStyleConfig hblock) (b := b)
    rw [h'.live_iff, h.live_iff, Multiset.mem_add, or_comm, ← hfreed]
  freed _ he := by
    cases he
    exact (h'.release (releases_freeStyleConfig hblock)).wellFormed

theorem balanced_error (h : Accounted l owned) (h' : Accounted l' owned) (e : LoadError) : Balanced l (l', .error e) where
  wellFormed := h'.wellFormed
  failed _ _ _ := h'.live_iff.trans h.live_iff.symm
  loaded _ he := by cases he
  freed _ he := by cases he

theorem not_balanced {lost : Multiset ℕ} (h : Accounted l owned) (h' : Accounted l' (lost + owned)) (hlost : lost ≠ 0)
    (e : LoadError) : ¬Balanced l (l', .error e) := by
  intro hbalanced
  obtain ⟨b, hb⟩ := Multiset.exists_mem_of_ne_zero hlost
  have hlive : l'.Live b := h'.live_iff.mpr (Multiset.mem_add.mpr (Or.inl hb))
  have hb' : b ∈ owned := h.live_iff.mp ((hbalanced.failed e rfl b).mp hlive)
  have hnodup : (lost + owned).Nodup := Multiset.nodup_of_le (Multiset.le_add_left _ _) h'.nodup
  exact Multiset.disjoint_left.mp (Multiset.disjoint_of_nodup_add hnodup) hb hb'

/-- A load is balanced unless the first call that fails is one of `append`. -/
theorem load_balanced_iff (replies : ℕ → Reply) (env : Environment) (typeArg : Bytes) (h : l.WellFormed) :
    Balanced l (loadStyleConfig replies l env typeArg) ↔
      firstFailure replies l.calls (loadCalls env typeArg) ≠ some .append := by
  obtain ⟨owned, hl⟩ := h.accounted
  have hends := loadStyleConfig_ends replies env typeArg hl
  generalize loadStyleConfig replies l env typeArg = run at hends
  cases hends with
  | ok _ hblock h' =>
    cases h' with
    | completed hnone _ h' => simp [hnone, balanced_ok hl h' hblock]
  | file _ h' =>
    cases h' with
    | completed hnone _ h' => simp [hnone, balanced_error hl h']
  | outOfMemory h' =>
    cases h' with
    | failed c lost hsome hlost h' =>
      by_cases hzero : lost = 0
      · rw [hzero, zero_add] at h'
        simpa [hsome, balanced_error hl h'] using hlost.mp hzero
      · have hc : c = .append := not_not.mp fun hne => hzero (hlost.mpr hne)
        simp [hsome, hc, not_balanced hl h' hzero]

/-- One colour rule for the state `low`. -/
def lowEnvironment : Environment where
  xdgRuntimeDir := none
  xdgConfigHome := some (ascii "/c")
  home := none
  openFileAbsolute _ := .content (ascii "low=#FF0000")

/-- No call fails, or the copy of `low` is not made. -/
theorem low_balanced : Balanced {} (loadStyleConfig (fun _ => .moved) {} lowEnvironment (ascii "clock")) ∧
    firstFailure (fun n => if n = 2 then .fail else .moved) 0 (loadCalls lowEnvironment (ascii "clock")) = some .dupe ∧
    Balanced {} (loadStyleConfig (fun n => if n = 2 then .fail else .moved) {} lowEnvironment (ascii "clock")) := by
  have hempty : Ledger.WellFormed {} := ⟨List.nodup_nil, by simp⟩
  exact ⟨(load_balanced_iff _ lowEnvironment (ascii "clock") hempty).mpr (by decide +kernel), by decide +kernel,
    (load_balanced_iff _ lowEnvironment (ascii "clock") hempty).mpr (by decide +kernel)⟩

/-- The copy of `low` is made, and there is no room for it in the list. -/
theorem low_copy_lost :
    ¬Balanced {} (loadStyleConfig (fun n => if n = 3 then .fail else .moved) {} lowEnvironment (ascii "clock")) := by
  intro h
  have hrun : (loadStyleConfig (fun n => if n = 3 then .fail else .moved) {} lowEnvironment (ascii "clock")).2 =
      .error .outOfMemory := by decide +kernel
  exact absurd ((h.failed _ hrun 2).mp (by decide +kernel)) (by decide)

end Zlinestatus.Owned
