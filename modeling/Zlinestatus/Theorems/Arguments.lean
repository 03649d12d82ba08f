import Mathlib.Data.List.Forall2
import Zlinestatus.Model.Args

/-! The command line as a grammar: pairs of a flag and a value, each of which sets one field. -/

namespace Zlinestatus
variable {args : List Bytes} {cfg cfg' : Config} {pairs pairs' : List (Bytes × Bytes)}

/-! ### The grammar -/

inductive Field where
  | type
  | orientation
  | position
  | alignment
  deriving DecidableEq

/-- A value for one of the fields. -/
inductive Setting where
  | type (value : Bytes)
  | orientation (value : Orientation)
  | position (value : Position)
  | alignment (value : Alignment)
  deriving DecidableEq

def Orientation.text : Orientation → Bytes
  | .horizontal => ascii "horizontal"
  | .vertical => ascii "vertical"

def Alignment.text : Alignment → Bytes
  | .left => ascii "left"
  | .right => ascii "right"
  | .center => ascii "center"

def Position.text : Position → Bytes
  | .top => ascii "top"
  | .bottom => ascii "bottom"
  | .left => ascii "left"
  | .right => ascii "right"

/-- A flag and its value, and what they set. -/
inductive Denotes : Bytes × Bytes → Setting → Prop where
  | type (value : Bytes) : Denotes (ascii "-type", value) (.type value)
  | orientation (value : Orientation) : Denotes (ascii "-orientation", value.text) (.orientation value)
  | position (value : Position) : Denotes (ascii "-position", value.text) (.position value)
  | alignment (value : Alignment) : Denotes (ascii "-alignment", value.text) (.alignment value)
  | align (value : Alignment) : Denotes (ascii "-align", value.text) (.alignment value)

def Setting.type? : Setting → Option Bytes
  | .type value => some value
  | _ => none

def Setting.orientation? : Setting → Option Orientation
  | .orientation value => some value
  | _ => none

def Setting.position? : Setting → Option Position
  | .position value => some value
  | _ => none

def Setting.alignment? : Setting → Option Alignment
  | .alignment value => some value
  | _ => none

/-- Each field as it was last set. -/
def lastConfig (settings : List Setting) : Config where
  typeArg := (settings.filterMap Setting.type?).getLastD []
  orientation := (settings.filterMap Setting.orientation?).getLastD .horizontal
  alignment := (settings.filterMap Setting.alignment?).getLastD .center
  position := (settings.filterMap Setting.position?).getLast?

/-- The type has a name, and a position that is given suits the orientation. -/
structure Admissible (cfg : Config) : Prop where
  typed : cfg.typeArg ≠ []
  placed : ∀ position, cfg.position = some position → isPositionAllowed cfg.orientation position = true

def flatten (pairs : List (Bytes × Bytes)) : List Bytes := pairs.flatMap fun pair => [pair.1, pair.2]

/-! ### Pairs -/

/-- The field a flag sets. -/
def flagField (flag : Bytes) : Option Field :=
  if flag = ascii "-type" then some .type
  else if flag = ascii "-orientation" then some .orientation
  else if flag = ascii "-position" then some .position
  else if flag = ascii "-alignment" ∨ flag = ascii "-align" then some .alignment
  else none

def readValue (field : Field) (value : Bytes) : Option Setting :=
  match field with
  | .type => some (.type value)
  | .orientation => (parseOrientation value).map .orientation
  | .position => (parsePosition value).map .position
  | .alignment => (parseAlignment value).map .alignment

def readPair (pair : Bytes × Bytes) : Option Setting := (flagField pair.1).bind fun field => readValue field pair.2

theorem parseOrientation_eq_some {raw : Bytes} {value : Orientation} :
    parseOrientation raw = some value ↔ raw = value.text := by
  constructor
  · unfold parseOrientation
    split_ifs with h₁ h₂ <;> rintro ⟨⟩
    · exact h₁
    · exact h₂
  · rintro rfl
    cases value <;> decide

theorem parseAlignment_eq_some {raw : Bytes} {value : Alignment} : parseAlignment raw = some value ↔ raw = value.text := by
  constructor
  · unfold parseAlignment
    split_ifs with h₁ h₂ h₃ <;> rintro ⟨⟩
    · exact h₁
    · exact h₂
    · exact h₃
  · rintro rfl
    cases value <;> decide

theorem parsePosition_eq_some {raw : Bytes} {value : Position} : parsePosition raw = some value ↔ raw = value.text := by
  constructor
  · unfold parsePosition
    split_ifs with h₁ h₂ h₃ h₄ <;> rintro ⟨⟩
    · exact h₁
    · exact h₂
    · exact h₃
    · exact h₄
  · rintro rfl
    cases value <;> decide

theorem flagField_flags : flagField (ascii "-type") = some .type ∧ flagField (ascii "-orientation") = some .orientation ∧
    flagField (ascii "-position") = some .position ∧ flagField (ascii "-alignment") = some .alignment ∧
    flagField (ascii "-align") = some .alignment := by
  decide

theorem readPair_eq_some {pair : Bytes × Bytes} {setting : Setting} :
    readPair pair = some setting ↔ Denotes pair setting := by
  obtain ⟨flag, value⟩ := pair
  constructor
  · intro h
    obtain ⟨field, hfield, hvalue⟩ := Option.bind_eq_some_iff.mp h
    simp only [flagField] at hfield
    split_ifs at hfield with h₁ h₂ h₃ h₄ <;> obtain rfl := Option.some.inj hfield
    · obtain rfl := Option.some.inj hvalue
      rw [h₁]
      exact .type value
    · obtain ⟨o, ho, rfl⟩ := Option.map_eq_some_iff.mp hvalue
      have hv : value = _ := parseOrientation_eq_some.mp ho
      rw [h₂, hv]
      exact .orientation o
    · obtain ⟨p, hp, rfl⟩ := Option.map_eq_some_iff.mp hvalue
      have hv : value = _ := parsePosition_eq_some.mp hp
      rw [h₃, hv]
      exact .position p
    · obtain ⟨a, ha, rfl⟩ := Option.map_eq_some_iff.mp hvalue
      have hv : value = _ := parseAlignment_eq_some.mp ha
      rcases h₄ with h₄ | h₄ <;> rw [h₄, hv]
      · exact .alignment a
      · exact .align a
  · obtain ⟨htype, horientation, hposition, halignment, halign⟩ := flagField_flags
    intro h
    cases h with
    | type => simp only [readPair, htype, Option.bind_some, readValue]
    | orientation o =>
      simp only [readPair, horientation, Option.bind_some, readValue, parseOrientation_eq_some.mpr rfl, Option.map_some]
    | position p =>
      simp only [readPair, hposition, Option.bind_some, readValue, parsePosition_eq_some.mpr rfl, Option.map_some]
    | alignment a =>
      simp only [readPair, halignment, Option.bind_some, readValue, parseAlignment_eq_some.mpr rfl, Option.map_some]
    | align a =>
      simp only [readPair, halign, Option.bind_some, readValue, parseAlignment_eq_some.mpr rfl, Option.map_some]

/-! ### The loop -/

def Setting.apply (cfg : Config) : Setting → Config
  | .type value => { cfg with typeArg := value }
  | .orientation value => { cfg with orientation := value }
  | .position value => { cfg with position := some value }
  | .alignment value => { cfg with alignment := value }

theorem parseArgsLoop_cons (cfg : Config) (flag value : Bytes) (rest : List Bytes) :
    parseArgsLoop cfg (flag :: value :: rest) =
      match readPair (flag, value) with
      | none => .error .invalidArgs
      | some setting => parseArgsLoop (setting.apply cfg) rest := by
  simp only [parseArgsLoop, readPair, flagField]
  by_cases h₁ : flag = ascii "-type"
  · simp only [if_pos h₁, Option.bind_some, readValue, Setting.apply]
  by_cases h₂ : flag = ascii "-orientation"
  · simp only [if_neg h₁, if_pos h₂, Option.bind_some, readValue]
    cases parseOrientation value <;> rfl
  by_cases h₃ : flag = ascii "-position"
  · simp only [if_neg h₁, if_neg h₂, if_pos h₃, Option.bind_some, readValue]
    cases parsePosition value <;> rfl
  by_cases h₄ : flag = ascii "-alignment" ∨ flag = ascii "-align"
  · simp only [if_neg h₁, if_neg h₂, if_neg h₃, if_pos h₄, Option.bind_some, readValue]
    cases parseAlignment value <;> rfl
  · simp only [if_neg h₁, if_neg h₂, if_neg h₃, if_neg h₄, Option.bind_none]

theorem flatten_cons (pair : Bytes × Bytes) (pairs : List (Bytes × Bytes)) :
    flatten (pair :: pairs) = pair.1 :: pair.2 :: flatten pairs := rfl

/-- On pairs, the loop applies what they set in order, if each of them sets something. -/
theorem parseArgsLoop_flatten (cfg : Config) (pairs : List (Bytes × Bytes)) : parseArgsLoop cfg (flatten pairs) =
    if ∀ pair ∈ pairs, (readPair pair).isSome then .ok ((pairs.filterMap readPair).foldl Setting.apply cfg)
    else .error .invalidArgs := by
  induction pairs generalizing cfg with
  | nil => simp [flatten, parseArgsLoop]
  | cons pair pairs ih =>
    rw [flatten_cons, parseArgsLoop_cons]
    cases hpair : readPair (pair.1, pair.2) with
    | none =>
      have hbad : ¬∀ q ∈ pair :: pairs, (readPair q).isSome := fun hall => by
        have := hall pair (by simp)
        rw [hpair] at this
        cases this
      rw [if_neg hbad]
    | some setting =>
      have hiff : (∀ q ∈ pair :: pairs, (readPair q).isSome) ↔ ∀ q ∈ pairs, (readPair q).isSome := by
        rw [List.forall_mem_cons, show readPair pair = some setting from hpair]
        exact and_iff_right rfl
      rw [List.filterMap_cons_some hpair, List.foldl_cons]
      simp only [hiff]
      exact ih (setting.apply cfg)

/-- Arguments the loop takes come in pairs. -/
theorem pairs_of_parseArgsLoop : ∀ {args : List Bytes} {cfg cfg' : Config}, parseArgsLoop cfg args = .ok cfg' →
    ∃ pairs, args = flatten pairs
  | [], _, _, _ => ⟨[], rfl⟩
  | [_], _, _, h => by cases h
  | flag :: value :: rest, cfg, cfg', h => by
    rw [parseArgsLoop_cons] at h
    cases hpair : readPair (flag, value) with
    | none =>
      rw [hpair] at h
      cases h
    | some setting =>
      rw [hpair] at h
      obtain ⟨pairs, rfl⟩ := pairs_of_parseArgsLoop h
      exact ⟨(flag, value) :: pairs, rfl⟩

/-- The fields a run over settings leaves: each as it was last set. -/
theorem foldl_apply (settings : List Setting) : settings.foldl Setting.apply { typeArg := [] } = lastConfig settings := by
  induction settings using List.reverseRecOn with
  | nil => rfl
  | append_singleton settings setting ih =>
    rw [List.foldl_append, List.foldl_cons, List.foldl_nil, ih]
    cases setting <;> simp [Setting.apply, lastConfig, Setting.type?, Setting.orientation?, Setting.position?,
      Setting.alignment?]

theorem forall₂_denotes {settings : List Setting} : List.Forall₂ Denotes pairs settings ↔
    (∀ pair ∈ pairs, (readPair pair).isSome) ∧ settings = pairs.filterMap readPair := by
  induction pairs generalizing settings with
  | nil => simp
  | cons pair pairs ih =>
    rw [List.forall₂_cons_left_iff, List.forall_mem_cons]
    constructor
    · rintro ⟨setting, rest, hpair, hrest, rfl⟩
      have hread := readPair_eq_some.mpr hpair
      obtain ⟨hall, rfl⟩ := ih.mp hrest
      exact ⟨⟨by rw [hread]; rfl, hall⟩, (List.filterMap_cons_some hread).symm⟩
    · rintro ⟨⟨hsome, hall⟩, rfl⟩
      obtain ⟨setting, hread⟩ := Option.isSome_iff_exists.mp hsome
      exact ⟨setting, _, readPair_eq_some.mp hread, ih.mpr ⟨hall, rfl⟩, List.filterMap_cons_some hread⟩

/-! ### The check at the end -/

/-- Every error of the resolution is `InvalidArgs`, and a position it returns suits the orientation. -/
theorem resolvedPosition_cases (cfg : Config) :
    (∃ position, cfg.resolvedPosition = .ok position ∧ isPositionAllowed cfg.orientation position = true ∧
      ∀ p, cfg.position = some p → isPositionAllowed cfg.orientation p = true) ∨
    (cfg.resolvedPosition = .error .invalidArgs ∧
      ∃ p, cfg.position = some p ∧ isPositionAllowed cfg.orientation p = false) := by
  obtain ⟨typeArg, orientation, alignment, position⟩ := cfg
  cases position with
  | none => cases orientation <;> cases alignment <;> exact Or.inl ⟨_, rfl, rfl, by simp⟩
  | some p =>
    simp only [Config.resolvedPosition]
    cases hp : isPositionAllowed orientation p with
    | true => exact Or.inl ⟨p, rfl, hp, by simp [hp]⟩
    | false => exact Or.inr ⟨rfl, p, rfl, hp⟩

theorem parseArgs_eq_ok : parseArgs args = .ok cfg ↔
    parseArgsLoop { typeArg := [] } (args.drop 1) = .ok cfg ∧ Admissible cfg := by
  unfold parseArgs
  cases parseArgsLoop { typeArg := [] } (args.drop 1) with
  | error e => simp
  | ok last =>
    dsimp only
    split
    · next hempty =>
      simp only [reduceCtorEq, Except.ok.injEq, false_iff, not_and]
      rintro rfl h
      exact h.typed hempty
    · next htyped =>
      rcases resolvedPosition_cases last with ⟨position, hok, -, hplaced⟩ | ⟨herror, p, hp, hbad⟩
      · simp only [hok, Except.ok.injEq]
        constructor
        · rintro rfl
          exact ⟨rfl, htyped, hplaced⟩
        · exact And.left
      · simp only [herror, reduceCtorEq, Except.ok.injEq, false_iff, not_and]
        rintro rfl h
        rw [h.placed p hp] at hbad
        cases hbad

theorem parseArgsLoop_error : ∀ {args : List Bytes} {cfg : Config} {e : Error}, parseArgsLoop cfg args = .error e →
    e = .invalidArgs
  | [], _, _, h => by cases h
  | [_], _, _, h => by
    cases h
    rfl
  | flag :: value :: rest, cfg, e, h => by
    rw [parseArgsLoop_cons] at h
    cases hpair : readPair (flag, value) with
    | none =>
      rw [hpair] at h
      cases h
      rfl
    | some setting =>
      rw [hpair] at h
      exact parseArgsLoop_error h

theorem parseArgs_error {e : Error} (h : parseArgs args = .error e) : e = .invalidArgs := by
  unfold parseArgs at h
  split at h
  · next hloop =>
    cases h
    exact parseArgsLoop_error hloop
  · next last _ =>
    split at h
    · cases h
      rfl
    · rcases resolvedPosition_cases last with ⟨position, hok, -⟩ | ⟨herror, -⟩
      · simp [hok] at h
      · rw [herror] at h
        cases h
        rfl

/-! ### Whole command lines -/

theorem parseArgs_flatten (exe : Bytes) (pairs : List (Bytes × Bytes)) :
    parseArgs (exe :: flatten pairs) = .ok cfg ↔
      (∀ pair ∈ pairs, (readPair pair).isSome) ∧ cfg = lastConfig (pairs.filterMap readPair) ∧ Admissible cfg := by
  rw [parseArgs_eq_ok, List.drop_one, List.tail_cons, parseArgsLoop_flatten, foldl_apply]
  split
  · next hall =>
    rw [Except.ok.injEq]
    constructor
    · rintro ⟨rfl, h⟩
      exact ⟨hall, rfl, h⟩
    · rintro ⟨-, rfl, h⟩
      exact ⟨rfl, h⟩
  · next hbad =>
    constructor
    · rintro ⟨h, -⟩
      cases h
    · rintro ⟨h, -⟩
      exact absurd h hbad

/-- The second list reorders the first, but not the pairs whose flags set one field. -/
structure Reordered (pairs pairs' : List (Bytes × Bytes)) : Prop where
  perm : pairs.Perm pairs'
  fields : ∀ field, pairs.filter (fun pair => flagField pair.1 == some field) =
    pairs'.filter fun pair => flagField pair.1 == some field

def Setting.field : Setting → Field
  | .type _ => .type
  | .orientation _ => .orientation
  | .position _ => .position
  | .alignment _ => .alignment

theorem readPair_field {pair : Bytes × Bytes} {setting : Setting} (h : readPair pair = some setting) :
    flagField pair.1 = some setting.field := by
  obtain ⟨htype, horientation, hposition, halignment, halign⟩ := flagField_flags
  cases readPair_eq_some.mp h <;> assumption

/-- What sets a field is found among the pairs whose flags set it. -/
theorem filterMap_field {γ : Type} {get : Setting → Option γ} {field : Field}
    (hget : ∀ setting value, get setting = some value → setting.field = field) (pairs : List (Bytes × Bytes)) :
    (pairs.filterMap readPair).filterMap get =
      ((pairs.filter fun pair => flagField pair.1 == some field).filterMap readPair).filterMap get := by
  rw [List.filterMap_filterMap, List.filterMap_filterMap, List.filterMap_filter]
  refine List.filterMap_congr fun pair _ => ?_
  cases hread : readPair pair with
  | none => simp
  | some setting =>
    cases hvalue : get setting with
    | none => simp [hvalue]
    | some value => simp [hvalue, readPair_field hread, hget setting value hvalue]

theorem Reordered.lastConfig (h : Reordered pairs pairs') :
    lastConfig (pairs.filterMap readPair) = lastConfig (pairs'.filterMap readPair) := by
  have same : ∀ {γ : Type} (get : Setting → Option γ) (field : Field),
      (∀ setting value, get setting = some value → setting.field = field) →
      (pairs.filterMap readPair).filterMap get = (pairs'.filterMap readPair).filterMap get := by
    intro γ get field hget
    rw [filterMap_field hget pairs, filterMap_field hget pairs', h.fields field]
  rw [Zlinestatus.lastConfig, Zlinestatus.lastConfig, same Setting.type? .type (by rintro (_ | _ | _ | _) _ ⟨⟩; rfl),
    same Setting.orientation? .orientation (by rintro (_ | _ | _ | _) _ ⟨⟩; rfl),
    same Setting.position? .position (by rintro (_ | _ | _ | _) _ ⟨⟩; rfl),
    same Setting.alignment? .alignment (by rintro (_ | _ | _ | _) _ ⟨⟩; rfl)]

/-- Pairs reordered, each field apart, give the same configuration or the same rejection. -/
theorem Reordered.parseArgs_eq (h : Reordered pairs pairs') (exe : Bytes) :
    parseArgs (exe :: flatten pairs) = parseArgs (exe :: flatten pairs') := by
  have hread : (∀ pair ∈ pairs, (readPair pair).isSome) ↔ ∀ pair ∈ pairs', (readPair pair).isSome :=
    ⟨fun hall pair hp => hall pair (h.perm.mem_iff.mpr hp), fun hall pair hp => hall pair (h.perm.mem_iff.mp hp)⟩
  have hok : ∀ cfg, parseArgs (exe :: flatten pairs) = .ok cfg ↔ parseArgs (exe :: flatten pairs') = .ok cfg := by
    intro cfg
    rw [parseArgs_flatten, parseArgs_flatten, hread, h.lastConfig]
  cases hpairs : parseArgs (exe :: flatten pairs) with
  | ok cfg => exact ((hok cfg).mp hpairs).symm
  | error e =>
    cases hpairs' : parseArgs (exe :: flatten pairs') with
    | ok cfg =>
      rw [(hok cfg).mpr hpairs'] at hpairs
      cases hpairs
    | error e' => rw [parseArgs_error hpairs, parseArgs_error hpairs']

/-- The command line is accepted exactly when its arguments pair up into flags and values whose last
    settings are admissible; the configuration holds these settings and resolves its position, and only
    the order of settings of one field counts. -/
theorem parseArgs_grammar (args : List Bytes) :
    (∀ cfg, parseArgs args = .ok cfg ↔ ∃ pairs settings, args.drop 1 = flatten pairs ∧
      List.Forall₂ Denotes pairs settings ∧ cfg = lastConfig settings ∧ Admissible cfg) ∧
    (∀ cfg, parseArgs args = .ok cfg → ∃ position, cfg.resolvedPosition = .ok position ∧
      isPositionAllowed cfg.orientation position = true) ∧
    ∀ exe pairs pairs', Reordered pairs pairs' → parseArgs (exe :: flatten pairs) = parseArgs (exe :: flatten pairs') := by
  refine ⟨fun cfg => ?_, fun cfg h => ?_, fun exe pairs pairs' h => h.parseArgs_eq exe⟩
  · rw [parseArgs_eq_ok]
    constructor
    · rintro ⟨hloop, hadmissible⟩
      obtain ⟨pairs, hpairs⟩ := pairs_of_parseArgsLoop hloop
      rw [hpairs, parseArgsLoop_flatten, foldl_apply] at hloop
      split at hloop
      · next hall =>
        exact ⟨pairs, pairs.filterMap readPair, hpairs, forall₂_denotes.mpr ⟨hall, rfl⟩, (Except.ok.inj hloop).symm,
          hadmissible⟩
      · cases hloop
    · rintro ⟨pairs, settings, hpairs, hdenotes, rfl, hadmissible⟩
      obtain ⟨hall, rfl⟩ := forall₂_denotes.mp hdenotes
      rw [hpairs, parseArgsLoop_flatten, foldl_apply, if_pos hall]
      exact ⟨rfl, hadmissible⟩
  · rcases resolvedPosition_cases cfg with ⟨position, hok, hallowed, -⟩ | ⟨-, p, hp, hbad⟩
    · exact ⟨position, hok, hallowed⟩
    · rw [(parseArgs_eq_ok.mp h).2.placed p hp] at hbad
      cases hbad

/-- The arguments of a vertical line at `position`, which stands before the orientation. -/
def verticalPairs (position : Position) : List (Bytes × Bytes) :=
  [(ascii "-type", ascii "battery"), (ascii "-position", position.text), (ascii "-orientation", ascii "vertical")]

/-- A vertical line stands at the right edge and not at the top one. -/
theorem vertical_top_refused :
    parseArgs (ascii "zlinestatus" :: flatten (verticalPairs .right)) =
      .ok ⟨ascii "battery", .vertical, .center, some .right⟩ ∧
    parseArgs (ascii "zlinestatus" :: flatten (verticalPairs .top)) = .error .invalidArgs ∧
    ∀ settings, List.Forall₂ Denotes (verticalPairs .top) settings → ¬Admissible (lastConfig settings) := by
  have hrefused : parseArgs (ascii "zlinestatus" :: flatten (verticalPairs .top)) = .error .invalidArgs := by rfl
  refine ⟨((parseArgs_grammar _).1 _).mpr ⟨verticalPairs .right,
    [.type (ascii "battery"), .position .right, .orientation .vertical], rfl, ?_, rfl, by decide, ?_⟩, hrefused, ?_⟩
  · exact .cons (.type _) (.cons (.position .right) (.cons (.orientation .vertical) .nil))
  · rintro position ⟨⟩
    rfl
  · intro settings hdenotes hadmissible
    have hok := ((parseArgs_grammar (ascii "zlinestatus" :: flatten (verticalPairs .top))).1 _).mpr
      ⟨verticalPairs .top, settings, rfl, hdenotes, rfl, hadmissible⟩
    rw [hrefused] at hok
    cases hok

end Zlinestatus
