import Zlinestatus.Model.Args

/-! Colours, colour rules and the style file. -/

namespace Zlinestatus

/-- Four bytes, in the order in which they stand in memory. -/
structure Pixel where
  b0 : UInt8
  b1 : UInt8
  b2 : UInt8
  b3 : UInt8
  deriving DecidableEq

def transparent : Pixel := ⟨0x00, 0x00, 0x00, 0x00⟩

def opaqueWhite : Pixel := ⟨0xFF, 0xFF, 0xFF, 0xFF⟩

/-- The states that a line of the style file names, and its colour. -/
structure ColorRule where
  states : List Bytes
  color : Pixel
  deriving DecidableEq

/-- The default colour and the rules, in the order of the file. -/
structure StyleConfig where
  defaultColor : Pixel := opaqueWhite
  rules : List ColorRule := []
  deriving DecidableEq

/-! ### `std.fmt.parseInt` -/

def charToDigit (c : UInt8) (base : ℕ) : Option ℕ :=
  let value? :=
    if 0x30 ≤ c ∧ c ≤ 0x39 then some (c.toNat - 0x30)
    else if 0x41 ≤ c ∧ c ≤ 0x5A then some (c.toNat - 0x41 + 10)
    else if 0x61 ≤ c ∧ c ≤ 0x7A then some (c.toNat - 0x61 + 10)
    else none
  match value? with
  | some value => if value ≥ base then none else some value
  | none => none

/-- One round of the accumulation loop for u8; `none` is an invalid character or an overflow. -/
def parseIntStep (base : ℕ) (neg : Bool) (accumulate : ℕ) (c : UInt8) : Option ℕ :=
  if c = 0x5F then some accumulate
  else
    match charToDigit c base with
    | none => none
    | some digit =>
      if accumulate = 0 ∧ neg then (if digit = 0 then some 0 else none)
      else if accumulate * base > 255 then none
      else if neg then (if digit ≤ accumulate * base then some (accumulate * base - digit) else none)
      else if accumulate * base + digit > 255 then none
      else some (accumulate * base + digit)

def parseIntWithSign (buf : Bytes) (base : ℕ) (neg : Bool) : Option ℕ :=
  if buf = [] ∨ buf.head? = some 0x5F ∨ buf.getLast? = some 0x5F then none
  else buf.foldlM (parseIntStep base neg) 0

def parseInt (buf : Bytes) (base : ℕ) : Option UInt8 :=
  let parsed :=
    match buf with
    | 0x2B :: rest => parseIntWithSign rest base false
    | 0x2D :: rest => parseIntWithSign rest base true
    | _ => parseIntWithSign buf base false
  parsed.map UInt8.ofNat

/-! ### The style file -/

def slice (raw : Bytes) (start stop : ℕ) : Bytes := (raw.take stop).drop start

/-- Its caller skips the line on any error, so the errors are not told apart. -/
def parseHexColor (raw : Bytes) : Option Pixel :=
  if raw.length ≠ 7 ∧ raw.length ≠ 9 then none
  else if raw.head? ≠ some 0x23 then none
  else
    match parseInt (slice raw 1 3) 16, parseInt (slice raw 3 5) 16, parseInt (slice raw 5 7) 16,
      (if raw.length = 9 then parseInt (slice raw 7 9) 16 else some 0xFF) with
    | some r, some g, some b, some a => some ⟨r, g, b, a⟩
    | _, _, _, _ => none

/-- The first half of the loop body of `loadStyleConfig`: the key, the value and the colour of a line,
    or `none` for a line the loop skips before it looks at the key. -/
def styleLine (lineWithNl : Bytes) : Option (Bytes × Bytes × Pixel) :=
  let line := trim lineWithNl (ascii " \t\r")
  if line.length = 0 ∨ line.head? = some 0x23 then none
  else
    match indexOfScalar line 0x3D with
    | none => none
    | some eqIndex =>
      let key := trim (line.take eqIndex) (ascii " \t")
      let value := trim (line.drop (eqIndex + 1)) (ascii " \t")
      if key.length = 0 ∨ value.length = 0 then none
      else
        match parseHexColor value with
        | none => none
        | some color => some (key, value, color)

/-- The second half: a default colour, or a rule for the states the key names. -/
def applyLine (style : StyleConfig) (line : Bytes × Bytes × Pixel) : StyleConfig :=
  let (key, _, color) := line
  if key = ascii "default" ∨ key = ascii "default_color" then { style with defaultColor := color }
  else
    let states := (tokenizeAny key (ascii "+, ")).filter fun state => state.length ≠ 0
    if states.length = 0 then style else { style with rules := style.rules ++ [⟨states, color⟩] }

def loadLine (style : StyleConfig) (lineWithNl : Bytes) : StyleConfig :=
  match styleLine lineWithNl with
  | none => style
  | some line => applyLine style line

/-- What `loadStyleConfig` computes from the content of the file, every allocation succeeding. -/
def styleOfContent (content : Bytes) : StyleConfig := (content.splitOn 0x0A).foldl loadLine {}

/-- What opening and reading a file gives. -/
inductive FileResult where
  | fileNotFound
  | failed
  | content (bytes : Bytes)

/-- The process environment the renderer reads, in which the directories are absolute paths. -/
structure Environment where
  xdgRuntimeDir : Option Bytes
  xdgConfigHome : Option Bytes
  home : Option Bytes
  openFileAbsolute : Bytes → FileResult

def loadStyleConfig (env : Environment) (typeArg : Bytes) : Except Error StyleConfig :=
  match env.xdgConfigHome.or (env.home.map (· ++ ascii "/.config")) with
  | none => .ok {}
  | some configHome =>
    match env.openFileAbsolute (configHome ++ ascii "/zlinestatus/" ++ typeArg ++ ascii ".conf") with
    | .fileNotFound => .ok {}
    | .failed => .error .fileOpen
    | .content bytes => if bytes.length > 64 * 1024 then .error .fileTooBig else .ok (styleOfContent bytes)

/-! ### Colour rules -/

/-- The two inner loops of `pickColorForStates`: every required state is among the active ones. -/
def ruleMatches (rule : ColorRule) (activeStates : List Bytes) : Bool :=
  rule.states.all fun required => activeStates.any fun active => eqlIgnoreCase required active

/-- One round of the outer loop, on `best` and `best_specificity`. -/
def pickStep (activeStates : List Bytes) (acc : Pixel × ℕ) (rule : ColorRule) : Pixel × ℕ :=
  if rule.states.length = 0 then acc
  else if ruleMatches rule activeStates ∧ rule.states.length ≥ acc.2 then (rule.color, rule.states.length)
  else acc

def pickColorForStates (style : StyleConfig) (activeStates : List Bytes) : Pixel :=
  (style.rules.foldl (pickStep activeStates) (style.defaultColor, 0)).1

end Zlinestatus
