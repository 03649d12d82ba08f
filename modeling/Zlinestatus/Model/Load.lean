import Zlinestatus.Lib.Alloc
import Zlinestatus.Model.Style

/-! `loadStyleConfig` with its allocator: who owns which block, and what is given back where a call fails.
    A loop returns its lists also where it fails, for the `errdefer` blocks around it. -/

namespace Zlinestatus.Owned
open Alloc

/-- A copy made by `dupe`. -/
structure Str where
  block : ℕ
  bytes : Bytes
  deriving DecidableEq

/-- A rule with the blocks of its states. -/
structure ColorRule where
  states : Buffer Str
  color : Pixel
  deriving DecidableEq

/-- A style with the blocks of its rules. -/
structure StyleConfig where
  defaultColor : Pixel := opaqueWhite
  rules : Buffer ColorRule := {}
  deriving DecidableEq

/-- The errors of `loadStyleConfig`. -/
inductive LoadError where
  | outOfMemory
  | file (error : Error)
  deriving DecidableEq

/-! ### Giving back -/

def freeStates (l : Ledger) (states : List Str) : Ledger := states.foldl (fun l state => l.free state.block) l

def freeRules (l : Ledger) (rules : List ColorRule) : Ledger :=
  rules.foldl (fun l rule => rule.states.release (freeStates l rule.states.items)) l

def freeStyleConfig (l : Ledger) (style : StyleConfig) : Ledger :=
  if style.rules.items.length = 0 then l else style.rules.release (freeRules l style.rules.items)

/-- The inner `errdefer` block. -/
def dropStates (l : Ledger) (statesList : Buffer Str) : Ledger := statesList.release (freeStates l statesList.items)

/-- The outer `errdefer` block. -/
def dropRules (l : Ledger) (rules : Buffer ColorRule) : Ledger := rules.release (freeRules l rules.items)

/-! ### Loading -/

section
variable (replies : ℕ → Reply)

/-- The loop over the states of a key; false where a call failed. -/
def dupeStates (l : Ledger) (statesList : Buffer Str) : List Bytes → Ledger × Buffer Str × Bool
  | [] => (l, statesList, true)
  | state :: stateIt =>
    if state.length = 0 then dupeStates l statesList stateIt
    else
      match alloc replies l with
      | (l, none) => (l, statesList, false)
      | (l, some dup) =>
        match statesList.append replies l ⟨dup, state⟩ with
        | (l, none) => (l, statesList, false)
        | (l, some statesList) => dupeStates l statesList stateIt

/-- The end of the loop body: a rule for the states the key names. -/
def loadRule (l : Ledger) (rules : Buffer ColorRule) (key : Bytes) (color : Pixel) : Ledger × Buffer ColorRule × Bool :=
  match dupeStates replies l {} (tokenizeAny key (ascii "+, ")) with
  | (l, statesList, false) => (dropStates l statesList, rules, false)
  | (l, statesList, true) =>
    if statesList.items.length = 0 then (l, rules, true)
    else
      match statesList.toOwnedSlice replies l with
      | (l, statesList, none) => (dropStates l statesList, rules, false)
      | (l, statesList, some states) =>
        match rules.append replies l ⟨states, color⟩ with
        | (l, none) => (dropStates l statesList, rules, false)
        | (l, some rules) => (l, rules, true)

def loadLines (l : Ledger) (defaultColor : Pixel) (rules : Buffer ColorRule) :
    List Bytes → Ledger × Pixel × Buffer ColorRule × Bool
  | [] => (l, defaultColor, rules, true)
  | lineWithNl :: lines =>
    match styleLine lineWithNl with
    | none => loadLines l defaultColor rules lines
    | some (key, _, color) =>
      if key = ascii "default" ∨ key = ascii "default_color" then loadLines l color rules lines
      else
        match loadRule replies l rules key color with
        | (l, rules, false) => (l, defaultColor, rules, false)
        | (l, rules, true) => loadLines l defaultColor rules lines

/-- `loadStyleConfig` behind the reading of the file. -/
def loadContent (l : Ledger) (content : Bytes) : Ledger × Except LoadError StyleConfig :=
  match loadLines replies l opaqueWhite {} (content.splitOn 0x0A) with
  | (l, _, rules, false) => (dropRules l rules, .error .outOfMemory)
  | (l, defaultColor, rules, true) =>
    match rules.toOwnedSlice replies l with
    | (l, rules, none) => (dropRules l rules, .error .outOfMemory)
    | (l, _, some rules) => (l, .ok ⟨defaultColor, rules⟩)

/-- `file.readToEndAlloc`, which leaves nothing allocated where it fails. -/
def readToEndAlloc (l : Ledger) (bytes : Bytes) : Ledger × Except LoadError ℕ :=
  match alloc replies l with
  | (l, none) => (l, .error .outOfMemory)
  | (l, some content) =>
    if bytes.length > 64 * 1024 then (l.free content, .error (.file .fileTooBig)) else (l, .ok content)

/-- `loadStyleConfig` behind the choice of the directory. -/
def loadFrom (l : Ledger) (env : Environment) (typeArg configHome : Bytes) : Ledger × Except LoadError StyleConfig :=
  match alloc replies l with
  | (l, none) => (l, .error .outOfMemory)
  | (l, some path) =>
    match env.openFileAbsolute (configHome ++ ascii "/zlinestatus/" ++ typeArg ++ ascii ".conf") with
    | .fileNotFound => (l.free path, .ok {})
    | .failed => (l.free path, .error (.file .fileOpen))
    | .content bytes =>
      match readToEndAlloc replies l bytes with
      | (l, .error e) => (l.free path, .error e)
      | (l, .ok content) =>
        match loadContent replies l bytes with
        | (l, result) => ((l.free content).free path, result)

def loadStyleConfig (l : Ledger) (env : Environment) (typeArg : Bytes) : Ledger × Except LoadError StyleConfig :=
  match env.xdgConfigHome with
  | some configHome => loadFrom replies l env typeArg configHome
  | none =>
    match env.home with
    | none => (l, .ok {})
    | some home =>
      match alloc replies l with
      | (l, none) => (l, .error .outOfMemory)
      | (l, some configHome) =>
        match loadFrom replies l env typeArg (home ++ ascii "/.config") with
        | (l, result) => (l.free configHome, result)

end

/-! ### The calls of a load -/

/-- The calls of the allocator. -/
inductive Call where
  | allocPrint
  | readToEndAlloc
  | dupe
  | append
  | toOwnedSlice
  deriving DecidableEq

/-- The calls for a rule, where none fails. -/
def ruleCalls (key : Bytes) : List Call :=
  if tokenizeAny key (ascii "+, ") = [] then []
  else (tokenizeAny key (ascii "+, ")).flatMap (fun _ => [.dupe, .append]) ++ [.toOwnedSlice, .append]

/-- The calls for a line, where none fails. -/
def lineCalls (lineWithNl : Bytes) : List Call :=
  match styleLine lineWithNl with
  | none => []
  | some (key, _, _) => if key = ascii "default" ∨ key = ascii "default_color" then [] else ruleCalls key

/-- The calls for these lines, where none fails. -/
def linesCalls (lines : List Bytes) : List Call := lines.flatMap lineCalls

/-- The slice of the rules takes a block if there is a rule, and then a line made a call. -/
def contentCalls (content : Bytes) : List Call :=
  linesCalls (content.splitOn 0x0A) ++ if linesCalls (content.splitOn 0x0A) = [] then [] else [.toOwnedSlice]

/-- The calls for the file, where none fails. -/
def fileCalls (env : Environment) (typeArg configHome : Bytes) : List Call :=
  .allocPrint ::
    match env.openFileAbsolute (configHome ++ ascii "/zlinestatus/" ++ typeArg ++ ascii ".conf") with
    | .fileNotFound => []
    | .failed => []
    | .content bytes => .readToEndAlloc :: if bytes.length > 64 * 1024 then [] else contentCalls bytes

/-- The calls to the allocator that a load makes as long as none of them fails. -/
def loadCalls (env : Environment) (typeArg : Bytes) : List Call :=
  match env.xdgConfigHome with
  | some configHome => fileCalls env typeArg configHome
  | none =>
    match env.home with
    | none => []
    | some home => .allocPrint :: fileCalls env typeArg (home ++ ascii "/.config")

end Zlinestatus.Owned
