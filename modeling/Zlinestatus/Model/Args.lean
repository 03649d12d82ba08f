import Zlinestatus.Model.Bytes

/-! The command line of `zlinestatus`. -/

namespace Zlinestatus

/-- The errors the functions of the renderer return, one constructor for each error name, and the
    panic of a failed safety check. -/
inductive Error where
  | invalidArgs
  | noXdgRuntimeDir
  | fileOpen
  | fileTooBig
  | nameTooLong
  | socket
  | connection
  | unknownObject
  | wlCompositorNotFound
  | wlShmNotFound
  | layerShellNotFound
  | surfaceClosed
  | poll
  | waylandConnectionClosed
  | frameTooLarge
  | panicked
  deriving DecidableEq

inductive Orientation where
  | horizontal
  | vertical
  deriving DecidableEq

inductive Alignment where
  | left
  | right
  | center
  deriving DecidableEq

inductive Position where
  | top
  | bottom
  | left
  | right
  deriving DecidableEq

/-- The command line as it was read. -/
structure Config where
  typeArg : Bytes
  orientation : Orientation := .horizontal
  alignment : Alignment := .center
  position : Option Position := none
  deriving DecidableEq

def isPositionAllowed (orientation : Orientation) (position : Position) : Bool :=
  match orientation with
  | .horizontal => position == .top || position == .bottom
  | .vertical => position == .left || position == .right

def Config.resolvedPosition (self : Config) : Except Error Position :=
  match self.position with
  | some position => if isPositionAllowed self.orientation position then .ok position else .error .invalidArgs
  | none =>
    match self.orientation, self.alignment with
    | .horizontal, _ => .ok .top
    | .vertical, .left => .ok .left
    | .vertical, .right => .ok .right
    | .vertical, .center => .ok .left

def parseOrientation (raw : Bytes) : Option Orientation :=
  if raw = ascii "horizontal" then some .horizontal
  else if raw = ascii "vertical" then some .vertical
  else none

def parseAlignment (raw : Bytes) : Option Alignment :=
  if raw = ascii "left" then some .left
  else if raw = ascii "right" then some .right
  else if raw = ascii "center" then some .center
  else none

def parsePosition (raw : Bytes) : Option Position :=
  if raw = ascii "top" then some .top
  else if raw = ascii "bottom" then some .bottom
  else if raw = ascii "left" then some .left
  else if raw = ascii "right" then some .right
  else none

/-- The loop of `parseArgs` over the arguments that are left. Every flag takes the next argument as its
    value, so an argument without a successor is an error, known flag or not. -/
def parseArgsLoop (cfg : Config) : List Bytes → Except Error Config
  | [] => .ok cfg
  | [_] => .error .invalidArgs
  | arg :: value :: rest =>
    if arg = ascii "-type" then parseArgsLoop { cfg with typeArg := value } rest
    else if arg = ascii "-orientation" then
      match parseOrientation value with
      | some orientation => parseArgsLoop { cfg with orientation := orientation } rest
      | none => .error .invalidArgs
    else if arg = ascii "-position" then
      match parsePosition value with
      | some position => parseArgsLoop { cfg with position := some position } rest
      | none => .error .invalidArgs
    else if arg = ascii "-alignment" ∨ arg = ascii "-align" then
      match parseAlignment value with
      | some alignment => parseArgsLoop { cfg with alignment := alignment } rest
      | none => .error .invalidArgs
    else .error .invalidArgs

def parseArgs (args : List Bytes) : Except Error Config :=
  match parseArgsLoop { typeArg := [] } (args.drop 1) with
  | .error e => .error e
  | .ok cfg =>
    if cfg.typeArg = [] then .error .invalidArgs
    else
      match cfg.resolvedPosition with
      | .error e => .error e
      | .ok _ => .ok cfg

end Zlinestatus
