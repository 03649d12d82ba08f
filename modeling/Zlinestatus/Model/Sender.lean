import Zlinestatus.Model.Main

/-! `zsendvalue`, from its arguments to the bytes it sends. -/

namespace Zlinestatus.Sender

inductive Error where
  | invalidArgs
  /-- what `parseFloat` says of the percentage -/
  | invalidCharacter
  | noXdgRuntimeDir
  | socket
  | nameTooLong
  | connect
  | send
  deriving DecidableEq

/-- What the process starts with, and how its calls end; `connectOk` is whether someone listens at a path. -/
structure Startup where
  args : List Bytes
  xdgRuntimeDir : Option Bytes
  socketOk : Bool := true
  connectOk : Bytes → Bool
  sendOk : Bool := true

/-- What was sent, and where. -/
structure Sent where
  socketPath : Bytes
  msg : Bytes
  deriving DecidableEq

/-- What follows the check of the arguments; `print` is what `{d}` writes. -/
def send (parseFloat : Bytes → Option F32) (print : F32 → Bytes) (startup : Startup) (typeArg percentageStr : Bytes)
    (states : List Bytes) : Except Error Sent :=
  match parseFloat percentageStr with
  | none => .error .invalidCharacter
  | some percentage =>
    match startup.xdgRuntimeDir with
    | none => .error .noXdgRuntimeDir
    | some xdgRuntimeDir =>
      if !startup.socketOk then .error .socket
      else if (socketPath xdgRuntimeDir typeArg).length ≥ 108 then .error .nameTooLong
      else if !startup.connectOk (socketPath xdgRuntimeDir typeArg) then .error .connect
      else if !startup.sendOk then .error .send
      else .ok ⟨socketPath xdgRuntimeDir typeArg, sentMessage (print percentage) states⟩

def main (parseFloat : Bytes → Option F32) (print : F32 → Bytes) (startup : Startup) : Except Error Sent :=
  match startup.args with
  | _ :: flag :: typeArg :: percentageStr :: states =>
    if flag = ascii "-type" then send parseFloat print startup typeArg percentageStr states else .error .invalidArgs
  | _ => .error .invalidArgs

end Zlinestatus.Sender
