import Zlinestatus.Lib.Codec
import Zlinestatus.Lib.Little
import Zlinestatus.Model.Bytes

/-! The wire format: messages as bytes, and the file descriptors sent with them as control messages. -/

namespace Zlinestatus.Wire

/-! ### Values -/

abbrev Object := UInt32

def wlDisplay : Object := 1

/-- A string that `writeString` can count, with the zero behind it. -/
abbrev Text := { string : Bytes // string.length + 1 < 2 ^ 32 }

/-- A new id of any interface, as `wl_registry.bind` sends it. -/
structure NewId where
  interface : Text
  version : UInt32
  object : Object

/-- The types of a message's fields. `word` is one of `Uint`, `Int`, `Fixed`, an object, a typed new id or a
    packed struct, all of them 32 bits; `tag` is an enum that has the given values. -/
inductive Kind where
  | word
  | tag (values : List UInt32)
  | optionalObject
  | string
  | newId
  | fd
  deriving DecidableEq

def Kind.Value : Kind → Type
  | word => UInt32
  | tag values => { value : UInt32 // value ∈ values }
  | optionalObject => Option { object : Object // object ≠ 0 }
  | string => Text
  | newId => NewId
  | fd => UInt32

/-- The fields of a message with the given signature. -/
def Arguments : List Kind → Type
  | [] => Unit
  | kind :: signature => kind.Value × Arguments signature

/-! ### Writing -/

/-- One call on the connection's writer: bytes of the message, or a control message. -/
inductive Write where
  | message (bytes : Bytes)
  | control (bytes : Bytes)
  deriving DecidableEq

/-- The message and the control messages, as bytes. -/
structure Buffers where
  message : Bytes := []
  control : Bytes := []
  deriving DecidableEq

instance : Append Buffers := ⟨fun a b => ⟨a.message ++ b.message, a.control ++ b.control⟩⟩

def Write.buffers : Write → Buffers
  | message bytes => { message := bytes }
  | control bytes => { control := bytes }

/-- What a sequence of calls writes. -/
def gather (writes : List Write) : Buffers := writes.foldr (fun write buffers => write.buffers ++ buffers) {}

/-- `std.mem.alignForward` to the size of a word -/
def alignForward (n : ℕ) : ℕ := (n + 3) / 4 * 4

def writeUint (uint : UInt32) : List Write := [.message (Little.bytes 4 uint.toNat)]

def writeString (string : Text) : List Write :=
  let length := string.1.length
  [.message (Little.bytes 4 (length + 1)), .message string,
    .message (List.replicate (alignForward (length + 1) - length) 0)]

/-- The size of `cmsg(fd_t)`: a length of 8 bytes, three numbers of 4, and 4 bytes of padding. -/
def cmsgSize : ℕ := 24

def solSocket : ℕ := 1

def scmRights : ℕ := 1

def writeFd (fd : UInt32) : List Write :=
  [.control (Little.bytes 8 20 ++ Little.bytes 4 solSocket ++ Little.bytes 4 scmRights ++ Little.bytes 4 fd.toNat ++
    Little.bytes 4 0)]

def writeNewId (newId : NewId) : List Write :=
  writeString newId.interface ++ writeUint newId.version ++ writeUint newId.object

def Kind.write : (kind : Kind) → kind.Value → List Write
  | word => writeUint
  | tag _ => fun value => writeUint value.1
  | optionalObject => fun object => writeUint (object.elim 0 (·.1))
  | string => writeString
  | newId => writeNewId
  | fd => writeFd

def writeStruct : {signature : List Kind} → Arguments signature → List Write
  | [], _ => []
  | kind :: _, (value, arguments) => kind.write value ++ writeStruct arguments

/-! ### Headers -/

/-- `size_and_opcode` is one word; the size, in the upper half, counts the header. -/
structure Header where
  object : Object
  opcode : UInt16
  size : UInt16
  deriving DecidableEq

def headerSize : ℕ := 8

def Header.bytes (header : Header) : Bytes :=
  Little.bytes 4 header.object.toNat ++ Little.bytes 2 header.opcode.toNat ++ Little.bytes 2 header.size.toNat

def Header.ofBytes (bytes : Bytes) : Header :=
  ⟨.ofNat (Little.value (bytes.take 4)), .ofNat (Little.value ((bytes.drop 4).take 2)),
    .ofNat (Little.value ((bytes.drop 6).take 2))⟩

/-- A request or an event: the object it is for, its opcode, and its fields. -/
structure Message where
  object : Object
  opcode : UInt16
  signature : List Kind
  arguments : Arguments signature

def Message.payload (message : Message) : Buffers := gather (writeStruct message.arguments)

def Message.size (message : Message) : ℕ := headerSize + message.payload.message.length

/-- `MAX_MESSAGE_SIZE`: the size of a message is stored in 16 bits. -/
def maxMessageSize : ℕ := 65535

/-- What `begin`, `writeStruct` and `end` leave in empty buffers, for a message of at most `maxMessageSize` bytes. -/
def Message.buffers (message : Message) : Buffers :=
  { message := (Header.mk message.object message.opcode (.ofNat message.size)).bytes } ++ message.payload

/-! ### Reading -/

/-- `panicked` is a safety check of the readers; the others are the errors they return. -/
inductive DeserializeError where
  | invalidOpcode
  | unexpectedNullString
  | unexpectedEndOfMessage
  | unexpectedEndOfControlMessage
  | panicked
  deriving DecidableEq

/-- A reader on the rest of the buffers, from its index on. -/
abbrev Reader := StateT Buffers (Except DeserializeError)

def readUint : Reader UInt32 := fun buffers =>
  if buffers.message.length < 4 then .error .unexpectedEndOfMessage
  else .ok (.ofNat (Little.value (buffers.message.take 4)), { buffers with message := buffers.message.drop 4 })

/-- The bytes up to the zero, of a string of `length` bytes with the zero: the slice `[0 .. len - 1 :0]` checks
    that the zero is there. -/
def readText (length : UInt32) : Reader (Option Text) := fun buffers =>
  if alignForward length.toNat > buffers.message.length then .error .unexpectedEndOfMessage
  else if buffers.message[length.toNat - 1]? ≠ some 0 then .error .panicked
  else .ok (some ⟨buffers.message.take (length.toNat - 1), by
      have := length.toNat_lt
      rw [List.length_take]
      omega⟩,
    { buffers with message := buffers.message.drop (alignForward length.toNat) })

def readString : Reader (Option Text) := do
  let length ← readUint
  if length = 0 then pure none else readText length

/-- A field of type `String`. -/
def readRequired : Reader Text := do
  match ← readString with
  | some string => pure string
  | none => throw .unexpectedNullString

/-- What `writeNewId` writes. The library does not read such a field. -/
def readNewId : Reader NewId := do
  let interface ← readRequired
  let version ← readUint
  let object ← readUint
  pure ⟨interface, version, object⟩

/-- Whether a control message of `cmsgSize` bytes carries a file descriptor. -/
def carriesFd (cmsg : Bytes) : Bool :=
  Little.value ((cmsg.drop 8).take 4) = solSocket && Little.value ((cmsg.drop 12).take 4) = scmRights

/-- The loop of `readFd`: control messages of another kind are skipped. -/
def findFd (control : Bytes) : Except DeserializeError (UInt32 × Bytes) :=
  if _h : control.length < cmsgSize then .error .unexpectedEndOfControlMessage
  else if carriesFd (control.take cmsgSize) then
    .ok (.ofNat (Little.value ((control.drop 16).take 4)), control.drop cmsgSize)
  else findFd (control.drop cmsgSize)
  termination_by control.length
  decreasing_by
    rw [List.length_drop]
    unfold cmsgSize at *
    omega

def readFd : Reader UInt32 := fun buffers =>
  (findFd buffers.control).map fun (fd, control) => (fd, { buffers with control := control })

/-- `@enumFromInt` checks that the enum has the value. -/
def readTag (values : List UInt32) : Reader { value : UInt32 // value ∈ values } := do
  let value ← readUint
  if h : value ∈ values then pure ⟨value, h⟩ else throw .panicked

def readOptionalObject : Reader (Option { object : Object // object ≠ 0 }) := do
  let uint ← readUint
  if h : uint = 0 then pure none else pure (some ⟨uint, h⟩)

def Kind.read : (kind : Kind) → Reader kind.Value
  | word => readUint
  | tag values => readTag values
  | optionalObject => readOptionalObject
  | string => readRequired
  | newId => readNewId
  | fd => readFd

def deserializeArguments : (signature : List Kind) → Reader (Arguments signature)
  | [] => pure ()
  | kind :: signature => do
    let value ← kind.read
    let arguments ← deserializeArguments signature
    pure (value, arguments)

/-- A message of an interface whose messages have the given signatures, in the order of their opcodes. -/
abbrev Incoming (signatures : List (List Kind)) := (opcode : Fin signatures.length) × Arguments (signatures.get opcode)

/-- The fields of the message that the opcode names. -/
def deserializePayload (signatures : List (List Kind)) (opcode : UInt16) : Reader (Incoming signatures) := fun buffers =>
  if h : opcode.toNat < signatures.length then
    (deserializeArguments (signatures.get ⟨opcode.toNat, h⟩) buffers).map fun (arguments, buffers) =>
      (⟨⟨opcode.toNat, h⟩, arguments⟩, buffers)
  else .error .invalidOpcode

/-- The index moves to the end of the fields that were read, wherever the size in the header says the message ends. -/
def deserialize (signatures : List (List Kind)) : Reader (Incoming signatures) := fun buffers =>
  if buffers.message.length < headerSize then .error .panicked
  else if (Header.ofBytes buffers.message).size.toNat > buffers.message.length then .error .unexpectedEndOfMessage
  else deserializePayload signatures (Header.ofBytes buffers.message).opcode
    { buffers with message := buffers.message.drop headerSize }

end Zlinestatus.Wire
