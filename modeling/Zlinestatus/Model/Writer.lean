import Zlinestatus.Model.Wire

/-! The send buffers of the connection: how a message is written to them, and what the socket takes of them. -/

namespace Zlinestatus.Wire

/-- The buffered parts of the message writer and of the control messages, where the message begins that is being written,
    and what the socket has taken. -/
structure SendBuffers where
  message : Bytes := []
  messageStart : Option ℕ := none
  control : Bytes := []
  sent : Buffers := {}
  deriving DecidableEq

/-- How a call ends that does not return: it waits for the socket, it fails, or a safety check does. -/
inductive Halt where
  | waiting
  | writeFailed
  | panicked
  deriving DecidableEq

/-- The answers of `sendmsg` that are still to come: how many bytes it takes, or `none` where it fails. -/
abbrev Replies := List (Option ℕ)

/-- `control_send_buffer_size`; that of the message is `maxMessageSize`. -/
def controlBufferSize : ℕ := 1024

namespace SendBuffers

/-- `message_end` with its assertion: a message that is being written is not sent. -/
def messageEnd (buffers : SendBuffers) : Except Halt ℕ :=
  if buffers.messageStart.getD buffers.message.length ≤ buffers.message.length then
    .ok (buffers.messageStart.getD buffers.message.length)
  else .error .panicked

/-- `consume` moves what was not taken to the front, and `message_start` stays. The control messages go with the first
    byte. -/
def take (buffers : SendBuffers) (n : ℕ) : SendBuffers :=
  { buffers with
    message := buffers.message.drop n
    control := []
    sent := buffers.sent ++ ⟨buffers.message.take n, if n = 0 then [] else buffers.control⟩ }

/-- `flushSendBuffers`; `messageWriterDrain` is the same and takes no bytes of the data. -/
def flushSendBuffers (buffers : SendBuffers) (reply : Option ℕ) : Except Halt SendBuffers :=
  buffers.messageEnd.bind fun messageEnd =>
    match reply with
    | none => .error .writeFailed
    | some n => .ok (buffers.take (min n messageEnd))

/-- `writeAll` and `splatByteAll` of the message writer: it drains until the bytes fit. -/
def writeAll (bytes : Bytes) : SendBuffers → Replies → Except Halt (SendBuffers × Replies)
  | buffers, [] =>
    if buffers.message.length + bytes.length ≤ maxMessageSize then
      .ok ({ buffers with message := buffers.message ++ bytes }, [])
    else buffers.messageEnd.bind fun _ => .error .waiting
  | buffers, reply :: replies =>
    if buffers.message.length + bytes.length ≤ maxMessageSize then
      .ok ({ buffers with message := buffers.message ++ bytes }, reply :: replies)
    else (buffers.flushSendBuffers reply).bind fun buffers => writeAll bytes buffers replies

/-- `flush` of the message writer, which drains until nothing is buffered. -/
def flush : SendBuffers → Replies → Except Halt (SendBuffers × Replies)
  | buffers, [] =>
    if buffers.message = [] then .ok (buffers, []) else buffers.messageEnd.bind fun _ => .error .waiting
  | buffers, reply :: replies =>
    if buffers.message = [] then .ok (buffers, reply :: replies)
    else (buffers.flushSendBuffers reply).bind fun buffers => buffers.flush replies

def writeControlMessage (bytes : Bytes) (buffers : SendBuffers) (replies : Replies) :
    Except Halt (SendBuffers × Replies) :=
  if buffers.control.length + bytes.length ≤ controlBufferSize then
    .ok ({ buffers with control := buffers.control ++ bytes }, replies)
  else do
    let (buffers, replies) ← buffers.flush replies
    if buffers.control.length + bytes.length ≤ controlBufferSize then
      .ok ({ buffers with control := buffers.control ++ bytes }, replies)
    else .error .writeFailed

def write (buffers : SendBuffers) (replies : Replies) : Write → Except Halt (SendBuffers × Replies)
  | .message bytes => writeAll bytes buffers replies
  | .control bytes => writeControlMessage bytes buffers replies

/-- `begin`; the size in the header is undefined until `end`. -/
def beginMessage (undefined : UInt16) (object : Object) (opcode : UInt16) (buffers : SendBuffers) (replies : Replies) :
    Except Halt (SendBuffers × Replies) :=
  if buffers.messageStart.isSome then .error .panicked
  else writeAll (Header.mk object opcode undefined).bytes
    { buffers with messageStart := some buffers.message.length } replies

/-- The bytes with the size at its place in the header, from `start` on. -/
def setSize (bytes : Bytes) (start size : ℕ) : Bytes := bytes.take (start + 6) ++ Little.bytes 2 size ++ bytes.drop (start + 8)

/-- `end`; the size has to fit in 16 bits. -/
def endMessage (buffers : SendBuffers) : Except Halt SendBuffers :=
  match buffers.messageStart with
  | none => .error .panicked
  | some start =>
    if start % 4 = 0 ∧ start + headerSize ≤ buffers.message.length ∧ buffers.message.length - start < 2 ^ 16 then
      .ok { buffers with
        message := setSize buffers.message start (buffers.message.length - start)
        messageStart := none }
    else .error .panicked

def writeMessage (undefined : UInt16) (buffers : SendBuffers) (message : Message) (replies : Replies) :
    Except Halt (SendBuffers × Replies) := do
  let begun ← beginMessage undefined message.object message.opcode buffers replies
  let (written, replies) ← (writeStruct message.arguments).foldlM (fun s call => s.1.write s.2 call) begun
  let ended ← written.endMessage
  .ok (ended, replies)

end SendBuffers

/-- What a program does with its connection: it writes a message, or flushes the buffers, of which the socket takes `n`
    bytes at most. -/
inductive Output where
  | message (message : Message) (replies : Replies)
  | flush (n : ℕ)

namespace SendBuffers

def output (undefined : UInt16) (buffers : SendBuffers) : Output → Except Halt SendBuffers
  | .message message replies => (buffers.writeMessage undefined message replies).map Prod.fst
  | .flush n => buffers.flushSendBuffers (some n)

def outputAll (undefined : UInt16) (buffers : SendBuffers) (outputs : List Output) : Except Halt SendBuffers :=
  outputs.foldlM (output undefined) buffers

end SendBuffers

end Zlinestatus.Wire
