import Zlinestatus.Lib.Run
import Zlinestatus.Model.Writer
import Zlinestatus.Theorems.Wire

/-! What is written to the send buffers is what the socket takes, in whatever pieces, and what the other side reads. -/

namespace Zlinestatus.Wire
open Run

/-! ### One message -/

section
variable {buffers : SendBuffers} {replies : Replies} {undefined : UInt16} {message : Message}

/-- With these bytes behind those that are buffered. -/
def SendBuffers.behind (buffers : SendBuffers) (more : Buffers) : SendBuffers :=
  { buffers with message := buffers.message ++ more.message, control := buffers.control ++ more.control }

/-- There is room for these bytes. -/
structure SendBuffers.HasRoom (buffers : SendBuffers) (more : Buffers) : Prop where
  message : buffers.message.length + more.message.length ≤ maxMessageSize
  control : buffers.control.length + more.control.length ≤ controlBufferSize

theorem writeAll_of_room {bytes : Bytes} (h : buffers.message.length + bytes.length ≤ maxMessageSize) :
    SendBuffers.writeAll bytes buffers replies = .ok ({ buffers with message := buffers.message ++ bytes }, replies) := by
  cases replies <;> rw [SendBuffers.writeAll, if_pos h]

theorem write_of_room {call : Write} (h : buffers.HasRoom call.buffers) :
    buffers.write replies call = .ok (buffers.behind call.buffers, replies) := by
  cases call with
  | message bytes =>
    refine (writeAll_of_room h.message).trans ?_
    rw [SendBuffers.behind, Write.buffers, List.append_nil]
  | control bytes =>
    refine (if_pos h.control).trans ?_
    rw [SendBuffers.behind, Write.buffers, List.append_nil]

theorem SendBuffers.HasRoom.append (more more' : Buffers) (h : buffers.HasRoom (more ++ more')) :
    buffers.HasRoom more ∧ (buffers.behind more).HasRoom more' := by
  obtain ⟨hmessage, hcontrol⟩ := h
  rw [Buffers.message_append, List.length_append] at hmessage
  rw [Buffers.control_append, List.length_append] at hcontrol
  refine ⟨⟨by omega, by omega⟩, ⟨?_, ?_⟩⟩ <;>
  · simp only [SendBuffers.behind, List.length_append]
    omega

theorem behind_append (buffers : SendBuffers) (more more' : Buffers) :
    (buffers.behind more).behind more' = buffers.behind (more ++ more') := by
  simp only [SendBuffers.behind, Buffers.message_append, Buffers.control_append, List.append_assoc]

theorem writes_of_room (replies : Replies) {calls : List Write} (h : buffers.HasRoom (gather calls)) :
    calls.foldlM (fun (s : SendBuffers × Replies) call => s.1.write s.2 call) (buffers, replies) =
      .ok (buffers.behind (gather calls), replies) := by
  induction calls generalizing buffers with
  | nil =>
    simp only [SendBuffers.behind, gather, List.foldr_nil, List.append_nil]
    rfl
  | cons call calls ih =>
    obtain ⟨hcall, hcalls⟩ := SendBuffers.HasRoom.append call.buffers (gather calls) h
    refine bind_eq_ok.mpr ⟨_, write_of_room hcall, ?_⟩
    refine (ih hcalls).trans ?_
    rw [behind_append]
    rfl

theorem setSize_append (before payload : Bytes) (header : Header) {size : ℕ} (hsize : size < 2 ^ 16) :
    SendBuffers.setSize (before ++ (header.bytes ++ payload)) before.length size =
      before ++ ((Header.mk header.object header.opcode (.ofNat size)).bytes ++ payload) := by
  have htake : (header.bytes ++ payload).take 6 = Little.bytes 4 header.object.toNat ++ Little.bytes 2 header.opcode.toNat := by
    rw [Header.bytes, List.append_assoc]
    exact List.take_left' rfl
  have hdrop : (header.bytes ++ payload).drop 8 = payload := List.drop_left' rfl
  rw [SendBuffers.setSize, List.take_length_add_append, List.drop_length_add_append, htake, hdrop, Header.bytes,
    UInt16.toNat_ofNat_of_lt' hsize]
  simp only [List.append_assoc]

theorem beginMessage_of_room (undefined : UInt16) (object : Object) (opcode : UInt16) (replies : Replies)
    (hstart : buffers.messageStart = none) (h : buffers.message.length + headerSize ≤ maxMessageSize) :
    SendBuffers.beginMessage undefined object opcode buffers replies = .ok ({ buffers with
      message := buffers.message ++ (Header.mk object opcode undefined).bytes
      messageStart := some buffers.message.length }, replies) := by
  rw [SendBuffers.beginMessage, hstart]
  exact writeAll_of_room (by rw [Header.length_bytes]; exact h)

theorem endMessage_of_begun {before payload : Bytes} {header : Header} (hstart : buffers.messageStart = some before.length)
    (hmessage : buffers.message = before ++ (header.bytes ++ payload)) (hsize : headerSize + payload.length ≤ maxMessageSize) :
    buffers.endMessage = if before.length % 4 = 0 then .ok { buffers with
      message := before ++ ((Header.mk header.object header.opcode (.ofNat (headerSize + payload.length))).bytes ++ payload)
      messageStart := none } else .error .panicked := by
  have hlength : buffers.message.length = before.length + (headerSize + payload.length) := by
    rw [hmessage, List.length_append, List.length_append, Header.length_bytes]
  have hsub : buffers.message.length - before.length = headerSize + payload.length := by
    rw [hlength, Nat.add_sub_cancel_left]
  have hlt : headerSize + payload.length < 2 ^ 16 := Nat.lt_succ_of_le hsize
  have hlong : before.length + headerSize ≤ buffers.message.length := by
    rw [hlength, ← Nat.add_assoc]
    exact Nat.le_add_right _ _
  rw [SendBuffers.endMessage, hstart]
  simp only [hsub, hlong, hlt, and_true]
  split
  · rw [hmessage, setSize_append _ _ _ hlt]
  · rfl

/-- A message for which there is room is in the buffers, behind what was there, where that ends with a whole word. -/
theorem writeMessage_of_room (undefined : UInt16) (replies : Replies) (hstart : buffers.messageStart = none)
    (h : buffers.HasRoom message.buffers) : buffers.writeMessage undefined message replies =
      if buffers.message.length % 4 = 0 then .ok (buffers.behind message.buffers, replies) else .error .panicked := by
  obtain ⟨hmessage, hcontrol⟩ := h
  rw [message.length_buffers, Message.size, ← Nat.add_assoc] at hmessage
  obtain ⟨object, opcode, signature, arguments⟩ := message
  have hbegin := beginMessage_of_room undefined object opcode replies hstart ((Nat.le_add_right _ _).trans hmessage)
  have hroom : ({ buffers with
      message := buffers.message ++ (Header.mk object opcode undefined).bytes
      messageStart := some buffers.message.length } : SendBuffers).HasRoom (gather (writeStruct arguments)) := by
    refine ⟨?_, hcontrol⟩
    rw [List.length_append, Header.length_bytes]
    exact hmessage
  have hwrites := writes_of_room replies hroom
  have hsize : headerSize + (gather (writeStruct arguments)).message.length ≤ maxMessageSize := by
    rw [Nat.add_assoc] at hmessage
    exact (Nat.le_add_left _ _).trans hmessage
  have hend : (SendBuffers.behind { buffers with
      message := buffers.message ++ (Header.mk object opcode undefined).bytes
      messageStart := some buffers.message.length } (gather (writeStruct arguments))).endMessage = _ :=
    endMessage_of_begun rfl (List.append_assoc ..) hsize
  rw [SendBuffers.writeMessage, hbegin]
  simp only [bind, Except.bind, hwrites, hend]
  by_cases hwhole : buffers.message.length % 4 = 0
  · rw [if_pos hwhole, if_pos hwhole]
    simp only [SendBuffers.behind, Message.buffers, Buffers.message_append, Buffers.control_append, Message.size,
      Message.payload, List.nil_append, ← hstart]
  · rw [if_neg hwhole, if_neg hwhole]

/-! ### Messages and flushes -/

/-- What is not sent yet. -/
def SendBuffers.pending (buffers : SendBuffers) : Buffers := ⟨buffers.message, buffers.control⟩

/-- There is room for each message when it is written, and the socket takes something of what it is given, where `n` bytes
    of messages and `c` bytes of control messages are buffered. -/
def Roomy : ℕ → ℕ → List Output → Prop
  | _, _, [] => True
  | n, c, .message message _ :: outputs =>
    n + message.size ≤ maxMessageSize ∧ c + message.payload.control.length ≤ controlBufferSize ∧
      Roomy (n + message.size) (c + message.payload.control.length) outputs
  | n, _, .flush taken :: outputs => (0 < n → 0 < taken) ∧ Roomy (n - taken) 0 outputs

/-- Each message is written behind whole words, where `n` bytes are buffered. -/
def WholeWords : ℕ → List Output → Prop
  | _, [] => True
  | n, .message message _ :: outputs => n % 4 = 0 ∧ WholeWords (n + message.size) outputs
  | n, .flush taken :: outputs => WholeWords (n - taken) outputs

def Output.stream : Output → Buffers
  | .message message _ => message.buffers
  | .flush _ => {}

/-- What was written, flushed or not. -/
def streamOf (outputs : List Output) : Buffers := outputs.foldr (fun output rest => output.stream ++ rest) {}

theorem flush_of_idle (hstart : buffers.messageStart = none) (n : ℕ) :
    buffers.flushSendBuffers (some n) = .ok (buffers.take (min n buffers.message.length)) := by
  have hend : buffers.messageEnd = .ok buffers.message.length := by
    rw [SendBuffers.messageEnd, hstart]
    exact if_pos (le_refl _)
  rw [SendBuffers.flushSendBuffers, hend]
  rfl

/-- What the socket takes is not pending any more, and nothing else changes. -/
theorem sent_take {n : ℕ} (hcontrol : n = 0 → buffers.control = []) :
    (buffers.take n).sent ++ (buffers.take n).pending = buffers.sent ++ buffers.pending := by
  rw [SendBuffers.take, SendBuffers.pending, SendBuffers.pending, Buffers.append_assoc]
  refine congrArg (buffers.sent ++ ·) (Buffers.ext_of (List.take_append_drop ..) ?_)
  rw [Buffers.control_append, List.append_nil]
  split
  · next hzero => exact (hcontrol hzero).symm
  · rfl

/-- No message is being written, and there are no control messages without one. -/
structure SendBuffers.Idle (buffers : SendBuffers) : Prop where
  messageStart : buffers.messageStart = none
  control : buffers.message = [] → buffers.control = []

theorem output_flush (undefined : UInt16) (hidle : buffers.Idle) {taken : ℕ} (htaken : 0 < buffers.message.length → 0 < taken) :
    ∃ buffers', buffers.output undefined (.flush taken) = .ok buffers' ∧ buffers'.Idle ∧
      buffers'.sent ++ buffers'.pending = buffers.sent ++ buffers.pending ∧
      buffers'.message.length = buffers.message.length - taken ∧ buffers'.control = [] := by
  have hzero : min taken buffers.message.length = 0 → buffers.control = [] := fun hzero => hidle.control <| by
    rcases Nat.eq_zero_or_pos buffers.message.length with hnil | hpos
    · exact List.length_eq_zero_iff.mp hnil
    · have := htaken hpos
      omega
  refine ⟨_, flush_of_idle hidle.messageStart taken, ⟨hidle.messageStart, fun _ => rfl⟩, sent_take hzero, ?_, rfl⟩
  rw [SendBuffers.take, List.length_drop]
  omega

theorem output_message (undefined : UInt16) (hidle : buffers.Idle) (replies : Replies) (h : buffers.HasRoom message.buffers) :
    buffers.output undefined (.message message replies) =
      (if buffers.message.length % 4 = 0 then .ok (buffers.behind message.buffers) else .error .panicked) ∧
    (buffers.behind message.buffers).Idle ∧
    (buffers.behind message.buffers).message.length = buffers.message.length + message.size := by
  have hlength : (buffers.behind message.buffers).message.length = buffers.message.length + message.size := by
    rw [SendBuffers.behind, List.length_append, message.length_buffers]
  refine ⟨?_, ⟨hidle.messageStart, fun hnil => ?_⟩, hlength⟩
  · rw [SendBuffers.output, writeMessage_of_room undefined replies hidle.messageStart h]
    exact (apply_ite (Except.map Prod.fst) _ _ _)
  · rw [hnil, Message.size] at hlength
    change 0 = _ + (8 + _) at hlength
    omega

/-- What was written and is not sent is pending, whole and in order; and a message behind a part of a word is refused. -/
theorem outputAll_eq (undefined : UInt16) {outputs : List Output} (hidle : buffers.Idle)
    (hroom : Roomy buffers.message.length buffers.control.length outputs) :
    (WholeWords buffers.message.length outputs → ∃ buffers', buffers.outputAll undefined outputs = .ok buffers' ∧
      buffers'.sent ++ buffers'.pending = buffers.sent ++ buffers.pending ++ streamOf outputs) ∧
    (¬WholeWords buffers.message.length outputs → buffers.outputAll undefined outputs = .error .panicked) := by
  induction outputs generalizing buffers with
  | nil => exact ⟨fun _ => ⟨buffers, rfl, (Buffers.append_empty ..).symm⟩, fun h => (h trivial).elim⟩
  | cons output outputs ih =>
    cases output with
    | message message replies =>
      obtain ⟨hmessage, hcontrol, hrest⟩ := hroom
      obtain ⟨houtput, hidle', hlength⟩ := output_message undefined hidle replies
        ⟨by rw [message.length_buffers]; exact hmessage, hcontrol⟩
      have hcontrol' : (buffers.behind message.buffers).control.length =
          buffers.control.length + message.payload.control.length := List.length_append
      rw [← hlength, ← hcontrol'] at hrest
      obtain ⟨hok, herror⟩ := ih hidle' hrest
      by_cases hwhole : buffers.message.length % 4 = 0
      · rw [if_pos hwhole] at houtput
        have hall : buffers.outputAll undefined (.message message replies :: outputs) =
            (buffers.behind message.buffers).outputAll undefined outputs := by
          rw [SendBuffers.outputAll, List.foldlM_cons, houtput]
          rfl
        rw [hall, WholeWords, ← hlength]
        refine ⟨fun h => ?_, fun h => herror fun h' => h ⟨hwhole, h'⟩⟩
        obtain ⟨buffers', hbuffers', hstream⟩ := hok h.2
        refine ⟨buffers', hbuffers', hstream.trans ?_⟩
        change buffers.sent ++ (buffers.pending ++ message.buffers) ++ _ = _ ++ (message.buffers ++ streamOf outputs)
        simp only [Buffers.append_assoc]
      · rw [if_neg hwhole] at houtput
        refine ⟨fun h => (hwhole h.1).elim, fun _ => ?_⟩
        rw [SendBuffers.outputAll, List.foldlM_cons, houtput]
        rfl
    | flush taken =>
      obtain ⟨htaken, hrest⟩ := hroom
      obtain ⟨buffers₁, houtput, hidle', hsent, hlength, hnil⟩ := output_flush undefined hidle htaken
      have hall : buffers.outputAll undefined (.flush taken :: outputs) = buffers₁.outputAll undefined outputs := by
        rw [SendBuffers.outputAll, List.foldlM_cons, houtput]
        rfl
      have hrest' : Roomy buffers₁.message.length buffers₁.control.length outputs := by
        rw [hlength, hnil]
        exact hrest
      obtain ⟨hok, herror⟩ := ih hidle' hrest'
      rw [hall, WholeWords, ← hlength]
      refine ⟨fun h => ?_, herror⟩
      obtain ⟨buffers', hbuffers', hstream⟩ := hok h
      refine ⟨buffers', hbuffers', hstream.trans ?_⟩
      rw [hsent]
      rfl

end

/-! ### Messages without a flush -/

section
variable {messages : List Message} {n c : ℕ}

def messageOutputs (messages : List Message) : List Output := messages.map fun message => .message message []

theorem roomy_messages (hmessage : n + (messages.map Message.size).sum ≤ maxMessageSize)
    (hcontrol : c + (messages.map fun message => message.payload.control.length).sum ≤ controlBufferSize) :
    Roomy n c (messageOutputs messages) := by
  induction messages generalizing n c with
  | nil => trivial
  | cons message messages ih =>
    rw [List.map_cons, List.sum_cons, ← Nat.add_assoc] at hmessage hcontrol
    exact ⟨(Nat.le_add_right _ _).trans hmessage, (Nat.le_add_right _ _).trans hcontrol, ih hmessage hcontrol⟩

theorem wholeWords_messages (h : n % 4 = 0) : WholeWords n (messageOutputs messages) := by
  induction messages generalizing n with
  | nil => trivial
  | cons message messages ih =>
    refine ⟨h, ih ?_⟩
    rw [Nat.add_mod, h, message.size_mod]

/-- Where there is room for all of them the messages are pending, one behind the other. -/
theorem outputAll_messages (undefined : UInt16) (hmessage : (messages.map Message.size).sum ≤ maxMessageSize)
    (hcontrol : (messages.map fun message => message.payload.control.length).sum ≤ controlBufferSize) :
    ∃ buffers, ({} : SendBuffers).outputAll undefined (messageOutputs messages) = .ok buffers ∧
      buffers.sent ++ buffers.pending = streamOf (messageOutputs messages) := by
  have hidle : ({} : SendBuffers).Idle := ⟨rfl, fun _ => rfl⟩
  exact (outputAll_eq undefined hidle (roomy_messages (by simpa using hmessage) (by simpa using hcontrol))).1
    (wholeWords_messages rfl)

end

/-! ### The other side -/

/-- A message of an interface, with the signatures of the interface. -/
structure Typed where
  signatures : List (List Kind)
  object : Object
  incoming : Incoming signatures

def Typed.message (typed : Typed) : Message := ⟨typed.object, .ofNat typed.incoming.1, _, typed.incoming.2⟩

/-- One message after the other, each of an object of the interface with these signatures. -/
def deserializeEach : List (List (List Kind)) → Reader (List (Σ signatures, Incoming signatures))
  | [] => pure []
  | signatures :: interfaces => do
    let incoming ← deserialize signatures
    let more ← deserializeEach interfaces
    pure (⟨signatures, incoming⟩ :: more)

theorem deserializeEach_messages {messages : List Typed}
    (hmessages : ∀ typed ∈ messages, typed.incoming.1.1 < 2 ^ 16 ∧ typed.message.size ≤ maxMessageSize) (rest : Buffers) :
    deserializeEach (messages.map (·.signatures))
        (messages.foldr (fun typed rest => typed.message.buffers ++ rest) {} ++ rest) =
      .ok (messages.map fun typed => ⟨typed.signatures, typed.incoming⟩, rest) := by
  induction messages with
  | nil => rfl
  | cons typed messages ih =>
    obtain ⟨⟨hopcode, hsize⟩, hmessages⟩ := List.forall_mem_cons.mp hmessages
    rw [List.foldr_cons, Buffers.append_assoc]
    refine (Codec.bind_of_ok (deserialize_buffers typed.object typed.incoming.2 hopcode hsize _)).trans ?_
    refine (Codec.bind_of_ok (ih hmessages)).trans ?_
    rfl

/-- The messages among what a program does. -/
def messagesOf (outputs : List Output) : List Message :=
  outputs.filterMap fun
    | .message message _ => some message
    | .flush _ => none

theorem streamOf_messages (outputs : List Output) :
    streamOf outputs = (messagesOf outputs).foldr (fun message rest => message.buffers ++ rest) {} := by
  induction outputs with
  | nil => rfl
  | cons output outputs ih =>
    cases output with
    | message message replies => exact congrArg (message.buffers ++ ·) ih
    | flush taken => exact ih

theorem Roomy.size_le {outputs : List Output} {n c : ℕ} (h : Roomy n c outputs) :
    ∀ message ∈ messagesOf outputs, message.size ≤ maxMessageSize := by
  induction outputs generalizing n c with
  | nil => exact fun _ hmem => by cases hmem
  | cons output outputs ih =>
    cases output with
    | message message replies =>
      exact List.forall_mem_cons.mpr ⟨(Nat.le_add_left _ _).trans h.1, ih h.2.2⟩
    | flush taken => exact ih h.2

/-- Messages are written and the buffers flushed, in any order and in whatever pieces the socket takes. What was sent and
    what is pending is read as the same messages, with their file descriptors, where there is room for each message and it
    begins at a whole word; at a message that does not, the program panics. -/
theorem outputs_deserialized {outputs : List Output} {messages : List Typed}
    (hmessages : messagesOf outputs = messages.map Typed.message) (hopcodes : ∀ typed ∈ messages, typed.incoming.1.1 < 2 ^ 16)
    (hroom : Roomy 0 0 outputs) (undefined : UInt16) :
    (WholeWords 0 outputs → ∃ buffers, ({} : SendBuffers).outputAll undefined outputs = .ok buffers ∧
      deserializeEach (messages.map (·.signatures)) (buffers.sent ++ buffers.pending) =
        .ok (messages.map fun typed => ⟨typed.signatures, typed.incoming⟩, {})) ∧
    (¬WholeWords 0 outputs → ({} : SendBuffers).outputAll undefined outputs = .error .panicked) := by
  have hidle : ({} : SendBuffers).Idle := ⟨rfl, fun _ => rfl⟩
  obtain ⟨hok, herror⟩ := outputAll_eq undefined hidle hroom
  refine ⟨fun hwhole => ?_, herror⟩
  obtain ⟨buffers, hbuffers, hstream⟩ := hok hwhole
  have hread := deserializeEach_messages (fun typed hmem => ⟨hopcodes typed hmem,
    hroom.size_le _ (hmessages ▸ List.mem_map_of_mem hmem)⟩) {}
  refine ⟨buffers, hbuffers, ?_⟩
  rw [hstream, streamOf_messages, hmessages, List.foldr_map, ← hread, Buffers.append_empty]
  rfl

/-- `create_pool` of `wl_shm`, with the file descriptor 3. -/
def createPool : Typed := ⟨[[.word, .fd, .word]], 5, ⟨⟨0, by decide⟩, ((8 : UInt32), (3 : UInt32), (4096 : UInt32), ())⟩⟩

/-- `sync` of `wl_display`. -/
def sync : Typed := ⟨[[.word]], wlDisplay, ⟨⟨0, by decide⟩, ((9 : UInt32), ())⟩⟩

/-- The socket takes some bytes of the first message before the second one is written. -/
def poolOutputs (taken : ℕ) : List Output := [.message createPool.message [], .flush taken, .message sync.message []]

theorem poolOutputs_deserialized :
    (∃ buffers, ({} : SendBuffers).outputAll 0xAAAA (poolOutputs 4) = .ok buffers ∧
      deserializeEach [createPool.signatures, sync.signatures] (buffers.sent ++ buffers.pending) =
        .ok ([⟨_, createPool.incoming⟩, ⟨_, sync.incoming⟩], {})) ∧
    ({} : SendBuffers).outputAll 0xAAAA (poolOutputs 5) = .error .panicked := by
  have hmessages : ∀ taken, messagesOf (poolOutputs taken) = [createPool, sync].map Typed.message := fun _ => rfl
  have hopcodes : ∀ typed ∈ [createPool, sync], typed.incoming.1.1 < 2 ^ 16 := by decide
  have hroom : Roomy 0 0 (poolOutputs 4) ∧ Roomy 0 0 (poolOutputs 5) :=
    ⟨⟨by decide, by decide, by decide, by decide, by decide, trivial⟩,
      ⟨by decide, by decide, by decide, by decide, by decide, trivial⟩⟩
  have hwhole : WholeWords 0 (poolOutputs 4) := ⟨rfl, rfl, trivial⟩
  have hpart : ¬WholeWords 0 (poolOutputs 5) := fun h => absurd h.2.1 (by decide)
  exact ⟨(outputs_deserialized (hmessages 4) hopcodes hroom.1 0xAAAA).1 hwhole,
    (outputs_deserialized (hmessages 5) hopcodes hroom.2 0xAAAA).2 hpart⟩

end Zlinestatus.Wire
