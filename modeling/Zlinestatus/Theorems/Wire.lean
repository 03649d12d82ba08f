import Mathlib.Tactic.Cases
import Zlinestatus.Model.Wire

/-! What is written of a message is read back, whatever its signature, and what is accepted. -/

namespace Zlinestatus.Wire
open Codec

/-! ### Buffers -/

section
variable {a b c : Buffers}

@[ext] theorem Buffers.ext_of (hmessage : a.message = b.message) (hcontrol : a.control = b.control) : a = b := by
  cases a
  cases b
  cases hmessage
  cases hcontrol
  rfl

@[simp] theorem Buffers.message_append : (a ++ b).message = a.message ++ b.message := rfl

@[simp] theorem Buffers.control_append : (a ++ b).control = a.control ++ b.control := rfl

theorem Buffers.append_assoc (a b c : Buffers) : a ++ b ++ c = a ++ (b ++ c) :=
  Buffers.ext_of (List.append_assoc _ _ _) (List.append_assoc _ _ _)

@[simp] theorem Buffers.append_empty : a ++ ({} : Buffers) = a :=
  Buffers.ext_of (List.append_nil _) (List.append_nil _)

theorem gather_append (writes more : List Write) : gather (writes ++ more) = gather writes ++ gather more := by
  induction writes with
  | nil => rfl
  | cons write writes ih =>
    change write.buffers ++ gather (writes ++ more) = write.buffers ++ gather writes ++ gather more
    rw [ih, Buffers.append_assoc]

end

/-! ### Words and strings -/

theorem le_alignForward (n : ℕ) : n ≤ alignForward n := by
  unfold alignForward
  omega

theorem alignForward_mod (n : ℕ) : alignForward n % 4 = 0 := Nat.mul_mod_left _ 4

theorem message_writeUint (uint : UInt32) : (gather (writeUint uint)).message = Little.bytes 4 uint.toNat :=
  List.append_nil _

theorem value_uint (uint : UInt32) : UInt32.ofNat (Little.value (Little.bytes 4 uint.toNat)) = uint := by
  rw [Little.value_bytes uint.toNat_lt, UInt32.ofNat_toNat]

theorem reads_uint : Reads (fun uint => gather (writeUint uint)) readUint := by
  intro uint rest
  have hlen : ¬((gather (writeUint uint)) ++ rest).message.length < 4 := by
    rw [Buffers.message_append, List.length_append, message_writeUint, Little.length_bytes]
    omega
  rw [readUint, if_neg hlen, Buffers.message_append, message_writeUint, List.take_left' (Little.length_bytes 4 _),
    List.drop_left' (Little.length_bytes 4 _), value_uint]
  rfl

theorem reads_readText (string : Text) (rest : Buffers) :
    readText (.ofNat (string.1.length + 1))
      (⟨string.1 ++ List.replicate (alignForward (string.1.length + 1) - string.1.length) 0, []⟩ ++ rest) =
    .ok (some string, rest) := by
  obtain ⟨string, hstring⟩ := string
  have hnat : (UInt32.ofNat (string.length + 1)).toNat = string.length + 1 := UInt32.toNat_ofNat_of_lt' hstring
  have hle := le_alignForward (string.length + 1)
  have hpadded : (string ++ List.replicate (alignForward (string.length + 1) - string.length) (0 : UInt8)).length =
      alignForward (string.length + 1) := by
    rw [List.length_append, List.length_replicate]
    omega
  have hzero : (string ++ List.replicate (alignForward (string.length + 1) - string.length) (0 : UInt8) ++
      rest.message)[string.length]? = some 0 := by
    rw [List.append_assoc, List.getElem?_append_right (le_refl _), Nat.sub_self,
      List.getElem?_append_left (by rw [List.length_replicate]; omega), List.getElem?_replicate_of_lt (by omega)]
  simp only [readText, hnat, Buffers.message_append, Nat.add_sub_cancel]
  rw [if_neg (by rw [List.length_append, hpadded]; omega), if_neg (not_not.mpr hzero)]
  have htake : (string ++ List.replicate (alignForward (string.length + 1) - string.length) (0 : UInt8) ++
      rest.message).take string.length = string := by
    rw [List.append_assoc, List.take_left' rfl]
  simp only [htake, List.drop_left' hpadded]
  rfl

theorem reads_string : Reads (fun string => gather (writeString string)) readRequired := by
  intro string rest
  have hsplit : gather (writeString string) ++ rest = gather (writeUint (.ofNat (string.1.length + 1))) ++
      (⟨string.1 ++ List.replicate (alignForward (string.1.length + 1) - string.1.length) 0, []⟩ ++ rest) := by
    refine Buffers.ext_of ?_ rfl
    simp only [Buffers.message_append, message_writeUint, UInt32.toNat_ofNat_of_lt' string.2]
    simp [gather, writeString, Write.buffers]
  have hne : UInt32.ofNat (string.1.length + 1) ≠ 0 := by
    intro h
    have := congrArg UInt32.toNat h
    rw [UInt32.toNat_ofNat_of_lt' string.2] at this
    exact absurd this (Nat.succ_ne_zero _)
  have hread : readString (gather (writeString string) ++ rest) = .ok (some string, rest) := by
    rw [hsplit, readString, reads_uint.bind, if_neg hne, reads_readText]
  rw [readRequired, bind_of_ok hread]
  rfl

theorem reads_newId : Reads (fun newId => gather (writeNewId newId)) readNewId := by
  intro newId rest
  change readNewId (gather (writeNewId newId) ++ rest) = _
  rw [writeNewId, gather_append, gather_append, Buffers.append_assoc, Buffers.append_assoc, readNewId,
    reads_string.bind, reads_uint.bind, reads_uint.bind]
  rfl

theorem reads_fd : Reads (fun fd => gather (writeFd fd)) readFd := by
  intro fd rest
  have hcontrol : (gather (writeFd fd)).control.length = cmsgSize := rfl
  have hfind : findFd (gather (writeFd fd) ++ rest).control = .ok (fd, rest.control) := by
    rw [findFd, dif_neg (by rw [Buffers.control_append, List.length_append, hcontrol]; omega), Buffers.control_append,
      List.take_left' hcontrol, List.drop_left' hcontrol, if_pos (by rfl)]
    have hvalue : (((gather (writeFd fd)).control ++ rest.control).drop 16).take 4 = Little.bytes 4 fd.toNat := rfl
    rw [hvalue, value_uint]
  rw [readFd, hfind]
  rfl

theorem reads_tag (values : List UInt32) :
    Reads (fun value : { value // value ∈ values } => gather (writeUint value.1)) (readTag values) := by
  intro value rest
  rw [readTag, reads_uint.bind, dif_pos value.2]
  rfl

theorem reads_optionalObject :
    Reads (fun object : Option { object : Object // object ≠ 0 } => gather (writeUint (object.elim 0 (·.1))))
      readOptionalObject := by
  intro object rest
  rw [readOptionalObject, reads_uint.bind]
  cases object with
  | none => rfl
  | some object => exact congrFun (dif_neg object.2) rest

/-! ### Messages -/

theorem reads_kind (kind : Kind) : Reads (fun value => gather (kind.write value)) kind.read := by
  cases kind with
  | word => exact reads_uint
  | tag values => exact reads_tag values
  | optionalObject => exact reads_optionalObject
  | string => exact reads_string
  | newId => exact reads_newId
  | fd => exact reads_fd

theorem reads_arguments (signature : List Kind) :
    Reads (fun arguments : Arguments signature => gather (writeStruct arguments)) (deserializeArguments signature) := by
  induction signature with
  | nil => exact fun _ _ => rfl
  | cons kind signature ih =>
    intro arguments rest
    obtain ⟨value, arguments⟩ := arguments
    change deserializeArguments (kind :: signature) (gather (kind.write value ++ writeStruct arguments) ++ rest) = _
    rw [gather_append]
    exact (reads_kind kind).pair ih Buffers.append_assoc (value, arguments) rest

theorem Header.ofBytes_append (header : Header) (rest : Bytes) : Header.ofBytes (header.bytes ++ rest) = header := by
  obtain ⟨object, opcode, size⟩ := header
  have hobject : ((Header.mk object opcode size).bytes ++ rest).take 4 = Little.bytes 4 object.toNat := rfl
  have hopcode : (((Header.mk object opcode size).bytes ++ rest).drop 4).take 2 = Little.bytes 2 opcode.toNat := rfl
  have hsize : (((Header.mk object opcode size).bytes ++ rest).drop 6).take 2 = Little.bytes 2 size.toNat := rfl
  rw [Header.ofBytes, hobject, hopcode, hsize, value_uint, Little.value_bytes opcode.toNat_lt,
    Little.value_bytes size.toNat_lt, UInt16.ofNat_toNat, UInt16.ofNat_toNat]

@[simp] theorem Header.length_bytes (header : Header) : header.bytes.length = headerSize := rfl

theorem Message.length_buffers (message : Message) : message.buffers.message.length = message.size := by
  rw [Message.buffers, Buffers.message_append, List.length_append, Header.length_bytes]
  rfl

/-- The header of a message that was sent names its object, its opcode and its size. -/
theorem Message.header (message : Message) (rest : Bytes) : Header.ofBytes (message.buffers.message ++ rest) =
    ⟨message.object, message.opcode, .ofNat message.size⟩ := by
  rw [Message.buffers, Buffers.message_append, List.append_assoc]
  exact Header.ofBytes_append _ _

section
variable {signatures : List (List Kind)} {opcode : Fin signatures.length}

theorem reads_payload (hopcode : opcode.1 < 2 ^ 16) (arguments : Arguments (signatures.get opcode)) (rest : Buffers) :
    deserializePayload signatures (.ofNat opcode) (gather (writeStruct arguments) ++ rest) =
      .ok (⟨opcode, arguments⟩, rest) := by
  have hop : (UInt16.ofNat opcode).toNat = opcode := UInt16.toNat_ofNat_of_lt' hopcode
  have hfields : ∀ (op : ℕ) (hlt : op < signatures.length), op = opcode →
      (deserializeArguments (signatures.get ⟨op, hlt⟩) (gather (writeStruct arguments) ++ rest)).map
        (fun (arguments, buffers) => (⟨⟨op, hlt⟩, arguments⟩, buffers)) =
      .ok ((⟨opcode, arguments⟩ : Incoming signatures), rest) := by
    intro op hlt heq
    cases heq
    exact congrArg (Except.map _) (reads_arguments _ arguments rest)
  have hlt : (UInt16.ofNat opcode).toNat < signatures.length := by
    rw [hop]
    exact opcode.2
  rw [deserializePayload, dif_pos hlt]
  exact hfields _ hlt hop

/-- A message of an interface, whatever the fields of its signature: it is read back, and nothing behind it. -/
theorem deserialize_buffers (object : Object) (arguments : Arguments (signatures.get opcode))
    (hopcode : opcode.1 < 2 ^ 16) (hsize : (Message.mk object (.ofNat opcode) _ arguments).size ≤ maxMessageSize)
    (rest : Buffers) : deserialize signatures ((Message.mk object (.ofNat opcode) _ arguments).buffers ++ rest) =
      .ok (⟨opcode, arguments⟩, rest) := by
  have hlength : ((Message.mk object (.ofNat opcode) _ arguments).buffers ++ rest).message.length =
      (Message.mk object (.ofNat opcode) _ arguments).size + rest.message.length := by
    rw [Buffers.message_append, List.length_append, Message.length_buffers]
  have hheader := Message.header ⟨object, .ofNat opcode, _, arguments⟩ rest.message
  rw [← Buffers.message_append] at hheader
  have hsmall : ¬((Message.mk object (.ofNat opcode) _ arguments).buffers ++ rest).message.length < headerSize := by
    rw [hlength, Message.size, Nat.add_assoc]
    exact not_lt.mpr (Nat.le_add_right _ _)
  rw [deserialize, if_neg hsmall, hheader, if_neg]
  · exact reads_payload hopcode arguments rest
  · rw [hlength, UInt16.toNat_ofNat_of_lt' (Nat.lt_succ_of_le hsize)]
    exact not_lt.mpr (Nat.le_add_right _ _)

end

/-! ### Sizes -/

theorem length_writeString (string : Text) :
    (gather (writeString string)).message.length = 4 + alignForward (string.1.length + 1) := by
  have := le_alignForward (string.1.length + 1)
  simp only [gather, writeString, Write.buffers, List.foldr_cons, List.foldr_nil, Buffers.message_append,
    List.length_append, Little.length_bytes, List.length_replicate, List.length_nil]
  omega

theorem alignForward_of_mod {n : ℕ} (h : n % 4 = 0) : alignForward n = n := by
  unfold alignForward
  omega

theorem writeUint_mod (uint : UInt32) : (gather (writeUint uint)).message.length % 4 = 0 := by
  rw [message_writeUint, Little.length_bytes]

theorem writeString_mod (string : Text) : (gather (writeString string)).message.length % 4 = 0 := by
  rw [length_writeString, Nat.add_mod, alignForward_mod]

theorem writeNewId_mod (newId : NewId) : (gather (writeNewId newId)).message.length % 4 = 0 := by
  rw [writeNewId, gather_append, gather_append]
  simp only [Buffers.message_append, List.length_append]
  rw [Nat.add_mod, Nat.add_mod (gather (writeString newId.interface)).message.length, writeString_mod, writeUint_mod,
    writeUint_mod]

theorem write_mod (kind : Kind) (value : kind.Value) : (gather (kind.write value)).message.length % 4 = 0 := by
  cases kind with
  | word => exact writeUint_mod value
  | tag values => exact writeUint_mod _
  | optionalObject => exact writeUint_mod _
  | string => exact writeString_mod value
  | newId => exact writeNewId_mod value
  | fd => rfl

/-- Every message takes whole words. -/
theorem Message.size_mod (message : Message) : message.size % 4 = 0 := by
  have hpayload : ∀ {signature : List Kind} (arguments : Arguments signature),
      (gather (writeStruct arguments)).message.length % 4 = 0 := by
    intro signature arguments
    induction signature with
    | nil => rfl
    | cons kind signature ih =>
      obtain ⟨value, arguments⟩ := arguments
      change (gather (kind.write value ++ writeStruct arguments)).message.length % 4 = 0
      rw [gather_append, Buffers.message_append, List.length_append, Nat.add_mod, write_mod, ih]
  rw [Message.size, Nat.add_mod, Message.payload, hpayload]
  rfl

theorem Header.ofBytes_prefix {part : Bytes} (hlong : headerSize ≤ part.length) (rest : Bytes) :
    Header.ofBytes (part ++ rest) = Header.ofBytes part := by
  unfold headerSize at hlong
  unfold Header.ofBytes
  rw [List.take_append_of_le_length (by omega), List.drop_append_of_le_length (by omega),
    List.drop_append_of_le_length (by omega), List.take_append_of_le_length (by rw [List.length_drop]; omega),
    List.take_append_of_le_length (by rw [List.length_drop]; omega)]

theorem Message.headerSize_le (message : Message) : headerSize ≤ message.size := Nat.le_add_right _ _

/-! ### What is accepted -/

/-- From `buffers` to `rest`, `n` bytes of the message were taken, and any control messages. -/
structure Takes (buffers rest : Buffers) (n : ℕ) : Prop where
  message : ∃ taken : Bytes, taken.length = n ∧ buffers.message = taken ++ rest.message
  control : rest.control <:+ buffers.control

section
variable {buffers between rest : Buffers} {n m : ℕ}

theorem Takes.refl (buffers : Buffers) : Takes buffers buffers 0 := ⟨⟨[], rfl, rfl⟩, List.suffix_refl _⟩

theorem Takes.trans (h : Takes buffers between n) (h' : Takes between rest m) : Takes buffers rest (n + m) := by
  obtain ⟨⟨taken, rfl, heq⟩, hcontrol⟩ := h
  obtain ⟨⟨taken', rfl, heq'⟩, hcontrol'⟩ := h'
  refine ⟨⟨taken ++ taken', List.length_append, ?_⟩, hcontrol'.trans hcontrol⟩
  rw [heq, heq', List.append_assoc]

theorem takes_drop (h : n ≤ buffers.message.length) :
    Takes buffers { buffers with message := buffers.message.drop n } n :=
  ⟨⟨buffers.message.take n, List.length_take_of_le h, (List.take_append_drop n _).symm⟩, List.suffix_refl _⟩

theorem readUint_takes {uint : UInt32} (h : readUint buffers = .ok (uint, rest)) : Takes buffers rest 4 := by
  unfold readUint at h
  split at h
  · cases h
  · next hlen =>
    cases h
    exact takes_drop (not_lt.mp hlen)

theorem readText_takes {length : UInt32} (hne : length ≠ 0) {string : Option Text}
    (h : readText length buffers = .ok (string, rest)) :
    ∃ text, string = some text ∧ length.toNat = text.1.length + 1 ∧ Takes buffers rest (alignForward length.toNat) := by
  have hpos : 0 < length.toNat := Nat.pos_of_ne_zero fun hzero => hne (UInt32.toNat_inj.mp hzero)
  have hle := le_alignForward length.toNat
  unfold readText at h
  split at h
  · cases h
  · next hlen =>
    split at h
    · cases h
    · cases h
      refine ⟨_, rfl, ?_, takes_drop (not_lt.mp hlen)⟩
      rw [List.length_take]
      omega

theorem readRequired_takes {string : Text} (h : readRequired buffers = .ok (string, rest)) :
    Takes buffers rest (gather (writeString string)).message.length := by
  rw [length_writeString]
  obtain ⟨text, between, hstring, hnext⟩ := bind_eq_ok.mp h
  obtain ⟨length, start, hlength, htext⟩ := bind_eq_ok.mp hstring
  split at htext
  · cases htext
    cases hnext
  · next hne =>
    obtain ⟨string', rfl, heq, htakes⟩ := readText_takes hne htext
    cases hnext
    rw [← heq]
    exact (readUint_takes hlength).trans htakes

theorem findFd_suffix {control : Bytes} {fd : UInt32} {control' : Bytes} (h : findFd control = .ok (fd, control')) :
    control' <:+ control := by
  induction control using findFd.induct with
  | case1 control hlen =>
    rw [findFd, dif_pos hlen] at h
    cases h
  | case2 control hlen hfd =>
    rw [findFd, dif_neg hlen, if_pos hfd] at h
    cases h
    exact List.drop_suffix _ _
  | case3 control hlen hfd ih =>
    rw [findFd, dif_neg hlen, if_neg hfd] at h
    exact (ih h).trans (List.drop_suffix _ _)

theorem readNewId_takes {newId : NewId} (h : readNewId buffers = .ok (newId, rest)) :
    Takes buffers rest (gather (writeNewId newId)).message.length := by
  obtain ⟨interface, b₁, hinterface, hnext⟩ := bind_eq_ok.mp h
  obtain ⟨version, b₂, hversion, hnext⟩ := bind_eq_ok.mp hnext
  obtain ⟨object, b₃, hobject, hnext⟩ := bind_eq_ok.mp hnext
  cases hnext
  rw [writeNewId, gather_append, gather_append]
  simp only [Buffers.message_append, List.length_append, message_writeUint, Little.length_bytes]
  exact ((readRequired_takes hinterface).trans (readUint_takes hversion)).trans (readUint_takes hobject)

theorem readFd_takes {fd : UInt32} (h : readFd buffers = .ok (fd, rest)) : Takes buffers rest 0 := by
  change (findFd buffers.control).map _ = _ at h
  cases hfind : findFd buffers.control with
  | error e =>
    rw [hfind] at h
    cases h
  | ok found =>
    rw [hfind] at h
    cases h
    exact ⟨⟨[], rfl, rfl⟩, findFd_suffix hfind⟩

theorem read_takes (kind : Kind) {value : kind.Value} (h : kind.read buffers = .ok (value, rest)) :
    Takes buffers rest (gather (kind.write value)).message.length := by
  cases kind with
  | word => exact readUint_takes h
  | tag values =>
    obtain ⟨uint, between, huint, hnext⟩ := bind_eq_ok.mp h
    split at hnext
    · cases hnext
      exact readUint_takes huint
    · cases hnext
  | optionalObject =>
    obtain ⟨uint, between, huint, hnext⟩ := bind_eq_ok.mp h
    split at hnext
    · cases hnext
      exact readUint_takes huint
    · cases hnext
      exact readUint_takes huint
  | string => exact readRequired_takes h
  | newId => exact readNewId_takes h
  | fd => exact readFd_takes h

theorem deserializeArguments_takes (signature : List Kind) {arguments : Arguments signature}
    (h : deserializeArguments signature buffers = .ok (arguments, rest)) :
    Takes buffers rest (gather (writeStruct arguments)).message.length := by
  induction signature generalizing buffers with
  | nil =>
    cases h
    exact Takes.refl _
  | cons kind signature ih =>
    obtain ⟨value, between, hvalue, hnext⟩ := bind_eq_ok.mp h
    obtain ⟨arguments', end', harguments, hnext⟩ := bind_eq_ok.mp hnext
    cases hnext
    change Takes buffers rest (gather (kind.write value ++ writeStruct arguments')).message.length
    rw [gather_append, Buffers.message_append, List.length_append]
    exact (read_takes kind hvalue).trans (ih harguments)

/-- Whatever bytes come in, a message that is accepted has an opcode of the interface, and it takes as many bytes as
    its fields take when they are written, header included: none past the end of the buffer. -/
theorem deserialize_takes {signatures : List (List Kind)} {message : Incoming signatures}
    (h : deserialize signatures buffers = .ok (message, rest)) :
    (Header.ofBytes buffers.message).opcode = .ofNat message.1 ∧ Takes buffers rest
      (Message.mk (Header.ofBytes buffers.message).object (.ofNat message.1) _ message.2).size := by
  unfold deserialize at h
  split at h
  · cases h
  · next hlen =>
    split at h
    · cases h
    · unfold deserializePayload at h
      split at h
      · next hop =>
        cases hfields : deserializeArguments (signatures.get ⟨_, hop⟩)
            { buffers with message := buffers.message.drop headerSize } with
        | error e =>
          rw [hfields] at h
          cases h
        | ok read =>
          rw [hfields] at h
          cases h
          exact ⟨UInt16.ofNat_toNat.symm, (takes_drop (not_lt.mp hlen)).trans (deserializeArguments_takes _ hfields)⟩
      · cases h

/-- `done` of the callback 3 with the number 7, and a byte that is not taken. -/
theorem done_takes : ∃ (message : Incoming [[.word]]) (rest : Buffers),
    deserialize [[.word]] { message := [3, 0, 0, 0, 0, 0, 12, 0, 7, 0, 0, 0, 99] } = .ok (message, rest) ∧
    rest.message = [99] ∧ message.1.1 = 0 ∧
    Takes { message := [3, 0, 0, 0, 0, 0, 12, 0, 7, 0, 0, 0, 99] } rest (Message.mk 3 (.ofNat message.1) _ message.2).size := by
  have hok : deserialize [[.word]] { message := [3, 0, 0, 0, 0, 0, 12, 0, 7, 0, 0, 0, 99] } =
      .ok (⟨⟨0, by decide⟩, ((7 : UInt32), ())⟩, { message := [99] }) := rfl
  obtain ⟨-, htakes⟩ := deserialize_takes hok
  exact ⟨_, _, hok, rfl, rfl, htakes⟩

end

end Zlinestatus.Wire
