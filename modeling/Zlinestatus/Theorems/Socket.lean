import Zlinestatus.Model.Socket
import Zlinestatus.Theorems.Interleaving
import Zlinestatus.Theorems.Writer

/-! What `recv` makes of the compositor's bytes, in whatever pieces they come. -/

namespace Zlinestatus.Wayland
open Run
open Wire

/-! ### Messages -/

section
variable {renderer renderer' : Renderer} {o : Object} {event : Event} {message : Message} {rest : Bytes}

theorem deserialize_message {signatures : List (List Kind)} {incoming : Incoming signatures}
    (hopcodes : signatures.length ≤ 2 ^ 16) (hmessage : message = ⟨o, .ofNat incoming.1, _, incoming.2⟩)
    (hsize : message.size ≤ maxMessageSize) (buffers : Buffers) :
    deserialize signatures (message.buffers ++ buffers) = .ok (incoming, buffers) := by
  subst hmessage
  exact deserialize_buffers o incoming.2 (Nat.lt_of_lt_of_le incoming.1.2 hopcodes) hsize buffers

theorem listened_event {listener : Listener} (h : renderer.listen o listener event = .ok renderer') :
    ∃ incoming : Incoming listener.signatures, listener.event incoming = event ∧
      event.message o = ⟨o, .ofNat incoming.1, _, incoming.2⟩ := by
  cases listener with
  | registry =>
    cases event with
    | global name interface version => exact ⟨⟨⟨0, by decide⟩, (name, interface, version, ())⟩, rfl, rfl⟩
    | globalRemove name => exact ⟨⟨⟨1, by decide⟩, (name, ())⟩, rfl, rfl⟩
    | _ => cases h
  | callback =>
    cases event with
    | done callbackData => exact ⟨⟨⟨0, by decide⟩, (callbackData, ())⟩, rfl, rfl⟩
    | _ => cases h
  | layerSurface =>
    cases event with
    | layerSurface event =>
      cases event with
      | configure serial width height => exact ⟨⟨⟨0, by decide⟩, (serial, width, height, ())⟩, rfl, rfl⟩
      | closed => exact ⟨⟨⟨1, by decide⟩, ()⟩, rfl, rfl⟩
    | _ => cases h
  | buffer =>
    cases event with
    | release => exact ⟨⟨⟨0, by decide⟩, ()⟩, rfl, rfl⟩
    | _ => cases h

theorem display_event (h : renderer.onDisplayEvent event = .ok renderer') :
    ∃ incoming : Incoming displaySignatures, displayEvent incoming = event ∧
      event.message o = ⟨o, .ofNat incoming.1, _, incoming.2⟩ := by
  cases event with
  | error culprit code message => exact ⟨⟨⟨0, by decide⟩, (culprit, code, message, ())⟩, rfl, rfl⟩
  | deleteId id => exact ⟨⟨⟨1, by decide⟩, (id, ())⟩, rfl, rfl⟩
  | _ => cases h

theorem Listener.opcodes (listener : Listener) : listener.signatures.length ≤ 2 ^ 16 := by cases listener <;> decide

theorem Event.control (o : Object) (event : Event) : (event.message o).buffers.control = [] := by
  cases event with
  | layerSurface event => cases event <;> rfl
  | _ => rfl

theorem Event.object (o : Object) (event : Event) : (event.message o).object = o := by
  cases event with
  | layerSurface event => cases event <;> rfl
  | _ => rfl

theorem Event.buffers (o : Object) (event : Event) (rest : Bytes) :
    ({ message := (event.message o).buffers.message ++ rest } : Buffers) =
      (event.message o).buffers ++ { message := rest } := by
  refine Buffers.ext_of rfl ?_
  rw [Buffers.control_append, event.control o]
  rfl

/-! ### One message -/

theorem skip_message (renderer : Renderer) (message : Message) (rest : Bytes) :
    renderer.skip (message.buffers.message ++ rest) message.size = .ok (renderer, rest) := by
  rw [Renderer.skip, alignForward_of_mod message.size_mod, if_pos, List.drop_left' message.length_buffers]
  rw [List.length_append, message.length_buffers]
  exact Nat.le_add_right _ _

theorem dispatchMessage_handle (h : renderer.handle o event = .ok renderer')
    (hsize : (event.message o).size ≤ maxMessageSize) (rest : Bytes) :
    renderer.dispatchMessage ((event.message o).buffers.message ++ rest) = some (.ok (renderer', rest)) := by
  have hheader := Message.header (event.message o) rest
  have hlength : ((event.message o).buffers.message ++ rest).length = (event.message o).size + rest.length := by
    rw [List.length_append, Message.length_buffers]
  have hnat : (UInt16.ofNat (event.message o).size).toNat = (event.message o).size :=
    UInt16.toNat_ofNat_of_lt' (Nat.lt_succ_of_le hsize)
  have hshort : ¬((event.message o).buffers.message ++ rest).length < headerSize := by
    rw [hlength]
    exact not_lt.mpr (Nat.le_add_right_of_le (Message.headerSize_le _))
  have hwhole : ¬((event.message o).buffers.message ++ rest).length < (event.message o).size := by
    rw [hlength]
    exact not_lt.mpr (Nat.le_add_right _ _)
  unfold Renderer.dispatchMessage
  simp only [hheader, hnat, event.object o]
  rw [if_neg hshort, if_neg hwhole, List.take_left' (Message.length_buffers _)]
  unfold Renderer.handle at h
  cases hobject : renderer.connection.objects o with
  | none =>
    rw [hobject] at h
    obtain ⟨ho, h⟩ : o = wlDisplay ∧ renderer.onDisplayEvent event = .ok renderer' := by
      change (if o = wlDisplay then renderer.onDisplayEvent event else .error .unknownObject) = .ok renderer' at h
      split at h
      · next ho => exact ⟨ho, h⟩
      · cases h
    obtain ⟨incoming, hincoming, hmessage⟩ := display_event h
    have hread := deserialize_message (by decide) hmessage hsize { message := rest }
    rw [← event.buffers o] at hread
    simp only [ho, if_true]
    rw [← ho, hread]
    simp only [hincoming, h]
    rfl
  | some slot =>
    rw [hobject] at h
    cases slot with
    | none =>
      cases h
      simp only [skip_message]
    | some listener =>
      obtain ⟨incoming, hincoming, hmessage⟩ := listened_event h
      have hread := deserialize_message listener.opcodes hmessage hsize {}
      rw [← event.buffers o, List.append_nil] at hread
      simp only [hread, hincoming, h]
      exact congrArg some (skip_message renderer' _ rest)

theorem dispatchMessage_cut (hsize : message.size ≤ maxMessageSize) {part : Bytes}
    (hpart : part <+: message.buffers.message) (hne : part ≠ message.buffers.message) (hlong : headerSize ≤ part.length) :
    renderer.dispatchMessage part = some (.error .panicked) := by
  have hlt : part.length < message.size := by
    rw [← message.length_buffers]
    exact Nat.lt_of_le_of_ne hpart.length_le fun heq => hne (hpart.eq_of_length heq)
  obtain ⟨tail, htail⟩ := hpart
  have hheader : Header.ofBytes part = ⟨message.object, message.opcode, .ofNat message.size⟩ := by
    rw [← Header.ofBytes_prefix hlong tail, htail, ← List.append_nil message.buffers.message, message.header]
  unfold Renderer.dispatchMessage
  simp only [hheader, UInt16.toNat_ofNat_of_lt' (Nat.lt_succ_of_le hsize)]
  rw [if_neg (not_lt.mpr hlong), if_pos hlt]

/-! ### Messages in pieces -/

theorem dispatchMessage_frame (h : renderer.handle o event = .ok renderer')
    (hsize : (event.message o).size ≤ maxMessageSize) :
    Framing.Frame Renderer.dispatchMessage headerSize .panicked renderer (event.message o).buffers.message renderer' where
  long := by
    rw [Message.length_buffers]
    exact Message.headerSize_le _
  whole := dispatchMessage_handle h hsize
  cut _ hpart hne hlong := dispatchMessage_cut hsize hpart hne hlong

theorem frames_handleAll {events : List (Object × Event)} (h : renderer.handleAll events = .ok renderer')
    (hsizes : ∀ x ∈ events, (x.2.message x.1).size ≤ maxMessageSize) :
    Framing.Frames Renderer.dispatchMessage headerSize .panicked renderer (stream events) renderer' := by
  induction events generalizing renderer with
  | nil =>
    cases h
    exact .nil
  | cons x events ih =>
    obtain ⟨hsize, hsizes⟩ := List.forall_mem_cons.mp hsizes
    obtain ⟨renderer₁, hhandle, hrest⟩ := bind_eq_ok.mp h
    exact .cons (dispatchMessage_frame hhandle hsize) (ih hrest hsizes)

theorem recvAll_eq (renderer : Renderer) (unused : Bytes) (pieces : List Bytes) :
    renderer.recvAll unused pieces = Framing.feedAll Renderer.dispatchMessage renderer unused pieces := by
  induction pieces generalizing renderer unused with
  | nil => rfl
  | cons received pieces ih =>
    rw [Renderer.recvAll, Framing.feedAll, Renderer.dispatchMessages]
    rcases Framing.feed Renderer.dispatchMessage renderer unused received with _ | _ | result
    · rfl
    · rfl
    · exact ih result.1 result.2

theorem recvAll_handleAll {events : List (Object × Event)} (h : renderer.handleAll events = .ok renderer')
    (hsizes : ∀ x ∈ events, (x.2.message x.1).size ≤ maxMessageSize) {pieces : List Bytes}
    (hpieces : pieces.flatten = (stream events).flatten) :
    renderer.recvAll [] pieces = if ∀ n ∈ Framing.cuts 0 pieces, Framing.Whole headerSize (stream events) n then
      some (.ok (renderer', [])) else some (.error .panicked) :=
  (recvAll_eq ..).trans (Framing.feedAll_eq (fun _ _ hshort => if_pos hshort) (by decide) (frames_handleAll h hsizes)
    hpieces (by decide))

end

/-! ### A batch of events -/

/-- With these requests in front of those that were written. -/
def Connection.behind (requests : List Request) (connection : Connection) : Connection :=
  { connection with written := requests ++ connection.written }

def Renderer.behind (requests : List Request) (renderer : Renderer) : Renderer :=
  { renderer with connection := renderer.connection.behind requests }

section
variable {renderer renderer' : Renderer} {connection : Connection} {o : Object} {event : Event}

theorem write_behind (requests : List Request) (connection : Connection) (request : Request) :
    (connection.behind requests).write request = (connection.write request).behind requests := by
  rw [Connection.behind, Connection.write, List.append_assoc]
  rfl

theorem createId_behind (requests : List Request) (connection : Connection) :
    (connection.behind requests).createId =
      connection.createId.map fun (id, connection) => (id, connection.behind requests) := by
  rw [Connection.behind, createId_written]
  cases hid : connection.createId with
  | error e => rfl
  | ok created =>
    obtain ⟨id, connection'⟩ := created
    have hwritten := createId_connection hid
    exact congrArg (fun written => Except.ok (id, { connection' with written := requests ++ written })) hwritten.symm

theorem create_behind (requests : List Request) (connection : Connection) (request : Object → Request) :
    (connection.behind requests).create request =
      (connection.create request).map fun (id, connection) => (id, connection.behind requests) := by
  unfold Connection.create
  rw [createId_behind]
  cases connection.createId with
  | error e => rfl
  | ok created =>
    obtain ⟨id, connection⟩ := created
    exact congrArg (fun connection => Except.ok (id, connection)) (write_behind requests connection (request id))

theorem onWlBufferEvent_behind (requests : List Request) (connection : Connection) (chain : SwapChain) (wlBuffer : Object) :
    chain.onWlBufferEvent (connection.behind requests) wlBuffer =
      (chain.onWlBufferEvent connection wlBuffer).map fun (chain, connection) => (chain, connection.behind requests) := by
  unfold SwapChain.onWlBufferEvent
  rw [write_behind]
  cases ArrayMap.get chain.bufferIndices wlBuffer with
  | none => rfl
  | some index =>
    simp only
    cases SwapChain.freeBuffer { chain with bufferIndices := ArrayMap.swapRemove chain.bufferIndices wlBuffer } index with
    | error e => rfl
    | ok chain => rfl

theorem onRegistryEvent_behind (requests : List Request) (renderer : Renderer) (registry : Object) (name : UInt32)
    (interface : Text) (version : UInt32) : (renderer.behind requests).onRegistryEvent registry name interface version =
      (renderer.onRegistryEvent registry name interface version).map (Renderer.behind requests) := by
  unfold Renderer.onRegistryEvent
  simp only
  rw [apply_ite (Except.map _)]
  refine congrArg₂ (ite _) ?_ rfl
  change ((renderer.connection.behind requests).create _).map _ = _
  rw [create_behind]
  cases renderer.connection.create (.bind registry name (interfaceNamed interface.1)) with
  | error e => rfl
  | ok created =>
    cases interfaceNamed interface.1 <;> rfl

/-- The renderer does not look at what it wrote. -/
theorem handle_behind (requests : List Request) (renderer : Renderer) (o : Object) (event : Event) :
    (renderer.behind requests).handle o event = (renderer.handle o event).map (Renderer.behind requests) := by
  have hbehind : (renderer.behind requests).connection.objects o = renderer.connection.objects o := rfl
  unfold Renderer.handle
  rw [hbehind]
  cases renderer.connection.objects o with
  | none =>
    simp only
    rw [apply_ite (Except.map _)]
    refine congrArg₂ (ite _) ?_ rfl
    cases event <;> rfl
  | some slot =>
    cases slot with
    | none => rfl
    | some listener =>
      cases listener with
      | registry =>
        cases event with
        | global name interface version => exact onRegistryEvent_behind requests renderer o name interface version
        | _ => rfl
      | callback => cases event <;> rfl
      | layerSurface =>
        cases event with
        | layerSurface event =>
          cases event with
          | configure serial width height =>
            exact congrArg (fun connection => Except.ok (α := Renderer) { renderer with connection := connection
                                                                                        state := _ })
              (write_behind requests renderer.connection (.ackConfigure o serial))
          | closed => rfl
        | _ => rfl
      | buffer =>
        cases event with
        | release =>
          have hscreen : (renderer.behind requests).screen = renderer.screen := rfl
          change (renderer.behind requests).onWlBufferEvent o = (renderer.onWlBufferEvent o).map _
          unfold Renderer.onWlBufferEvent
          rw [hscreen]
          cases renderer.screen with
          | none => rfl
          | some screen =>
            simp only
            change (screen.swapChain.onWlBufferEvent (renderer.connection.behind requests) o).map _ = _
            rw [onWlBufferEvent_behind]
            cases screen.swapChain.onWlBufferEvent renderer.connection o <;> rfl
        | _ => rfl

theorem handleAll_behind (requests : List Request) {events : List (Object × Event)}
    (h : renderer.handleAll events = .ok renderer') :
    (renderer.behind requests).handleAll events = .ok (renderer'.behind requests) := by
  induction events generalizing renderer with
  | nil =>
    cases h
    rfl
  | cons x events ih =>
    obtain ⟨o, event⟩ := x
    obtain ⟨renderer₁, hhandle, hrest⟩ := bind_eq_ok.mp h
    change renderer.handle o event = _ at hhandle
    refine bind_eq_ok.mpr ⟨renderer₁.behind requests, ?_, ih hrest⟩
    change (renderer.behind requests).handle o event = _
    rw [handle_behind, hhandle]
    rfl

end

/-! ### Answers -/

section
variable {renderer renderer' : Renderer} {o : Object} {event : Event} {events : List (Object × Event)}

/-- The bytes that may be written in answer to an event: as many as the event has, and 4 more for a global. -/
def answerSize (x : Object × Event) : ℕ := (x.2.message x.1).size + if x.2.isGlobal then 4 else 0

theorem interfaceNamed_ne_other {name : Bytes} (h : interfaceNamed name ≠ .other) :
    interfaceName (interfaceNamed name) = name := by
  unfold interfaceNamed at h ⊢
  split at h
  · next heq => rw [if_pos heq, heq]
  · next hne =>
    rw [if_neg hne]
    split at h
    · next heq => rw [if_pos heq, heq]
    · next hne' =>
      rw [if_neg hne']
      split at h
      · next heq => rw [if_pos heq, heq]
      · exact (h rfl).elim

theorem size_bind (registry id : Object) (name : UInt32) (interface : Interface) :
    (Request.bind registry name interface id).message.size = alignForward ((interfaceName interface).length + 1) + 24 := by
  have hpayload : (Request.bind registry name interface id).message.payload = gather (writeUint name ++
      (writeString (interfaceText interface) ++ writeUint (.ofNat interface.version) ++ writeUint id ++ [])) := rfl
  have hstring := length_writeString (interfaceText interface)
  rw [Message.size, hpayload]
  simp only [gather_append, Buffers.message_append, List.length_append, message_writeUint, Little.length_bytes, hstring]
  change 8 + (4 + (4 + alignForward ((interfaceName interface).length + 1) + 4 + 4 + 0)) = _
  omega

theorem size_global (o : Object) (name version : UInt32) (interface : Text) :
    ((Event.global name interface version).message o).size = alignForward (interface.1.length + 1) + 20 := by
  have hpayload : ((Event.global name interface version).message o).payload =
      gather (writeUint name ++ (writeString interface ++ (writeUint version ++ []))) := rfl
  rw [Message.size, hpayload]
  simp only [gather_append, Buffers.message_append, List.length_append, message_writeUint, Little.length_bytes,
    length_writeString]
  change 8 + (4 + (4 + _ + (4 + 0))) = _
  omega

/-- What a listener writes. -/
theorem handle_answer (h : renderer.handle o event = .ok renderer') :
    ∃ requests, renderer'.connection.written = renderer.connection.written ++ requests ∧
      (requests.map fun request => request.message.size).sum ≤ answerSize (o, event) ∧
      ∀ request ∈ requests, request.message.payload.control = [] := by
  obtain ⟨requests, heq, hanswer⟩ := handle_writes h
  refine ⟨requests, heq, ?_⟩
  cases hanswer with
  | nothing event => exact ⟨Nat.zero_le _, fun _ hmem => (by cases hmem)⟩
  | bind name version hinterface id =>
    refine ⟨?_, List.forall_mem_singleton.mpr rfl⟩
    rw [List.map_singleton, List.sum_singleton, size_bind, interfaceNamed_ne_other hinterface, answerSize, size_global]
    exact le_refl _
  | ackConfigure serial width height => exact ⟨show 12 ≤ 20 by decide, List.forall_mem_singleton.mpr rfl⟩
  | destroyBuffer => exact ⟨show 8 ≤ 8 from le_refl 8, List.forall_mem_singleton.mpr rfl⟩

theorem handleAll_answers (h : renderer.handleAll events = .ok renderer') :
    ∃ requests, renderer'.connection.written = renderer.connection.written ++ requests ∧
      (requests.map fun request => request.message.size).sum ≤ (events.map answerSize).sum ∧
      ∀ request ∈ requests, request.message.payload.control = [] := by
  induction events generalizing renderer with
  | nil =>
    cases h
    exact ⟨[], (List.append_nil _).symm, le_refl _, fun _ hmem => (by cases hmem)⟩
  | cons x events ih =>
    obtain ⟨o, event⟩ := x
    obtain ⟨renderer₁, hhandle, hrest⟩ := bind_eq_ok.mp h
    obtain ⟨requests, hwritten, hsize, hcontrol⟩ := handle_answer hhandle
    obtain ⟨more, hwritten', hsize', hcontrol'⟩ := ih hrest
    refine ⟨requests ++ more, by rw [hwritten', hwritten, List.append_assoc], ?_, fun request hmem => ?_⟩
    · rw [List.map_append, List.sum_append, List.map_cons, List.sum_cons]
      exact Nat.add_le_add hsize hsize'
    · rcases List.mem_append.mp hmem with hmem | hmem
      · exact hcontrol request hmem
      · exact hcontrol' request hmem

/-- The requests that answer the events of a batch are in the buffers, each whole and in their order, where the batch with 4
    bytes more for each global is not larger than the buffer. -/
theorem answers_written (hwritten : renderer.connection.written = []) (h : renderer.handleAll events = .ok renderer')
    (hsize : (events.map answerSize).sum ≤ maxMessageSize) (undefined : UInt16) :
    ∃ buffers, ({} : SendBuffers).outputAll undefined
        (messageOutputs (renderer'.connection.written.map Request.message)) = .ok buffers ∧
      buffers.sent ++ buffers.pending = streamOf (messageOutputs (renderer'.connection.written.map Request.message)) := by
  obtain ⟨requests, heq, hsum, hcontrol⟩ := handleAll_answers h
  rw [hwritten, List.nil_append] at heq
  rw [heq]
  refine outputAll_messages undefined ?_ ?_
  · rw [List.map_map]
    exact hsum.trans hsize
  · refine le_of_eq_of_le (List.sum_eq_zero fun n hn => ?_) (Nat.zero_le _)
    obtain ⟨message, hmessage, rfl⟩ := List.mem_map.mp hn
    obtain ⟨request, hrequest, rfl⟩ := List.mem_map.mp hmessage
    rw [hcontrol request hrequest, List.length_nil]

/-- Two globals: the renderer binds both. -/
theorem globals_answered : ∃ renderer buffers,
    begun.flushed.handleAll [(2, .global 1 (interfaceText .wlCompositor) 6), (2, .global 2 (interfaceText .wlShm) 2)] =
      .ok renderer ∧
    renderer.connection.written = [.bind 2 1 .wlCompositor 4, .bind 2 2 .wlShm 5] ∧
    ({} : SendBuffers).outputAll 0xAAAA (messageOutputs (renderer.connection.written.map Request.message)) = .ok buffers ∧
    buffers.sent ++ buffers.pending = streamOf (messageOutputs (renderer.connection.written.map Request.message)) := by
  have hrun : (begun.flushed.handleAll [(2, .global 1 (interfaceText .wlCompositor) 6),
      (2, .global 2 (interfaceText .wlShm) 2)]).toOption.map (fun renderer => renderer.connection.written) =
      some [.bind 2 1 .wlCompositor 4, .bind 2 2 .wlShm 5] := by
    decide +kernel
  obtain ⟨renderer, hok, hbound⟩ := toOption_map_eq_some.mp hrun
  have hwritten : begun.flushed.connection.written = [] := rfl
  obtain ⟨buffers, hbuffers, hstream⟩ := answers_written hwritten hok (by decide) 0xAAAA
  exact ⟨renderer, buffers, hok, hbound, hbuffers, hstream⟩

end

section
variable {ar : F32Arith} {session : Session} {w : World}

/-- The next event: what is written waits. -/
theorem reachable_handle (h : Reachable ar session w) {x : Object × Event} {later : List (Object × Event)}
    (hw : w.events = x :: later) (hroom : w.client.renderer.connection.nextId + 1 < 2 ^ 32) :
    ∃ renderer, w.client.renderer.handle x.1 x.2 = .ok renderer ∧
      renderer.connection.nextId ≤ w.client.renderer.connection.nextId + 1 ∧ renderer.connection.written.length ≤ 1 ∧
      Reachable ar session ⟨⟨renderer.flushed, w.client.drawn⟩, w.unsent ++ renderer.connection.written, w.server,
        w.requests, later⟩ := by
  obtain ⟨o, event⟩ := x
  obtain ⟨c, es, -, hstep⟩ := caughtUp_of_reachable h
  have hsynced := hstep.synced
  rw [hw] at hsynced
  obtain ⟨renderer, hhandle⟩ := hsynced.handle_isOk fun _ => Or.inr hroom
  obtain ⟨hframes, -⟩ := handle_frames hstep.written hhandle
  have hone : (if event.isGlobal then 1 else 0) ≤ 1 := by split <;> decide
  refine ⟨renderer, hhandle, (handle_nextId hhandle).trans (Nat.add_le_add_left hone _), ?_, ?_⟩
  · have hanswer := handle_written hstep.written hhandle
    generalize renderer.connection.written = requests at hanswer
    cases hanswer <;> simp
  · obtain ⟨client, unsent, server, requests, events⟩ := w
    change events = _ at hw
    subst hw
    refine h.trans (.step .refl (.receive ⟨renderer, .handle hhandle, rfl, ?_⟩))
    rw [Drawer.flush, hframes]
    rfl

/-- A batch of events, and what is written for one of them is in front of what is written for the others. -/
theorem handleAll_cons {renderer renderer₁ renderer₂ : Renderer} {x : Object × Event} {events : List (Object × Event)}
    (hhandle : renderer.handle x.1 x.2 = .ok renderer₁) (hrest : renderer₁.flushed.handleAll events = .ok renderer₂) :
    renderer.handleAll (x :: events) = .ok (renderer₂.behind renderer₁.connection.written) := by
  have hbehind : renderer₁.flushed.behind renderer₁.connection.written = renderer₁ := by
    rw [Renderer.behind, Connection.behind, Renderer.flushed, List.append_nil]
  have hrest' := handleAll_behind renderer₁.connection.written hrest
  rw [hbehind] at hrest'
  exact bind_eq_ok.mpr ⟨renderer₁, hhandle, hrest'⟩

theorem handleAll_nil (h : Reachable ar session w) :
    w.client.renderer.handleAll [] = .ok w.client.renderer ∧ w.client.renderer.flushed = w.client.renderer ∧
      w.client.renderer.connection.written = [] := by
  obtain ⟨c, es, -, hstep⟩ := caughtUp_of_reachable h
  exact ⟨rfl, by rw [Renderer.flushed, ← hstep.written], hstep.written⟩

/-- A batch of events, and nothing is sent in between. -/
theorem reachable_handleAll (h : Reachable ar session w) {arrived later : List (Object × Event)}
    (hw : w.events = arrived ++ later) (hroom : w.client.renderer.connection.nextId + arrived.length < 2 ^ 32) :
    ∃ renderer, w.client.renderer.handleAll arrived = .ok renderer ∧ Reachable ar session
      ⟨⟨renderer.flushed, w.client.drawn⟩, w.unsent ++ renderer.connection.written, w.server, w.requests, later⟩ := by
  induction arrived generalizing w with
  | nil =>
    obtain ⟨hall, hflushed, hwritten⟩ := handleAll_nil h
    refine ⟨_, hall, ?_⟩
    rw [hflushed, hwritten, List.append_nil, ← List.nil_append later, ← hw]
    exact h
  | cons x arrived ih =>
    rw [List.length_cons] at hroom
    obtain ⟨renderer₁, hhandle, hnext, -, hreach⟩ := reachable_handle h hw (by omega)
    obtain ⟨renderer₂, hrest, hreach₂⟩ := ih hreach rfl (by
      change renderer₁.connection.nextId + _ < _
      omega)
    refine ⟨_, handleAll_cons hhandle hrest, ?_⟩
    rw [List.append_assoc] at hreach₂
    exact hreach₂

/-- A batch of events, and some of what is written is sent, the rest waits: each listener writes one request at most, so
    that wherever the one ends and the other begins, the renderer may have been between two events. -/
theorem reachable_sent (h : Reachable ar session w) {arrived later : List (Object × Event)}
    (hw : w.events = arrived ++ later) (hroom : w.client.renderer.connection.nextId + arrived.length < 2 ^ 32) :
    ∃ renderer, w.client.renderer.handleAll arrived = .ok renderer ∧
      ∀ sent unsent, renderer.connection.written = sent ++ unsent → Reachable ar session
        ⟨⟨renderer.flushed, w.client.drawn⟩, unsent, w.server, w.requests ++ (w.unsent ++ sent), later⟩ := by
  have hflush : Reachable ar session ⟨w.client, [], w.server, w.requests ++ w.unsent, w.events⟩ :=
    h.trans (.step .refl .flush)
  obtain ⟨renderer, hall, hunsent⟩ := reachable_handleAll hflush hw hroom
  refine ⟨renderer, hall, ?_⟩
  induction arrived generalizing w renderer with
  | nil =>
    obtain ⟨hnone, hflushed, hwritten⟩ := handleAll_nil h
    obtain rfl := Except.ok.inj (hnone.symm.trans hall)
    intro sent unsent hsplit
    rw [hwritten] at hsplit
    obtain ⟨rfl, rfl⟩ := List.append_eq_nil_iff.mp hsplit.symm
    rw [hflushed, List.append_nil, ← List.nil_append later, ← hw]
    exact hflush
  | cons x arrived ih =>
    rw [List.length_cons] at hroom
    obtain ⟨renderer₁, hhandle, hnext, hone, hreach⟩ := reachable_handle h hw (by omega)
    have hroom₁ : renderer₁.flushed.connection.nextId + arrived.length < 2 ^ 32 := by
      change renderer₁.connection.nextId + _ < _
      omega
    have hflush₁ : Reachable ar session ⟨⟨renderer₁.flushed, w.client.drawn⟩, [], w.server,
        w.requests ++ (w.unsent ++ renderer₁.connection.written), arrived ++ later⟩ := hreach.trans (.step .refl .flush)
    obtain ⟨renderer₂, hrest, hunsent₂⟩ := reachable_handleAll hflush₁ rfl hroom₁
    obtain rfl := Except.ok.inj (hall.symm.trans (handleAll_cons hhandle hrest))
    intro sent unsent hsplit
    -- All that the first listener wrote is sent, or nothing at all.
    have hlater : ∀ sent' unsent, renderer₂.connection.written = sent' ++ unsent → Reachable ar session
        ⟨⟨renderer₂.flushed, w.client.drawn⟩, unsent, w.server,
          w.requests ++ (w.unsent ++ (renderer₁.connection.written ++ sent')), later⟩ := by
      intro sent' unsent hsplit'
      rw [← List.append_assoc w.unsent]
      exact ih hreach rfl hroom₁ hflush₁ renderer₂ hrest hunsent₂ sent' unsent hsplit'
    rcases List.append_eq_append_iff.mp hsplit with ⟨sent', rfl, hsplit'⟩ | ⟨unsent', hsplit', rfl⟩
    · exact hlater sent' unsent hsplit'
    · cases sent with
      | nil =>
        rw [List.append_nil]
        exact hsplit ▸ hunsent
      | cons request sent =>
        rw [hsplit', List.cons_append, List.length_cons, List.length_append] at hone
        obtain rfl : unsent' = [] := List.eq_nil_of_length_eq_zero (by omega)
        rw [List.append_nil] at hsplit'
        have hsent := hlater [] _ rfl
        rw [hsplit', List.append_nil] at hsent
        exact hsent

/-- The bytes of any of the events on their way, in whatever pieces they arrive, unless a piece ends within a message whose
    header is already there: the renderer has then handled each of them once and in their order. Of what it wrote for them
    some may be sent, as each call of `recv` does with what was written before it. -/
theorem events_received (h : Reachable ar session w) {arrived later : List (Object × Event)}
    (hw : w.events = arrived ++ later) (hroom : w.client.renderer.connection.nextId + arrived.length < 2 ^ 32)
    (hsizes : ∀ x ∈ arrived, (x.2.message x.1).size ≤ maxMessageSize) {pieces : List Bytes}
    (hpieces : pieces.flatten = (stream arrived).flatten) :
    ∃ renderer, (w.client.renderer.recvAll [] pieces =
        if ∀ n ∈ Framing.cuts 0 pieces, Framing.Whole headerSize (stream arrived) n then some (.ok (renderer, []))
        else some (.error .panicked)) ∧
      ∀ sent unsent, renderer.connection.written = sent ++ unsent → Reachable ar session
        ⟨⟨renderer.flushed, w.client.drawn⟩, unsent, w.server, w.requests ++ (w.unsent ++ sent), later⟩ := by
  obtain ⟨renderer, hhandled, hreach⟩ := reachable_sent h hw hroom
  exact ⟨renderer, recvAll_handleAll hhandled hsizes hpieces, hreach⟩

/-- The compositor announces `wl_shm`: a piece may end within the header of the event, and not behind it. -/
theorem first_global_received : ∃ w, Reachable .exact batterySession w ∧
    w.events = [(2, .global 2 (interfaceText .wlShm) 1)] ∧
    (∃ renderer, w.client.renderer.recvAll [] [[2, 0, 0, 0], [0, 0, 28, 0, 2, 0, 0, 0, 7, 0, 0, 0] ++ ascii "wl_shm" ++
      [0, 0, 1, 0, 0, 0]] = some (.ok (renderer, []))) ∧
    w.client.renderer.recvAll [] [[2, 0, 0, 0, 0, 0, 28, 0], [2, 0, 0, 0, 7, 0, 0, 0], ascii "wl_shm" ++
      [0, 0, 1, 0, 0, 0]] = some (.error .panicked) := by
  have hrun : ((World.start begun).turns .exact batterySession
      [.flush, .accept, .accept, .move (.global 2 2 (interfaceText .wlShm) 1)]).map
      (fun w => (w.events, w.client.renderer.connection.nextId)) = some ([(2, .global 2 (interfaceText .wlShm) 1)], 4) := by
    decide +kernel
  obtain ⟨w, hw, heq⟩ := exists_reachable hrun
  obtain ⟨hevents, hid⟩ := Prod.mk.inj heq
  have hroom : w.client.renderer.connection.nextId + 1 < 2 ^ 32 := by
    rw [hid]
    decide
  have hsizes : ∀ x ∈ [((2 : Object), Event.global 2 (interfaceText .wlShm) 1)], (x.2.message x.1).size ≤ maxMessageSize := by
    decide
  have hreceived : ∀ pieces : List Bytes, pieces.flatten = (stream [(2, .global 2 (interfaceText .wlShm) 1)]).flatten →
      ∃ renderer, w.client.renderer.recvAll [] pieces = if ∀ n ∈ Framing.cuts 0 pieces,
        Framing.Whole headerSize (stream [(2, .global 2 (interfaceText .wlShm) 1)]) n then some (.ok (renderer, []))
        else some (.error .panicked) := by
    intro pieces hpieces
    obtain ⟨renderer, hrecv, -⟩ := events_received hw (hevents.trans (List.append_nil _).symm) hroom hsizes hpieces
    exact ⟨renderer, hrecv⟩
  refine ⟨w, hw, hevents, ?_, ?_⟩
  · obtain ⟨renderer, hrecv⟩ := hreceived [[2, 0, 0, 0], [0, 0, 28, 0, 2, 0, 0, 0, 7, 0, 0, 0] ++ ascii "wl_shm" ++
      [0, 0, 1, 0, 0, 0]] (by decide)
    rw [if_pos (by decide)] at hrecv
    exact ⟨renderer, hrecv⟩
  · obtain ⟨renderer, hrecv⟩ := hreceived [[2, 0, 0, 0, 0, 0, 28, 0], [2, 0, 0, 0, 7, 0, 0, 0], ascii "wl_shm" ++
      [0, 0, 1, 0, 0, 0]] (by decide)
    rw [if_neg (by decide)] at hrecv
    exact hrecv

end

end Zlinestatus.Wayland
