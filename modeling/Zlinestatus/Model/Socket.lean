import Zlinestatus.Lib.Framing
import Zlinestatus.Model.Renderer

/-! The events as the bytes of the socket: `recv` reads them in pieces, and hands each message to the listener of its
    object. -/

namespace Zlinestatus.Wayland
open Wire (Object Message Header headerSize alignForward deserialize DeserializeError wlDisplay)

/-! ### Reading -/

/-- An error of `recv`. -/
def readError : DeserializeError → Error
  | .panicked => .panicked
  | _ => .connection

namespace Renderer

/-- The bytes behind a message that takes `size` bytes: the slice there checks that the buffer is long enough. -/
def skip (renderer : Renderer) (buffer : Bytes) (size : ℕ) : Except Error (Renderer × Bytes) :=
  if alignForward size ≤ buffer.length then .ok (renderer, buffer.drop (alignForward size)) else .error .panicked

/-- One round of the loop of `dispatchMessages`, or `none` where there is no header yet. The events that are listened to
    have no file descriptors, so that the control messages stay as they are. -/
def dispatchMessage (renderer : Renderer) (buffer : Bytes) : Option (Except Error (Renderer × Bytes)) :=
  if buffer.length < headerSize then none
  else
    let header := Header.ofBytes buffer
    let size := header.size.toNat
    if buffer.length < size then some (.error .panicked)
    else
      some <|
        match renderer.connection.objects header.object with
        | some (some listener) =>
          match deserialize listener.signatures { message := buffer.take size } with
          | .error e => .error (readError e)
          | .ok (incoming, _) => do
            let renderer ← renderer.listen header.object listener (listener.event incoming)
            renderer.skip buffer size
        | some none => renderer.skip buffer size
        | none =>
          if header.object = wlDisplay then
            match deserialize displaySignatures { message := buffer } with
            | .error e => .error (readError e)
            | .ok (incoming, rest) => do
              let renderer ← renderer.onDisplayEvent (displayEvent incoming)
              .ok (renderer, rest.message)
          else .error .unknownObject

/-- `dispatchMessages` on what is left in the buffer and the bytes that were received; what it does not use is left. There
    is no result where it does not end: at a message of size 0 for an object without a listener. -/
def dispatchMessages (renderer : Renderer) (unused received : Bytes) : Option (Except Error (Renderer × Bytes)) :=
  Framing.feed dispatchMessage renderer unused received

/-- Calls of `recv`, and what each receives. -/
def recvAll : Renderer → Bytes → List Bytes → Option (Except Error (Renderer × Bytes))
  | renderer, unused, [] => some (.ok (renderer, unused))
  | renderer, unused, received :: pieces =>
    match renderer.dispatchMessages unused received with
    | none => none
    | some (.error e) => some (.error e)
    | some (.ok (renderer, unused)) => renderer.recvAll unused pieces

end Renderer

/-! ### Events, one behind the other -/

/-- The message of an event, as the descriptions of the protocol have it. -/
def Event.message (object : Object) : Event → Message
  | global name interface version => ⟨object, 0, [.word, .string, .word], (name, interface, version, ())⟩
  | globalRemove name => ⟨object, 1, [.word], (name, ())⟩
  | done callbackData => ⟨object, 0, [.word], (callbackData, ())⟩
  | layerSurface (.configure serial width height) => ⟨object, 0, [.word, .word, .word], (serial, width, height, ())⟩
  | layerSurface .closed => ⟨object, 1, [], ()⟩
  | release => ⟨object, 0, [], ()⟩
  | error culprit code message => ⟨object, 0, [.word, .word, .string], (culprit, code, message, ())⟩
  | deleteId id => ⟨object, 1, [.word], (id, ())⟩

/-- The bytes that the compositor sends for these events. -/
def stream (events : List (Object × Event)) : List Bytes := events.map fun (object, event) => (event.message object).buffers.message

/-- Hands the events to their listeners, one after the other. -/
def Renderer.handleAll (renderer : Renderer) (events : List (Object × Event)) : Except Error Renderer :=
  events.foldlM (fun renderer (object, event) => renderer.handle object event) renderer

end Zlinestatus.Wayland
