import Zlinestatus.Model.Main
import Zlinestatus.Model.Wire

/-! The objects of a connection: their ids and listeners, the requests on them, and their events. -/

namespace Zlinestatus.Wayland
open Wire (Object Kind Text Message Incoming wlDisplay)

/-! ### Requests -/

/-- The requests of the renderer and of its swapchain, on objects and with the new ids. -/
inductive Request where
  | getRegistry (registry : Object)
  | sync (callback : Object)
  | bind (registry : Object) (name : UInt32) (interface : Interface) (id : Object)
  | createSurface (wlCompositor id : Object)
  | getLayerSurface (layerShell id wlSurface : Object)
  | setSize (layerSurface : Object) (width height : ℕ)
  | setAnchor (layerSurface : Object) (anchor : Anchor)
  | setKeyboardInteractivity (layerSurface : Object)
  | setExclusiveZone (layerSurface : Object) (zone : ℤ)
  | ackConfigure (layerSurface : Object) (serial : UInt32)
  | createPool (wlShm id : Object) (fd : UInt32) (size : ℕ)
  | resizePool (wlShmPool : Object) (size : ℕ)
  | destroyPool (wlShmPool : Object)
  | createBuffer (wlShmPool id : Object) (offset width height stride : ℕ) (format : Format)
  | destroyBuffer (wlBuffer : Object)
  | attach (wlSurface wlBuffer : Object)
  | damage (wlSurface : Object) (x y width height : ℕ)
  | commit (wlSurface : Object)
  deriving DecidableEq

/-- `NAME` of the generated bindings. -/
def interfaceName : Interface → Bytes
  | .wlCompositor => ascii "wl_compositor"
  | .wlShm => ascii "wl_shm"
  | .layerShell => ascii "zwlr_layer_shell_v1"
  | .other => []

/-- The interface that `onRegistryEvent` takes a name for. -/
def interfaceNamed (name : Bytes) : Interface :=
  if name = interfaceName .wlCompositor then .wlCompositor
  else if name = interfaceName .wlShm then .wlShm
  else if name = interfaceName .layerShell then .layerShell
  else .other

theorem interfaceName_length (interface : Interface) : (interfaceName interface).length + 1 < 2 ^ 32 := by
  cases interface <;> decide

def interfaceText (interface : Interface) : Text := ⟨interfaceName interface, interfaceName_length interface⟩

/-- The namespace of the layer surface. -/
def layerNamespace : Text := ⟨ascii "zlinestatus", by decide⟩

/-- `Anchor` is a packed struct of four bits. -/
def anchorWord (anchor : Anchor) : UInt32 :=
  .ofNat (anchor.top.toNat + 2 * anchor.bottom.toNat + 4 * anchor.left.toNat + 8 * anchor.right.toNat)

/-- `@bitCast` of an `Int` -/
def intWord (int : ℤ) : UInt32 := .ofNat (int % 2 ^ 32).toNat

/-- `Layer` of the layer shell; the renderer uses `top`. -/
def layers : List UInt32 := [0, 1, 2, 3]

def keyboardInteractivities : List UInt32 := [0, 1, 2]

/-- The entry of `Format` the renderer uses. -/
def formats : List UInt32 := [0]

def optionalObject (object : Object) : Kind.optionalObject.Value :=
  if h : object ≠ 0 then some ⟨object, h⟩ else none

/-- What a request writes: `begin` with its object and opcode, then the fields of its struct. -/
def Request.message : Request → Message
  | getRegistry registry => ⟨wlDisplay, 1, [.word], (registry, ())⟩
  | sync callback => ⟨wlDisplay, 0, [.word], (callback, ())⟩
  | bind registry name interface id =>
    ⟨registry, 0, [.word, .newId], (name, ⟨interfaceText interface, .ofNat interface.version, id⟩, ())⟩
  | createSurface wlCompositor id => ⟨wlCompositor, 0, [.word], (id, ())⟩
  | getLayerSurface layerShell id wlSurface =>
    ⟨layerShell, 0, [.word, .word, .optionalObject, .tag layers, .string],
      (id, wlSurface, none, ⟨2, by decide⟩, layerNamespace, ())⟩
  | setSize layerSurface width height => ⟨layerSurface, 0, [.word, .word], (.ofNat width, .ofNat height, ())⟩
  | setAnchor layerSurface anchor => ⟨layerSurface, 1, [.word], (anchorWord anchor, ())⟩
  | setExclusiveZone layerSurface zone => ⟨layerSurface, 2, [.word], (intWord zone, ())⟩
  | setKeyboardInteractivity layerSurface =>
    ⟨layerSurface, 4, [.tag keyboardInteractivities], (⟨0, by decide⟩, ())⟩
  | ackConfigure layerSurface serial => ⟨layerSurface, 6, [.word], (serial, ())⟩
  | createPool wlShm id fd size => ⟨wlShm, 0, [.word, .fd, .word], (id, fd, .ofNat size, ())⟩
  | createBuffer wlShmPool id offset width height stride .argb8888 =>
    ⟨wlShmPool, 0, [.word, .word, .word, .word, .word, .tag formats],
      (id, .ofNat offset, .ofNat width, .ofNat height, .ofNat stride, ⟨0, by decide⟩, ())⟩
  | destroyPool wlShmPool => ⟨wlShmPool, 1, [], ()⟩
  | resizePool wlShmPool size => ⟨wlShmPool, 2, [.word], (.ofNat size, ())⟩
  | destroyBuffer wlBuffer => ⟨wlBuffer, 0, [], ()⟩
  | attach wlSurface wlBuffer => ⟨wlSurface, 1, [.optionalObject, .word, .word], (optionalObject wlBuffer, intWord 0, intWord 0, ())⟩
  | damage wlSurface x y width height =>
    ⟨wlSurface, 2, [.word, .word, .word, .word], (.ofNat x, .ofNat y, .ofNat width, .ofNat height, ())⟩
  | commit wlSurface => ⟨wlSurface, 6, [], ()⟩

/-! ### Events -/

/-- The callbacks that the renderer and its swapchain set on objects. -/
inductive Listener where
  | registry
  | callback
  | layerSurface
  | buffer
  deriving DecidableEq

/-- The events of the interfaces that are listened to, and those of `wl_display`. -/
inductive Event where
  | global (name : UInt32) (interface : Text) (version : UInt32)
  | globalRemove (name : UInt32)
  | done (callbackData : UInt32)
  | layerSurface (event : LayerSurfaceEvent)
  | release
  | error (object : Object) (code : UInt32) (message : Text)
  | deleteId (id : Object)
  deriving DecidableEq

/-- The signatures of an interface's events, in the order of their opcodes. -/
def Listener.signatures : Listener → List (List Kind)
  | registry => [[.word, .string, .word], [.word]]
  | callback => [[.word]]
  | layerSurface => [[.word, .word, .word], []]
  | buffer => [[]]

def Listener.event : (listener : Listener) → Incoming listener.signatures → Event
  | registry, ⟨⟨0, _⟩, (name, interface, version, ())⟩ => .global name interface version
  | registry, ⟨⟨1, _⟩, (name, ())⟩ => .globalRemove name
  | callback, ⟨⟨0, _⟩, (callbackData, ())⟩ => .done callbackData
  | layerSurface, ⟨⟨0, _⟩, (serial, width, height, ())⟩ => .layerSurface (.configure serial width height)
  | layerSurface, ⟨⟨1, _⟩, ()⟩ => .layerSurface .closed
  | buffer, ⟨⟨0, _⟩, ()⟩ => .release

def displaySignatures : List (List Kind) := [[.word, .word, .string], [.word]]

def displayEvent : Incoming displaySignatures → Event
  | ⟨⟨0, _⟩, (object, code, message, ())⟩ => .error object code message
  | ⟨⟨1, _⟩, (id, ())⟩ => .deleteId id

/-! ### Ids -/

/-- The ids of the connection and what it knows of the objects that have them: the listener, if one was set. The
    last id of `free_ids` is the first here. `written` has the requests that were written, the oldest first. -/
structure Connection where
  nextId : ℕ := 2
  freeIds : List Object := []
  objects : Object → Option (Option Listener) := fun _ => none
  written : List Request := []

namespace Connection

def write (connection : Connection) (request : Request) : Connection :=
  { connection with written := connection.written ++ [request] }

/-- `putAssumeCapacityNoClobber`, with its check. -/
def put (connection : Connection) (id : Object) : Except Error (Object × Connection) :=
  if (connection.objects id).isSome then .error .panicked
  else .ok (id, { connection with objects := Function.update connection.objects id (some none) })

/-- The ids the compositor gave back are used again before a new one; `next_id` has 32 bits. -/
def createId (connection : Connection) : Except Error (Object × Connection) :=
  match connection.freeIds with
  | id :: freeIds => { connection with freeIds := freeIds }.put id
  | [] =>
    if connection.nextId + 1 < 2 ^ 32 then
      { connection with nextId := connection.nextId + 1 }.put (.ofNat connection.nextId)
    else .error .panicked

/-- `setObjectMessageCallback`: it panics where there is no such object. -/
def setEventListener (connection : Connection) (object : Object) (listener : Listener) : Except Error Connection :=
  if (connection.objects object).isSome then
    .ok { connection with objects := Function.update connection.objects object (some (some listener)) }
  else .error .panicked

/-- A binding that creates an object: the id comes first, then the request. -/
def create (connection : Connection) (request : Object → Request) : Except Error (Object × Connection) :=
  connection.createId.map fun (id, connection) => (id, connection.write (request id))

/-- What `delete_id` does. -/
def deleteId (connection : Connection) (id : Object) : Connection :=
  { connection with objects := Function.update connection.objects id none, freeIds := id :: connection.freeIds }

end Connection

end Zlinestatus.Wayland
