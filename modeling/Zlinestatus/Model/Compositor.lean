import Zlinestatus.Lib.Channel
import Zlinestatus.Model.Renderer

/-! The compositor, as the descriptions of the protocol in the bindings allow it to behave, and the renderer that talks
    to it over two queues, with the buffer that its requests wait in. -/

namespace Zlinestatus.Wayland
open Wire (Object Text wlDisplay)

/-! ### The compositor -/

/-- The part of a pool that a buffer was created for. -/
structure Part where
  pool : Object
  offset : ℕ
  width : ℕ
  height : ℕ
  stride : ℕ
  deriving DecidableEq

/-- Whether the compositor may read a buffer: from `attach` to `release`. -/
inductive Use where
  | fresh
  | held
  | released
  deriving DecidableEq

/-- What an object of the client is to the compositor. -/
inductive Resource where
  | registry
  | callback
  | global (interface : Interface)
  | surface
  | layerSurface
  | pool (size : ℕ)
  | buffer (part : Part) (use : Use)
  deriving DecidableEq

/-- The objects, the globals announced so far, the serials of the configure events so far and whether one was
    acknowledged, and the buffer of the surface: the pending one, and the one shown. -/
structure Compositor where
  resources : Object → Option Resource := fun _ => none
  announced : List (UInt32 × Interface × UInt32) := []
  serials : List UInt32 := []
  acked : Bool := false
  pending : Option Object := none
  current : Option Object := none

namespace Compositor

/-- Gives the id this meaning, or none. -/
def put (compositor : Compositor) (object : Object) (resource : Option Resource) : Compositor :=
  { compositor with resources := Function.update compositor.resources object resource }

/-- A new id must not be in use; 0 and that of the display are none. -/
def add (compositor : Compositor) (id : Object) (resource : Resource) : Option Compositor :=
  if compositor.resources id = none ∧ id ≠ 0 ∧ id ≠ wlDisplay then some (compositor.put id (some resource)) else none

/-- The compositor after a request, or `none` where it refuses it. A protocol error: an object that is not there or not of
    the interface, an id in use, a global that was not announced, a buffer outside its pool, a pool that shrinks, a frame
    before a configure event was acknowledged. Or a frame that may be torn: a buffer attached twice, or destroyed before it
    was released. -/
def next (compositor : Compositor) : Request → Option Compositor
  | .getRegistry registry => compositor.add registry .registry
  | .sync callback => compositor.add callback .callback
  | .bind registry name interface id =>
    if compositor.resources registry = some .registry ∧
      compositor.announced.any (fun g => g.1 == name && g.2.1 == interface && interface.version ≤ g.2.2.toNat) ∧
      interface ≠ .other then
      compositor.add id (.global interface)
    else none
  | .createSurface wlCompositor id =>
    if compositor.resources wlCompositor = some (.global .wlCompositor) then compositor.add id .surface else none
  | .getLayerSurface layerShell id wlSurface =>
    if compositor.resources layerShell = some (.global .layerShell) ∧ compositor.resources wlSurface = some .surface then
      compositor.add id .layerSurface
    else none
  | .setSize layerSurface _ _ | .setAnchor layerSurface _ | .setKeyboardInteractivity layerSurface
  | .setExclusiveZone layerSurface _ =>
    if compositor.resources layerSurface = some .layerSurface then some compositor else none
  | .ackConfigure layerSurface serial =>
    if compositor.resources layerSurface = some .layerSurface ∧ serial ∈ compositor.serials then
      some { compositor with acked := true }
    else none
  | .createPool wlShm id _ size =>
    if compositor.resources wlShm = some (.global .wlShm) ∧ 0 < size then compositor.add id (.pool size) else none
  | .resizePool wlShmPool size =>
    match compositor.resources wlShmPool with
    | some (.pool old) => if old ≤ size then some (compositor.put wlShmPool (some (.pool size))) else none
    | _ => none
  | .destroyPool wlShmPool =>
    match compositor.resources wlShmPool with
    | some (.pool _) => some (compositor.put wlShmPool none)
    | _ => none
  | .createBuffer wlShmPool id offset width height stride _ =>
    match compositor.resources wlShmPool with
    | some (.pool size) =>
      if 0 < width ∧ 0 < height ∧ width * 4 ≤ stride ∧ offset + stride * height ≤ size then
        compositor.add id (.buffer ⟨wlShmPool, offset, width, height, stride⟩ .fresh)
      else none
    | _ => none
  | .destroyBuffer wlBuffer =>
    match compositor.resources wlBuffer with
    | some (.buffer _ .fresh) | some (.buffer _ .released) => some (compositor.put wlBuffer none)
    | _ => none
  | .attach wlSurface wlBuffer =>
    match compositor.resources wlSurface, compositor.resources wlBuffer with
    | some .surface, some (.buffer part .fresh) =>
      some { compositor.put wlBuffer (some (.buffer part .held)) with pending := some wlBuffer }
    | _, _ => none
  | .damage wlSurface _ _ _ _ => if compositor.resources wlSurface = some .surface then some compositor else none
  | .commit wlSurface =>
    if compositor.resources wlSurface = some .surface then
      match compositor.pending with
      | none => some compositor
      | some wlBuffer =>
        if compositor.acked then some { compositor with pending := none, current := some wlBuffer } else none
    else none

/-- The id of an object that is destroyed is given back. -/
def replies : Request → List (Object × Event)
  | .destroyPool id | .destroyBuffer id => [(wlDisplay, .deleteId id)]
  | _ => []

/-- What the compositor does by itself: it sends events, and a callback ends with its event. -/
inductive Move where
  | global (registry : Object) (name : UInt32) (interface : Text) (version : UInt32)
  | globalRemove (registry : Object) (name : UInt32)
  | done (callback : Object) (callbackData : UInt32)
  | configure (layerSurface : Object) (serial width height : UInt32)
  | closed (layerSurface : Object)
  | release (wlBuffer : Object)
  | unheard (object : Object) (event : Event)
  | error (object : Object) (code : UInt32) (message : Text)

/-- The compositor after a move, or `none` where it does not do this now. It is assumed to keep the globals that the
    renderer binds: `wl_compositor`, `wl_shm` and `zwlr_layer_shell_v1` are not withdrawn. -/
def after (compositor : Compositor) : Move → Option Compositor
  | .global registry name interface version =>
    if compositor.resources registry = some .registry then
      some { compositor with announced := (name, interfaceNamed interface.1, version) :: compositor.announced }
    else none
  | .globalRemove registry name =>
    if compositor.resources registry = some .registry ∧
      compositor.announced.all (fun g => g.1 != name || g.2.1 == .other) then some compositor
    else none
  | .done callback _ =>
    if compositor.resources callback = some .callback then some (compositor.put callback none) else none
  | .configure layerSurface serial _ _ =>
    if compositor.resources layerSurface = some .layerSurface then
      some { compositor with serials := serial :: compositor.serials }
    else none
  | .closed layerSurface => if compositor.resources layerSurface = some .layerSurface then some compositor else none
  | .release wlBuffer =>
    match compositor.resources wlBuffer with
    | some (.buffer part .held) => some (compositor.put wlBuffer (some (.buffer part .released)))
    | _ => none
  | .unheard object _ =>
    match compositor.resources object with
    | some (.global _) | some .surface => some compositor
    | _ => none
  | .error .. => some compositor

/-- The events of a move. A callback is destroyed by its event; the globals and the surface have no listener. -/
def events : Move → List (Object × Event)
  | .global registry name interface version => [(registry, .global name interface version)]
  | .globalRemove registry name => [(registry, .globalRemove name)]
  | .done callback callbackData => [(callback, .done callbackData), (wlDisplay, .deleteId callback)]
  | .configure layerSurface serial width height => [(layerSurface, .layerSurface (.configure serial width height))]
  | .closed layerSurface => [(layerSurface, .layerSurface .closed)]
  | .release wlBuffer => [(wlBuffer, .release)]
  | .unheard object event => [(object, event)]
  | .error object code message => [(wlDisplay, .error object code message)]

end Compositor

/-- The compositor takes requests and makes moves. -/
def compositor : Channel.Server Compositor Request (Object × Event) Compositor.Move where
  accept compositor request := (compositor.next request).map fun compositor => (compositor, Compositor.replies request)
  move compositor move := (compositor.after move).map fun compositor => (compositor, Compositor.events move)

/-! ### The two together -/

/-- The renderer, and each buffer it sent with the frame it had drawn there, the latest first. -/
structure Drawer where
  renderer : Renderer
  drawn : List (Object × Bytes) := []

/-- The frames in the buffers that these requests create, as the memory is now. -/
def framesOf (renderer : Renderer) (requests : List Request) : List (Object × Bytes) :=
  match renderer.screen with
  | none => []
  | some screen => requests.filterMap fun
    | .createBuffer _ id offset _ height stride _ => some (id, screen.swapChain.read ⟨offset, stride * height⟩)
    | _ => none

/-- What the renderer wrote is left to the channel. -/
def Drawer.flush (drawer : Drawer) (renderer : Renderer) : Drawer where
  renderer := { renderer with connection := { renderer.connection with written := [] } }
  drawn := framesOf renderer renderer.connection.written ++ drawer.drawn

section
variable (ar : F32Arith) (session : Session)

/-- What the renderer does in one piece: it hands an event to its listener, or, where `main` has come to it, sets the
    surface up, or draws a frame. -/
inductive Drawer.Acts : Drawer → Option (Object × Event) → Renderer → Prop
  | handle {drawer : Drawer} {renderer : Renderer} {object : Object} {event : Event}
    (h : drawer.renderer.handle object event = .ok renderer) : Acts drawer (some (object, event)) renderer
  | setUp {drawer : Drawer} {renderer : Renderer} (hdone : drawer.renderer.registrationDone = true)
    (hsurface : drawer.renderer.surface = none) (h : Renderer.setUp session drawer.renderer = .ok renderer) :
    Acts drawer none renderer
  | firstFrame {drawer : Drawer} {renderer : Renderer} {host : Option UInt32}
    (hconfigured : drawer.renderer.state.surfaceConfigured = true) (hscreen : drawer.renderer.screen = none)
    (h : Renderer.firstFrame ar session host drawer.renderer = .ok renderer) : Acts drawer none renderer
  | nextFrame {drawer : Drawer} {renderer : Renderer} {host : Option UInt32} {message : ParsedMessage}
    (hclosed : drawer.renderer.state.closed = false)
    (h : Renderer.nextFrame ar session host drawer.renderer message = .ok renderer) : Acts drawer none renderer

/-- A step of the renderer, with the requests that it writes and whether it flushes them. -/
def Drawer.step (drawer : Drawer) (event : Option (Object × Event)) (drawer' : Drawer) (requests : List Request) : Prop :=
  ∃ renderer, Drawer.Acts ar session drawer event renderer ∧ requests = renderer.connection.written ∧
    drawer' = drawer.flush renderer

end

/-- The renderer, the compositor, and what is between them. -/
abbrev World := Channel.World Drawer Compositor Request (Object × Event)

/-- The renderer has asked for the registry and the callback; nothing is sent before its first `recv`. -/
def World.start (renderer : Renderer) : World where
  client := ({ renderer := {} } : Drawer).flush renderer
  unsent := renderer.connection.written
  server := {}
  requests := []
  events := []

/-- A state of the two that is reached by steps in any order. -/
def Reachable (ar : F32Arith) (session : Session) (w : World) : Prop :=
  ∃ renderer, Renderer.begin = .ok renderer ∧
    Channel.Reaches compositor (Drawer.step ar session) (World.start renderer) w

/-! ### Runs -/

/-- A step of the two: the renderer takes an event, goes on in `main` or draws a frame, or sends what it wrote at events,
    as it does at the start of `recv`; the compositor takes a request or moves. -/
inductive Turn where
  | receive
  | setUp
  | firstFrame (host : Option UInt32)
  | nextFrame (host : Option UInt32) (message : ParsedMessage)
  | flush
  | accept
  | move (move : Compositor.Move)

namespace World

/-- The renderer has acted, and all it wrote is on its way. -/
def acted (w : World) (renderer : Except Error Renderer) : Option World :=
  renderer.toOption.map fun renderer =>
    ⟨w.client.flush renderer, [], w.server, w.requests ++ (w.unsent ++ renderer.connection.written), w.events⟩

/-- The renderer has taken an event, and what it wrote waits. -/
def received (w : World) (renderer : Except Error Renderer) (events : List (Object × Event)) : Option World :=
  renderer.toOption.map fun renderer =>
    ⟨w.client.flush renderer, w.unsent ++ renderer.connection.written, w.server, w.requests, events⟩

/-- The compositor's answer to a request, where these requests are left. -/
def answered (w : World) (requests : List Request) (answer : Option (Compositor × List (Object × Event))) : Option World :=
  answer.map fun (server, events) => ⟨w.client, w.unsent, server, requests, w.events ++ events⟩

/-- The next state, where the turn can be taken. -/
def turn (ar : F32Arith) (session : Session) (w : World) : Turn → Option World
  | .receive =>
    match w.events with
    | [] => none
    | (object, event) :: events => w.received (w.client.renderer.handle object event) events
  | .setUp =>
    if w.client.renderer.registrationDone ∧ w.client.renderer.surface = none then w.acted (w.client.renderer.setUp session)
    else none
  | .firstFrame host =>
    if w.client.renderer.state.surfaceConfigured ∧ w.client.renderer.screen.isNone then
      w.acted (w.client.renderer.firstFrame ar session host)
    else none
  | .nextFrame host message =>
    if w.client.renderer.state.closed then none else w.acted (w.client.renderer.nextFrame ar session host message)
  | .flush => some ⟨w.client, [], w.server, w.requests ++ w.unsent, w.events⟩
  | .accept =>
    match w.requests with
    | [] => none
    | request :: requests => w.answered requests (compositor.accept w.server request)
  | .move move => w.answered w.requests (compositor.move w.server move)

/-- The state after these turns. -/
def turns (ar : F32Arith) (session : Session) (w : World) : List Turn → Option World
  | [] => some w
  | turn :: turns => (w.turn ar session turn).bind fun w => w.turns ar session turns

end World

end Zlinestatus.Wayland
