import Zlinestatus.Model.SwapChain

/-! The renderer with its objects: its listeners, and what it does between events. `Model.Main` is the same program
    without ids and memory. -/

namespace Zlinestatus.Wayland
open Wire (Object Text wlDisplay)

/-- `wl_surface` and `layer_surface` -/
structure Surface where
  wlSurface : Object
  layerSurface : Object
  deriving DecidableEq

/-- The swapchain, and the locals `width` and `height`. -/
structure Screen where
  swapChain : SwapChain
  width : UInt32
  height : UInt32

/-- The locals of `main`; `surface` and `screen` are there once they are created. -/
structure Renderer where
  connection : Connection := {}
  wlShm : Option Object := none
  wlCompositor : Option Object := none
  layerShell : Option Object := none
  registrationDone : Bool := false
  state : AppState := {}
  surface : Option Surface := none
  screen : Option Screen := none

namespace Renderer

/-- What was written is left to the send buffer. -/
def flushed (renderer : Renderer) : Renderer :=
  { renderer with connection := { renderer.connection with written := [] } }

/-! ### Event listeners -/

/-- The global that was bound. -/
def bound (renderer : Renderer) (interface : Interface) (id : Object) : Renderer :=
  match interface with
  | .wlCompositor => { renderer with wlCompositor := some id }
  | .wlShm => { renderer with wlShm := some id }
  | .layerShell => { renderer with layerShell := some id }
  | .other => renderer

def onRegistryEvent (renderer : Renderer) (registry : Object) (name : UInt32) (interface : Text) (version : UInt32) :
    Except Error Renderer :=
  let interface := interfaceNamed interface.1
  if interface ≠ .other ∧ interface.version ≤ version.toNat then
    (renderer.connection.create (.bind registry name interface)).map fun (id, connection) =>
      { renderer with connection := connection }.bound interface id
  else .ok renderer

def onLayerSurfaceEvent (renderer : Renderer) (layerSurface : Object) : LayerSurfaceEvent → Renderer
  | .configure serial width height =>
    { renderer with
      connection := renderer.connection.write (.ackConfigure layerSurface serial)
      state := { renderer.state with
        width := if 0 < width then width else renderer.state.width
        height := if 0 < height then height else renderer.state.height
        surfaceConfigured := true } }
  | .closed => { renderer with state := { renderer.state with closed := true } }

def onWlCallbackSetTrue (renderer : Renderer) : Renderer := { renderer with registrationDone := true }

/-- `ShmSwapChain.onWlBufferEvent`; buffers have listeners since there is a swapchain. -/
def onWlBufferEvent (renderer : Renderer) (wlBuffer : Object) : Except Error Renderer :=
  match renderer.screen with
  | none => .error .panicked
  | some screen =>
    (screen.swapChain.onWlBufferEvent renderer.connection wlBuffer).map fun (swapChain, connection) =>
      { renderer with connection := connection, screen := some { screen with swapChain := swapChain } }

/-- An event of `wl_display`; of an error there is only a line in the log. -/
def onDisplayEvent (renderer : Renderer) : Event → Except Error Renderer
  | .deleteId id => .ok { renderer with connection := renderer.connection.deleteId id }
  | .error .. => .ok renderer
  | _ => .error .unknownObject

/-- An event with the listener of its object. -/
def listen (renderer : Renderer) (object : Object) : Listener → Event → Except Error Renderer
  | .registry, .global name interface version => renderer.onRegistryEvent object name interface version
  | .registry, .globalRemove _ => .ok renderer
  | .callback, .done _ => .ok renderer.onWlCallbackSetTrue
  | .layerSurface, .layerSurface event => .ok (renderer.onLayerSurfaceEvent object event)
  | .buffer, .release => renderer.onWlBufferEvent object
  | _, _ => .error .unknownObject

/-- One event of an object: to its listener, to `wl_display`, to nobody, or for an object that does not exist. -/
def handle (renderer : Renderer) (object : Object) (event : Event) : Except Error Renderer :=
  match renderer.connection.objects object with
  | some (some listener) => renderer.listen object listener event
  | some none => .ok renderer
  | none => if object = wlDisplay then renderer.onDisplayEvent event else .error .unknownObject

/-! ### Between events -/

/-- The registry and the callback, with their listeners. -/
def begin : Except Error Renderer := do
  let (registry, connection) ← ({} : Connection).create .getRegistry
  let (callback, connection) ← connection.create .sync
  let connection ← connection.setEventListener registry .registry
  let connection ← connection.setEventListener callback .callback
  .ok { connection := connection }

/-- The size and the anchor of the layer surface, and the rest of its state. -/
def placeRequests (session : Session) (layerSurface : Object) : List Request :=
  (match session.config.orientation with
    | .horizontal =>
      [.setSize layerSurface 0 lineThickness.toNat,
        .setAnchor layerSurface ⟨session.position == .top, session.position == .bottom, true, true⟩]
    | .vertical =>
      [.setSize layerSurface lineThickness.toNat 0,
        .setAnchor layerSurface ⟨true, true, session.position == .left, session.position == .right⟩]) ++
    [.setKeyboardInteractivity layerSurface, .setExclusiveZone layerSurface 0]

/-- What follows the loop that waits for the registration. -/
def setUp (session : Session) (renderer : Renderer) : Except Error Renderer := do
  match renderer.wlCompositor, renderer.wlShm, renderer.layerShell with
  | none, _, _ => .error .wlCompositorNotFound
  | some _, none, _ => .error .wlShmNotFound
  | some _, some _, none => .error .layerShellNotFound
  | some wlCompositor, some _, some layerShell =>
    let (wlSurface, connection) ← renderer.connection.create (.createSurface wlCompositor)
    let (layerSurface, connection) ← connection.create (.getLayerSurface layerShell · wlSurface)
    let connection := (placeRequests session layerSurface).foldl Connection.write connection
    let connection ← connection.setEventListener layerSurface .layerSurface
    .ok { renderer with
      connection := connection.write (.commit wlSurface)
      state := {}
      surface := some ⟨wlSurface, layerSurface⟩ }

/-- `renderFrame` -/
def renderFrame (ar : F32Arith) (host : Option UInt32) (connection : Connection) (swapChain : SwapChain)
    (wlSurface : Object) (width height : ℕ) (percent : F32) (orientation : Orientation) (alignment : Alignment)
    (color : Pixel) : Except Error (SwapChain × Connection) := do
  match framebufferByteSize width height, usizeMul width 4 with
  | some byteSize, some stride =>
    match castU31 byteSize, castU31 stride with
    | some byteSize, some stride =>
      let (mapped, swapChain, connection) ← swapChain.mapBuffer host connection byteSize
      match drawPercent ar (bytesAsSlice (swapChain.read mapped)) width height percent orientation alignment color,
          castU31 width, castU31 height with
      | some pixels, some w, some h =>
        let (wlBuffer, swapChain, connection) ← (swapChain.store mapped (sliceAsBytes pixels)).sendBuffer connection
          mapped w h stride .argb8888
        .ok (swapChain, ((connection.write (.attach wlSurface wlBuffer)).write (.damage wlSurface 0 0 w h)).write
          (.commit wlSurface))
      | _, _, _ => .error .panicked
    | _, _ => .error .frameTooLarge
  | _, _ => .error .panicked

section
variable (ar : F32Arith) (session : Session)

/-- A call of `renderFrame` by `main`. -/
def draw (host : Option UInt32) (renderer : Renderer) (surface : Surface) (screen : Screen) (percent : F32)
    (color : Pixel) : Except Error Renderer :=
  (renderFrame ar host renderer.connection screen.swapChain surface.wlSurface screen.width.toNat screen.height.toNat
    percent session.config.orientation session.config.alignment color).map fun (swapChain, connection) =>
      { renderer with connection := connection, screen := some { screen with swapChain := swapChain } }

/-- What follows the loop that waits for the configuration: the swapchain, and the first frame. -/
def firstFrame (host : Option UInt32) (renderer : Renderer) : Except Error Renderer :=
  if renderer.state.closed then .error .surfaceClosed
  else
    match renderer.surface, renderer.wlShm with
    | some surface, some wlShm =>
      let (width, height) := frameSize session renderer.state
      renderer.draw ar session host surface ⟨{ wlShm := wlShm }, width, height⟩ (.finite 0) session.style.defaultColor
    | _, _ => .error .panicked

/-- The frame for a message. -/
def nextFrame (host : Option UInt32) (renderer : Renderer) (message : ParsedMessage) : Except Error Renderer :=
  match renderer.surface, renderer.screen with
  | some surface, some screen =>
    renderer.draw ar session host surface screen message.percent (pickColorForStates session.style message.states)
  | _, _ => .error .panicked

end

end Renderer

end Zlinestatus.Wayland
