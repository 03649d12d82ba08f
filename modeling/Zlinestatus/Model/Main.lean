import Zlinestatus.Lib.Run
import Zlinestatus.Model.Message
import Zlinestatus.Model.Render

/-! The renderer as a whole: start-up, the two wait loops and the poll loop. A `Wakeup` is what one round
    of the loop in progress meets; the log lists what happened, the newest entry first. -/

namespace Zlinestatus

/-! ### Events and the log -/

/-- The events of `zwlr_layer_surface_v1`. -/
inductive LayerSurfaceEvent where
  | configure (serial width height : UInt32)
  | closed
  deriving DecidableEq

/-- The events the renderer listens to, and any other. -/
inductive Event where
  | global (interface : Interface) (version : ℕ)
  | callbackDone
  | layerSurface (event : LayerSurfaceEvent)
  | other
  deriving DecidableEq

/-- An entry of the log: an event handed to its listener, a request sent, bytes received from a client. -/
inductive Action where
  | dispatched (event : Event)
  | sent (request : Request)
  | delivered (bytes : Bytes)
  deriving DecidableEq

/-! ### State -/

def lineThickness : UInt32 := 3
def defaultWidth : UInt32 := 1920
def defaultHeight : UInt32 := 1080

/-- Which of the three globals are bound. -/
structure Globals where
  wlShm : Bool := false
  wlCompositor : Bool := false
  layerShell : Bool := false
  deriving DecidableEq

/-- What the listener of the layer surface writes and `main` reads. -/
structure AppState where
  surfaceConfigured : Bool := false
  width : UInt32 := defaultWidth
  height : UInt32 := lineThickness
  closed : Bool := false
  deriving DecidableEq

/-- The locals of `main` that events reach, whether the layer surface exists yet, and the log. -/
structure Client where
  globals : Globals := {}
  registrationDone : Bool := false
  layerSurface : Bool := false
  state : AppState := {}
  log : List Action := []
  deriving DecidableEq

/-- Enters the actions in the log, in order. -/
def Client.record (client : Client) (actions : List Action) : Client :=
  { client with log := actions.reverse ++ client.log }

/-- Calls that send requests: those sent enter the log. -/
def Client.send (client : Client) (call : List Request × Except Error Unit) : Client × Except Error Unit :=
  (client.record (call.1.map .sent), call.2)

/-! ### Event listeners -/

/-- `VERSION` of the bindings. The library's build generates those of the core interfaces with versions of its own. -/
def Interface.version : Interface → ℕ
  | .wlCompositor => 4
  | .wlShm => 1
  | .layerShell => 4
  | .other => 0

/-- The global is bound. -/
def Globals.bound (globals : Globals) : Interface → Globals
  | .wlCompositor => { globals with wlCompositor := true }
  | .wlShm => { globals with wlShm := true }
  | .layerShell => { globals with layerShell := true }
  | .other => globals

/-- `writeOk` says whether the request of the listener is sent. -/
def onRegistryEvent (client : Client) (writeOk : Bool) (interface : Interface) (version : ℕ) :
    Client × Except Error Unit :=
  if interface ≠ .other ∧ interface.version ≤ version then
    if writeOk then
      ({ client.record [.sent (.bind interface)] with globals := client.globals.bound interface }, .ok ())
    else (client, .error .connection)
  else (client, .ok ())

def onLayerSurfaceEvent (client : Client) (writeOk : Bool) : LayerSurfaceEvent → Client × Except Error Unit
  | .configure serial width height =>
    if writeOk then
      ({ client.record [.sent (.ackConfigure serial)] with
          state := { client.state with
            width := if 0 < width then width else client.state.width
            height := if 0 < height then height else client.state.height
            surfaceConfigured := true } }, .ok ())
    else (client, .error .connection)
  | .closed => ({ client with state := { client.state with closed := true } }, .ok ())

def onWlCallbackSetTrue (client : Client) : Client × Except Error Unit :=
  ({ client with registrationDone := true }, .ok ())

/-! ### Connection.recv -/

/-- An event read from the socket, and whether its listener manages to send. -/
structure Dispatch where
  event : Event
  writeOk : Bool := true

/-- What one `recv` reads; `ok` is false where flushing, reading or decoding fails in the end. -/
structure Recv where
  events : List Dispatch
  ok : Bool := true

/-- Hands one event to its listener. An event of an object that does not exist is an error. -/
def dispatch (client : Client) (d : Dispatch) : Client × Except Error Unit :=
  match d.event with
  | .global interface version => onRegistryEvent (client.record [.dispatched d.event]) d.writeOk interface version
  | .callbackDone => onWlCallbackSetTrue (client.record [.dispatched d.event])
  | .layerSurface event =>
    if client.layerSurface then onLayerSurfaceEvent (client.record [.dispatched d.event]) d.writeOk event
    else (client, .error .unknownObject)
  | .other => (client.record [.dispatched d.event], .ok ())

/-- Hands the events to their listeners, up to the first that fails. -/
def connectionRecv (client : Client) (recv : Recv) : Client × Except Error Unit :=
  match Run.each dispatch client recv.events with
  | (client, .ok ()) => (client, if recv.ok then .ok () else .error .connection)
  | failed => failed

/-! ### Start-up -/

/-- What the process starts with, and how its first calls end. -/
structure Startup where
  args : List Bytes
  env : Environment
  socketOk : Bool := true
  bindOk : Bool := true
  connectionOk : Bool := true
  sends : ℕ

/-- What `main` has read before it connects. -/
structure Session where
  config : Config
  position : Position
  style : StyleConfig

/-- The path of the socket that `zsendvalue` sends to. -/
def socketPath (xdgRuntimeDir typeArg : Bytes) : Bytes :=
  xdgRuntimeDir ++ ascii "/zlinestatus-" ++ typeArg ++ ascii ".sock"

/-- `main` up to the connection. `sockaddr.un` has room for 108 bytes. -/
def prepare (startup : Startup) : Except Error Session := do
  let config ← match parseArgs startup.args with
    | .error _ => .error .invalidArgs
    | .ok config => .ok config
  let position ← config.resolvedPosition
  match startup.env.xdgRuntimeDir with
  | none => .error .noXdgRuntimeDir
  | some xdgRuntimeDir =>
    let style ← loadStyleConfig startup.env config.typeArg
    if !startup.socketOk then .error .socket
    else if (socketPath xdgRuntimeDir config.typeArg).length ≥ 108 then .error .nameTooLong
    else if !startup.bindOk then .error .socket
    else if !startup.connectionOk then .error .connection
    else .ok ⟨config, position, style⟩

/-- The requests that set the surface up; the commit at their end has no buffer. -/
def surfaceRequests (session : Session) : List Request :=
  [.createSurface, .getLayerSurface] ++
    (match session.config.orientation with
    | .horizontal =>
      [.setSize 0 lineThickness.toNat,
        .setAnchor ⟨session.position == .top, session.position == .bottom, true, true⟩]
    | .vertical =>
      [.setSize lineThickness.toNat 0,
        .setAnchor ⟨true, true, session.position == .left, session.position == .right⟩]) ++
    [.setKeyboardInteractivity, .setExclusiveZone 0, .commit]

/-! ### The loops -/

/-- What accepting a client and reading from it gives. -/
inductive Delivery where
  | acceptFailed
  | recvFailed
  | bytes (bytes : Bytes)

/-- What one round of a loop meets: the `recv` it makes, what `poll` reports, the client connection it
    accepts and how the calls that send go. The wait loops use the first and the last. -/
structure Wakeup where
  recv : Recv := ⟨[], true⟩
  io : FrameIO
  pollOk : Bool := true
  connectionIn : Bool := false
  connectionErr : Bool := false
  socketIn : Bool := false
  socketErr : Bool := false
  delivery : Delivery := .acceptFailed

/-- Where `main` is. `running` is the head of the poll loop, with the locals `width` and `height`; what ran
    before it has checked `closed`, so that the loop never ends by its condition, only by an error. -/
inductive Phase where
  | registering
  | configuring
  | running (width height : UInt32)
  | stopped (error : Error)
  deriving DecidableEq

section
variable (parseFloat : Bytes → Option F32) (ar : F32Arith) (session : Session)

/-- A call of `renderFrame`, and the head of the poll loop behind it. -/
def drawFrame (client : Client) (io : FrameIO) (width height : UInt32) (percent : F32) (color : Pixel) :
    Client × Phase :=
  match client.send (renderFrame ar io width.toNat height.toNat percent session.config.orientation
    session.config.alignment color) with
  | (client, .ok ()) => (client, .running width height)
  | (client, .error e) => (client, .stopped e)

/-- `while (!registration_done) try connection.recv();` and what follows it up to the next loop. -/
def registerRound (client : Client) (wakeup : Wakeup) : Client × Phase :=
  match connectionRecv client wakeup.recv with
  | (client, .error e) => (client, .stopped e)
  | (client, .ok ()) =>
    if !client.registrationDone then (client, .registering)
    else if !client.globals.wlCompositor then (client, .stopped .wlCompositorNotFound)
    else if !client.globals.wlShm then (client, .stopped .wlShmNotFound)
    else if !client.globals.layerShell then (client, .stopped .layerShellNotFound)
    else
      match client.send (sendAll wakeup.io.sends (surfaceRequests session)) with
      | (client, .error e) => (client, .stopped e)
      | (client, .ok ()) => ({ client with layerSurface := true, state := {} }, .configuring)

/-- The locals `width` and `height`. -/
def frameSize (state : AppState) : UInt32 × UInt32 :=
  (if state.width = 0 then (if session.config.orientation = .vertical then lineThickness else defaultWidth)
    else state.width,
    if state.height = 0 then (if session.config.orientation = .vertical then defaultHeight else lineThickness)
    else state.height)

/-- `while (!state.surface_configured and !state.closed) try connection.recv();` and the first frame. -/
def configureRound (client : Client) (wakeup : Wakeup) : Client × Phase :=
  match connectionRecv client wakeup.recv with
  | (client, .error e) => (client, .stopped e)
  | (client, .ok ()) =>
    if !client.state.surfaceConfigured && !client.state.closed then (client, .configuring)
    else if client.state.closed then (client, .stopped .surfaceClosed)
    else
      let (width, height) := frameSize session client.state
      drawFrame ar session client wakeup.io width height (.finite 0) session.style.defaultColor

/-- The bytes a round of the poll loop receives from a client; `none` where the round continues without
    them: nothing to accept, an error on the socket, `accept` or `recv` failed. -/
def Wakeup.received (wakeup : Wakeup) : Option Bytes :=
  if !wakeup.socketIn then none
  else if wakeup.socketErr then none
  else
    match wakeup.delivery with
    | .acceptFailed => none
    | .recvFailed => none
    | .bytes bytes => some bytes

/-- The first half of a round of the poll loop, up to the client connection. -/
def pollConnection (client : Client) (wakeup : Wakeup) : Client × Except Error Unit :=
  if !wakeup.pollOk then (client, .error .poll)
  else
    match (if wakeup.connectionIn then connectionRecv client wakeup.recv else (client, .ok ())) with
    | (client, .error e) => (client, .error e)
    | (client, .ok ()) =>
      if wakeup.connectionErr then (client, .error .waylandConnectionClosed)
      else if client.state.closed then (client, .error .surfaceClosed)
      else (client, .ok ())

def pollRound (client : Client) (width height : UInt32) (wakeup : Wakeup) : Client × Phase :=
  match pollConnection client wakeup with
  | (client, .error e) => (client, .stopped e)
  | (client, .ok ()) =>
    match wakeup.received with
    | none => (client, .running width height)
    | some bytes =>
      let client := client.record [.delivered bytes]
      match acceptMessage parseFloat ar bytes with
      | none => (client, .running width height)
      | some message =>
        drawFrame ar session client wakeup.io width height message.percent
          (pickColorForStates session.style message.states)

/-- A round of whichever loop `main` is in. -/
def step (s : Client × Phase) (wakeup : Wakeup) : Client × Phase :=
  match s with
  | (client, .registering) => registerRound session client wakeup
  | (client, .configuring) => configureRound ar session client wakeup
  | (client, .running width height) => pollRound parseFloat ar session client width height wakeup
  | (client, .stopped e) => (client, .stopped e)

/-- `main` at its first loop: the registry and the callback are asked for. -/
def begin (sends : ℕ) : Client × Phase :=
  match ({} : Client).send (sendAll sends [.getRegistry, .sync]) with
  | (client, .error e) => (client, .stopped e)
  | (client, .ok ()) => (client, .registering)

end

def main (parseFloat : Bytes → Option F32) (ar : F32Arith) (startup : Startup) (wakeups : List Wakeup) :
    Client × Phase :=
  match prepare startup with
  | .error e => ({}, .stopped e)
  | .ok session => wakeups.foldl (step parseFloat ar session) (begin startup.sends)

end Zlinestatus
