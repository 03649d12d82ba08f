import Zlinestatus.Model.Compositor

/-! The loops of `main` with the objects and the memory, and what they do as the program of `Model.Main` sees it. -/

namespace Zlinestatus.Wayland
open Wire (Object)

/-! ### The other program -/

/-- The buffer that one of these requests creates, with the bytes that are in its slot. -/
def Renderer.bufferOf (renderer : Renderer) (requests : List Request) (wlBuffer : Object) : Option WlBuffer :=
  requests.findSome? fun
    | .createBuffer _ id offset width height stride format =>
      if id = wlBuffer then
        renderer.screen.map fun screen => ⟨screen.swapChain.read ⟨offset, stride * height⟩, width, height, stride, format⟩
      else none
    | _ => none

/-- The request without its objects. Those of the pool are left out, and that a buffer is destroyed. -/
def Request.plain (buffers : Object → Option WlBuffer) : Request → Option Zlinestatus.Request
  | getRegistry _ => some .getRegistry
  | sync _ => some .sync
  | bind _ _ interface _ => some (.bind interface)
  | createSurface _ _ => some .createSurface
  | getLayerSurface _ _ _ => some .getLayerSurface
  | setSize _ width height => some (.setSize width height)
  | setAnchor _ anchor => some (.setAnchor anchor)
  | setKeyboardInteractivity _ => some .setKeyboardInteractivity
  | setExclusiveZone _ zone => some (.setExclusiveZone zone)
  | ackConfigure _ serial => some (.ackConfigure serial)
  | createPool _ _ _ _ | resizePool _ _ | destroyPool _ | destroyBuffer _ => none
  | createBuffer _ id _ _ _ _ _ => (buffers id).map .createBuffer
  | attach _ wlBuffer => (buffers wlBuffer).map .attach
  | damage _ x y width height => some (.damage x y width height)
  | commit _ => some .commit

/-- The requests as the other program sends them. -/
def Renderer.summary (renderer : Renderer) (requests : List Request) : List Zlinestatus.Request :=
  requests.filterMap (Request.plain (renderer.bufferOf requests))

/-- What was written, as entries of the log. -/
def Renderer.said (renderer : Renderer) : List Action := (renderer.summary renderer.connection.written).map .sent

/-- The event as the listener of its object gets it. -/
def Renderer.heard (renderer : Renderer) (object : Object) (event : Event) : Zlinestatus.Event :=
  match renderer.connection.objects object, event with
  | some (some _), .global _ interface version => .global (interfaceNamed interface.1) version.toNat
  | some (some _), .done _ => .callbackDone
  | some (some _), .layerSurface event => .layerSurface event
  | _, _ => .other

/-- The locals without the objects. -/
def Renderer.client (renderer : Renderer) (log : List Action) : Client where
  globals := ⟨renderer.wlShm.isSome, renderer.wlCompositor.isSome, renderer.layerShell.isSome⟩
  registrationDone := renderer.registrationDone
  layerSurface := renderer.surface.isSome
  state := renderer.state
  log := log

/-! ### Deeds -/

/-- What the renderer does in a round, with what it is to the other program. -/
inductive Deed where
  | dispatched (object : Object) (event : Event) (heard : Zlinestatus.Event)
  | delivered (bytes : Bytes)
  | wrote (request : Request) (plain : Option Zlinestatus.Request)
  | flushed

/-- What of a deed is in the log of the other program, which has a request there when it is written. -/
def Deed.action : Deed → Option Action
  | dispatched _ _ heard => some (.dispatched heard)
  | delivered bytes => some (.delivered bytes)
  | wrote _ plain => plain.map .sent
  | flushed => none

/-- The event of a deed, with its object. -/
def Deed.event : Deed → Option (Object × Event)
  | dispatched object event _ => some (object, event)
  | _ => none

/-- What the log of the other program has of the deeds. -/
def actionsOf (deeds : List Deed) : List Action := deeds.filterMap Deed.action

/-- The events that the deeds took. -/
def eventsOf (deeds : List Deed) : List (Object × Event) := deeds.filterMap Deed.event

/-- What was written, as deeds. -/
def Renderer.wrote (renderer : Renderer) : List Deed :=
  renderer.connection.written.map fun request =>
    .wrote request (request.plain (renderer.bufferOf renderer.connection.written))

/-- What was written, and that it is flushed. -/
def Renderer.sent (renderer : Renderer) : List Deed := renderer.wrote ++ [.flushed]

/-- The requests on their way, and those in the send buffer. -/
structure Outgoing where
  requests : List Request := []
  unsent : List Request := []
  deriving DecidableEq

namespace Outgoing

/-- `flushSendBuffers` -/
def flush (outgoing : Outgoing) : Outgoing := ⟨outgoing.requests ++ outgoing.unsent, []⟩

/-- What a deed does to the requests that go out. -/
def next (outgoing : Outgoing) : Deed → Outgoing
  | .wrote request _ => ⟨outgoing.requests, outgoing.unsent ++ [request]⟩
  | .flushed => outgoing.flush
  | _ => outgoing

/-- The requests that go out, after these deeds. -/
def after (outgoing : Outgoing) (deeds : List Deed) : Outgoing := deeds.foldl next outgoing

end Outgoing

/-! ### Rounds -/

/-- The loop that `main` is in. -/
inductive Loop where
  | registering
  | configuring
  | polling
  deriving DecidableEq

/-- What one round of a loop meets, as in a `Wakeup`: the events that `recv` reads, the memory file of a new pool, and
    whether the requests at the end of the round are sent. -/
structure Round where
  events : List (Object × Event) := []
  recvOk : Bool := true
  host : Option UInt32 := none
  flushOk : Bool := true
  pollOk : Bool := true
  connectionIn : Bool := false
  connectionErr : Bool := false
  socketIn : Bool := false
  socketErr : Bool := false
  delivery : Delivery := .acceptFailed

/-- The round as the other program meets it. -/
def Round.wakeup (round : Round) (events : List Dispatch) (io : FrameIO) : Wakeup where
  recv := ⟨events, round.recvOk⟩
  io := io
  pollOk := round.pollOk
  connectionIn := round.connectionIn
  connectionErr := round.connectionErr
  socketIn := round.socketIn
  socketErr := round.socketErr
  delivery := round.delivery

/-- What a client has delivered in the round. -/
def Round.received (round : Round) : Option Bytes :=
  if !round.socketIn then none
  else if round.socketErr then none
  else
    match round.delivery with
    | .acceptFailed => none
    | .recvFailed => none
    | .bytes bytes => some bytes

namespace Renderer

/-- Hands the events to their listeners. -/
def dispatchAll : Renderer → List (Object × Event) → Except Error (Renderer × List Deed)
  | renderer, [] => .ok (renderer, [])
  | renderer, (object, event) :: events => do
    let next ← renderer.flushed.handle object event
    let (last, deeds) ← next.dispatchAll events
    .ok (last, .dispatched object event (renderer.heard object event) :: next.wrote ++ deeds)

/-- `recv` flushes first. -/
def recv (renderer : Renderer) (round : Round) : Except Error (Renderer × List Deed) := do
  let (renderer, deeds) ← renderer.dispatchAll round.events
  if round.recvOk then .ok (renderer, .flushed :: deeds) else .error .connection

/-- The end of a round that sets the surface up or draws a frame: all requests are flushed. -/
def flush (renderer : Renderer) (round : Round) (loop : Loop) (deeds : List Deed) :
    Except Error (Renderer × Loop × List Deed) :=
  if round.flushOk then .ok (renderer, loop, deeds ++ renderer.sent) else .error .connection

section
variable (parseFloat : Bytes → Option F32) (ar : F32Arith) (session : Session)

/-- `while (!registration_done)` and what follows it. -/
def registerRound (renderer : Renderer) (round : Round) : Except Error (Renderer × Loop × List Deed) := do
  let (renderer, deeds) ← renderer.recv round
  if !renderer.registrationDone then .ok (renderer, .registering, deeds)
  else
    let renderer ← renderer.flushed.setUp session
    renderer.flush round .configuring deeds

/-- `while (!state.surface_configured and !state.closed)` and the first frame. -/
def configureRound (renderer : Renderer) (round : Round) : Except Error (Renderer × Loop × List Deed) := do
  let (renderer, deeds) ← renderer.recv round
  if !renderer.state.surfaceConfigured && !renderer.state.closed then .ok (renderer, .configuring, deeds)
  else
    let renderer ← renderer.flushed.firstFrame ar session round.host
    renderer.flush round .polling deeds

/-- Where the connection has something to read. -/
def recvReady (renderer : Renderer) (round : Round) : Except Error (Renderer × List Deed) :=
  if round.connectionIn then renderer.recv round else .ok (renderer, [])

/-- A round of the poll loop, up to the client connection. -/
def pollConnection (renderer : Renderer) (round : Round) : Except Error (Renderer × List Deed) :=
  if !round.pollOk then .error .poll
  else do
    let (renderer, deeds) ← renderer.recvReady round
    if round.connectionErr then .error .waylandConnectionClosed
    else if renderer.state.closed then .error .surfaceClosed
    else .ok (renderer, deeds)

def pollRound (renderer : Renderer) (round : Round) : Except Error (Renderer × Loop × List Deed) := do
  let (renderer, deeds) ← renderer.pollConnection round
  match round.received with
  | none => .ok (renderer, .polling, deeds)
  | some bytes =>
    let deeds := deeds ++ [.delivered bytes]
    match acceptMessage parseFloat ar bytes with
    | none => .ok (renderer, .polling, deeds)
    | some message =>
      let renderer ← renderer.flushed.nextFrame ar session round.host message
      renderer.flush round .polling deeds

/-- A round of the loop that `main` is in, and what it does, the oldest deed first. -/
def round (renderer : Renderer) (loop : Loop) (round : Round) : Except Error (Renderer × Loop × List Deed) :=
  match loop with
  | .registering => renderer.registerRound session round
  | .configuring => renderer.configureRound ar session round
  | .polling => renderer.pollRound parseFloat ar session round

/-- Rounds that all end without an error. -/
def rounds (renderer : Renderer) (loop : Loop) : List Round → Except Error (Renderer × Loop × List Deed)
  | [] => .ok (renderer, loop, [])
  | first :: later => do
    let (renderer, loop, deeds) ← renderer.round parseFloat ar session loop first
    let (renderer, loop, more) ← renderer.rounds loop later
    .ok (renderer, loop, deeds ++ more)

/-- `main` from the connection on. -/
def run (later : List Round) : Except Error (Renderer × Loop × List Deed) := do
  let renderer ← Renderer.begin
  let (last, loop, deeds) ← renderer.rounds parseFloat ar session .registering later
  .ok (last, loop, renderer.wrote ++ deeds)

end

end Renderer

/-- `main` at the head of a loop and the compositor, with the requests in the send buffer and the requests and the events
    on their way. In any order, `main` goes through a round, in which it reads some of these events; `recv` has flushed, and
    waits for what the round will read; the compositor takes a request or moves. -/
inductive Interleaved (parseFloat : Bytes → Option F32) (ar : F32Arith) (session : Session) :
    Renderer → Loop → Compositor → Outgoing → List (Object × Event) → Prop
  | start {renderer : Renderer} (h : Renderer.begin = .ok renderer) :
    Interleaved parseFloat ar session renderer.flushed .registering {} ⟨[], renderer.connection.written⟩ []
  | flush {renderer : Renderer} {loop : Loop} {c : Compositor} {outgoing : Outgoing} {events : List (Object × Event)}
    (h : Interleaved parseFloat ar session renderer loop c outgoing events) :
    Interleaved parseFloat ar session renderer loop c outgoing.flush events
  | round {renderer renderer' : Renderer} {loop loop' : Loop} {c : Compositor} {outgoing : Outgoing}
    {events : List (Object × Event)} {deeds : List Deed} {round : Round}
    (h : Interleaved parseFloat ar session renderer loop c outgoing (eventsOf deeds ++ events))
    (hok : renderer.round parseFloat ar session loop round = .ok (renderer', loop', deeds)) :
    Interleaved parseFloat ar session renderer'.flushed loop' c (outgoing.after deeds) events
  | accept {renderer : Renderer} {loop : Loop} {c c' : Compositor} {request : Request} {requests unsent : List Request}
    {events replies : List (Object × Event)}
    (h : Interleaved parseFloat ar session renderer loop c ⟨request :: requests, unsent⟩ events)
    (hok : compositor.accept c request = some (c', replies)) :
    Interleaved parseFloat ar session renderer loop c' ⟨requests, unsent⟩ (events ++ replies)
  | move {renderer : Renderer} {loop : Loop} {c c' : Compositor} {move : Compositor.Move} {outgoing : Outgoing}
    {events sent : List (Object × Event)} (h : Interleaved parseFloat ar session renderer loop c outgoing events)
    (hok : compositor.move c move = some (c', sent)) :
    Interleaved parseFloat ar session renderer loop c' outgoing (events ++ sent)

/-- The head of a loop as the other program has it. -/
def Renderer.phase (renderer : Renderer) : Loop → Phase
  | .registering => .registering
  | .configuring => .configuring
  | .polling => renderer.screen.elim (.stopped .panicked) fun screen => .running screen.width screen.height

end Zlinestatus.Wayland
