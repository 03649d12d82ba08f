import Zlinestatus.Theorems.Resize
import Zlinestatus.Theorems.Rounds

/-! The program with the objects and the memory does what the program of `Model.Main` does: round by round, with the same
    locals and the same log. -/

namespace Zlinestatus.Wayland
open Run
open Wire (Object Text)

section
variable {renderer renderer' : Renderer} {o : Object} {event : Event} {connection connection' : Connection}

/-! ### Deeds -/

theorem actionsOf_append (deeds more : List Deed) : actionsOf (deeds ++ more) = actionsOf deeds ++ actionsOf more :=
  List.filterMap_append

theorem actionsOf_wrote (renderer : Renderer) : actionsOf renderer.wrote = renderer.said := by
  rw [actionsOf, Renderer.wrote, List.filterMap_map, Renderer.said, Renderer.summary, List.map_filterMap]
  rfl

theorem actionsOf_sent (renderer : Renderer) : actionsOf renderer.sent = renderer.said := by
  rw [Renderer.sent, actionsOf_append, actionsOf_wrote]
  exact List.append_nil _

/-! ### Events -/

/-- What the renderer relies on between its events: it listens to the layer surface when it has one, and no frame is half
    drawn. -/
structure Sound (renderer : Renderer) : Prop where
  layerSurface : ∀ o, renderer.connection.objects o = some (some .layerSurface) → renderer.surface.isSome
  mapped : ∀ screen, renderer.screen = some screen → screen.swapChain.bufferMappings = []

/-- No object is the layer surface that was not. -/
def Connection.NoLayerSurface (connection connection' : Connection) : Prop :=
  ∀ o, connection'.objects o = some (some .layerSurface) → connection.objects o = some (some .layerSurface)

theorem noLayerSurface_update {id : Object} {old : Option (Option Listener)} (hold : old ≠ some (some .layerSurface))
    (hobjects : connection'.objects = Function.update connection.objects id old) : connection.NoLayerSurface connection' := by
  intro o ho
  rw [hobjects, Function.update_apply] at ho
  split at ho
  · exact (hold ho).elim
  · exact ho

theorem NoLayerSurface.createId {id : Object} (hid : connection.createId = .ok (id, connection')) :
    connection.NoLayerSurface connection' := by
  obtain ⟨nextId, freeIds, -, rfl⟩ := createId_eq hid
  exact noLayerSurface_update (by simp) rfl

theorem client_bound (renderer : Renderer) (interface : Interface) (id : Object) (log : List Action) :
    (renderer.bound interface id).client log =
      { renderer.client log with globals := (renderer.client log).globals.bound interface } := by
  cases interface <;> rfl

theorem Sound.handle (h : Sound renderer) (hok : renderer.handle o event = .ok renderer') : Sound renderer' := by
  cases handled hok with
  | @bind name version interface id connection hobject hinterface hversion hid =>
    refine ⟨fun o ho => ?_, fun screen hscreen => ?_⟩
    · rw [bound_connection] at ho
      rw [bound_surface]
      exact h.layerSurface o (NoLayerSurface.createId hid o ho)
    · rw [bound_screen] at hscreen
      exact h.mapped screen hscreen
  | @layerSurface event hobject => cases event <;> exact ⟨h.layerSurface, h.mapped⟩
  | @release screen chain hobject hscreen hchain =>
    refine ⟨h.layerSurface, fun screen' hsome => ?_⟩
    cases hsome
    obtain ⟨-, _, _, rfl⟩ := SwapChain.onWlBufferEvent_eq hchain
    exact h.mapped screen hscreen
  | done => exact ⟨h.layerSurface, h.mapped⟩
  | @deleteId id hobject =>
    have hsame : renderer.connection.NoLayerSurface (renderer.connection.deleteId id) := noLayerSurface_update (by simp) rfl
    exact ⟨fun o ho => h.layerSurface o (hsame o ho), h.mapped⟩
  | _ => exact h

theorem said_of_written (requests : List Request) (h : renderer.connection.written = requests) :
    renderer.said = (renderer.summary requests).map .sent := by
  rw [Renderer.said, h]

/-- An event, to the renderer and to the other program. -/
theorem dispatch_heard (h : Sound renderer) (hwritten : renderer.connection.written = [])
    (hok : renderer.handle o event = .ok renderer') (log : List Action) :
    dispatch (renderer.client log) { event := renderer.heard o event } =
      (renderer'.client (renderer'.said.reverse ++ .dispatched (renderer.heard o event) :: log), .ok ()) := by
  have hsaid : renderer.said = [] := said_of_written [] hwritten
  cases handled hok with
  | @bind name version interface id connection hobject hinterface hversion hid =>
    have hwritten' := createId_connection hid
    have hsaid' : (Renderer.bound { renderer with connection := connection.write (.bind o name (interfaceNamed interface.1) id) }
        (interfaceNamed interface.1) id).said = [.sent (.bind (interfaceNamed interface.1))] := by
      refine said_of_written [.bind o name (interfaceNamed interface.1) id] ?_
      rw [bound_connection, Connection.write, hwritten', hwritten]
      rfl
    rw [hsaid', client_bound]
    simp only [Renderer.heard, hobject, dispatch, onRegistryEvent]
    rw [if_pos ⟨hinterface, hversion⟩]
    rfl
  | @global name version interface hobject hnot =>
    rw [hsaid]
    simp only [Renderer.heard, hobject, dispatch, onRegistryEvent]
    rw [if_neg hnot]
    rfl
  | @layerSurface event hobject =>
    have hsome : (renderer.client log).layerSurface = true := h.layerSurface o hobject
    simp only [Renderer.heard, hobject, dispatch, if_pos hsome]
    cases event with
    | configure serial width height =>
      have hsaid' : (renderer.onLayerSurfaceEvent o (.configure serial width height)).said = [.sent (.ackConfigure serial)] :=
        said_of_written [.ackConfigure o serial] (congrArg (· ++ [_]) hwritten)
      rw [hsaid']
      rfl
    | closed =>
      have hsaid' : (renderer.onLayerSurfaceEvent o .closed).said = [] := said_of_written [] hwritten
      rw [hsaid']
      rfl
  | @release screen chain hobject hscreen hchain =>
    have hsaid' : Renderer.said { renderer with
        connection := renderer.connection.write (.destroyBuffer o)
        screen := some { screen with swapChain := chain } } = [] :=
      said_of_written [.destroyBuffer o] (congrArg (· ++ [_]) hwritten)
    rw [hsaid']
    simp only [Renderer.heard, hobject]
    rfl
  | @deleteId id hobject =>
    have hsaid' : Renderer.said { renderer with connection := renderer.connection.deleteId id } = [] :=
      said_of_written [] hwritten
    rw [hsaid']
    simp only [Renderer.heard, hobject]
    rfl
  | done hobject =>
    have hsaid' : renderer.onWlCallbackSetTrue.said = [] := said_of_written [] hwritten
    rw [hsaid']
    simp only [Renderer.heard, hobject]
    rfl
  | globalRemove hobject =>
    rw [hsaid]
    simp only [Renderer.heard, hobject]
    rfl
  | unheard hobject =>
    rw [hsaid]
    simp only [Renderer.heard, hobject]
    rfl
  | error hobject =>
    rw [hsaid]
    simp only [Renderer.heard, hobject]
    rfl

theorem Sound.flushed (h : Sound renderer) : Sound renderer.flushed := ⟨h.layerSurface, h.mapped⟩

theorem dispatchAll_heard (h : Sound renderer) {events : List (Object × Event)} {deeds : List Deed}
    (hok : renderer.dispatchAll events = .ok (renderer', deeds)) (log : List Action) :
    Sound renderer' ∧ SameSize renderer renderer' ∧ ∃ heard, Run.each dispatch (renderer.client log) heard =
      (renderer'.client ((actionsOf deeds).reverse ++ log), .ok ()) := by
  induction events generalizing renderer deeds log with
  | nil =>
    cases hok
    exact ⟨h, .of_eq rfl, [], rfl⟩
  | cons x events ih =>
    obtain ⟨o, event⟩ := x
    obtain ⟨next, hnext, hok⟩ := bind_eq_ok.mp hok
    obtain ⟨⟨last, more⟩, hmore, hok⟩ := bind_eq_ok.mp hok
    cases hok
    obtain ⟨hsound, hsize, heard, heach⟩ :=
      ih (h.flushed.handle hnext) hmore (next.said.reverse ++ .dispatched (renderer.heard o event) :: log)
    have hsize₁ : SameSize renderer.flushed next := (handle_frames rfl hnext).2
    refine ⟨hsound, hsize₁.trans hsize, { event := renderer.heard o event } :: heard, ?_⟩
    have hdispatch := dispatch_heard h.flushed rfl hnext log
    change dispatch (renderer.client log) { event := renderer.heard o event } = _ at hdispatch
    simp only [Run.each, hdispatch]
    change Run.each dispatch (next.client (_ ++ .dispatched (renderer.heard o event) :: log)) heard = _
    have hdeeds : actionsOf (.dispatched o event (renderer.heard o event) :: next.wrote ++ more) =
        .dispatched (renderer.heard o event) :: next.said ++ actionsOf more := by
      rw [actionsOf_append, ← actionsOf_wrote]
      rfl
    rw [heach, hdeeds]
    simp

theorem recv_heard (h : Sound renderer) {round : Round} {deeds : List Deed}
    (hok : renderer.recv round = .ok (renderer', deeds)) (log : List Action) :
    Sound renderer' ∧ SameSize renderer renderer' ∧ ∃ heard, connectionRecv (renderer.client log) ⟨heard, round.recvOk⟩ =
      (renderer'.client ((actionsOf deeds).reverse ++ log), .ok ()) := by
  obtain ⟨later, rfl, hall, hrecv⟩ := recv_eq_ok hok
  obtain ⟨hsound, hsize, heard, heach⟩ := dispatchAll_heard h hall log
  refine ⟨hsound, hsize, heard, ?_⟩
  simp only [connectionRecv, heach, hrecv, if_true]
  rfl

/-! ### The surface -/

variable {session : Session}

theorem setUp_client (h : Sound renderer) (hwritten : renderer.connection.written = [])
    (hok : renderer.setUp session = .ok renderer') :
    renderer'.said = (surfaceRequests session).map .sent ∧ Sound renderer' ∧
      (renderer.client []).globals = ⟨true, true, true⟩ ∧
      ∀ log, renderer'.client log = { renderer.client log with layerSurface := true, state := {} } := by
  obtain ⟨wlCompositor, layerShell, wlSurface, layerSurface, connection₁, connection₂, hcompositor, hshm, hshell, hid₁, hid₂,
    rfl⟩ := setUp_eq_ok hok
  have hwritten₁ := createId_connection hid₁
  have hwritten₂ := createId_connection hid₂
  refine ⟨?_, ⟨fun _ _ => rfl, h.mapped⟩, ?_, fun log => rfl⟩
  · refine (said_of_written ([.createSurface wlCompositor wlSurface, .getLayerSurface layerShell layerSurface wlSurface] ++
      Renderer.placeRequests session layerSurface ++ [.commit wlSurface]) ?_).trans ?_
    · change ((connection₂.written ++ _) ++ _) ++ _ = _
      rw [hwritten₂]
      change (((connection₁.written ++ _) ++ _) ++ _) ++ _ = _
      rw [hwritten₁, hwritten]
      rfl
    · unfold Renderer.placeRequests surfaceRequests
      cases session.config.orientation <;> rfl
  · rw [Renderer.client, hcompositor, hshell, hshm]
    rfl

/-! ### Frames -/

/-- A request that is about the pool alone. -/
def Request.OfPool : Request → Prop
  | createPool _ _ _ _ | resizePool _ _ | destroyPool _ | destroyBuffer _ => True
  | _ => False

/-- What the swapchain does with its pool. -/
structure Pooled (connection connection' : Connection) : Prop where
  written : ∃ requests, (∀ request ∈ requests, request.OfPool) ∧ connection'.written = connection.written ++ requests
  listeners : connection.NoLayerSurface connection'

theorem Pooled.refl (connection : Connection) : Pooled connection connection :=
  ⟨⟨[], fun _ h => (by cases h), (List.append_nil _).symm⟩, fun _ ho => ho⟩

theorem Pooled.trans {connection'' : Connection} (h : Pooled connection connection') (h' : Pooled connection' connection'') :
    Pooled connection connection'' := by
  obtain ⟨requests, hpool, hwritten⟩ := h.written
  obtain ⟨requests', hpool', hwritten'⟩ := h'.written
  refine ⟨⟨requests ++ requests', fun request hmem => ?_, ?_⟩, fun o ho => h.listeners o (h'.listeners o ho)⟩
  · rcases List.mem_append.mp hmem with hmem | hmem
    · exact hpool request hmem
    · exact hpool' request hmem
  · rw [hwritten', hwritten, List.append_assoc]

theorem Pooled.write {request : Request} (h : request.OfPool) : Pooled connection (connection.write request) :=
  ⟨⟨[request], fun _ hmem => List.mem_singleton.mp hmem ▸ h, rfl⟩, fun _ ho => ho⟩

theorem Pooled.createId {id : Object} (hid : connection.createId = .ok (id, connection')) : Pooled connection connection' :=
  ⟨⟨[], fun _ h => (by cases h), by rw [createId_connection hid, List.append_nil]⟩, NoLayerSurface.createId hid⟩

variable {chain chain' : SwapChain} {numBytes : ℕ} {slice : Slice}

theorem ensureSize_pooled {fd : UInt32} (hok : chain.ensureSize connection fd numBytes = .ok (chain', connection')) :
    Pooled connection connection' ∧ (chain.bufferMappings = [] → chain'.bufferMappings = []) := by
  unfold SwapChain.ensureSize at hok
  split at hok
  · obtain ⟨id, c, -, hid, rfl, rfl⟩ := SwapChain.recreatePool_eq_ok hok
    have hbuffers : Pooled connection (chain.bufferIndices.foldl (fun connection entry =>
        connection.write (.destroyBuffer entry.1)) connection) := by
      rw [foldl_write fun entry : Object × ℕ => .destroyBuffer entry.1]
      refine ⟨⟨_, fun request hmem => ?_, rfl⟩, fun _ ho => ho⟩
      obtain ⟨entry, -, rfl⟩ := List.mem_map.mp hmem
      trivial
    refine ⟨(hbuffers.trans ?_).trans ((Pooled.createId hid).trans (.write trivial)), fun _ => rfl⟩
    cases chain.shmPool with
    | none => exact .refl _
    | some pool => exact .write trivial
  · cases hok
    exact ⟨.refl _, id⟩

theorem takeIndex_pooled {pool : ShmPool} {index : ℕ}
    (hok : chain.takeIndex connection pool = .ok (index, chain', connection')) :
    Pooled connection connection' ∧ chain'.bufferMappings = chain.bufferMappings := by
  rcases SwapChain.takeIndex_eq_ok hok with ⟨free, -, rfl, rfl⟩ | ⟨-, rfl, -, rfl, rfl⟩
  · exact ⟨.refl _, rfl⟩
  · refine ⟨?_, rfl⟩
    split
    · exact .write trivial
    · exact .refl _

theorem mapBuffer_pooled {host : Option UInt32} (hmapped : chain.bufferMappings = [])
    (hok : chain.mapBuffer host connection numBytes = .ok (slice, chain', connection')) : Pooled connection connection' ∧
      ∃ index, chain'.bufferMappings = [(slice, index)] ∧ slice = ⟨index * chain'.maxBufferSize, numBytes⟩ := by
  obtain ⟨fd, chain₁, connection₁, pool, index, chain₂, rfl, hgrow, -, -, htake, hslot⟩ := SwapChain.mapBuffer_eq_ok.mp hok
  obtain ⟨-, -, -, -, rfl, rfl⟩ := SwapChain.mapSlot_eq_ok.mp hslot
  obtain ⟨hpooled₁, hmapped₁⟩ := ensureSize_pooled hgrow
  obtain ⟨hpooled₂, hmapped₂⟩ := takeIndex_pooled htake
  refine ⟨hpooled₁.trans hpooled₂, index, ?_, rfl⟩
  change chain₂.bufferMappings ++ _ = _
  rw [hmapped₂]
  exact congrArg (· ++ _) (hmapped₁ hmapped)

theorem sendBuffer_frame {index width height stride : ℕ} {format : Format} {wlBuffer : Object}
    (hok : chain.sendBuffer connection slice width height stride format = .ok (wlBuffer, chain', connection'))
    (hmapped : chain.bufferMappings = [(slice, index)]) :
    chain'.bufferMappings = [] ∧ connection.NoLayerSurface connection' ∧ ∃ wlShmPool, connection'.written =
      connection.written ++ [.createBuffer wlShmPool wlBuffer (index * chain.maxBufferSize) width height stride format] := by
  obtain ⟨pool, c, -, -, hid, rfl, hput⟩ := SwapChain.sendBuffer_only hok hmapped
  obtain ⟨-, -, rfl⟩ := SwapChain.putIndex_eq_ok.mp hput
  refine ⟨rfl, fun o ho => ?_, pool.wlShmPool, ?_⟩
  · exact NoLayerSurface.createId hid o (noLayerSurface_update (by simp) rfl o ho)
  · exact congrArg (· ++ _) (createId_connection hid)

section
variable {ar : F32Arith} {host : Option UInt32} {wlSurface : Object} {width height : ℕ} {percent : F32}
  {orientation : Orientation} {alignment : Alignment} {color : Pixel}

/-- A frame is drawn, and the other program draws the same, on any memory that the swapchain may give it. -/
theorem renderFrame_heard (hmapped : chain.bufferMappings = [])
    (hok : Renderer.renderFrame ar host connection chain wlSurface width height percent orientation alignment color =
      .ok (chain', connection')) :
    chain'.bufferMappings = [] ∧ connection.NoLayerSurface connection' ∧
      ∃ requests wlShmPool wlBuffer offset bytes, (∀ request ∈ requests, request.OfPool) ∧
        connection'.written = connection.written ++ (requests ++
          [.createBuffer wlShmPool wlBuffer offset width height (width * 4) .argb8888, .attach wlSurface wlBuffer,
            .damage wlSurface 0 0 width height, .commit wlSurface]) ∧
        chain'.read ⟨offset, width * 4 * height⟩ = bytes ∧
        ∀ sends, ∃ io : FrameIO, Zlinestatus.renderFrame ar io width height percent orientation alignment color =
          sendAll sends (frameRequests ⟨bytes, width, height, width * 4, .argb8888⟩) := by
  obtain ⟨mapped, chain₁, connection₁, pixels, wlBuffer, connection₂, hsize, hstride, hbytes, hrow, hwidth, hheight, hmap,
    hdraw, hsend, rfl⟩ := renderFrame_eq_ok hok
  obtain ⟨hpooled, index, hmapped₁, rfl⟩ := mapBuffer_pooled hmapped hmap
  obtain ⟨hmapped₂, hlisteners, wlShmPool, hwritten⟩ := sendBuffer_frame hsend hmapped₁
  obtain ⟨requests, hpool, hwritten₁⟩ := hpooled.written
  obtain ⟨-, pool, -, -, hpool', -⟩ := SwapChain.sendBuffer_eq_ok.mp hsend
  obtain ⟨pool₀, hpool₀, -⟩ := Option.map_eq_some_iff.mp hpool'
  have hlength := read_length chain₁ ⟨index * chain₁.maxBufferSize, width * height * 4⟩ hpool₀
  have hread : (chain₁.store ⟨index * chain₁.maxBufferSize, width * height * 4⟩ (sliceAsBytes pixels)).read
      ⟨index * chain₁.maxBufferSize, width * height * 4⟩ = sliceAsBytes pixels := by
    refine read_store hpool₀ ?_
    rw [sliceAsBytes_length, drawPercent_length hdraw, bytesAsSlice_length hlength]
  refine ⟨hmapped₂, fun o ho => hpooled.listeners o (hlisteners o ho), requests, wlShmPool, wlBuffer,
    index * chain₁.maxBufferSize, sliceAsBytes pixels, hpool, ?_, ?_, fun sends => ?_⟩
  · change ((connection₂.written ++ _) ++ _) ++ _ = _
    rw [hwritten, hwritten₁]
    simp only [List.append_assoc, List.cons_append, List.nil_append]
    rfl
  · rw [sendBuffer_read hsend, Nat.mul_right_comm width 4 height]
    exact hread
  · refine ⟨⟨fun numBytes => if h : (chain₁.read ⟨index * chain₁.maxBufferSize, width * height * 4⟩).length = numBytes then
      some ⟨_, h⟩ else none, sends⟩, ?_⟩
    simp only [Zlinestatus.renderFrame, hsize, hstride, hbytes, hrow, dif_pos hlength, List.Vector.toList_mk, hdraw, hwidth,
      hheight]

/-- The requests of the pool are left out, and the buffer has its bytes. -/
theorem said_of_frame {requests : List Request} {wlShmPool wlBuffer : Object} {offset : ℕ} {bytes : Bytes} {screen : Screen}
    (hpool : ∀ request ∈ requests, request.OfPool) (hscreen : renderer.screen = some screen)
    (hwritten : renderer.connection.written = requests ++
      [.createBuffer wlShmPool wlBuffer offset width height (width * 4) .argb8888, .attach wlSurface wlBuffer,
        .damage wlSurface 0 0 width height, .commit wlSurface])
    (hread : screen.swapChain.read ⟨offset, width * 4 * height⟩ = bytes) :
    renderer.said = (frameRequests ⟨bytes, width, height, width * 4, .argb8888⟩).map .sent := by
  have hbuffer : renderer.bufferOf renderer.connection.written wlBuffer =
      some ⟨bytes, width, height, width * 4, .argb8888⟩ := by
    have hnone : renderer.bufferOf requests wlBuffer = none := by
      refine List.findSome?_eq_none_iff.mpr fun request hmem => ?_
      have hrequest := hpool request hmem
      cases request <;> first | rfl | exact hrequest.elim
    rw [hwritten, Renderer.bufferOf, List.findSome?_append]
    change (renderer.bufferOf requests wlBuffer).or _ = _
    rw [hnone, Option.none_or, List.findSome?_cons]
    simp only [if_pos, hscreen, Option.map_some, hread]
  have hplain : requests.filterMap (Request.plain (renderer.bufferOf renderer.connection.written)) = [] := by
    refine List.filterMap_eq_nil_iff.mpr fun request hmem => ?_
    have hrequest := hpool request hmem
    cases request <;> first | rfl | exact hrequest.elim
  have hsummary : renderer.summary renderer.connection.written =
      frameRequests ⟨bytes, width, height, width * 4, .argb8888⟩ := by
    rw [Renderer.summary, hwritten, List.filterMap_append, ← hwritten, hplain]
    simp only [List.nil_append, List.filterMap_cons, Request.plain, hbuffer, Option.map_some, List.filterMap_nil]
    rfl
  rw [Renderer.said, hsummary]

/-- A frame of `main`: the other program draws it where its memory is that of the slot. -/
theorem draw_heard (h : Sound renderer) (hwritten : renderer.connection.written = []) {surface : Surface} {screen : Screen}
    (hmapped : screen.swapChain.bufferMappings = [])
    (hok : renderer.draw ar session host surface screen percent color = .ok renderer') (log : List Action) :
    Sound renderer' ∧ renderer'.screen.isSome ∧
      ∃ io, drawFrame ar session (renderer.client log) io screen.width screen.height percent color =
        (renderer'.client (renderer'.said.reverse ++ log), renderer'.phase .polling) := by
  obtain ⟨⟨chain, connection⟩, hframe, rfl⟩ := map_eq_ok.mp hok
  obtain ⟨hmapped', hlisteners, requests, wlShmPool, wlBuffer, offset, bytes, hpool, hwritten', hread, hio⟩ :=
    renderFrame_heard hmapped hframe
  refine ⟨⟨fun o ho => h.layerSurface o (hlisteners o ho), fun s hs => ?_⟩, rfl, ?_⟩
  · cases hs
    exact hmapped'
  · obtain ⟨io, hio⟩ := hio 5
    have hsaid : Renderer.said { renderer with connection, screen := some { screen with swapChain := chain } } = _ :=
      said_of_frame hpool rfl (hwritten'.trans (by rw [hwritten, List.nil_append])) hread
    refine ⟨io, ?_⟩
    rw [drawFrame, hio, hsaid]
    rfl

end

/-! ### Rounds -/

variable {parseFloat : Bytes → Option F32} {ar : F32Arith} {round : Round} {loop loop' : Loop} {deeds : List Deed}

theorem registerRound_heard (h : Sound renderer)
    (hok : renderer.registerRound session round = .ok (renderer', loop', deeds)) (log : List Action) :
    Sound renderer' ∧ (loop' = .polling → renderer'.screen.isSome) ∧
      ∃ heard io, Zlinestatus.registerRound session (renderer.client log) (round.wakeup heard io) =
        (renderer'.client ((actionsOf deeds).reverse ++ log), renderer'.phase loop') := by
  obtain ⟨⟨renderer₁, deeds₁⟩, hrecv, hok⟩ := bind_eq_ok.mp hok
  obtain ⟨hsound, -, heard, hconnection⟩ := recv_heard h hrecv log
  have hround : ∀ io, Zlinestatus.registerRound session (renderer.client log) (round.wakeup heard io) = _ := fun io => by
    rw [Zlinestatus.registerRound, show connectionRecv _ (round.wakeup heard io).recv = _ from hconnection]
  simp only at hok
  split at hok
  · next hdone =>
    cases hok
    refine ⟨hsound, fun h => (by cases h), heard, ⟨fun _ => none, 0⟩, (hround _).trans ?_⟩
    exact if_pos hdone
  · next hdone =>
    obtain ⟨renderer₂, hsetUp, hok⟩ := bind_eq_ok.mp hok
    obtain ⟨rfl, rfl, rfl⟩ := flush_eq_ok hok
    obtain ⟨hsaid, hsound₂, hglobals, hclient⟩ := setUp_client hsound.flushed rfl hsetUp
    have hglobals' : (renderer₁.client ((actionsOf deeds₁).reverse ++ log)).globals = ⟨true, true, true⟩ := hglobals
    refine ⟨hsound₂, fun h => (by cases h), heard, ⟨fun _ => none, 8⟩, (hround _).trans ?_⟩
    have hsend : (renderer₁.client ((actionsOf deeds₁).reverse ++ log)).send
        (sendAll (round.wakeup heard ⟨fun _ => none, 8⟩).io.sends (surfaceRequests session)) =
          (renderer₁.client (renderer'.said.reverse ++ ((actionsOf deeds₁).reverse ++ log)), .ok ()) := by
      rw [hsaid]
      unfold surfaceRequests
      cases session.config.orientation <;> rfl
    have hdone' : (!(renderer₁.client ((actionsOf deeds₁).reverse ++ log)).registrationDone) = false :=
      Bool.eq_false_iff.mpr hdone
    simp only [hdone', hglobals', Bool.not_true, hsend]
    rw [actionsOf_append, actionsOf_sent, List.reverse_append, List.append_assoc, hclient]
    rfl

theorem configureRound_heard (h : Sound renderer)
    (hok : renderer.configureRound ar session round = .ok (renderer', loop', deeds)) (log : List Action) :
    Sound renderer' ∧ (loop' = .polling → renderer'.screen.isSome) ∧
      ∃ heard io, Zlinestatus.configureRound ar session (renderer.client log) (round.wakeup heard io) =
        (renderer'.client ((actionsOf deeds).reverse ++ log), renderer'.phase loop') := by
  obtain ⟨⟨renderer₁, deeds₁⟩, hrecv, hok⟩ := bind_eq_ok.mp hok
  obtain ⟨hsound, -, heard, hconnection⟩ := recv_heard h hrecv log
  have hround : ∀ io, Zlinestatus.configureRound ar session (renderer.client log) (round.wakeup heard io) = _ := fun io => by
    rw [Zlinestatus.configureRound, show connectionRecv _ (round.wakeup heard io).recv = _ from hconnection]
  simp only at hok
  split at hok
  · next hwait =>
    cases hok
    refine ⟨hsound, fun h => (by cases h), heard, ⟨fun _ => none, 0⟩, (hround _).trans ?_⟩
    exact if_pos hwait
  · next hready =>
    obtain ⟨renderer₂, hfirst, hok⟩ := bind_eq_ok.mp hok
    obtain ⟨rfl, rfl, rfl⟩ := flush_eq_ok hok
    unfold Renderer.firstFrame at hfirst
    split at hfirst
    · cases hfirst
    · next hclosed =>
      split at hfirst
      · next surface wlShm hsurface hshm =>
        obtain ⟨hsound₂, hscreen₂, io, hframe⟩ := draw_heard hsound.flushed rfl rfl hfirst ((actionsOf deeds₁).reverse ++ log)
        refine ⟨hsound₂, fun _ => hscreen₂, heard, io, (hround _).trans ?_⟩
        rw [actionsOf_append, actionsOf_sent, List.reverse_append, List.append_assoc, ← hframe]
        exact (if_neg hready).trans (if_neg hclosed)
      · cases hfirst

theorem pollConnection_heard (h : Sound renderer) (hok : renderer.pollConnection round = .ok (renderer', deeds))
    (log : List Action) : Sound renderer' ∧ SameSize renderer renderer' ∧ ∃ heard, ∀ io,
      Zlinestatus.pollConnection (renderer.client log) (round.wakeup heard io) =
        (renderer'.client ((actionsOf deeds).reverse ++ log), .ok ()) := by
  obtain ⟨hpoll, hready, herr, hclosed⟩ := pollConnection_eq_ok hok
  have hread : Sound renderer' ∧ SameSize renderer renderer' ∧ ∃ heard, (if round.connectionIn then
      connectionRecv (renderer.client log) ⟨heard, round.recvOk⟩ else (renderer.client log, .ok ())) =
        (renderer'.client ((actionsOf deeds).reverse ++ log), .ok ()) := by
    unfold Renderer.recvReady at hready
    split at hready
    · next hin =>
      simp only [if_pos hin]
      exact recv_heard h hready log
    · next hin =>
      cases hready
      exact ⟨h, .of_eq rfl, [], if_neg hin⟩
  obtain ⟨hsound, hsize, heard, hconnection⟩ := hread
  refine ⟨hsound, hsize, heard, fun io => ?_⟩
  have hclosed' : (renderer'.client ((actionsOf deeds).reverse ++ log)).state.closed = false := hclosed
  rw [Zlinestatus.pollConnection, show (round.wakeup heard io).pollOk = true from hpoll,
    show (round.wakeup heard io).connectionIn = round.connectionIn from rfl,
    show (round.wakeup heard io).recv = ⟨heard, round.recvOk⟩ from rfl, hconnection,
    show (round.wakeup heard io).connectionErr = false from herr]
  simp only [Bool.not_true, Bool.false_eq_true, if_false, hclosed']

theorem pollRound_heard (h : Sound renderer) {screen : Screen} (hscreen : renderer.screen = some screen)
    (hok : renderer.pollRound parseFloat ar session round = .ok (renderer', loop', deeds)) (log : List Action) :
    Sound renderer' ∧ renderer'.screen.isSome ∧ ∃ heard io,
      Zlinestatus.pollRound parseFloat ar session (renderer.client log) screen.width screen.height (round.wakeup heard io) =
        (renderer'.client ((actionsOf deeds).reverse ++ log), renderer'.phase loop') := by
  obtain ⟨⟨renderer₁, deeds₁⟩, hpoll, hok⟩ := bind_eq_ok.mp hok
  obtain ⟨hsound, hsize, heard, hconnection⟩ := pollConnection_heard h hpoll log
  obtain ⟨chain, hscreen₁⟩ := hsize screen hscreen
  have hphase : renderer₁.phase .polling = .running screen.width screen.height := by rw [Renderer.phase, hscreen₁]; rfl
  have hround : ∀ io, Zlinestatus.pollRound parseFloat ar session (renderer.client log) screen.width screen.height
      (round.wakeup heard io) = _ := fun io => by
    rw [Zlinestatus.pollRound, hconnection io, show (round.wakeup heard io).received = round.received from rfl]
  simp only at hok
  cases hreceived : round.received with
  | none =>
    rw [hreceived] at hok hround
    cases hok
    refine ⟨hsound, Option.isSome_of_eq_some hscreen₁, heard, ⟨fun _ => none, 0⟩, (hround _).trans ?_⟩
    rw [hphase]
  | some bytes =>
    rw [hreceived] at hok hround
    simp only at hok hround
    cases hmessage : acceptMessage parseFloat ar bytes with
    | none =>
      rw [hmessage] at hok hround
      cases hok
      refine ⟨hsound, Option.isSome_of_eq_some hscreen₁, heard, ⟨fun _ => none, 0⟩, (hround _).trans ?_⟩
      rw [hphase, actionsOf_append, List.reverse_append]
      rfl
    | some message =>
      rw [hmessage] at hok hround
      obtain ⟨renderer₂, hnext, hok⟩ := bind_eq_ok.mp hok
      obtain ⟨rfl, rfl, rfl⟩ := flush_eq_ok hok
      unfold Renderer.nextFrame at hnext
      split at hnext
      · next surface screen' hsurface hscreen' =>
        change renderer₁.screen = some screen' at hscreen'
        rw [hscreen₁] at hscreen'
        cases hscreen'
        obtain ⟨hsound₂, hscreen₂, io, hframe⟩ := draw_heard hsound.flushed rfl (hsound.mapped _ hscreen₁) hnext
          (.delivered bytes :: ((actionsOf deeds₁).reverse ++ log))
        refine ⟨hsound₂, hscreen₂, heard, io, (hround _).trans ?_⟩
        rw [actionsOf_append, actionsOf_append, actionsOf_sent, List.reverse_append, List.reverse_append, List.append_assoc,
          List.append_assoc]
        exact hframe
      · cases hnext

theorem round_heard (h : Sound renderer) (hscreen : loop = .polling → renderer.screen.isSome)
    (hok : renderer.round parseFloat ar session loop round = .ok (renderer', loop', deeds)) (log : List Action) :
    Sound renderer' ∧ (loop' = .polling → renderer'.screen.isSome) ∧ ∃ heard io,
      step parseFloat ar session (renderer.client log, renderer.phase loop) (round.wakeup heard io) =
        (renderer'.client ((actionsOf deeds).reverse ++ log), renderer'.phase loop') := by
  cases loop with
  | registering => exact registerRound_heard h hok log
  | configuring => exact configureRound_heard h hok log
  | polling =>
    obtain ⟨screen, hsome⟩ := Option.isSome_iff_exists.mp (hscreen rfl)
    have hphase : renderer.phase .polling = .running screen.width screen.height := by rw [Renderer.phase, hsome]; rfl
    obtain ⟨hsound, hscreen', heard, io, hround⟩ := pollRound_heard h hsome hok log
    rw [hphase]
    exact ⟨hsound, fun _ => hscreen', heard, io, hround⟩

/-- The wakeup is this round, whatever the other program reads and gets for memory. -/
def Round.Is (round : Round) (wakeup : Wakeup) : Prop := ∃ heard io, wakeup = round.wakeup heard io

theorem rounds_heard {rounds : List Round} (h : Sound renderer) (hscreen : loop = .polling → renderer.screen.isSome)
    (hok : renderer.rounds parseFloat ar session loop rounds = .ok (renderer', loop', deeds)) (log : List Action) :
    ∃ wakeups, List.Forall₂ Round.Is rounds wakeups ∧
      wakeups.foldl (step parseFloat ar session) (renderer.client log, renderer.phase loop) =
        (renderer'.client ((actionsOf deeds).reverse ++ log), renderer'.phase loop') := by
  induction rounds generalizing renderer loop deeds log with
  | nil =>
    cases hok
    exact ⟨[], .nil, rfl⟩
  | cons first later ih =>
    obtain ⟨⟨renderer₁, loop₁, deeds₁⟩, hfirst, hok⟩ := bind_eq_ok.mp hok
    obtain ⟨⟨renderer₂, loop₂, deeds₂⟩, hlater, hok⟩ := bind_eq_ok.mp hok
    cases hok
    obtain ⟨hsound, hscreen₁, heard, io, hstep⟩ := round_heard h hscreen hfirst log
    obtain ⟨wakeups, hwakeups, hfold⟩ := ih hsound hscreen₁ hlater ((actionsOf deeds₁).reverse ++ log)
    refine ⟨first.wakeup heard io :: wakeups, .cons ⟨heard, io, rfl⟩ hwakeups, ?_⟩
    rw [List.foldl_cons, hstep, hfold, actionsOf_append, List.reverse_append, List.append_assoc]

theorem sound_begun : Sound begun := by
  refine ⟨fun o ho => ?_, fun _ hscreen => (by cases hscreen)⟩
  change Function.update (Function.update _ 2 _) 3 _ o = _ at ho
  rw [Function.update_apply, Function.update_apply] at ho
  split at ho
  · cases ho
  · split at ho <;> cases ho

/-- A run with the objects and the memory whose rounds all end without an error is one of the program without: after as many
    rounds it is in the same loop, its locals have the same values, and it has met, sent and received the same. -/
theorem run_refines {startup : Startup} (hstart : prepare startup = .ok session) (hsends : 2 < startup.sends)
    {rounds : List Round} (hok : Renderer.run parseFloat ar session rounds = .ok (renderer, loop, deeds)) :
    ∃ wakeups, List.Forall₂ Round.Is rounds wakeups ∧
      main parseFloat ar startup wakeups = (renderer.client (actionsOf deeds).reverse, renderer.phase loop) := by
  obtain ⟨renderer₀, hbegin, hok⟩ := bind_eq_ok.mp hok
  rw [begin_eq] at hbegin
  cases hbegin
  obtain ⟨⟨last, loop', more⟩, hrounds, hok⟩ := bind_eq_ok.mp hok
  cases hok
  obtain ⟨wakeups, hwakeups, hfold⟩ := rounds_heard sound_begun (fun h => (by cases h)) hrounds begun.said.reverse
  have hstart' : Zlinestatus.begin startup.sends = (begun.client begun.said.reverse, begun.phase .registering) := by
    have hsend : sendAll startup.sends [.getRegistry, .sync] = ([.getRegistry, .sync], .ok ()) := by
      rw [sendAll, List.take_of_length_le (Nat.le_of_lt hsends)]
      exact congrArg _ (if_pos hsends)
    rw [Zlinestatus.begin, hsend]
    rfl
  refine ⟨wakeups, hwakeups, ?_⟩
  rw [main, hstart]
  change wakeups.foldl (step parseFloat ar session) (Zlinestatus.begin startup.sends) = _
  rw [hstart', hfold, actionsOf_append, actionsOf_wrote, List.reverse_append]

/-- The three globals and the callback, the configure event and the first frame, and a client that sends `50` when the
    buffer of that frame is released. -/
def fiftyRounds : List Round :=
  [{ events := [(2, .global 1 (interfaceText .wlCompositor) 6), (2, .global 2 (interfaceText .wlShm) 2),
      (2, .global 3 (interfaceText .layerShell) 4), (3, .done 0), (1, .deleteId 3)] },
    { events := [(7, .layerSurface (.configure 21 2 1))], host := some 5 },
    { events := [(9, .release)], host := some 5, connectionIn := true, socketIn := true, delivery := .bytes (ascii "50\n") }]

theorem fiftyRounds_refined : ∃ renderer deeds wakeups,
    Renderer.run parseNumeral .exact batterySession fiftyRounds = .ok (renderer, .polling, deeds) ∧
      .sent (.attach ⟨sliceAsBytes [batterySession.style.defaultColor, transparent], 2, 1, 8, .argb8888⟩) ∈ actionsOf deeds ∧
      main parseNumeral .exact batteryStartup wakeups = (renderer.client (actionsOf deeds).reverse, .running 2 1) := by
  have hrun : (Renderer.run parseNumeral .exact batterySession fiftyRounds).toOption.map (fun result =>
      (result.2.1, result.1.phase result.2.1, (actionsOf result.2.2).contains (.sent (.attach
        ⟨sliceAsBytes [batterySession.style.defaultColor, transparent], 2, 1, 8, .argb8888⟩)))) =
        some (.polling, .running 2 1, true) := by
    decide +kernel
  obtain ⟨⟨renderer, loop, deeds⟩, hok, heq⟩ := toOption_map_eq_some.mp hrun
  obtain ⟨hloop, hphase, hmem⟩ := Prod.mk.inj heq |>.imp id Prod.mk.inj
  change loop = .polling at hloop
  subst hloop
  have hstart : prepare batteryStartup = .ok batterySession := rfl
  obtain ⟨wakeups, -, hmain⟩ := run_refines hstart (by decide) hok
  exact ⟨renderer, deeds, wakeups, hok, List.contains_iff_mem.mp hmem, hmain.trans (congrArg _ hphase)⟩

end

end Zlinestatus.Wayland
