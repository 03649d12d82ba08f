import Zlinestatus.Theorems.Drawing

/-! The renderer and the compositor over two queues: whatever the order in which requests and events are taken, the
    compositor refuses nothing, the renderer can handle everything, and no frame that is shown is written to. -/

namespace Zlinestatus.Wayland
open Run
open Wire (Object Text wlDisplay)

/-! ### The renderer by itself -/

section
variable {ar : F32Arith} {session : Session} {c c' : Compositor} {renderer renderer' : Renderer}
  {drawn : List (Object × Bytes)} {E : List (Object × Event)}

/-- The renderer at its first loop. -/
def begun : Renderer := { connection := {
  nextId := 4
  objects := Function.update (Function.update (fun _ => none) 2 (some (some .registry))) 3 (some (some .callback))
  written := [.getRegistry 2, .sync 3] } }

theorem begin_eq : Renderer.begin = .ok begun := by
  have hcomm : Function.update (Function.update (Function.update (Function.update (fun _ : Object => none) 2 (some none)) 3
      (some none)) 2 (some (some Listener.registry))) 3 (some (some .callback)) =
      Function.update (Function.update (fun _ : Object => none) 2 (some (some Listener.registry))) 3
        (some (some .callback)) := by
    rw [Function.update_comm (by decide : (3 : Object) ≠ 2), Function.update_idem, Function.update_idem]
  rw [begun, ← hcomm]
  rfl

theorem synced_initial : Synced {} [] {} [] where
  ids := ⟨le_refl _, by decide, List.nodup_nil, fun _ h => (by cases h), fun _ _ => rfl⟩
  stages := ⟨fun _ _ => .free, ⟨rfl, rfl⟩, fun _ h => (by cases h)⟩
  bound := ⟨fun _ h => (by cases h), fun _ h => (by cases h), fun _ h => (by cases h), fun _ h => (by cases h),
    fun h => (by cases h)⟩
  pending := rfl
  current := rfl
  screen := fun _ h => by cases h

/-- The registry and the callback are asked for. -/
theorem synced_begin (hok : Renderer.begin = .ok renderer) : Taken renderer [] {} [] := by
  rw [begin_eq] at hok
  cases hok
  have hid₁ : ({} : Connection).createId = .ok (2, { nextId := 3, objects := Function.update (fun _ => none) 2 (some none) }) :=
    rfl
  obtain ⟨-, h₁⟩ := (synced_initial.sending rfl).create (X := .registry) hid₁ (.getRegistry 2) (Or.inl trivial) rfl
    (fun hadd => hadd) rfl
  obtain ⟨-, h₂⟩ := h₁.create (X := .callback) (show Connection.createId _ = .ok (3, _) from rfl) (.sync 3) (Or.inr rfl) rfl
    (fun hadd => hadd) rfl
  obtain ⟨es, hall, hes⟩ := h₂.accepted
  refine ⟨_, es, hall, ?_⟩
  rw [← hes]
  exact ⟨h₂.ids, h₂.stages, ⟨fun _ h => (by cases h), fun _ h => (by cases h), fun _ h => (by cases h),
    fun _ h => (by cases h), fun h => (by cases h)⟩, rfl, rfl, fun _ h => (by cases h)⟩

theorem Sending.say_all {c₀ : Compositor} {E₀ : List (Object × Event)} {connection : Connection} {slots : Object → Option ℕ}
    {requests : List Request} (h : Sending c₀ E₀ connection slots c E)
    (hall : ∀ request ∈ requests, c.next request = some c ∧ Compositor.replies request = []) :
    Sending c₀ E₀ { connection with written := connection.written ++ requests } slots c E := by
  induction requests generalizing connection with
  | nil =>
    rw [List.append_nil]
    exact h
  | cons request requests ih =>
    obtain ⟨⟨hnext, hreplies⟩, hrest⟩ := List.forall_mem_cons.mp hall
    have hall' := ih (h.say hnext hreplies rfl) hrest
    rw [Connection.write, List.append_assoc] at hall'
    exact hall'

theorem next_place (session : Session) {layerSurface : Object} (h : c.resources layerSurface = some .layerSurface) :
    ∀ request ∈ Renderer.placeRequests session layerSurface,
      c.next request = some c ∧ Compositor.replies request = [] := by
  intro request hmem
  unfold Renderer.placeRequests at hmem
  split at hmem <;>
  · simp only [List.cons_append, List.nil_append, List.mem_cons, List.not_mem_nil, or_false] at hmem
    rcases hmem with rfl | rfl | rfl | rfl <;> exact ⟨if_pos h, rfl⟩

theorem foldl_write_self (requests : List Request) (connection : Connection) :
    requests.foldl Connection.write connection = { connection with written := connection.written ++ requests } := by
  have hid := foldl_write id requests connection
  rw [List.map_id] at hid
  exact hid

theorem framesOf_eq_nil {requests : List Request} (h : ∀ request ∈ requests, ∀ pool id offset width height stride format,
    request ≠ .createBuffer pool id offset width height stride format) : framesOf renderer requests = [] := by
  unfold framesOf
  split
  · rfl
  · refine List.filterMap_eq_nil_iff.mpr fun request hmem => ?_
    split
    · exact (h _ hmem _ _ _ _ _ _ _ rfl).elim
    · rfl

theorem setUp_eq_ok (h : Renderer.setUp session renderer = .ok renderer') :
    ∃ wlCompositor layerShell wlSurface layerSurface connection₁ connection₂, renderer.wlCompositor = some wlCompositor ∧
      renderer.wlShm.isSome ∧ renderer.layerShell = some layerShell ∧ renderer.connection.createId = .ok (wlSurface, connection₁) ∧
      (connection₁.write (.createSurface wlCompositor wlSurface)).createId = .ok (layerSurface, connection₂) ∧
      renderer' = { renderer with
        connection := Connection.write { connection₂ with
          objects := Function.update connection₂.objects layerSurface (some (some .layerSurface))
          written := (connection₂.written ++ [.getLayerSurface layerShell layerSurface wlSurface]) ++
            Renderer.placeRequests session layerSurface } (.commit wlSurface)
        state := {}
        surface := some ⟨wlSurface, layerSurface⟩ } := by
  unfold Renderer.setUp at h
  split at h
  · cases h
  · cases h
  · cases h
  · next wlCompositor _ layerShell hcompositor hshm hshell =>
    obtain ⟨⟨wlSurface, _⟩, hcreate₁, h⟩ := bind_eq_ok.mp h
    obtain ⟨⟨layerSurface, _⟩, hcreate₂, h⟩ := bind_eq_ok.mp h
    obtain ⟨connection₃, hlistener, h⟩ := bind_eq_ok.mp h
    cases h
    obtain ⟨⟨_, connection₁⟩, hid₁, heq₁⟩ := map_eq_ok.mp hcreate₁
    cases heq₁
    obtain ⟨⟨_, connection₂⟩, hid₂, heq₂⟩ := map_eq_ok.mp hcreate₂
    cases heq₂
    obtain ⟨-, heq⟩ := setEventListener_eq_ok.mp hlistener
    rw [foldl_write_self] at heq
    exact ⟨wlCompositor, layerShell, wlSurface, layerSurface, connection₁, connection₂, hcompositor,
      Option.isSome_of_eq_some hshm, hshell, hid₁, hid₂, heq ▸ rfl⟩

/-- The surface is set up, without a buffer. -/
theorem Synced.setUp (h : Synced renderer drawn c E) (hwritten : renderer.connection.written = [])
    (hok : Renderer.setUp session renderer = .ok renderer') :
    Taken renderer' drawn c E ∧ framesOf renderer' renderer'.connection.written = [] ∧
      renderer'.screen = renderer.screen := by
  obtain ⟨wlCompositor, layerShell, wlSurface, layerSurface, connection₁, connection₂, hcompositor, -, hshell, hid₁, hid₂,
    rfl⟩ := setUp_eq_ok hok
  have hsurface := h.bound.wlCompositor _ hcompositor
  obtain ⟨-, -, hobjects₁, hwritten₁, -⟩ := h.ids.createId hid₁
  obtain ⟨hresource₁, h₁⟩ := (h.sending hwritten).create (X := .surface) hid₁ (.createSurface wlCompositor wlSurface)
    (Or.inl trivial) rfl (fun hadd => by rw [Compositor.next, if_pos hsurface, hadd]) hobjects₁
  have hunused₁ : ∀ Z, c.resources wlSurface = some Z → ¬Z.Stays := by simp [hresource₁]
  have hshell₁ := Compositor.put_stays (Y := some .surface) hunused₁ (h.bound.layerShell _ hshell) trivial
  have hsurface₁ : (c.put wlSurface (some .surface)).resources wlSurface = some .surface := Compositor.put_self ..
  obtain ⟨-, -, hobjects₂, hwritten₂, -⟩ := h₁.ids.createId hid₂
  have hupdate : Function.update connection₂.objects layerSurface (some (some .layerSurface)) =
      Function.update connection₁.objects layerSurface (some (some .layerSurface)) := by
    rw [hobjects₂]
    exact Function.update_idem ..
  obtain ⟨hresource₂, h₂⟩ := h₁.create (X := .layerSurface) hid₂ (.getLayerSurface layerShell layerSurface wlSurface)
    (Or.inl trivial) rfl (fun hadd => by rw [Compositor.next, if_pos ⟨hshell₁, hsurface₁⟩, hadd]) hupdate
  have hunused₂ : ∀ Z, (c.put wlSurface (some .surface)).resources layerSurface = some Z → ¬Z.Stays := by
    simp [hresource₂]
  have hsurface₂ := Compositor.put_stays (Y := some .layerSurface) hunused₂ hsurface₁ trivial
  have h₃ := h₂.say_all (next_place session (Compositor.put_self ..))
  have hcommit : ((c.put wlSurface (some .surface)).put layerSurface (some .layerSurface)).next (.commit wlSurface) =
      some ((c.put wlSurface (some .surface)).put layerSurface (some .layerSurface)) := by
    have hpending : ((c.put wlSurface (some .surface)).put layerSurface (some .layerSurface)).pending = none := h.pending
    simp only [Compositor.next, if_pos hsurface₂, hpending]
  have h₄ := h₃.say hcommit rfl rfl
  have hbound := h.bound.keeps ((Compositor.put_keeps (Y := some .surface) hunused₁).trans
    (Compositor.put_keeps (Y := some .layerSurface) hunused₂))
  obtain ⟨es, hall, hes⟩ := h₄.accepted
  refine ⟨⟨_, es, hall, ?_⟩, ?_, rfl⟩
  · rw [← hes]
    refine ⟨h₄.ids, h₄.stages, ⟨hbound.wlCompositor, hbound.wlShm, hbound.layerShell, fun surface hs => ?_,
      fun hconfigured => (by cases hconfigured)⟩, h.pending, h.current, fun screen hscreen => ?_⟩
    · cases hs
      exact hsurface₂
    · obtain ⟨hacked, hwell, hmapped, hshown⟩ := h.screen screen hscreen
      exact ⟨hacked, hwell, hmapped, (hshown.put hresource₁).put hresource₂⟩
  · have hwritten' : connection₂.written = [.createSurface wlCompositor wlSurface] := by
      rw [hwritten₂]
      change connection₁.written ++ _ = _
      rw [hwritten₁, hwritten, List.nil_append]
    refine framesOf_eq_nil fun request hmem pool id offset width height stride format heq => ?_
    change request ∈ ((connection₂.written ++ [_]) ++ _) ++ [_] at hmem
    rw [hwritten', heq] at hmem
    unfold Renderer.placeRequests at hmem
    split at hmem <;> simp at hmem

/-- What the renderer is asked to show: nothing yet, or a message. -/
inductive Asked (session : Session) : F32 → Pixel → Prop
  | start : Asked session (.finite 0) session.style.defaultColor
  | message (message : ParsedMessage) :
    Asked session message.percent (pickColorForStates session.style message.states)

/-- Each frame is a picture of something that the renderer was asked to show, of the size of the screen. -/
def Pictured (ar : F32Arith) (session : Session) (renderer : Renderer) (drawn : List (Object × Bytes)) : Prop :=
  ∀ entry ∈ drawn, ∃ screen percent color, renderer.screen = some screen ∧ Asked session percent color ∧
    Picture ar screen.width.toNat screen.height.toNat percent session.config.orientation session.config.alignment color
      entry.2

theorem Pictured.same_size (h : Pictured ar session renderer drawn) (hsize : SameSize renderer renderer') :
    Pictured ar session renderer' drawn := by
  intro entry hentry
  obtain ⟨screen, percent, color, hscreen, hasked, hpicture⟩ := h entry hentry
  obtain ⟨chain, hchain⟩ := hsize screen hscreen
  exact ⟨_, percent, color, hchain, hasked, hpicture⟩

/-- A frame is drawn: on the screen there is, or on a new one. -/
theorem Synced.draw (h : Synced renderer drawn c E) (hwritten : renderer.connection.written = []) {surface : Surface}
    (hsurface : renderer.surface = some surface) (hacked : c.acked = true) {screen : Screen}
    (hslots : slotOf renderer.screen = ArrayMap.get screen.swapChain.bufferIndices) (hwell : screen.swapChain.WellFormed)
    (hmapped : screen.swapChain.bufferMappings = [])
    (hshown : Shown screen.swapChain screen.width.toNat screen.height.toNat drawn c) {host : Option UInt32} {percent : F32}
    {color : Pixel} (hok : renderer.draw ar session host surface screen percent color = .ok renderer') :
    Taken renderer' (framesOf renderer' renderer'.connection.written ++ drawn) c E ∧
      ∃ wlBuffer frame chain, framesOf renderer' renderer'.connection.written = [(wlBuffer, frame)] ∧
        renderer'.screen = some { screen with swapChain := chain } ∧
        Picture ar screen.width.toNat screen.height.toNat percent session.config.orientation session.config.alignment
          color frame := by
  obtain ⟨⟨chain, connection⟩, hframe, rfl⟩ := map_eq_ok.mp hok
  have hsending := h.sending hwritten
  rw [hslots] at hsending
  obtain ⟨c', wlBuffer, frame, requests, h', hkeeps, hpending, hcurrent, hwell', hmapped', hshown', hwritten', hframes⟩ :=
    renderFrame_sending hsending hshown hwell hmapped (h.bound.wlSurface _ hsurface) hacked hframe
  rw [hwritten, List.nil_append] at hwritten'
  obtain ⟨es, hall, hes⟩ := h'.accepted
  have hbound := h.bound.keeps hkeeps
  obtain ⟨hone, hpicture⟩ := hframes { renderer with connection, screen := some { screen with swapChain := chain } } rfl
  rw [hwritten', hone]
  refine ⟨⟨c', es, hall, ?_⟩, wlBuffer, frame, chain, rfl, rfl, hpicture⟩
  rw [← hes]
  refine ⟨h'.ids, h'.stages, ⟨hbound.wlCompositor, hbound.wlShm, hbound.layerShell, hbound.wlSurface, hbound.configured⟩,
    hpending, hcurrent, fun s hs => ?_⟩
  cases hs
  exact ⟨hkeeps.acked hacked, hwell', hmapped', hshown'⟩

theorem Synced.firstFrame (h : Synced renderer drawn c E) (hwritten : renderer.connection.written = [])
    (hpictured : Pictured ar session renderer drawn) (hconfigured : renderer.state.surfaceConfigured = true)
    (hscreen : renderer.screen = none) {host : Option UInt32} (hok : renderer.firstFrame ar session host = .ok renderer') :
    Taken renderer' (framesOf renderer' renderer'.connection.written ++ drawn) c E ∧
      Pictured ar session renderer' (framesOf renderer' renderer'.connection.written ++ drawn) := by
  unfold Renderer.firstFrame at hok
  split at hok
  · cases hok
  · split at hok
    · next surface wlShm hsurface hshm =>
      have hinitial := SwapChain.WellFormed.initial wlShm
      obtain ⟨htaken, wlBuffer, frame, chain, hframes, hscreen', hpicture⟩ := h.draw hwritten hsurface
        (h.bound.configured hconfigured) (by rw [hscreen]; rfl) hinitial rfl
        ⟨h.bound.wlShm wlShm hshm, fun _ hpool => (by cases hpool), fun _ _ hmem => (by cases hmem)⟩ hok
      refine ⟨htaken, ?_⟩
      rw [hframes]
      refine List.forall_mem_cons.mpr ⟨⟨_, _, _, hscreen', .start, hpicture⟩, ?_⟩
      exact hpictured.same_size fun screen hsome => by
        rw [hscreen] at hsome
        cases hsome
    · cases hok

/-- The frame for a message is drawn on the screen there is. -/
theorem Synced.message (h : Synced renderer drawn c E) (hwritten : renderer.connection.written = []) {host : Option UInt32}
    {message : ParsedMessage} (hok : renderer.nextFrame ar session host message = .ok renderer') :
    Taken renderer' (framesOf renderer' renderer'.connection.written ++ drawn) c E ∧
      ∃ screen wlBuffer frame chain, renderer.screen = some screen ∧
        framesOf renderer' renderer'.connection.written = [(wlBuffer, frame)] ∧
        renderer'.screen = some { screen with swapChain := chain } ∧
        Picture ar screen.width.toNat screen.height.toNat message.percent session.config.orientation
          session.config.alignment (pickColorForStates session.style message.states) frame := by
  unfold Renderer.nextFrame at hok
  split at hok
  · next surface screen hsurface hscreen =>
    obtain ⟨hacked, hwell, hmapped, hshown⟩ := h.screen screen hscreen
    obtain ⟨htaken, wlBuffer, frame, chain, hframe⟩ :=
      h.draw hwritten hsurface hacked (by rw [hscreen]; rfl) hwell hmapped hshown hok
    exact ⟨htaken, screen, wlBuffer, frame, chain, hscreen, hframe⟩
  · cases hok

theorem Synced.nextFrame (h : Synced renderer drawn c E) (hwritten : renderer.connection.written = [])
    (hpictured : Pictured ar session renderer drawn) {host : Option UInt32} {message : ParsedMessage}
    (hok : renderer.nextFrame ar session host message = .ok renderer') :
    Taken renderer' (framesOf renderer' renderer'.connection.written ++ drawn) c E ∧
      Pictured ar session renderer' (framesOf renderer' renderer'.connection.written ++ drawn) := by
  obtain ⟨htaken, screen, wlBuffer, frame, chain, hscreen, hframes, hscreen', hpicture⟩ := h.message hwritten hok
  refine ⟨htaken, ?_⟩
  rw [hframes]
  refine List.forall_mem_cons.mpr ⟨⟨_, _, _, hscreen', .message message, hpicture⟩, ?_⟩
  exact hpictured.same_size fun screen' hsome => by
    rw [hscreen] at hsome
    cases hsome
    exact ⟨chain, hscreen'⟩

/-! ### The two together -/

/-- The invariant of the channel: all that the renderer wrote is in the buffer or on its way. -/
structure InStep (ar : F32Arith) (session : Session) (drawer : Drawer) (c : Compositor) (E : List (Object × Event)) :
    Prop where
  written : drawer.renderer.connection.written = []
  synced : Synced drawer.renderer drawer.drawn c E
  pictured : Pictured ar session drawer.renderer drawer.drawn

theorem Taken.flush (drawer : Drawer)
    (h : Taken renderer' (framesOf renderer' renderer'.connection.written ++ drawer.drawn) c E)
    (hpictured : Pictured ar session renderer' (framesOf renderer' renderer'.connection.written ++ drawer.drawn)) :
    ∃ c' es, compositor.acceptAll c renderer'.connection.written = some (c', es) ∧
      InStep ar session (drawer.flush renderer') c' (E ++ es) := by
  obtain ⟨c', es, hall, hsynced⟩ := h
  have hbound := hsynced.bound
  exact ⟨c', es, hall, rfl, ⟨hsynced.ids.written [], hsynced.stages, ⟨hbound.wlCompositor, hbound.wlShm, hbound.layerShell,
    hbound.wlSurface, hbound.configured⟩, hsynced.pending, hsynced.current, hsynced.screen⟩, hpictured⟩

/-- Where no request is a frame, no frame is added. -/
theorem Taken.flush_same (drawer : Drawer) (h : Taken renderer' drawer.drawn c E)
    (hframes : framesOf renderer' renderer'.connection.written = [])
    (hpictured : Pictured ar session renderer' drawer.drawn) :
    ∃ c' es, compositor.acceptAll c renderer'.connection.written = some (c', es) ∧
      InStep ar session (drawer.flush renderer') c' (E ++ es) := by
  refine Taken.flush drawer ?_ ?_ <;> rw [hframes] <;> assumption

/-- Where the compositor takes each request at once, the two stay in step. -/
theorem synchronous (ar : F32Arith) (session : Session) :
    Channel.Synchronous compositor (Drawer.step ar session) (InStep ar session) where
  act := by
    intro drawer drawer' c requests E h hstep
    obtain ⟨renderer, hact, rfl, rfl⟩ := hstep
    cases hact with
    | setUp hdone hsurface hok =>
      obtain ⟨htaken, hframes, hscreen⟩ := h.synced.setUp h.written hok
      exact htaken.flush_same drawer hframes (h.pictured.same_size (.of_eq hscreen))
    | firstFrame hconfigured hscreen hok =>
      obtain ⟨htaken, hpictured⟩ := h.synced.firstFrame h.written h.pictured hconfigured hscreen hok
      exact htaken.flush drawer hpictured
    | nextFrame hclosed hok =>
      obtain ⟨htaken, hpictured⟩ := h.synced.nextFrame h.written h.pictured hok
      exact htaken.flush drawer hpictured
  receive := by
    intro drawer drawer' c requests x E h hstep
    obtain ⟨renderer, hact, rfl, rfl⟩ := hstep
    cases hact with
    | handle hok =>
      obtain ⟨hframes, hsize⟩ := handle_frames h.written hok
      exact (h.synced.handle h.written hok).flush_same drawer hframes (h.pictured.same_size hsize)
  move := by
    intro drawer c c' m E E' es h hmove
    obtain ⟨hm, rfl⟩ := move_eq_some.mp hmove
    exact ⟨h.written, h.synced.move hm, h.pictured⟩

theorem caughtUp_of_reachable {w : World} (h : Reachable ar session w) :
    Channel.CaughtUp compositor (InStep ar session) w := by
  obtain ⟨renderer, hbegin, hreaches⟩ := h
  refine Channel.CaughtUp.reaches (synchronous ar session) compositor_commutes ?_ hreaches
  refine (synced_begin hbegin).flush_same { renderer := {} } ?_ fun _ hentry => (by cases hentry)
  rw [begin_eq] at hbegin
  cases hbegin
  rfl

/-! ### Runs -/

variable {w w' : World}

theorem acted_eq_some {result : Except Error Renderer} : w.acted result = some w' ↔ ∃ renderer, result = .ok renderer ∧
    w' = ⟨w.client.flush renderer, [], w.server, w.requests ++ (w.unsent ++ renderer.connection.written), w.events⟩ := by
  rw [World.acted, toOption_map_eq_some]
  simp only [eq_comm]

theorem received_eq_some {result : Except Error Renderer} {events : List (Object × Event)} :
    w.received result events = some w' ↔ ∃ renderer, result = .ok renderer ∧
      w' = ⟨w.client.flush renderer, w.unsent ++ renderer.connection.written, w.server, w.requests, events⟩ := by
  rw [World.received, toOption_map_eq_some]
  simp only [eq_comm]

theorem turn_step {turn : Turn} (h : w.turn ar session turn = some w') :
    Channel.Step compositor (Drawer.step ar session) w w' := by
  obtain ⟨client, unsent, server, requests, events⟩ := w
  cases turn with
  | receive =>
    simp only [World.turn] at h
    split at h
    · cases h
    · next object event events =>
      obtain ⟨renderer, hok, rfl⟩ := received_eq_some.mp h
      exact .receive ⟨renderer, .handle hok, rfl, rfl⟩
  | setUp =>
    obtain ⟨⟨hdone, hsurface⟩, h⟩ := Option.ite_none_right_eq_some.mp h
    obtain ⟨renderer, hok, rfl⟩ := acted_eq_some.mp h
    exact .act ⟨renderer, .setUp hdone hsurface hok, rfl, rfl⟩
  | firstFrame host =>
    obtain ⟨⟨hconfigured, hscreen⟩, h⟩ := Option.ite_none_right_eq_some.mp h
    obtain ⟨renderer, hok, rfl⟩ := acted_eq_some.mp h
    exact .act ⟨renderer, .firstFrame hconfigured (Option.isNone_iff_eq_none.mp hscreen) hok, rfl, rfl⟩
  | nextFrame host message =>
    obtain ⟨hclosed, h⟩ := Option.ite_none_left_eq_some.mp h
    obtain ⟨renderer, hok, rfl⟩ := acted_eq_some.mp h
    exact .act ⟨renderer, .nextFrame (Bool.eq_false_iff.mpr hclosed) hok, rfl, rfl⟩
  | flush =>
    cases h
    exact .flush
  | accept =>
    simp only [World.turn] at h
    split at h
    · cases h
    · next request requests =>
      obtain ⟨⟨c, es⟩, haccept, rfl⟩ := Option.map_eq_some_iff.mp h
      exact .accept haccept
  | move m =>
    obtain ⟨⟨c, es⟩, hmove, rfl⟩ := Option.map_eq_some_iff.mp h
    exact .move hmove

theorem reaches_turns {turns : List Turn} (h : w.turns ar session turns = some w') :
    Channel.Reaches compositor (Drawer.step ar session) w w' := by
  induction turns generalizing w with
  | nil =>
    cases h
    exact .refl
  | cons turn turns ih =>
    obtain ⟨w₁, hturn, hrest⟩ := Option.bind_eq_some_iff.mp h
    exact (Channel.Reaches.refl.step (turn_step hturn)).trans (ih hrest)

theorem Reachable.trans (h : Reachable ar session w) (hlater : Channel.Reaches compositor (Drawer.step ar session) w w') :
    Reachable ar session w' := by
  obtain ⟨renderer, hbegin, hreaches⟩ := h
  exact ⟨renderer, hbegin, hreaches.trans hlater⟩

theorem reachable_turns {turns : List Turn} (hw : Reachable ar session w) (h : w.turns ar session turns = some w') :
    Reachable ar session w' := hw.trans (reaches_turns h)

theorem reachable_start : Reachable ar session (World.start begun) := ⟨begun, begin_eq, .refl⟩

/-- What a run leads to can be computed. -/
theorem exists_reachable {α : Type} {f : World → α} {a : α} {turns : List Turn}
    (h : ((World.start begun).turns ar session turns).map f = some a) : ∃ w, Reachable ar session w ∧ f w = a := by
  obtain ⟨w, hw, rfl⟩ := Option.map_eq_some_iff.mp h
  exact ⟨w, reachable_turns reachable_start hw, rfl⟩

/-- `zlinestatus -type battery`, without a style file. -/
def batterySession : Session := ⟨{ typeArg := ascii "battery" }, .top, {}⟩

/-- `50`, without states -/
def fiftyMessage : ParsedMessage := ⟨.finite 50, [], Nat.zero_le _⟩

/-- The compositor has the three globals, gives the surface 2 columns and one row with its 21st serial, and takes all
    requests for the first frame but the last one. -/
def firstFrameTurns : List Turn :=
  [.flush, .accept, .accept, .move (.global 2 1 (interfaceText .wlCompositor) 4),
    .move (.global 2 2 (interfaceText .wlShm) 1), .move (.global 2 3 (interfaceText .layerShell) 4), .move (.done 3 0),
    .receive, .receive, .receive, .receive, .receive, .setUp] ++ List.replicate 10 .accept ++
  [.move (.configure 7 21 2 1), .receive, .firstFrame (some 5)] ++ List.replicate 5 .accept

/-! ### Any order of steps -/

/-- No request that the compositor comes to is refused, as long as `main` has not begun to tear down what it made. -/
theorem no_request_refused (h : Reachable ar session w) {request : Request} {requests : List Request}
    (hw : w.requests = request :: requests) : ∃ c, w.server.next request = some c := by
  obtain ⟨client, unsent, server, queue, events⟩ := w
  change queue = _ at hw
  subst hw
  obtain ⟨⟨c, es⟩, haccept⟩ := (caughtUp_of_reachable h).accepts
  exact ⟨c, (accept_eq_some.mp haccept).1⟩

/-- The commit of the first frame is on its way. -/
theorem first_commit_accepted : ∃ w, Reachable .exact batterySession w ∧ w.requests = [.commit 3] ∧
    ∃ c, w.server.next (.commit 3) = some c := by
  have hrun : ((World.start begun).turns .exact batterySession firstFrameTurns).map (·.requests) = some [.commit 3] := by
    decide +kernel
  obtain ⟨w, hw, hrequests⟩ := exists_reachable hrun
  exact ⟨w, hw, hrequests, no_request_refused hw hrequests⟩

/-- The renderer knows what the next event is about, and can handle it as long as it has an id for what a global is bound
    to. -/
theorem events_handled (h : Reachable ar session w) {x : Object × Event} {events : List (Object × Event)}
    (hw : w.events = x :: events) (hroom : x.2.isGlobal →
      w.client.renderer.connection.freeIds ≠ [] ∨ w.client.renderer.connection.nextId + 1 < 2 ^ 32) :
    Known w.client.renderer x ∧ ∃ renderer, w.client.renderer.handle x.1 x.2 = .ok renderer := by
  obtain ⟨c, es, -, hstep⟩ := caughtUp_of_reachable h
  have hsynced := hstep.synced
  rw [hw] at hsynced
  exact ⟨hsynced.known, hsynced.handle_isOk hroom⟩

/-- The buffer of the first frame is released while its commit is on its way. -/
theorem first_release_handled : ∃ w, Reachable .exact batterySession w ∧ w.requests = [.commit 3] ∧
    w.events = [(9, .release)] ∧ Known w.client.renderer (9, .release) ∧
    ∃ renderer, w.client.renderer.handle 9 .release = .ok renderer := by
  have hrun : ((World.start begun).turns .exact batterySession (firstFrameTurns ++ [.move (.release 9)])).map
      (fun w => (w.requests, w.events)) = some ([.commit 3], [(9, .release)]) := by
    decide +kernel
  obtain ⟨w, hw, heq⟩ := exists_reachable hrun
  obtain ⟨hrequests, hevents⟩ := Prod.mk.inj heq
  exact ⟨w, hw, hrequests, hevents, events_handled hw hevents fun hglobal => (by cases hglobal)⟩

theorem acceptAll_held {c c' : Compositor} {requests : List Request} {es : List (Object × Event)} {o : Object} {part : Part}
    (ho : c.resources o = some (.buffer part .held)) (h : compositor.acceptAll c requests = some (c', es)) :
    c'.resources o = some (.buffer part .held) :=
  Channel.Server.acceptAll_keeps (P := fun c => c.resources o = some (.buffer part .held))
    (fun hc haccept => Compositor.next_lasting hc (show Resource.Lasting (.buffer part .held) from trivial)
      (accept_eq_some.mp haccept).1) ho h

/-- A buffer that the compositor holds has its part in the pool, and there the bytes that were drawn for it. -/
theorem Synced.held (h : Synced renderer drawn c E) {o : Object} {part : Part}
    (ho : c.resources o = some (.buffer part .held)) :
    ∃ screen pool frame, renderer.screen = some screen ∧ screen.swapChain.shmPool = some pool ∧
      part.pool = pool.wlShmPool ∧ part.width = screen.width.toNat ∧ part.height = screen.height.toNat ∧
      part.offset + part.stride * part.height ≤ pool.memoryLen ∧
      screen.swapChain.read ⟨part.offset, part.stride * part.height⟩ = frame ∧ ArrayMap.get drawn o = some frame := by
  obtain ⟨-, ⟨slot, hslot⟩, -⟩ := h.stages.of_held ho
  obtain ⟨screen, hscreen, hget⟩ := Option.bind_eq_some_iff.mp hslot
  obtain ⟨-, hwell, -, hshown⟩ := h.screen screen hscreen
  have hmem := ArrayMap.mem_of_get hget
  obtain ⟨pool, use, hpool, hresource, hdrawn⟩ := hshown.buffers o slot hmem
  rw [ho] at hresource
  cases hresource
  have hlt := hwell.lt_of_mem (List.mem_append_right _ (List.mem_append_right _ (List.mem_map_of_mem hmem)))
  have hroom := hwell.slot_le hpool hlt
  have hsize := (hshown.pool pool hpool).2
  refine ⟨screen, pool, _, hscreen, hpool, rfl, rfl, rfl, ?_, rfl, hdrawn⟩
  rw [Nat.succ_mul] at hroom
  rw [Nat.mul_right_comm] at hsize
  exact (Nat.add_le_add_left hsize _).trans hroom

theorem next_current {c c' : Compositor} {request : Request} (hne : ∀ wlSurface, request ≠ .commit wlSurface)
    (h : c.next request = some c') : c'.current = c.current := by
  cases request with
  | commit wlSurface => exact absurd rfl (hne wlSurface)
  | _ =>
    simp only [Compositor.next, Compositor.add] at h
    grind [Compositor.put]

theorem acceptAll_current {c c' : Compositor} {requests : List Request} {es : List (Object × Event)}
    (hne : ∀ request ∈ requests, ∀ wlSurface, request ≠ .commit wlSurface)
    (h : compositor.acceptAll c requests = some (c', es)) : c'.current = c.current := by
  induction requests generalizing c es with
  | nil =>
    cases h
    rfl
  | cons request requests ih =>
    obtain ⟨hone, hrest⟩ := List.forall_mem_cons.mp hne
    rw [Channel.Server.acceptAll] at h
    split at h
    · cases h
    · next c₁ es₁ haccept =>
      obtain ⟨⟨c₂, es₂⟩, hall, heq⟩ := Option.map_eq_some_iff.mp h
      cases heq
      exact (ih hrest hall).trans (next_current hone (accept_eq_some.mp haccept).1)

/-- Listeners commit nothing, and a frame is not left in the buffer. -/
theorem unsent_ne_commit (h : Reachable ar session w) :
    ∀ request ∈ w.unsent, ∀ wlSurface, request ≠ .commit wlSurface := by
  obtain ⟨renderer, hbegin, hreaches⟩ := h
  refine hreaches.unsent ?_ fun {v drawer' x requests} hv hstep => ?_
  · rw [begin_eq] at hbegin
    cases hbegin
    intro request hmem wlSurface heq
    rw [heq] at hmem
    simp [World.start, begun] at hmem
  · obtain ⟨c, es, -, hinstep⟩ := caughtUp_of_reachable ⟨renderer, hbegin, hv⟩
    obtain ⟨renderer', hact, rfl, -⟩ := hstep
    cases hact with
    | handle hok =>
      have hanswer := handle_written hinstep.written hok
      generalize renderer'.connection.written = requests at hanswer
      cases hanswer <;> simp

theorem current_of_taken (h : Reachable ar session w) (hw : w.requests = []) :
    w.server.current = w.client.drawn.head?.map (·.1) := by
  obtain ⟨c, es, hall, hstep⟩ := caughtUp_of_reachable h
  rw [hw, List.nil_append] at hall
  rw [← acceptAll_current (unsent_ne_commit h) hall]
  exact hstep.synced.current

/-- A compositor that has taken all requests on their way shows the frame that was drawn last. -/
theorem last_frame_shown (h : Reachable ar session w) (hw : w.requests = []) :
    w.server.current = w.client.drawn.head?.map (·.1) := current_of_taken h hw

theorem first_frame_shown : ∃ w, Reachable .exact batterySession w ∧ w.requests = [] ∧
    w.client.drawn = [(9, List.replicate 8 0)] ∧ w.server.current = w.client.drawn.head?.map (·.1) := by
  have hrun : ((World.start begun).turns .exact batterySession (firstFrameTurns ++ [.accept])).map
      (fun w => (w.requests, w.client.drawn)) = some ([], [(9, List.replicate 8 0)]) := by
    decide +kernel
  obtain ⟨w, hw, heq⟩ := exists_reachable hrun
  obtain ⟨hrequests, hdrawn⟩ := Prod.mk.inj heq
  exact ⟨w, hw, hrequests, hdrawn, last_frame_shown hw hrequests⟩

end

end Zlinestatus.Wayland
