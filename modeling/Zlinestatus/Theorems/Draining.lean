import Zlinestatus.Theorems.Interleaving

/-! What is on its way is taken: from any state, in whatever order the two take it and whenever the renderer sends what its
    listeners wrote, they come to an end, and then the last frame is shown. -/

namespace Zlinestatus.Wayland
open Run
open Wire (Object Text wlDisplay)

/-! ### What is to be taken -/

/-- A request, and the events for it. -/
def requestLoad (request : Request) : ℕ := 1 + (Compositor.replies request).length

/-- An event, and the request that its listener may write, with the event for it. -/
def eventLoad (x : Object × Event) : ℕ :=
  match x.2 with
  | .deleteId _ => 1
  | _ => 4

namespace World

/-- A request that waits is sent, and then taken. -/
def load (w : World) : ℕ :=
  w.unsent.length + ((w.requests ++ w.unsent).map requestLoad).sum + (w.events.map eventLoad).sum

/-- The globals on their way. -/
def globals (w : World) : ℕ := w.events.countP (·.2.isGlobal)

end World

section
variable {ar : F32Arith} {session : Session} {w w' v v' : World} {renderer renderer' : Renderer} {o : Object} {event : Event}

theorem replies_load (request : Request) :
    ((Compositor.replies request).map eventLoad).sum = (Compositor.replies request).length ∧
      (Compositor.replies request).countP (·.2.isGlobal) = 0 := by
  cases request <;> exact ⟨rfl, rfl⟩

/-- A listener writes less than it was sent. -/
theorem handle_load (hwritten : renderer.connection.written = []) (h : renderer.handle o event = .ok renderer') :
    renderer'.connection.written.length + (renderer'.connection.written.map requestLoad).sum < eventLoad (o, event) := by
  have hanswer := handle_written hwritten h
  generalize renderer'.connection.written = requests at hanswer
  cases hanswer with
  | nothing event => cases event <;> exact Nat.succ_pos _
  | bind name version hinterface id => exact (show 2 < 4 by decide)
  | ackConfigure serial width height => exact (show 2 < 4 by decide)
  | destroyBuffer => exact (show 3 < 4 by decide)

/-! ### In any order -/

/-- What each of these steps keeps, where `drawn` has the frames so far. -/
structure Draining (ar : F32Arith) (session : Session) (drawn : List (Object × Bytes)) (w : World) : Prop where
  reachable : Reachable ar session w
  room : w.client.renderer.connection.nextId + w.globals < 2 ^ 32
  drawn : w.client.drawn = drawn

theorem Draining.drain {drawn : List (Object × Bytes)} (h : Draining ar session drawn v)
    (hdrain : Channel.Drain compositor (Drawer.step ar session) v v') :
    Draining ar session drawn v' ∧ v'.load < v.load := by
  have hreach := h.reachable.trans (.step .refl hdrain.step)
  obtain ⟨c, es, -, hstep⟩ := caughtUp_of_reachable h.reachable
  have hwritten := hstep.written
  cases hdrain with
  | @receive client client' unsent requests written c x events hreceive =>
    obtain ⟨renderer, hact, rfl, rfl⟩ := hreceive
    cases hact with
    | @handle renderer o event hok =>
      have hload := handle_load hwritten hok
      have hnext := handle_nextId hok
      obtain ⟨hframes, -⟩ := handle_frames hwritten hok
      refine ⟨⟨hreach, lt_of_le_of_lt ?_ h.room, (congrArg (· ++ client.drawn) hframes).trans h.drawn⟩, ?_⟩
      · change renderer.connection.nextId + events.countP _ ≤ client.renderer.connection.nextId + List.countP _ (_ :: events)
        simp only [List.countP_cons]
        omega
      · simp only [World.load, List.length_append, List.map_append, List.sum_append, List.map_cons, List.sum_cons]
        omega
  | flush hne =>
    have hlength := List.length_pos_iff.mpr hne
    refine ⟨⟨hreach, h.room, h.drawn⟩, ?_⟩
    simp only [World.load, List.append_nil, List.length_nil]
    omega
  | @accept client unsent requests c c' request events es haccept =>
    obtain ⟨-, rfl⟩ := accept_eq_some.mp haccept
    obtain ⟨hload, hglobals⟩ := replies_load request
    refine ⟨⟨hreach, ?_, h.drawn⟩, ?_⟩
    · rw [World.globals, List.countP_append, hglobals]
      exact h.room
    · simp only [World.load, List.map_append, List.sum_append, List.map_cons, List.sum_cons, hload, requestLoad]
      omega

/-- There is a next one for as long as something is on its way, also where nothing more is sent. -/
theorem Draining.next {drawn : List (Object × Bytes)} (h : Draining ar session drawn w)
    (hne : w.requests ≠ [] ∨ w.events ≠ []) :
    ∃ turn w', (turn = .accept ∨ turn = .receive) ∧ w.turn ar session turn = some w' := by
  obtain ⟨client, unsent, server, requests, events⟩ := w
  cases requests with
  | cons request requests =>
    obtain ⟨⟨c, es⟩, haccept⟩ := (caughtUp_of_reachable h.reachable).accepts
    exact ⟨.accept, _, Or.inl rfl, congrArg (Option.map _) haccept⟩
  | nil =>
    obtain ⟨x, events, rfl⟩ := List.exists_cons_of_ne_nil (hne.resolve_left (not_not.mpr rfl))
    have hroom := h.room
    rw [World.globals, List.countP_cons] at hroom
    obtain ⟨c, es, -, hstep⟩ := caughtUp_of_reachable h.reachable
    obtain ⟨renderer, hok⟩ := hstep.synced.handle_isOk fun hglobal => Or.inr (by
      rw [if_pos hglobal] at hroom
      exact lt_of_le_of_lt (Nat.add_le_add_left (Nat.le_add_left ..) _) hroom)
    exact ⟨.receive, _, Or.inr rfl, received_eq_some.mpr ⟨renderer, hok, rfl⟩⟩

/-- From any state, the requests that are written, the events on their way, and those that come of them, are sent and taken
    in so many steps at most, whatever the order. What is on its way is never stuck, with or without what waits in the
    renderer's buffer, and when it is taken the compositor shows the last frame. -/
theorem drained (h : Reachable ar session w) (hroom : w.client.renderer.connection.nextId + w.globals < 2 ^ 32) {n : ℕ}
    (hdrains : Channel.Drains compositor (Drawer.step ar session) w n w') :
    n + w'.load ≤ w.load ∧
      (w'.requests = [] ∧ w'.events = [] ∧ w'.server.current = w.client.drawn.head?.map (·.1) ∨
        ∃ turn w'', (turn = .accept ∨ turn = .receive) ∧ w'.turn ar session turn = some w'') := by
  obtain ⟨hdraining, hle⟩ := hdrains.spent (P := Draining ar session w.client.drawn) Draining.drain ⟨h, hroom, rfl⟩
  refine ⟨hle, ?_⟩
  by_cases hempty : w'.requests = [] ∧ w'.events = []
  · have hcurrent := current_of_taken hdraining.reachable hempty.1
    rw [hdraining.drawn] at hcurrent
    exact Or.inl ⟨hempty.1, hempty.2, hcurrent⟩
  · exact Or.inr (hdraining.next (not_and_or.mp hempty))

theorem turn_drain {turn : Turn} (hturn : turn = .accept ∨ turn = .receive ∨ turn = .flush ∧ w.unsent ≠ [])
    (h : w.turn ar session turn = some w') : Channel.Drain compositor (Drawer.step ar session) w w' := by
  obtain ⟨client, unsent, server, requests, events⟩ := w
  rcases hturn with rfl | rfl | ⟨rfl, hne⟩
  · simp only [World.turn] at h
    split at h
    · cases h
    · obtain ⟨⟨c, es⟩, haccept, rfl⟩ := Option.map_eq_some_iff.mp h
      exact .accept haccept
  · simp only [World.turn] at h
    split at h
    · cases h
    · obtain ⟨renderer, hok, rfl⟩ := received_eq_some.mp h
      exact .receive ⟨renderer, .handle hok, rfl, rfl⟩
  · cases h
    exact .flush hne

/-- The commit of the first frame and the release of its buffer are on their way: after the one and the other the renderer
    says in its next `recv` that the buffer is destroyed, and its id is given back. -/
theorem release_drained : ∃ w w', Reachable .exact batterySession w ∧ w.requests = [.commit 3] ∧
    w.events = [(9, .release)] ∧ Channel.Drains compositor (Drawer.step .exact batterySession) w 5 w' ∧
    w'.requests = [] ∧ w'.events = [] ∧ w'.server.current = w.client.drawn.head?.map (·.1) := by
  have hrun : ((World.start begun).turns .exact batterySession (firstFrameTurns ++ [.move (.release 9)])).bind (fun w =>
      (w.turn .exact batterySession .accept).bind fun w₁ => (w₁.turn .exact batterySession .receive).bind fun w₂ =>
        (w₂.turn .exact batterySession .flush).bind fun w₃ => (w₃.turn .exact batterySession .accept).bind fun w₄ =>
          (w₄.turn .exact batterySession .receive).map fun _ => (w.requests, w.events, w.load,
            w.client.renderer.connection.nextId, w₂.unsent.length)) =
      some ([.commit 3], [(9, .release)], 5, 10, 1) := by
    decide +kernel
  obtain ⟨w, hw, hrun⟩ := Option.bind_eq_some_iff.mp hrun
  obtain ⟨w₁, hw₁, hrun⟩ := Option.bind_eq_some_iff.mp hrun
  obtain ⟨w₂, hw₂, hrun⟩ := Option.bind_eq_some_iff.mp hrun
  obtain ⟨w₃, hw₃, hrun⟩ := Option.bind_eq_some_iff.mp hrun
  obtain ⟨w₄, hw₄, hrun⟩ := Option.bind_eq_some_iff.mp hrun
  obtain ⟨w₅, hw₅, heq⟩ := Option.map_eq_some_iff.mp hrun
  obtain ⟨hrequests, heq⟩ := Prod.mk.inj heq
  obtain ⟨hevents, heq⟩ := Prod.mk.inj heq
  obtain ⟨hload, heq⟩ := Prod.mk.inj heq
  obtain ⟨hid, hwaiting⟩ := Prod.mk.inj heq
  have hne : w₂.unsent ≠ [] := List.ne_nil_of_length_pos (hwaiting ▸ Nat.zero_lt_one)
  have hdrains := ((((Channel.Drains.refl.step (turn_drain (.inl rfl) hw₁)).step (turn_drain (.inr (.inl rfl)) hw₂)).step
    (turn_drain (.inr (.inr ⟨rfl, hne⟩)) hw₃)).step (turn_drain (.inl rfl) hw₄)).step (turn_drain (.inr (.inl rfl)) hw₅)
  have hstart := reachable_turns reachable_start hw
  have hroom : w.client.renderer.connection.nextId + w.globals < 2 ^ 32 := by
    rw [World.globals, hevents, hid]
    decide
  obtain ⟨-, hend | ⟨turn, w₆, hturn, hw₆⟩⟩ := drained hstart hroom hdrains
  · exact ⟨w, w₅, hstart, hrequests, hevents, hdrains, hend⟩
  · have hdrain := turn_drain (hturn.imp_right Or.inl) hw₆
    obtain ⟨hle, -⟩ := drained hstart hroom (hdrains.step hdrain)
    omega

end

end Zlinestatus.Wayland
