import Zlinestatus.Theorems.Stages

/-! The renderer and the compositor that has caught up with it: what holds between them, and how the events of the
    renderer's objects keep it. -/

namespace Zlinestatus.Wayland
open Run
open Wire (Object Text wlDisplay)

/-! ### Ids -/

/-- The ids that were given back are free, each once, and so are those from `next_id` on. -/
structure Ids (connection : Connection) : Prop where
  low : 2 ≤ connection.nextId
  high : connection.nextId < 2 ^ 32
  nodup : connection.freeIds.Nodup
  free : ∀ id ∈ connection.freeIds, 2 ≤ id.toNat ∧ id.toNat < connection.nextId ∧ connection.objects id = none
  fresh : ∀ id : Object, id.toNat < 2 ∨ connection.nextId ≤ id.toNat → connection.objects id = none

section
variable {connection connection' : Connection} {id : Object} {listener : Option Listener}

theorem put_eq_ok {id' : Object} : connection.put id = .ok (id', connection') ↔ connection.objects id = none ∧ id' = id ∧
    connection' = { connection with objects := Function.update connection.objects id (some none) } := by
  unfold Connection.put
  split
  · next h =>
    constructor
    · intro h'
      cases h'
    · intro h'
      rw [h'.1] at h
      cases h
  · next h =>
    rw [Bool.not_eq_true, Option.isSome_eq_false_iff, Option.isNone_iff_eq_none] at h
    simp only [h, true_and, Except.ok.injEq, Prod.mk.injEq]
    constructor
    · intro h'
      exact ⟨h'.1.symm, h'.2.symm⟩
    · intro h'
      exact ⟨h'.1.symm, h'.2.symm⟩

theorem setEventListener_eq_ok {listener : Listener} : connection.setEventListener id listener = .ok connection' ↔
    (connection.objects id).isSome ∧
      connection' = { connection with objects := Function.update connection.objects id (some (some listener)) } := by
  unfold Connection.setEventListener
  split
  · next h => simp [h, eq_comm]
  · next h => simp [h]

/-- An id is created that nothing has, in the renderer. -/
theorem Ids.createId (h : Ids connection) (hid : connection.createId = .ok (id, connection')) :
    connection.objects id = none ∧ 2 ≤ id.toNat ∧
      connection'.objects = Function.update connection.objects id (some none) ∧
      connection'.written = connection.written ∧ Ids connection' := by
  unfold Connection.createId at hid
  split at hid
  · next id' freeIds heq =>
    obtain ⟨hnone, rfl, rfl⟩ := put_eq_ok.mp hid
    obtain ⟨hlow, hlt, -⟩ := h.free id (by simp [heq])
    have hnodup := h.nodup
    rw [heq, List.nodup_cons] at hnodup
    refine ⟨hnone, hlow, rfl, rfl, h.low, h.high, hnodup.2, fun o ho => ?_, fun o ho => ?_⟩
    · obtain ⟨holow, holt, honone⟩ := h.free o (by rw [heq]; exact List.mem_cons_of_mem _ ho)
      have hne : o ≠ id := fun heq' => hnodup.1 (heq' ▸ ho)
      exact ⟨holow, holt, (Function.update_of_ne hne ..).trans honone⟩
    · have hne : o ≠ id := by
        intro heq'
        rw [heq'] at ho
        change id.toNat < 2 ∨ connection.nextId ≤ id.toNat at ho
        omega
      exact (Function.update_of_ne hne ..).trans (h.fresh o ho)
  · next heq =>
    split at hid
    · next hlt =>
      obtain ⟨hnone, rfl, rfl⟩ := put_eq_ok.mp hid
      have hnat : (UInt32.ofNat connection.nextId).toNat = connection.nextId := UInt32.toNat_ofNat_of_lt' h.high
      refine ⟨hnone, by rw [hnat]; exact h.low, rfl, rfl, h.low.trans (Nat.le_succ _), hlt, h.nodup, fun o ho => ?_,
        fun o ho => ?_⟩
      · simp only [heq] at ho
        cases ho
      · change o.toNat < 2 ∨ connection.nextId + 1 ≤ o.toNat at ho
        have hne : o ≠ UInt32.ofNat connection.nextId := by
          intro heq'
          rw [heq', hnat] at ho
          have := h.low
          omega
        exact (Function.update_of_ne hne ..).trans (h.fresh o (ho.imp_right Nat.le_of_succ_le))
    · cases hid

/-- An id can be had for as long as some are free or new ones have 32 bits. -/
theorem Ids.createId_isOk (h : Ids connection) (hroom : connection.freeIds ≠ [] ∨ connection.nextId + 1 < 2 ^ 32) :
    ∃ id connection', connection.createId = .ok (id, connection') := by
  unfold Connection.createId
  split
  · next id freeIds heq => exact ⟨_, _, put_eq_ok.mpr ⟨(h.free id (by simp [heq])).2.2, rfl, rfl⟩⟩
  · next heq =>
    rw [if_pos (hroom.resolve_left (not_not.mpr heq))]
    refine ⟨_, _, put_eq_ok.mpr ⟨h.fresh _ (Or.inr ?_), rfl, rfl⟩⟩
    rw [UInt32.toNat_ofNat_of_lt' h.high]

theorem Ids.objects (h : Ids connection) {objects : Object → Option (Option Listener)}
    (hsame : ∀ o, connection.objects o = none → objects o = none) : Ids { connection with objects := objects } where
  low := h.low
  high := h.high
  nodup := h.nodup
  free o ho := ⟨(h.free o ho).1, (h.free o ho).2.1, hsame o (h.free o ho).2.2⟩
  fresh o ho := hsame o (h.fresh o ho)

theorem Ids.written (h : Ids connection) (written : List Request) : Ids { connection with written := written } :=
  ⟨h.low, h.high, h.nodup, h.free, h.fresh⟩

/-- The id of an object that is gone is free. -/
theorem Ids.deleteId (h : Ids connection) (ho : connection.objects id = some listener) :
    Ids (connection.deleteId id) := by
  have hused : ¬(id.toNat < 2 ∨ connection.nextId ≤ id.toNat) := by
    intro hor
    rw [h.fresh id hor] at ho
    cases ho
  rw [not_or, not_lt, not_le] at hused
  have hnot : id ∉ connection.freeIds := by
    intro hmem
    rw [(h.free id hmem).2.2] at ho
    cases ho
  have hobjects : ∀ o, connection.objects o = none → Function.update connection.objects id none o = none := by
    intro o hnone
    rw [Function.update_apply]
    split
    · rfl
    · exact hnone
  refine ⟨h.low, h.high, List.nodup_cons.mpr ⟨hnot, h.nodup⟩, ?_, fun o hor => hobjects o (h.fresh o hor)⟩
  refine List.forall_mem_cons.mpr ⟨⟨hused.1, hused.2, Function.update_self ..⟩, fun o ho' => ?_⟩
  obtain ⟨hlow, hlt, hnone⟩ := h.free o ho'
  exact ⟨hlow, hlt, hobjects o hnone⟩

theorem ne_display_of_low (h : 2 ≤ id.toNat) : id ≠ 0 ∧ id ≠ wlDisplay := by
  constructor
  · intro heq
    rw [heq] at h
    exact absurd h (by decide)
  · intro heq
    rw [heq] at h
    exact absurd h (by decide)

end

/-! ### The two in step -/

namespace Compositor
variable {c c' : Compositor} {r : Request} {m : Move} {o : Object} {X : Resource}

/-- What the compositor has said and taken stays true. -/
structure Keeps (c c' : Compositor) : Prop where
  knows : Knows c c'
  stays : ∀ {o : Object} {X : Resource}, c.resources o = some X → X.Stays → X.Lasting → c'.resources o = some X
  acked : c.acked = true → c'.acked = true

theorem Keeps.refl (c : Compositor) : Keeps c c := ⟨.refl c, fun h _ _ => h, id⟩

theorem Keeps.trans {c'' : Compositor} (h : Keeps c c') (h' : Keeps c' c'') : Keeps c c'' where
  knows := ⟨List.Subset.trans h.knows.announced h'.knows.announced, List.Subset.trans h.knows.serials h'.knows.serials⟩
  stays ho hX hlasting := h'.stays (h.stays ho hX hlasting) hX hlasting
  acked ha := h'.acked (h.acked ha)

theorem next_keeps (h : c.next r = some c') : Keeps c c' := by
  refine ⟨?_, fun ho _ hlasting => next_lasting ho hlasting h, ?_⟩
  · obtain ⟨hannounced, hserials⟩ := next_heard h
    exact ⟨hannounced ▸ List.Subset.refl _, hserials ▸ List.Subset.refl _⟩
  · cases r <;> simp only [next, add] at h <;> grind [put]

theorem after_stays (h : c.after m = some c') (ho : c.resources o = some X) (hX : X.Stays) :
    c'.resources o = some X := by
  cases m <;> simp only [after] at h <;> grind [put_apply, Resource.Stays]

theorem after_buffer {part : Part} {use : Use} (h : c.after m = some c') (ho : c.resources o = some (.buffer part use)) :
    ∃ use', c'.resources o = some (.buffer part use') := by
  cases m <;> simp only [after] at h <;> grind [put_apply]

theorem after_surface (h : c.after m = some c') : c'.pending = c.pending ∧ c'.current = c.current ∧ c'.acked = c.acked := by
  cases m <;> simp only [after] at h <;> grind [put]

theorem after_keeps (h : c.after m = some c') : Keeps c c' := by
  refine ⟨?_, fun ho hX _ => after_stays h ho hX, fun ha => (after_surface h).2.2.trans ha⟩
  suffices hsame : c.announced ⊆ c'.announced ∧ c.serials ⊆ c'.serials from ⟨hsame.1, hsame.2⟩
  cases m <;> simp only [after] at h <;> grind [put]

end Compositor

/-! ### The invariant -/

/-- The slot in which the frame of a buffer is. -/
def slotOf (screen : Option Screen) (o : Object) : Option ℕ :=
  screen.bind fun screen => ArrayMap.get screen.swapChain.bufferIndices o

/-- The renderer's globals and its surface are what it takes them for. -/
structure Bound (renderer : Renderer) (c : Compositor) : Prop where
  wlCompositor : ∀ o, renderer.wlCompositor = some o → c.resources o = some (.global .wlCompositor)
  wlShm : ∀ o, renderer.wlShm = some o → c.resources o = some (.global .wlShm)
  layerShell : ∀ o, renderer.layerShell = some o → c.resources o = some (.global .layerShell)
  wlSurface : ∀ surface, renderer.surface = some surface → c.resources surface.wlSurface = some .surface
  configured : renderer.state.surfaceConfigured = true → c.acked = true

/-- The pool is as big as the compositor takes it to be, and each buffer has its slot there, with the frame that was
    drawn for it. -/
structure Shown (chain : SwapChain) (width height : ℕ) (drawn : List (Object × Bytes)) (c : Compositor) : Prop where
  wlShm : c.resources chain.wlShm = some (.global .wlShm)
  pool : ∀ pool, chain.shmPool = some pool → c.resources pool.wlShmPool = some (.pool pool.memoryLen) ∧
    width * height * 4 ≤ chain.maxBufferSize
  buffers : ∀ o slot, (o, slot) ∈ chain.bufferIndices → ∃ pool use, chain.shmPool = some pool ∧
    c.resources o = some (.buffer ⟨pool.wlShmPool, slot * chain.maxBufferSize, width, height, width * 4⟩ use) ∧
    ArrayMap.get drawn o = some (chain.read ⟨slot * chain.maxBufferSize, width * 4 * height⟩)

/-- The renderer and the compositor that has taken all its requests. -/
structure Synced (renderer : Renderer) (drawn : List (Object × Bytes)) (c : Compositor) (E : List (Object × Event)) :
    Prop where
  ids : Ids renderer.connection
  stages : Stages renderer.connection.objects (slotOf renderer.screen) c E
  bound : Bound renderer c
  pending : c.pending = none
  current : c.current = drawn.head?.map (·.1)
  screen : ∀ screen, renderer.screen = some screen → c.acked = true ∧ screen.swapChain.WellFormed ∧
    screen.swapChain.bufferMappings = [] ∧ Shown screen.swapChain screen.width.toNat screen.height.toNat drawn c

section
variable {c c' : Compositor} {renderer renderer' : Renderer} {drawn : List (Object × Bytes)} {chain : SwapChain}
  {width height : ℕ} {o id : Object} {x : Object × Event} {E E' : List (Object × Event)}

theorem Bound.keeps (h : Bound renderer c) (hkeeps : c.Keeps c') : Bound renderer c' where
  wlCompositor o ho := hkeeps.stays (h.wlCompositor o ho) trivial trivial
  wlShm o ho := hkeeps.stays (h.wlShm o ho) trivial trivial
  layerShell o ho := hkeeps.stays (h.layerShell o ho) trivial trivial
  wlSurface surface hs := hkeeps.stays (h.wlSurface surface hs) trivial trivial
  configured hc := hkeeps.acked (h.configured hc)

theorem Compositor.put_stays {X : Resource} {Y : Option Resource} (hid : ∀ Z, c.resources id = some Z → ¬Z.Stays)
    (ho : c.resources o = some X) (hX : X.Stays) : (c.put id Y).resources o = some X := by
  have hne : o ≠ id := by
    rintro rfl
    exact hid X ho hX
  exact (Compositor.put_of_ne hne).trans ho

theorem Compositor.put_keeps {Y : Option Resource} (hid : ∀ Z, c.resources id = some Z → ¬Z.Stays) :
    c.Keeps (c.put id Y) :=
  ⟨⟨List.Subset.refl _, List.Subset.refl _⟩, fun ho hX _ => Compositor.put_stays hid ho hX, fun ha => ha⟩

/-- Nothing of this is about an object that the renderer does not have yet. -/
theorem Shown.put (h : Shown chain width height drawn c) (hid : c.resources id = none) {Y : Option Resource} :
    Shown chain width height drawn (c.put id Y) := by
  have hold : ∀ {o X}, c.resources o = some X → (c.put id Y).resources o = some X := fun {o X} ho =>
    (Compositor.put_of_ne fun heq => by simp [heq, hid] at ho).trans ho
  refine ⟨hold h.wlShm, fun pool hpool => ⟨hold (h.pool pool hpool).1, (h.pool pool hpool).2⟩, ?_⟩
  intro o slot hmem
  obtain ⟨pool, use, hpool, hresource, hdrawn⟩ := h.buffers o slot hmem
  exact ⟨pool, use, hpool, hold hresource, hdrawn⟩

theorem Shown.move {m : Compositor.Move} (h : Shown chain width height drawn c) (hm : c.after m = some c') :
    Shown chain width height drawn c' := by
  refine ⟨Compositor.after_stays hm h.wlShm trivial, fun pool hpool =>
    ⟨Compositor.after_stays hm (h.pool pool hpool).1 trivial, (h.pool pool hpool).2⟩, ?_⟩
  intro o slot hmem
  obtain ⟨pool, use, hpool, hresource, hdrawn⟩ := h.buffers o slot hmem
  obtain ⟨use', hresource'⟩ := Compositor.after_buffer hm hresource
  exact ⟨pool, use', hpool, hresource', hdrawn⟩

theorem Synced.move {m : Compositor.Move} (h : Synced renderer drawn c (E ++ E')) (hm : c.after m = some c') :
    Synced renderer drawn c' (E ++ Compositor.events m ++ E') := by
  obtain ⟨hpending, hcurrent, hacked⟩ := Compositor.after_surface hm
  refine ⟨h.ids, h.stages.move hm, h.bound.keeps (Compositor.after_keeps hm), hpending.trans h.pending,
    hcurrent.trans h.current, fun screen hscreen => ?_⟩
  obtain ⟨ha, hwell, hmapped, hshown⟩ := h.screen screen hscreen
  exact ⟨hacked.trans ha, hwell, hmapped, hshown.move hm⟩

end

/-! ### Requests on their way -/

section
variable {c₀ c c' : Compositor} {E₀ E : List (Object × Event)} {connection connection' : Connection}
  {slots : Object → Option ℕ} {id : Object} {request : Request}

/-- The requests written so far are taken, and lead from `c₀` to `c`. -/
structure Sending (c₀ : Compositor) (E₀ : List (Object × Event)) (connection : Connection) (slots : Object → Option ℕ)
    (c : Compositor) (E : List (Object × Event)) : Prop where
  accepted : ∃ es, compositor.acceptAll c₀ connection.written = some (c, es) ∧ E = E₀ ++ es
  ids : Ids connection
  stages : Stages connection.objects slots c E

/-- One more request, that has no answer. -/
theorem acceptAll_next {requests : List Request} {es : List (Object × Event)}
    (h : compositor.acceptAll c₀ requests = some (c, es)) (hnext : c.next request = some c')
    (hreplies : Compositor.replies request = []) : compositor.acceptAll c₀ (requests ++ [request]) = some (c', es) := by
  have hone := Channel.Server.acceptAll_concat h (accept_eq_some.mpr ⟨hnext, rfl⟩)
  rw [hreplies, List.append_nil] at hone
  exact hone

theorem Sending.write (h : Sending c₀ E₀ connection slots c E) (hnext : c.next request = some c')
    (hreplies : Compositor.replies request = []) (hstages : Stages connection.objects slots c' E) :
    Sending c₀ E₀ (connection.write request) slots c' E where
  accepted := by
    obtain ⟨es, hall, rfl⟩ := h.accepted
    exact ⟨es, acceptAll_next hall hnext hreplies, rfl⟩
  ids := h.ids.written _
  stages := hstages

/-- It changes no object either. -/
theorem Sending.say (h : Sending c₀ E₀ connection slots c E) (hnext : c.next request = some c')
    (hreplies : Compositor.replies request = []) (hresources : c'.resources = c.resources) :
    Sending c₀ E₀ (connection.write request) slots c' E :=
  h.write hnext hreplies (h.stages.keeps hresources (Compositor.next_keeps hnext).knows)

/-- The id of a new object is new to the compositor too, and the connection may set a listener on it. -/
theorem Sending.fresh (h : Sending c₀ E₀ connection slots c E) (hid : connection.createId = .ok (id, connection'))
    (listener : Option Listener) (written : List Request) :
    (c.resources id = none ∧ id ≠ 0 ∧ id ≠ wlDisplay) ∧ connection.objects id = none ∧
      connection'.written = connection.written ∧
      Ids { connection' with objects := Function.update connection.objects id (some listener), written := written } := by
  obtain ⟨hnone, hlow, hobjects, hwritten, hids⟩ := h.ids.createId hid
  obtain ⟨hzero, hdisplay⟩ := ne_display_of_low hlow
  refine ⟨⟨(h.stages.of_unused hdisplay hnone).2.1, hzero, hdisplay⟩, hnone, hwritten,
    (hids.written written).objects fun o ho => ?_⟩
  change connection'.objects o = none at ho
  rw [hobjects] at ho
  have hne : o ≠ id := by
    intro heq
    rw [heq, Function.update_self] at ho
    cases ho
  rw [Function.update_of_ne hne]
  rwa [Function.update_of_ne hne] at ho

/-- An object is created. -/
theorem Sending.create (h : Sending c₀ E₀ connection slots c E) (hid : connection.createId = .ok (id, connection'))
    (request : Request) {X : Resource} (hX : X.Stays ∨ X = .callback) (hreplies : Compositor.replies request = [])
    (hnext : c.add id X = some (c.put id (some X)) → c.next request = some (c.put id (some X)))
    {objects : Object → Option (Option Listener)}
    (hobjects : objects = Function.update connection.objects id (some (listenerOf X))) :
    c.resources id = none ∧
      Sending c₀ E₀ { connection'.write request with objects := objects } slots (c.put id (some X)) E := by
  subst hobjects
  obtain ⟨⟨hresource, hzero, hdisplay⟩, hnone, hwritten, hids⟩ := h.fresh hid (listenerOf X) (connection'.written ++ [request])
  have htaken := hnext (Compositor.add_eq_some.mpr ⟨hresource, hzero, hdisplay, rfl⟩)
  obtain ⟨es, hall, rfl⟩ := h.accepted
  refine ⟨hresource, ⟨es, ?_, rfl⟩, hids, h.stages.create hdisplay hnone hX⟩
  change compositor.acceptAll c₀ (connection'.written ++ [request]) = _
  rw [hwritten]
  exact acceptAll_next hall htaken hreplies

end

/-! ### Events -/

section
variable {c : Compositor} {renderer renderer' : Renderer} {drawn : List (Object × Bytes)} {o : Object}
  {x : Object × Event} {E : List (Object × Event)}

/-- The compositor takes the requests, and the two are in step again. -/
def Taken (renderer : Renderer) (drawn : List (Object × Bytes)) (c : Compositor) (E : List (Object × Event)) : Prop :=
  ∃ c' es, compositor.acceptAll c renderer.connection.written = some (c', es) ∧ Synced renderer drawn c' (E ++ es)

theorem Synced.taken (h : Synced renderer drawn c E) (hwritten : renderer.connection.written = []) :
    Taken renderer drawn c E := by
  refine ⟨c, [], by rw [hwritten]; rfl, ?_⟩
  rw [List.append_nil]
  exact h

theorem Synced.sending (h : Synced renderer drawn c E) (hwritten : renderer.connection.written = []) :
    Sending c E renderer.connection (slotOf renderer.screen) c E :=
  ⟨⟨[], by rw [hwritten]; rfl, (List.append_nil E).symm⟩, h.ids, h.stages⟩

@[simp] theorem bound_connection (renderer : Renderer) (interface : Interface) (id : Object) :
    (renderer.bound interface id).connection = renderer.connection := by
  cases interface <;> rfl

@[simp] theorem bound_screen (renderer : Renderer) (interface : Interface) (id : Object) :
    (renderer.bound interface id).screen = renderer.screen := by
  cases interface <;> rfl

@[simp] theorem bound_surface (renderer : Renderer) (interface : Interface) (id : Object) :
    (renderer.bound interface id).surface = renderer.surface := by
  cases interface <;> rfl

theorem Bound.bound (h : Bound renderer c) {interface : Interface} {id : Object}
    (hid : c.resources id = some (.global interface)) {connection : Connection} :
    Bound ({ renderer with connection := connection }.bound interface id) c := by
  cases interface with
  | wlCompositor => exact ⟨fun o ho => by cases ho; exact hid, h.wlShm, h.layerShell, h.wlSurface, h.configured⟩
  | wlShm => exact ⟨h.wlCompositor, fun o ho => by cases ho; exact hid, h.layerShell, h.wlSurface, h.configured⟩
  | layerShell => exact ⟨h.wlCompositor, h.wlShm, fun o ho => by cases ho; exact hid, h.wlSurface, h.configured⟩
  | other => exact ⟨h.wlCompositor, h.wlShm, h.layerShell, h.wlSurface, h.configured⟩

theorem Synced.onRegistryEvent (h : Synced renderer drawn c E) (hwritten : renderer.connection.written = [])
    {registry : Object} {name : UInt32} {interface : Text} {version : UInt32}
    (hregistry : c.resources registry = some .registry)
    (hannounced : (name, interfaceNamed interface.1, version) ∈ c.announced)
    (hok : renderer.onRegistryEvent registry name interface version = .ok renderer') : Taken renderer' drawn c E := by
  simp only [Renderer.onRegistryEvent] at hok
  split at hok
  · next hif =>
    obtain ⟨⟨id, _⟩, hcreate, rfl⟩ := map_eq_ok.mp hok
    obtain ⟨⟨_, connection'⟩, hid, heq⟩ := map_eq_ok.mp hcreate
    cases heq
    obtain ⟨-, -, hobjects, -, -⟩ := h.ids.createId hid
    generalize interfaceNamed interface.1 = interface at hif hannounced ⊢
    have hany : c.announced.any (fun g => g.1 == name && g.2.1 == interface && interface.version ≤ g.2.2.toNat) = true :=
      List.any_eq_true.mpr ⟨_, hannounced, by simpa using hif.2⟩
    obtain ⟨hresource, hsending⟩ := (h.sending hwritten).create (X := .global interface) hid
      (.bind registry name interface id) (Or.inl trivial) rfl
      (fun hadd => by rw [Compositor.next, if_pos ⟨hregistry, hany, hif.1⟩, hadd]) hobjects
    obtain ⟨es, hall, hes⟩ := hsending.accepted
    refine ⟨_, es, by rw [bound_connection]; exact hall, ?_⟩
    rw [← hes]
    refine ⟨?_, ?_, ?_, h.pending, h.current, ?_⟩
    · rw [bound_connection]
      exact hsending.ids
    · rw [bound_connection, bound_screen]
      exact hsending.stages
    · exact (h.bound.keeps (Compositor.put_keeps (by simp [hresource]))).bound (Compositor.put_self ..)
    · rw [bound_screen]
      intro screen hscreen
      obtain ⟨hacked, hwell, hmapped, hshown⟩ := h.screen screen hscreen
      exact ⟨hacked, hwell, hmapped, hshown.put hresource⟩
  · cases hok
    exact h.taken hwritten

theorem Synced.configure (h : Synced renderer drawn c E) (hwritten : renderer.connection.written = [])
    {serial width height : UInt32} (ho : c.resources o = some .layerSurface) (hserial : serial ∈ c.serials) :
    Taken (renderer.onLayerSurfaceEvent o (.configure serial width height)) drawn c E := by
  have hnext : c.next (.ackConfigure o serial) = some { c with acked := true } := if_pos ⟨ho, hserial⟩
  have hsending := (h.sending hwritten).say hnext rfl rfl
  obtain ⟨es, hall, hes⟩ := hsending.accepted
  have hbound := h.bound.keeps (Compositor.next_keeps hnext)
  refine ⟨_, es, hall, ?_⟩
  rw [← hes]
  refine ⟨hsending.ids, hsending.stages, ?_, h.pending, h.current, fun screen hscreen => ?_⟩
  · exact ⟨hbound.wlCompositor, hbound.wlShm, hbound.layerShell, hbound.wlSurface, fun _ => rfl⟩
  · obtain ⟨-, hwell, hmapped, hshown⟩ := h.screen screen hscreen
    exact ⟨rfl, hwell, hmapped, hshown.wlShm, hshown.pool, hshown.buffers⟩

theorem Synced.deleteId {listener : Option Listener} (h : Synced renderer drawn c ((wlDisplay, .deleteId o) :: E))
    (ho : o ≠ wlDisplay) (hobject : renderer.connection.objects o = some listener)
    (hslot : slotOf renderer.screen o = none) (hresource : c.resources o = none) (hE : about o E = []) :
    Synced { renderer with connection := renderer.connection.deleteId o } drawn c E := by
  refine ⟨h.ids.deleteId hobject, ?_, ?_, h.pending, h.current, h.screen⟩
  · refine h.stages.update (.refl c) ho (fun o' ho' => Function.update_of_ne ho' ..) (fun _ _ => rfl) (fun _ _ => rfl)
      (fun o' ho' => (about_cons_of_ne (Ne.symm ho')).symm) ?_
    have hnone : (renderer.connection.deleteId o).objects o = none := Function.update_self ..
    rw [hnone, hslot, hresource, hE]
    exact .free
  · exact ⟨h.bound.wlCompositor, h.bound.wlShm, h.bound.layerShell, h.bound.wlSurface, h.bound.configured⟩

/-- The compositor gives a buffer back: the renderer destroys it, and draws its next frame there. -/
theorem Synced.onWlBufferEvent (h : Synced renderer drawn c ((o, .release) :: E))
    (hwritten : renderer.connection.written = []) (ho : o ≠ wlDisplay)
    (hobject : renderer.connection.objects o = some (some .buffer)) {slot : ℕ} {part : Part}
    (hslot : slotOf renderer.screen o = some slot) (hresource : c.resources o = some (.buffer part .released))
    (hE : about o E = []) (hok : renderer.onWlBufferEvent o = .ok renderer') : Taken renderer' drawn c E := by
  obtain ⟨screen, hscreen, hget⟩ := Option.bind_eq_some_iff.mp hslot
  obtain ⟨hacked, hold, hmapped, hshown⟩ := h.screen screen hscreen
  have hkeys := hold.keys
  simp only [Renderer.onWlBufferEvent, hscreen] at hok
  obtain ⟨⟨chain, connection⟩, hchain, rfl⟩ := map_eq_ok.mp hok
  have hwell := hold.onWlBufferEvent hchain
  simp only [SwapChain.onWlBufferEvent, hget] at hchain
  obtain ⟨chain', hfree, heq⟩ := map_eq_ok.mp hchain
  cases heq
  obtain ⟨-, rfl⟩ := SwapChain.freeBuffer_eq_ok.mp hfree
  have hnext : c.next (.destroyBuffer o) = some (c.put o none) := by
    simp only [Compositor.next, hresource]
  have hbuffer : ∀ Z, c.resources o = some Z → ¬Z.Stays := fun Z hZ => by
    rw [hresource] at hZ
    cases hZ
    exact id
  refine ⟨c.put o none, [(wlDisplay, .deleteId o)], ?_, ?_, ?_, ?_, h.pending, h.current, fun s hs => ?_⟩
  · change compositor.acceptAll c (renderer.connection.written ++ [.destroyBuffer o]) = _
    rw [hwritten]
    exact Channel.Server.acceptAll_singleton (accept_eq_some.mpr ⟨hnext, rfl⟩)
  · exact h.ids.written _
  · refine h.stages.update ⟨List.Subset.refl _, List.Subset.refl _⟩ ho (fun _ _ => rfl) (fun o' ho' => ?_)
      (fun o' ho' => Compositor.put_of_ne ho') (fun o' ho' => ?_) ?_
    · rw [slotOf, slotOf, hscreen]
      exact (ArrayMap.get_swapRemove hkeys hget o').trans (if_neg ho')
    · have hother : about o' [(wlDisplay, .deleteId o)] = [] := about_cons_of_ne (Ne.symm ho')
      rw [about_append, hother, List.append_nil]
      exact (about_cons_of_ne (by rw [subject_of_ne ho]; exact Ne.symm ho')).symm
    · have hnone : slotOf (some { screen with swapChain := { screen.swapChain with
          bufferIndices := ArrayMap.swapRemove screen.swapChain.bufferIndices o
          freeBuffers := slot :: screen.swapChain.freeBuffers } }) o = none :=
        (ArrayMap.get_swapRemove hkeys hget o).trans (if_pos rfl)
      have hobject' : (renderer.connection.write (.destroyBuffer o)).objects o = some (some .buffer) := hobject
      have hevents : about o [(wlDisplay, .deleteId o)] = [(wlDisplay, .deleteId o)] := about_cons_self rfl
      rw [hobject', hnone, Compositor.put_self, about_append, hE, hevents]
      exact .deleting _
  · have hbound := h.bound.keeps (Compositor.put_keeps (Y := none) hbuffer)
    exact ⟨hbound.wlCompositor, hbound.wlShm, hbound.layerShell, hbound.wlSurface, hbound.configured⟩
  · cases hs
    refine ⟨hacked, hwell, hmapped, Compositor.put_stays hbuffer hshown.wlShm trivial, fun pool hpool =>
      ⟨Compositor.put_stays hbuffer (hshown.pool pool hpool).1 trivial, (hshown.pool pool hpool).2⟩,
      fun o' slot' hmem => ?_⟩
    have hget' := ArrayMap.get_of_mem hwell.keys hmem
    rw [ArrayMap.get_swapRemove hkeys hget] at hget'
    split at hget'
    · cases hget'
    · next ho' =>
      obtain ⟨pool, use, hpool, hresource', hdrawn⟩ := hshown.buffers o' slot' (ArrayMap.mem_of_get hget')
      exact ⟨pool, use, hpool, (Compositor.put_of_ne ho').trans hresource', hdrawn⟩

/-- The next event has its listener, and the compositor takes what the listener says. -/
theorem Synced.handle (h : Synced renderer drawn c (x :: E)) (hwritten : renderer.connection.written = [])
    (hok : renderer.handle x.1 x.2 = .ok renderer') : Taken renderer' drawn c E := by
  cases h.stages.heard with
  | error object code message hnext =>
    simp only [Renderer.handle, h.stages.noDisplay.1, if_pos, Renderer.onDisplayEvent] at hok
    cases hok
    exact Synced.taken { h with stages := hnext } hwritten
  | @stays o event X ho hobject hresource hX hspeaks hnext =>
    have hrest : Synced renderer drawn c E := { h with stages := hnext }
    simp only [Renderer.handle, hobject] at hok
    cases X with
    | registry =>
      cases event with
      | global name interface version => exact hrest.onRegistryEvent hwritten hresource hspeaks hok
      | globalRemove name =>
        cases hok
        exact hrest.taken hwritten
      | _ => cases hspeaks
    | layerSurface =>
      cases event with
      | layerSurface event =>
        cases hok
        cases event with
        | configure serial width height => exact hrest.configure hwritten hresource hspeaks
        | closed =>
          have hbound := hrest.bound
          exact Synced.taken ⟨hrest.ids, hrest.stages, ⟨hbound.wlCompositor, hbound.wlShm, hbound.layerShell,
            hbound.wlSurface, hbound.configured⟩, hrest.pending, hrest.current, hrest.screen⟩ hwritten
      | _ => cases hspeaks
    | global interface =>
      cases hok
      exact hrest.taken hwritten
    | surface =>
      cases hok
      exact hrest.taken hwritten
    | pool size => cases event <;> cases hspeaks
    | callback => cases hX
    | buffer part use => cases hX
  | done ho hobject hnext =>
    simp only [Renderer.handle, hobject] at hok
    cases hok
    have hbound := h.bound
    exact Synced.taken ⟨h.ids, hnext, ⟨hbound.wlCompositor, hbound.wlShm, hbound.layerShell, hbound.wlSurface,
      hbound.configured⟩, h.pending, h.current, h.screen⟩ hwritten
  | deleteId ho hobject hslot hresource hE =>
    simp only [Renderer.handle, h.stages.noDisplay.1, if_pos, Renderer.onDisplayEvent] at hok
    cases hok
    exact (h.deleteId ho hobject hslot hresource hE).taken hwritten
  | release ho hobject hslot hresource hE =>
    simp only [Renderer.handle, hobject] at hok
    exact h.onWlBufferEvent hwritten ho hobject hslot hresource hE hok

def Event.isGlobal : Event → Bool
  | global _ _ _ => true
  | _ => false

/-- The next event is never one that the renderer cannot handle; only the ids of globals may run out. -/
theorem Synced.handle_isOk (h : Synced renderer drawn c (x :: E))
    (hroom : x.2.isGlobal → renderer.connection.freeIds ≠ [] ∨ renderer.connection.nextId + 1 < 2 ^ 32) :
    ∃ renderer', renderer.handle x.1 x.2 = .ok renderer' := by
  cases h.stages.heard with
  | error object code message hnext =>
    simp only [Renderer.handle, h.stages.noDisplay.1, if_pos, Renderer.onDisplayEvent]
    exact ⟨_, rfl⟩
  | @stays o event X ho hobject hresource hX hspeaks hnext =>
    simp only [Renderer.handle, hobject]
    cases X with
    | registry =>
      cases event with
      | global name interface version =>
        change ∃ renderer', renderer.onRegistryEvent o name interface version = .ok renderer'
        simp only [Renderer.onRegistryEvent]
        split
        · obtain ⟨id, connection, hid⟩ := h.ids.createId_isOk (hroom rfl)
          rw [Connection.create, hid]
          exact ⟨_, rfl⟩
        · exact ⟨_, rfl⟩
      | globalRemove name => exact ⟨_, rfl⟩
      | _ => cases hspeaks
    | layerSurface =>
      cases event with
      | layerSurface event => exact ⟨_, rfl⟩
      | _ => cases hspeaks
    | global interface => exact ⟨_, rfl⟩
    | surface => exact ⟨_, rfl⟩
    | pool size => cases event <;> cases hspeaks
    | callback => cases hX
    | buffer part use => cases hX
  | done ho hobject hnext =>
    simp only [Renderer.handle, hobject]
    exact ⟨_, rfl⟩
  | deleteId ho hobject hslot hresource hE =>
    simp only [Renderer.handle, h.stages.noDisplay.1, if_pos, Renderer.onDisplayEvent]
    exact ⟨_, rfl⟩
  | @release o part slot ho hobject hslot hresource hE =>
    simp only [Renderer.handle, hobject]
    obtain ⟨screen, hscreen, hget⟩ := Option.bind_eq_some_iff.mp hslot
    obtain ⟨-, hwell, -, -⟩ := h.screen screen hscreen
    obtain ⟨result, hresult⟩ := SwapChain.onWlBufferEvent_isOk hwell renderer.connection o
    change ∃ renderer', renderer.onWlBufferEvent o = .ok renderer'
    rw [Renderer.onWlBufferEvent, hscreen]
    exact ⟨_, map_eq_ok.mpr ⟨result, hresult, rfl⟩⟩

/-- What the renderer has to know for an event: the object of the event, the one whose id is given back, and the slot of
    a buffer, of which the only event is its release. -/
structure Known (renderer : Renderer) (x : Object × Event) : Prop where
  object : x.1 = wlDisplay ∨ (renderer.connection.objects x.1).isSome
  deleted : ∀ id, x.1 = wlDisplay → x.2 = .deleteId id → (renderer.connection.objects id).isSome
  buffer : renderer.connection.objects x.1 = some (some .buffer) → x.2 = .release ∧
    ∃ screen index, renderer.screen = some screen ∧ ArrayMap.get screen.swapChain.bufferIndices x.1 = some index

/-- The next event is always one of which the renderer knows what it is about. -/
theorem Synced.known (h : Synced renderer drawn c (x :: E)) : Known renderer x := by
  cases h.stages.heard with
  | error object code message hnext =>
    refine ⟨Or.inl rfl, fun id _ hevent => (by cases hevent), fun hobject => ?_⟩
    rw [h.stages.noDisplay.1] at hobject
    cases hobject
  | @stays o event X ho hobject hresource hX hspeaks hnext =>
    refine ⟨Or.inr (Option.isSome_of_eq_some hobject), fun id hdisplay => absurd hdisplay ho, fun hbuffer => ?_⟩
    rw [hobject] at hbuffer
    cases X with
    | buffer part use => cases hX
    | _ => cases hbuffer
  | done ho hobject hnext =>
    refine ⟨Or.inr (Option.isSome_of_eq_some hobject), fun id hdisplay => absurd hdisplay ho, fun hbuffer => ?_⟩
    rw [hobject] at hbuffer
    cases hbuffer
  | deleteId ho hobject hslot hresource hE =>
    refine ⟨Or.inl rfl, fun id _ hevent => ?_, fun hbuffer => ?_⟩
    · cases hevent
      exact Option.isSome_of_eq_some hobject
    · rw [h.stages.noDisplay.1] at hbuffer
      cases hbuffer
  | release ho hobject hslot hresource hE =>
    refine ⟨Or.inr (Option.isSome_of_eq_some hobject), fun id hdisplay => absurd hdisplay ho, fun _ => ⟨rfl, ?_⟩⟩
    obtain ⟨screen, hscreen, hget⟩ := Option.bind_eq_some_iff.mp hslot
    exact ⟨screen, _, hscreen, hget⟩

theorem framesOf_nil (renderer : Renderer) : framesOf renderer [] = [] := by
  unfold framesOf
  split <;> rfl

/-- A new id is that of an object without a listener. -/
theorem createId_eq {connection connection' : Connection} {id : Object}
    (hid : connection.createId = .ok (id, connection')) :
    ∃ nextId freeIds, nextId ≤ connection.nextId + 1 ∧ connection' = { connection with
      nextId := nextId
      freeIds := freeIds
      objects := Function.update connection.objects id (some none) } := by
  unfold Connection.createId at hid
  split at hid
  · obtain ⟨-, rfl, rfl⟩ := put_eq_ok.mp hid
    exact ⟨_, _, Nat.le_succ _, rfl⟩
  · split at hid
    · obtain ⟨-, rfl, rfl⟩ := put_eq_ok.mp hid
      exact ⟨_, _, le_refl _, rfl⟩
    · cases hid

theorem createId_connection {connection connection' : Connection} {id : Object}
    (hid : connection.createId = .ok (id, connection')) : connection'.written = connection.written := by
  obtain ⟨nextId, freeIds, -, rfl⟩ := createId_eq hid
  rfl

/-- What an event is to the renderer, and the renderer after it. -/
inductive Handled (renderer : Renderer) (o : Object) : Event → Renderer → Prop
  | bind {name version : UInt32} {interface : Text} {id : Object} {connection : Connection}
    (hobject : renderer.connection.objects o = some (some .registry)) (hinterface : interfaceNamed interface.1 ≠ .other)
    (hversion : (interfaceNamed interface.1).version ≤ version.toNat)
    (hid : renderer.connection.createId = .ok (id, connection)) :
    Handled renderer o (.global name interface version) (Renderer.bound
      { renderer with connection := connection.write (.bind o name (interfaceNamed interface.1) id) }
      (interfaceNamed interface.1) id)
  | global {name version : UInt32} {interface : Text} (hobject : renderer.connection.objects o = some (some .registry))
    (hnot : ¬(interfaceNamed interface.1 ≠ .other ∧ (interfaceNamed interface.1).version ≤ version.toNat)) :
    Handled renderer o (.global name interface version) renderer
  | globalRemove {name : UInt32} (hobject : renderer.connection.objects o = some (some .registry)) :
    Handled renderer o (.globalRemove name) renderer
  | done {callbackData : UInt32} (hobject : renderer.connection.objects o = some (some .callback)) :
    Handled renderer o (.done callbackData) renderer.onWlCallbackSetTrue
  | layerSurface {event : LayerSurfaceEvent} (hobject : renderer.connection.objects o = some (some .layerSurface)) :
    Handled renderer o (.layerSurface event) (renderer.onLayerSurfaceEvent o event)
  | release {screen : Screen} {chain : SwapChain} (hobject : renderer.connection.objects o = some (some .buffer))
    (hscreen : renderer.screen = some screen) (hchain : screen.swapChain.onWlBufferEvent renderer.connection o =
      .ok (chain, renderer.connection.write (.destroyBuffer o))) :
    Handled renderer o .release { renderer with
      connection := renderer.connection.write (.destroyBuffer o)
      screen := some { screen with swapChain := chain } }
  | unheard {event : Event} (hobject : renderer.connection.objects o = some none) : Handled renderer o event renderer
  | deleteId {id : Object} (hobject : renderer.connection.objects o = none) :
    Handled renderer o (.deleteId id) { renderer with connection := renderer.connection.deleteId id }
  | error {culprit : Object} {code : UInt32} {message : Text} (hobject : renderer.connection.objects o = none) :
    Handled renderer o (.error culprit code message) renderer

theorem handled_of_listen {listener : Listener} {event : Event}
    (hobject : renderer.connection.objects o = some (some listener)) (hok : renderer.listen o listener event = .ok renderer') :
    Handled renderer o event renderer' := by
  cases listener with
  | registry =>
    cases event with
    | global name interface version =>
      change renderer.onRegistryEvent o name interface version = _ at hok
      simp only [Renderer.onRegistryEvent] at hok
      split at hok
      · next hbind =>
        obtain ⟨⟨id, _⟩, hcreate, rfl⟩ := map_eq_ok.mp hok
        obtain ⟨⟨_, connection⟩, hid, heq⟩ := map_eq_ok.mp hcreate
        cases heq
        exact .bind hobject hbind.1 hbind.2 hid
      · next hnot =>
        cases hok
        exact .global hobject hnot
    | globalRemove name =>
      cases hok
      exact .globalRemove hobject
    | _ => cases hok
  | callback =>
    cases event with
    | done callbackData =>
      cases hok
      exact .done hobject
    | _ => cases hok
  | layerSurface =>
    cases event with
    | layerSurface event =>
      cases hok
      exact .layerSurface hobject
    | _ => cases hok
  | buffer =>
    cases event with
    | release =>
      change renderer.onWlBufferEvent o = _ at hok
      unfold Renderer.onWlBufferEvent at hok
      split at hok
      · cases hok
      · next screen hscreen =>
        obtain ⟨⟨chain, connection⟩, hchain, rfl⟩ := map_eq_ok.mp hok
        obtain ⟨rfl, -⟩ := SwapChain.onWlBufferEvent_eq hchain
        exact .release hobject hscreen hchain
    | _ => cases hok

theorem handled {event : Event} (hok : renderer.handle o event = .ok renderer') : Handled renderer o event renderer' := by
  unfold Renderer.handle at hok
  split at hok
  · next listener hobject => exact handled_of_listen hobject hok
  · next hobject =>
    cases hok
    exact .unheard hobject
  · next hobject =>
    split at hok
    · unfold Renderer.onDisplayEvent at hok
      split at hok
      · cases hok
        exact .deleteId hobject
      · cases hok
        exact .error hobject
      · cases hok
    · cases hok

/-- What the listener of an object may write for an event. -/
inductive Answer (o : Object) : Event → List Request → Prop
  | nothing (event : Event) : Answer o event []
  | bind (name version : UInt32) {interface : Text} (hinterface : interfaceNamed interface.1 ≠ .other) (id : Object) :
    Answer o (.global name interface version) [.bind o name (interfaceNamed interface.1) id]
  | ackConfigure (serial width height : UInt32) :
    Answer o (.layerSurface (.configure serial width height)) [.ackConfigure o serial]
  | destroyBuffer : Answer o .release [.destroyBuffer o]

theorem handle_writes {event : Event} (hok : renderer.handle o event = .ok renderer') :
    ∃ requests, renderer'.connection.written = renderer.connection.written ++ requests ∧ Answer o event requests := by
  cases handled hok with
  | @bind name version interface id connection hobject hinterface hversion hid =>
    refine ⟨_, ?_, .bind name version hinterface id⟩
    rw [bound_connection, Connection.write, createId_connection hid]
  | @layerSurface event hobject =>
    cases event with
    | configure serial width height => exact ⟨_, rfl, .ackConfigure serial width height⟩
    | closed => exact ⟨[], (List.append_nil _).symm, .nothing _⟩
  | release hobject hscreen hchain => exact ⟨_, rfl, .destroyBuffer⟩
  | _ => exact ⟨[], (List.append_nil _).symm, .nothing _⟩

theorem handle_written {event : Event} (hwritten : renderer.connection.written = [])
    (hok : renderer.handle o event = .ok renderer') : Answer o event renderer'.connection.written := by
  obtain ⟨requests, heq, hanswer⟩ := handle_writes hok
  rw [heq, hwritten]
  exact hanswer

/-- A listener creates at most one object, and that for a global. -/
theorem handle_nextId {event : Event} (h : renderer.handle o event = .ok renderer') :
    renderer'.connection.nextId ≤ renderer.connection.nextId + if event.isGlobal then 1 else 0 := by
  cases handled h with
  | @bind name version interface id connection hobject hinterface hversion hid =>
    rw [bound_connection]
    obtain ⟨nextId, freeIds, hle, rfl⟩ := createId_eq hid
    exact hle
  | @layerSurface event hobject => cases event <;> exact Nat.le_add_right _ _
  | _ => exact Nat.le_add_right _ _

/-- The screen has the size it had. -/
def SameSize (renderer renderer' : Renderer) : Prop :=
  ∀ screen, renderer.screen = some screen → ∃ chain, renderer'.screen = some { screen with swapChain := chain }

theorem SameSize.of_eq (h : renderer'.screen = renderer.screen) : SameSize renderer renderer' := fun screen hscreen =>
  ⟨screen.swapChain, h.trans hscreen⟩

theorem SameSize.trans {renderer'' : Renderer} (h : SameSize renderer renderer') (h' : SameSize renderer' renderer'') :
    SameSize renderer renderer'' := by
  intro screen hscreen
  obtain ⟨chain, hchain⟩ := h screen hscreen
  obtain ⟨chain', hchain'⟩ := h' _ hchain
  exact ⟨chain', hchain'⟩

/-- No listener sends a frame or changes the size of the screen. -/
theorem handle_frames {event : Event} (hwritten : renderer.connection.written = [])
    (hok : renderer.handle o event = .ok renderer') :
    framesOf renderer' renderer'.connection.written = [] ∧ SameSize renderer renderer' := by
  refine ⟨?_, ?_⟩
  · unfold framesOf
    split
    · rfl
    · have hanswer := handle_written hwritten hok
      generalize renderer'.connection.written = requests at hanswer
      cases hanswer <;> rfl
  · cases handled hok with
    | bind hobject hinterface hversion hid => exact .of_eq (bound_screen ..)
    | @layerSurface event hobject => cases event <;> exact .of_eq rfl
    | @release screen chain hobject hscreen hchain =>
      intro screen' hscreen'
      rw [hscreen] at hscreen'
      cases hscreen'
      exact ⟨chain, rfl⟩
    | _ => exact .of_eq rfl

end

end Zlinestatus.Wayland
