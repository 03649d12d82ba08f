import Zlinestatus.Theorems.Interleaving
import Zlinestatus.Theorems.Rectangle

/-! When the next frame can be drawn: exactly what stops it in a state of the two programs. -/

namespace Zlinestatus.Wayland
open Run
open Wire (Object Text wlDisplay)

/-! ### The swapchain -/

section
variable {chain chain' : SwapChain} {connection connection' : Connection} {numBytes : ℕ} {slice : Slice}
  {host : Option UInt32}

theorem Ids.createId_isOk_iff (h : Ids connection) : (∃ id connection', connection.createId = .ok (id, connection')) ↔
    connection.freeIds ≠ [] ∨ connection.nextId + 1 < 2 ^ 32 := by
  refine ⟨fun hok => ?_, h.createId_isOk⟩
  obtain ⟨id, connection', hok⟩ := hok
  unfold Connection.createId at hok
  split at hok
  · next id freeIds heq => exact Or.inl (heq ▸ List.cons_ne_nil _ _)
  · split at hok
    · next hlt => exact Or.inr hlt
    · cases hok

theorem SwapChain.WellFormed.mapping (h : chain.WellFormed) {index : ℕ} (hmem : (slice, index) ∈ chain.bufferMappings) :
    slice.length ≤ chain.maxBufferSize ∧ index < chain.nextFrameIndex :=
  ⟨(h.slices _ hmem).2,
    h.lt_of_mem (List.mem_append_right _ (List.mem_append_left _ (List.mem_map_of_mem (f := (·.2)) hmem)))⟩

theorem mem_of_mapSlot {index : ℕ} (h : chain.mapSlot index numBytes = .ok (slice, chain')) :
    (slice, index) ∈ chain'.bufferMappings := by
  obtain ⟨-, -, -, -, -, rfl⟩ := SwapChain.mapSlot_eq_ok.mp h
  exact List.mem_append_right _ (List.mem_singleton_self _)

/-- A frame is mapped: its slot is one that was handed out, and it fits there. -/
theorem SwapChain.WellFormed.mapped (h : chain.WellFormed)
    (hok : chain.mapBuffer host connection numBytes = .ok (slice, chain', connection')) :
    numBytes ≤ chain'.maxBufferSize ∧ 0 < chain'.nextFrameIndex := by
  obtain ⟨_, _, _, _, index, _, -, -, -, -, -, hslot⟩ := SwapChain.mapBuffer_eq_ok.mp hok
  obtain ⟨hfits, hlt⟩ := (h.mapBuffer hok).mapping (mem_of_mapSlot hslot)
  obtain ⟨-, -, -, -, rfl, -⟩ := SwapChain.mapSlot_eq_ok.mp hslot
  exact ⟨hfits, Nat.zero_lt_of_lt hlt⟩

/-- A frame is mapped in the pool there is: of its requests, one may be there to tell the size of the pool. -/
theorem mapBuffer_again (hmapped : chain.bufferMappings = []) (hfits : numBytes ≤ chain.maxBufferSize)
    (hok : chain.mapBuffer host connection numBytes = .ok (slice, chain', connection')) :
    ∃ index written, chain'.bufferMappings = [(slice, index)] ∧ slice = ⟨index * chain'.maxBufferSize, numBytes⟩ ∧
      chain'.bufferIndices = chain.bufferIndices ∧ connection' = { connection with written := written } := by
  obtain ⟨_, _, _, _, index, _, -, hgrow, -, -, htake, hslot⟩ := SwapChain.mapBuffer_eq_ok.mp hok
  rw [SwapChain.ensureSize, if_neg (not_lt.mpr hfits)] at hgrow
  cases hgrow
  obtain ⟨-, -, -, -, rfl, rfl⟩ := SwapChain.mapSlot_eq_ok.mp hslot
  rcases SwapChain.takeIndex_eq_ok htake with ⟨free, -, rfl, rfl⟩ | ⟨-, rfl, -, rfl, hconnection⟩
  · exact ⟨index, connection'.written, by rw [hmapped]; rfl, rfl, rfl, rfl⟩
  · refine ⟨_, connection'.written, by rw [hmapped]; rfl, rfl, rfl, ?_⟩
    rw [hconnection]
    split <;> rfl

/-- What was mapped can be sent, if there is an id for the buffer. -/
theorem SwapChain.WellFormed.sendBuffer_isOk (h : chain.WellFormed) {index width height stride : ℕ} {wlBuffer : Object}
    (hne : numBytes ≠ 0) (hmapped : chain.bufferMappings = [(⟨index * chain.maxBufferSize, numBytes⟩, index)])
    (hle : stride * height ≤ numBytes) (hid : connection.createId = .ok (wlBuffer, connection'))
    (hnew : ArrayMap.get chain.bufferIndices wlBuffer = none) (format : Format) :
    ∃ result, chain.sendBuffer connection ⟨index * chain.maxBufferSize, numBytes⟩ width height stride format =
      .ok result := by
  have hmem : ((⟨index * chain.maxBufferSize, numBytes⟩ : Slice), index) ∈ chain.bufferMappings :=
    hmapped ▸ List.mem_singleton_self _
  obtain ⟨hfits, hlt⟩ := h.mapping hmem
  have hpool : chain.shmPool ≠ none := mt h.empty.mp fun hzero => hne (Nat.le_zero.mp (hzero ▸ hfits))
  obtain ⟨pool, hpool⟩ := Option.ne_none_iff_exists'.mp hpool
  have hend : index * chain.maxBufferSize + stride * height ≤ (index + 1) * chain.maxBufferSize := by
    rw [Nat.succ_mul]
    exact Nat.add_le_add_left (hle.trans hfits) _
  have hroom : chain.bufferIndices.length < chain.capacity := by
    have hlength := h.length
    rw [SwapChain.busy, hmapped, List.length_singleton] at hlength
    exact lt_of_lt_of_le (by omega) h.room
  obtain ⟨nextId, freeIds, -, heq⟩ := createId_eq hid
  refine ⟨_, SwapChain.sendBuffer_eq_ok.mpr ⟨index, pool, connection', ?_, hpool, ?_, ?_, hid, ?_, rfl,
    SwapChain.putIndex_eq_ok.mpr ⟨hroom, hnew, rfl⟩⟩⟩
  · rw [hmapped]
    exact if_pos rfl
  · exact lt_of_le_of_lt (hend.trans (Nat.mul_le_mul_right _ hlt)) h.size
  · exact hend.trans (h.slot_le hpool hlt)
  · rw [heq]
    simp

end

/-! ### The frame -/

/-- A screen that has had a frame. -/
structure Screen.Started (screen : Screen) : Prop where
  nonempty : screen.width.toNat * screen.height.toNat * 4 ≠ 0
  size : screen.width.toNat * screen.height.toNat * 4 < 2 ^ 31
  fits : screen.width.toNat * screen.height.toNat * 4 ≤ screen.swapChain.maxBufferSize
  slot : 0 < screen.swapChain.nextFrameIndex

section
variable {ar : F32Arith} {screen : Screen} {connection : Connection} {host : Option UInt32} {wlSurface : Object}
  {percent : F32} {orientation : Orientation} {alignment : Alignment} {color : Pixel}

theorem renderFrame_started {chain : SwapChain} {connection' : Connection} (hwell : screen.swapChain.WellFormed)
    (hok : Renderer.renderFrame ar host connection screen.swapChain wlSurface screen.width.toNat screen.height.toNat percent
      orientation alignment color = .ok (chain, connection')) :
    Screen.Started { screen with swapChain := chain } := by
  obtain ⟨mapped, chain₁, connection₁, pixels, wlBuffer, connection₂, -, -, hsize, -, -, -, hmap, -, hsend, -⟩ :=
    renderFrame_eq_ok hok
  obtain ⟨hfits, hslot⟩ := hwell.mapped hmap
  obtain ⟨-, hne, -⟩ := (SwapChain.mapBuffer_isOk_iff hwell host).mp ⟨_, hmap⟩
  obtain ⟨_, _, _, -, -, -, -, -, -, -, hput⟩ := SwapChain.sendBuffer_eq_ok.mp hsend
  obtain ⟨-, -, rfl⟩ := SwapChain.putIndex_eq_ok.mp hput
  exact ⟨hne, (castU31_eq_some.mp hsize).1, hfits, hslot⟩

theorem Screen.Started.lossless (h : screen.Started) : Lossless screen.width.toNat screen.height.toNat := by
  have hpos := Nat.pos_of_mul_pos_right (Nat.pos_of_ne_zero h.nonempty)
  exact FrameFits.lossless (Nat.le_pred_of_lt h.size) (Nat.pos_of_mul_pos_right hpos) (Nat.pos_of_mul_pos_left hpos)

/-- A call of `renderFrame` whose calls succeed. -/
theorem renderFrame_of_calls {chain chain₁ chain₂ : SwapChain} {connection₁ connection₂ : Connection} {mapped : Slice}
    {width height : ℕ} {pixels : List Pixel} {wlBuffer : Object} (hlossless : Lossless width height)
    (hmap : chain.mapBuffer host connection (width * height * 4) = .ok (mapped, chain₁, connection₁))
    (hdraw : drawPercent ar (bytesAsSlice (chain₁.read mapped)) width height percent orientation alignment color =
      some pixels)
    (hsend : (chain₁.store mapped (sliceAsBytes pixels)).sendBuffer connection₁ mapped width height (width * 4) .argb8888 =
      .ok (wlBuffer, chain₂, connection₂)) :
    Renderer.renderFrame ar host connection chain wlSurface width height percent orientation alignment color =
      .ok (chain₂, ((connection₂.write (.attach wlSurface wlBuffer)).write (.damage wlSurface 0 0 width height)).write
        (.commit wlSurface)) := by
  simp only [Renderer.renderFrame, hlossless.byteSize, hlossless.stride, hlossless.castByteSize, hlossless.castStride,
    hlossless.castWidth, hlossless.castHeight, hmap]
  refine bind_eq_ok.mpr ⟨_, rfl, ?_⟩
  simp only [hdraw]
  exact bind_eq_ok.mpr ⟨_, hsend, rfl⟩

/-- Exactly when a slot of another frame is mapped: one was released, or there is one more in a pool of 31 bits. -/
theorem mapBuffer_started_iff (hstarted : screen.Started) (hwell : screen.swapChain.WellFormed) (connection : Connection) :
    (∃ result, screen.swapChain.mapBuffer host connection (screen.width.toNat * screen.height.toNat * 4) = .ok result) ↔
      host ≠ none ∧ (screen.swapChain.freeBuffers ≠ [] ∨
        (screen.swapChain.nextFrameIndex + 1) * screen.swapChain.maxBufferSize < 2 ^ 31 ∧
          pageSize ∣ screen.swapChain.maxBufferSize) := by
  refine (SwapChain.mapBuffer_isOk_iff hwell host).trans ⟨fun h => ?_, fun h => ?_⟩
  · obtain ⟨hhost, -, -, hslot⟩ := h
    refine ⟨hhost, (hslot hstarted.fits).imp_right fun hroom => ⟨hroom.1, ?_⟩⟩
    exact hroom.2.resolve_left hstarted.slot.ne'
  · obtain ⟨hhost, hslot⟩ := h
    exact ⟨hhost, hstarted.nonempty, fun hlt => absurd hstarted.fits (not_le.mpr hlt),
      fun _ => hslot.imp_right fun hroom => ⟨hroom.1, Or.inr hroom.2⟩⟩

/-- Exactly when another frame of the same size is drawn: the host does its part, there is an id for the buffer, a slot for
    the frame, and the picture fits the surface. -/
theorem renderFrame_isOk_iff (hstarted : screen.Started) (hwell : screen.swapChain.WellFormed)
    (hmapped : screen.swapChain.bufferMappings = []) (hids : Ids connection)
    (hnew : ∀ o, 2 ≤ o.toNat → connection.objects o = none → ArrayMap.get screen.swapChain.bufferIndices o = none)
    (wlSurface : Object) :
    (∃ result, Renderer.renderFrame ar host connection screen.swapChain wlSurface screen.width.toNat screen.height.toNat
      percent orientation alignment color = .ok result) ↔
      (host ≠ none ∧ (screen.swapChain.freeBuffers ≠ [] ∨
        (screen.swapChain.nextFrameIndex + 1) * screen.swapChain.maxBufferSize < 2 ^ 31 ∧
          pageSize ∣ screen.swapChain.maxBufferSize)) ∧
      (connection.freeIds ≠ [] ∨ connection.nextId + 1 < 2 ^ 32) ∧
      ∃ frame, Picture ar screen.width.toNat screen.height.toNat percent orientation alignment color frame := by
  rw [← mapBuffer_started_iff hstarted hwell connection, ← hids.createId_isOk_iff]
  constructor
  · intro hok
    obtain ⟨⟨chain', connection'⟩, hok⟩ := hok
    obtain ⟨mapped, chain₁, connection₁, pixels, wlBuffer, connection₂, -, -, -, -, -, -, hmap, hdraw, hsend, -⟩ :=
      renderFrame_eq_ok hok
    obtain ⟨index, written, -, rfl, -, rfl⟩ := mapBuffer_again hmapped hstarted.fits hmap
    obtain ⟨_, _, _, -, hpool, -, -, hid, -⟩ := SwapChain.sendBuffer_eq_ok.mp hsend
    rw [createId_written] at hid
    obtain ⟨⟨id, connection₃⟩, hid, -⟩ := map_eq_ok.mp hid
    obtain ⟨pool, hpool, -⟩ := Option.map_eq_some_iff.mp hpool
    exact ⟨⟨_, hmap⟩, ⟨id, connection₃, hid⟩, _, picture_of_draw hpool hdraw⟩
  · intro h
    obtain ⟨⟨⟨mapped, chain₁, connection₁⟩, hmap⟩, ⟨id, connection₂, hid⟩, frame, pixels, hpixels, -⟩ := h
    have hwell₁ := hwell.mapBuffer hmap
    obtain ⟨hfits₁, -⟩ := hwell.mapped hmap
    obtain ⟨index, written, hmapped₁, rfl, hindices, rfl⟩ := mapBuffer_again hmapped hstarted.fits hmap
    have hpool : chain₁.shmPool ≠ none :=
      mt hwell₁.empty.mp fun hzero => hstarted.nonempty (Nat.le_zero.mp (hzero ▸ hfits₁))
    obtain ⟨pool, hpool⟩ := Option.ne_none_iff_exists'.mp hpool
    have hbefore := bytesAsSlice_length (read_length chain₁ ⟨index * chain₁.maxBufferSize,
      screen.width.toNat * screen.height.toNat * 4⟩ hpool)
    have hdraw : drawPercent ar (bytesAsSlice (chain₁.read ⟨index * chain₁.maxBufferSize,
        screen.width.toNat * screen.height.toNat * 4⟩)) screen.width.toNat screen.height.toNat percent orientation alignment
        color = some pixels := by
      rw [drawPercent_blank, hbefore]
      exact hpixels
    obtain ⟨hnone, hlow, -⟩ := hids.createId hid
    have hid₁ : { connection with written := written }.createId = .ok (id, { connection₂ with written := written }) := by
      rw [createId_written, hid]
      rfl
    obtain ⟨⟨wlBuffer, chain₂, connection₃⟩, hsend⟩ := (hwell₁.store ⟨index * chain₁.maxBufferSize,
      screen.width.toNat * screen.height.toNat * 4⟩ (sliceAsBytes pixels)).sendBuffer_isOk
      hstarted.nonempty hmapped₁ (Nat.mul_right_comm screen.width.toNat 4 screen.height.toNat).le hid₁
      ((congrArg (ArrayMap.get · id) hindices).trans (hnew id hlow hnone)) .argb8888
    exact ⟨_, renderFrame_of_calls hstarted.lossless hmap hdraw hsend⟩

end

/-! ### The two together -/

section
variable {ar : F32Arith} {session : Session} {w : World} {renderer renderer' : Renderer} {c : Compositor}
  {drawn : List (Object × Bytes)} {E : List (Object × Event)} {host : Option UInt32}

/-- Where there is a screen, it has had a frame, and there is a surface for the next one. -/
def Renderer.Started (renderer : Renderer) : Prop :=
  ∀ screen, renderer.screen = some screen → renderer.surface.isSome ∧ screen.Started

theorem Renderer.Started.handle (h : renderer.Started) {o : Object} {event : Event}
    (hok : renderer.handle o event = .ok renderer') : renderer'.Started := by
  cases handled hok with
  | bind =>
    intro screen hscreen
    rw [bound_screen] at hscreen
    rw [bound_surface]
    exact h screen hscreen
  | @layerSurface event hobject => cases event <;> exact h
  | @release screen chain hobject hscreen hchain =>
    intro screen' hsome
    cases hsome
    obtain ⟨-, _, _, rfl⟩ := SwapChain.onWlBufferEvent_eq hchain
    obtain ⟨hsurface, hstarted⟩ := h screen hscreen
    exact ⟨hsurface, hstarted.nonempty, hstarted.size, hstarted.fits, hstarted.slot⟩
  | _ => exact h

theorem started_of_draw {surface : Surface} (hsurface : renderer.surface = some surface) {screen : Screen}
    (hwell : screen.swapChain.WellFormed) {percent : F32} {color : Pixel}
    (hok : renderer.draw ar session host surface screen percent color = .ok renderer') : renderer'.Started := by
  obtain ⟨⟨chain, connection⟩, hframe, rfl⟩ := map_eq_ok.mp hok
  intro screen' hsome
  cases hsome
  exact ⟨Option.isSome_of_eq_some hsurface, renderFrame_started hwell hframe⟩

theorem started_of_reachable (h : Reachable ar session w) : w.client.renderer.Started := by
  obtain ⟨renderer, hbegin, hreaches⟩ := h
  refine hreaches.keeps (P := fun drawer => drawer.renderer.Started) ?_ fun {v drawer' e requests} hv hstarted hstep => ?_
  · rw [begin_eq] at hbegin
    cases hbegin
    exact fun _ hscreen => by cases hscreen
  · obtain ⟨c, es, -, hinstep⟩ := caughtUp_of_reachable (show Reachable ar session v from ⟨renderer, hbegin, hv⟩)
    obtain ⟨renderer', hact, -, rfl⟩ := hstep
    change renderer'.Started
    cases hact with
    | handle hok => exact hstarted.handle hok
    | setUp hdone hsurface hok =>
      obtain ⟨-, -, -, -, -, -, -, -, -, -, -, rfl⟩ := setUp_eq_ok hok
      exact fun screen hscreen => ⟨rfl, (hstarted screen hscreen).2⟩
    | firstFrame hconfigured hscreen hok =>
      unfold Renderer.firstFrame at hok
      split at hok
      · cases hok
      · split at hok
        · next surface wlShm hsurface hshm => exact started_of_draw hsurface (SwapChain.WellFormed.initial wlShm) hok
        · cases hok
    | nextFrame hclosed hok =>
      unfold Renderer.nextFrame at hok
      split at hok
      · next surface screen hsurface hscreen =>
        obtain ⟨-, hwell, -⟩ := hinstep.synced.screen screen hscreen
        exact started_of_draw hsurface hwell hok
      · cases hok

/-- Exactly when the frame for a message is drawn, in whatever order the two got where they are: the host does its part, the
    slot of a released buffer is free or the pool can have one more, an id is free or can be had, and the picture fits the
    surface. -/
theorem next_frame_drawn_iff (h : Reachable ar session w) {screen : Screen}
    (hscreen : w.client.renderer.screen = some screen) (host : Option UInt32) (message : ParsedMessage) :
    (∃ renderer, w.client.renderer.nextFrame ar session host message = .ok renderer) ↔
      (host ≠ none ∧ (screen.swapChain.freeBuffers ≠ [] ∨
        (screen.swapChain.nextFrameIndex + 1) * screen.swapChain.maxBufferSize < 2 ^ 31 ∧
          pageSize ∣ screen.swapChain.maxBufferSize)) ∧
      (w.client.renderer.connection.freeIds ≠ [] ∨ w.client.renderer.connection.nextId + 1 < 2 ^ 32) ∧
      ∃ frame, Picture ar screen.width.toNat screen.height.toNat message.percent session.config.orientation
        session.config.alignment (pickColorForStates session.style message.states) frame := by
  obtain ⟨c, es, -, hinstep⟩ := caughtUp_of_reachable h
  obtain ⟨hsurface, hstarted⟩ := started_of_reachable h screen hscreen
  obtain ⟨surface, hsurface⟩ := Option.isSome_iff_exists.mp hsurface
  obtain ⟨-, hwell, hmapped, -⟩ := hinstep.synced.screen screen hscreen
  have hnew : ∀ o : Object, 2 ≤ o.toNat → w.client.renderer.connection.objects o = none →
      ArrayMap.get screen.swapChain.bufferIndices o = none := by
    intro o hlow ho
    obtain ⟨hslot, -⟩ := hinstep.synced.stages.of_unused (ne_display_of_low hlow).2 ho
    rw [hscreen] at hslot
    exact hslot
  refine Iff.trans ?_ (renderFrame_isOk_iff hstarted hwell hmapped hinstep.synced.ids hnew surface.wlSurface)
  simp only [Renderer.nextFrame, hsurface, hscreen, Renderer.draw]
  constructor
  · intro hok
    obtain ⟨renderer, hok⟩ := hok
    obtain ⟨result, hresult, -⟩ := map_eq_ok.mp hok
    exact ⟨result, hresult⟩
  · intro hok
    obtain ⟨result, hresult⟩ := hok
    exact ⟨_, map_eq_ok.mpr ⟨result, hresult, rfl⟩⟩

/-- On a surface of 2 pixels there is no second frame while the compositor has the first one: the second slot of the pool is
    not at the start of a page. When the buffer is released there is. -/
theorem second_frame_drawn : ∃ w w', Reachable .exact batterySession w ∧ Reachable .exact batterySession w' ∧
    (¬∃ renderer, w.client.renderer.nextFrame .exact batterySession (some 5) fiftyMessage = .ok renderer) ∧
    ∃ renderer, w'.client.renderer.nextFrame .exact batterySession (some 5) fiftyMessage = .ok renderer := by
  have hfirst : ((World.start begun).turns .exact batterySession firstFrameTurns).map (fun w =>
      w.client.renderer.screen.map fun screen => (screen.swapChain.freeBuffers, screen.swapChain.maxBufferSize)) =
      some (some ([], 8)) := by
    decide +kernel
  have hrelease : ((World.start begun).turns .exact batterySession (firstFrameTurns ++ [.move (.release 9), .receive])).map
      (fun w => (w.client.renderer.connection.nextId, w.client.renderer.screen.map fun screen =>
        (screen.swapChain.freeBuffers, screen.width, screen.height))) = some (10, some ([0], 2, 1)) := by
    decide +kernel
  have hpicture : (drawPercent .exact (.replicate 2 transparent) 2 1 (.finite 50) .horizontal .center opaqueWhite).isSome := by
    decide +kernel
  obtain ⟨w, hw, hscreen⟩ := exists_reachable hfirst
  obtain ⟨w', hw', heq⟩ := exists_reachable hrelease
  obtain ⟨screen, hscreen, hsizes⟩ := Option.map_eq_some_iff.mp hscreen
  obtain ⟨hfree, hmax⟩ := Prod.mk.inj hsizes
  obtain ⟨hid, hscreen'⟩ := Prod.mk.inj heq
  obtain ⟨screen', hscreen', hsizes'⟩ := Option.map_eq_some_iff.mp hscreen'
  obtain ⟨hfree', hwidth, hheight⟩ := Prod.mk.inj hsizes' |>.imp id Prod.mk.inj
  refine ⟨w, w', hw, hw', fun hok => ?_, (next_frame_drawn_iff hw' hscreen' (some 5) fiftyMessage).mpr ⟨⟨Option.some_ne_none _,
    Or.inl ?_⟩, Or.inr ?_, ?_⟩⟩
  · obtain ⟨⟨-, hslot⟩, -⟩ := (next_frame_drawn_iff hw hscreen (some 5) fiftyMessage).mp hok
    rw [hfree, hmax] at hslot
    rcases hslot with hne | ⟨-, hpage⟩
    · exact hne rfl
    · revert hpage
      decide
  · rw [hfree']
    exact List.cons_ne_nil _ _
  · rw [hid]
    decide
  · rw [hwidth, hheight]
    obtain ⟨pixels, hpixels⟩ := Option.isSome_iff_exists.mp hpicture
    exact ⟨_, pixels, hpixels, rfl⟩

end

end Zlinestatus.Wayland
