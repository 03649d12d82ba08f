import Zlinestatus.Theorems.Synced

/-! A frame of the renderer and the compositor: the memory it is drawn in is the renderer's alone, and the compositor
    takes the requests that show it. -/

namespace Zlinestatus.Wayland
open Run
open Wire (Object Text wlDisplay)

/-! ### Memory -/

section
variable {chain : SwapChain} {slice other : Slice} {bytes : Bytes}

/-- A store changes no byte of other slices. -/
theorem read_store_of_disjoint (h : slice.offset + slice.length ≤ other.offset ∨ other.offset + other.length ≤ slice.offset) :
    (chain.store slice bytes).read other = chain.read other := by
  unfold SwapChain.read SwapChain.store
  cases chain.shmPool with
  | none => rfl
  | some pool =>
    refine List.map_congr_left fun i hi => if_neg ?_
    rw [List.mem_range] at hi
    omega

theorem read_store {pool : ShmPool} (hpool : chain.shmPool = some pool) (hlength : bytes.length = slice.length) :
    (chain.store slice bytes).read slice = bytes := by
  simp only [SwapChain.read, SwapChain.store, hpool, Option.map_some]
  refine List.ext_getElem (by simp [hlength]) fun i hi hi' => ?_
  rw [List.getElem_map, List.getElem_range]
  have hlt : i < slice.length := hlength ▸ hi'
  rw [if_pos ⟨Nat.le_add_right _ _, Nat.add_lt_add_left hlt _⟩, Nat.add_sub_cancel_left, List.getD_eq_getElem?_getD,
    List.getElem?_eq_getElem hi', Option.getD_some]

/-- Slots of one size do not overlap. -/
theorem slots_disjoint {i j size n m : ℕ} (hne : i ≠ j) (hn : n ≤ size) (hm : m ≤ size) :
    i * size + n ≤ j * size ∨ j * size + m ≤ i * size := by
  rcases Nat.lt_or_gt_of_ne hne with hlt | hlt
  · left
    have hmul := Nat.mul_le_mul_right size hlt
    rw [Nat.succ_mul] at hmul
    omega
  · right
    have hmul := Nat.mul_le_mul_right size hlt
    rw [Nat.succ_mul] at hmul
    omega

end

/-! ### The swapchain -/

/-- What happens to the pool does not concern the surface. -/
structure Compositor.SameSurface (c c' : Compositor) : Prop where
  keeps : c.Keeps c'
  pending : c'.pending = c.pending
  current : c'.current = c.current

theorem framesOf_append (renderer : Renderer) (requests requests' : List Request) :
    framesOf renderer (requests ++ requests') = framesOf renderer requests ++ framesOf renderer requests' := by
  unfold framesOf
  cases renderer.screen with
  | none => rfl
  | some screen => exact List.filterMap_append ..

section
variable {c₀ c c' : Compositor} {E₀ E : List (Object × Event)} {connection connection' : Connection}
  {chain chain' : SwapChain} {width height : ℕ} {drawn : List (Object × Bytes)} {pool : ShmPool} {index : ℕ}

theorem Shown.capacity (h : Shown chain width height drawn c) (n : ℕ) :
    Shown { chain with capacity := n } width height drawn c := ⟨h.wlShm, h.pool, h.buffers⟩

theorem Shown.no_pool (h : Shown chain width height drawn c) (hpool : chain.shmPool = none) :
    chain.bufferIndices = [] := by
  refine List.eq_nil_iff_forall_not_mem.mpr fun entry hentry => ?_
  obtain ⟨pool, -, hsome, -⟩ := h.buffers entry.1 entry.2 hentry
  rw [hpool] at hsome
  cases hsome

/-- Where the pool is too small for the frame there is none. -/
theorem ensureSize_sending (h : Sending c₀ E₀ connection (ArrayMap.get chain.bufferIndices) c E)
    (hshown : Shown chain width height drawn c) {fd : UInt32}
    (hok : SwapChain.ensureSize connection chain fd (width * height * 4) = .ok (chain', connection')) :
    ∃ c', Sending c₀ E₀ connection' (ArrayMap.get chain'.bufferIndices) c' E ∧ c.SameSurface c' ∧
      Shown chain' width height drawn c' ∧ (chain.bufferMappings = [] → chain'.bufferMappings = []) ∧
      ∃ requests, connection'.written = connection.written ++ requests ∧ ∀ renderer, framesOf renderer requests = [] := by
  unfold SwapChain.ensureSize at hok
  split at hok
  · next hlt =>
    have hpool : chain.shmPool = none := by
      by_contra hne
      obtain ⟨pool, hpool⟩ := Option.ne_none_iff_exists'.mp hne
      exact absurd (hshown.pool pool hpool).2 (not_le.mpr hlt)
    have hbuffers := hshown.no_pool hpool
    have hsize := (SwapChain.wellFormed_recreatePool hok).2
    obtain ⟨id, connection₁, -, hid, rfl, rfl⟩ := SwapChain.recreatePool_eq_ok hok
    rw [hpool, hbuffers] at hid
    change connection.createId = _ at hid
    obtain ⟨-, -, hobjects, hwritten, -⟩ := h.ids.createId hid
    obtain ⟨hresource, hsending⟩ := h.create (X := .pool (2 ^ Nat.clog 2 (width * height * 4))) hid
      (.createPool chain.wlShm id fd (2 ^ Nat.clog 2 (width * height * 4))) (Or.inl trivial) rfl
      (fun hadd => by rw [Compositor.next, if_pos ⟨hshown.wlShm, Nat.two_pow_pos _⟩, hadd]) hobjects
    rw [hbuffers] at hsending
    have hunused : ∀ Z, c.resources id = some Z → ¬Z.Stays := by simp [hresource]
    refine ⟨_, hsending, ⟨Compositor.put_keeps hunused, rfl, rfl⟩, ⟨Compositor.put_stays hunused hshown.wlShm trivial, ?_,
      fun o slot hmem => (by cases hmem)⟩, fun _ => rfl, _, congrArg (· ++ _) hwritten, fun renderer => ?_⟩
    · intro pool' hpool'
      cases hpool'
      exact ⟨Compositor.put_self .., hsize⟩
    · unfold framesOf
      split <;> rfl
  · cases hok
    exact ⟨c, h, ⟨.refl c, rfl, rfl⟩, hshown, id, [], (List.append_nil _).symm, framesOf_nil⟩

/-- A slot is taken: one that is free, or the next one, where the pool may have to grow. -/
theorem takeIndex_sending (hshown : Shown chain width height drawn c)
    (h : Sending c₀ E₀ connection (ArrayMap.get chain.bufferIndices) c E) (hpool : chain.shmPool = some pool)
    (hok : SwapChain.takeIndex connection chain pool = .ok (index, chain', connection')) :
    ∃ c', Sending c₀ E₀ connection' (ArrayMap.get chain'.bufferIndices) c' E ∧ c.SameSurface c' ∧
      Shown chain' width height drawn c' ∧ chain'.bufferMappings = chain.bufferMappings ∧
      ∃ requests, connection'.written = connection.written ++ requests ∧ ∀ renderer, framesOf renderer requests = [] := by
  rcases SwapChain.takeIndex_eq_ok hok with ⟨free, -, rfl, rfl⟩ | ⟨-, rfl, -, hchain, hconnection⟩
  · exact ⟨c, h, ⟨.refl c, rfl, rfl⟩, ⟨hshown.wlShm, hshown.pool, hshown.buffers⟩, rfl, [], (List.append_nil _).symm,
      framesOf_nil⟩
  · generalize chain.nextFrameIndex * chain.maxBufferSize + chain.maxBufferSize = required at hchain hconnection
    split at hconnection
    · next hgrow =>
      rw [if_pos hgrow] at hchain
      subst hchain hconnection
      obtain ⟨hresource, hsize⟩ := hshown.pool pool hpool
      have hnext : c.next (.resizePool pool.wlShmPool required) =
          some (c.put pool.wlShmPool (some (.pool required))) := by
        simp only [Compositor.next, hresource, if_pos hgrow.le]
      have hkeeps := Compositor.next_keeps hnext
      obtain ⟨hobject, hslot, hE⟩ := h.stages.of_stays hresource trivial
      have hsending := h.write hnext rfl <| by
        refine h.stages.update hkeeps.knows (h.stages.not_display hresource) (fun _ _ => rfl) (fun _ _ => rfl)
          (fun o ho => Compositor.put_of_ne ho) (fun _ _ => rfl) ?_
        rw [hobject, hslot, Compositor.put_self]
        exact .stays (X := .pool required) trivial fun x hx => ⟨(hE x hx).1, hkeeps.knows.speaks (hE x hx).2⟩
      refine ⟨_, hsending, ⟨hkeeps, rfl, rfl⟩, ⟨hkeeps.stays hshown.wlShm trivial trivial, ?_, fun o slot hmem => ?_⟩, rfl, _,
        rfl, fun renderer => by unfold framesOf; split <;> rfl⟩
      · intro pool' hpool'
        cases hpool'
        exact ⟨Compositor.put_self .., hsize⟩
      · obtain ⟨pool', use, hpool', hbuffer, hdrawn⟩ := hshown.buffers o slot hmem
        rw [hpool] at hpool'
        cases hpool'
        have hne : o ≠ pool.wlShmPool := by
          rintro rfl
          rw [hresource] at hbuffer
          cases hbuffer
        refine ⟨_, use, rfl, (Compositor.put_of_ne hne).trans hbuffer, hdrawn.trans ?_⟩
        rw [SwapChain.read, hpool, SwapChain.read]
    · next hroom =>
      rw [if_neg hroom] at hchain
      subst hchain hconnection
      exact ⟨c, h, ⟨.refl c, rfl, rfl⟩, ⟨hshown.wlShm, hshown.pool, hshown.buffers⟩, rfl, [], (List.append_nil _).symm,
        framesOf_nil⟩

theorem Compositor.SameSurface.trans {c'' : Compositor} (h : c.SameSurface c') (h' : c'.SameSurface c'') :
    c.SameSurface c'' :=
  ⟨h.keeps.trans h'.keeps, h'.pending.trans h.pending, h'.current.trans h.current⟩

/-- A frame is mapped: the compositor takes what is said of the pool, and no buffer changes. -/
theorem mapBuffer_sending (h : Sending c₀ E₀ connection (ArrayMap.get chain.bufferIndices) c E)
    (hshown : Shown chain width height drawn c) (hmapped : chain.bufferMappings = []) {host : Option UInt32} {slice : Slice}
    (hok : chain.mapBuffer host connection (width * height * 4) = .ok (slice, chain', connection')) :
    ∃ c' index, Sending c₀ E₀ connection' (ArrayMap.get chain'.bufferIndices) c' E ∧ c.SameSurface c' ∧
      Shown chain' width height drawn c' ∧ chain'.bufferMappings = [(slice, index)] ∧ width * height * 4 ≠ 0 ∧
      slice = ⟨index * chain'.maxBufferSize, width * height * 4⟩ ∧
      ∃ requests, connection'.written = connection.written ++ requests ∧ ∀ renderer, framesOf renderer requests = [] := by
  obtain ⟨fd, chain₁, connection₁, pool, index, chain₂, rfl, hgrow, hpool, -, htake, hslot⟩ :=
    SwapChain.mapBuffer_eq_ok.mp hok
  obtain ⟨-, hnum, -, -, rfl, rfl⟩ := SwapChain.mapSlot_eq_ok.mp hslot
  obtain ⟨c₁, hsending₁, hsame₁, hshown₁, hmapped₁, requests₁, hwritten₁, hframes₁⟩ := ensureSize_sending h hshown hgrow
  obtain ⟨c₂, hsending₂, hsame₂, hshown₂, hmapped₂, requests₂, hwritten₂, hframes₂⟩ :=
    takeIndex_sending (hshown₁.capacity (max chain₁.capacity (chain₁.nextFrameIndex + 1))) hsending₁ hpool htake
  refine ⟨c₂, index, hsending₂, hsame₁.trans hsame₂, ⟨hshown₂.wlShm, hshown₂.pool, hshown₂.buffers⟩, ?_, hnum, rfl,
    requests₁ ++ requests₂, ?_, fun renderer => ?_⟩
  · change chain₂.bufferMappings ++ _ = _
    rw [hmapped₂]
    exact congrArg (· ++ _) (hmapped₁ hmapped)
  · rw [hwritten₂, hwritten₁, List.append_assoc]
  · rw [framesOf_append, hframes₁, hframes₂, List.append_nil]

/-! ### The frame -/

theorem read_length (chain : SwapChain) (slice : Slice) {pool : ShmPool} (hpool : chain.shmPool = some pool) :
    (chain.read slice).length = slice.length := by
  rw [SwapChain.read, hpool]
  simp

/-- The memory of the frames shown before is not that of the slot that is drawn in. -/
theorem Shown.store (h : Shown chain width height drawn c) (hwell : chain.WellFormed) {slice : Slice}
    (hmapped : chain.bufferMappings = [(slice, index)]) (bytes : Bytes) :
    Shown (chain.store slice bytes) width height drawn c := by
  refine ⟨h.wlShm, fun pool' hpool' => ?_, fun o slot hmem => ?_⟩
  · obtain ⟨pool, hpool, rfl⟩ := Option.map_eq_some_iff.mp hpool'
    exact h.pool pool hpool
  · obtain ⟨pool, use, hpool, hresource, hdrawn⟩ := h.buffers o slot hmem
    refine ⟨_, use, congrArg (Option.map _) hpool, hresource, hdrawn.trans (congrArg some (Eq.symm ?_))⟩
    have hmem' : (slice, index) ∈ chain.bufferMappings := hmapped ▸ List.mem_singleton_self _
    obtain ⟨hoffset, hlength⟩ := hwell.slices _ hmem'
    have hslot : index ≠ slot := by
      rintro rfl
      have hnodup := (List.nodup_append.mp hwell.nodup).2.1
      exact (List.nodup_append.mp hnodup).2.2 _ (List.mem_map_of_mem hmem') _ (List.mem_map_of_mem hmem) rfl
    have hsize : width * 4 * height ≤ chain.maxBufferSize := by
      rw [Nat.mul_right_comm]
      exact (h.pool pool hpool).2
    refine read_store_of_disjoint ?_
    change slice.offset = index * chain.maxBufferSize at hoffset
    rw [hoffset]
    exact slots_disjoint hslot hlength hsize

theorem sendBuffer_sending (hshown : Shown chain width height drawn c)
    (h : Sending c₀ E₀ connection (ArrayMap.get chain.bufferIndices) c E) {slice : Slice}
    (hmapped : chain.bufferMappings = [(slice, index)]) (hne : width * height * 4 ≠ 0) {wlSurface wlBuffer : Object}
    (hsurface : c.resources wlSurface = some .surface)
    (hok : chain.sendBuffer connection slice width height (width * 4) .argb8888 = .ok (wlBuffer, chain', connection')) :
    ∃ c' wlShmPool, Sending c₀ E₀ (connection'.write (.attach wlSurface wlBuffer)) (ArrayMap.get chain'.bufferIndices) c' E ∧
      c.Keeps c' ∧ c'.pending = some wlBuffer ∧ chain'.bufferMappings = [] ∧
      Shown chain' width height
        ((wlBuffer, chain'.read ⟨index * chain.maxBufferSize, width * 4 * height⟩) :: drawn) c' ∧
      connection'.written = connection.written ++
        [.createBuffer wlShmPool wlBuffer (index * chain.maxBufferSize) width height (width * 4) .argb8888] := by
  obtain ⟨pool, connection₁, hpool, hfits, hid, rfl, hput⟩ := SwapChain.sendBuffer_only hok hmapped
  obtain ⟨-, hnew, rfl⟩ := SwapChain.putIndex_eq_ok.mp hput
  obtain ⟨⟨hresource, hzero, hdisplay⟩, hnone, hwritten, hids⟩ := h.fresh hid (some .buffer)
    ((connection₁.written ++ [.createBuffer pool.wlShmPool wlBuffer (index * chain.maxBufferSize) width height (width * 4)
      .argb8888]) ++ [.attach wlSurface wlBuffer])
  obtain ⟨-, -, hobjects, -, -⟩ := h.ids.createId hid
  obtain ⟨hpoolResource, hsize⟩ := hshown.pool pool hpool
  obtain ⟨es, hall, rfl⟩ := h.accepted
  have hwidth : 0 < width := Nat.pos_of_ne_zero fun hz => hne (by simp [hz])
  have hheight : 0 < height := Nat.pos_of_ne_zero fun hz => hne (by simp [hz])
  have hunused : ∀ Z, c.resources wlBuffer = some Z → ¬Z.Stays := by simp [hresource]
  generalize hpart : (⟨pool.wlShmPool, index * chain.maxBufferSize, width, height, width * 4⟩ : Part) = part
  have hcreate : c.next (.createBuffer pool.wlShmPool wlBuffer (index * chain.maxBufferSize) width height (width * 4)
      .argb8888) = some (c.put wlBuffer (some (.buffer part .fresh))) := by
    simp only [Compositor.next, hpoolResource, if_pos (⟨hwidth, hheight, le_refl _, hfits⟩ :
      0 < width ∧ 0 < height ∧ width * 4 ≤ width * 4 ∧ _), hpart]
    exact Compositor.add_eq_some.mpr ⟨hresource, hzero, hdisplay, rfl⟩
  have hattach : (c.put wlBuffer (some (.buffer part .fresh))).next (.attach wlSurface wlBuffer) =
      some { c.put wlBuffer (some (.buffer part .held)) with pending := some wlBuffer } := by
    simp only [Compositor.next, Compositor.put_stays hunused hsurface trivial, Compositor.put_self]
    simp only [Compositor.put, Function.update_idem]
  have hupdate : Function.update connection₁.objects wlBuffer (some (some .buffer)) =
      Function.update connection.objects wlBuffer (some (some .buffer)) := by
    rw [hobjects, Function.update_idem]
  have hother : ∀ {o X}, c.resources o = some X → o ≠ wlBuffer := fun ho heq => by simp [heq, hresource] at ho
  refine ⟨{ c.put wlBuffer (some (.buffer part .held)) with pending := some wlBuffer }, pool.wlShmPool,
    ⟨⟨es, ?_, rfl⟩, ?_, ?_⟩, ?_, rfl, ?_, ?_, congrArg (· ++ _) hwritten⟩
  · change compositor.acceptAll c₀ ((connection₁.written ++ [_]) ++ [_]) = _
    rw [hwritten]
    exact acceptAll_next (acceptAll_next hall hcreate rfl) hattach rfl
  · rw [← hupdate] at hids
    exact hids
  · change Stages (Function.update connection₁.objects wlBuffer (some (some .buffer)))
      (ArrayMap.get (chain.bufferIndices ++ [(wlBuffer, index)])) _ _
    obtain ⟨hslot, -, hE⟩ := h.stages.of_unused hdisplay hnone
    rw [hupdate]
    refine h.stages.update ⟨List.Subset.refl _, List.Subset.refl _⟩ hdisplay (fun o ho => Function.update_of_ne ho ..)
      (fun o ho => ?_) (fun o ho => Compositor.put_of_ne ho) (fun _ _ => rfl) ?_
    · rw [ArrayMap.get_append_singleton, if_neg (Ne.symm ho), Option.or_none]
    · have hheld : (c.put wlBuffer (some (.buffer part .held))).resources wlBuffer = some (.buffer part .held) :=
        Compositor.put_self ..
      rw [Function.update_self, ArrayMap.get_append_singleton, hslot, if_pos rfl, hheld, hE]
      exact .held part index
  · exact ⟨⟨List.Subset.refl _, List.Subset.refl _⟩, fun ho hX _ => Compositor.put_stays hunused ho hX, fun ha => ha⟩
  · rfl
  · refine ⟨Compositor.put_stays hunused hshown.wlShm trivial, fun pool' hpool' =>
      ⟨Compositor.put_stays hunused (hshown.pool pool' hpool').1 trivial, (hshown.pool pool' hpool').2⟩, fun o slot hmem => ?_⟩
    rcases List.mem_append.mp hmem with hold | hnew
    · obtain ⟨pool', use, hpool', hbuffer, hdrawn⟩ := hshown.buffers o slot hold
      refine ⟨pool', use, hpool', (Compositor.put_of_ne (hother hbuffer)).trans hbuffer, ?_⟩
      rw [ArrayMap.get, if_neg (hother hbuffer).symm]
      exact hdrawn
    · cases List.mem_singleton.mp hnew
      exact ⟨pool, .held, hpool, hpart ▸ Compositor.put_self .., by rw [ArrayMap.get, if_pos rfl]⟩

section
variable {ar : F32Arith} {host : Option UInt32} {wlSurface : Object} {percent : F32} {orientation : Orientation}
  {alignment : Alignment} {color : Pixel}

/-- The bytes of a frame that was transparent and has the line for `percent` in `color`. -/
def Picture (ar : F32Arith) (width height : ℕ) (percent : F32) (orientation : Orientation) (alignment : Alignment)
    (color : Pixel) (frame : Bytes) : Prop :=
  ∃ pixels, drawPercent ar (.replicate (width * height) transparent) width height percent orientation alignment color =
    some pixels ∧ frame = sliceAsBytes pixels

theorem sliceAsBytes_length (pixels : List Pixel) : (sliceAsBytes pixels).length = pixels.length * 4 := by
  simp [sliceAsBytes, List.length_flatMap]

theorem sendBuffer_read {slice other : Slice} {stride : ℕ} {format : Format} {wlBuffer : Object}
    (hok : chain.sendBuffer connection slice width height stride format = .ok (wlBuffer, chain', connection')) :
    chain'.read other = chain.read other := by
  obtain ⟨_, _, _, -, -, -, -, -, -, -, hput⟩ := SwapChain.sendBuffer_eq_ok.mp hok
  obtain ⟨-, -, rfl⟩ := SwapChain.putIndex_eq_ok.mp hput
  rfl

/-- The pixels that are drawn are the bytes of the slice. -/
theorem picture_of_draw {pixels : List Pixel} {offset : ℕ} (hpool : chain.shmPool = some pool)
    (hdraw : drawPercent ar (bytesAsSlice (chain.read ⟨offset, width * height * 4⟩)) width height percent orientation
      alignment color = some pixels) :
    Picture ar width height percent orientation alignment color
      ((chain.store ⟨offset, width * height * 4⟩ (sliceAsBytes pixels)).read ⟨offset, width * 4 * height⟩) := by
  have hbefore := bytesAsSlice_length (read_length chain ⟨offset, width * height * 4⟩ hpool)
  refine ⟨pixels, ?_, ?_⟩
  · rw [drawPercent_blank, hbefore] at hdraw
    exact hdraw
  · rw [Nat.mul_right_comm width 4 height]
    refine read_store hpool ?_
    rw [sliceAsBytes_length, drawPercent_length hdraw, hbefore]

/-- A call of `renderFrame` that succeeds. -/
theorem renderFrame_eq_ok (h : Renderer.renderFrame ar host connection chain wlSurface width height percent orientation
    alignment color = .ok (chain', connection')) :
    ∃ mapped chain₁ connection₁ pixels wlBuffer connection₂,
      framebufferByteSize width height = some (width * height * 4) ∧ usizeMul width 4 = some (width * 4) ∧
      castU31 (width * height * 4) = some (width * height * 4) ∧ castU31 (width * 4) = some (width * 4) ∧
      castU31 width = some width ∧ castU31 height = some height ∧
      chain.mapBuffer host connection (width * height * 4) = .ok (mapped, chain₁, connection₁) ∧
      drawPercent ar (bytesAsSlice (chain₁.read mapped)) width height percent orientation alignment color = some pixels ∧
      (chain₁.store mapped (sliceAsBytes pixels)).sendBuffer connection₁ mapped width height (width * 4) .argb8888 =
        .ok (wlBuffer, chain', connection₂) ∧
      connection' = ((connection₂.write (.attach wlSurface wlBuffer)).write (.damage wlSurface 0 0 width height)).write
        (.commit wlSurface) := by
  unfold Renderer.renderFrame at h
  split at h
  · next byteSize stride hbyteSize hstride =>
    split at h
    · next bytes row hbytes hrow =>
      have harea := hbyteSize
      obtain ⟨area, hmul, hmul'⟩ := Option.bind_eq_some_iff.mp harea
      obtain ⟨-, rfl⟩ := usizeMul_eq_some.mp hmul
      obtain ⟨-, rfl⟩ := usizeMul_eq_some.mp hmul'
      have hstride' := hstride
      obtain ⟨-, rfl⟩ := usizeMul_eq_some.mp hstride'
      have hbytes' := hbytes
      have hrow' := hrow
      obtain ⟨-, rfl⟩ := castU31_eq_some.mp hbytes'
      obtain ⟨-, rfl⟩ := castU31_eq_some.mp hrow'
      obtain ⟨⟨mapped, chain₁, connection₁⟩, hmap, h⟩ := bind_eq_ok.mp h
      simp only at h
      split at h
      · next pixels w h' hdraw hw hh =>
        have hw' := hw
        have hh' := hh
        obtain ⟨-, rfl⟩ := castU31_eq_some.mp hw'
        obtain ⟨-, rfl⟩ := castU31_eq_some.mp hh'
        obtain ⟨⟨wlBuffer, chain₂, connection₂⟩, hsend, h⟩ := bind_eq_ok.mp h
        cases h
        exact ⟨mapped, chain₁, connection₁, pixels, wlBuffer, connection₂, hbyteSize, hstride, hbytes, hrow, hw, hh, hmap,
          hdraw, hsend, rfl⟩
      · cases h
    · cases h
  · cases h

/-- The compositor takes what is said for a frame, and then it shows the frame. -/
theorem renderFrame_sending (h : Sending c₀ E₀ connection (ArrayMap.get chain.bufferIndices) c E)
    (hshown : Shown chain width height drawn c) (hwell : chain.WellFormed) (hmapped : chain.bufferMappings = [])
    (hsurface : c.resources wlSurface = some .surface) (hacked : c.acked = true)
    (hok : Renderer.renderFrame ar host connection chain wlSurface width height percent orientation alignment color =
      .ok (chain', connection')) :
    ∃ c' wlBuffer frame requests, Sending c₀ E₀ connection' (ArrayMap.get chain'.bufferIndices) c' E ∧ c.Keeps c' ∧
      c'.pending = none ∧ c'.current = some wlBuffer ∧ chain'.WellFormed ∧ chain'.bufferMappings = [] ∧
      Shown chain' width height ((wlBuffer, frame) :: drawn) c' ∧ connection'.written = connection.written ++ requests ∧
      ∀ renderer : Renderer, (renderer.screen.map (·.swapChain)) = some chain' →
        framesOf renderer requests = [(wlBuffer, frame)] ∧
          Picture ar width height percent orientation alignment color frame := by
  obtain ⟨mapped, chain₁, connection₁, pixels, wlBuffer, connection₂, -, -, -, -, -, -, hmap, hdraw, hsend, rfl⟩ :=
    renderFrame_eq_ok hok
  obtain ⟨c₁, index, h₁, hsame₁, hshown₁, hmapped₁, hne, rfl, requests₁, hwritten₁, hframes₁⟩ :=
    mapBuffer_sending h hshown hmapped hmap
  have hwell₁ := hwell.mapBuffer hmap
  have hfits := (hwell₁.slices (_, index) (hmapped₁ ▸ List.mem_singleton_self _)).2
  obtain ⟨pool, hpool⟩ := Option.ne_none_iff_exists'.mp (mt hwell₁.empty.mp fun hzero => hne (Nat.le_zero.mp (hzero ▸ hfits)))
  have hsurface₁ := hsame₁.keeps.stays hsurface trivial trivial
  obtain ⟨c₂, wlShmPool, h₂, hkeeps₂, hpending₂, hmapped₂, hshown₂, hwritten₂⟩ :=
    sendBuffer_sending (hshown₁.store hwell₁ hmapped₁ (sliceAsBytes pixels)) h₁ hmapped₁ hne hsurface₁ hsend
  have hsurface₂ := hkeeps₂.stays hsurface₁ trivial trivial
  have hacked₂ := hkeeps₂.acked (hsame₁.keeps.acked hacked)
  have hdamage : c₂.next (.damage wlSurface 0 0 width height) = some c₂ := if_pos hsurface₂
  have hcommit : c₂.next (.commit wlSurface) = some { c₂ with pending := none, current := some wlBuffer } := by
    simp only [Compositor.next, if_pos hsurface₂, hpending₂, if_pos hacked₂]
  refine ⟨_, wlBuffer, _, requests₁ ++ [.createBuffer wlShmPool wlBuffer (index * chain₁.maxBufferSize) width height
    (width * 4) .argb8888, .attach wlSurface wlBuffer, .damage wlSurface 0 0 width height, .commit wlSurface],
    (h₂.say hdamage rfl rfl).say hcommit rfl rfl, (hsame₁.keeps.trans hkeeps₂).trans (Compositor.next_keeps hcommit), rfl, rfl,
    (hwell₁.store _ _).sendBuffer hsend, hmapped₂, ⟨hshown₂.wlShm, hshown₂.pool, hshown₂.buffers⟩, ?_,
    fun renderer hrenderer => ?_⟩
  · change ((connection₂.written ++ [_]) ++ [_]) ++ [_] = _
    rw [hwritten₂, hwritten₁]
    simp only [List.append_assoc, List.cons_append, List.nil_append]
    rfl
  · obtain ⟨screen, hscreen, rfl⟩ := Option.map_eq_some_iff.mp hrenderer
    refine ⟨?_, ?_⟩
    · rw [framesOf_append, hframes₁, List.nil_append, framesOf, hscreen]
      rfl
    · rw [sendBuffer_read hsend]
      exact picture_of_draw hpool hdraw

end

end

end Zlinestatus.Wayland
