import Mathlib.Data.List.Range
import Zlinestatus.Model.SwapChain
import Zlinestatus.Theorems.Frame

/-! The slots of the swapchain: each is free, mapped or with the compositor, whatever the order of the calls. -/

namespace Zlinestatus.Wayland
open Run Wire

/-! ### Ids and requests -/

theorem createId_written (connection : Connection) (written : List Request) :
    { connection with written := written }.createId =
      connection.createId.map fun p => (p.1, { p.2 with written := written }) := by
  unfold Connection.createId
  cases connection.freeIds with
  | cons id freeIds =>
    simp only [Connection.put]
    split <;> rfl
  | nil =>
    simp only [Connection.put]
    split
    · split <;> rfl
    · rfl

theorem foldl_write {α : Type} (request : α → Request) (entries : List α) (connection : Connection) :
    entries.foldl (fun connection entry => connection.write (request entry)) connection =
      { connection with written := connection.written ++ entries.map request } := by
  induction entries generalizing connection with
  | nil => simp
  | cons entry entries ih =>
    rw [List.foldl_cons, ih, List.map_cons]
    simp [Connection.write]

namespace SwapChain

/-! ### What a call does -/

section
variable {chain chain' : SwapChain} {connection connection' : Connection} {pool : ShmPool} {index numBytes : ℕ}
  {slice : Slice} {wlBuffer : Object}

theorem ShmPool_init_eq_ok {wlShm : Object} {fd : UInt32} {size : ℕ} :
    ShmPool.init connection wlShm fd size = .ok (pool, connection') ↔
      ∃ id c, connection.createId = .ok (id, c) ∧ connection' = c.write (.createPool wlShm id fd size) ∧
        pool = { wlShmPool := id, memoryLen := size } := by
  unfold ShmPool.init Connection.create
  constructor
  · intro h
    obtain ⟨a, ha, heq⟩ := map_eq_ok.mp h
    obtain ⟨c, hc, heq'⟩ := map_eq_ok.mp ha
    cases heq'
    cases heq
    exact ⟨_, _, hc, rfl, rfl⟩
  · intro h
    obtain ⟨id, c, hc, rfl, rfl⟩ := h
    rw [hc]
    rfl

theorem takeIndex_eq_ok (h : takeIndex connection chain pool = .ok (index, chain', connection')) :
    (∃ free, chain.freeBuffers = index :: free ∧ chain' = { chain with freeBuffers := free } ∧
      connection' = connection) ∨
    (chain.freeBuffers = [] ∧ index = chain.nextFrameIndex ∧
      chain.nextFrameIndex * chain.maxBufferSize + chain.maxBufferSize < 2 ^ 31 ∧
      chain' = { chain with
        nextFrameIndex := chain.nextFrameIndex + 1
        shmPool := if pool.memoryLen < chain.nextFrameIndex * chain.maxBufferSize + chain.maxBufferSize then
          some { pool with memoryLen := chain.nextFrameIndex * chain.maxBufferSize + chain.maxBufferSize }
          else chain.shmPool } ∧
      connection' = if pool.memoryLen < chain.nextFrameIndex * chain.maxBufferSize + chain.maxBufferSize then
        connection.write (.resizePool pool.wlShmPool (chain.nextFrameIndex * chain.maxBufferSize + chain.maxBufferSize))
        else connection) := by
  unfold takeIndex at h
  split at h
  · next free heq =>
    cases h
    exact Or.inl ⟨_, heq, rfl, rfl⟩
  · next heq =>
    split at h
    · cases h
    · next required hrequired =>
      obtain ⟨hlt, rfl⟩ := castU31_eq_some.mp hrequired
      refine Or.inr ⟨heq, ?_⟩
      split at h
      · next hgrow =>
        rw [ShmPool.resize, if_pos hgrow] at h
        cases h
        exact ⟨rfl, hlt, by rw [if_pos hgrow], by rw [if_pos hgrow]⟩
      · next hroom =>
        cases h
        exact ⟨rfl, hlt, by rw [if_neg hroom], by rw [if_neg hroom]⟩

theorem mapSlot_eq_ok : mapSlot chain index numBytes = .ok (slice, chain') ↔
    index * chain.maxBufferSize < 2 ^ 31 ∧ numBytes ≠ 0 ∧ index * chain.maxBufferSize % pageSize = 0 ∧
      chain.bufferMappings.length < chain.capacity ∧ slice = ⟨index * chain.maxBufferSize, numBytes⟩ ∧
      chain' = { chain with bufferMappings := chain.bufferMappings ++ [(slice, index)] } := by
  unfold mapSlot castU31
  constructor
  · intro h
    split at h
    · cases h
    · next offset hoffset =>
      obtain ⟨hlt, rfl⟩ := castU31_eq_some.mp hoffset
      split at h
      · cases h
      · next hok =>
        cases h
        refine ⟨hlt, fun hzero => hok (.inl hzero), ?_, ?_, rfl, rfl⟩
        · by_contra hpage
          exact hok (.inr (.inl hpage))
        · by_contra hroom
          exact hok (.inr (.inr (not_lt.mp hroom)))
  · intro h
    obtain ⟨hlt, hne, hpage, hroom, rfl, rfl⟩ := h
    rw [if_pos hlt]
    have hok : ¬(numBytes = 0 ∨ index * chain.maxBufferSize % pageSize ≠ 0 ∨
        chain.capacity ≤ chain.bufferMappings.length) := by
      simp [hne, hpage, hroom]
    simp only [if_neg hok]

theorem ceilPowerOfTwo_eq_some {n m : ℕ} : ceilPowerOfTwo n = some m ↔ 2 ^ Nat.clog 2 n < 2 ^ 31 ∧ 2 ^ Nat.clog 2 n = m :=
  castU31_eq_some

theorem recreatePool_eq_ok {fd : UInt32} (h : recreatePool connection chain fd numBytes = .ok (chain', connection')) :
    ∃ id c, 2 ^ Nat.clog 2 numBytes < 2 ^ 31 ∧
      (chain.shmPool.elim (chain.bufferIndices.foldl (fun connection entry =>
        connection.write (.destroyBuffer entry.1)) connection) (ShmPool.deinit
          (chain.bufferIndices.foldl (fun connection entry => connection.write (.destroyBuffer entry.1)) connection))
        ).createId = .ok (id, c) ∧
      connection' = c.write (.createPool chain.wlShm id fd (2 ^ Nat.clog 2 numBytes)) ∧
      chain' = { wlShm := chain.wlShm, shmPool := some { wlShmPool := id, memoryLen := 2 ^ Nat.clog 2 numBytes }
                 maxBufferSize := 2 ^ Nat.clog 2 numBytes, capacity := chain.capacity } := by
  simp only [recreatePool] at h
  split at h
  · cases h
  · next size hsize =>
    obtain ⟨hlt, rfl⟩ := ceilPowerOfTwo_eq_some.mp hsize
    obtain ⟨⟨pool, c'⟩, hinit, heq⟩ := map_eq_ok.mp h
    obtain ⟨id, c, hc, rfl, rfl⟩ := ShmPool_init_eq_ok.mp hinit
    cases heq
    exact ⟨id, c, hlt, hc, rfl, rfl⟩

/-- A call of `mapBuffer` that succeeds: the pool first, where it is too small for the frame, then the slot. -/
theorem mapBuffer_eq_ok {host : Option UInt32} :
    mapBuffer host connection chain numBytes = .ok (slice, chain', connection') ↔
      ∃ fd chain₁ connection₁ pool index chain₂, host = some fd ∧
        ensureSize connection chain fd numBytes = .ok (chain₁, connection₁) ∧ chain₁.shmPool = some pool ∧
        chain₁.nextFrameIndex + 1 < 2 ^ 31 ∧
        takeIndex connection₁ { chain₁ with capacity := max chain₁.capacity (chain₁.nextFrameIndex + 1) } pool =
          .ok (index, chain₂, connection') ∧
        mapSlot chain₂ index numBytes = .ok (slice, chain') := by
  unfold mapBuffer
  constructor
  · intro h
    split at h
    · cases h
    · next fd =>
      obtain ⟨⟨chain₁, connection₁⟩, hgrow, h⟩ := bind_eq_ok.mp h
      simp only at h
      split at h
      · next pool room hpool hroom =>
        obtain ⟨hlt, rfl⟩ := castU31_eq_some.mp hroom
        obtain ⟨⟨index, chain₂, connection₂⟩, htake, h⟩ := bind_eq_ok.mp h
        obtain ⟨⟨slice', chain₃⟩, hslot, h⟩ := bind_eq_ok.mp h
        cases h
        exact ⟨fd, chain₁, connection₁, pool, index, chain₂, rfl, hgrow, hpool, hlt, htake, hslot⟩
      · cases h
  · intro h
    obtain ⟨fd, ⟨wlShm, shmPool, _⟩, connection₁, pool, index, chain₂, rfl, hgrow, hpool, hlt, htake, hslot⟩ := h
    change shmPool = some pool at hpool
    subst hpool
    refine bind_eq_ok.mpr ⟨_, hgrow, ?_⟩
    simp only [castU31_eq_some.mpr ⟨hlt, rfl⟩]
    exact bind_eq_ok.mpr ⟨_, htake, bind_eq_ok.mpr ⟨_, hslot, rfl⟩⟩

theorem freeBuffer_eq_ok : freeBuffer chain index = .ok chain' ↔
    chain.freeBuffers.length < chain.capacity ∧ chain' = { chain with freeBuffers := index :: chain.freeBuffers } := by
  unfold freeBuffer
  split
  · next h => simp [h, eq_comm]
  · next h => simp [h]

theorem putIndex_eq_ok : putIndex chain wlBuffer index = .ok chain' ↔
    chain.bufferIndices.length < chain.capacity ∧ ArrayMap.get chain.bufferIndices wlBuffer = none ∧
      chain' = { chain with bufferIndices := chain.bufferIndices ++ [(wlBuffer, index)] } := by
  unfold putIndex
  split
  · next h => simp [h, eq_comm]
  · next h =>
    constructor
    · intro h
      cases h
    · intro h'
      exact absurd ⟨h'.1, h'.2.1⟩ h

end

/-! ### The slots -/

/-- How many slots are in use: mapped, or in a buffer that the compositor has not given back. -/
def busy (chain : SwapChain) : ℕ := chain.bufferMappings.length + chain.bufferIndices.length

/-- The slots of the pool: each of those handed out so far is free, mapped or in a buffer, and in one place only. The
    pool has room for them. -/
structure WellFormed (chain : SwapChain) : Prop where
  slots : (chain.freeBuffers ++ (chain.bufferMappings.map (·.2) ++ chain.bufferIndices.map (·.2))).Perm
    (List.range chain.nextFrameIndex)
  keys : (chain.bufferIndices.map (·.1)).Nodup
  room : chain.nextFrameIndex ≤ chain.capacity
  slices : ∀ entry ∈ chain.bufferMappings, entry.1.offset = entry.2 * chain.maxBufferSize ∧
    entry.1.length ≤ chain.maxBufferSize
  pool : ∀ pool, chain.shmPool = some pool → pool.memoryLen = max 1 chain.nextFrameIndex * chain.maxBufferSize
  size : chain.nextFrameIndex * chain.maxBufferSize < 2 ^ 31
  pages : chain.nextFrameIndex ≤ 1 ∨ pageSize ∣ chain.maxBufferSize
  empty : chain.shmPool = none ↔ chain.maxBufferSize = 0

section
variable {chain chain' : SwapChain} {connection connection' : Connection} {pool : ShmPool} {index numBytes : ℕ}
  {slice : Slice} {wlBuffer : Object}

theorem WellFormed.initial (wlShm : Object) : WellFormed { wlShm := wlShm } where
  slots := .nil
  keys := List.nodup_nil
  room := le_refl _
  slices := fun _ h => by cases h
  pool := fun _ h => by cases h
  size := Nat.two_pow_pos 31
  pages := Or.inl (Nat.zero_le _)
  empty := by simp

theorem WellFormed.length (h : WellFormed chain) : chain.freeBuffers.length + chain.busy = chain.nextFrameIndex := by
  have hlen := h.slots.length_eq
  rw [List.length_append, List.length_append, List.length_map, List.length_map, List.length_range] at hlen
  exact hlen

theorem WellFormed.busy_of_full (h : WellFormed chain) (hfree : chain.freeBuffers = []) :
    chain.busy = chain.nextFrameIndex := by
  rw [← h.length, hfree, List.length_nil, Nat.zero_add]

/-- A slot is in one place. -/
theorem WellFormed.nodup (h : WellFormed chain) :
    (chain.freeBuffers ++ (chain.bufferMappings.map (·.2) ++ chain.bufferIndices.map (·.2))).Nodup :=
  h.slots.nodup_iff.mpr List.nodup_range

/-- A slot in use is one of those that were handed out. -/
theorem WellFormed.lt_of_mem (h : WellFormed chain)
    (hmem : index ∈ chain.freeBuffers ++ (chain.bufferMappings.map (·.2) ++ chain.bufferIndices.map (·.2))) :
    index < chain.nextFrameIndex := List.mem_range.mp (h.slots.mem_iff.mp hmem)

/-- The memory of a slot that was handed out lies in the pool. -/
theorem WellFormed.slot_le (h : WellFormed chain) (hpool : chain.shmPool = some pool)
    (hlt : index < chain.nextFrameIndex) : (index + 1) * chain.maxBufferSize ≤ pool.memoryLen := by
  rw [h.pool pool hpool]
  exact Nat.mul_le_mul_right _ (Nat.le_trans hlt (Nat.le_max_right _ _))

theorem WellFormed.takeIndex (h : WellFormed chain) (hpool : chain.shmPool = some pool)
    (hcapacity : chain.nextFrameIndex + 1 ≤ chain.capacity)
    (htake : takeIndex connection chain pool = .ok (index, chain', connection'))
    (hpage : index * chain'.maxBufferSize % pageSize = 0) (hnum : numBytes ≤ chain.maxBufferSize) :
    WellFormed { chain' with
      bufferMappings := chain'.bufferMappings ++ [(⟨index * chain'.maxBufferSize, numBytes⟩, index)] } := by
  have hslices : ∀ entry ∈ chain.bufferMappings ++ [(⟨index * chain.maxBufferSize, numBytes⟩, index)],
      entry.1.offset = entry.2 * chain.maxBufferSize ∧ entry.1.length ≤ chain.maxBufferSize := by
    intro entry hentry
    rcases List.mem_append.mp hentry with hold | hnew
    · exact h.slices entry hold
    · cases List.mem_singleton.mp hnew
      exact ⟨rfl, hnum⟩
  rcases takeIndex_eq_ok htake with ⟨free, hfree, rfl, -⟩ | ⟨hfree, rfl, hsize, rfl, -⟩
  · refine { h with slots := ?_, slices := hslices }
    have hslots := h.slots
    rw [hfree] at hslots
    refine List.Perm.trans ?_ hslots
    rw [List.map_append, List.map_singleton]
    simp only [List.append_assoc, List.singleton_append]
    rw [← List.append_assoc, List.cons_append, ← List.append_assoc]
    exact List.perm_middle
  · have hslots := h.slots
    rw [hfree, List.nil_append] at hslots
    have hmul : chain.nextFrameIndex * chain.maxBufferSize + chain.maxBufferSize =
        (chain.nextFrameIndex + 1) * chain.maxBufferSize := (Nat.succ_mul _ _).symm
    refine ⟨?_, h.keys, hcapacity, hslices, ?_, ?_, ?_, ?_⟩
    · simp only [hfree, List.nil_append, List.map_append, List.map_singleton, List.append_assoc,
        List.singleton_append, List.range_succ]
      exact List.perm_middle.trans ((hslots.cons _).trans (List.perm_append_singleton _ _).symm)
    · intro pool' hpool'
      have hlen := h.pool pool hpool
      simp only at hpool'
      split at hpool'
      · cases hpool'
        rw [hmul, Nat.max_eq_right (Nat.succ_le_succ (Nat.zero_le _))]
      · next hroom =>
        rw [hpool] at hpool'
        cases hpool'
        rw [hmul] at hroom
        refine le_antisymm ?_ (not_lt.mp (Nat.max_eq_right (Nat.succ_le_succ (Nat.zero_le _)) ▸ hroom))
        rw [hlen]
        exact Nat.mul_le_mul_right _ (max_le_max (le_refl 1) (Nat.le_succ _))
    · rw [← hmul]
      exact hsize
    · rcases Nat.eq_zero_or_pos chain.nextFrameIndex with hzero | hpos
      · left
        rw [hzero]
      · right
        rcases h.pages with hone | hdvd
        · have heq : chain.nextFrameIndex = 1 := le_antisymm hone hpos
          rw [heq, Nat.one_mul] at hpage
          exact Nat.dvd_of_mod_eq_zero hpage
        · exact hdvd
    · simp only
      rw [← h.empty, hpool]
      split <;> simp

theorem wellFormed_recreatePool {fd : UInt32}
    (hok : recreatePool connection chain fd numBytes = .ok (chain', connection')) :
    WellFormed chain' ∧ numBytes ≤ chain'.maxBufferSize := by
  obtain ⟨id, c, -, -, -, rfl⟩ := recreatePool_eq_ok hok
  refine ⟨⟨.nil, List.nodup_nil, Nat.zero_le _, fun _ h => (by cases h), ?_, ?_, Or.inl (Nat.zero_le _), ?_⟩,
    Nat.le_pow_clog Nat.one_lt_two _⟩
  · intro pool hpool
    cases hpool
    exact (Nat.one_mul _).symm
  · rw [Nat.zero_mul]
    exact Nat.two_pow_pos 31
  · simp

theorem WellFormed.ensureSize (h : WellFormed chain) {fd : UInt32}
    (hok : SwapChain.ensureSize connection chain fd numBytes = .ok (chain', connection')) :
    WellFormed chain' ∧ numBytes ≤ chain'.maxBufferSize := by
  unfold SwapChain.ensureSize at hok
  split at hok
  · exact wellFormed_recreatePool hok
  · next hge =>
    cases hok
    exact ⟨h, not_lt.mp hge⟩

theorem WellFormed.capacity (h : WellFormed chain) {n : ℕ} (hle : chain.capacity ≤ n) :
    WellFormed { chain with capacity := n } := { h with room := h.room.trans hle }

/-- `mapBuffer` keeps the slots apart, also where it creates the pool anew, and maps a slot of its own. -/
theorem WellFormed.mapBuffer (h : WellFormed chain) {host : Option UInt32}
    (hok : SwapChain.mapBuffer host connection chain numBytes = .ok (slice, chain', connection')) : WellFormed chain' := by
  obtain ⟨fd, chain₁, connection₁, pool, index, chain₂, rfl, hgrow, hpool, -, htake, hslot⟩ := mapBuffer_eq_ok.mp hok
  obtain ⟨h₁, hnum⟩ := h.ensureSize hgrow
  obtain ⟨-, -, hpage, -, rfl, rfl⟩ := mapSlot_eq_ok.mp hslot
  exact (h₁.capacity (le_max_left _ _)).takeIndex hpool (le_max_right _ _) htake hpage hnum

theorem WellFormed.swapMapping (h : WellFormed chain) (hget : ArrayMap.get chain.bufferMappings slice = some index) :
    (index :: (chain.freeBuffers ++
      ((ArrayMap.swapRemove chain.bufferMappings slice).map (·.2) ++ chain.bufferIndices.map (·.2)))).Perm
        (List.range chain.nextFrameIndex) := by
  have hperm := ((ArrayMap.perm_swapRemove hget).map (·.2)).append_right (chain.bufferIndices.map (·.2))
  exact (List.perm_middle.symm.trans (hperm.symm.append_left _)).trans h.slots

theorem WellFormed.slices_swapRemove (h : WellFormed chain)
    (hget : ArrayMap.get chain.bufferMappings slice = some index) :
    ∀ entry ∈ ArrayMap.swapRemove chain.bufferMappings slice, entry.1.offset = entry.2 * chain.maxBufferSize ∧
      entry.1.length ≤ chain.maxBufferSize := fun entry hentry =>
  h.slices entry ((ArrayMap.perm_swapRemove hget).mem_iff.mpr (List.mem_cons_of_mem _ hentry))

theorem WellFormed.unmapBuffer (h : WellFormed chain)
    (hok : SwapChain.unmapBuffer chain slice = .ok chain') : WellFormed chain' := by
  unfold SwapChain.unmapBuffer at hok
  split at hok
  · next index pool hget hpool =>
    obtain ⟨-, rfl⟩ := freeBuffer_eq_ok.mp hok
    exact { h with slots := h.swapMapping hget, slices := h.slices_swapRemove hget }
  · cases hok

theorem sendBuffer_eq_ok {width height stride : ℕ} {format : Format} :
    sendBuffer connection chain slice width height stride format = .ok (wlBuffer, chain', connection') ↔
      ∃ index pool c, ArrayMap.get chain.bufferMappings slice = some index ∧ chain.shmPool = some pool ∧
        index * chain.maxBufferSize + stride * height < 2 ^ 31 ∧
        index * chain.maxBufferSize + stride * height ≤ pool.memoryLen ∧
        connection.createId = .ok (wlBuffer, c) ∧ (c.objects wlBuffer).isSome ∧
        connection' = { c.write (.createBuffer pool.wlShmPool wlBuffer (index * chain.maxBufferSize) width height
          stride format) with objects := Function.update c.objects wlBuffer (some (some .buffer)) } ∧
        putIndex { chain with bufferMappings := ArrayMap.swapRemove chain.bufferMappings slice } wlBuffer index =
          .ok chain' := by
  unfold sendBuffer ShmPool.createBuffer Connection.create Connection.setEventListener
  constructor
  · intro h
    split at h
    · next index pool hget hpool =>
      split at h
      · cases h
      · next offset hoffset =>
        obtain ⟨-, rfl⟩ := castU31_eq_some.mp hoffset
        obtain ⟨⟨b, c₁⟩, hcreate, h⟩ := bind_eq_ok.mp h
        obtain ⟨c₂, hlistener, h⟩ := bind_eq_ok.mp h
        obtain ⟨chain₂, hput, h⟩ := bind_eq_ok.mp h
        cases h
        split at hcreate
        · cases hcreate
        · next size hsize =>
          obtain ⟨hlt, rfl⟩ := castU31_eq_some.mp hsize
          split at hcreate
          · next hle =>
            obtain ⟨⟨b', c⟩, hid, heq⟩ := map_eq_ok.mp hcreate
            cases heq
            simp only at hlistener
            split at hlistener
            · next hsome =>
              cases hlistener
              exact ⟨index, pool, c, hget, hpool, hlt, hle, hid, hsome, rfl, hput⟩
            · cases hlistener
          · cases hcreate
    · cases h
  · intro h
    obtain ⟨wlShm, shmPool, maxBufferSize⟩ := chain
    obtain ⟨index, pool, c, hget, hpool, hlt, hle, hid, hsome, rfl, hput⟩ := h
    change shmPool = some pool at hpool
    subst hpool
    have hoffset : castU31 (index * maxBufferSize) = some (index * maxBufferSize) :=
      castU31_eq_some.mpr ⟨lt_of_le_of_lt (Nat.le_add_right _ _) hlt, rfl⟩
    simp only [hget, hoffset, castU31_eq_some.mpr ⟨hlt, rfl⟩, if_pos hle, hid]
    refine bind_eq_ok.mpr ⟨_, rfl, bind_eq_ok.mpr ⟨_, if_pos hsome, bind_eq_ok.mpr ⟨_, hput, rfl⟩⟩⟩

/-- A slice is sent, and nothing else was mapped. -/
theorem sendBuffer_only {width height stride : ℕ} {format : Format}
    (hok : sendBuffer connection chain slice width height stride format = .ok (wlBuffer, chain', connection'))
    (hmapped : chain.bufferMappings = [(slice, index)]) :
    ∃ pool c, chain.shmPool = some pool ∧ index * chain.maxBufferSize + stride * height ≤ pool.memoryLen ∧
      connection.createId = .ok (wlBuffer, c) ∧
      connection' = { c.write (.createBuffer pool.wlShmPool wlBuffer (index * chain.maxBufferSize) width height
        stride format) with objects := Function.update c.objects wlBuffer (some (some .buffer)) } ∧
      putIndex { chain with bufferMappings := [] } wlBuffer index = .ok chain' := by
  obtain ⟨index', pool, c, hget, hpool, -, hfits, hid, -, hconnection, hput⟩ := sendBuffer_eq_ok.mp hok
  rw [hmapped] at hget hput
  obtain rfl : index = index' := Option.some.inj ((ArrayMap.get_singleton slice index).symm.trans hget)
  rw [ArrayMap.swapRemove_singleton] at hput
  exact ⟨pool, c, hpool, hfits, hid, hconnection, hput⟩

theorem WellFormed.sendBuffer (h : WellFormed chain) {width height stride : ℕ} {format : Format}
    (hok : SwapChain.sendBuffer connection chain slice width height stride format = .ok (wlBuffer, chain', connection')) :
    WellFormed chain' := by
  obtain ⟨index, pool, c, hget, hpool, -, -, -, -, -, hput⟩ := sendBuffer_eq_ok.mp hok
  obtain ⟨-, hnew, rfl⟩ := putIndex_eq_ok.mp hput
  refine { h with slots := ?_, keys := ?_, slices := h.slices_swapRemove hget }
  · simp only [List.map_append, List.map_singleton]
    refine List.Perm.trans ?_ (h.swapMapping hget)
    rw [← List.append_assoc, ← List.append_assoc]
    refine (List.perm_append_singleton _ _).trans ?_
    rw [List.append_assoc]
  · rw [List.map_append, List.map_singleton, List.nodup_append_comm, List.singleton_append, List.nodup_cons]
    exact ⟨ArrayMap.get_eq_none.mp hnew, h.keys⟩

theorem WellFormed.onWlBufferEvent (h : WellFormed chain)
    (hok : SwapChain.onWlBufferEvent connection chain wlBuffer = .ok (chain', connection')) : WellFormed chain' := by
  simp only [SwapChain.onWlBufferEvent] at hok
  split at hok
  · cases hok
    exact h
  · next index hget =>
    obtain ⟨chain₂, hfree, heq⟩ := map_eq_ok.mp hok
    cases heq
    obtain ⟨-, rfl⟩ := freeBuffer_eq_ok.mp hfree
    have hperm := ArrayMap.perm_swapRemove hget
    refine { h with slots := ?_, keys := ?_ }
    · refine List.Perm.trans ?_ h.slots
      have hmap := hperm.map (·.2)
      rw [List.map_cons] at hmap
      simp only
      rw [List.cons_append]
      refine List.perm_middle.symm.trans (List.Perm.append_left _ ?_)
      exact List.perm_middle.symm.trans (hmap.symm.append_left _)
    · have hmap := hperm.map (·.1)
      exact (List.nodup_cons.mp (hmap.nodup_iff.mp h.keys)).2

/-! ### When a call succeeds -/

theorem WellFormed.next_lt (h : WellFormed chain) (hne : chain.maxBufferSize ≠ 0) :
    chain.nextFrameIndex + 1 < 2 ^ 31 := by
  rcases h.pages with hone | hdvd
  · exact lt_of_le_of_lt (Nat.succ_le_succ hone) (by decide)
  · have hpage : pageSize ≤ chain.maxBufferSize := Nat.le_of_dvd (Nat.pos_of_ne_zero hne) hdvd
    have hmul := lt_of_le_of_lt (Nat.mul_le_mul_left chain.nextFrameIndex hpage) h.size
    unfold pageSize at hmul
    omega

/-- A slot that is free was mapped before, at the offset of a page. -/
theorem WellFormed.page_of_lt (h : WellFormed chain) (hlt : index < chain.nextFrameIndex) :
    index * chain.maxBufferSize % pageSize = 0 := by
  rcases h.pages with hone | hdvd
  · have hzero : index = 0 := Nat.lt_one_iff.mp (lt_of_lt_of_le hlt hone)
    rw [hzero, Nat.zero_mul]
    rfl
  · exact Nat.mod_eq_zero_of_dvd (hdvd.mul_left index)

theorem page_next_iff (h : WellFormed chain) : chain.nextFrameIndex * chain.maxBufferSize % pageSize = 0 ↔
    chain.nextFrameIndex = 0 ∨ pageSize ∣ chain.maxBufferSize := by
  constructor
  · intro hpage
    rcases h.pages with hone | hdvd
    · rcases Nat.le_one_iff_eq_zero_or_eq_one.mp hone with hzero | hone
      · exact Or.inl hzero
      · rw [hone, Nat.one_mul] at hpage
        exact Or.inr (Nat.dvd_of_mod_eq_zero hpage)
    · exact Or.inr hdvd
  · intro hor
    rcases hor with hzero | hdvd
    · rw [hzero, Nat.zero_mul]
      rfl
    · exact Nat.mod_eq_zero_of_dvd (hdvd.mul_left _)

theorem takeIndex_nil (connection : Connection) (pool : ShmPool) (hfree : chain.freeBuffers = [])
    (hsize : chain.nextFrameIndex * chain.maxBufferSize + chain.maxBufferSize < 2 ^ 31) :
    ∃ chain' connection', SwapChain.takeIndex connection chain pool = .ok (chain.nextFrameIndex, chain', connection') := by
  unfold SwapChain.takeIndex
  simp only [hfree, castU31_eq_some.mpr ⟨hsize, rfl⟩]
  split
  · next hgrow =>
    rw [ShmPool.resize, if_pos hgrow]
    exact ⟨_, _, rfl⟩
  · exact ⟨_, _, rfl⟩

/-- With a pool that is big enough, a frame gets a slot where one is free, or where the next one still has an offset of
    31 bits that is the offset of a page. -/
theorem takeSlot_isOk_iff (connection : Connection) (pool : ShmPool) (h : WellFormed chain) (hnum : numBytes ≠ 0)
    (hcapacity : chain.nextFrameIndex + 1 ≤ chain.capacity) :
    (∃ index chain₂ connection' slice chain', SwapChain.takeIndex connection chain pool = .ok (index, chain₂, connection') ∧
      mapSlot chain₂ index numBytes = .ok (slice, chain')) ↔
    chain.freeBuffers ≠ [] ∨ (chain.nextFrameIndex + 1) * chain.maxBufferSize < 2 ^ 31 ∧
      (chain.nextFrameIndex = 0 ∨ pageSize ∣ chain.maxBufferSize) := by
  have hmul : chain.nextFrameIndex * chain.maxBufferSize + chain.maxBufferSize =
      (chain.nextFrameIndex + 1) * chain.maxBufferSize := (Nat.succ_mul _ _).symm
  have hlength := h.length
  constructor
  · intro hok
    obtain ⟨index, chain₂, connection', slice, chain', htake, hslot⟩ := hok
    obtain ⟨-, -, hpage, -, -, -⟩ := mapSlot_eq_ok.mp hslot
    rcases takeIndex_eq_ok htake with ⟨free, hfree, -, -⟩ | ⟨hfree, rfl, hsize, rfl, -⟩
    · left
      rw [hfree]
      exact List.cons_ne_nil _ _
    · right
      rw [← hmul]
      exact ⟨hsize, (page_next_iff h).mp hpage⟩
  · intro hor
    cases hfree : chain.freeBuffers with
    | cons index free =>
      have hlt : index < chain.nextFrameIndex := h.lt_of_mem (List.mem_append_left _ (by simp [hfree]))
      have hoffset : index * chain.maxBufferSize < 2 ^ 31 :=
        lt_of_le_of_lt (Nat.mul_le_mul_right _ hlt.le) h.size
      have hroom : chain.bufferMappings.length < chain.capacity := by
        rw [hfree, List.length_cons, busy] at hlength
        omega
      refine ⟨index, { chain with freeBuffers := free }, connection, _, _, ?_,
        mapSlot_eq_ok.mpr ⟨hoffset, hnum, h.page_of_lt hlt, hroom, rfl, rfl⟩⟩
      simp only [SwapChain.takeIndex, hfree]
    | nil =>
      obtain ⟨hsize, hpage⟩ := hor.resolve_left (not_not.mpr hfree)
      rw [← hmul] at hsize
      obtain ⟨chain₂, connection', htake⟩ := takeIndex_nil connection pool hfree hsize
      rcases takeIndex_eq_ok htake with ⟨_, hcons, -, -⟩ | ⟨-, -, -, heq, -⟩
      · rw [hfree] at hcons
        cases hcons
      · refine ⟨_, chain₂, connection', _, _, htake, mapSlot_eq_ok.mpr ⟨?_, hnum, ?_, ?_, rfl, rfl⟩⟩
        · rw [heq]
          exact lt_of_le_of_lt (Nat.le_add_right _ _) hsize
        · rw [heq]
          exact (page_next_iff h).mpr hpage
        · rw [heq]
          rw [busy] at hlength
          simp only
          omega

theorem recreatePool_isOk_iff (chain : SwapChain) (fd : UInt32) :
    (∃ chain' connection', recreatePool connection chain fd numBytes = .ok (chain', connection')) ↔
      numBytes ≤ 2 ^ 30 ∧ ∃ id connection', connection.createId = .ok (id, connection') := by
  have hsize : 2 ^ Nat.clog 2 numBytes < 2 ^ 31 ↔ numBytes ≤ 2 ^ 30 := by
    rw [Nat.pow_lt_pow_iff_right Nat.one_lt_two, Nat.lt_succ_iff, Nat.clog_le_iff_le_pow Nat.one_lt_two]
  have hwritten : ∃ written, chain.shmPool.elim (chain.bufferIndices.foldl (fun connection entry =>
      connection.write (.destroyBuffer entry.1)) connection) (ShmPool.deinit
        (chain.bufferIndices.foldl (fun connection entry => connection.write (.destroyBuffer entry.1)) connection)) =
      { connection with written := written } := by
    rw [foldl_write (fun entry : Object × ℕ => .destroyBuffer entry.1)]
    cases chain.shmPool <;> exact ⟨_, rfl⟩
  obtain ⟨written, hwritten⟩ := hwritten
  constructor
  · intro h
    obtain ⟨chain', connection', h⟩ := h
    obtain ⟨id, c, hlt, hcreate, -, -⟩ := recreatePool_eq_ok h
    rw [hwritten, createId_written] at hcreate
    obtain ⟨⟨id', c'⟩, hcreate', -⟩ := map_eq_ok.mp hcreate
    exact ⟨hsize.mp hlt, id', c', hcreate'⟩
  · intro h
    obtain ⟨hle, id, c, hcreate⟩ := h
    unfold recreatePool ShmPool.init Connection.create
    simp only [hwritten, ceilPowerOfTwo_eq_some.mpr ⟨hsize.mpr hle, rfl⟩, createId_written, hcreate]
    exact ⟨_, _, rfl⟩

/-- Exactly when `mapBuffer` succeeds: every call to the system does, the frame is not empty, and the slot, or the new
    pool, can be had. -/
theorem mapBuffer_isOk_iff (h : WellFormed chain) (host : Option UInt32) :
    (∃ result, mapBuffer host connection chain numBytes = .ok result) ↔ host ≠ none ∧ numBytes ≠ 0 ∧
      (chain.maxBufferSize < numBytes →
        numBytes ≤ 2 ^ 30 ∧ ∃ id connection', connection.createId = .ok (id, connection')) ∧
      (numBytes ≤ chain.maxBufferSize → chain.freeBuffers ≠ [] ∨
        (chain.nextFrameIndex + 1) * chain.maxBufferSize < 2 ^ 31 ∧
          (chain.nextFrameIndex = 0 ∨ pageSize ∣ chain.maxBufferSize)) := by
  constructor
  · intro hok
    obtain ⟨⟨slice, chain', connection'⟩, hok⟩ := hok
    obtain ⟨fd, chain₁, connection₁, pool, index, chain₂, rfl, hgrow, -, -, htake, hslot⟩ := mapBuffer_eq_ok.mp hok
    obtain ⟨-, hnum, -, -, -, -⟩ := mapSlot_eq_ok.mp hslot
    refine ⟨Option.some_ne_none _, hnum, fun hlt => ?_, fun hle => ?_⟩
    · rw [ensureSize, if_pos hlt] at hgrow
      exact (recreatePool_isOk_iff chain fd).mp ⟨_, _, hgrow⟩
    · rw [ensureSize, if_neg (not_lt.mpr hle)] at hgrow
      cases hgrow
      exact (takeSlot_isOk_iff _ _ (h.capacity (le_max_left _ _)) hnum (le_max_right _ _)).mp ⟨_, _, _, _, _, htake, hslot⟩
  · intro hcond
    obtain ⟨hhost, hnum, hgrow, hslot⟩ := hcond
    obtain ⟨fd, rfl⟩ := Option.ne_none_iff_exists'.mp hhost
    -- The pool is recreated, or big enough; either way there is one with a slot for the frame.
    have hensured : ∃ chain₁ connection₁, ensureSize connection chain fd numBytes = .ok (chain₁, connection₁) ∧
        (chain₁.freeBuffers ≠ [] ∨ (chain₁.nextFrameIndex + 1) * chain₁.maxBufferSize < 2 ^ 31 ∧
          (chain₁.nextFrameIndex = 0 ∨ pageSize ∣ chain₁.maxBufferSize)) := by
      rcases Nat.lt_or_ge chain.maxBufferSize numBytes with hlt | hle
      · obtain ⟨chain₁, connection₁, hok⟩ := (recreatePool_isOk_iff chain fd).mpr (hgrow hlt)
        refine ⟨chain₁, connection₁, by rw [ensureSize, if_pos hlt, hok], Or.inr ?_⟩
        obtain ⟨id, c, hsize, -, -, rfl⟩ := recreatePool_eq_ok hok
        exact ⟨by rw [Nat.zero_add, Nat.one_mul]; exact hsize, Or.inl rfl⟩
      · exact ⟨chain, connection, by rw [ensureSize, if_neg (not_lt.mpr hle)], hslot hle⟩
    obtain ⟨chain₁, connection₁, hok, hslot₁⟩ := hensured
    obtain ⟨h₁, hle⟩ := h.ensureSize hok
    have hne : chain₁.maxBufferSize ≠ 0 := fun hzero => hnum (Nat.le_zero.mp (hzero ▸ hle))
    obtain ⟨pool, hpool⟩ := Option.ne_none_iff_exists'.mp (mt h₁.empty.mp hne)
    obtain ⟨index, chain₂, connection', slice, chain', htake, hmap⟩ :=
      (takeSlot_isOk_iff connection₁ pool (h₁.capacity (le_max_left _ (chain₁.nextFrameIndex + 1)))
        hnum (le_max_right _ _)).mpr hslot₁
    exact ⟨_, mapBuffer_eq_ok.mpr ⟨fd, chain₁, connection₁, pool, index, chain₂, rfl, hok, hpool, h₁.next_lt hne, htake,
      hmap⟩⟩

/-- The event of a buffer changes nothing but where its slot is. -/
theorem onWlBufferEvent_eq (h : SwapChain.onWlBufferEvent connection chain wlBuffer = .ok (chain', connection')) :
    connection' = connection.write (.destroyBuffer wlBuffer) ∧ ∃ bufferIndices freeBuffers,
      chain' = { chain with bufferIndices := bufferIndices, freeBuffers := freeBuffers } := by
  simp only [SwapChain.onWlBufferEvent] at h
  split at h
  · cases h
    exact ⟨rfl, _, _, rfl⟩
  · obtain ⟨chain₁, hfree, heq⟩ := map_eq_ok.mp h
    cases heq
    obtain ⟨-, rfl⟩ := freeBuffer_eq_ok.mp hfree
    exact ⟨rfl, _, _, rfl⟩

/-- The event of a buffer never fails: the slot it frees has its place. -/
theorem onWlBufferEvent_isOk (h : WellFormed chain) (connection : Connection) (wlBuffer : Object) :
    ∃ result, SwapChain.onWlBufferEvent connection chain wlBuffer = .ok result := by
  simp only [SwapChain.onWlBufferEvent]
  split
  · exact ⟨_, rfl⟩
  · next index hget =>
    have hlength := h.length
    have hroom := h.room
    have hswap := (ArrayMap.perm_swapRemove hget).length_eq
    rw [List.length_cons] at hswap
    rw [busy] at hlength
    rw [(freeBuffer_eq_ok).mpr ⟨by simp only; omega, rfl⟩]
    exact ⟨_, rfl⟩

end

/-! ### Histories -/

/-- One call on the swapchain that succeeds, whatever else the connection did before it, or a store to its memory. -/
inductive Step (chain : SwapChain) : SwapChain → Prop
  | mapBuffer {host : Option UInt32} {connection connection' : Connection} {numBytes : ℕ} {slice : Slice}
    {chain' : SwapChain} (h : mapBuffer host connection chain numBytes = .ok (slice, chain', connection')) :
    Step chain chain'
  | unmapBuffer {slice : Slice} {chain' : SwapChain} (h : unmapBuffer chain slice = .ok chain') : Step chain chain'
  | sendBuffer {connection connection' : Connection} {slice : Slice} {width height stride : ℕ} {format : Format}
    {wlBuffer : Object} {chain' : SwapChain}
    (h : sendBuffer connection chain slice width height stride format = .ok (wlBuffer, chain', connection')) :
    Step chain chain'
  | release {connection connection' : Connection} {wlBuffer : Object} {chain' : SwapChain}
    (h : onWlBufferEvent connection chain wlBuffer = .ok (chain', connection')) : Step chain chain'
  | store (slice : Slice) (bytes : Bytes) : Step chain (chain.store slice bytes)

/-- The states of a swapchain from its creation on, the latest first. -/
inductive History (wlShm : Object) : List SwapChain → Prop
  | start : History wlShm [{ wlShm := wlShm }]
  | step {chain chain' : SwapChain} {earlier : List SwapChain} (h : History wlShm (chain :: earlier))
    (hstep : Step chain chain') : History wlShm (chain' :: chain :: earlier)

section
variable {chain chain' : SwapChain} {earlier : List SwapChain} {wlShm : Object}

theorem WellFormed.store (h : WellFormed chain) (slice : Slice) (bytes : Bytes) :
    WellFormed (chain.store slice bytes) := by
  refine { h with pool := fun pool hpool => ?_, empty := ?_ }
  · obtain ⟨pool₀, hpool₀, rfl⟩ := Option.map_eq_some_iff.mp hpool
    exact h.pool pool₀ hpool₀
  · exact Option.map_eq_none_iff.trans h.empty

theorem WellFormed.step (h : WellFormed chain) (hstep : Step chain chain') : WellFormed chain' := by
  cases hstep with
  | mapBuffer hok => exact h.mapBuffer hok
  | unmapBuffer hok => exact h.unmapBuffer hok
  | sendBuffer hok => exact h.sendBuffer hok
  | release hok => exact h.onWlBufferEvent hok
  | store slice bytes => exact h.store slice bytes

/-- In whatever order frames are mapped, sent, unmapped and released, of whatever sizes, no slot is lost and none is in
    two places. -/
theorem wellFormed_of_history (h : History wlShm (chain :: earlier)) : WellFormed chain := by
  generalize heq : chain :: earlier = history at h
  induction h generalizing chain earlier with
  | start =>
    cases heq
    exact WellFormed.initial wlShm
  | step h hstep ih =>
    cases heq
    exact (ih rfl).step hstep

/-- A step keeps the pool and does not need more slots than it had or has now, or it has a bigger pool with one slot. -/
theorem step_busy (h : WellFormed chain) (hstep : Step chain chain') :
    (chain'.maxBufferSize = chain.maxBufferSize ∧ chain.nextFrameIndex ≤ chain'.nextFrameIndex ∧
      (chain'.nextFrameIndex = chain.nextFrameIndex ∨ chain'.busy = chain'.nextFrameIndex)) ∨
    (chain.maxBufferSize < chain'.maxBufferSize ∧ chain'.busy = chain'.nextFrameIndex ∧ 0 < chain'.nextFrameIndex) := by
  cases hstep with
  | @mapBuffer host connection connection' numBytes slice chain' hok =>
    have h' := h.mapBuffer hok
    obtain ⟨fd, chain₁, connection₁, pool, index, chain₂, rfl, hgrow, -, -, htake, hslot⟩ := mapBuffer_eq_ok.mp hok
    obtain ⟨-, -, -, -, -, rfl⟩ := mapSlot_eq_ok.mp hslot
    obtain ⟨-, hle⟩ := h.ensureSize hgrow
    unfold ensureSize at hgrow
    split at hgrow
    · next hlt =>
      right
      obtain ⟨id, c, -, -, -, rfl⟩ := recreatePool_eq_ok hgrow
      rcases takeIndex_eq_ok htake with ⟨free, hfree, -, -⟩ | ⟨-, -, -, rfl, -⟩
      · cases hfree
      · exact ⟨lt_of_lt_of_le hlt hle, h'.busy_of_full rfl, Nat.succ_pos _⟩
    · cases hgrow
      left
      rcases takeIndex_eq_ok htake with ⟨free, -, rfl, -⟩ | ⟨hfree, -, -, rfl, -⟩
      · exact ⟨rfl, le_refl _, Or.inl rfl⟩
      · exact ⟨rfl, Nat.le_succ _, Or.inr (h'.busy_of_full hfree)⟩
  | unmapBuffer hok =>
    left
    unfold SwapChain.unmapBuffer at hok
    split at hok
    · obtain ⟨-, rfl⟩ := freeBuffer_eq_ok.mp hok
      exact ⟨rfl, le_refl _, Or.inl rfl⟩
    · cases hok
  | sendBuffer hok =>
    left
    obtain ⟨index, pool, c, -, -, -, -, -, -, -, hput⟩ := sendBuffer_eq_ok.mp hok
    obtain ⟨-, -, rfl⟩ := putIndex_eq_ok.mp hput
    exact ⟨rfl, le_refl _, Or.inl rfl⟩
  | release hok =>
    obtain ⟨-, _, _, rfl⟩ := onWlBufferEvent_eq hok
    exact Or.inl ⟨rfl, le_refl _, Or.inl rfl⟩
  | store slice bytes => exact Or.inl ⟨rfl, le_refl _, Or.inl rfl⟩

/-- A pool has a slot, and it is no larger than its slots. -/
theorem memoryLen_of_history (h : History wlShm (chain :: earlier)) :
    ∀ pool, chain.shmPool = some pool → pool.memoryLen = chain.nextFrameIndex * chain.maxBufferSize := by
  suffices hpos : chain.shmPool ≠ none → 0 < chain.nextFrameIndex by
    intro pool hpool
    have hone : 1 ≤ chain.nextFrameIndex := hpos (by rw [hpool]; simp)
    rw [(wellFormed_of_history h).pool pool hpool, Nat.max_eq_right hone]
  generalize heq : chain :: earlier = history at h
  induction h generalizing chain earlier with
  | start =>
    cases heq
    exact fun hpool => absurd rfl hpool
  | step h hstep ih =>
    cases heq
    intro hpool
    have hwell := wellFormed_of_history h
    rcases step_busy hwell hstep with ⟨hmax, hnext, -⟩ | ⟨-, -, hpos⟩
    · refine lt_of_lt_of_le (ih rfl fun hnone => hpool ?_) hnext
      exact (hwell.step hstep).empty.mpr (hmax.trans (hwell.empty.mp hnone))
    · exact hpos

/-- While the calls succeed the pool has as many slots as were in use at one time since it was created, and is
    no larger than these. -/
theorem peak_of_history (h : History wlShm (chain :: earlier)) :
    (∀ c ∈ chain :: earlier, c.maxBufferSize = chain.maxBufferSize → c.busy ≤ chain.nextFrameIndex) ∧
      (∃ c ∈ chain :: earlier, c.maxBufferSize = chain.maxBufferSize ∧ c.busy = chain.nextFrameIndex) ∧
      ∀ pool, chain.shmPool = some pool → pool.memoryLen = chain.nextFrameIndex * chain.maxBufferSize := by
  suffices hall : (∀ c ∈ chain :: earlier, c.maxBufferSize ≤ chain.maxBufferSize) ∧
      (∀ c ∈ chain :: earlier, c.maxBufferSize = chain.maxBufferSize → c.busy ≤ chain.nextFrameIndex) ∧
      ∃ c ∈ chain :: earlier, c.maxBufferSize = chain.maxBufferSize ∧ c.busy = chain.nextFrameIndex from
    ⟨hall.2.1, hall.2.2, memoryLen_of_history h⟩
  generalize heq : chain :: earlier = history at h
  induction h generalizing chain earlier with
  | start =>
    cases heq
    exact ⟨by simp, by simp [busy], _, List.mem_singleton_self _, rfl, rfl⟩
  | @step chain chain' earlier h hstep ih =>
    cases heq
    obtain ⟨hbig, hbusy, c, hc, hcmax, hcpeak⟩ := ih rfl
    have hwell := wellFormed_of_history h
    have hle : chain'.busy ≤ chain'.nextFrameIndex := by
      rw [← (hwell.step hstep).length]
      exact Nat.le_add_left _ _
    rcases step_busy hwell hstep with ⟨hmax, hnext, hor⟩ | ⟨hmax, hfull, -⟩
    · refine ⟨List.forall_mem_cons.mpr ⟨le_refl _, fun d hd => hmax ▸ hbig d hd⟩,
        List.forall_mem_cons.mpr ⟨fun _ => hle, fun d hd heq => (hbusy d hd (heq.trans hmax)).trans hnext⟩, ?_⟩
      rcases hor with heq | hfull
      · exact ⟨c, List.mem_cons_of_mem _ hc, hcmax.trans hmax.symm, hcpeak.trans heq.symm⟩
      · exact ⟨chain', List.mem_cons_self .., rfl, hfull⟩
    · refine ⟨List.forall_mem_cons.mpr ⟨le_refl _, fun d hd => (hbig d hd).trans hmax.le⟩,
        List.forall_mem_cons.mpr ⟨fun _ => hle, fun d hd heq => ?_⟩, chain', List.mem_cons_self .., rfl, hfull⟩
      exact absurd (heq ▸ hbig d hd) (not_le.mpr hmax)

/-- Two frames are mapped at one time, and both are given back: the pool has two slots, each of a page, and none is in use. -/
theorem two_slots_peak : ∃ chain earlier, History 4 (chain :: earlier) ∧ chain.busy = 0 ∧ chain.nextFrameIndex = 2 ∧
    chain.maxBufferSize = 4096 ∧ (∀ c ∈ chain :: earlier, c.maxBufferSize = 4096 → c.busy ≤ 2) ∧
      (∃ c ∈ chain :: earlier, c.maxBufferSize = 4096 ∧ c.busy = 2) ∧
      ∀ pool, chain.shmPool = some pool → pool.memoryLen = 8192 := by
  have hrun : (mapBuffer (some 5) {} { wlShm := 4 } 4096 >>= fun first =>
      mapBuffer (some 5) first.2.2 first.2.1 4096 >>= fun second =>
        unmapBuffer second.2.1 first.1 >>= fun chain => unmapBuffer chain second.1).toOption.map
          (fun chain => (chain.busy, chain.nextFrameIndex, chain.maxBufferSize)) = some (0, 2, 4096) := by
    decide +kernel
  obtain ⟨chain, hok, heq⟩ := toOption_map_eq_some.mp hrun
  obtain ⟨hbusy, hnext, hmax⟩ := Prod.mk.inj heq |>.imp id Prod.mk.inj
  obtain ⟨⟨first, chain₁, connection₁⟩, hfirst, hok⟩ := bind_eq_ok.mp hok
  obtain ⟨⟨second, chain₂, connection₂⟩, hsecond, hok⟩ := bind_eq_ok.mp hok
  obtain ⟨chain₃, hunmap, hlast⟩ := bind_eq_ok.mp hok
  have hhistory := (((History.start.step (.mapBuffer hfirst)).step (.mapBuffer hsecond)).step (.unmapBuffer hunmap)).step
    (.unmapBuffer hlast)
  have hpeak := peak_of_history hhistory
  rw [hnext, hmax] at hpeak
  exact ⟨_, _, hhistory, hbusy, hnext, hmax, hpeak⟩

end

end SwapChain

end Zlinestatus.Wayland
