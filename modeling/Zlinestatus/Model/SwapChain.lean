import Mathlib.Data.Nat.Log
import Zlinestatus.Lib.ArrayMap
import Zlinestatus.Model.Objects

/-! The swapchain: frames in slots of one size, in a memory file that is shared with the compositor. -/

namespace Zlinestatus.Wayland
open Wire (Object)

/-! ### ShmPool -/

/-- `memory` has the bytes of the memory file, which are zero until they are written. -/
structure ShmPool where
  wlShmPool : Object
  memoryLen : ℕ
  memory : ℕ → UInt8 := fun _ => 0

namespace ShmPool

/-- `fd` is the memory file, of `initial_size` bytes. -/
def init (connection : Connection) (wlShm : Object) (fd : UInt32) (initialSize : ℕ) :
    Except Error (ShmPool × Connection) :=
  (connection.create fun id => .createPool wlShm id fd initialSize).map fun (id, connection) =>
    ({ wlShmPool := id, memoryLen := initialSize }, connection)

def deinit (connection : Connection) (pool : ShmPool) : Connection := connection.write (.destroyPool pool.wlShmPool)

def resize (connection : Connection) (pool : ShmPool) (newLen : ℕ) : Except Error (ShmPool × Connection) :=
  if pool.memoryLen < newLen then
    .ok ({ pool with memoryLen := newLen }, connection.write (.resizePool pool.wlShmPool newLen))
  else .error .panicked

/-- The assertion computes in `u31`. -/
def createBuffer (connection : Connection) (pool : ShmPool) (offset width height stride : ℕ) (format : Format) :
    Except Error (Object × Connection) :=
  match castU31 (offset + stride * height) with
  | none => .error .panicked
  | some size =>
    if size ≤ pool.memoryLen then
      connection.create fun id => .createBuffer pool.wlShmPool id offset width height stride format
    else .error .panicked

end ShmPool

/-! ### ShmSwapChain -/

/-- A mapped part of the memory file. While it is mapped no other mapping is at its address, so that the range in the
    file stands for the slice. -/
structure Slice where
  offset : ℕ
  length : ℕ
  deriving DecidableEq

/-- `bufferIndices` and `freeBuffers` have the slots, by number. The last free one is the first here. The lists have
    room for `capacity` entries. -/
structure SwapChain where
  wlShm : Object
  shmPool : Option ShmPool := none
  maxBufferSize : ℕ := 0
  nextFrameIndex : ℕ := 0
  bufferMappings : List (Slice × ℕ) := []
  bufferIndices : List (Object × ℕ) := []
  freeBuffers : List ℕ := []
  capacity : ℕ := 0

/-- `std.heap.page_size_min`: the offset of a mapping is a multiple of it. -/
def pageSize : ℕ := 4096

/-- `std.math.ceilPowerOfTwo(u31, n)` -/
def ceilPowerOfTwo (n : ℕ) : Option ℕ := castU31 (2 ^ Nat.clog 2 n)

namespace SwapChain

/-- The buffers and the pool are destroyed, and a pool is created for one frame of `numBytes`. -/
def recreatePool (connection : Connection) (chain : SwapChain) (fd : UInt32) (numBytes : ℕ) :
    Except Error (SwapChain × Connection) :=
  let connection := chain.bufferIndices.foldl (fun connection entry => connection.write (.destroyBuffer entry.1)) connection
  let connection := chain.shmPool.elim connection (ShmPool.deinit connection)
  match ceilPowerOfTwo numBytes with
  | none => .error .connection
  | some maxBufferSize =>
    (ShmPool.init connection chain.wlShm fd maxBufferSize).map fun (pool, connection) =>
      ({ wlShm := chain.wlShm, shmPool := some pool, maxBufferSize := maxBufferSize, capacity := chain.capacity },
        connection)

/-- The first part of `mapBuffer`. -/
def ensureSize (connection : Connection) (chain : SwapChain) (fd : UInt32) (numBytes : ℕ) :
    Except Error (SwapChain × Connection) :=
  if chain.maxBufferSize < numBytes then recreatePool connection chain fd numBytes else .ok (chain, connection)

/-- `buffer_index`: a free slot, or the next one, for which the pool grows where it has to. -/
def takeIndex (connection : Connection) (chain : SwapChain) (pool : ShmPool) :
    Except Error (ℕ × SwapChain × Connection) :=
  match chain.freeBuffers with
  | index :: freeBuffers => .ok (index, { chain with freeBuffers := freeBuffers }, connection)
  | [] =>
    match castU31 (chain.nextFrameIndex * chain.maxBufferSize + chain.maxBufferSize) with
    | none => .error .panicked
    | some required =>
      if pool.memoryLen < required then
        (pool.resize connection required).map fun (pool, connection) =>
          (chain.nextFrameIndex,
            { chain with shmPool := some pool, nextFrameIndex := chain.nextFrameIndex + 1 }, connection)
      else .ok (chain.nextFrameIndex, { chain with nextFrameIndex := chain.nextFrameIndex + 1 }, connection)

/-- `shm_pool.map` of a slot: `mmap` refuses an empty mapping, and one whose offset is not that of a page, which the
    caller takes to be impossible. -/
def mapSlot (chain : SwapChain) (index numBytes : ℕ) : Except Error (Slice × SwapChain) :=
  match castU31 (index * chain.maxBufferSize) with
  | none => .error .panicked
  | some offset =>
    if numBytes = 0 ∨ offset % pageSize ≠ 0 ∨ chain.capacity ≤ chain.bufferMappings.length then .error .panicked
    else .ok (⟨offset, numBytes⟩, { chain with bufferMappings := chain.bufferMappings ++ [(⟨offset, numBytes⟩, index)] })

/-- `host` is the memory file of a new pool, or `none` where an allocation or a system call fails. -/
def mapBuffer (host : Option UInt32) (connection : Connection) (chain : SwapChain) (numBytes : ℕ) :
    Except Error (Slice × SwapChain × Connection) := do
  match host with
  | none => .error .connection
  | some fd =>
    let (chain, connection) ← ensureSize connection chain fd numBytes
    match chain.shmPool, castU31 (chain.nextFrameIndex + 1) with
    | some pool, some room =>
      let (index, chain, connection) ← takeIndex connection { chain with capacity := max chain.capacity room } pool
      let (slice, chain) ← mapSlot chain index numBytes
      .ok (slice, chain, connection)
    | _, _ => .error .panicked

/-- The slot goes back to the free ones; there is room for it. -/
def freeBuffer (chain : SwapChain) (index : ℕ) : Except Error SwapChain :=
  if chain.freeBuffers.length < chain.capacity then .ok { chain with freeBuffers := index :: chain.freeBuffers }
  else .error .panicked

def unmapBuffer (chain : SwapChain) (slice : Slice) : Except Error SwapChain :=
  match ArrayMap.get chain.bufferMappings slice, chain.shmPool with
  | some index, some _ =>
    freeBuffer { chain with bufferMappings := ArrayMap.swapRemove chain.bufferMappings slice } index
  | _, _ => .error .panicked

/-- `putAssumeCapacityNoClobber` in `buffer_indices` -/
def putIndex (chain : SwapChain) (wlBuffer : Object) (index : ℕ) : Except Error SwapChain :=
  if chain.bufferIndices.length < chain.capacity ∧ ArrayMap.get chain.bufferIndices wlBuffer = none then
    .ok { chain with bufferIndices := chain.bufferIndices ++ [(wlBuffer, index)] }
  else .error .panicked

def sendBuffer (connection : Connection) (chain : SwapChain) (slice : Slice) (width height stride : ℕ)
    (format : Format) : Except Error (Object × SwapChain × Connection) := do
  match ArrayMap.get chain.bufferMappings slice, chain.shmPool with
  | some index, some pool =>
    match castU31 (index * chain.maxBufferSize) with
    | none => .error .panicked
    | some offset =>
      let (wlBuffer, connection) ← pool.createBuffer connection offset width height stride format
      let connection ← connection.setEventListener wlBuffer .buffer
      let chain ← putIndex { chain with bufferMappings := ArrayMap.swapRemove chain.bufferMappings slice } wlBuffer index
      .ok (wlBuffer, chain, connection)
  | _, _ => .error .panicked

/-- `onWlBufferEvent`: the buffer is destroyed, and its slot is free again. -/
def onWlBufferEvent (connection : Connection) (chain : SwapChain) (wlBuffer : Object) :
    Except Error (SwapChain × Connection) :=
  let connection := connection.write (.destroyBuffer wlBuffer)
  match ArrayMap.get chain.bufferIndices wlBuffer with
  | none => .ok (chain, connection)
  | some index =>
    (freeBuffer { chain with bufferIndices := ArrayMap.swapRemove chain.bufferIndices wlBuffer } index).map fun chain =>
      (chain, connection)

/-- The bytes of a slice, as its memory is now. -/
def read (chain : SwapChain) (slice : Slice) : Bytes :=
  match chain.shmPool with
  | none => []
  | some pool => (List.range slice.length).map fun i => pool.memory (slice.offset + i)

/-- Stores to the slice, from its first byte on. -/
def store (chain : SwapChain) (slice : Slice) (bytes : Bytes) : SwapChain :=
  { chain with shmPool := chain.shmPool.map fun pool =>
      { pool with memory := fun a =>
          if slice.offset ≤ a ∧ a < slice.offset + slice.length then bytes.getD (a - slice.offset) 0 else pool.memory a } }

end SwapChain

end Zlinestatus.Wayland
