import Mathlib.Data.Vector.Basic
import Zlinestatus.Lib.Raster
import Zlinestatus.Model.Float
import Zlinestatus.Model.Style

/-! Drawing the line, and the requests `renderFrame` sends for a frame. -/

namespace Zlinestatus

/-! ### drawPercent -/

/-- Unsigned subtraction with its safety check. -/
def checkedSub (a b : ℕ) : Option ℕ := if b ≤ a then some (a - b) else none

/-- `@as(f32, @floatFromInt(size)) * (percent / 100.0)` -/
def scaledSize (ar : F32Arith) (size : ℕ) (percent : F32) : F32 :=
  ar.mul (ar.floatFromInt size) (ar.div percent (.finite 100))

def startX (alignment : Alignment) (width fillWidth : ℕ) : Option ℕ :=
  match alignment with
  | .left => some 0
  | .right => checkedSub width fillWidth
  | .center => (checkedSub width fillWidth).map (· / 2)

/-- The pixels after the call; `none` where a safety check (the float conversion, the subtraction, a
    slice index) panics. -/
def drawPercent (ar : F32Arith) (pixels : List Pixel) (width height : ℕ) (percent : F32)
    (orientation : Orientation) (alignment : Alignment) (color : Pixel) : Option (List Pixel) :=
  let pixels := pixels.map fun _ => transparent
  match orientation with
  | .horizontal =>
    match (scaledSize ar width percent).intFromFloat with
    | none => none
    | some fillWidth =>
      match startX alignment width fillWidth with
      | none => none
      | some startX => Raster.fillRect pixels width height startX fillWidth color
  | .vertical =>
    match (scaledSize ar height percent).intFromFloat with
    | none => none
    | some fillHeight => Raster.fillRect pixels width fillHeight 0 width color

/-! ### Buffers -/

/-- The pixels of the bytes. -/
def bytesAsSlice : Bytes → List Pixel
  | b0 :: b1 :: b2 :: b3 :: bytes => ⟨b0, b1, b2, b3⟩ :: bytesAsSlice bytes
  | _ => []

/-- The bytes of the pixels. -/
def sliceAsBytes (pixels : List Pixel) : Bytes := pixels.flatMap fun p => [p.b0, p.b1, p.b2, p.b3]

/-- `wl_shm.format`; the renderer uses one of its entries. -/
inductive Format where
  | argb8888
  deriving DecidableEq

/-- A buffer as the compositor gets it: its bytes, and how they are laid out. -/
structure WlBuffer where
  bytes : Bytes
  width : ℕ
  height : ℕ
  stride : ℕ
  format : Format
  deriving DecidableEq

/-- The 32-bit word in which `argb8888` stores a pixel: little endian, bits [31:0] = A:R:G:B. -/
def wordOf (b0 b1 b2 b3 : UInt8) : BitVec 32 :=
  b3.toBitVec ++ b2.toBitVec ++ b1.toBitVec ++ b0.toBitVec

/-- The word of the pixel in column `x` of row `y`, at byte offset `y * stride + 4 * x`. -/
def WlBuffer.word (buffer : WlBuffer) (x y : ℕ) : Option (BitVec 32) :=
  match buffer.bytes.drop (y * buffer.stride + 4 * x) with
  | b0 :: b1 :: b2 :: b3 :: _ => some (wordOf b0 b1 b2 b3)
  | _ => none

/-- The alpha of an `argb8888` word. -/
def wordAlpha (w : BitVec 32) : UInt8 := ⟨w.extractLsb' 24 8⟩
def wordRed (w : BitVec 32) : UInt8 := ⟨w.extractLsb' 16 8⟩
def wordGreen (w : BitVec 32) : UInt8 := ⟨w.extractLsb' 8 8⟩
def wordBlue (w : BitVec 32) : UInt8 := ⟨w.extractLsb' 0 8⟩

/-! ### renderFrame -/

inductive Interface where
  | wlCompositor
  | wlShm
  | layerShell
  | other
  deriving DecidableEq

structure Anchor where
  top : Bool
  bottom : Bool
  left : Bool
  right : Bool
  deriving DecidableEq

/-- The requests of the renderer. Those with which the swapchain keeps its memory pool (`create_pool`,
    `resize`, `destroy`) are left out: no rule about the surface looks at them. -/
inductive Request where
  | getRegistry
  | sync
  | bind (interface : Interface)
  | createSurface
  | getLayerSurface
  | setSize (width height : ℕ)
  | setAnchor (anchor : Anchor)
  | setKeyboardInteractivity
  | setExclusiveZone (zone : ℤ)
  | ackConfigure (serial : UInt32)
  | createBuffer (buffer : WlBuffer)
  | attach (buffer : WlBuffer)
  | damage (x y width height : ℕ)
  | commit
  deriving DecidableEq

/-- What the swapchain and the connection do during one sequence of calls: the slice `mapBuffer` returns,
    of the size asked for and with any previous contents, and how many of the calls that send succeed
    before one fails. -/
structure FrameIO where
  mapBuffer : (numBytes : ℕ) → Option (List.Vector UInt8 numBytes)
  sends : ℕ

/-- Sends the requests in order and flushes the send buffer; the first call that fails ends it. -/
def sendAll (sends : ℕ) (requests : List Request) : List Request × Except Error Unit :=
  (requests.take sends, if requests.length < sends then .ok () else .error .connection)

/-- The requests that show a buffer. -/
def frameRequests (buffer : WlBuffer) : List Request :=
  [.createBuffer buffer, .attach buffer, .damage 0 0 buffer.width buffer.height, .commit]

/-- usize multiplication with its safety check, on a 64-bit target. -/
def usizeMul (a b : ℕ) : Option ℕ := if a * b < 2 ^ 64 then some (a * b) else none

/-- `std.math.cast(u31, n)`, and the check of `@intCast` to u31 and to i32 of an unsigned number -/
def castU31 (n : ℕ) : Option ℕ := if n < 2 ^ 31 then some n else none

/-- The bytes of a frame, where they are counted without overflow. -/
def framebufferByteSize (width height : ℕ) : Option ℕ := (usizeMul width height).bind fun area => usizeMul area 4

/-- The requests sent, and how the call ends. -/
def renderFrame (ar : F32Arith) (io : FrameIO) (width height : ℕ) (percent : F32) (orientation : Orientation)
    (alignment : Alignment) (color : Pixel) : List Request × Except Error Unit :=
  match framebufferByteSize width height, usizeMul width 4 with
  | some byteSize, some stride =>
    match castU31 byteSize, castU31 stride with
    | some byteSize, some stride =>
      match io.mapBuffer byteSize with
      | none => ([], .error .connection)
      | some mapped =>
        match drawPercent ar (bytesAsSlice mapped.toList) width height percent orientation alignment color with
        | none => ([], .error .panicked)
        | some pixels =>
          match castU31 width, castU31 height with
          | some w, some h =>
            sendAll io.sends (frameRequests ⟨sliceAsBytes pixels, w, h, stride, .argb8888⟩)
          | _, _ => ([], .error .panicked)
    | _, _ => ([], .error .frameTooLarge)
  | _, _ => ([], .error .panicked)

end Zlinestatus
