import Zlinestatus.Theorems.Steps

/-! Frames and the size of the surface. The event handler follows every configure event, the poll loop
    draws with the size of the first frame: a frame has the size announced as long as no message is
    accepted while the two differ. -/

namespace Zlinestatus
open Run
variable {parseFloat : Bytes → Option F32} {ar : F32Arith} {session : Session} {client client' : Client}
  {log : List Action}

/-! ### Sizes announced and drawn -/

/-- The two axes of the surface, each of which has its own size. -/
inductive Axis where
  | width
  | height
  deriving DecidableEq

variable {axis : Axis}

/-- Of two values the one for the axis. -/
def Axis.pick {α : Type} (axis : Axis) (width height : α) : α :=
  match axis with
  | .width => width
  | .height => height

/-- The size that the event handler keeps. -/
def AppState.size (state : AppState) (axis : Axis) : UInt32 := axis.pick state.width state.height

/-- The size of a buffer. -/
def WlBuffer.size (buffer : WlBuffer) (axis : Axis) : ℕ := axis.pick buffer.width buffer.height

/-- The size a configure event announces; 0 leaves the size to the client. -/
def configuredSize (axis : Axis) : Action → Option UInt32
  | .dispatched (.layerSurface (.configure _ width height)) =>
    if 0 < axis.pick width height then some (axis.pick width height) else none
  | _ => none

/-- The last non-zero size announced, or the size the client starts with. -/
def announcedSize (axis : Axis) (log : List Action) : UInt32 :=
  (log.findSome? (configuredSize axis)).getD (({} : AppState).size axis)

/-- A commit shows a buffer of the size announced. -/
abbrev FollowsAt : Action → List Action → Prop :=
  FrameAt fun buffer earlier => ∀ axis, buffer.size axis = (announcedSize axis earlier).toNat

theorem announcedSize_ne_zero (axis : Axis) (log : List Action) : announcedSize axis log ≠ 0 := by
  unfold announcedSize
  cases h : log.findSome? (configuredSize axis) with
  | none => cases axis <;> decide
  | some size =>
    obtain ⟨a, -, ha⟩ := List.exists_of_findSome?_eq_some h
    unfold configuredSize at ha
    split at ha
    · obtain ⟨hpos, heq⟩ := Option.ite_none_right_eq_some.mp ha
      rw [Option.some.inj heq] at hpos
      rintro rfl
      exact absurd hpos (by decide)
    · cases ha

theorem configure_size (state : AppState) (width height : UInt32) (axis : Axis) :
    (state.configure width height).size axis =
      if 0 < axis.pick width height then axis.pick width height else state.size axis := by
  cases axis <;> rfl

/-! ### The size before the frames -/

/-- The log as it was when the first frame was drawn. -/
def beforeFrames (log : List Action) : List Action := log.rtakeWhile fun a => (attachedBuffer a).isNone

/-- The size announced last is the one announced last before the first frame. -/
def SizesKept (log : List Action) : Prop := ∀ axis, announcedSize axis log = announcedSize axis (beforeFrames log)

/-- A message is accepted while the size announced is that of the first frame. -/
def MessageAt (parseFloat : Bytes → Option F32) (ar : F32Arith) (a : Action) (earlier : List Action) : Prop :=
  (acceptedMessage parseFloat ar a).isSome → SizesKept earlier

/-- A commit shows a buffer of the size announced before the first frame. -/
abbrev FirstSizeAt : Action → List Action → Prop :=
  FrameAt fun buffer earlier => ∀ axis, buffer.size axis = (announcedSize axis (beforeFrames earlier)).toNat

/-- A frame is committed while the size announced is that of the first one. -/
abbrev KeptAt : Action → List Action → Prop := FrameAt fun _ earlier => SizesKept earlier

theorem sizesKept_of_unattached (h : ∀ a ∈ log, attachedBuffer a = none) : SizesKept log := by
  intro axis
  rw [beforeFrames, List.rtakeWhile_eq_self_iff.mpr fun a ha => by simp [h a ha]]

theorem beforeFrames_append (h : ∃ a ∈ log, attachedBuffer a ≠ none) (new : List Action) :
    beforeFrames (new ++ log) = beforeFrames log := by
  induction new with
  | nil => rfl
  | cons b new ih =>
    rw [List.cons_append, ← ih, beforeFrames, beforeFrames, List.rtakeWhile, List.rtakeWhile, List.reverse_cons,
      List.takeWhile_append, if_neg]
    intro hall
    obtain ⟨a, ha, hattached⟩ := h
    have hself := (List.takeWhile_prefix _).eq_of_length hall
    have hnone := List.mem_takeWhile_imp (hself ▸ List.mem_reverse.mpr (List.mem_append_right new ha))
    exact hattached (Option.isNone_iff_eq_none.mp hnone)

theorem beforeFrames_attach (h : ∀ a ∈ log, attachedBuffer a = none) (new : List Action) (buffer : WlBuffer) :
    beforeFrames (new ++ .sent (.attach buffer) :: log) = log := by
  rw [beforeFrames_append ⟨_, List.mem_cons_self, by simp [attachedBuffer]⟩, beforeFrames, List.rtakeWhile,
    List.reverse_cons, List.takeWhile_append_of_pos fun a ha => by simp [h a (List.mem_reverse.mp ha)]]
  simp [attachedBuffer]

theorem announcedSize_append {new : List Action} (h : ∀ a ∈ new, configuredSize axis a = none) (log : List Action) :
    announcedSize axis (new ++ log) = announcedSize axis log := by
  rw [announcedSize, announcedSize, findSome?_append_of_none h]

/-- Only messages are judged. -/
theorem messages_append {new : List Action} (h : ∀ a ∈ new, acceptedMessage parseFloat ar a = none) :
    AtEach (MessageAt parseFloat ar) (new ++ log) ↔ AtEach (MessageAt parseFloat ar) log := by
  refine atEach_append.trans (and_iff_right (atEach_of_forall fun a ha _ haccepted => ?_))
  rw [h a ha] at haccepted
  cases haccepted

theorem messages_of_unattached (h : ∀ a ∈ log, attachedBuffer a = none) : AtEach (MessageAt parseFloat ar) log :=
  atEach_iff.mpr fun later a earlier heq _ => sizesKept_of_unattached fun b hb => h b (by simp [heq, hb])

/-! ### The wait for the surface -/

/-- Nothing is attached, and the state holds the sizes announced. -/
structure Sized (client : Client) : Prop where
  unattached : ∀ a ∈ client.log, attachedBuffer a = none
  size : ∀ axis, announcedSize axis client.log = client.state.size axis

theorem Sized.extend {new : List Action} (h : Sized client) (hlog : client'.log = new ++ client.log)
    (hstate : ∀ axis, client'.state.size axis = client.state.size axis)
    (hunread : ∀ a ∈ new, ∀ axis, configuredSize axis a = none) (hne : ∀ a ∈ new, attachedBuffer a = none) :
    Sized client' := by
  refine ⟨?_, fun axis => ?_⟩
  · rw [hlog]
    exact List.forall_mem_append.mpr ⟨hne, h.unattached⟩
  · rw [hlog, announcedSize_append (fun a ha => hunread a ha axis), hstate]
    exact h.size axis

theorem Preliminary.configuredSize {a : Action} (h : Preliminary a) (axis : Axis) : configuredSize axis a = none := by
  cases a with
  | dispatched event => cases event <;> first | exact h.elim | rfl
  | sent request => rfl
  | delivered bytes => rfl

theorem sized_dispatch (d : Dispatch) :
    Triple Sized (dispatch · d) Sized fun client => ∀ a ∈ client.log, attachedBuffer a = none := by
  intro client h
  change Post _ _ (dispatch client d)
  rcases hd : dispatch client d with ⟨client', _ | _⟩
  · rcases (dispatch_error hd).2 with hlog | ⟨hlog, -⟩
    · rw [Post, hlog]
      exact h.unattached
    · rw [Post, hlog]
      exact List.forall_mem_append.mpr ⟨by simp [attachedBuffer], h.unattached⟩
  · rcases dispatch_ok hd with ⟨serial, width, height, -, hevent, hlog, hstate⟩ | ⟨-, hevent, hlog, hstate⟩ |
      ⟨-, hstate, new, hlog, hquiet⟩
    · refine ⟨?_, fun axis => ?_⟩
      · rw [hlog]
        exact List.forall_mem_append.mpr ⟨by simp [attachedBuffer], h.unattached⟩
      · rw [hlog, hevent, hstate, configure_size, ← h.size axis, announcedSize, announcedSize]
        simp only [List.cons_append, List.nil_append, List.findSome?_cons, configuredSize]
        by_cases hpos : 0 < axis.pick width height
        · simp only [if_pos hpos, Option.getD_some]
        · simp only [if_neg hpos]
    · refine h.extend hlog (fun axis => by rw [hstate]; rfl) ?_ (by simp [attachedBuffer])
      simp [hevent, Zlinestatus.configuredSize]
    · exact h.extend hlog (fun axis => by rw [hstate]) (fun a ha => (hquiet a ha).preliminary.configuredSize)
        fun a ha => (hquiet a ha).preliminary.unattached

theorem sized_of_preliminary (h : ∀ a ∈ client.log, Preliminary a) (hstate : client.state = {}) : Sized client := by
  refine ⟨fun a ha => (h a ha).unattached, fun axis => ?_⟩
  rw [hstate, announcedSize, List.findSome?_eq_none_iff.mpr fun a ha => (h a ha).configuredSize axis]
  rfl

/-- The first frame has the size of the state: no size announced is 0, so that no fallback applies. -/
theorem Sized.frameSize (h : Sized client) (session : Session) :
    frameSize session client.state = (client.state.width, client.state.height) := by
  have hsize : ∀ axis, client.state.size axis ≠ 0 := fun axis => h.size axis ▸ announcedSize_ne_zero axis client.log
  have hw : client.state.width ≠ 0 := hsize .width
  have hh : client.state.height ≠ 0 := hsize .height
  rw [Zlinestatus.frameSize, if_neg hw, if_neg hh]

/-! ### Frames -/

/-- Every frame has the size announced before the first one, and none is committed while another is
    announced if no message is accepted then. -/
structure Frames (parseFloat : Bytes → Option F32) (ar : F32Arith) (log : List Action) : Prop where
  first : AtEach FirstSizeAt log
  kept : AtEach (MessageAt parseFloat ar) log → AtEach KeptAt log

/-- A frame is on the screen, and `width` and `height` are the size announced before the first one. There is
    a frame for each message accepted. -/
structure Drawn (parseFloat : Bytes → Option F32) (ar : F32Arith) (width height : UInt32) (log : List Action) : Prop
    extends Frames parseFloat ar log where
  attached : ∃ a ∈ log, attachedBuffer a ≠ none
  size : ∀ axis, axis.pick width height = announcedSize axis (beforeFrames log)
  messages : AtEach KeptAt log → AtEach (MessageAt parseFloat ar) log

theorem frames_unattached (h : ∀ a ∈ log, attachedBuffer a = none) : Frames parseFloat ar log :=
  ⟨frames_of_unattached h, fun _ => frames_of_unattached h⟩

theorem Frames.append {new : List Action} (h : Frames parseFloat ar log) (hne : ∀ a ∈ new, a ≠ .sent .commit) :
    Frames parseFloat ar (new ++ log) where
  first := frames_append h.first hne
  kept hmessages := frames_append (h.kept (hmessages.of_suffix (List.suffix_append new log))) hne

theorem Frames.before {new : List Action} (h : Frames parseFloat ar (new ++ log))
    (hnew : ∀ a ∈ new, acceptedMessage parseFloat ar a = none) : Frames parseFloat ar log where
  first := h.first.of_suffix (List.suffix_append new log)
  kept hmessages := (h.kept ((messages_append hnew).mpr hmessages)).of_suffix (List.suffix_append new log)

theorem Drawn.append {width height : UInt32} {new : List Action} (h : Drawn parseFloat ar width height log)
    (hne : ∀ a ∈ new, a ≠ .sent .commit) (hnew : ∀ a ∈ new, acceptedMessage parseFloat ar a = none) :
    Drawn parseFloat ar width height (new ++ log) where
  toFrames := h.toFrames.append hne
  attached := h.attached.imp fun _ ha => ⟨List.mem_append_right new ha.1, ha.2⟩
  size axis := by rw [beforeFrames_append h.attached, h.size]
  messages hkept := (messages_append hnew).mpr (h.messages (hkept.of_suffix (List.suffix_append new log)))

theorem drawn_dispatch {width height : UInt32} (d : Dispatch) :
    Triple (fun client => Drawn parseFloat ar width height client.log) (dispatch · d)
      (fun client => Drawn parseFloat ar width height client.log)
      fun client => Drawn parseFloat ar width height client.log :=
  dispatch_keeps (fun _ _ h hnew => h.append (fun a ha => (hnew a ha).ne_commit) fun a ha => (hnew a ha).unaccepted) d

theorem requests_unaccepted (requests : List Request) :
    ∀ a ∈ (requests.map Action.sent).reverse, acceptedMessage parseFloat ar a = none := by
  intro a ha
  obtain ⟨request, -, rfl⟩ := List.mem_map.mp (List.mem_reverse.mp ha)
  rfl

/-- A frame of the size announced before the first one; `log` is what stands before its requests. -/
theorem drawn_frame {width height : UInt32} {buffer : WlBuffer} (h : Frames parseFloat ar log)
    (hbuffer : ∀ axis, buffer.size axis = (axis.pick width height).toNat)
    (hsize : ∀ new axis, axis.pick width height =
      announcedSize axis (beforeFrames (new ++ .sent (.attach buffer) :: .sent (.createBuffer buffer) :: log)))
    (hkept : AtEach (MessageAt parseFloat ar) log → ∀ axis, announcedSize axis log = axis.pick width height)
    (hmessages : (∀ axis, announcedSize axis log = axis.pick width height) → AtEach KeptAt log →
      AtEach (MessageAt parseFloat ar) log) :
    Drawn parseFloat ar width height (((frameRequests buffer).map .sent).reverse ++ log) where
  first := frames_append_frame h.first fun axis =>
    (hbuffer axis).trans (congrArg UInt32.toNat (hsize [.sent (.damage 0 0 buffer.width buffer.height)] axis))
  kept hall := by
    have hlog := (messages_append (requests_unaccepted _)).mp hall
    refine frames_append_frame (h.kept hlog) fun axis => ?_
    rw [announcedSize_append (by simp [Zlinestatus.configuredSize]), hkept hlog axis]
    exact hsize [.sent (.damage 0 0 buffer.width buffer.height)] axis
  attached := ⟨.sent (.attach buffer), by simp [frameRequests], by simp [attachedBuffer]⟩
  size := hsize [.sent .commit, .sent (.damage 0 0 buffer.width buffer.height)]
  messages hall := by
    have hshown : SizesKept ([.sent (.damage 0 0 buffer.width buffer.height), .sent (.attach buffer),
      .sent (.createBuffer buffer)] ++ log) := hall.1 rfl buffer rfl
    have hlog := hall.of_suffix (List.suffix_append _ log)
    refine (messages_append (requests_unaccepted _)).mpr (hmessages (fun axis => ?_) hlog)
    rw [hsize [.sent (.damage 0 0 buffer.width buffer.height)] axis]
    exact (announcedSize_append (by simp [Zlinestatus.configuredSize]) log).symm.trans (hshown axis)

/-! ### Runs -/

/-- What the sizes of the frames are in each phase of `main`. -/
def ResizeInv (parseFloat : Bytes → Option F32) (ar : F32Arith) : Client × Phase → Prop
  | (client, .registering) => Unregistered client
  | (client, .configuring) => Sized client
  | (client, .running width height) => Drawn parseFloat ar width height client.log
  | (client, .stopped _) => Frames parseFloat ar client.log

theorem resizeInv_drawFrame {width height : UInt32} (h : Frames parseFloat ar client.log)
    (hsize : ∀ buffer new axis, axis.pick width height =
      announcedSize axis (beforeFrames (new ++ .sent (.attach buffer) :: .sent (.createBuffer buffer) :: client.log)))
    (hkept : AtEach (MessageAt parseFloat ar) client.log →
      ∀ axis, announcedSize axis client.log = axis.pick width height)
    (hmessages : (∀ axis, announcedSize axis client.log = axis.pick width height) → AtEach KeptAt client.log →
      AtEach (MessageAt parseFloat ar) client.log) (io : FrameIO) (percent : F32) (color : Pixel) :
    ResizeInv parseFloat ar (drawFrame ar session client io width height percent color) := by
  rcases drawFrame_cases io width height percent color with ⟨e, heq⟩ | ⟨drawn, -, hsent⟩
  · rw [heq]
    exact h
  · have hframe : Drawn parseFloat ar width height (client.record
        ((frameRequests (frameBuffer width.toNat height.toNat drawn)).map .sent)).log :=
      drawn_frame h (fun axis => by cases axis <;> rfl) (hsize _) hkept hmessages
    rcases hsent with ⟨k, e, heq⟩ | heq
    · rw [record_take_drop k] at hframe
      rw [heq]
      exact hframe.toFrames.before (requests_unaccepted _)
    · rw [heq]
      exact hframe

theorem Sized.drawFrame (h : Sized client) (io : FrameIO) (percent : F32) (color : Pixel) :
    ResizeInv parseFloat ar (drawFrame ar session client io client.state.width client.state.height percent color) := by
  have hsize : ∀ axis, announcedSize axis client.log = axis.pick client.state.width client.state.height := h.size
  refine resizeInv_drawFrame (frames_unattached h.unattached) (fun buffer new axis => ?_) (fun _ => hsize)
    (fun _ _ => messages_of_unattached h.unattached) io percent color
  have hunattached : ∀ a ∈ [.sent (.createBuffer buffer)] ++ client.log, attachedBuffer a = none :=
    List.forall_mem_append.mpr ⟨by simp [attachedBuffer], h.unattached⟩
  change _ = announcedSize axis (beforeFrames (new ++
    .sent (.attach buffer) :: ([.sent (.createBuffer buffer)] ++ client.log)))
  rw [beforeFrames_attach hunattached, announcedSize_append (by simp [Zlinestatus.configuredSize]), hsize]

theorem Drawn.drawFrame {width height : UInt32} (h : Drawn parseFloat ar width height client.log) {bytes : Bytes}
    (haccepted : (acceptMessage parseFloat ar bytes).isSome) (io : FrameIO) (percent : F32) (color : Pixel) :
    ResizeInv parseFloat ar
      (drawFrame ar session (client.record [.delivered bytes]) io width height percent color) := by
  have hannounced : ∀ axis, announcedSize axis ([.delivered bytes] ++ client.log) = announcedSize axis client.log :=
    fun axis => announcedSize_append (by simp [Zlinestatus.configuredSize]) client.log
  have hframes : Frames parseFloat ar ([.delivered bytes] ++ client.log) := h.toFrames.append (by simp)
  refine resizeInv_drawFrame hframes (fun buffer new axis => ?_) (fun hmessages axis => ?_) (fun hsizes hkept => ?_)
    io percent color
  · rw [record_log, List.append_cons, List.append_cons, ← List.append_assoc, beforeFrames_append h.attached]
    exact h.size axis
  · have hkept : SizesKept client.log := hmessages.1 haccepted
    exact (hannounced axis).trans ((hkept axis).trans (h.size axis).symm)
  · exact ⟨fun _ axis => (hannounced axis).symm.trans ((hsizes axis).trans (h.size axis)), h.messages hkept.2⟩

theorem resizeInv_step (s : Client × Phase) (wakeup : Wakeup) (h : ResizeInv parseFloat ar s) :
    ResizeInv parseFloat ar (step parseFloat ar session s wakeup) := by
  obtain ⟨client, phase⟩ := s
  cases phase with
  | registering =>
    have unattached : ∀ c, Unregistered c →
        ∀ a ∈ (c.record ((surfaceRequests session).map .sent)).log, attachedBuffer a = none :=
      fun c hu a ha => (hu.preliminary session a ha).unattached
    refine registerRound_rule unregistered_dispatch (fun _ => id) wakeup
      (fun c e hu => frames_unattached fun a ha => (hu.quiet a ha).preliminary.unattached) (fun c hu => hu)
      (fun c k e hu => ?_) (fun c hu => sized_of_preliminary (hu.preliminary session) rfl) h
    exact frames_unattached fun a ha => unattached c hu a ((record_take_suffix k _).mem ha)
  | configuring =>
    refine configureRound_rule sized_dispatch (fun c hs => hs.unattached) wakeup (fun c e hu => frames_unattached hu)
      (fun c hs => hs) (fun c hs _ _ => ?_) h
    rw [hs.frameSize]
    exact hs.drawFrame _ _ _
  | running width height =>
    refine pollRound_rule drawn_dispatch (fun _ => id) width height wakeup (fun c e hd => hd.toFrames)
      (fun c hd _ => hd) ?_ (fun c bytes message _ hd _ _ hmessage => ?_) h
    · intro c bytes hd _ hrejected
      have hextend : Drawn parseFloat ar width height ([.delivered bytes] ++ c.log) :=
        hd.append (by simp) (by simpa [acceptedMessage] using hrejected)
      exact hextend
    · exact hd.drawFrame (by rw [hmessage]; rfl) _ _ _
  | stopped e => exact h

/-! ### Whole runs -/

theorem Frames.follow_iff (h : Frames parseFloat ar log) : AtEach FollowsAt log ↔ AtEach KeptAt log := by
  rw [atEach_iff, atEach_iff]
  refine forall₄_congr fun later a earlier heq => forall₃_congr fun hcommit buffer hbuffer => forall_congr' fun axis => ?_
  rw [atEach_iff.mp h.first later a earlier heq hcommit buffer hbuffer axis, UInt32.toNat_inj, eq_comm]

theorem ResizeInv.frames {s : Client × Phase} (h : ResizeInv parseFloat ar s) : Frames parseFloat ar s.1.log := by
  obtain ⟨client, phase⟩ := s
  cases phase with
  | registering => exact frames_unattached fun a ha => (h.quiet a ha).preliminary.unattached
  | configuring => exact frames_unattached h.unattached
  | running width height => exact h.toFrames
  | stopped e => exact h

/-- In every run: every frame committed has on each axis the last non-zero size announced before, or the
    initial size, exactly when at every commit of a frame these are the sizes announced before the first
    one. It has them where every message is accepted while these are the sizes announced, and only there
    if `main` goes on. -/
theorem frames_follow_iff (parseFloat : Bytes → Option F32) (ar : F32Arith) (startup : Startup) (wakeups : List Wakeup) :
    (AtEach FollowsAt (main parseFloat ar startup wakeups).1.log ↔
      AtEach KeptAt (main parseFloat ar startup wakeups).1.log) ∧
    (AtEach (MessageAt parseFloat ar) (main parseFloat ar startup wakeups).1.log →
      AtEach FollowsAt (main parseFloat ar startup wakeups).1.log) ∧
    ∀ width height, (main parseFloat ar startup wakeups).2 = .running width height →
      AtEach FollowsAt (main parseFloat ar startup wakeups).1.log →
      AtEach (MessageAt parseFloat ar) (main parseFloat ar startup wakeups).1.log := by
  have hinv : ResizeInv parseFloat ar (main parseFloat ar startup wakeups) :=
    main_rule (fun c hu => hu) (fun c e hu => frames_unattached fun a ha => (hu.quiet a ha).preliminary.unattached)
      fun session before wakeup after _ _ hs => resizeInv_step _ wakeup hs
  refine ⟨hinv.frames.follow_iff, fun hmessages => hinv.frames.follow_iff.mpr (hinv.frames.kept hmessages), ?_⟩
  rcases hmain : main parseFloat ar startup wakeups with ⟨client, phase⟩
  rw [hmain] at hinv
  rintro width height rfl hfollows
  exact hinv.messages (hinv.frames.follow_iff.mp hfollows)

/-- `zlinestatus -type battery`, without a style file. -/
def batteryStartup : Startup where
  args := [ascii "zlinestatus", ascii "-type", ascii "battery"]
  env := ⟨some (ascii "/run"), none, none, fun _ => .fileNotFound⟩
  sends := 16

/-- The registry names the three globals. -/
def registryWakeup : Wakeup where
  recv := ⟨[⟨.global .wlCompositor 6, true⟩, ⟨.global .wlShm 2, true⟩, ⟨.global .layerShell 4, true⟩,
    ⟨.callbackDone, true⟩], true⟩
  io := freshIO

/-- A configure event of serial 7 gives the surface 2 columns and one row. -/
def configureWakeup : Wakeup := { recv := ⟨[⟨.layerSurface (.configure 7 2 1), true⟩], true⟩, io := freshIO }

/-- The rounds up to the first frame. -/
def opening : List Wakeup := [registryWakeup, configureWakeup]

/-- The compositor releases the buffer of the frame before, and a client sends `50`. -/
def fiftyWakeup : Wakeup where
  connectionIn := true
  recv := ⟨[⟨.other, true⟩], true⟩
  socketIn := true
  delivery := .bytes (ascii "50\n")
  io := freshIO

theorem opening_phases :
    (main parseNumeral .exact batteryStartup []).2 = .registering ∧
    (main parseNumeral .exact batteryStartup [registryWakeup]).2 = .configuring ∧
    (main parseNumeral .exact batteryStartup opening).2 = .running 2 1 ∧
    (main parseNumeral .exact batteryStartup opening).1.state = ⟨true, 2, 1, false⟩ := by
  decide +kernel

/-- The same release and message, and between them a configure event of serial 8 that gives the surface 4 columns. -/
def resizedWakeup : Wakeup :=
  { fiftyWakeup with recv := ⟨[⟨.other, true⟩, ⟨.layerSurface (.configure 8 4 1), true⟩], true⟩ }

/-- The event is acknowledged, and the frame behind it keeps its 2 columns. -/
theorem resize_not_followed : ∃ buffer earlier,
    (main parseNumeral .exact batteryStartup (opening ++ [resizedWakeup])).1.log = .sent .commit :: earlier ∧
    .sent (.ackConfigure 8) ∈ earlier ∧ lastAttach earlier = some buffer ∧ buffer.width = 2 ∧
    announcedSize .width earlier = 4 ∧
    ¬AtEach FollowsAt (main parseNumeral .exact batteryStartup (opening ++ [resizedWakeup])).1.log := by
  have hrun : ∃ buffer ∈ lastAttach (main parseNumeral .exact batteryStartup (opening ++ [resizedWakeup])).1.log.tail,
      (main parseNumeral .exact batteryStartup (opening ++ [resizedWakeup])).1.log =
        .sent .commit :: (main parseNumeral .exact batteryStartup (opening ++ [resizedWakeup])).1.log.tail ∧
      .sent (.ackConfigure 8) ∈ (main parseNumeral .exact batteryStartup (opening ++ [resizedWakeup])).1.log.tail ∧
      buffer.width = 2 ∧
      announcedSize .width (main parseNumeral .exact batteryStartup (opening ++ [resizedWakeup])).1.log.tail = 4 := by
    decide +kernel
  obtain ⟨buffer, hbuffer, hlog, hack, hwidth, hsize⟩ := hrun
  refine ⟨buffer, _, hlog, hack, hbuffer, hwidth, hsize, fun hfollows => ?_⟩
  rw [hlog] at hfollows
  have heq : buffer.width = _ := hfollows.1 rfl buffer hbuffer .width
  rw [hwidth, hsize] at heq
  exact absurd heq (by decide)

end Zlinestatus
