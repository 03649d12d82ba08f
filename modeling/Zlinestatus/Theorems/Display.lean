import Zlinestatus.Theorems.Resize
import Zlinestatus.Theorems.Withheld

/-! What is on the screen: at the head of the poll loop, the frame of the last message accepted, as it is
    drawn on a blank buffer. -/

namespace Zlinestatus
open Run
variable {parseFloat : Bytes → Option F32} {ar : F32Arith} {session : Session} {client client' : Client}
  {width height : UInt32}

/-! ### The frame shown and the frame due -/

/-- The message accepted last. -/
def lastAccepted (parseFloat : Bytes → Option F32) (ar : F32Arith) (log : List Action) : Option ParsedMessage :=
  log.findSome? (acceptedMessage parseFloat ar)

/-- How many messages were accepted. -/
def acceptedCount (parseFloat : Bytes → Option F32) (ar : F32Arith) (log : List Action) : ℕ :=
  log.countP fun a => (acceptedMessage parseFloat ar a).isSome

/-- The buffer that the last commit shows. -/
def lastCommitted : List Action → Option WlBuffer
  | [] => none
  | .sent .commit :: earlier => lastAttach earlier
  | _ :: earlier => lastCommitted earlier

/-- The percentage of the frame that is due, and its colour. -/
def duePercent (last : Option ParsedMessage) : F32 := last.elim (.finite 0) fun message => message.percent

/-- The colour of the frame that is due. -/
def dueColor (session : Session) (last : Option ParsedMessage) : Pixel :=
  last.elim session.style.defaultColor fun message => pickColorForStates session.style message.states

/-- The frame of a message, or that of none, drawn on a blank buffer. -/
def dueFrame (ar : F32Arith) (session : Session) (width height : UInt32) (last : Option ParsedMessage) :
    Option WlBuffer :=
  (drawPercent ar (List.replicate (width.toNat * height.toNat) transparent) width.toNat height.toNat (duePercent last)
    session.config.orientation session.config.alignment (dueColor session last)).map
    (frameBuffer width.toNat height.toNat)

section
variable (parseFloat : Bytes → Option F32) (ar : F32Arith) (session : Session) (width height : UInt32)

/-- A commit shows the frame that was due. -/
abbrev ShowsAt : Action → List Action → Prop :=
  FrameAt fun buffer earlier =>
    dueFrame ar session width height (lastAccepted parseFloat ar earlier) = some buffer

/-- Every frame was due, the last one still is, and there were no other commits than that of the set-up,
    that of the first frame and one for each message accepted. -/
structure Displays (log : List Action) : Prop where
  shows : AtEach (ShowsAt parseFloat ar session width height) log
  current : ∃ buffer, lastCommitted log = some buffer ∧
    dueFrame ar session width height (lastAccepted parseFloat ar log) = some buffer
  commits : log.count (.sent .commit) = acceptedCount parseFloat ar log + 2

end

/-! ### The invariant -/

/-- Before the first frame nothing is attached or accepted, and the set-up is committed. -/
structure Blank (parseFloat : Bytes → Option F32) (ar : F32Arith) (log : List Action) : Prop where
  unattached : ∀ a ∈ log, attachedBuffer a = none
  unaccepted : ∀ a ∈ log, acceptedMessage parseFloat ar a = none
  commits : log.count (.sent .commit) = 1

/-- What is on the screen in each phase of `main`. -/
def DisplayInv (parseFloat : Bytes → Option F32) (ar : F32Arith) (session : Session) : Client × Phase → Prop
  | (client, .registering) => Unregistered client
  | (client, .configuring) => Blank parseFloat ar client.log
  | (client, .running width height) => Displays parseFloat ar session width height client.log
  | (client, .stopped _) => ∃ width height, AtEach (ShowsAt parseFloat ar session width height) client.log

theorem lastCommitted_append {new : List Action} (h : ∀ a ∈ new, a ≠ .sent .commit) (log : List Action) :
    lastCommitted (new ++ log) = lastCommitted log := by
  induction new with
  | nil => rfl
  | cons a new ih =>
    rw [List.cons_append, lastCommitted]
    · exact ih fun b hb => h b (List.mem_cons_of_mem a hb)
    · exact h a List.mem_cons_self

theorem commits_append {new : List Action} (h : ∀ a ∈ new, a ≠ .sent .commit) (log : List Action) :
    (new ++ log).count (.sent .commit) = log.count (.sent .commit) := by
  rw [List.count_append, List.count_eq_zero.mpr fun hmem => h _ hmem rfl, zero_add]

theorem acceptedCount_eq_zero {log : List Action} (h : ∀ a ∈ log, acceptedMessage parseFloat ar a = none) :
    acceptedCount parseFloat ar log = 0 :=
  List.countP_eq_zero.mpr fun a ha => by simp [h a ha]

theorem acceptedCount_append {new : List Action} (h : ∀ a ∈ new, acceptedMessage parseFloat ar a = none)
    (log : List Action) : acceptedCount parseFloat ar (new ++ log) = acceptedCount parseFloat ar log := by
  rw [acceptedCount, List.countP_append]
  exact (congrArg (· + _) (acceptedCount_eq_zero h)).trans (zero_add _)

theorem Blank.shows {log : List Action} (h : Blank parseFloat ar log) (session : Session) (width height : UInt32) :
    AtEach (ShowsAt parseFloat ar session width height) log :=
  frames_of_unattached h.unattached

theorem Displays.extend {new log : List Action} (h : Displays parseFloat ar session width height log)
    (hunaccepted : ∀ a ∈ new, acceptedMessage parseFloat ar a = none) (hne : ∀ a ∈ new, a ≠ .sent .commit) :
    Displays parseFloat ar session width height (new ++ log) where
  shows := frames_append h.shows hne
  current := by
    rw [lastCommitted_append hne, lastAccepted, findSome?_append_of_none hunaccepted]
    exact h.current
  commits := by
    rw [commits_append hne, acceptedCount_append hunaccepted]
    exact h.commits

theorem Blank.extend {new log : List Action} (h : Blank parseFloat ar log)
    (hnew : ∀ a ∈ new, Unseen parseFloat ar a) : Blank parseFloat ar (new ++ log) where
  unattached a ha := (List.mem_append.mp ha).elim (fun hn => (hnew a hn).unattached) (h.unattached a)
  unaccepted a ha := (List.mem_append.mp ha).elim (fun hn => (hnew a hn).unaccepted) (h.unaccepted a)
  commits := by
    rw [commits_append fun a ha => (hnew a ha).ne_commit]
    exact h.commits

/-! ### Dispatches -/

theorem blank_dispatch (d : Dispatch) : Triple (fun client => Blank parseFloat ar client.log) (dispatch · d)
    (fun client => Blank parseFloat ar client.log) fun client => Blank parseFloat ar client.log :=
  dispatch_keeps (fun _ _ => Blank.extend) d

theorem displays_dispatch (d : Dispatch) :
    Triple (fun client => Displays parseFloat ar session width height client.log) (dispatch · d)
      (fun client => Displays parseFloat ar session width height client.log)
      fun client => Displays parseFloat ar session width height client.log :=
  dispatch_keeps (fun _ _ h hnew => h.extend (fun a ha => (hnew a ha).unaccepted) fun a ha => (hnew a ha).ne_commit) d

/-! ### Frames -/

theorem displays_frame {log : List Action} {buffer : WlBuffer}
    (hshows : AtEach (ShowsAt parseFloat ar session width height) log)
    (hcommits : log.count (.sent .commit) = acceptedCount parseFloat ar log + 1)
    (hdue : dueFrame ar session width height (lastAccepted parseFloat ar log) = some buffer) :
    Displays parseFloat ar session width height (((frameRequests buffer).map .sent).reverse ++ log) where
  shows := frames_append_frame hshows hdue
  current := ⟨buffer, rfl, hdue⟩
  commits := by
    have hone : (((frameRequests buffer).map Action.sent).reverse).count (.sent .commit) = 1 := by simp [frameRequests]
    rw [List.count_append, hone, acceptedCount_append (by simp [frameRequests, acceptedMessage]), hcommits]
    omega

/-- Drawing the frame that is due shows it, or stops with all frames up to then as they were due. -/
theorem displayInv_drawFrame (client : Client) (last : Option ParsedMessage)
    (hshows : AtEach (ShowsAt parseFloat ar session width height) client.log)
    (hcommits : client.log.count (.sent .commit) = acceptedCount parseFloat ar client.log + 1)
    (hlast : lastAccepted parseFloat ar client.log = last) (io : FrameIO) :
    DisplayInv parseFloat ar session
      (drawFrame ar session client io width height (duePercent last) (dueColor session last)) := by
  rcases drawFrame_cases io width height (duePercent last) (dueColor session last) with ⟨e, heq⟩ |
    ⟨drawn, hdrawn, hsent⟩
  · rw [heq]
    exact ⟨width, height, hshows⟩
  · have hdue : dueFrame ar session width height (lastAccepted parseFloat ar client.log) =
        some (frameBuffer width.toNat height.toNat drawn) := by
      rw [hlast, dueFrame, hdrawn, Option.map_some]
    have hframe := displays_frame hshows hcommits hdue
    rcases hsent with ⟨k, e, heq⟩ | heq
    · rw [heq]
      exact ⟨width, height, hframe.shows.of_suffix (record_take_suffix k _)⟩
    · rw [heq]
      exact hframe

/-! ### Runs -/

theorem Unregistered.blank (h : Unregistered client) (session : Session) :
    Blank parseFloat ar (client.record ((surfaceRequests session).map .sent)).log where
  unattached a ha := (h.preliminary session a ha).unattached
  unaccepted a ha := (h.preliminary session a ha).unaccepted
  commits := by
    have hzero : client.log.count (.sent .commit) = 0 :=
      List.count_eq_zero.mpr fun hmem => (h.quiet _ hmem).ne_commit rfl
    rw [record_log, List.count_append, hzero]
    cases ho : session.config.orientation <;> simp [surfaceRequests, ho]

theorem Unregistered.shows (h : Unregistered client) (session : Session) (width height : UInt32) :
    AtEach (ShowsAt parseFloat ar session width height) client.log :=
  frames_of_unattached fun a ha => (h.quiet a ha).preliminary.unattached

theorem displayInv_step (s : Client × Phase) (wakeup : Wakeup) (h : DisplayInv parseFloat ar session s) :
    DisplayInv parseFloat ar session (step parseFloat ar session s wakeup) := by
  obtain ⟨client, phase⟩ := s
  cases phase with
  | registering =>
    exact registerRound_rule unregistered_dispatch (fun _ => id) wakeup (fun c e hu => ⟨0, 0, hu.shows session 0 0⟩)
      (fun c hu => hu)
      (fun c k e hu => ⟨0, 0, ((hu.blank session).shows session 0 0).of_suffix (record_take_suffix k _)⟩)
      (fun c hu => hu.blank session) h
  | configuring =>
    refine configureRound_rule blank_dispatch (fun _ => id) wakeup (fun c e hb => ⟨0, 0, hb.shows session 0 0⟩)
      (fun c hb => hb) ?_ h
    intro c hb _ _
    refine displayInv_drawFrame c none (hb.shows session _ _) ?_ (List.findSome?_eq_none_iff.mpr hb.unaccepted) wakeup.io
    rw [hb.commits, acceptedCount_eq_zero hb.unaccepted]
  | running width height =>
    refine pollRound_rule displays_dispatch (fun _ => id) width height wakeup
      (fun c e hd => ⟨width, height, hd.shows⟩) (fun c hd _ => hd) ?_ ?_ h
    · intro c bytes hd _ hrejected
      have hextend : Displays parseFloat ar session width height ([.delivered bytes] ++ c.log) :=
        hd.extend (by simpa [acceptedMessage] using hrejected) (by simp)
      exact hextend
    · intro c bytes message _ hd _ _ haccepted
      refine displayInv_drawFrame (c.record [.delivered bytes]) (some message)
        (frames_append hd.shows (by simp)) ?_ ?_ wakeup.io
      · have hone : acceptedCount parseFloat ar (.delivered bytes :: c.log) = acceptedCount parseFloat ar c.log + 1 :=
          List.countP_cons_of_pos (by simp [acceptedMessage, haccepted])
        change (.delivered bytes :: c.log).count _ = acceptedCount parseFloat ar (.delivered bytes :: c.log) + 1
        rw [List.count_cons_of_ne (by simp), hd.commits, hone]
      · simp [lastAccepted, acceptedMessage, haccepted]
  | stopped e => exact h

/-- At the head of the poll loop the screen shows the frame of the last message accepted, drawn as on a
    blank buffer, and each frame before was due when it was committed. Deliveries that yield no message
    leave their bytes in the log, and nothing else. -/
theorem display_last_accepted (parseFloat : Bytes → Option F32) (ar : F32Arith) (startup : Startup)
    (wakeups : List Wakeup) (session : Session) (hprepare : prepare startup = .ok session) :
    (∀ width height, (main parseFloat ar startup wakeups).2 = .running width height →
      Displays parseFloat ar session width height (main parseFloat ar startup wakeups).1.log) ∧
    (∃ width height, AtEach (ShowsAt parseFloat ar session width height)
      (main parseFloat ar startup wakeups).1.log) ∧
    view (main parseFloat ar startup (wakeups.map (·.withheld parseFloat ar))) =
      view (main parseFloat ar startup wakeups) := by
  have hinv : DisplayInv parseFloat ar session (main parseFloat ar startup wakeups) := by
    refine main_rule (fun c hu => hu) (fun c e hu => ⟨0, 0, hu.shows session 0 0⟩) ?_
    intro session' before wakeup after hprepare' _ hs
    obtain rfl : session = session' := Except.ok.inj (hprepare.symm.trans hprepare')
    exact displayInv_step _ wakeup hs
  refine ⟨?_, ?_, main_withheld startup wakeups⟩ <;>
    rcases hmain : main parseFloat ar startup wakeups with ⟨client, phase⟩ <;> rw [hmain] at hinv
  · rintro width height rfl
    exact hinv
  · cases phase with
    | registering => exact ⟨0, 0, hinv.shows session 0 0⟩
    | configuring => exact ⟨0, 0, hinv.shows session 0 0⟩
    | running width height => exact ⟨width, height, hinv.shows⟩
    | stopped e => exact hinv

/-- `50`, then an empty delivery, then one without a number. -/
def fiftyRun : List Wakeup :=
  opening ++ [fiftyWakeup, { io := freshIO, socketIn := true, delivery := .bytes [] },
    { io := freshIO, socketIn := true, delivery := .bytes (ascii "high\n") }]

/-- The last frame is a white pixel and a transparent one. -/
theorem fiftyRun_displayed : ∃ session, prepare batteryStartup = .ok session ∧
    lastAccepted parseNumeral .exact (main parseNumeral .exact batteryStartup fiftyRun).1.log =
      some ⟨.finite 50, [], by simp⟩ ∧
    lastCommitted (main parseNumeral .exact batteryStartup fiftyRun).1.log =
      some ⟨[255, 255, 255, 255, 0, 0, 0, 0], 2, 1, 8, .argb8888⟩ ∧
    Displays parseNumeral .exact session 2 1 (main parseNumeral .exact batteryStartup fiftyRun).1.log := by
  obtain ⟨session, hprepare⟩ : ∃ session, prepare batteryStartup = .ok session := ⟨_, rfl⟩
  have hrun : (main parseNumeral .exact batteryStartup fiftyRun).2 = .running 2 1 ∧
      lastAccepted parseNumeral .exact (main parseNumeral .exact batteryStartup fiftyRun).1.log =
        some ⟨.finite 50, [], by simp⟩ ∧
      lastCommitted (main parseNumeral .exact batteryStartup fiftyRun).1.log =
        some ⟨[255, 255, 255, 255, 0, 0, 0, 0], 2, 1, 8, .argb8888⟩ := by
    decide +kernel
  obtain ⟨hrunning, haccepted, hcommitted⟩ := hrun
  exact ⟨session, hprepare, haccepted, hcommitted, (display_last_accepted _ _ _ _ session hprepare).1 2 1 hrunning⟩

end Zlinestatus
