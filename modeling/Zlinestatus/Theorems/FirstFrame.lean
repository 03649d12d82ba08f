import Zlinestatus.Theorems.Resize

/-! The size of the first frame. `main` falls back to a size by orientation where an axis is 0, but the
    state starts with the sizes of the horizontal line and no event sets an axis to 0. -/

namespace Zlinestatus
open Run
variable {parseFloat : Bytes → Option F32} {ar : F32Arith} {session : Session} {client client' : Client} {axis : Axis}

/-- The last non-zero value configured on the axis. -/
def lastConfigured (axis : Axis) (log : List Action) : Option UInt32 := log.findSome? (configuredSize axis)

/-- The size `main` gives to an axis on which every configured value was 0. -/
def fallbackSize (orientation : Orientation) (axis : Axis) : UInt32 :=
  match orientation with
  | .horizontal => axis.pick defaultWidth lineThickness
  | .vertical => axis.pick lineThickness defaultHeight

/-- While `main` waits for the surface, its state holds the sizes announced. -/
def WaitInv : Client × Phase → Prop
  | (client, .registering) => Unregistered client
  | (client, .configuring) => Sized client
  | _ => True

theorem drawFrame_waitInv (io : FrameIO) (width height : UInt32) (percent : F32) (color : Pixel) :
    WaitInv (drawFrame ar session client io width height percent color) := by
  rcases drawFrame_cases io width height percent color with ⟨e, heq⟩ | ⟨drawn, -, ⟨k, e, heq⟩ | heq⟩ <;> rw [heq] <;>
    trivial

theorem waitInv_step (s : Client × Phase) (wakeup : Wakeup) (h : WaitInv s) :
    WaitInv (step parseFloat ar session s wakeup) := by
  obtain ⟨client, phase⟩ := s
  cases phase with
  | registering =>
    exact registerRound_rule unregistered_dispatch (fun _ => id) wakeup (fun _ _ _ => trivial) (fun _ hu => hu)
      (fun _ _ _ _ => trivial) (fun _ hu => sized_of_preliminary (hu.preliminary session) rfl) h
  | configuring =>
    exact configureRound_rule sized_dispatch (fun _ hs => hs.unattached) wakeup (fun _ _ _ => trivial) (fun _ hs => hs)
      (fun _ _ _ _ => drawFrame_waitInv _ _ _ _ _) h
  | running width height =>
    have any : ∀ d, Triple (fun _ => True) (dispatch · d) (fun _ => True) fun _ => True := by
      intro d client _
      change Post _ _ (dispatch client d)
      rcases dispatch client d with ⟨client', e | _⟩ <;> trivial
    exact pollRound_rule any (fun _ => id) width height wakeup (fun _ _ _ => trivial) (fun _ _ _ => trivial)
      (fun _ _ _ _ _ => trivial) (fun _ _ _ _ _ _ _ _ => drawFrame_waitInv _ _ _ _ _) trivial
  | stopped e => trivial

theorem main_waitInv (startup : Startup) (wakeups : List Wakeup) : WaitInv (main parseFloat ar startup wakeups) :=
  main_rule (fun _ hu => hu) (fun _ _ _ => trivial) fun _ _ wakeup _ _ _ hs => waitInv_step _ wakeup hs

/-- The round that ends the wait hands the sizes of its locals to `renderFrame`. -/
theorem configureRound_frame {wakeup : Wakeup} (hrecv : connectionRecv client wakeup.recv = (client', .ok ()))
    (hready : client'.state.surfaceConfigured = true) (hopen : client'.state.closed = false) :
    configureRound ar session client wakeup = drawFrame ar session client' wakeup.io
      (frameSize session client'.state).1 (frameSize session client'.state).2 (.finite 0) session.style.defaultColor := by
  rw [configureRound, hrecv]
  simp only [hready, hopen, Bool.not_true, Bool.false_and, Bool.false_eq_true, if_false]

/-- On one axis, where the state holds the size announced: the first frame has the last non-zero value or
    the fallback exactly when there is such a value or the line is horizontal. -/
theorem frameSize_iff (h : Sized client) (session : Session) (axis : Axis) :
    axis.pick (frameSize session client.state).1 (frameSize session client.state).2 =
        (lastConfigured axis client.log).getD (fallbackSize session.config.orientation axis) ↔
      session.config.orientation = .horizontal ∨ (lastConfigured axis client.log).isSome := by
  have hframe : axis.pick (frameSize session client.state).1 (frameSize session client.state).2 =
      client.state.size axis := by
    rw [h.frameSize]
    rfl
  rw [hframe, ← h.size axis, announcedSize, lastConfigured]
  cases client.log.findSome? (configuredSize axis) with
  | some size => simp
  | none => cases session.config.orientation <;> cases axis <;> decide

/-- In every run the first frame has on each axis the last non-zero value configured before it, or the
    fallback of its orientation, exactly when the line is horizontal or each axis was given such a value. -/
theorem first_frame_size_iff {startup : Startup} {before : List Wakeup} {wakeup : Wakeup}
    (hwait : main parseFloat ar startup before = (client, .configuring))
    (hprepare : prepare startup = .ok session)
    (hrecv : connectionRecv client wakeup.recv = (client', .ok ()))
    (hready : client'.state.surfaceConfigured = true) (hopen : client'.state.closed = false) :
    main parseFloat ar startup (before ++ [wakeup]) = drawFrame ar session client' wakeup.io
      (frameSize session client'.state).1 (frameSize session client'.state).2 (.finite 0)
      session.style.defaultColor ∧
    ((∀ axis : Axis, axis.pick (frameSize session client'.state).1 (frameSize session client'.state).2 =
        (lastConfigured axis client'.log).getD (fallbackSize session.config.orientation axis)) ↔
      session.config.orientation = .horizontal ∨ ∀ axis, (lastConfigured axis client'.log).isSome) := by
  have hsized : Sized client := by
    have hinv : WaitInv (main parseFloat ar startup before) := main_waitInv startup before
    rwa [hwait] at hinv
  have hsized' : Sized client' := by
    have hpost := connectionRecv_triple sized_dispatch (fun _ hs => hs.unattached) wakeup.recv client hsized
    change Post _ _ (connectionRecv client wakeup.recv) at hpost
    rwa [hrecv] at hpost
  constructor
  · rw [main, hprepare] at hwait ⊢
    dsimp only at hwait ⊢
    rw [List.foldl_append, hwait, List.foldl_cons, List.foldl_nil]
    exact configureRound_frame hrecv hready hopen
  · simp only [frameSize_iff hsized']
    exact forall_or_left

/-- The first frame after a configure event of 2 columns and one row has that size. -/
theorem opening_first_frame : ∃ session client', prepare batteryStartup = .ok session ∧
    main parseNumeral .exact batteryStartup opening =
      drawFrame .exact session client' freshIO 2 1 (.finite 0) session.style.defaultColor := by
  obtain ⟨session, hprepare⟩ : ∃ session, prepare batteryStartup = .ok session := ⟨_, rfl⟩
  have hphase : (main parseNumeral .exact batteryStartup [registryWakeup]).2 = .configuring := opening_phases.2.1
  generalize hclient : (main parseNumeral .exact batteryStartup [registryWakeup]).1 = client at *
  have hrecv : (connectionRecv client configureWakeup.recv).2 = .ok () ∧
      (connectionRecv client configureWakeup.recv).1.state = ⟨true, 2, 1, false⟩ ∧
      lastConfigured .width (connectionRecv client configureWakeup.recv).1.log = some 2 ∧
      lastConfigured .height (connectionRecv client configureWakeup.recv).1.log = some 1 := by
    rw [← hclient]
    decide +kernel
  obtain ⟨hok, hstate, hwidth, hheight⟩ := hrecv
  obtain ⟨hdraw, hsize⟩ := first_frame_size_iff (Prod.ext hclient hphase) hprepare (Prod.ext rfl hok)
    (by rw [hstate]) (by rw [hstate])
  have hevery : ∀ axis, (lastConfigured axis (connectionRecv client configureWakeup.recv).1.log).isSome := by
    rintro (_ | _) <;> simp only [hwidth, hheight, Option.isSome_some]
  have hframe := hsize.mpr (Or.inr hevery)
  have hw := hframe .width
  have hh := hframe .height
  simp only [hwidth, hheight, Axis.pick, Option.getD_some] at hw hh
  rw [hw, hh] at hdraw
  exact ⟨session, _, hprepare, hdraw⟩

/-- `zlinestatus -type battery -orientation vertical`, without a style file. -/
def verticalStartup : Startup :=
  { batteryStartup with args := batteryStartup.args ++ [ascii "-orientation", ascii "vertical"] }

/-- A configure event of serial 7 that leaves both sizes to the client. -/
def zeroWakeup : Wakeup := { recv := ⟨[⟨.layerSurface (.configure 7 0 0), true⟩], true⟩, io := freshIO }

/-- The vertical line is drawn 1920 columns wide and 3 rows high, not 3 columns wide and 1080 rows high. -/
theorem vertical_first_frame :
    (parseArgs verticalStartup.args).toOption.map (·.orientation) = some .vertical ∧
    (main parseNumeral .exact verticalStartup [registryWakeup]).2 = .configuring ∧
    (main parseNumeral .exact verticalStartup [registryWakeup, zeroWakeup]).2 = .running 1920 3 ∧
    .dispatched (.layerSurface (.configure 7 0 0)) ∈
      (main parseNumeral .exact verticalStartup [registryWakeup, zeroWakeup]).1.log ∧
    (lastConfigured .width (main parseNumeral .exact verticalStartup [registryWakeup, zeroWakeup]).1.log).getD
      (fallbackSize .vertical .width) = 3 ∧
    (lastConfigured .height (main parseNumeral .exact verticalStartup [registryWakeup, zeroWakeup]).1.log).getD
      (fallbackSize .vertical .height) = 1080 := by
  decide +kernel

end Zlinestatus
