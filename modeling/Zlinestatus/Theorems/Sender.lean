import Zlinestatus.Model.Sender
import Zlinestatus.Theorems.Interleaving
import Zlinestatus.Theorems.Roundtrip

/-! From the arguments of `zsendvalue` to what the compositor shows. -/

namespace Zlinestatus

/-! ### What is sent -/

section
variable {parseFloat : Bytes → Option F32} {print : F32 → Bytes} {startup : Sender.Startup} {sent : Sender.Sent}

theorem Sender.main_eq_ok (h : Sender.main parseFloat print startup = .ok sent) :
    ∃ program typeArg percentageStr states number xdgRuntimeDir,
      startup.args = program :: ascii "-type" :: typeArg :: percentageStr :: states ∧
      parseFloat percentageStr = some number ∧ startup.xdgRuntimeDir = some xdgRuntimeDir ∧
      sent = ⟨socketPath xdgRuntimeDir typeArg, sentMessage (print number) states⟩ := by
  unfold Sender.main at h
  split at h
  · next program flag typeArg percentageStr states hargs =>
    split at h
    · next hflag =>
      subst hflag
      unfold Sender.send at h
      split at h
      · cases h
      · next number hnumber =>
        split at h
        · cases h
        · next xdgRuntimeDir hdir =>
          -- Each of the four calls has ended well.
          iterate 4
            split at h
            · cases h
          cases h
          exact ⟨program, typeArg, percentageStr, states, number, xdgRuntimeDir, hargs, hnumber, hdir, rfl⟩
    · cases h
  · cases h

/-- Two types have two sockets. -/
theorem socketPath_inj {xdgRuntimeDir typeArg typeArg' : Bytes} :
    socketPath xdgRuntimeDir typeArg = socketPath xdgRuntimeDir typeArg' ↔ typeArg = typeArg' := by
  unfold socketPath
  rw [List.append_left_inj, List.append_right_inj]

/-- What the renderer makes of a message: the number as it was printed, and the states as far as its buffer holds them. -/
theorem Sender.main_accepted (ar : F32Arith) (h : Sender.main parseFloat print startup = .ok sent)
    {program flag typeArg percentageStr : Bytes} {states : List Bytes}
    (hargs : startup.args = program :: flag :: typeArg :: percentageStr :: states) {number : F32}
    (hnumber : parseFloat percentageStr = some number) (hprint : PercentText (print number))
    (hlength : (print number).length < 64) (hparse : parseFloat (print number) = some number)
    (hstates : ∀ s ∈ states, StateName s) :
    ∃ message, acceptMessage parseFloat ar sent.msg = some message ∧ message.percent = scalePercent ar number ∧
      message.states = (Tokens.cut (63 - (print number).length) states).take 16 := by
  obtain ⟨_, _, _, _, _, _, hargs', hnumber', -, rfl⟩ := Sender.main_eq_ok h
  rw [hargs] at hargs'
  cases hargs'
  rw [hnumber] at hnumber'
  cases hnumber'
  obtain ⟨hraw, hread⟩ := messageStates_recv hprint hlength hstates
  refine ⟨⟨scalePercent ar number, _, messageStates_length _⟩, ?_, rfl, hread⟩
  rw [acceptMessage_sent hprint]
  exact parseIncomingMessage_eq_some.mpr ⟨number, by rw [hraw, hparse], rfl, rfl⟩

end

end Zlinestatus

namespace Zlinestatus.Wayland
open Run
open Wire (Object)

/-! ### What is shown -/

section
variable {ar : F32Arith} {session : Session} {w w₁ w₂ : World}

theorem same_size_of_acts {drawer : Drawer} {event : Option (Object × Event)} {renderer : Renderer}
    (hwritten : drawer.renderer.connection.written = []) (h : Drawer.Acts ar session drawer event renderer) :
    SameSize drawer.renderer renderer := by
  cases h with
  | handle hok => exact (handle_frames hwritten hok).2
  | setUp hdone hsurface hok =>
    obtain ⟨-, -, -, -, -, -, -, -, -, -, -, rfl⟩ := setUp_eq_ok hok
    exact .of_eq rfl
  | firstFrame hconfigured hnone hok =>
    intro screen hscreen
    rw [hnone] at hscreen
    cases hscreen
  | nextFrame hclosed hok =>
    intro screen hscreen
    unfold Renderer.nextFrame at hok
    split at hok
    · next surface screen' hsurface hscreen' =>
      obtain ⟨⟨chain, connection⟩, -, rfl⟩ := map_eq_ok.mp hok
      rw [hscreen] at hscreen'
      cases hscreen'
      exact ⟨chain, rfl⟩
    · cases hok

/-- From its first frame on the surface is drawn in one size. -/
theorem same_size_of_reaches (h : Reachable ar session w)
    (hlater : Channel.Reaches compositor (Drawer.step ar session) w w₁) : SameSize w.client.renderer w₁.client.renderer := by
  refine hlater.keeps (P := fun drawer => SameSize w.client.renderer drawer.renderer) (.of_eq rfl)
    fun {v drawer' event requests} hv hsize hstep => ?_
  obtain ⟨c, es, -, hinstep⟩ := caughtUp_of_reachable (h.trans hv)
  obtain ⟨renderer', hact, -, rfl⟩ := hstep
  exact (hsize.trans (same_size_of_acts hinstep.written hact)).trans (.of_eq rfl)

/-- A frame is drawn for a message, and some time later, without another frame, the compositor has taken all requests: it
    shows the buffer that was drawn last, and what was drawn there is the picture of the message, in the size of the
    screen. -/
theorem message_shown (h : Reachable ar session w) {screen : Screen} (hscreen : w.client.renderer.screen = some screen)
    {host : Option UInt32} {message : ParsedMessage} (hturn : w.turn ar session (.nextFrame host message) = some w₁)
    (hlater : Channel.Reaches compositor (Drawer.step ar session) w₁ w₂) (hdrawn : w₂.client.drawn = w₁.client.drawn)
    (hrequests : w₂.requests = []) :
    ∃ o frame, w₂.server.current = some o ∧ w₂.client.drawn.head? = some (o, frame) ∧
      Picture ar screen.width.toNat screen.height.toNat message.percent session.config.orientation
        session.config.alignment (pickColorForStates session.style message.states) frame ∧
      ∀ part, w₂.server.resources o = some (.buffer part .held) → part.width = screen.width.toNat ∧
        part.height = screen.height.toNat ∧ ∃ screen', w₂.client.renderer.screen = some screen' ∧
          screen'.swapChain.read ⟨part.offset, part.stride * part.height⟩ = frame := by
  obtain ⟨c, es, -, hinstep⟩ := caughtUp_of_reachable h
  obtain ⟨-, hacted⟩ := Option.ite_none_left_eq_some.mp hturn
  obtain ⟨renderer, hok, rfl⟩ := acted_eq_some.mp hacted
  obtain ⟨-, screen₀, o, frame, chain, hscreen₀, hframes, hscreen₁, hpicture⟩ := hinstep.synced.message hinstep.written hok
  rw [hscreen] at hscreen₀
  cases hscreen₀
  have hlast : w₂.client.drawn = (o, frame) :: w.client.drawn := by
    rw [hdrawn]
    exact congrArg (· ++ w.client.drawn) hframes
  have h₁ := h.trans (Channel.Reaches.refl.step (turn_step hturn))
  have hcurrent := current_of_taken (h₁.trans hlater) hrequests
  rw [hlast] at hcurrent
  refine ⟨o, frame, hcurrent, congrArg List.head? hlast, hpicture, fun part ho => ?_⟩
  obtain ⟨c', es', hall', -, hsynced, -⟩ := caughtUp_of_reachable (h₁.trans hlater)
  obtain ⟨screen', pool, frame', hscreen', -, -, hwidth, hheight, -, hread, hget⟩ :=
    hsynced.held (acceptAll_held ho hall')
  rw [hlast] at hget
  obtain rfl := Option.some.inj ((if_pos rfl).symm.trans hget)
  obtain ⟨chain', hchain'⟩ := same_size_of_reaches h₁ hlater _ hscreen₁
  rw [hscreen'] at hchain'
  cases hchain'
  exact ⟨hwidth, hheight, _, hscreen', hread⟩

/-- From one process to the other, and to the compositor. A sender that got through to the renderer's socket was run for its
    type. The renderer accepts what it sent, and once the frame for it is drawn and the compositor has taken all requests,
    the screen has the picture of its percentage, in the colour of its states as far as the renderer's buffer holds them. -/
theorem value_shown (ar : F32Arith) (session : Session) {parseFloat : Bytes → Option F32} {print : F32 → Bytes}
    {startup : Sender.Startup} {sent : Sender.Sent} (hsent : Sender.main parseFloat print startup = .ok sent)
    {xdgRuntimeDir : Bytes} (hdir : startup.xdgRuntimeDir = some xdgRuntimeDir)
    (hpath : sent.socketPath = socketPath xdgRuntimeDir session.config.typeArg)
    {program flag typeArg percentageStr : Bytes} {states : List Bytes}
    (hargs : startup.args = program :: flag :: typeArg :: percentageStr :: states) {number : F32}
    (hnumber : parseFloat percentageStr = some number) (hprint : PercentText (print number))
    (hlength : (print number).length < 64) (hparse : parseFloat (print number) = some number)
    (hstates : ∀ s ∈ states, StateName s) :
    flag = ascii "-type" ∧ typeArg = session.config.typeArg ∧ ∃ message,
      acceptMessage parseFloat ar sent.msg = some message ∧
      ∀ {w w₁ w₂ : World} {screen : Screen} {host : Option UInt32}, Reachable ar session w →
        w.client.renderer.screen = some screen → w.turn ar session (.nextFrame host message) = some w₁ →
        Channel.Reaches compositor (Drawer.step ar session) w₁ w₂ → w₂.client.drawn = w₁.client.drawn →
        w₂.requests = [] → ∃ o frame, w₂.server.current = some o ∧ w₂.client.drawn.head? = some (o, frame) ∧
          Picture ar screen.width.toNat screen.height.toNat (scalePercent ar number) session.config.orientation
            session.config.alignment
            (pickColorForStates session.style ((Tokens.cut (63 - (print number).length) states).take 16)) frame ∧
          ∀ part, w₂.server.resources o = some (.buffer part .held) → part.width = screen.width.toNat ∧
            part.height = screen.height.toNat ∧ ∃ screen', w₂.client.renderer.screen = some screen' ∧
              screen'.swapChain.read ⟨part.offset, part.stride * part.height⟩ = frame := by
  obtain ⟨message, hmessage, hpercent, hread⟩ :=
    Sender.main_accepted ar hsent hargs hnumber hprint hlength hparse hstates
  obtain ⟨_, _, _, _, _, _, hargs', -, hdir', rfl⟩ := Sender.main_eq_ok hsent
  rw [hargs] at hargs'
  cases hargs'
  rw [hdir] at hdir'
  cases hdir'
  refine ⟨rfl, socketPath_inj.mp hpath, message, hmessage, ?_⟩
  intro w w₁ w₂ screen host h hscreen hturn hlater hdrawn hrequests
  obtain ⟨o, frame, hcurrent, hlast, hpicture, hheld⟩ := message_shown h hscreen hturn hlater hdrawn hrequests
  rw [hpercent, hread] at hpicture
  exact ⟨o, frame, hcurrent, hlast, hpicture, hheld⟩

/-- `zsendvalue -type battery 50` -/
def batterySender : Sender.Startup where
  args := [ascii "zsendvalue", ascii "-type", ascii "battery", ascii "50"]
  xdgRuntimeDir := some (ascii "/run/user/1000")
  connectOk path := path = socketPath (ascii "/run/user/1000") (ascii "battery")

/-- Half of the surface of 2 pixels: the first frame is released, the second one is taken. -/
theorem fifty_shown : ∃ w o frame, Reachable .exact batterySession w ∧ w.requests = [] ∧ w.server.current = some o ∧
    w.client.drawn.head? = some (o, frame) ∧ Picture .exact 2 1 (.finite 50) .horizontal .center opaqueWhite frame := by
  have hrun : (((World.start begun).turns .exact batterySession (firstFrameTurns ++ [.move (.release 9), .receive])).bind
      fun w => (w.turn .exact batterySession (.nextFrame (some 5) fiftyMessage)).bind fun w₁ =>
        (w₁.turns .exact batterySession (List.replicate 6 .accept)).map fun w₂ =>
          (w.client.renderer.screen.map fun screen => (screen.width, screen.height), w₂.requests,
            decide (w₂.client.drawn = w₁.client.drawn))) = some (some (2, 1), [], true) := by
    decide +kernel
  obtain ⟨w, hw, hrun⟩ := Option.bind_eq_some_iff.mp hrun
  obtain ⟨w₁, hw₁, hrun⟩ := Option.bind_eq_some_iff.mp hrun
  obtain ⟨w₂, hw₂, heq⟩ := Option.map_eq_some_iff.mp hrun
  obtain ⟨hscreen, hrequests, hdrawn⟩ := Prod.mk.inj heq |>.imp id Prod.mk.inj
  obtain ⟨screen, hscreen, hsize⟩ := Option.map_eq_some_iff.mp hscreen
  obtain ⟨hwidth, hheight⟩ := Prod.mk.inj hsize
  have hsent : Sender.main parseNumeral (fun _ => ascii "50") batterySender =
      .ok ⟨socketPath (ascii "/run/user/1000") (ascii "battery"), sentMessage (ascii "50") []⟩ := by
    decide +kernel
  have hprint : PercentText (ascii "50") := .of_all (by decide) (by decide)
  have hparse : parseNumeral (ascii "50") = some (.finite 50) := by decide
  obtain ⟨-, -, message, hmessage, hshown⟩ := value_shown .exact batterySession hsent rfl rfl rfl
    hparse hprint (by decide) hparse (fun _ h => (by cases h))
  have hfifty : acceptMessage parseNumeral .exact (sentMessage (ascii "50") []) = some fiftyMessage := by decide +kernel
  obtain rfl : fiftyMessage = message := Option.some.inj (hfifty.symm.trans hmessage)
  have hstart := reachable_turns reachable_start hw
  obtain ⟨o, frame, hcurrent, hlast, hpicture, -⟩ := hshown hstart hscreen hw₁ (reaches_turns hw₂) (of_decide_eq_true hdrawn) hrequests
  have hpercent : scalePercent .exact (.finite 50) = .finite 50 := by decide +kernel
  rw [hpercent, hwidth, hheight] at hpicture
  exact ⟨w₂, o, frame, (hstart.trans (.step .refl (turn_step hw₁))).trans (reaches_turns hw₂), hrequests, hcurrent,
    hlast, hpicture⟩

end

end Zlinestatus.Wayland
