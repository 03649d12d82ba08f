import Zlinestatus.Model.Main
import Zlinestatus.Theorems.Frame

/-! What one round of `main` can do: an event reaches the log and the state in one of three ways, a frame
    is sent as a whole or `main` stops, and an invariant of the dispatches is one of the rounds. -/

namespace Zlinestatus
open Run
variable {parseFloat : Bytes → Option F32} {ar : F32Arith} {session : Session} {client client' : Client} {d : Dispatch}

/-! ### Dispatches -/

@[simp] theorem record_log (actions : List Action) : (client.record actions).log = actions.reverse ++ client.log := rfl

/-- Where only some of the requests are sent, the others are missing from the log. -/
theorem record_take_drop (k : ℕ) (requests : List Request) :
    (client.record (requests.map .sent)).log =
      ((requests.drop k).map .sent).reverse ++ (client.record ((requests.take k).map .sent)).log := by
  rw [record_log, record_log, ← List.append_assoc, ← List.reverse_append, ← List.map_append, List.take_append_drop]

theorem record_take_suffix (k : ℕ) (requests : List Request) :
    (client.record ((requests.take k).map .sent)).log <:+ (client.record (requests.map .sent)).log :=
  ⟨_, (record_take_drop k requests).symm⟩

def AppState.configure (state : AppState) (width height : UInt32) : AppState :=
  { state with
    width := if 0 < width then width else state.width
    height := if 0 < height then height else state.height
    surfaceConfigured := true }

/-- An entry that no rule about the surface looks at. -/
def Quiet : Action → Prop
  | .dispatched (.layerSurface _) => False
  | .dispatched _ => True
  | .sent .getRegistry => True
  | .sent .sync => True
  | .sent (.bind _) => True
  | _ => False

theorem dispatch_layerSurface (h : dispatch client d = (client', .ok ())) :
    client'.layerSurface = client.layerSurface := by
  unfold dispatch at h
  split at h
  · unfold onRegistryEvent at h
    split at h
    · split at h
      · cases h
        rfl
      · cases h
    · cases h
      rfl
  · cases h
    rfl
  · next event _ =>
    split at h
    · cases event with
      | configure serial width height =>
        simp only [onLayerSurfaceEvent] at h
        split at h
        · cases h
          rfl
        · cases h
      | closed =>
        cases h
        rfl
    · cases h
  · cases h
    rfl

/-- A dispatch that succeeds acknowledges a configure event, notes that the surface is closed, or leaves
    the surface alone. -/
theorem dispatch_ok (h : dispatch client d = (client', .ok ())) :
    (∃ serial width height, client.layerSurface = true ∧ d.event = .layerSurface (.configure serial width height) ∧
      client'.log = [.sent (.ackConfigure serial), .dispatched d.event] ++ client.log ∧
      client'.state = client.state.configure width height) ∨
    (client.layerSurface = true ∧ d.event = .layerSurface .closed ∧
      client'.log = [.dispatched d.event] ++ client.log ∧ client'.state = { client.state with closed := true }) ∨
    ((∀ event, d.event ≠ .layerSurface event) ∧ client'.state = client.state ∧
      ∃ new, client'.log = new ++ client.log ∧ ∀ a ∈ new, Quiet a) := by
  unfold dispatch at h
  split at h
  · next interface version hevent =>
    refine Or.inr (Or.inr ⟨by simp [hevent], ?_⟩)
    unfold onRegistryEvent at h
    split at h
    · split at h
      · cases h
        exact ⟨rfl, [.sent (.bind interface), .dispatched d.event], rfl, by simp [Quiet, hevent]⟩
      · cases h
    · cases h
      exact ⟨rfl, [.dispatched d.event], rfl, by simp [Quiet, hevent]⟩
  · next hevent =>
    cases h
    exact Or.inr (Or.inr ⟨by simp [hevent], rfl, [.dispatched d.event], rfl, by simp [Quiet, hevent]⟩)
  · next event hevent =>
    split at h
    · next hsurface =>
      cases event with
      | configure serial width height =>
        simp only [onLayerSurfaceEvent] at h
        split at h
        · cases h
          exact Or.inl ⟨serial, width, height, hsurface, hevent, rfl, rfl⟩
        · cases h
      | closed =>
        cases h
        exact Or.inr (Or.inl ⟨hsurface, hevent, rfl, rfl⟩)
    · cases h
  · next hevent =>
    cases h
    exact Or.inr (Or.inr ⟨by simp [hevent], rfl, [.dispatched d.event], rfl, by simp [Quiet, hevent]⟩)

/-- A dispatch that fails leaves at most its event in the log. -/
theorem dispatch_error {e : Error} (h : dispatch client d = (client', .error e)) :
    client'.layerSurface = client.layerSurface ∧
      (client'.log = client.log ∨ client'.log = [.dispatched d.event] ++ client.log ∧
        (client.layerSurface = true ∨ Quiet (.dispatched d.event))) := by
  unfold dispatch at h
  split at h
  · next interface version hevent =>
    unfold onRegistryEvent at h
    split at h
    · split at h
      · cases h
      · cases h
        exact ⟨rfl, Or.inr ⟨rfl, Or.inr (by simp [Quiet, hevent])⟩⟩
    · cases h
  · cases h
  · next event hevent =>
    split at h
    · next hsurface =>
      cases event with
      | configure serial width height =>
        simp only [onLayerSurfaceEvent] at h
        split at h
        · cases h
        · cases h
          exact ⟨rfl, Or.inr ⟨rfl, Or.inl hsurface⟩⟩
      | closed => cases h
    · cases h
      exact ⟨rfl, Or.inl rfl⟩
  · cases h

/-- While there is no layer surface, nothing that concerns it is in the log. -/
structure Unregistered (client : Client) : Prop where
  layerSurface : client.layerSurface = false
  quiet : ∀ a ∈ client.log, Quiet a

theorem unregistered_dispatch (d : Dispatch) : Triple Unregistered (dispatch · d) Unregistered Unregistered := by
  intro client hu
  change Post _ _ (dispatch client d)
  rcases hd : dispatch client d with ⟨client', _ | _⟩
  · obtain ⟨hlayer, hlog | ⟨hlog, hsurface | hquiet⟩⟩ := dispatch_error hd
    · exact ⟨hlayer.trans hu.layerSurface, hlog ▸ hu.quiet⟩
    · rw [hu.layerSurface] at hsurface
      cases hsurface
    · refine ⟨hlayer.trans hu.layerSurface, fun a ha => ?_⟩
      rw [hlog, List.singleton_append] at ha
      rcases List.mem_cons.mp ha with rfl | ha
      · exact hquiet
      · exact hu.quiet a ha
  · have hlayer := (dispatch_layerSurface hd).trans hu.layerSurface
    rcases dispatch_ok hd with ⟨_, _, _, hsurface, -⟩ | ⟨hsurface, -⟩ | ⟨-, -, new, hlog, hquiet⟩
    · rw [hu.layerSurface] at hsurface
      cases hsurface
    · rw [hu.layerSurface] at hsurface
      cases hsurface
    · refine ⟨hlayer, fun a ha => ?_⟩
      rw [hlog] at ha
      rcases List.mem_append.mp ha with ha | ha
      · exact hquiet a ha
      · exact hu.quiet a ha

/-- An entry of the time before the first event of the layer surface. -/
def Preliminary : Action → Prop
  | .dispatched (.layerSurface _) => False
  | .dispatched _ => True
  | .sent (.ackConfigure _) => False
  | .sent (.attach _) => False
  | .sent _ => True
  | .delivered _ => False

theorem Quiet.preliminary {a : Action} (h : Quiet a) : Preliminary a := by
  cases a with
  | dispatched event => cases event <;> first | exact h.elim | trivial
  | sent request => cases request <;> first | exact h.elim | trivial
  | delivered bytes => exact h.elim

/-- The set-up of the surface attaches no buffer, and nothing is configured or closed before it. -/
theorem Unregistered.preliminary (h : Unregistered client) (session : Session) :
    ∀ a ∈ (client.record ((surfaceRequests session).map .sent)).log, Preliminary a := by
  intro a ha
  rw [record_log] at ha
  rcases List.mem_append.mp ha with ha | ha
  · obtain ⟨request, hr, rfl⟩ := List.mem_map.mp (List.mem_reverse.mp ha)
    cases ho : session.config.orientation <;> simp only [surfaceRequests, ho, List.cons_append, List.nil_append,
      List.mem_cons, List.not_mem_nil, or_false] at hr <;>
      rcases hr with rfl | rfl | rfl | rfl | rfl | rfl | rfl <;> trivial
  · exact (h.quiet a ha).preliminary

theorem begin_unregistered (sends : ℕ) :
    ∃ client, Unregistered client ∧ (begin sends = (client, .registering) ∨ ∃ e, begin sends = (client, .stopped e)) := by
  have hquiet : ∀ k, Unregistered (({} : Client).record ((([.getRegistry, .sync] : List Request).take k).map .sent)) := by
    refine fun k => ⟨rfl, fun a ha => ?_⟩
    simp only [record_log, List.append_nil, List.mem_reverse] at ha
    obtain ⟨r, hr, rfl⟩ := List.mem_map.mp ha
    have hr := List.mem_of_mem_take hr
    simp only [List.mem_cons, List.not_mem_nil, or_false] at hr
    rcases hr with rfl | rfl <;> trivial
  refine ⟨_, hquiet sends, ?_⟩
  unfold begin
  simp only [Client.send, sendAll]
  by_cases hsent : ([.getRegistry, .sync] : List Request).length < sends
  · exact Or.inl (by rw [if_pos hsent])
  · exact Or.inr ⟨.connection, by rw [if_neg hsent]⟩

/-! ### Rounds

An invariant `P` of the dispatches, `E` where one of them fails, is carried through a round to what holds
at its end. -/

section
variable {P E : Client → Prop} {J : Client × Phase → Prop} (h : ∀ d, Triple P (dispatch · d) P E)
  (hstop : ∀ client, P client → E client)
include h hstop

theorem connectionRecv_triple (recv : Recv) : Triple P (connectionRecv · recv) P E := by
  intro client hP
  have hloop : Post P E (each dispatch client recv.events) := Triple.each h recv.events client hP
  change Post P E (connectionRecv client recv)
  unfold connectionRecv
  split
  · next client₁ heq =>
    rw [heq] at hloop
    cases recv.ok with
    | true => exact hloop
    | false => exact hstop _ hloop
  · exact hloop

/-- The first half of a round of the poll loop ends with the surface open. -/
theorem pollConnection_triple (wakeup : Wakeup) :
    Triple P (pollConnection · wakeup) (fun client => P client ∧ client.state.closed = false) E := by
  intro client hP
  have hrecv : Post P E (if wakeup.connectionIn then connectionRecv client wakeup.recv else (client, .ok ())) := by
    split
    · exact connectionRecv_triple h hstop wakeup.recv client hP
    · exact hP
  change Post _ E (pollConnection client wakeup)
  unfold pollConnection
  split
  · exact hstop _ hP
  · split
    · next client₁ e heq =>
      rw [heq] at hrecv
      exact hrecv
    · next client₁ heq =>
      rw [heq] at hrecv
      split
      · exact hstop _ hrecv
      · split
        · exact hstop _ hrecv
        · next hclosed => exact ⟨hrecv, by simpa using hclosed⟩

theorem registerRound_rule (wakeup : Wakeup) (stop : ∀ client e, E client → J (client, .stopped e))
    (wait : ∀ client, P client → J (client, .registering))
    (partly : ∀ client k e, P client →
      J (client.record (((surfaceRequests session).take k).map .sent), .stopped e))
    (ready : ∀ client, P client → J ({ client.record ((surfaceRequests session).map .sent) with
      layerSurface := true, state := {} }, .configuring)) :
    P client → J (registerRound session client wakeup) := by
  intro hP
  have hrecv := connectionRecv_triple h hstop wakeup.recv client hP
  change Post P E (connectionRecv client wakeup.recv) at hrecv
  unfold registerRound
  split
  · next client₁ e heq =>
    rw [heq] at hrecv
    exact stop _ _ hrecv
  · next client₁ heq =>
    rw [heq] at hrecv
    replace hrecv : P client₁ := hrecv
    split
    · exact wait _ hrecv
    · split
      · exact stop _ _ (hstop _ hrecv)
      · split
        · exact stop _ _ (hstop _ hrecv)
        · split
          · exact stop _ _ (hstop _ hrecv)
          · simp only [Client.send, sendAll]
            by_cases hsent : (surfaceRequests session).length < wakeup.io.sends
            · rw [if_pos hsent, List.take_of_length_le hsent.le]
              exact ready _ hrecv
            · rw [if_neg hsent]
              exact partly _ _ _ hrecv

theorem configureRound_rule (wakeup : Wakeup) (stop : ∀ client e, E client → J (client, .stopped e))
    (wait : ∀ client, P client → J (client, .configuring))
    (frame : ∀ client, P client → client.state.surfaceConfigured = true → client.state.closed = false →
      J (drawFrame ar session client wakeup.io (frameSize session client.state).1 (frameSize session client.state).2
        (.finite 0) session.style.defaultColor)) :
    P client → J (configureRound ar session client wakeup) := by
  intro hP
  have hrecv := connectionRecv_triple h hstop wakeup.recv client hP
  change Post P E (connectionRecv client wakeup.recv) at hrecv
  unfold configureRound
  split
  · next client₁ e heq =>
    rw [heq] at hrecv
    exact stop _ _ hrecv
  · next client₁ heq =>
    rw [heq] at hrecv
    replace hrecv : P client₁ := hrecv
    split
    · exact wait _ hrecv
    · next hready =>
      split
      · exact stop _ _ (hstop _ hrecv)
      · next hclosed =>
        rw [Bool.not_eq_true] at hclosed
        exact frame _ hrecv (by simpa [hclosed] using hready) hclosed

theorem pollRound_rule (width height : UInt32) (wakeup : Wakeup) (stop : ∀ client e, E client → J (client, .stopped e))
    (idle : ∀ client, P client → client.state.closed = false → J (client, .running width height))
    (rejected : ∀ client bytes, P client → client.state.closed = false → acceptMessage parseFloat ar bytes = none →
      J (client.record [.delivered bytes], .running width height))
    (accepted : ∀ client₁ bytes message, pollConnection client wakeup = (client₁, .ok ()) → P client₁ →
      client₁.state.closed = false → wakeup.received = some bytes → acceptMessage parseFloat ar bytes = some message →
      J (drawFrame ar session (client₁.record [.delivered bytes]) wakeup.io width height message.percent
        (pickColorForStates session.style message.states))) :
    P client → J (pollRound parseFloat ar session client width height wakeup) := by
  intro hP
  have hpoll := pollConnection_triple h hstop wakeup client hP
  change Post _ E (pollConnection client wakeup) at hpoll
  unfold pollRound
  split
  · next client₁ e heq =>
    rw [heq] at hpoll
    exact stop _ _ hpoll
  · next client₁ heq =>
    rw [heq] at hpoll
    obtain ⟨hP₁, hclosed⟩ : P client₁ ∧ client₁.state.closed = false := hpoll
    split
    · exact idle _ hP₁ hclosed
    · next bytes hbytes =>
      dsimp only
      split
      · next hnone => exact rejected _ _ hP₁ hclosed hnone
      · next message hsome => exact accepted _ _ _ heq hP₁ hclosed hbytes hsome

end

def frameBuffer (width height : ℕ) (drawn : List Pixel) : WlBuffer :=
  ⟨sliceAsBytes drawn, width, height, width * 4, .argb8888⟩

/-- A frame is drawn as on a blank buffer. All its requests are sent, or `main` stops behind some of them. -/
theorem drawFrame_cases (io : FrameIO) (width height : UInt32) (percent : F32) (color : Pixel) :
    (∃ e, drawFrame ar session client io width height percent color = (client, .stopped e)) ∨
    ∃ drawn, drawPercent ar (List.replicate (width.toNat * height.toNat) transparent) width.toNat height.toNat percent
        session.config.orientation session.config.alignment color = some drawn ∧
      ((∃ k e, drawFrame ar session client io width height percent color =
        (client.record (((frameRequests (frameBuffer width.toNat height.toNat drawn)).take k).map .sent), .stopped e)) ∨
      drawFrame ar session client io width height percent color =
        (client.record ((frameRequests (frameBuffer width.toNat height.toNat drawn)).map .sent),
          .running width height)) := by
  rcases renderFrame_cases ar io width.toNat height.toNat percent session.config.orientation session.config.alignment
    color with ⟨e, heq⟩ | ⟨previous, drawn, hl, -, -, hdrawn, heq⟩
  · exact Or.inl ⟨e, by rw [drawFrame, heq]; rfl⟩
  · rw [drawPercent_blank, hl] at hdrawn
    refine Or.inr ⟨drawn, hdrawn, ?_⟩
    simp only [drawFrame, heq, Client.send, sendAll]
    by_cases hsent : (frameRequests (frameBuffer width.toNat height.toNat drawn)).length < io.sends
    · refine Or.inr ?_
      rw [frameBuffer] at hsent
      rw [if_pos hsent, List.take_of_length_le hsent.le]
      rfl
    · rw [frameBuffer] at hsent
      exact Or.inl ⟨io.sends, .connection, by rw [if_neg hsent]; rfl⟩

/-! ### Frames in the log -/

/-- The buffer that an entry attaches. -/
def attachedBuffer : Action → Option WlBuffer
  | .sent (.attach buffer) => some buffer
  | _ => none

/-- The buffer that was attached last. -/
def lastAttach (log : List Action) : Option WlBuffer := log.findSome? attachedBuffer

/-- A commit shows a good buffer, judged by what stands before it. -/
def FrameAt (Good : WlBuffer → List Action → Prop) (a : Action) (earlier : List Action) : Prop :=
  a = .sent .commit → ∀ buffer, lastAttach earlier = some buffer → Good buffer earlier

section
variable {Good : WlBuffer → List Action → Prop} {log : List Action}

theorem frameAt_of_ne {a : Action} {earlier : List Action} (h : a ≠ .sent .commit) : FrameAt Good a earlier :=
  fun heq => absurd heq h

theorem frames_append {new : List Action} (h : AtEach (FrameAt Good) log) (hne : ∀ a ∈ new, a ≠ .sent .commit) :
    AtEach (FrameAt Good) (new ++ log) :=
  atEach_append.mpr ⟨atEach_of_forall fun a ha _ => frameAt_of_ne (hne a ha), h⟩

theorem frames_of_unattached (h : ∀ a ∈ log, attachedBuffer a = none) : AtEach (FrameAt Good) log := by
  refine atEach_iff.mpr fun later a earlier heq _ buffer hbuffer => ?_
  have hnone : lastAttach earlier = none := List.findSome?_eq_none_iff.mpr fun b hb => h b (by rw [heq]; simp [hb])
  rw [hnone] at hbuffer
  cases hbuffer

/-- The one commit of a frame stands behind its attach. -/
theorem frames_append_frame {buffer : WlBuffer} (h : AtEach (FrameAt Good) log)
    (hgood : Good buffer ([.sent (.damage 0 0 buffer.width buffer.height), .sent (.attach buffer),
      .sent (.createBuffer buffer)] ++ log)) :
    AtEach (FrameAt Good) (((frameRequests buffer).map .sent).reverse ++ log) := by
  refine ⟨fun _ attached hattached => ?_, frames_append h (by simp)⟩
  obtain rfl : buffer = attached := Option.some.inj hattached
  exact hgood

end

theorem Preliminary.unattached {a : Action} (h : Preliminary a) : attachedBuffer a = none := by
  cases a with
  | sent request => cases request <;> first | exact h.elim | rfl
  | _ => rfl

theorem Quiet.ne_commit {a : Action} (h : Quiet a) : a ≠ .sent .commit := by
  rintro rfl
  exact h

/-- The message that an entry brings. -/
def acceptedMessage (parseFloat : Bytes → Option F32) (ar : F32Arith) : Action → Option ParsedMessage
  | .delivered bytes => acceptMessage parseFloat ar bytes
  | _ => none

theorem Preliminary.unaccepted {a : Action} (h : Preliminary a) : acceptedMessage parseFloat ar a = none := by
  cases a with
  | delivered bytes => exact h.elim
  | _ => rfl

/-- An entry that neither shows a frame nor makes one due. -/
structure Unseen (parseFloat : Bytes → Option F32) (ar : F32Arith) (a : Action) : Prop where
  unattached : attachedBuffer a = none
  unaccepted : acceptedMessage parseFloat ar a = none
  ne_commit : a ≠ .sent .commit

/-! ### Unseen entries -/

theorem unseen_dispatched (event : Event) : Unseen parseFloat ar (.dispatched event) := ⟨rfl, rfl, by simp⟩

theorem Quiet.unseen {a : Action} (h : Quiet a) : Unseen parseFloat ar a := by
  cases a with
  | dispatched event => exact unseen_dispatched event
  | sent request => cases request <;> first | exact h.elim | exact ⟨rfl, rfl, by simp⟩
  | delivered bytes => exact h.elim

theorem dispatch_unseen (parseFloat : Bytes → Option F32) (ar : F32Arith) (client : Client) (d : Dispatch) :
    ∃ new, (dispatch client d).1.log = new ++ client.log ∧ ∀ a ∈ new, Unseen parseFloat ar a := by
  rcases hd : dispatch client d with ⟨client', e | _⟩
  · rcases (dispatch_error hd).2 with hlog | ⟨hlog, -⟩
    · exact ⟨[], hlog, by simp⟩
    · exact ⟨_, hlog, by simp [unseen_dispatched]⟩
  · rcases dispatch_ok hd with ⟨serial, width, height, -, -, hlog, -⟩ | ⟨-, -, hlog, -⟩ | ⟨-, -, new, hlog, hquiet⟩
    · refine ⟨_, hlog, fun a ha => ?_⟩
      rcases List.mem_cons.mp ha with rfl | ha
      · exact ⟨rfl, rfl, by simp⟩
      · rw [List.mem_singleton.mp ha]
        exact unseen_dispatched d.event
    · exact ⟨_, hlog, by simp [unseen_dispatched]⟩
    · exact ⟨new, hlog, fun a ha => (hquiet a ha).unseen⟩

/-- What entries like those of a dispatch keep, a dispatch keeps, whether it fails or not. -/
theorem dispatch_keeps {P : List Action → Prop}
    (h : ∀ new log, P log → (∀ a ∈ new, Unseen parseFloat ar a) → P (new ++ log)) (d : Dispatch) :
    Triple (fun client => P client.log) (dispatch · d) (fun client => P client.log) fun client => P client.log := by
  intro client hP
  obtain ⟨new, hlog, hunseen⟩ := dispatch_unseen parseFloat ar client d
  have hpost : P (dispatch client d).1.log := hlog ▸ h new client.log hP hunseen
  change Post _ _ (dispatch client d)
  rcases hd : dispatch client d with ⟨client', e | _⟩ <;> rw [hd] at hpost <;> exact hpost

/-! ### Runs -/

/-- The rule of runs: what holds at the start, and is kept by each round of this run, holds at its end. -/
theorem main_rule {J : Client × Phase → Prop} {startup : Startup} {wakeups : List Wakeup}
    (start : ∀ client, Unregistered client → J (client, .registering))
    (stop : ∀ client e, Unregistered client → J (client, .stopped e))
    (round : ∀ session before wakeup after, prepare startup = .ok session → wakeups = before ++ wakeup :: after →
      J (main parseFloat ar startup before) → J (step parseFloat ar session (main parseFloat ar startup before) wakeup)) :
    J (main parseFloat ar startup wakeups) := by
  cases hprepare : prepare startup with
  | error e =>
    rw [main, hprepare]
    exact stop {} e ⟨rfl, by simp⟩
  | ok session =>
    have hmain : ∀ ws, main parseFloat ar startup ws = ws.foldl (step parseFloat ar session) (begin startup.sends) :=
      fun ws => by rw [main, hprepare]
    rw [hmain]
    refine foldl_of_steps ?_ wakeups fun before wakeup after heq hJ => ?_
    · obtain ⟨client, hu, hbegin | ⟨e, hbegin⟩⟩ := begin_unregistered startup.sends
      · rw [hbegin]
        exact start client hu
      · rw [hbegin]
        exact stop client e hu
    · rw [← hmain] at hJ ⊢
      exact round session before wakeup after hprepare heq hJ

end Zlinestatus
