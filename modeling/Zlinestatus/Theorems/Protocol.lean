import Zlinestatus.Theorems.Steps

/-! The rules of the layer shell, over every run: a buffer is committed only in answer to the last
    configure event, and nothing more once the surface is closed. -/

namespace Zlinestatus
open Run
variable {parseFloat : Bytes → Option F32} {ar : F32Arith} {session : Session} {client : Client}

/-! ### What the log says -/

/-- The serial of a configure event. -/
def configureSerial : Action → Option UInt32
  | .dispatched (.layerSurface (.configure serial _ _)) => some serial
  | _ => none

/-- The serial that an entry acknowledges. -/
def ackSerial : Action → Option UInt32
  | .sent (.ackConfigure serial) => some serial
  | _ => none

/-- The serial configured last. -/
def lastConfigure (log : List Action) : Option UInt32 := log.findSome? configureSerial

/-- The serial acknowledged last. -/
def lastAck (log : List Action) : Option UInt32 := log.findSome? ackSerial

/-- The rules for one entry of the log and the entries before it. -/
structure ProtocolAt (a : Action) (earlier : List Action) : Prop where
  /-- A commit with a buffer attached follows a configure event and the acknowledgement of the last one. -/
  acked : a = .sent .commit → (∃ buffer, .sent (.attach buffer) ∈ earlier) →
    ∃ serial, lastConfigure earlier = some serial ∧ lastAck earlier = some serial
  /-- Neither a commit nor an attach follows the closed event. -/
  opened : (a = .sent .commit ∨ ∃ buffer, a = .sent (.attach buffer)) →
    .dispatched (.layerSurface .closed) ∉ earlier

theorem protocolAt_of_ne {a : Action} {earlier : List Action} (hcommit : a ≠ .sent .commit)
    (hattach : ∀ buffer, a ≠ .sent (.attach buffer)) : ProtocolAt a earlier where
  acked h := absurd h hcommit
  opened := by
    rintro (h | ⟨buffer, h⟩)
    · exact absurd h hcommit
    · exact absurd h (hattach buffer)

theorem Quiet.protocolAt {a : Action} (h : Quiet a) (earlier : List Action) : ProtocolAt a earlier :=
  protocolAt_of_ne (by rintro rfl; exact h) (by rintro buffer rfl; exact h)

/-! ### The invariant -/

/-- The state knows of the log what the rules ask for: whether the surface is closed, and that the last
    configure event is the one acknowledged. -/
structure Orderly (client : Client) : Prop where
  safe : AtEach ProtocolAt client.log
  closed : .dispatched (.layerSurface .closed) ∈ client.log → client.state.closed = true
  acked : lastConfigure client.log = lastAck client.log
  configured : client.state.surfaceConfigured = true → (lastConfigure client.log).isSome

/-- What the rules ask of the log in each phase of `main`. -/
def ProtocolInv : Client × Phase → Prop
  | (client, .registering) => Unregistered client
  | (client, .configuring) => Orderly client
  | (client, .running _ _) => Orderly client ∧ client.state.surfaceConfigured = true
  | (client, .stopped _) => AtEach ProtocolAt client.log

theorem Unregistered.safe (h : Unregistered client) : AtEach ProtocolAt client.log :=
  atEach_of_forall fun a ha earlier => (h.quiet a ha).protocolAt earlier

theorem Preliminary.unread {a : Action} (h : Preliminary a) :
    configureSerial a = none ∧ ackSerial a = none ∧ a ≠ .dispatched (.layerSurface .closed) := by
  cases a with
  | dispatched event => cases event <;> first | exact h.elim | exact ⟨rfl, rfl, by rintro ⟨⟩⟩
  | sent request => cases request <;> first | exact h.elim | exact ⟨rfl, rfl, by rintro ⟨⟩⟩
  | delivered bytes => exact h.elim

/-- Entries that the rules read nothing of keep the invariant, as long as each of them obeys the rules. -/
theorem Orderly.extend {client' : Client} {new : List Action} (h : Orderly client) (hlog : client'.log = new ++ client.log)
    (hstate : client'.state = client.state)
    (hunread : ∀ a ∈ new, configureSerial a = none ∧ ackSerial a = none ∧ a ≠ .dispatched (.layerSurface .closed))
    (hsafe : AtEach (fun a between => ProtocolAt a (between ++ client.log)) new) : Orderly client' := by
  have hconfigure : lastConfigure client'.log = lastConfigure client.log := by
    rw [hlog]
    exact findSome?_append_of_none (fun a ha => (hunread a ha).1) _
  have hack : lastAck client'.log = lastAck client.log := by
    rw [hlog]
    exact findSome?_append_of_none (fun a ha => (hunread a ha).2.1) _
  refine ⟨?_, fun hc => ?_, by rw [hconfigure, hack, h.acked], fun hc => ?_⟩
  · rw [hlog]
    exact atEach_append.mpr ⟨hsafe, h.safe⟩
  · rw [hlog] at hc
    rw [hstate]
    rcases List.mem_append.mp hc with hnew | hold
    · exact absurd rfl (hunread _ hnew).2.2
    · exact h.closed hold
  · rw [hstate] at hc
    rw [hconfigure]
    exact h.configured hc

/-! ### Dispatches -/

theorem orderly_dispatch (d : Dispatch) : Triple Orderly (dispatch · d) Orderly fun client => AtEach ProtocolAt client.log := by
  intro client h
  change Post _ _ (dispatch client d)
  rcases hd : dispatch client d with ⟨client', _ | _⟩
  · rcases (dispatch_error hd).2 with hlog | ⟨hlog, -⟩
    · rw [Post, hlog]
      exact h.safe
    · rw [Post, hlog]
      exact ⟨protocolAt_of_ne (by simp) (by simp), h.safe⟩
  · rcases dispatch_ok hd with ⟨serial, width, height, -, hevent, hlog, hstate⟩ | ⟨-, hevent, hlog, hstate⟩ |
      ⟨-, hstate, new, hlog, hquiet⟩
    · refine ⟨?_, fun hc => ?_, ?_, fun _ => ?_⟩
      · rw [hlog]
        exact ⟨protocolAt_of_ne (by simp) (by simp), protocolAt_of_ne (by simp) (by simp), h.safe⟩
      · rw [hlog, hevent] at hc
        rw [hstate]
        exact h.closed (by simpa using hc)
      · rw [hlog, hevent]
        rfl
      · rw [hlog, hevent]
        rfl
    · refine ⟨?_, fun _ => by rw [hstate], ?_, fun hc => ?_⟩
      · rw [hlog]
        exact ⟨protocolAt_of_ne (by simp) (by simp), h.safe⟩
      · rw [hlog, hevent]
        exact h.acked
      · rw [hstate] at hc
        rw [hlog, hevent]
        exact h.configured hc
    · exact h.extend hlog hstate (fun a ha => (hquiet a ha).preliminary.unread)
        (atEach_of_forall fun a ha between => (hquiet a ha).protocolAt _)

theorem configured_dispatch (d : Dispatch) :
    Triple (fun client => Orderly client ∧ client.state.surfaceConfigured = true) (dispatch · d)
      (fun client => Orderly client ∧ client.state.surfaceConfigured = true)
      fun client => AtEach ProtocolAt client.log := by
  rintro client ⟨h, hconfigured⟩
  have hpost := orderly_dispatch d client h
  change Post _ _ (dispatch client d) at hpost
  change Post _ _ (dispatch client d)
  rcases hd : dispatch client d with ⟨client', _ | _⟩
  · rw [hd] at hpost
    exact hpost
  · rw [hd] at hpost
    refine ⟨hpost, ?_⟩
    rcases dispatch_ok hd with ⟨_, _, _, -, -, -, hstate⟩ | ⟨-, -, -, hstate⟩ | ⟨-, hstate, -⟩
    · rw [hstate]
      rfl
    · rw [hstate]
      exact hconfigured
    · rw [hstate]
      exact hconfigured

/-! ### Frames -/

/-- In a configured and open state any entry behind requests of a frame obeys the rules. -/
theorem Orderly.protocolAt (h : Orderly client) (hconfigured : client.state.surfaceConfigured = true)
    (hclosed : client.state.closed = false) {between : List Action}
    (hunread : ∀ a ∈ between, configureSerial a = none ∧ ackSerial a = none ∧ a ≠ .dispatched (.layerSurface .closed))
    (a : Action) : ProtocolAt a (between ++ client.log) where
  acked _ _ := by
    obtain ⟨serial, hserial⟩ := Option.isSome_iff_exists.mp (h.configured hconfigured)
    have hconfigure : lastConfigure (between ++ client.log) = lastConfigure client.log :=
      findSome?_append_of_none (fun a ha => (hunread a ha).1) _
    have hack : lastAck (between ++ client.log) = lastAck client.log :=
      findSome?_append_of_none (fun a ha => (hunread a ha).2.1) _
    exact ⟨serial, by rw [hconfigure, hserial], by rw [hack, ← h.acked, hserial]⟩
  opened _ hmem := by
    rcases List.mem_append.mp hmem with hnew | hold
    · exact absurd rfl (hunread _ hnew).2.2
    · rw [h.closed hold] at hclosed
      cases hclosed

theorem frameRequests_unread (buffer : WlBuffer) : ∀ a ∈ ((frameRequests buffer).map Action.sent).reverse,
    configureSerial a = none ∧ ackSerial a = none ∧ a ≠ .dispatched (.layerSurface .closed) := by
  intro a ha
  obtain ⟨request, hr, rfl⟩ := List.mem_map.mp (List.mem_reverse.mp ha)
  simp only [frameRequests, List.mem_cons, List.not_mem_nil, or_false] at hr
  rcases hr with rfl | rfl | rfl | rfl <;> exact ⟨rfl, rfl, by simp⟩

theorem Orderly.record_frame (h : Orderly client) (hconfigured : client.state.surfaceConfigured = true)
    (hclosed : client.state.closed = false) (buffer : WlBuffer) :
    Orderly (client.record ((frameRequests buffer).map .sent)) := by
  have hunread := frameRequests_unread buffer
  refine h.extend (record_log _) rfl hunread (atEach_iff.mpr fun later a between heq => ?_)
  exact h.protocolAt hconfigured hclosed (fun b hb => hunread b (by rw [heq]; simp [hb])) a

theorem Orderly.drawFrame (h : Orderly client) (hconfigured : client.state.surfaceConfigured = true)
    (hclosed : client.state.closed = false) (io : FrameIO) (width height : UInt32) (percent : F32) (color : Pixel) :
    ProtocolInv (drawFrame ar session client io width height percent color) := by
  rcases drawFrame_cases io width height percent color with ⟨e, heq⟩ | ⟨drawn, -, ⟨k, e, heq⟩ | heq⟩
  · rw [heq]
    exact h.safe
  · rw [heq]
    exact (h.record_frame hconfigured hclosed _).safe.of_suffix (record_take_suffix k _)
  · rw [heq]
    exact ⟨h.record_frame hconfigured hclosed _, hconfigured⟩

/-! ### Runs -/

theorem orderly_of_preliminary (h : ∀ a ∈ client.log, Preliminary a) (hstate : client.state = {}) : Orderly client := by
  have hconfigure : lastConfigure client.log = none := List.findSome?_eq_none_iff.mpr fun a ha => (h a ha).unread.1
  refine ⟨atEach_iff.mpr fun later a earlier heq => ?_, fun hc => absurd rfl (h _ hc).unread.2.2, ?_, fun hc => ?_⟩
  · have hearlier : ∀ b ∈ earlier, Preliminary b := fun b hb => h b (by rw [heq]; simp [hb])
    exact ⟨fun _ ⟨buffer, hb⟩ => (hearlier _ hb).elim, fun _ hb => (hearlier _ hb).elim⟩
  · rw [hconfigure]
    exact (List.findSome?_eq_none_iff.mpr fun a ha => (h a ha).unread.2.1).symm
  · rw [hstate] at hc
    cases hc

theorem Orderly.record_delivered (h : Orderly client) (bytes : Bytes) : Orderly (client.record [.delivered bytes]) :=
  h.extend (record_log _) rfl (by simp [configureSerial, ackSerial])
    ⟨protocolAt_of_ne (by simp) (by simp), trivial⟩

theorem protocolInv_step (s : Client × Phase) (wakeup : Wakeup) (h : ProtocolInv s) :
    ProtocolInv (step parseFloat ar session s wakeup) := by
  obtain ⟨client, phase⟩ := s
  cases phase with
  | registering =>
    have ready : ∀ c, Unregistered c → Orderly
        { c.record ((surfaceRequests session).map .sent) with layerSurface := true, state := {} } :=
      fun c hu => orderly_of_preliminary (hu.preliminary session) rfl
    exact registerRound_rule unregistered_dispatch (fun _ => id) wakeup (fun c e hu => hu.safe) (fun c hu => hu)
      (fun c k e hu => (ready c hu).safe.of_suffix (record_take_suffix k _)) ready h
  | configuring =>
    exact configureRound_rule orderly_dispatch (fun c ho => ho.safe) wakeup (fun c e hs => hs) (fun c ho => ho)
      (fun c ho hconfigured hclosed => ho.drawFrame hconfigured hclosed _ _ _ _ _) h
  | running width height =>
    refine pollRound_rule configured_dispatch (fun c ho => ho.1.safe) width height wakeup (fun c e hs => hs)
      (fun c ho _ => ho) (fun c bytes ho _ _ => ⟨ho.1.record_delivered bytes, ho.2⟩) ?_ h
    intro c bytes message _ ho hclosed _ _
    exact (ho.1.record_delivered bytes).drawFrame ho.2 hclosed _ _ _ _ _
  | stopped e => exact h

/-- The layer shell's rules hold at every entry of the log of every run: no commit of a buffer before the
    first configure event is dispatched and acknowledged, at each such commit the last acknowledgement is
    that of the last configure event, and neither attach nor commit after the closed event. -/
theorem layer_shell_safety (parseFloat : Bytes → Option F32) (ar : F32Arith) (startup : Startup)
    (wakeups : List Wakeup) : AtEach ProtocolAt (main parseFloat ar startup wakeups).1.log := by
  have hinv : ProtocolInv (main parseFloat ar startup wakeups) :=
    main_rule (fun c hu => hu) (fun c e hu => hu.safe) fun session before wakeup after _ _ hs =>
      protocolInv_step _ wakeup hs
  rcases hmain : main parseFloat ar startup wakeups with ⟨client, phase⟩
  rw [hmain] at hinv
  cases phase with
  | registering => exact hinv.safe
  | configuring => exact hinv.safe
  | running width height => exact hinv.1.safe
  | stopped e => exact hinv

end Zlinestatus
