import Zlinestatus.Model.Rounds
import Zlinestatus.Theorems.Interleaving

/-! The loops of `main` against the compositor: round by round, they do what the renderer does in pieces. -/

namespace Zlinestatus.Wayland
open Run
open Wire (Object)

/-! ### Deeds -/

section
variable {renderer renderer' : Renderer} {o : Object} {event : Event}

theorem eventsOf_append (deeds more : List Deed) : eventsOf (deeds ++ more) = eventsOf deeds ++ eventsOf more :=
  List.filterMap_append

theorem after_append (outgoing : Outgoing) (deeds more : List Deed) :
    outgoing.after (deeds ++ more) = (outgoing.after deeds).after more := List.foldl_append

theorem eventsOf_wrote (renderer : Renderer) : eventsOf renderer.wrote = [] := by
  rw [eventsOf, Renderer.wrote, List.filterMap_map]
  exact List.filterMap_eq_nil_iff.mpr fun _ _ => rfl

theorem eventsOf_sent (renderer : Renderer) : eventsOf renderer.sent = [] := by
  rw [Renderer.sent, eventsOf_append, eventsOf_wrote]
  rfl

theorem after_wrote (outgoing : Outgoing) (renderer : Renderer) :
    outgoing.after renderer.wrote = ⟨outgoing.requests, outgoing.unsent ++ renderer.connection.written⟩ := by
  unfold Renderer.wrote
  generalize renderer.bufferOf renderer.connection.written = buffers
  induction renderer.connection.written generalizing outgoing with
  | nil => rw [List.append_nil]; rfl
  | cons request requests ih =>
    rw [List.append_cons]
    exact ih ⟨outgoing.requests, outgoing.unsent ++ [request]⟩

theorem after_sent (outgoing : Outgoing) (renderer : Renderer) : outgoing.after renderer.sent =
    ⟨outgoing.requests ++ (outgoing.unsent ++ renderer.connection.written), []⟩ := by
  rw [Renderer.sent, after_append, after_wrote]
  rfl

theorem eventsOf_dispatched (heard : Zlinestatus.Event) (deeds : List Deed) :
    eventsOf (.dispatched o event heard :: renderer.wrote ++ deeds) = (o, event) :: eventsOf deeds := by
  rw [List.cons_append]
  change (o, event) :: eventsOf (renderer.wrote ++ deeds) = _
  rw [eventsOf_append, eventsOf_wrote, List.nil_append]

theorem after_dispatched (outgoing : Outgoing) (heard : Zlinestatus.Event) (deeds : List Deed) :
    outgoing.after (.dispatched o event heard :: renderer.wrote ++ deeds) =
      (⟨outgoing.requests, outgoing.unsent ++ renderer.connection.written⟩ : Outgoing).after deeds := by
  rw [List.cons_append]
  change outgoing.after (renderer.wrote ++ deeds) = _
  rw [after_append, after_wrote]

/-- The renderer has its surface still, and no screen if it had none. -/
structure SameSurface (renderer renderer' : Renderer) : Prop where
  surface : renderer'.surface = renderer.surface
  screen : renderer.screen = none → renderer'.screen = none

theorem SameSurface.refl (renderer : Renderer) : SameSurface renderer renderer := ⟨rfl, id⟩

theorem SameSurface.trans {renderer'' : Renderer} (h : SameSurface renderer renderer') (h' : SameSurface renderer' renderer'') :
    SameSurface renderer renderer'' := ⟨h'.surface.trans h.surface, fun hnone => h'.screen (h.screen hnone)⟩

theorem handle_surface (hok : renderer.handle o event = .ok renderer') : SameSurface renderer renderer' := by
  cases handled hok with
  | bind => exact ⟨bound_surface .., fun hnone => (bound_screen ..).trans hnone⟩
  | @layerSurface event hobject => cases event <;> exact ⟨rfl, id⟩
  | release hobject hscreen hchain =>
    refine ⟨rfl, fun hnone => ?_⟩
    rw [hnone] at hscreen
    cases hscreen
  | _ => exact ⟨rfl, id⟩

variable {events : List (Object × Event)} {deeds : List Deed} {round : Round}

theorem dispatchAll_surface (hok : renderer.dispatchAll events = .ok (renderer', deeds)) : SameSurface renderer renderer' := by
  induction events generalizing renderer deeds with
  | nil =>
    cases hok
    exact .refl _
  | cons x events ih =>
    obtain ⟨next, hnext, hok⟩ := bind_eq_ok.mp hok
    obtain ⟨⟨last, more⟩, hmore, hok⟩ := bind_eq_ok.mp hok
    cases hok
    have hsame := handle_surface hnext
    exact SameSurface.trans ⟨hsame.surface, hsame.screen⟩ (ih hmore)

theorem recv_eq_ok (hok : renderer.recv round = .ok (renderer', deeds)) : ∃ later, deeds = .flushed :: later ∧
    renderer.dispatchAll round.events = .ok (renderer', later) ∧ round.recvOk = true := by
  obtain ⟨⟨last, later⟩, hall, hok⟩ := bind_eq_ok.mp hok
  simp only at hok
  split at hok
  · next hrecv =>
    cases hok
    exact ⟨later, rfl, hall, hrecv⟩
  · cases hok

end

/-! ### Rounds -/

section
variable {parseFloat : Bytes → Option F32} {ar : F32Arith} {session : Session} {renderer renderer' : Renderer}
  {loop loop' : Loop} {c : Compositor} {outgoing : Outgoing} {E : List (Object × Event)} {deeds : List Deed} {round : Round}

/-- What the renderer has not done yet at the head of a loop. -/
def Loop.Head : Loop → Renderer → Prop
  | .registering, renderer => renderer.surface = none ∧ renderer.screen = none
  | .configuring, renderer => renderer.screen = none
  | .polling, _ => True

/-- The state in which what the renderer wrote is in the buffer or on its way. -/
def ReachedBy (ar : F32Arith) (session : Session) (renderer : Renderer) (c : Compositor) (outgoing : Outgoing)
    (E : List (Object × Event)) : Prop :=
  ∃ drawn, Reachable ar session ⟨⟨renderer.flushed, drawn⟩, outgoing.unsent, c, outgoing.requests, E⟩

theorem ReachedBy.flush (h : ReachedBy ar session renderer c outgoing E) :
    ReachedBy ar session renderer c outgoing.flush E := by
  obtain ⟨drawn, hreach⟩ := h
  exact ⟨drawn, hreach.trans (.step .refl .flush)⟩

theorem ReachedBy.acts (h : ReachedBy ar session renderer c outgoing E)
    (hact : ∀ drawn, Drawer.Acts ar session ⟨renderer.flushed, drawn⟩ none renderer') :
    ReachedBy ar session renderer' c (outgoing.after renderer'.sent) E := by
  obtain ⟨drawn, hreach⟩ := h
  rw [after_sent]
  exact ⟨_, hreach.trans (.step .refl (.act ⟨renderer', hact drawn, rfl, rfl⟩))⟩

theorem ReachedBy.dispatchAll {events : List (Object × Event)}
    (h : ReachedBy ar session renderer c outgoing (eventsOf deeds ++ E))
    (hok : renderer.dispatchAll events = .ok (renderer', deeds)) :
    ReachedBy ar session renderer' c (outgoing.after deeds) E := by
  induction events generalizing renderer outgoing deeds with
  | nil =>
    cases hok
    exact h
  | cons x events ih =>
    obtain ⟨o, event⟩ := x
    obtain ⟨next, hnext, hok⟩ := bind_eq_ok.mp hok
    obtain ⟨⟨last, more⟩, hmore, hok⟩ := bind_eq_ok.mp hok
    cases hok
    obtain ⟨drawn, hreach⟩ := h
    rw [eventsOf_dispatched] at hreach
    rw [after_dispatched]
    exact ih ⟨_, hreach.trans (.step .refl (.receive ⟨next, .handle hnext, rfl, rfl⟩))⟩ hmore

theorem ReachedBy.recv (h : ReachedBy ar session renderer c outgoing (eventsOf deeds ++ E))
    (hok : renderer.recv round = .ok (renderer', deeds)) : ReachedBy ar session renderer' c (outgoing.after deeds) E := by
  obtain ⟨later, rfl, hall, -⟩ := recv_eq_ok hok
  have hflushed : ReachedBy ar session renderer c outgoing.flush (eventsOf later ++ E) := h.flush
  exact hflushed.dispatchAll hall

theorem recv_surface (hok : renderer.recv round = .ok (renderer', deeds)) : SameSurface renderer renderer' := by
  obtain ⟨_, -, hall, -⟩ := recv_eq_ok hok
  exact dispatchAll_surface hall

/-- A round that reads events and ends with a piece of `main`. -/
theorem ReachedBy.ends {deeds₁ : List Deed} {renderer₁ : Renderer}
    (h : ReachedBy ar session renderer c outgoing (eventsOf (deeds₁ ++ renderer'.sent) ++ E))
    (hread : ReachedBy ar session renderer c outgoing (eventsOf deeds₁ ++ E) →
      ReachedBy ar session renderer₁ c (outgoing.after deeds₁) E)
    (hact : ∀ drawn, Drawer.Acts ar session ⟨renderer₁.flushed, drawn⟩ none renderer') :
    ReachedBy ar session renderer' c (outgoing.after (deeds₁ ++ renderer'.sent)) E := by
  rw [eventsOf_append, eventsOf_sent, List.append_nil] at h
  rw [after_append]
  exact (hread h).acts hact

theorem flush_eq_ok {deeds' : List Deed} (h : renderer.flush round loop deeds = .ok (renderer', loop', deeds')) :
    renderer' = renderer ∧ loop' = loop ∧ deeds' = deeds ++ renderer.sent := by
  unfold Renderer.flush at h
  split at h
  · cases h
    exact ⟨rfl, rfl, rfl⟩
  · cases h

theorem ReachedBy.registerRound (h : ReachedBy ar session renderer c outgoing (eventsOf deeds ++ E))
    (hhead : Loop.registering.Head renderer) (hok : renderer.registerRound session round = .ok (renderer', loop', deeds)) :
    ReachedBy ar session renderer' c (outgoing.after deeds) E ∧ loop'.Head renderer' := by
  obtain ⟨hnone, hblank⟩ := hhead
  obtain ⟨⟨renderer₁, deeds₁⟩, hrecv, hok⟩ := bind_eq_ok.mp hok
  have hsame := recv_surface hrecv
  simp only at hok
  split at hok
  · cases hok
    exact ⟨h.recv hrecv, hsame.surface.trans hnone, hsame.screen hblank⟩
  · next hdone =>
    obtain ⟨renderer₂, hsetUp, hok⟩ := bind_eq_ok.mp hok
    obtain ⟨rfl, rfl, rfl⟩ := flush_eq_ok hok
    have hdone' : renderer₁.registrationDone = true := by simpa using hdone
    refine ⟨h.ends (·.recv hrecv) fun drawn => .setUp hdone' (hsame.surface.trans hnone) hsetUp, ?_⟩
    obtain ⟨-, -, -, -, -, -, -, -, -, -, -, rfl⟩ := setUp_eq_ok hsetUp
    exact hsame.screen hblank

theorem ReachedBy.configureRound (h : ReachedBy ar session renderer c outgoing (eventsOf deeds ++ E))
    (hhead : Loop.configuring.Head renderer) (hok : renderer.configureRound ar session round = .ok (renderer', loop', deeds)) :
    ReachedBy ar session renderer' c (outgoing.after deeds) E ∧ loop'.Head renderer' := by
  obtain ⟨⟨renderer₁, deeds₁⟩, hrecv, hok⟩ := bind_eq_ok.mp hok
  have hblank := (recv_surface hrecv).screen hhead
  simp only at hok
  split at hok
  · cases hok
    exact ⟨h.recv hrecv, hblank⟩
  · next hready =>
    obtain ⟨renderer₂, hfirst, hok⟩ := bind_eq_ok.mp hok
    obtain ⟨rfl, rfl, rfl⟩ := flush_eq_ok hok
    have hclosed : renderer₁.flushed.state.closed ≠ true := by
      intro hclosed
      rw [Renderer.firstFrame, if_pos hclosed] at hfirst
      cases hfirst
    have hconfigured : renderer₁.state.surfaceConfigured = true := by
      change renderer₁.state.closed ≠ true at hclosed
      simpa [hclosed] using hready
    exact ⟨h.ends (·.recv hrecv) fun drawn => .firstFrame hconfigured hblank hfirst, trivial⟩

theorem pollConnection_eq_ok (hok : renderer.pollConnection round = .ok (renderer', deeds)) :
    round.pollOk = true ∧ renderer.recvReady round = .ok (renderer', deeds) ∧ round.connectionErr = false ∧
      renderer'.state.closed = false := by
  unfold Renderer.pollConnection at hok
  split at hok
  · cases hok
  · next hpoll =>
    obtain ⟨⟨renderer₁, deeds₁⟩, hready, hok⟩ := bind_eq_ok.mp hok
    simp only at hok
    split at hok
    · cases hok
    · next herr =>
      split at hok
      · cases hok
      · next hclosed =>
        cases hok
        exact ⟨by simpa using hpoll, hready, Bool.eq_false_iff.mpr herr, Bool.eq_false_iff.mpr hclosed⟩

theorem ReachedBy.recvReady (h : ReachedBy ar session renderer c outgoing (eventsOf deeds ++ E))
    (hok : renderer.recvReady round = .ok (renderer', deeds)) :
    ReachedBy ar session renderer' c (outgoing.after deeds) E := by
  unfold Renderer.recvReady at hok
  split at hok
  · exact h.recv hok
  · cases hok
    exact h

theorem ReachedBy.pollRound (h : ReachedBy ar session renderer c outgoing (eventsOf deeds ++ E))
    (hok : renderer.pollRound parseFloat ar session round = .ok (renderer', loop', deeds)) :
    ReachedBy ar session renderer' c (outgoing.after deeds) E ∧ loop'.Head renderer' := by
  obtain ⟨⟨renderer₁, deeds₁⟩, hpoll, hok⟩ := bind_eq_ok.mp hok
  obtain ⟨-, hready, -, hopen⟩ := pollConnection_eq_ok hpoll
  simp only at hok
  cases hreceived : round.received with
  | none =>
    rw [hreceived] at hok
    cases hok
    exact ⟨h.recvReady hready, trivial⟩
  | some bytes =>
    rw [hreceived] at hok
    simp only at hok
    have hread : ReachedBy ar session renderer c outgoing (eventsOf (deeds₁ ++ [.delivered bytes]) ++ E) →
        ReachedBy ar session renderer₁ c (outgoing.after (deeds₁ ++ [.delivered bytes])) E := by
      rw [eventsOf_append, after_append, show eventsOf [.delivered bytes] = [] from rfl, List.append_nil]
      exact fun h => h.recvReady hready
    cases hmessage : acceptMessage parseFloat ar bytes with
    | none =>
      rw [hmessage] at hok
      cases hok
      exact ⟨hread h, trivial⟩
    | some message =>
      rw [hmessage] at hok
      obtain ⟨renderer₂, hnext, hok⟩ := bind_eq_ok.mp hok
      obtain ⟨rfl, rfl, rfl⟩ := flush_eq_ok hok
      exact ⟨h.ends hread fun drawn => .nextFrame hopen hnext, trivial⟩

theorem ReachedBy.anyRound (h : ReachedBy ar session renderer c outgoing (eventsOf deeds ++ E)) (hhead : loop.Head renderer)
    (hok : renderer.round parseFloat ar session loop round = .ok (renderer', loop', deeds)) :
    ReachedBy ar session renderer' c (outgoing.after deeds) E ∧ loop'.Head renderer' := by
  cases loop with
  | registering => exact h.registerRound hhead hok
  | configuring => exact h.configureRound hhead hok
  | polling => exact h.pollRound hok

/-- Whatever batches of events `main` reads in its rounds, and wherever the compositor's steps come between them: what the
    two come to, they come to when the renderer does one thing at a time. -/
theorem interleaved_reachable (h : Interleaved parseFloat ar session renderer loop c outgoing E) :
    ∃ drawn, Reachable ar session ⟨⟨renderer, drawn⟩, outgoing.unsent, c, outgoing.requests, E⟩ := by
  suffices hall : ReachedBy ar session renderer c outgoing E ∧ loop.Head renderer ∧ renderer.flushed = renderer by
    obtain ⟨⟨drawn, hreach⟩, -, hflushed⟩ := hall
    rw [hflushed] at hreach
    exact ⟨drawn, hreach⟩
  induction h with
  | start hbegin =>
    refine ⟨⟨_, _, hbegin, .refl⟩, ?_, rfl⟩
    rw [begin_eq] at hbegin
    cases hbegin
    exact ⟨rfl, rfl⟩
  | flush _ ih => exact ⟨ih.1.flush, ih.2⟩
  | @round renderer renderer' loop loop' c outgoing E deeds round _ hok ih =>
    obtain ⟨hreached, hhead, -⟩ := ih
    obtain ⟨hreached', hhead'⟩ := hreached.anyRound hhead hok
    refine ⟨hreached', ?_, rfl⟩
    cases loop' <;> exact hhead'
  | accept _ hok ih =>
    obtain ⟨⟨drawn, hreach⟩, hhead⟩ := ih
    exact ⟨⟨drawn, hreach.trans (.step .refl (.accept hok))⟩, hhead⟩
  | move _ hok ih =>
    obtain ⟨⟨drawn, hreach⟩, hhead⟩ := ih
    exact ⟨⟨drawn, hreach.trans (.step .refl (.move hok))⟩, hhead⟩

/-- The round of the first loop in which the compositor has announced the three globals, and is not done yet. -/
def announced : Round where
  events := [(2, .global 1 (interfaceText .wlCompositor) 4), (2, .global 2 (interfaceText .wlShm) 1),
    (2, .global 3 (interfaceText .layerShell) 4)]

/-- The first `recv` has sent the two requests, the compositor takes them and makes three moves, and `main` reads the three
    events: what it binds is in its buffer until the next `recv`. -/
theorem announced_reachable : ∃ renderer c drawn,
    Interleaved parseNumeral .exact batterySession renderer .registering c
      ⟨[], [.bind 2 1 .wlCompositor 4, .bind 2 2 .wlShm 5, .bind 2 3 .layerShell 6]⟩ [] ∧
    Reachable .exact batterySession
      ⟨⟨renderer, drawn⟩, [.bind 2 1 .wlCompositor 4, .bind 2 2 .wlShm 5, .bind 2 3 .layerShell 6], c, [], []⟩ := by
  have hasked : Interleaved parseNumeral .exact batterySession begun.flushed .registering _ ⟨[], []⟩ [] :=
    ((Interleaved.start begin_eq).flush.accept rfl).accept rfl
  have hsaid : Interleaved parseNumeral .exact batterySession begun.flushed .registering _ ⟨[], []⟩ (announced.events ++ []) :=
    ((hasked.move (show compositor.move _ (.global 2 1 (interfaceText .wlCompositor) 4) = _ from rfl)).move
      (show compositor.move _ (.global 2 2 (interfaceText .wlShm) 1) = _ from rfl)).move
      (show compositor.move _ (.global 2 3 (interfaceText .layerShell) 4) = _ from rfl)
  have hrun : (begun.flushed.round parseNumeral .exact batterySession .registering announced).toOption.map (fun result =>
      (result.2.1, eventsOf result.2.2, (⟨[], []⟩ : Outgoing).after result.2.2)) = some (.registering, announced.events,
        ⟨[], [.bind 2 1 .wlCompositor 4, .bind 2 2 .wlShm 5, .bind 2 3 .layerShell 6]⟩) := by
    decide +kernel
  obtain ⟨⟨renderer, loop, deeds⟩, hok, heq⟩ := toOption_map_eq_some.mp hrun
  obtain ⟨hloop, hevents, houtgoing⟩ := Prod.mk.inj heq |>.imp id Prod.mk.inj
  change loop = .registering at hloop
  subst hloop
  rw [← hevents] at hsaid
  have hround := hsaid.round hok
  change (⟨[], []⟩ : Outgoing).after deeds = _ at houtgoing
  rw [houtgoing] at hround
  obtain ⟨drawn, hreach⟩ := interleaved_reachable hround
  exact ⟨_, _, drawn, hround, hreach⟩

end

end Zlinestatus.Wayland
