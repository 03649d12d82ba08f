import Zlinestatus.Theorems.Steps

/-! Deliveries that yield no message. `main` never reads back what it has received, so that a run goes on
    in the same way when they are withheld. -/

namespace Zlinestatus
open Run
variable {parseFloat : Bytes → Option F32} {ar : F32Arith} {session : Session} {client : Client} {wakeup : Wakeup}

def Action.isDelivered : Action → Bool
  | .delivered _ => true
  | _ => false

/-- The client with the bytes received taken out of its log. -/
def Client.undelivered (client : Client) : Client :=
  { client with log := client.log.filter fun a => !a.isDelivered }

/-- The message that a round of the poll loop accepts, if it gets that far. -/
def Wakeup.accepted (parseFloat : Bytes → Option F32) (ar : F32Arith) (wakeup : Wakeup) : Option ParsedMessage :=
  wakeup.received.bind (acceptMessage parseFloat ar)

/-- The same round, in which no client connects unless it sends a message that is accepted. -/
def Wakeup.withheld (parseFloat : Bytes → Option F32) (ar : F32Arith) (wakeup : Wakeup) : Wakeup :=
  if (wakeup.accepted parseFloat ar).isSome then wakeup else { wakeup with socketIn := false }

/-- What is left of a state without the deliveries. -/
abbrev view : Client × Phase → Client × Phase := Prod.map Client.undelivered id

/-! ### Calls do not read the deliveries -/

@[simp] theorem undelivered_undelivered : client.undelivered.undelivered = client.undelivered := by
  simp [Client.undelivered]

theorem view_view (s : Client × Phase) : view (view s) = view s := by
  simp [view, Prod.map]

@[simp] theorem undelivered_record_delivered (bytes : Bytes) :
    (client.record [.delivered bytes]).undelivered = client.undelivered := rfl

theorem undelivered_record_sent (requests : List Request) :
    client.undelivered.record (requests.map .sent) = (client.record (requests.map .sent)).undelivered := by
  have hsent : ((requests.map Action.sent).reverse.filter fun a => !a.isDelivered) =
      (requests.map Action.sent).reverse := by
    refine List.filter_eq_self.mpr fun a ha => ?_
    obtain ⟨request, -, rfl⟩ := List.mem_map.mp (List.mem_reverse.mp ha)
    rfl
  simp only [Client.record, Client.undelivered, List.filter_append, hsent]

theorem undelivered_send (call : List Request × Except Error Unit) :
    client.undelivered.send call = Prod.map Client.undelivered id (client.send call) := by
  rw [Client.send, undelivered_record_sent]
  rfl

theorem undelivered_dispatch (client : Client) (d : Dispatch) :
    dispatch client.undelivered d = Prod.map Client.undelivered id (dispatch client d) := by
  unfold dispatch
  split
  · unfold onRegistryEvent
    split
    · split <;> rfl
    · rfl
  · rfl
  · next event _ =>
    change (if client.layerSurface then _ else _) = _
    split
    · cases event with
      | configure serial width height =>
        simp only [onLayerSurfaceEvent]
        split <;> rfl
      | closed => rfl
    · rfl
  · rfl

theorem undelivered_connectionRecv (recv : Recv) :
    connectionRecv client.undelivered recv = Prod.map Client.undelivered id (connectionRecv client recv) := by
  rw [connectionRecv, each_comm undelivered_dispatch, connectionRecv]
  rcases each dispatch client recv.events with ⟨client₁, e | _⟩ <;> rfl

theorem undelivered_pollConnection (wakeup : Wakeup) :
    pollConnection client.undelivered wakeup = Prod.map Client.undelivered id (pollConnection client wakeup) := by
  have hrecv : (if wakeup.connectionIn then connectionRecv client.undelivered wakeup.recv
        else (client.undelivered, .ok ())) =
      Prod.map Client.undelivered id
        (if wakeup.connectionIn then connectionRecv client wakeup.recv else (client, .ok ())) := by
    split
    · exact undelivered_connectionRecv wakeup.recv
    · rfl
  unfold pollConnection
  split
  · rfl
  · rw [hrecv]
    rcases (if wakeup.connectionIn then connectionRecv client wakeup.recv else (client, .ok ())) with ⟨client₁, e | _⟩
    · rfl
    · dsimp only
      rw [apply_ite (Prod.map Client.undelivered id), apply_ite (Prod.map Client.undelivered id)]
      rfl

/-! ### Rounds -/

theorem view_drawFrame (io : FrameIO) (width height : UInt32) (percent : F32) (color : Pixel) :
    drawFrame ar session client.undelivered io width height percent color =
      view (drawFrame ar session client io width height percent color) := by
  rw [drawFrame, undelivered_send, drawFrame]
  rcases client.send _ with ⟨client₁, e | _⟩ <;> rfl

theorem view_registerRound (wakeup : Wakeup) :
    registerRound session client.undelivered wakeup = view (registerRound session client wakeup) := by
  rw [registerRound, undelivered_connectionRecv, registerRound]
  rcases connectionRecv client wakeup.recv with ⟨client₁, e | _⟩
  · rfl
  · dsimp only
    rw [apply_ite view, apply_ite view, apply_ite view, apply_ite view]
    refine if_congr Iff.rfl rfl (if_congr Iff.rfl rfl (if_congr Iff.rfl rfl (if_congr Iff.rfl rfl ?_)))
    rw [undelivered_send]
    rcases client₁.send _ with ⟨client₂, e | _⟩ <;> rfl

theorem view_configureRound (wakeup : Wakeup) :
    configureRound ar session client.undelivered wakeup = view (configureRound ar session client wakeup) := by
  rw [configureRound, undelivered_connectionRecv, configureRound]
  rcases connectionRecv client wakeup.recv with ⟨client₁, e | _⟩
  · rfl
  · dsimp only
    rw [apply_ite view, apply_ite view]
    exact if_congr Iff.rfl rfl (if_congr Iff.rfl rfl (view_drawFrame _ _ _ _ _))

theorem view_pollRound (width height : UInt32) (wakeup : Wakeup) :
    view (pollRound parseFloat ar session client.undelivered width height wakeup) =
      view (pollRound parseFloat ar session client width height wakeup) := by
  rw [pollRound, undelivered_pollConnection, pollRound]
  rcases pollConnection client wakeup with ⟨client₁, e | _⟩
  · simp
  · dsimp only [Prod.map, id]
    cases wakeup.received with
    | none => simp
    | some bytes =>
      dsimp only
      cases acceptMessage parseFloat ar bytes with
      | none => simp
      | some message =>
        dsimp only
        rw [← view_drawFrame, ← view_drawFrame, undelivered_record_delivered, undelivered_record_delivered,
          undelivered_undelivered]

theorem view_step (client : Client) (phase : Phase) (wakeup : Wakeup) :
    view (step parseFloat ar session (client.undelivered, phase) wakeup) =
      view (step parseFloat ar session (client, phase) wakeup) := by
  cases phase with
  | registering =>
    rw [step, view_registerRound, step]
    exact view_view _
  | configuring =>
    rw [step, view_configureRound, step]
    exact view_view _
  | running width height => exact view_pollRound width height wakeup
  | stopped e => simp [step]

/-! ### Withheld deliveries -/

/-- A delivery that yields no message leaves its bytes in the log, and nothing else. -/
theorem pollRound_withheld (width height : UInt32) (wakeup : Wakeup) :
    view (pollRound parseFloat ar session client width height (wakeup.withheld parseFloat ar)) =
      view (pollRound parseFloat ar session client width height wakeup) := by
  unfold Wakeup.withheld
  split
  · rfl
  · next hnone =>
    rw [Option.not_isSome_iff_eq_none, Wakeup.accepted] at hnone
    have hpoll : pollConnection client { wakeup with socketIn := false } = pollConnection client wakeup := rfl
    rw [pollRound, hpoll, pollRound]
    rcases pollConnection client wakeup with ⟨client₁, e | _⟩
    · rfl
    · cases hbytes : wakeup.received with
      | none => rfl
      | some bytes =>
        rw [hbytes] at hnone
        replace hnone : acceptMessage parseFloat ar bytes = none := hnone
        simp [hnone, Wakeup.received]

theorem step_withheld (s : Client × Phase) (wakeup : Wakeup) :
    view (step parseFloat ar session s (wakeup.withheld parseFloat ar)) = view (step parseFloat ar session s wakeup) := by
  have hrecv : (wakeup.withheld parseFloat ar).recv = wakeup.recv ∧ (wakeup.withheld parseFloat ar).io = wakeup.io := by
    unfold Wakeup.withheld
    split <;> exact ⟨rfl, rfl⟩
  obtain ⟨client, phase⟩ := s
  cases phase with
  | registering => rw [step, registerRound, hrecv.1, hrecv.2, step, registerRound]
  | configuring => rw [step, configureRound, hrecv.1, hrecv.2, step, configureRound]
  | running width height => exact pollRound_withheld width height wakeup
  | stopped e => rfl

/-- Over whole runs: where the deliveries that yield no message are withheld, `main` sends the same requests
    at the same places, and is in the same state. -/
theorem main_withheld (startup : Startup) (wakeups : List Wakeup) :
    view (main parseFloat ar startup (wakeups.map (·.withheld parseFloat ar))) =
      view (main parseFloat ar startup wakeups) := by
  unfold main
  split
  · rfl
  · next session _ =>
    rw [List.foldl_map]
    refine List.foldl_rel (r := fun s s' => view s = view s') rfl fun wakeup _ s s' hs => ?_
    rw [step_withheld, ← view_step s.1 s.2, ← view_step s'.1 s'.2]
    exact congrArg (fun t => view (step parseFloat ar session t wakeup)) hs

end Zlinestatus
