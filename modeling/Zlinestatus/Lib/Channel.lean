import Mathlib.Data.List.Basic

/-! A server that takes requests from a queue, in their order, and does other things in between, and a client that writes
    them to a buffer, sends what is there from time to time, and takes the server's events from another queue. What holds
    where each request is taken at once is shown to hold of the server as it will be when it has caught up. -/

namespace Channel
variable {σ ρ ε μ κ : Type}

/-- `accept` is `none` where the server refuses the request, and `move` where it does not do this now. -/
structure Server (σ ρ ε μ : Type) where
  accept : σ → ρ → Option (σ × List ε)
  move : σ → μ → Option (σ × List ε)

namespace Server

/-- The server after all requests, and the events it sends for them. -/
def acceptAll (server : Server σ ρ ε μ) : σ → List ρ → Option (σ × List ε)
  | s, [] => some (s, [])
  | s, r :: rs =>
    match server.accept s r with
    | none => none
    | some (s, es) => (server.acceptAll s rs).map fun p => (p.1, es ++ p.2)

/-- What the server does by itself it can do after a request as well as before it, with the same result. -/
def Commutes (server : Server σ ρ ε μ) : Prop :=
  ∀ {s s₁ s₂ : σ} {m : μ} {r : ρ} {es es' : List ε}, server.move s m = some (s₁, es) →
    server.accept s r = some (s₂, es') → ∃ s₃, server.accept s₁ r = some (s₃, es') ∧ server.move s₂ m = some (s₃, es)

variable {server : Server σ ρ ε μ} {s s' s₁ : σ} {m : μ} {r : ρ} {rs rs' : List ρ} {es es' : List ε}

theorem acceptAll_cons (h : server.accept s r = some (s₁, es)) :
    server.acceptAll s (r :: rs) = (server.acceptAll s₁ rs).map fun p => (p.1, es ++ p.2) := by
  rw [acceptAll, h]

theorem acceptAll_append (h : server.acceptAll s rs = some (s₁, es)) :
    server.acceptAll s (rs ++ rs') = (server.acceptAll s₁ rs').map fun p => (p.1, es ++ p.2) := by
  induction rs generalizing s es with
  | nil =>
    cases h
    simp
  | cons r rs ih =>
    rw [acceptAll] at h
    cases hr : server.accept s r with
    | none =>
      rw [hr] at h
      cases h
    | some p =>
      obtain ⟨s₂, es₂⟩ := p
      rw [hr] at h
      obtain ⟨⟨s₃, es₃⟩, hrest, heq⟩ := Option.map_eq_some_iff.mp h
      cases heq
      rw [List.cons_append, acceptAll_cons hr, ih hrest, Option.map_map]
      congr 1
      funext p
      simp

theorem acceptAll_singleton (h : server.accept s r = some (s₁, es)) : server.acceptAll s [r] = some (s₁, es) := by
  rw [acceptAll_cons h, acceptAll, Option.map_some, List.append_nil]

/-- One more request. -/
theorem acceptAll_concat (h : server.acceptAll s rs = some (s₁, es)) (hr : server.accept s₁ r = some (s', es')) :
    server.acceptAll s (rs ++ [r]) = some (s', es ++ es') := by
  rw [acceptAll_append h, acceptAll_singleton hr, Option.map_some]

/-- A move can wait until the requests are taken. -/
theorem acceptAll_move (hcomm : server.Commutes) (hm : server.move s m = some (s₁, es))
    (h : server.acceptAll s rs = some (s', es')) :
    ∃ s₁', server.acceptAll s₁ rs = some (s₁', es') ∧ server.move s' m = some (s₁', es) := by
  induction rs generalizing s s₁ es' with
  | nil =>
    cases h
    exact ⟨s₁, rfl, hm⟩
  | cons r rs ih =>
    rw [acceptAll] at h
    cases hr : server.accept s r with
    | none =>
      rw [hr] at h
      cases h
    | some p =>
      obtain ⟨s₂, es₂⟩ := p
      rw [hr] at h
      obtain ⟨⟨s₃, es₃⟩, hrest, heq⟩ := Option.map_eq_some_iff.mp h
      cases heq
      obtain ⟨s₄, hr₁, hm₂⟩ := hcomm hm hr
      obtain ⟨s₅, hall, hm₃⟩ := ih hm₂ hrest
      exact ⟨s₅, by rw [acceptAll_cons hr₁, hall]; rfl, hm₃⟩

/-- What each request keeps, all of them keep. -/
theorem acceptAll_keeps {P : σ → Prop} (hkeep : ∀ {s s₁ : σ} {r : ρ} {es : List ε}, P s →
    server.accept s r = some (s₁, es) → P s₁) (hs : P s) (h : server.acceptAll s rs = some (s', es)) : P s' := by
  induction rs generalizing s es with
  | nil =>
    cases h
    exact hs
  | cons r rs ih =>
    rw [acceptAll] at h
    cases hr : server.accept s r with
    | none =>
      rw [hr] at h
      cases h
    | some p =>
      obtain ⟨s₂, es₂⟩ := p
      rw [hr] at h
      obtain ⟨⟨s₃, es₃⟩, hrest, heq⟩ := Option.map_eq_some_iff.mp h
      cases heq
      exact ih (hkeep hs hr) hrest

end Server

/-! ### Client and server -/

/-- The requests in the client's buffer, and the requests and the events on their way, the oldest first. -/
structure World (κ σ ρ ε : Type) where
  client : κ
  unsent : List ρ
  server : σ
  requests : List ρ
  events : List ε

section
variable (server : Server σ ρ ε μ) (client : κ → Option ε → κ → List ρ → Prop)

/-- The client acts by itself, and all it wrote is sent; or it takes an event, and what it writes then waits until it
    acts or sends what there is. The server takes a request or moves. -/
inductive Step : World κ σ ρ ε → World κ σ ρ ε → Prop
  | act {k k' : κ} {u q rs : List ρ} {s : σ} {E : List ε} (h : client k none k' rs) :
    Step ⟨k, u, s, q, E⟩ ⟨k', [], s, q ++ (u ++ rs), E⟩
  | receive {k k' : κ} {u q rs : List ρ} {s : σ} {e : ε} {E : List ε} (h : client k (some e) k' rs) :
    Step ⟨k, u, s, q, e :: E⟩ ⟨k', u ++ rs, s, q, E⟩
  | flush {k : κ} {u q : List ρ} {s : σ} {E : List ε} : Step ⟨k, u, s, q, E⟩ ⟨k, [], s, q ++ u, E⟩
  | accept {k : κ} {u q : List ρ} {s s' : σ} {r : ρ} {E es : List ε} (h : server.accept s r = some (s', es)) :
    Step ⟨k, u, s, r :: q, E⟩ ⟨k, u, s', q, E ++ es⟩
  | move {k : κ} {u q : List ρ} {s s' : σ} {m : μ} {E es : List ε} (h : server.move s m = some (s', es)) :
    Step ⟨k, u, s, q, E⟩ ⟨k, u, s', q, E ++ es⟩

/-- From `w` by steps in any order. -/
inductive Reaches (w : World κ σ ρ ε) : World κ σ ρ ε → Prop
  | refl : Reaches w w
  | step {v v' : World κ σ ρ ε} (h : Reaches w v) (hstep : Step server client v v') : Reaches w v'

/-- A step that takes what is on its way or sends what waits, and nothing else. -/
inductive Drain : World κ σ ρ ε → World κ σ ρ ε → Prop
  | receive {k k' : κ} {u q rs : List ρ} {s : σ} {e : ε} {E : List ε} (h : client k (some e) k' rs) :
    Drain ⟨k, u, s, q, e :: E⟩ ⟨k', u ++ rs, s, q, E⟩
  | flush {k : κ} {u q : List ρ} {s : σ} {E : List ε} (h : u ≠ []) : Drain ⟨k, u, s, q, E⟩ ⟨k, [], s, q ++ u, E⟩
  | accept {k : κ} {u q : List ρ} {s s' : σ} {r : ρ} {E es : List ε} (h : server.accept s r = some (s', es)) :
    Drain ⟨k, u, s, r :: q, E⟩ ⟨k, u, s', q, E ++ es⟩

/-- From `w` by so many of these steps, in any order. -/
inductive Drains (w : World κ σ ρ ε) : ℕ → World κ σ ρ ε → Prop
  | refl : Drains w 0 w
  | step {n : ℕ} {v v' : World κ σ ρ ε} (h : Drains w n v) (hdrain : Drain server client v v') : Drains w (n + 1) v'

/-- An invariant of the client, the server and the events on their way, where the server takes each request at once.
    What the server says by itself may come between any two of the events. -/
structure Synchronous (I : κ → σ → List ε → Prop) : Prop where
  act : ∀ {k k' : κ} {s : σ} {rs : List ρ} {E : List ε}, I k s E → client k none k' rs →
    ∃ s' es, server.acceptAll s rs = some (s', es) ∧ I k' s' (E ++ es)
  receive : ∀ {k k' : κ} {s : σ} {rs : List ρ} {e : ε} {E : List ε}, I k s (e :: E) → client k (some e) k' rs →
    ∃ s' es, server.acceptAll s rs = some (s', es) ∧ I k' s' (E ++ es)
  move : ∀ {k : κ} {s s' : σ} {m : μ} {E E' es : List ε}, I k s (E ++ E') → server.move s m = some (s', es) →
    I k s' (E ++ es ++ E')

/-- The server takes every request that is written, and then the invariant holds. -/
def CaughtUp (I : κ → σ → List ε → Prop) (w : World κ σ ρ ε) : Prop :=
  ∃ s es, server.acceptAll w.server (w.requests ++ w.unsent) = some (s, es) ∧ I w.client s (w.events ++ es)

variable {server client} {I : κ → σ → List ε → Prop} {w w' : World κ σ ρ ε}

theorem CaughtUp.write {k k' : κ} {s : σ} {u u' q q' rs : List ρ} {E E' : List ε} (h : CaughtUp server I ⟨k, u, s, q, E⟩)
    (hwritten : q' ++ u' = (q ++ u) ++ rs)
    (hwrite : ∀ {s' es}, I k s' (E ++ es) → ∃ s'' es', server.acceptAll s' rs = some (s'', es') ∧
      I k' s'' (E' ++ es ++ es')) : CaughtUp server I ⟨k', u', s, q', E'⟩ := by
  obtain ⟨s', es, hall, hI⟩ := h
  obtain ⟨s'', es', hrs, hI'⟩ := hwrite hI
  refine ⟨s'', es ++ es', ?_, List.append_assoc E' es es' ▸ hI'⟩
  change server.acceptAll s (q' ++ u') = _
  rw [hwritten, Server.acceptAll_append hall, hrs]
  rfl

theorem CaughtUp.step (hI : Synchronous server client I) (hcomm : server.Commutes) (h : CaughtUp server I w)
    (hstep : Step server client w w') : CaughtUp server I w' := by
  cases hstep with
  | act hact => exact h.write (by simp) fun hs => hI.act hs hact
  | receive hact => exact h.write (by simp) fun hs => hI.receive hs hact
  | flush =>
    obtain ⟨s', es, hall, hs⟩ := h
    exact ⟨s', es, (List.append_nil _).symm ▸ hall, hs⟩
  | accept haccept =>
    obtain ⟨s', es', hall, hs⟩ := h
    rw [List.cons_append, Server.acceptAll_cons haccept] at hall
    obtain ⟨⟨s'', es''⟩, hrest, heq⟩ := Option.map_eq_some_iff.mp hall
    cases heq
    exact ⟨_, _, hrest, List.append_assoc _ _ _ ▸ hs⟩
  | move hmove =>
    obtain ⟨s', es', hall, hs⟩ := h
    obtain ⟨s₁', hall', hmove'⟩ := Server.acceptAll_move hcomm hmove hall
    exact ⟨_, _, hall', hI.move hs hmove'⟩

/-- The rule of the channel: what holds where requests are taken at once holds, in any order of steps, once the server
    has caught up. -/
theorem CaughtUp.reaches (hI : Synchronous server client I) (hcomm : server.Commutes) (h : CaughtUp server I w)
    (hw : Reaches server client w w') : CaughtUp server I w' := by
  induction hw with
  | refl => exact h
  | step _ hstep ih => exact ih.step hI hcomm hstep

theorem Reaches.trans {w'' : World κ σ ρ ε} (h : Reaches server client w w') (h' : Reaches server client w' w'') :
    Reaches server client w w'' := by
  induction h' with
  | refl => exact h
  | step _ hstep ih => exact ih.step hstep

theorem Drain.step (h : Drain server client w w') : Step server client w w' := by
  cases h with
  | receive h => exact .receive h
  | flush => exact .flush
  | accept h => exact .accept h

/-- Where each of these steps takes more than it brings, there are not more of them than there was to take. -/
theorem Drains.spent {P : World κ σ ρ ε → Prop} {load : World κ σ ρ ε → ℕ}
    (hkeep : ∀ {v v' : World κ σ ρ ε}, P v → Drain server client v v' → P v' ∧ load v' < load v) (hP : P w) {n : ℕ}
    (h : Drains server client w n w') : P w' ∧ n + load w' ≤ load w := by
  induction h with
  | refl => exact ⟨hP, Nat.le_of_eq (Nat.zero_add _)⟩
  | step _ hdrain ih =>
    obtain ⟨hv, hle⟩ := ih
    obtain ⟨hv', hlt⟩ := hkeep hv hdrain
    exact ⟨hv', by omega⟩

/-- What the client keeps by itself in every world that is reached. -/
theorem Reaches.keeps {P : κ → Prop} (hP : P w.client) (hkeep : ∀ {v : World κ σ ρ ε} {k' : κ} {e : Option ε} {rs : List ρ},
    Reaches server client w v → P v.client → client v.client e k' rs → P k') (hw : Reaches server client w w') :
    P w'.client := by
  induction hw with
  | refl => exact hP
  | step hv hstep ih =>
    cases hstep with
    | act hact => exact hkeep hv ih hact
    | receive hact => exact hkeep hv ih hact
    | flush => exact ih
    | accept => exact ih
    | move => exact ih

/-- What waits to be sent was written at events. -/
theorem Reaches.unsent {P : ρ → Prop} (hP : ∀ r ∈ w.unsent, P r)
    (hwrite : ∀ {v : World κ σ ρ ε} {k' : κ} {e : ε} {rs : List ρ}, Reaches server client w v →
      client v.client (some e) k' rs → ∀ r ∈ rs, P r) (hw : Reaches server client w w') : ∀ r ∈ w'.unsent, P r := by
  induction hw with
  | refl => exact hP
  | step hv hstep ih =>
    cases hstep with
    | act => exact fun r hr => (by cases hr)
    | receive hact => exact List.forall_mem_append.mpr ⟨ih, hwrite hv hact⟩
    | flush => exact fun r hr => (by cases hr)
    | accept => exact ih
    | move => exact ih

/-- No request is refused. -/
theorem CaughtUp.accepts {k : κ} {s : σ} {r : ρ} {u q : List ρ} {E : List ε}
    (h : CaughtUp server I ⟨k, u, s, r :: q, E⟩) : ∃ p, server.accept s r = some p := by
  obtain ⟨s', es, hall, -⟩ := h
  simp only [List.cons_append, Server.acceptAll] at hall
  cases hr : server.accept s r with
  | none =>
    rw [hr] at hall
    cases hall
  | some p => exact ⟨p, rfl⟩

end

end Channel
