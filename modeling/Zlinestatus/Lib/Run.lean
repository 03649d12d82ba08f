import Mathlib.Data.List.Induction

/-! Programs that call fallible functions on a state which survives the failure, their runs, and traces
    that list what a run did, the newest entry first. -/

namespace Run
variable {σ ι ε : Type}

/-! ### Fallible functions -/

/-- The state after the call has `Q`, or `E` where the call failed. -/
def Post (Q E : σ → Prop) : σ × Except ε Unit → Prop
  | (s, .ok ()) => Q s
  | (s, .error _) => E s

/-- From a state with `P`, `f` ends in a state with `Q`, or fails in one with `E`. -/
def Triple (P : σ → Prop) (f : σ → σ × Except ε Unit) (Q E : σ → Prop) : Prop := ∀ s, P s → Post Q E (f s)

/-- Calls `f` on each input in order; the first failure ends it. -/
def each (f : σ → ι → σ × Except ε Unit) : σ → List ι → σ × Except ε Unit
  | s, [] => (s, .ok ())
  | s, x :: xs =>
    match f s x with
    | (s, .ok ()) => each f s xs
    | (s, .error e) => (s, .error e)

/-- The rule of the loop: an invariant of every call is one of the loop. -/
theorem Triple.each {f : σ → ι → σ × Except ε Unit} {P E : σ → Prop} (h : ∀ x, Triple P (f · x) P E) :
    ∀ xs, Triple P (Run.each f · xs) P E := by
  intro xs
  induction xs with
  | nil => exact fun s hs => hs
  | cons x xs ih =>
    intro s hs
    have hcall : Post P E (f s x) := h x s hs
    simp only [Run.each]
    split
    · next s₁ heq =>
      rw [heq] at hcall
      exact ih s₁ hcall
    · next s₁ e heq =>
      rw [heq] at hcall
      exact hcall

theorem each_comm {f : σ → ι → σ × Except ε Unit} {g : σ → σ} (h : ∀ s x, f (g s) x = Prod.map g id (f s x)) :
    ∀ xs s, each f (g s) xs = Prod.map g id (each f s xs) := by
  intro xs
  induction xs with
  | nil => exact fun s => rfl
  | cons x xs ih =>
    intro s
    simp only [each, h]
    rcases f s x with ⟨s₁, e | _⟩
    · rfl
    · exact ih s₁

section
variable {α β : Type} {x : Except ε α} {b : β}

/-- What a call that succeeds leads to can be computed. -/
theorem toOption_map_eq_some {f : α → β} : x.toOption.map f = some b ↔ ∃ a, x = .ok a ∧ f a = b := by
  cases x with
  | error e => simp [Except.toOption]
  | ok a => simp [Except.toOption]

theorem bind_eq_ok {f : α → Except ε β} : x >>= f = .ok b ↔ ∃ a, x = .ok a ∧ f a = .ok b := by
  cases x with
  | error e =>
    constructor
    · intro h
      cases h
    · intro h
      obtain ⟨_, h, -⟩ := h
      cases h
  | ok a =>
    constructor
    · intro h
      exact ⟨a, rfl, h⟩
    · intro h
      obtain ⟨_, heq, h⟩ := h
      cases heq
      exact h

theorem map_eq_ok {f : α → β} : x.map f = .ok b ↔ ∃ a, x = .ok a ∧ f a = b := by
  cases x with
  | error e =>
    constructor
    · intro h
      cases h
    · intro h
      obtain ⟨_, h, -⟩ := h
      cases h
  | ok a => simp [Except.map]

end

/-! ### Runs -/

/-- What holds at the start and is kept by each step of this run, from the state the run is in then,
    holds at its end. -/
theorem foldl_of_steps {I : σ → Prop} {step : σ → ι → σ} {s : σ} (h₀ : I s) (inputs : List ι)
    (h : ∀ before x after, inputs = before ++ x :: after → I (before.foldl step s) →
      I (step (before.foldl step s) x)) : I (inputs.foldl step s) := by
  induction inputs using List.reverseRecOn with
  | nil => exact h₀
  | append_singleton before x ih =>
    rw [List.foldl_append, List.foldl_cons, List.foldl_nil]
    exact h before x [] rfl (ih fun b y after heq => h b y (after ++ [x]) (by simp [heq]))

/-! ### Traces -/

section
variable {α : Type} {P : α → List α → Prop}

/-- `P` holds of each entry and the entries before it. -/
def AtEach (P : α → List α → Prop) : List α → Prop
  | [] => True
  | a :: earlier => P a earlier ∧ AtEach P earlier

theorem atEach_iff {trace : List α} :
    AtEach P trace ↔ ∀ later a earlier, trace = later ++ a :: earlier → P a earlier := by
  induction trace with
  | nil => simp [AtEach]
  | cons b trace ih =>
    rw [AtEach, ih]
    constructor
    · rintro ⟨hb, htrace⟩ later a earlier heq
      cases later with
      | nil =>
        obtain ⟨rfl, rfl⟩ := List.cons.inj heq
        exact hb
      | cons c later => exact htrace later a earlier (List.cons.inj heq).2
    · intro h
      exact ⟨h [] b trace rfl, fun later a earlier heq => h (b :: later) a earlier (by rw [heq]; rfl)⟩

theorem atEach_append {new earlier : List α} :
    AtEach P (new ++ earlier) ↔ AtEach (fun a between => P a (between ++ earlier)) new ∧ AtEach P earlier := by
  induction new with
  | nil => simp [AtEach]
  | cons a new ih => simp [AtEach, ih, and_assoc]

theorem atEach_of_forall {trace : List α} (h : ∀ a ∈ trace, ∀ earlier, P a earlier) : AtEach P trace :=
  atEach_iff.mpr fun later a earlier heq => h a (by simp [heq]) earlier

theorem AtEach.of_suffix {trace trace' : List α} (h : AtEach P trace) (hs : trace' <:+ trace) : AtEach P trace' := by
  obtain ⟨new, rfl⟩ := hs
  exact (atEach_append.mp h).2

theorem findSome?_append_of_none {β : Type} {f : α → Option β} {new : List α} (h : ∀ a ∈ new, f a = none)
    (earlier : List α) : (new ++ earlier).findSome? f = earlier.findSome? f := by
  rw [List.findSome?_append, List.findSome?_eq_none_iff.mpr h, Option.none_or]

end

end Run
