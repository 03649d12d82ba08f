import Zlinestatus.Theorems.Compositor
import Zlinestatus.Theorems.SwapChain

/-! The stages in the life of an object: what the renderer knows of it, what it is to the compositor that has caught up,
    and the events about it that are on their way. -/

namespace Zlinestatus.Wayland
open Wire (Object Text wlDisplay)

/-! ### Stages -/

/-- The object that an event is about. -/
def subject (x : Object × Event) : Object :=
  match x.2 with
  | .deleteId id => if x.1 = wlDisplay then id else x.1
  | _ => x.1

def about (o : Object) (events : List (Object × Event)) : List (Object × Event) := events.filter (subject · = o)

/-- The listener that the renderer sets on an object. -/
def listenerOf : Resource → Option Listener
  | .registry => some .registry
  | .callback => some .callback
  | .layerSurface => some .layerSurface
  | .buffer .. => some .buffer
  | _ => none

/-- The events that an object may have for as long as it lives, and their names and serials. -/
def Speaks (c : Compositor) : Resource → Event → Prop
  | .registry, .global name interface version => (name, interfaceNamed interface.1, version) ∈ c.announced
  | .registry, .globalRemove _ => True
  | .layerSurface, .layerSurface (.configure serial _ _) => serial ∈ c.serials
  | .layerSurface, .layerSurface .closed => True
  | .global _, _ | .surface, _ => True
  | _, _ => False

/-- An object that stays: not a callback, and not a buffer. -/
def Resource.Stays : Resource → Prop
  | .callback | .buffer .. => False
  | _ => True

/-- The listener of the object if the renderer has it, its slot in the swapchain, its resource, and the events about it. -/
inductive Stage (c : Compositor) (o : Object) :
    Option (Option Listener) → Option ℕ → Option Resource → List (Object × Event) → Prop
  | free : Stage c o none none none []
  | stays {X : Resource} {E : List (Object × Event)} (hX : X.Stays) (hE : ∀ x ∈ E, x.1 = o ∧ Speaks c X x.2) :
    Stage c o (some (listenerOf X)) none (some X) E
  | waiting : Stage c o (some (some .callback)) none (some .callback) []
  | done (callbackData : UInt32) :
    Stage c o (some (some .callback)) none none [(o, .done callbackData), (wlDisplay, .deleteId o)]
  | deleting (listener : Option Listener) : Stage c o (some listener) none none [(wlDisplay, .deleteId o)]
  | held (part : Part) (slot : ℕ) : Stage c o (some (some .buffer)) (some slot) (some (.buffer part .held)) []
  | released (part : Part) (slot : ℕ) :
    Stage c o (some (some .buffer)) (some slot) (some (.buffer part .released)) [(o, .release)]

/-- Every object is in one of the stages; the display only tells of errors. -/
structure Stages (objects : Object → Option (Option Listener)) (slots : Object → Option ℕ) (c : Compositor)
    (E : List (Object × Event)) : Prop where
  stage : ∀ o, o ≠ wlDisplay → Stage c o (objects o) (slots o) (c.resources o) (about o E)
  noDisplay : objects wlDisplay = none ∧ c.resources wlDisplay = none
  errors : ∀ x ∈ about wlDisplay E, ∃ object code message, x = (wlDisplay, .error object code message)

section
variable {c c' : Compositor} {o id : Object} {x : Object × Event} {E E' es : List (Object × Event)}
  {objects objects' : Object → Option (Option Listener)} {slots slots' : Object → Option ℕ}

theorem about_append (o : Object) (E E' : List (Object × Event)) : about o (E ++ E') = about o E ++ about o E' :=
  List.filter_append ..

theorem about_cons_self (h : subject x = o) : about o (x :: E) = x :: about o E := by
  rw [about, List.filter_cons, if_pos (by simpa using h)]
  rfl

theorem about_cons_of_ne (h : subject x ≠ o) : about o (x :: E) = about o E := by
  rw [about, List.filter_cons, if_neg (by simpa using h)]
  rfl

theorem about_eq_nil (h : ∀ x ∈ E, subject x ≠ o) : about o E = [] :=
  List.filter_eq_nil_iff.mpr fun x hx => by simpa using h x hx

theorem subject_of_ne {object : Object} {event : Event} (h : object ≠ wlDisplay) : subject (object, event) = object := by
  unfold subject
  split
  · exact if_neg h
  · rfl

/-- What the compositor says in between of other objects does not concern this one. -/
theorem about_insert (h : ∀ x ∈ es, subject x ≠ o) : about o (E ++ es ++ E') = about o (E ++ E') := by
  rw [about_append, about_append, about_eq_nil h, List.append_nil, ← about_append]

/-! ### Changes -/

/-- All that events may name is still known. -/
structure Knows (c c' : Compositor) : Prop where
  announced : c.announced ⊆ c'.announced
  serials : c.serials ⊆ c'.serials

theorem Knows.refl (c : Compositor) : Knows c c := ⟨List.Subset.refl _, List.Subset.refl _⟩

theorem Knows.speaks (h : Knows c c') {X : Resource} {event : Event} (hspeaks : Speaks c X event) :
    Speaks c' X event := by
  cases X with
  | registry =>
    cases event with
    | global name interface version => exact h.announced hspeaks
    | globalRemove name => trivial
    | _ => cases hspeaks
  | layerSurface =>
    cases event with
    | layerSurface event =>
      cases event with
      | configure serial width height => exact h.serials hspeaks
      | closed => trivial
    | _ => cases hspeaks
  | global interface => trivial
  | surface => trivial
  | callback => cases event <;> cases hspeaks
  | pool size => cases event <;> cases hspeaks
  | buffer part use => cases event <;> cases hspeaks

theorem Stage.mono {listener : Option (Option Listener)} {slot : Option ℕ} {resource : Option Resource}
    (h : Stage c o listener slot resource E) (hknows : Knows c c') : Stage c' o listener slot resource E := by
  cases h with
  | free => exact .free
  | stays hX hE => exact .stays hX fun x hx => ⟨(hE x hx).1, hknows.speaks (hE x hx).2⟩
  | waiting => exact .waiting
  | done callbackData => exact .done callbackData
  | deleting listener => exact .deleting listener
  | held part slot => exact .held part slot
  | released part slot => exact .released part slot

/-- Only one object changes. -/
theorem Stages.update (h : Stages objects slots c E) (hknows : Knows c c') (ho : o ≠ wlDisplay)
    (hobjects : ∀ o', o' ≠ o → objects' o' = objects o') (hslots : ∀ o', o' ≠ o → slots' o' = slots o')
    (hresources : ∀ o', o' ≠ o → c'.resources o' = c.resources o') (hE : ∀ o', o' ≠ o → about o' E' = about o' E)
    (hstage : Stage c' o (objects' o) (slots' o) (c'.resources o) (about o E')) : Stages objects' slots' c' E' where
  stage o' ho' := by
    rcases eq_or_ne o' o with rfl | hne
    · exact hstage
    · rw [hobjects o' hne, hslots o' hne, hresources o' hne, hE o' hne]
      exact (h.stage o' ho').mono hknows
  noDisplay := by
    rw [hobjects _ ho.symm, hresources _ ho.symm]
    exact h.noDisplay
  errors := by
    rw [hE _ ho.symm]
    exact h.errors

/-- No object changes, except that the renderer has heard an event or there is one more. -/
theorem Stages.events (h : Stages objects slots c E) (hresources : c'.resources = c.resources) (hknows : Knows c c')
    (ho : o ≠ wlDisplay) (hE : ∀ o', o' ≠ o → about o' E' = about o' E)
    (hstage : Stage c' o (objects o) (slots o) (c.resources o) (about o E')) : Stages objects slots c' E' :=
  h.update hknows ho (fun _ _ => rfl) (fun _ _ => rfl) (fun _ _ => by rw [hresources]) hE (hresources ▸ hstage)

theorem Stages.not_display {X : Resource} (h : Stages objects slots c E) (ho : c.resources o = some X) :
    o ≠ wlDisplay := by
  intro heq
  rw [heq, h.noDisplay.2] at ho
  cases ho

/-! ### What the stage says -/

theorem Stages.of_resource (h : Stages objects slots c E) {X : Resource} (ho : c.resources o = some X) :
    Stage c o (objects o) (slots o) (some X) (about o E) := by
  have hstage := h.stage o (h.not_display ho)
  rw [ho] at hstage
  exact hstage

theorem Stages.of_stays (h : Stages objects slots c E) {X : Resource} (ho : c.resources o = some X) (hX : X.Stays) :
    objects o = some (listenerOf X) ∧ slots o = none ∧ ∀ x ∈ about o E, x.1 = o ∧ Speaks c X x.2 := by
  have hstage := h.of_resource ho
  generalize objects o = listener, slots o = slot, about o E = events at hstage ⊢
  cases hstage with
  | stays _ hE => exact ⟨rfl, rfl, hE⟩
  | waiting => cases hX
  | held part slot => cases hX
  | released part slot => cases hX

theorem Stages.of_callback (h : Stages objects slots c E) (ho : c.resources o = some .callback) :
    objects o = some (some .callback) ∧ slots o = none ∧ about o E = [] := by
  have hstage := h.of_resource ho
  generalize objects o = listener, slots o = slot, about o E = events at hstage ⊢
  cases hstage with
  | stays hX _ => cases hX
  | waiting => exact ⟨rfl, rfl, rfl⟩

theorem Stages.of_held (h : Stages objects slots c E) {part : Part} (ho : c.resources o = some (.buffer part .held)) :
    objects o = some (some .buffer) ∧ (∃ slot, slots o = some slot) ∧ about o E = [] := by
  have hstage := h.of_resource ho
  generalize objects o = listener, slots o = slot, about o E = events at hstage ⊢
  cases hstage with
  | stays hX _ => cases hX
  | held _ slot => exact ⟨rfl, ⟨slot, rfl⟩, rfl⟩

/-- An id that the renderer does not use is not in use. -/
theorem Stages.of_unused (h : Stages objects slots c E) (hne : o ≠ wlDisplay) (ho : objects o = none) :
    slots o = none ∧ c.resources o = none ∧ about o E = [] := by
  have hstage := h.stage o hne
  rw [ho] at hstage
  generalize slots o = slot, c.resources o = resource, about o E = events at hstage ⊢
  cases hstage with
  | free => exact ⟨rfl, rfl, rfl⟩

/-! ### The next event -/

/-- Only the object of an event changes when the event is heard. -/
theorem Stages.skip (h : Stages objects slots c (x :: E)) (hstage : subject x ≠ wlDisplay →
    Stage c (subject x) (objects (subject x)) (slots (subject x)) (c.resources (subject x)) (about (subject x) E)) :
    Stages objects slots c E where
  stage o ho := by
    rcases eq_or_ne (subject x) o with rfl | hne
    · exact hstage ho
    · have hold := h.stage o ho
      rw [about_cons_of_ne hne] at hold
      exact hold
  noDisplay := h.noDisplay
  errors y hy := h.errors y <| by
    rw [about, List.filter_cons]
    split
    · exact List.mem_cons_of_mem _ hy
    · exact hy

/-- What the renderer can hear next, and what is true of the object then. Where the renderer itself does not change,
    the object is in its next stage. -/
inductive Heard (objects : Object → Option (Option Listener)) (slots : Object → Option ℕ) (c : Compositor)
    (E : List (Object × Event)) : Object × Event → Prop
  | error (object : Object) (code : UInt32) (message : Text) (hnext : Stages objects slots c E) :
    Heard objects slots c E (wlDisplay, .error object code message)
  | stays {o : Object} {event : Event} {X : Resource} (ho : o ≠ wlDisplay) (hobject : objects o = some (listenerOf X))
    (hresource : c.resources o = some X) (hX : X.Stays) (hspeaks : Speaks c X event)
    (hnext : Stages objects slots c E) : Heard objects slots c E (o, event)
  | done {o : Object} {callbackData : UInt32} (ho : o ≠ wlDisplay) (hobject : objects o = some (some .callback))
    (hnext : Stages objects slots c E) : Heard objects slots c E (o, .done callbackData)
  | deleteId {o : Object} {listener : Option Listener} (ho : o ≠ wlDisplay) (hobject : objects o = some listener)
    (hslot : slots o = none) (hresource : c.resources o = none) (hE : about o E = []) :
    Heard objects slots c E (wlDisplay, .deleteId o)
  | release {o : Object} {part : Part} {slot : ℕ} (ho : o ≠ wlDisplay) (hobject : objects o = some (some .buffer))
    (hslot : slots o = some slot) (hresource : c.resources o = some (.buffer part .released)) (hE : about o E = []) :
    Heard objects slots c E (o, .release)

theorem Stages.heard (h : Stages objects slots c (x :: E)) : Heard objects slots c E x := by
  have habout : about (subject x) (x :: E) = x :: about (subject x) E := about_cons_self rfl
  by_cases heq : subject x = wlDisplay
  · have herrors := h.errors
    rw [← heq, habout, heq] at herrors
    obtain ⟨object, code, message, hx⟩ := herrors x (List.mem_cons_self ..)
    have hnext := h.skip fun hne => absurd heq hne
    rw [hx]
    exact .error object code message hnext
  · have hskip := h.skip
    have hstage := h.stage _ heq
    rw [habout] at hstage
    generalize hlistener : objects (subject x) = listener, hslot : slots (subject x) = slot,
      hresource : c.resources (subject x) = resource, hevents : x :: about (subject x) E = events at hstage hskip
    cases hstage with
    | free => cases hevents
    | stays hX hE =>
      obtain ⟨hx, hspeaks⟩ := hE x (hevents ▸ List.mem_cons_self ..)
      have hnext := hskip fun _ => .stays hX fun y hy => hE y (hevents ▸ List.mem_cons_of_mem _ hy)
      obtain ⟨o, event⟩ := x
      change o = _ at hx
      rw [← hx] at heq hlistener hresource
      exact .stays heq hlistener hresource hX hspeaks hnext
    | waiting => cases hevents
    | done callbackData =>
      obtain ⟨hx, hE⟩ := List.cons.inj hevents
      have hnext := hskip fun _ => hE ▸ .deleting _
      rw [hx]
      exact .done heq hlistener hnext
    | deleting listener =>
      obtain ⟨hx, hE⟩ := List.cons.inj hevents
      rw [hx]
      exact .deleteId heq hlistener hslot hresource hE
    | held part slot => cases hevents
    | released part slot =>
      obtain ⟨hx, hE⟩ := List.cons.inj hevents
      rw [hx]
      exact .release heq hlistener hslot hresource hE

/-! ### Requests of the renderer -/

/-- A new object. -/
theorem Stages.create (h : Stages objects slots c E) (hne : id ≠ wlDisplay) (hid : objects id = none) {X : Resource}
    (hX : X.Stays ∨ X = .callback) :
    Stages (Function.update objects id (some (listenerOf X))) slots (c.put id (some X)) E := by
  obtain ⟨hslot, -, hE⟩ := h.of_unused hne hid
  refine h.update ⟨List.Subset.refl _, List.Subset.refl _⟩ hne (fun o ho => Function.update_of_ne ho ..) (fun _ _ => rfl)
    (fun o ho => Compositor.put_of_ne ho) (fun _ _ => rfl) ?_
  rw [Function.update_self, Compositor.put_self, hslot, hE]
  rcases hX with hX | rfl
  · exact .stays hX fun x hx => by cases hx
  · exact .waiting

/-- The compositor learns something, but nothing of the objects. -/
theorem Stages.keeps (h : Stages objects slots c E) (hresources : c'.resources = c.resources) (hknows : Knows c c') :
    Stages objects slots c' E where
  stage o ho := hresources ▸ (h.stage o ho).mono hknows
  noDisplay := hresources ▸ h.noDisplay
  errors := h.errors

/-! ### Moves of the compositor -/

/-- An object that stays says something more. -/
theorem Stages.say (h : Stages objects slots c (E ++ E')) {X : Resource} (ho : c.resources o = some X) (hX : X.Stays)
    (hresources : c'.resources = c.resources) (hknows : Knows c c') (hes : ∀ x ∈ es, x.1 = o ∧ Speaks c' X x.2) :
    Stages objects slots c' (E ++ es ++ E') := by
  have hne := h.not_display ho
  obtain ⟨hobject, hslot, hE⟩ := h.of_stays ho hX
  have hsubject : ∀ x ∈ es, subject x = o := fun x hx => by
    obtain ⟨object, event⟩ := x
    obtain rfl : object = o := (hes _ hx).1
    exact subject_of_ne hne
  refine h.events hresources hknows hne (fun o' ho' => about_insert fun x hx heq => ho' (heq ▸ hsubject x hx)) ?_
  rw [hobject, hslot, ho]
  refine .stays hX fun x hx => ?_
  rw [about_append, about_append, List.mem_append, List.mem_append] at hx
  rcases hx with (hx | hx) | hx
  · obtain ⟨hx₁, hspeaks⟩ := hE x (about_append o E E' ▸ List.mem_append_left _ hx)
    exact ⟨hx₁, hknows.speaks hspeaks⟩
  · exact hes x (List.mem_filter.mp hx).1
  · obtain ⟨hx₁, hspeaks⟩ := hE x (about_append o E E' ▸ List.mem_append_right _ hx)
    exact ⟨hx₁, hknows.speaks hspeaks⟩

/-- The compositor changes what an object of which no event is on its way is to it, and says so. -/
theorem Stages.turn (h : Stages objects slots c (E ++ E')) (hne : o ≠ wlDisplay) {Y : Option Resource}
    (hE : about o (E ++ E') = []) (hes : ∀ x ∈ es, subject x = o)
    (hstage : Stage c o (objects o) (slots o) Y es) : Stages objects slots (c.put o Y) (E ++ es ++ E') := by
  have hknows : Knows c (c.put o Y) := ⟨List.Subset.refl _, List.Subset.refl _⟩
  refine h.update hknows hne (fun _ _ => rfl) (fun _ _ => rfl) (fun o' ho' => Compositor.put_of_ne ho')
    (fun o' ho' => about_insert fun x hx heq => ho' (heq ▸ hes x hx)) ?_
  rw [about_append, List.append_eq_nil_iff] at hE
  rw [Compositor.put_self, about_append, about_append, hE.1, hE.2, List.nil_append, List.append_nil, about,
    List.filter_eq_self.mpr fun x hx => by simpa using hes x hx]
  exact hstage.mono hknows

theorem Stages.move {m : Compositor.Move} (h : Stages objects slots c (E ++ E')) (hm : c.after m = some c') :
    Stages objects slots c' (E ++ Compositor.events m ++ E') := by
  cases m with
  | global registry name interface version =>
    obtain ⟨ho, ⟨⟩⟩ := Option.ite_none_right_eq_some.mp hm
    refine h.say ho trivial rfl ⟨List.subset_cons_self .., List.Subset.refl _⟩ ?_
    exact List.forall_mem_singleton.mpr ⟨rfl, List.mem_cons_self ..⟩
  | globalRemove registry name =>
    obtain ⟨⟨ho, -⟩, ⟨⟩⟩ := Option.ite_none_right_eq_some.mp hm
    exact h.say ho trivial rfl (Knows.refl c) (List.forall_mem_singleton.mpr ⟨rfl, trivial⟩)
  | done callback callbackData =>
    obtain ⟨ho, ⟨⟩⟩ := Option.ite_none_right_eq_some.mp hm
    obtain ⟨hobject, hslot, hE⟩ := h.of_callback ho
    refine h.turn (h.not_display ho) hE ?_ ?_
    · exact List.forall_mem_cons.mpr ⟨subject_of_ne (h.not_display ho), List.forall_mem_singleton.mpr rfl⟩
    · rw [hobject, hslot]
      exact .done callbackData
  | configure layerSurface serial width height =>
    obtain ⟨ho, ⟨⟩⟩ := Option.ite_none_right_eq_some.mp hm
    refine h.say ho trivial rfl ⟨List.Subset.refl _, List.subset_cons_self ..⟩ ?_
    exact List.forall_mem_singleton.mpr ⟨rfl, List.mem_cons_self ..⟩
  | closed layerSurface =>
    obtain ⟨ho, ⟨⟩⟩ := Option.ite_none_right_eq_some.mp hm
    exact h.say ho trivial rfl (Knows.refl c) (List.forall_mem_singleton.mpr ⟨rfl, trivial⟩)
  | release wlBuffer =>
    simp only [Compositor.after] at hm
    split at hm
    · next part ho =>
      cases hm
      obtain ⟨hobject, ⟨slot, hslot⟩, hE⟩ := h.of_held ho
      refine h.turn (h.not_display ho) hE ?_ ?_
      · exact List.forall_mem_singleton.mpr (subject_of_ne (h.not_display ho))
      · rw [hobject, hslot]
        exact .released part slot
    · cases hm
  | unheard object event =>
    simp only [Compositor.after] at hm
    split at hm
    · next interface ho =>
      cases hm
      exact h.say ho trivial rfl (Knows.refl c) (List.forall_mem_singleton.mpr ⟨rfl, trivial⟩)
    · next ho =>
      cases hm
      exact h.say ho trivial rfl (Knows.refl c) (List.forall_mem_singleton.mpr ⟨rfl, trivial⟩)
    · cases hm
  | error object code message =>
    cases hm
    have hother : ∀ o, o ≠ wlDisplay → about o (E ++ [(wlDisplay, .error object code message)] ++ E') = about o (E ++ E') :=
      fun o ho => about_insert (List.forall_mem_singleton.mpr fun heq => ho heq.symm)
    refine ⟨fun o ho => hother o ho ▸ h.stage o ho, h.noDisplay, fun x hx => ?_⟩
    have herrors := h.errors
    rw [about_append] at herrors
    rw [Compositor.events, about_append, about_append, List.mem_append, List.mem_append] at hx
    rcases hx with (hx | hx) | hx
    · exact herrors x (List.mem_append_left _ hx)
    · exact ⟨object, code, message, List.mem_singleton.mp (List.mem_filter.mp hx).1⟩
    · exact herrors x (List.mem_append_right _ hx)

end

end Zlinestatus.Wayland
