import Zlinestatus.Model.Compositor

/-! What the compositor does by itself does not interfere with the requests that are still on their way. -/

namespace Zlinestatus.Wayland
open Wire (Object wlDisplay)

/-- A resource that no request changes: only the compositor itself ends a callback or releases a buffer it holds. -/
def Resource.Lasting : Resource → Prop
  | .pool _ | .buffer _ .fresh | .buffer _ .released => False
  | _ => True

namespace Compositor
variable {c c' c₁ c₂ : Compositor} {o id : Object} {X : Resource} {Y : Option Resource} {r : Request} {m : Move}

theorem add_eq_some : c.add id X = some c' ↔
    c.resources id = none ∧ id ≠ 0 ∧ id ≠ wlDisplay ∧ c' = c.put id (some X) := by
  unfold add
  split
  · next h => simp [h, eq_comm]
  · next h =>
    constructor
    · intro h'
      cases h'
    · intro h'
      exact absurd ⟨h'.1, h'.2.1, h'.2.2.1⟩ h

@[simp] theorem put_self (c : Compositor) (o : Object) (Y : Option Resource) : (c.put o Y).resources o = Y :=
  Function.update_self ..

theorem put_apply (c : Compositor) (o id : Object) (Y : Option Resource) :
    (c.put o Y).resources id = if id = o then Y else c.resources id := by
  unfold put
  exact Function.update_apply ..

theorem put_of_ne (h : id ≠ o) : (c.put o Y).resources id = c.resources id := Function.update_of_ne h ..

theorem put_comm {Z : Option Resource} (h : id ≠ o) : (c.put o Y).put id Z = (c.put id Z).put o Y := by
  simp only [put, Function.update_comm h]

/-! ### One request -/

theorem next_lasting (ho : c.resources o = some X) (hX : X.Lasting) (h : c.next r = some c') :
    c'.resources o = some X := by
  cases r with
  | attach wlSurface wlBuffer =>
    simp only [next] at h
    split at h
    · next part hsurface hbuffer =>
      cases h
      have hne : o ≠ wlBuffer := by
        intro heq
        rw [← heq, ho] at hbuffer
        cases hbuffer
        exact hX
      exact (put_of_ne hne).trans ho
    · cases h
  | _ =>
    simp only [next, add] at h
    grind [put_apply, Resource.Lasting]

/-- No request looks at a callback, and none at a buffer that is held. -/
theorem next_put (ho : c.resources o = some X) (hX : X = .callback ∨ ∃ part, X = .buffer part .held)
    (h : c.next r = some c') : (c.put o Y).next r = some (c'.put o Y) := by
  cases r <;> simp only [next, add] at h ⊢ <;> grind [put_of_ne, put_comm, put]

/-- A request can only gain by more globals and more configure events. -/
theorem next_announced (g : UInt32 × Interface × UInt32) (h : c.next r = some c') :
    { c with announced := g :: c.announced }.next r = some { c' with announced := g :: c'.announced } := by
  cases r with
  | createBuffer | destroyBuffer | resizePool | destroyPool | attach =>
    simp only [next, add] at h ⊢
    split at h <;> grind [put]
  | _ =>
    simp only [next, add, put] at h ⊢
    grind

theorem next_serials (serial : UInt32) (h : c.next r = some c') :
    { c with serials := serial :: c.serials }.next r = some { c' with serials := serial :: c'.serials } := by
  cases r with
  | createBuffer | destroyBuffer | resizePool | destroyPool | attach =>
    simp only [next, add] at h ⊢
    split at h <;> grind [put]
  | _ =>
    simp only [next, add, put] at h ⊢
    grind

/-- Only the compositor itself announces globals and sends configure events. -/
theorem next_heard (h : c.next r = some c') : c'.announced = c.announced ∧ c'.serials = c.serials := by
  cases r <;> simp only [next, add] at h <;> grind [put]

/-! ### A move and a request -/

/-- A move before the request or after it: both are possible, and they lead to the same state. -/
theorem after_next (hm : c.after m = some c₁) (hr : c.next r = some c₂) :
    ∃ c₃, c₁.next r = some c₃ ∧ c₂.after m = some c₃ := by
  have lasts : ∀ {o X}, c.resources o = some X → X.Lasting → c₂.resources o = some X := fun ho hX =>
    next_lasting ho hX hr
  cases m with
  | global registry name interface version =>
    obtain ⟨ho, ⟨⟩⟩ := Option.ite_none_right_eq_some.mp hm
    exact ⟨_, next_announced _ hr, if_pos (lasts ho trivial)⟩
  | globalRemove registry name =>
    obtain ⟨⟨ho, hkept⟩, ⟨⟩⟩ := Option.ite_none_right_eq_some.mp hm
    exact ⟨c₂, hr, if_pos ⟨lasts ho trivial, (next_heard hr).1 ▸ hkept⟩⟩
  | done callback callbackData =>
    obtain ⟨ho, ⟨⟩⟩ := Option.ite_none_right_eq_some.mp hm
    exact ⟨_, next_put ho (Or.inl rfl) hr, if_pos (lasts ho trivial)⟩
  | configure layerSurface serial width height =>
    obtain ⟨ho, ⟨⟩⟩ := Option.ite_none_right_eq_some.mp hm
    exact ⟨_, next_serials _ hr, if_pos (lasts ho trivial)⟩
  | closed layerSurface =>
    obtain ⟨ho, ⟨⟩⟩ := Option.ite_none_right_eq_some.mp hm
    exact ⟨c₂, hr, if_pos (lasts ho trivial)⟩
  | release wlBuffer =>
    simp only [after] at hm ⊢
    split at hm
    · next part ho =>
      cases hm
      refine ⟨_, next_put ho (Or.inr ⟨part, rfl⟩) hr, ?_⟩
      rw [lasts ho trivial]
    · cases hm
  | unheard object event =>
    simp only [after] at hm ⊢
    split at hm
    · next interface ho =>
      cases hm
      exact ⟨c₂, hr, by rw [lasts ho trivial]⟩
    · next ho =>
      cases hm
      exact ⟨c₂, hr, by rw [lasts ho trivial]⟩
    · cases hm
  | error object code message =>
    cases hm
    exact ⟨c₂, hr, rfl⟩

end Compositor

section
variable {c c' : Compositor} {r : Request} {m : Compositor.Move} {es : List (Object × Event)}

theorem accept_eq_some : compositor.accept c r = some (c', es) ↔ c.next r = some c' ∧ Compositor.replies r = es := by
  change (c.next r).map (fun compositor => (compositor, Compositor.replies r)) = _ ↔ _
  rw [Option.map_eq_some_iff]
  simp

theorem move_eq_some : compositor.move c m = some (c', es) ↔ c.after m = some c' ∧ Compositor.events m = es := by
  change (c.after m).map (fun compositor => (compositor, Compositor.events m)) = _ ↔ _
  rw [Option.map_eq_some_iff]
  simp

end

/-- The compositor's own moves can wait until it has taken the requests on their way. -/
theorem compositor_commutes : compositor.Commutes := by
  intro c c₁ c₂ m r es es' hmove haccept
  obtain ⟨hm, hes⟩ := move_eq_some.mp hmove
  obtain ⟨hr, hes'⟩ := accept_eq_some.mp haccept
  obtain ⟨c₃, hr₁, hm₂⟩ := Compositor.after_next hm hr
  exact ⟨c₃, accept_eq_some.mpr ⟨hr₁, hes'⟩, move_eq_some.mpr ⟨hm₂, hes⟩⟩

end Zlinestatus.Wayland
