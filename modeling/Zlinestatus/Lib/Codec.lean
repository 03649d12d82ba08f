import Mathlib.Order.Basic

/-! Readers that take a value off the front of their input, and the writers they undo. -/

namespace Codec
variable {ι ε α β : Type}

/-- Off an input that starts with what `write` makes of a value, `read` takes that value and nothing else. -/
def Reads [Append ι] (write : α → ι) (read : StateT ι (Except ε) α) : Prop :=
  ∀ a rest, read (write a ++ rest) = .ok (a, rest)

variable {read : StateT ι (Except ε) α} {next : α → StateT ι (Except ε) β} {input rest : ι}

theorem bind_of_ok {a : α} (h : read input = .ok (a, rest)) : (read >>= next) input = next a rest := by
  change (read input >>= fun p => next p.1 p.2) = next a rest
  rw [h]
  rfl

/-- Two readers one behind the other succeed where both do. -/
theorem bind_eq_ok {b : β} : (read >>= next) input = .ok (b, rest) ↔
    ∃ a between, read input = .ok (a, between) ∧ next a between = .ok (b, rest) := by
  change (read input >>= fun p => next p.1 p.2) = .ok (b, rest) ↔ _
  rcases read input with e | ⟨a, between⟩
  · constructor
    · intro h
      cases h
    · rintro ⟨_, _, h, -⟩
      cases h
  · constructor
    · intro h
      exact ⟨a, between, rfl, h⟩
    · rintro ⟨_, _, h, h'⟩
      cases h
      exact h'

section
variable [Append ι] {write : α → ι}

theorem Reads.bind (h : Reads write read) (next : α → StateT ι (Except ε) β) (a : α) (rest : ι) :
    (read >>= next) (write a ++ rest) = next a rest := bind_of_ok (h a rest)

/-- Two readers one behind the other. -/
theorem Reads.pair {write' : β → ι} {read' : StateT ι (Except ε) β} (h : Reads write read) (h' : Reads write' read')
    (assoc : ∀ x y z : ι, x ++ y ++ z = x ++ (y ++ z)) :
    Reads (fun p : α × β => write p.1 ++ write' p.2) (do
      let a ← read
      let b ← read'
      pure (a, b)) := by
  intro p rest
  rw [assoc, h.bind, h'.bind]
  rfl

end

end Codec
