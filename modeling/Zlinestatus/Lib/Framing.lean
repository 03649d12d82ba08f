import Mathlib.Data.List.Basic

/-! A stream of frames that arrives in pieces, and a reader that takes frames off the front of what it has and keeps the
    rest for the next piece. A frame is recognised by its first elements: a piece that ends behind these and before the
    end of the frame is an error. -/

namespace Framing
variable {σ ε β : Type}

/-! ### The reader -/

section
variable (take : σ → List β → Option (Except ε (σ × List β)))

/-- Takes frames off the input until `take` waits for more. Without enough fuel there is no result. -/
def drain : ℕ → σ → List β → Option (Except ε (σ × List β))
  | 0, _, _ => none
  | fuel + 1, s, input =>
    match take s input with
    | none => some (.ok (s, input))
    | some (.error e) => some (.error e)
    | some (.ok (s, rest)) => drain fuel s rest

/-- One piece, behind what is left of the pieces before. A frame that takes nothing would be taken for ever. -/
def feed (s : σ) (carry piece : List β) : Option (Except ε (σ × List β)) :=
  drain take ((carry ++ piece).length + 1) s (carry ++ piece)

def feedAll : σ → List β → List (List β) → Option (Except ε (σ × List β))
  | s, carry, [] => some (.ok (s, carry))
  | s, carry, piece :: pieces =>
    match feed take s carry piece with
    | none => none
    | some (.error e) => some (.error e)
    | some (.ok (s, carry)) => feedAll s carry pieces

end

/-! ### Frames -/

/-- From `s` to `s'` by a frame of at least `h` elements, of which the reader needs all as soon as it has the first `h`. -/
structure Frame (take : σ → List β → Option (Except ε (σ × List β))) (h : ℕ) (e : ε) (s : σ) (frame : List β) (s' : σ) :
    Prop where
  long : h ≤ frame.length
  whole : ∀ rest, take s (frame ++ rest) = some (.ok (s', rest))
  cut : ∀ part, part <+: frame → part ≠ frame → h ≤ part.length → take s part = some (.error e)

inductive Frames (take : σ → List β → Option (Except ε (σ × List β))) (h : ℕ) (e : ε) : σ → List (List β) → σ → Prop
  | nil {s : σ} : Frames take h e s [] s
  | cons {s s₁ s' : σ} {frame : List β} {frames : List (List β)} (hframe : Frame take h e s frame s₁)
    (hframes : Frames take h e s₁ frames s') : Frames take h e s (frame :: frames) s'

/-- A position in the stream where a piece may end: in front of a frame, or within its first `h` elements. -/
def Whole (h : ℕ) : List (List β) → ℕ → Prop
  | [], n => n = 0
  | frame :: frames, n => n < h ∨ frame.length ≤ n ∧ Whole h frames (n - frame.length)

instance Whole.decidable (h : ℕ) : (frames : List (List β)) → (n : ℕ) → Decidable (Whole h frames n)
  | [], n => inferInstanceAs (Decidable (n = 0))
  | frame :: frames, n =>
    have := Whole.decidable h frames (n - frame.length)
    inferInstanceAs (Decidable (n < h ∨ frame.length ≤ n ∧ Whole h frames (n - frame.length)))

/-- The positions at which pieces end, of which the first begins at `n`. -/
def cuts (n : ℕ) : List (List β) → List ℕ
  | [] => []
  | piece :: pieces => (n + piece.length) :: cuts (n + piece.length) pieces

section
variable {take : σ → List β → Option (Except ε (σ × List β))} {h : ℕ} {e : ε} {s s' s₁ : σ} {frame part : List β}
  {frames : List (List β)}

theorem Frames.length_le (hframes : Frames take h e s frames s') : frames.length * h ≤ frames.flatten.length := by
  induction hframes with
  | nil => simp
  | cons hframe _ ih =>
    rw [List.flatten_cons, List.length_append, List.length_cons, Nat.succ_mul, Nat.add_comm]
    exact Nat.add_le_add hframe.long ih

theorem whole_append {done : List (List β)} (hdone : Frames take h e s done s₁) (rest : List (List β)) (n : ℕ) :
    Whole h (done ++ rest) (done.flatten.length + n) ↔ Whole h rest n := by
  induction hdone with
  | nil => simp
  | cons hframe _ ih =>
    have hlong := hframe.long
    rw [List.flatten_cons, List.length_append, List.cons_append, Whole, Nat.add_assoc, Nat.add_sub_cancel_left, ih]
    constructor
    · intro hor
      rcases hor with hlt | hwhole
      · omega
      · exact hwhole.2
    · intro hwhole
      exact Or.inr ⟨Nat.le_add_right _ _, hwhole⟩

/-- What was read of a stream is frames, and a part of the next one. -/
theorem Frames.split (hframes : Frames take h e s frames s') {input : List β} (hinput : input <+: frames.flatten) :
    ∃ done rest part s₁, frames = done ++ rest ∧ input = done.flatten ++ part ∧ Frames take h e s done s₁ ∧
      Frames take h e s₁ rest s' ∧ (rest = [] ∧ part = [] ∨
        ∃ frame frames', rest = frame :: frames' ∧ part <+: frame ∧ part ≠ frame) := by
  induction hframes generalizing input with
  | nil =>
    have hnil : input = [] := List.prefix_nil.mp hinput
    exact ⟨[], [], [], _, rfl, hnil, .nil, .nil, Or.inl ⟨rfl, rfl⟩⟩
  | @cons s s₁ s' frame frames hframe hframes ih =>
    rw [List.flatten_cons] at hinput
    obtain ⟨tail, htail⟩ := hinput
    rcases List.append_eq_append_iff.mp htail with ⟨left, hleft, -⟩ | ⟨more, rfl, hmore⟩
    · have hpart : input <+: frame := ⟨left, hleft.symm⟩
      by_cases heq : input = frame
      · obtain ⟨done, rest, part, s₂, rfl, hsplit, hdone, hrest, hpart'⟩ := ih (List.nil_prefix)
        obtain ⟨hnil, rfl⟩ := List.append_eq_nil_iff.mp hsplit.symm
        exact ⟨frame :: done, rest, [], s₂, rfl, by rw [List.flatten_cons, hnil, heq, List.append_nil, List.append_nil],
          .cons hframe hdone, hrest, hpart'⟩
      · exact ⟨[], frame :: frames, input, s, rfl, rfl, .nil, .cons hframe hframes, Or.inr ⟨frame, frames, rfl, hpart, heq⟩⟩
    · obtain ⟨done, rest, part, s₂, rfl, rfl, hdone, hrest, hpart⟩ := ih ⟨tail, hmore.symm⟩
      exact ⟨frame :: done, rest, part, s₂, rfl, by rw [List.flatten_cons, List.append_assoc], .cons hframe hdone, hrest,
        hpart⟩

theorem cuts_add (k n : ℕ) (pieces : List (List β)) : cuts (k + n) pieces = (cuts n pieces).map (k + ·) := by
  induction pieces generalizing n with
  | nil => rfl
  | cons piece pieces ih => rw [cuts, cuts, List.map_cons, Nat.add_assoc, ih]

/-! ### Reading in pieces -/

theorem drain_frames {done : List (List β)} (hwait : ∀ s input, input.length < h → take s input = none)
    (hdone : Frames take h e s done s₁) (hpart : part.length < h) {fuel : ℕ} (hfuel : done.length < fuel) :
    drain take fuel s (done.flatten ++ part) = some (.ok (s₁, part)) := by
  induction hdone generalizing fuel with
  | nil =>
    obtain ⟨fuel, rfl⟩ := Nat.exists_eq_succ_of_ne_zero (Nat.ne_of_gt hfuel)
    rw [drain, List.flatten_nil, List.nil_append, hwait _ _ hpart]
  | cons hframe _ ih =>
    obtain ⟨fuel, rfl⟩ := Nat.exists_eq_succ_of_ne_zero (Nat.ne_of_gt (Nat.zero_lt_of_lt hfuel))
    rw [drain, List.flatten_cons, List.append_assoc, hframe.whole]
    exact ih (Nat.lt_of_succ_lt_succ hfuel)

theorem drain_cut {done : List (List β)} {s₂ : σ} (hdone : Frames take h e s done s₁) (hframe : Frame take h e s₁ frame s₂)
    (hpart : part <+: frame) (hne : part ≠ frame) (hlong : h ≤ part.length) {fuel : ℕ} (hfuel : done.length < fuel) :
    drain take fuel s (done.flatten ++ part) = some (.error e) := by
  induction hdone generalizing fuel with
  | nil =>
    obtain ⟨fuel, rfl⟩ := Nat.exists_eq_succ_of_ne_zero (Nat.ne_of_gt hfuel)
    rw [drain, List.flatten_nil, List.nil_append, hframe.cut part hpart hne hlong]
  | cons hhead _ ih =>
    obtain ⟨fuel, rfl⟩ := Nat.exists_eq_succ_of_ne_zero (Nat.ne_of_gt (Nat.zero_lt_of_lt hfuel))
    rw [drain, List.flatten_cons, List.append_assoc, hhead.whole]
    exact ih hframe (Nat.lt_of_succ_lt_succ hfuel)

/-- One piece: it is taken where it ends in front of a frame or within the first elements of one. -/
theorem feed_piece (hwait : ∀ s input, input.length < h → take s input = none) (hpos : 0 < h) {carry piece : List β}
    {pieces : List (List β)} (hframes : Frames take h e s frames s')
    (hstream : carry ++ (piece ++ pieces.flatten) = frames.flatten) :
    (¬Whole h frames (carry.length + piece.length) ∧ feed take s carry piece = some (.error e)) ∨
    ∃ done rest part s₁, frames = done ++ rest ∧ carry ++ piece = done.flatten ++ part ∧ Frames take h e s done s₁ ∧
      Frames take h e s₁ rest s' ∧ part.length < h ∧ Whole h frames (carry.length + piece.length) ∧
      feed take s carry piece = some (.ok (s₁, part)) := by
  have hprefix : carry ++ piece <+: frames.flatten := ⟨pieces.flatten, by rw [List.append_assoc, hstream]⟩
  obtain ⟨done, rest, part, s₁, rfl, hsplit, hdone, hrest, hpart⟩ := hframes.split hprefix
  have hlength : carry.length + piece.length = done.flatten.length + part.length := by
    rw [← List.length_append, hsplit, List.length_append]
  have hfuel : done.length < (done.flatten ++ part).length + 1 := by
    have hle := hdone.length_le
    have hmul := Nat.le_mul_of_pos_right done.length hpos
    rw [List.length_append]
    omega
  rw [hlength, whole_append hdone]
  rcases hpart with ⟨rfl, rfl⟩ | ⟨frame, frames', rfl, hprefix', hne⟩
  · exact Or.inr ⟨done, [], [], s₁, rfl, hsplit, hdone, hrest, hpos, rfl, by
      rw [feed, hsplit]
      exact drain_frames hwait hdone (show ([] : List β).length < h from hpos) hfuel⟩
  · have hlt : part.length < frame.length := Nat.lt_of_le_of_ne hprefix'.length_le fun heq => hne (hprefix'.eq_of_length heq)
    rcases Nat.lt_or_ge part.length h with hshort | hlong
    · refine Or.inr ⟨done, frame :: frames', part, s₁, rfl, hsplit, hdone, hrest, hshort, Or.inl hshort, ?_⟩
      rw [feed, hsplit]
      exact drain_frames hwait hdone hshort hfuel
    · refine Or.inl ⟨fun hwhole => ?_, ?_⟩
      · rcases hwhole with hshort | hwhole
        · omega
        · omega
      · cases hrest with
        | cons hframe _ =>
          rw [feed, hsplit]
          exact drain_cut hdone hframe hprefix' hne hlong hfuel

/-- A stream of frames, in whatever pieces it arrives: the frames are taken, each once and in their order, where every
    piece ends in front of a frame or within the first elements of one, and there is an error where one does not. -/
theorem feedAll_eq (hwait : ∀ s input, input.length < h → take s input = none) (hpos : 0 < h)
    (hframes : Frames take h e s frames s') {carry : List β} {pieces : List (List β)}
    (hstream : carry ++ pieces.flatten = frames.flatten) (hcarry : carry.length < h) :
    feedAll take s carry pieces = if ∀ n ∈ cuts carry.length pieces, Whole h frames n then some (.ok (s', []))
      else some (.error e) := by
  induction pieces generalizing s carry frames with
  | nil =>
    rw [List.flatten_nil, List.append_nil] at hstream
    cases hframes with
    | nil =>
      rw [feedAll, hstream, cuts, if_pos (by simp)]
      rfl
    | cons hframe _ =>
      have hlong := hframe.long
      rw [hstream, List.flatten_cons, List.length_append] at hcarry
      omega
  | cons piece pieces ih =>
    rw [List.flatten_cons] at hstream
    rw [feedAll, cuts]
    rcases feed_piece hwait hpos hframes hstream with ⟨hnot, hfeed⟩ | hok
    · rw [hfeed, if_neg fun hall => hnot (hall _ (List.mem_cons_self ..))]
    · obtain ⟨done, rest, part, s₁, rfl, hsplit, hdone, hrest, hpart, hwhole, hfeed⟩ := hok
      have hlength : carry.length + piece.length = done.flatten.length + part.length := by
        rw [← List.length_append, hsplit, List.length_append]
      have hstream' : part ++ pieces.flatten = rest.flatten := by
        rw [← List.append_assoc, hsplit, List.flatten_append, List.append_assoc] at hstream
        exact List.append_cancel_left hstream
      rw [hfeed]
      simp only
      rw [ih hrest hstream' hpart, hlength, cuts_add]
      have hiff : (∀ n ∈ cuts part.length pieces, Whole h rest n) ↔
          ∀ n ∈ (done.flatten.length + part.length) :: (cuts part.length pieces).map (done.flatten.length + ·),
            Whole h (done ++ rest) n := by
        rw [List.forall_mem_cons, List.forall_mem_map, ← hlength]
        simp only [whole_append hdone, hwhole, true_and]
      by_cases hall : ∀ n ∈ cuts part.length pieces, Whole h rest n
      · rw [if_pos hall, if_pos (hiff.mp hall)]
      · rw [if_neg hall, if_neg (mt hiff.mpr hall)]

end

end Framing
