import Mathlib.Algebra.Order.Group.Multiset
import Mathlib.Data.Multiset.Range
import Mathlib.Data.Multiset.UnionInter
import Mathlib.Tactic.Abel

/-! An allocator as a ledger of blocks, growable lists in its blocks, and the account of a program that
    makes a planned sequence of calls until one of them fails. -/

namespace Alloc

/-- The answer to a call: failure, or success, in the block that holds the items already or in a new one. -/
inductive Reply where
  | fail
  | inPlace
  | moved
  deriving DecidableEq

/-- The blocks handed out are those below `next`. `released` lists what was given back, and `calls` counts
    the calls that can fail. -/
structure Ledger where
  next : ℕ := 0
  released : List ℕ := []
  calls : ℕ := 0
  deriving DecidableEq

namespace Ledger

def Live (l : Ledger) (b : ℕ) : Prop := b < l.next ∧ b ∉ l.released

instance (l : Ledger) : DecidablePred l.Live := fun _ => inferInstanceAs (Decidable (_ ∧ _))

/-- No block was given back twice, and none that was not handed out. -/
structure WellFormed (l : Ledger) : Prop where
  once : l.released.Nodup
  known : ∀ b ∈ l.released, b < l.next

def tick (l : Ledger) : Ledger := { l with calls := l.calls + 1 }

/-- A call that hands out a block. -/
def grow (l : Ledger) : Ledger := { l with next := l.next + 1, calls := l.calls + 1 }

def free (l : Ledger) (b : ℕ) : Ledger := { l with released := b :: l.released }

end Ledger

/-- The items of a list or a slice, and the block they are in. A list that was never added to has none. -/
structure Buffer (α : Type) where
  block : Option ℕ := none
  items : List α := []
  deriving DecidableEq

section
variable (replies : ℕ → Reply) {α : Type}

/-- Asks for room, in a given block if there is one. -/
def resize (l : Ledger) (block : Option ℕ) : Ledger × Option ℕ :=
  match replies l.calls, block with
  | .fail, _ => (l.tick, none)
  | .inPlace, some b => (l.tick, some b)
  | .moved, some b => (l.grow.free b, some l.next)
  | _, none => (l.grow, some l.next)

def alloc (l : Ledger) : Ledger × Option ℕ := resize replies l none

def Buffer.release (l : Ledger) (buf : Buffer α) : Ledger :=
  match buf.block with
  | none => l
  | some b => l.free b

/-- `ArrayList.append`; the list is as it was where this fails. -/
def Buffer.append (l : Ledger) (buf : Buffer α) (item : α) : Ledger × Option (Buffer α) :=
  match resize replies l buf.block with
  | (l, none) => (l, none)
  | (l, some b) => (l, some ⟨some b, buf.items ++ [item]⟩)

/-- `ArrayList.toOwnedSlice`: the list after the call, and the slice. A slice of no items takes no block. -/
def Buffer.toOwnedSlice (l : Ledger) (buf : Buffer α) : Ledger × Buffer α × Option (Buffer α) :=
  if buf.items.length = 0 then (buf.release l, {}, some {})
  else
    match resize replies l buf.block with
    | (l, none) => (l, buf, none)
    | (l, some b) => (l, {}, some ⟨some b, buf.items⟩)

end

/-! ### Accounts -/

/-- Every block handed out was given back once or is one of those owned. -/
def Accounted (l : Ledger) (owned : Multiset ℕ) : Prop := (l.released : Multiset ℕ) + owned = Multiset.range l.next

variable {l l' : Ledger} {owned : Multiset ℕ} {b : ℕ}

theorem Ledger.WellFormed.accounted (h : l.WellFormed) : ∃ owned, Accounted l owned := by
  have hle : (l.released : Multiset ℕ) ≤ Multiset.range l.next :=
    (Multiset.le_iff_subset (Multiset.coe_nodup.mpr h.once)).mpr fun b hb => Multiset.mem_range.mpr (h.known b hb)
  obtain ⟨owned, h⟩ := Multiset.le_iff_exists_add.mp hle
  exact ⟨owned, h.symm⟩

theorem Accounted.nodup (h : Accounted l owned) : ((l.released : Multiset ℕ) + owned).Nodup := by
  rw [h]
  exact Multiset.nodup_range _

theorem Accounted.wellFormed (h : Accounted l owned) : l.WellFormed where
  once := Multiset.coe_nodup.mp (Multiset.nodup_of_le (Multiset.le_add_right _ _) h.nodup)
  known b hb := by
    rw [← Multiset.mem_range, ← h]
    exact Multiset.mem_add.mpr (Or.inl (Multiset.mem_coe.mpr hb))

/-- The blocks owned are those that are live. -/
theorem Accounted.live_iff (h : Accounted l owned) : l.Live b ↔ b ∈ owned := by
  have hmem : b < l.next ↔ b ∈ l.released ∨ b ∈ owned := by
    rw [← Multiset.mem_range, ← h, Multiset.mem_add, Multiset.mem_coe]
  have hdisjoint : Disjoint (l.released : Multiset ℕ) owned := Multiset.disjoint_of_nodup_add h.nodup
  constructor
  · rintro ⟨hlt, hnot⟩
    exact (hmem.mp hlt).resolve_left hnot
  · intro hb
    exact ⟨hmem.mpr (Or.inr hb), fun hreleased => Multiset.disjoint_left.mp hdisjoint (Multiset.mem_coe.mpr hreleased) hb⟩

theorem Accounted.grow (h : Accounted l owned) : Accounted l.grow ({l.next} + owned) := by
  unfold Accounted at h ⊢
  rw [Ledger.grow, Multiset.range_succ, ← h, ← Multiset.singleton_add]
  abel

theorem Accounted.free (h : Accounted l ({b} + owned)) : Accounted (l.free b) owned := by
  unfold Accounted at h ⊢
  rw [Ledger.free, ← Multiset.cons_coe, ← Multiset.singleton_add, ← h]
  abel

/-- A routine that only gives blocks back, each of `blocks` once. -/
def Releases (routine : Ledger → Ledger) (blocks : Multiset ℕ) : Prop :=
  ∀ l, (routine l).next = l.next ∧ (routine l).calls = l.calls ∧
    ((routine l).released : Multiset ℕ) = blocks + l.released

variable {routine routine' : Ledger → Ledger} {given given' : Multiset ℕ}

theorem releases_id : Releases id 0 := fun _ => ⟨rfl, rfl, (zero_add _).symm⟩

theorem releases_free (b : ℕ) : Releases (·.free b) {b} := fun _ => ⟨rfl, rfl, rfl⟩

theorem Releases.comp (h : Releases routine given) (h' : Releases routine' given') :
    Releases (routine' ∘ routine) (given + given') := by
  intro l
  obtain ⟨hnext, hcalls, hreleased⟩ := h l
  obtain ⟨hnext', hcalls', hreleased'⟩ := h' (routine l)
  refine ⟨hnext'.trans hnext, hcalls'.trans hcalls, ?_⟩
  rw [Function.comp_apply, hreleased', hreleased]
  abel

theorem Accounted.release (h : Accounted l (given + owned)) (hr : Releases routine given) :
    Accounted (routine l) owned := by
  obtain ⟨hnext, -, hreleased⟩ := hr l
  unfold Accounted at h ⊢
  rw [hnext, hreleased, ← h]
  abel

/-- What a routine gives back is live before. -/
theorem Accounted.mem_release (h : Accounted l (given + owned)) (hr : Releases routine given) :
    b ∈ (routine l).released ∧ b ∉ l.released ↔ b ∈ given := by
  obtain ⟨-, -, hreleased⟩ := hr l
  have hmem : b ∈ (routine l).released ↔ b ∈ given ∨ b ∈ l.released := by
    rw [← Multiset.mem_coe, hreleased, Multiset.mem_add, Multiset.mem_coe]
  have hnot : b ∈ given → b ∉ l.released := fun hb =>
    (h.live_iff.mpr (Multiset.mem_add.mpr (Or.inl hb))).2
  rw [hmem]
  constructor
  · rintro ⟨hb, hnot⟩
    exact hb.resolve_right hnot
  · intro hb
    exact ⟨Or.inl hb, hnot hb⟩

/-! ### The blocks of items -/

section
variable {α : Type} (blocksOf : α → Multiset ℕ)

def held (block : Option ℕ) : Multiset ℕ := block.elim 0 ({·})

def ownedBy (items : List α) : Multiset ℕ := items.foldr (fun item blocks => blocksOf item + blocks) 0

def Buffer.blocks (buf : Buffer α) : Multiset ℕ := held buf.block + ownedBy blocksOf buf.items

theorem ownedBy_append_singleton (items : List α) (item : α) :
    ownedBy blocksOf (items ++ [item]) = ownedBy blocksOf items + blocksOf item := by
  induction items with
  | nil => simp [ownedBy]
  | cons x items ih =>
    change blocksOf x + ownedBy blocksOf (items ++ [item]) = blocksOf x + ownedBy blocksOf items + blocksOf item
    rw [ih, add_assoc]

/-- A loop that releases each item releases the blocks of all. -/
theorem releases_foldl {blocksOf : α → Multiset ℕ} {releaseItem : Ledger → α → Ledger}
    (h : ∀ item, Releases (releaseItem · item) (blocksOf item)) (items : List α) :
    Releases (fun l => items.foldl releaseItem l) (ownedBy blocksOf items) := by
  induction items with
  | nil => exact releases_id
  | cons item items ih => exact (h item).comp ih

theorem Buffer.releases_release (buf : Buffer α) : Releases (buf.release ·) (held buf.block) := by
  obtain ⟨_ | b, items⟩ := buf
  · exact releases_id
  · exact releases_free b

end

/-! ### Planned calls -/

section
variable {κ : Type} {replies : ℕ → Reply} {leaky : κ → Prop} {cs ds : List κ} {l₁ l₂ : Ledger} {ok : Bool}

/-- The first of the calls that fails, the first of them being the `n`th call made. -/
def firstFailure (replies : ℕ → Reply) : ℕ → List κ → Option κ
  | _, [] => none
  | n, c :: cs => if replies n = .fail then some c else firstFailure replies (n + 1) cs

/-- How a program that plans to make the calls `cs` ends, with the blocks it knows of: it makes them all, or
    up to the first that fails, and loses blocks if that call is a leaky one. -/
inductive Ended (replies : ℕ → Reply) (leaky : κ → Prop) (cs : List κ) (l l' : Ledger) :
    Bool → Multiset ℕ → Prop where
  | completed {owned : Multiset ℕ} (hnone : firstFailure replies l.calls cs = none)
    (hcalls : l'.calls = l.calls + cs.length) (h : Accounted l' owned) : Ended replies leaky cs l l' true owned
  | failed {owned : Multiset ℕ} (c : κ) (lost : Multiset ℕ) (hsome : firstFailure replies l.calls cs = some c)
    (hlost : lost = 0 ↔ ¬leaky c) (h : Accounted l' (lost + owned)) : Ended replies leaky cs l l' false owned

theorem firstFailure_append (n : ℕ) (cs ds : List κ) : firstFailure replies n (cs ++ ds) =
    (firstFailure replies n cs).or (firstFailure replies (n + cs.length) ds) := by
  induction cs generalizing n with
  | nil => rfl
  | cons c cs ih =>
    rw [List.cons_append, firstFailure, firstFailure]
    split
    · rfl
    · rw [ih, List.length_cons, Nat.add_right_comm, Nat.add_assoc]

theorem ended_nil (h : Accounted l owned) : Ended replies leaky ([] : List κ) l l true owned := .completed rfl rfl h

theorem Ended.accounted (h : Ended replies leaky cs l l' true owned) : Accounted l' owned := by
  cases h with
  | completed _ _ h => exact h

/-- A program that completes its calls and goes on. -/
theorem Ended.seq {owned₁ : Multiset ℕ} (h : Ended replies leaky cs l l₁ true owned₁)
    (h' : Ended replies leaky ds l₁ l₂ ok owned) : Ended replies leaky (cs ++ ds) l l₂ ok owned := by
  cases h with
  | completed hnone hcalls _ =>
    cases h' with
    | completed hnone' hcalls' h' =>
      refine .completed ?_ ?_ h'
      · rw [firstFailure_append, hnone, Option.none_or, ← hcalls, hnone']
      · rw [hcalls', hcalls, List.length_append, Nat.add_assoc]
    | failed c lost hsome hlost h' =>
      refine .failed c lost ?_ hlost h'
      rw [firstFailure_append, hnone, Option.none_or, ← hcalls, hsome]

/-- A program that fails does not make the calls behind. -/
theorem Ended.stop (h : Ended replies leaky cs l l' false owned) (ds : List κ) :
    Ended replies leaky (cs ++ ds) l l' false owned := by
  cases h with
  | failed c lost hsome hlost h =>
    refine .failed c lost ?_ hlost h
    rw [firstFailure_append, hsome, Option.some_or]

theorem Ended.congr (h : Ended replies leaky cs l l' ok owned) (heq : owned = given) :
    Ended replies leaky cs l l' ok given := heq ▸ h

/-- Clean-up behind the calls, whether they were completed or not. -/
theorem Ended.release (h : Ended replies leaky cs l l' ok (given + owned)) (hr : Releases routine given) :
    Ended replies leaky cs l (routine l') ok owned := by
  cases h with
  | completed hnone hcalls h => exact .completed hnone ((hr l').2.1.trans hcalls) (h.release hr)
  | failed c lost hsome hlost h =>
    refine .failed c lost hsome hlost (?_)
    rw [add_left_comm] at h
    exact h.release hr

/-! ### Single calls -/

variable {α : Type} {blocksOf : α → Multiset ℕ} (replies) (leaky)

/-- A call that asks for room fails, and then whatever the program loses there is lost, or it succeeds. -/
theorem resize_ended {block : Option ℕ} (h : Accounted l (held block + owned)) (c : κ) :
    (∃ l', resize replies l block = (l', none) ∧ ∀ lost kept, held block + owned = lost + kept →
      (lost = 0 ↔ ¬leaky c) → Ended replies leaky [c] l l' false kept) ∨
    ∃ l' b, resize replies l block = (l', some b) ∧ Ended replies leaky [c] l l' true ({b} + owned) := by
  by_cases hfail : replies l.calls = .fail
  · refine Or.inl ⟨l.tick, by simp only [resize, hfail], fun lost kept heq hlost => ?_⟩
    refine .failed c lost ?_ hlost (heq ▸ h)
    rw [firstFailure, if_pos hfail]
  · right
    have hnone : firstFailure replies l.calls [c] = none := by
      rw [firstFailure, if_neg hfail]
      rfl
    cases block with
    | none =>
      have hgrow : resize replies l none = (l.grow, some l.next) := by
        unfold resize
        split <;> simp_all
      rw [held, Option.elim_none, zero_add] at h
      exact ⟨_, _, hgrow, .completed hnone rfl h.grow⟩
    | some b =>
      cases hreply : replies l.calls with
      | fail => exact absurd hreply hfail
      | inPlace => exact ⟨l.tick, b, by simp only [resize, hreply], .completed hnone rfl h⟩
      | moved =>
        refine ⟨l.grow.free b, l.next, by simp only [resize, hreply], .completed hnone rfl ?_⟩
        have hgrow := h.grow
        rw [held, Option.elim_some, add_left_comm] at hgrow
        exact hgrow.free

theorem alloc_ended (h : Accounted l owned) {c : κ} (hc : ¬leaky c) :
    (∃ l', alloc replies l = (l', none) ∧ Ended replies leaky [c] l l' false owned) ∨
    ∃ l' b, alloc replies l = (l', some b) ∧ Ended replies leaky [c] l l' true ({b} + owned) := by
  have h0 : Accounted l (held none + owned) := by rwa [held, Option.elim_none, zero_add]
  rcases resize_ended replies leaky h0 c with ⟨l', heq, hended⟩ | ⟨l', b, heq, hended⟩
  · exact Or.inl ⟨l', heq, hended 0 owned (by rw [held, Option.elim_none]) (by simp [hc])⟩
  · exact Or.inr ⟨l', b, heq, hended⟩

theorem append_ended {buf : Buffer α} (item : α) (h : Accounted l (buf.blocks blocksOf + (blocksOf item + owned)))
    (c : κ) :
    (∃ l', buf.append replies l item = (l', none) ∧ ∀ lost kept,
      buf.blocks blocksOf + (blocksOf item + owned) = lost + kept → (lost = 0 ↔ ¬leaky c) →
        Ended replies leaky [c] l l' false kept) ∨
    ∃ l' buf', buf.append replies l item = (l', some buf') ∧ buf'.items = buf.items ++ [item] ∧
      Ended replies leaky [c] l l' true (buf'.blocks blocksOf + owned) := by
  have h' : Accounted l (held buf.block + (ownedBy blocksOf buf.items + (blocksOf item + owned))) := by
    rwa [← add_assoc]
  rcases resize_ended replies leaky h' c with ⟨l', heq, hended⟩ | ⟨l', b, heq, hended⟩
  · refine Or.inl ⟨l', by rw [Buffer.append, heq], fun lost kept hsplit => hended lost kept ?_⟩
    rw [← hsplit, Buffer.blocks, add_assoc]
  · refine Or.inr ⟨l', ⟨some b, buf.items ++ [item]⟩, by rw [Buffer.append, heq], rfl, hended.congr ?_⟩
    rw [Buffer.blocks, ownedBy_append_singleton, held, Option.elim_some]
    abel

theorem toOwnedSlice_ended {buf : Buffer α} (hne : buf.items.length ≠ 0)
    (h : Accounted l (buf.blocks blocksOf + owned)) {c : κ} (hc : ¬leaky c) :
    (∃ l', buf.toOwnedSlice replies l = (l', buf, none) ∧
      Ended replies leaky [c] l l' false (buf.blocks blocksOf + owned)) ∨
    ∃ l' slice, buf.toOwnedSlice replies l = (l', {}, some slice) ∧ slice.items = buf.items ∧
      Ended replies leaky [c] l l' true (slice.blocks blocksOf + owned) := by
  have h' : Accounted l (held buf.block + (ownedBy blocksOf buf.items + owned)) := by rwa [← add_assoc]
  rcases resize_ended replies leaky h' c with ⟨l', heq, hended⟩ | ⟨l', b, heq, hended⟩
  · refine Or.inl ⟨l', by rw [Buffer.toOwnedSlice, if_neg hne, heq], hended 0 _ ?_ (by simp [hc])⟩
    rw [zero_add, Buffer.blocks, add_assoc]
  · refine Or.inr ⟨l', ⟨some b, buf.items⟩, by rw [Buffer.toOwnedSlice, if_neg hne, heq], rfl, hended.congr ?_⟩
    rw [Buffer.blocks, held, Option.elim_some, add_assoc]

end

end Alloc
