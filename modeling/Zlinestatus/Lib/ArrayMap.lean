import Mathlib.Data.List.Induction
import Mathlib.Data.List.Nodup
import Mathlib.Data.List.Perm.Basic

/-! Maps that keep their entries in an array: a new entry goes to the end, and the last entry takes the place
    of one that is removed. -/

namespace ArrayMap
variable {κ ν : Type} [DecidableEq κ] {entries : List (κ × ν)} {key : κ} {value : ν}

def get : List (κ × ν) → κ → Option ν
  | [], _ => none
  | entry :: entries, key => if entry.1 = key then some entry.2 else get entries key

/-- The entries without the first one. -/
def dropFirst (entries : List (κ × ν)) : List (κ × ν) := entries.getLast?.toList ++ entries.dropLast

def swapRemove : List (κ × ν) → κ → List (κ × ν)
  | [], _ => []
  | entry :: entries, key => if entry.1 = key then dropFirst entries else entry :: swapRemove entries key

omit [DecidableEq κ] in
theorem dropFirst_perm (entries : List (κ × ν)) : (dropFirst entries).Perm entries := by
  induction entries using List.reverseRecOn with
  | nil => exact .nil
  | append_singleton entries last _ =>
    rw [dropFirst, List.getLast?_concat, List.dropLast_concat]
    exact List.perm_append_comm

/-- A key that is found has its entry, and the rest is what `swapRemove` leaves. -/
theorem perm_swapRemove (h : get entries key = some value) : entries.Perm ((key, value) :: swapRemove entries key) := by
  induction entries with
  | nil => cases h
  | cons entry entries ih =>
    obtain ⟨k, v⟩ := entry
    unfold get at h
    unfold swapRemove
    split at h
    · next heq =>
      cases h
      cases heq
      rw [if_pos rfl]
      exact (dropFirst_perm entries).symm.cons _
    · next hne =>
      rw [if_neg hne]
      exact ((ih h).cons _).trans (.swap _ _ _)

theorem mem_of_get (h : get entries key = some value) : (key, value) ∈ entries :=
  (perm_swapRemove h).mem_iff.mpr (List.mem_cons_self ..)

theorem get_eq_none : get entries key = none ↔ key ∉ entries.map (·.1) := by
  induction entries with
  | nil => simp [get]
  | cons entry entries ih =>
    unfold get
    split
    · next heq => simp [heq]
    · next hne => simp [ih, Ne.symm hne]

theorem get_of_mem (hnodup : (entries.map (·.1)).Nodup) (h : (key, value) ∈ entries) : get entries key = some value := by
  induction entries with
  | nil => cases h
  | cons entry entries ih =>
    obtain ⟨hnot, hnodup⟩ := List.nodup_cons.mp hnodup
    unfold get
    split
    · next heq =>
      rcases List.mem_cons.mp h with heq' | hmem
      · rw [← heq']
      · exact absurd (List.mem_map_of_mem (f := (·.1)) hmem) (heq ▸ hnot)
    · next hne =>
      rcases List.mem_cons.mp h with heq' | hmem
      · exact absurd (congrArg Prod.fst heq').symm hne
      · exact ih hnodup hmem

theorem get_iff_mem (hnodup : (entries.map (·.1)).Nodup) : get entries key = some value ↔ (key, value) ∈ entries :=
  ⟨mem_of_get, get_of_mem hnodup⟩

theorem get_swapRemove (hnodup : (entries.map (·.1)).Nodup) (h : get entries key = some value) (key' : κ) :
    get (swapRemove entries key) key' = if key' = key then none else get entries key' := by
  have hperm := perm_swapRemove h
  have hkeys := (hperm.map (·.1)).nodup_iff.mp hnodup
  obtain ⟨hnot, hrest⟩ := List.nodup_cons.mp hkeys
  split
  · next heq => exact get_eq_none.mpr (heq ▸ hnot)
  · next hne =>
    refine Option.ext fun v => ?_
    rw [get_iff_mem hrest, get_iff_mem hnodup, hperm.mem_iff, List.mem_cons]
    constructor
    · exact Or.inr
    · intro hor
      rcases hor with heq | hmem
      · exact absurd (congrArg Prod.fst heq) hne
      · exact hmem

theorem get_append_singleton (entries : List (κ × ν)) (key : κ) (value : ν) (key' : κ) :
    get (entries ++ [(key, value)]) key' = (get entries key').or (if key = key' then some value else none) := by
  induction entries with
  | nil => simp [get]
  | cons entry entries ih =>
    rw [List.cons_append, get, get, ih]
    split <;> rfl

theorem get_singleton (key : κ) (value : ν) : get [(key, value)] key = some value := if_pos rfl

theorem swapRemove_singleton (key : κ) (value : ν) : swapRemove [(key, value)] key = [] := if_pos rfl

end ArrayMap
