import Mathlib.Data.List.Basic
import Mathlib.Data.UInt
import Zlinestatus.Lib.Tokens

/-! Byte strings, and the functions of `std.mem` and `std.ascii` the two programs call on them. -/

namespace Zlinestatus

abbrev Bytes := List UInt8

/-- The bytes of an ASCII literal of the source. -/
def ascii (s : String) : Bytes := s.toList.map Char.toUInt8

/-- Membership in a byte set, as `std.mem.trim`, `indexOfAny` and `tokenizeAny` test it. -/
def anyOf (set : Bytes) (b : UInt8) : Bool := set.contains b

/-- `std.ascii.whitespace`: space, tab, line feed, carriage return, vertical tab and form feed. -/
def whitespace : Bytes := [0x20, 0x09, 0x0A, 0x0D, 0x0B, 0x0C]

def trim (slice values_to_strip : Bytes) : Bytes := Tokens.trim (anyOf values_to_strip) slice

def tokenizeAny (buffer delimiters : Bytes) : List Bytes := Tokens.tokenize (anyOf delimiters) buffer

def indexOfAny (slice values : Bytes) : Option ℕ := slice.findIdx? (anyOf values)

def indexOfScalar (slice : Bytes) (value : UInt8) : Option ℕ := slice.findIdx? (· == value)

def toLower (c : UInt8) : UInt8 := if 0x41 ≤ c ∧ c ≤ 0x5A then c ||| 0x20 else c

def eqlIgnoreCase (a b : Bytes) : Bool :=
  a.length == b.length && (a.zip b).all fun x => toLower x.1 == toLower x.2

theorem anyOf_subset {a b : Bytes} (h : a ⊆ b) (c : UInt8) (hc : anyOf a c = true) : anyOf b c = true := by
  simp only [anyOf, List.contains_eq_mem, decide_eq_true_eq] at hc ⊢
  exact h hc

/-! ### Letter case -/

theorem eqlIgnoreCase_iff {a b : Bytes} : eqlIgnoreCase a b = true ↔ a.map toLower = b.map toLower := by
  induction a generalizing b with
  | nil => cases b <;> simp [eqlIgnoreCase]
  | cons x a ih =>
    cases b with
    | nil => simp [eqlIgnoreCase]
    | cons y b =>
      have := @ih b
      simp only [eqlIgnoreCase, Bool.and_eq_true, beq_iff_eq, List.length_cons, List.zip_cons_cons,
        List.all_cons, List.map_cons, List.cons.injEq] at this ⊢
      rw [← this]
      simp only [Nat.add_right_cancel_iff]
      tauto

theorem eqlIgnoreCase_refl (a : Bytes) : eqlIgnoreCase a a = true := eqlIgnoreCase_iff.mpr rfl

theorem eqlIgnoreCase_length {a b : Bytes} (h : eqlIgnoreCase a b = true) : a.length = b.length := by
  simpa using congrArg List.length (eqlIgnoreCase_iff.mp h)

/-- A byte set without letters does not tell two spellings of a name apart. -/
def Caseless (set : Bytes) : Prop := ∀ b, anyOf set (toLower b) = anyOf set b

theorem caseless_of_punctuation {set : Bytes} (h : set.all (· < 0x41) = true) : Caseless set := by
  intro b
  unfold toLower
  split
  · next hb =>
    have none : ∀ d : UInt8, 0x41 ≤ d → anyOf set d = false := fun d hd => by
      simp only [anyOf, List.contains_eq_mem, decide_eq_false_iff_not]
      exact fun hm => absurd (List.all_eq_true.mp h d hm) (by simpa using hd)
    rw [none b hb.1, none (b ||| 0x20)]
    rw [UInt8.le_iff_toNat_le, UInt8.toNat_or]
    exact Nat.le_trans (UInt8.le_iff_toNat_le.mp hb.1) Nat.left_le_or
  · rfl

theorem Caseless.token {set : Bytes} (h : Caseless set) {a b : Bytes} (hab : eqlIgnoreCase a b = true)
    (ha : Tokens.Token (anyOf set) a) : Tokens.Token (anyOf set) b := by
  have lower : ∀ l : Bytes, l.map (anyOf set) = (l.map toLower).map (anyOf set) := fun l => by
    rw [List.map_map]
    exact List.map_congr_left fun x _ => (h x).symm
  have hmap : a.map (anyOf set) = b.map (anyOf set) := by
    rw [lower a, lower b, eqlIgnoreCase_iff.mp hab]
  refine ⟨fun hb => ha.1 (List.length_eq_zero_iff.mp (by rw [eqlIgnoreCase_length hab, hb]; rfl)), fun x hx => ?_⟩
  obtain ⟨y, hy, heq⟩ := List.mem_map.mp (hmap ▸ List.mem_map_of_mem hx : anyOf set x ∈ a.map (anyOf set))
  exact heq ▸ ha.2 y hy

end Zlinestatus
