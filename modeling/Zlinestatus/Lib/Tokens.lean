import Mathlib.Data.List.DropRight
import Mathlib.Data.List.TakeDrop

/-! Splitting a sequence into tokens: the runs free of separators, none of them empty. Two tokenisers
    with different separators, a trim before a tokeniser and a cut of the tokenised text are compared
    here once, over any alphabet. -/

namespace Tokens
variable {α : Type} {p q : α → Bool}

/-- Drops the elements that satisfy `p` from both ends. -/
def trim (p : α → Bool) (l : List α) : List α := (l.dropWhile p).rdropWhile p

/-- The maximal runs of `l` that hold no separator. -/
def tokenize (p : α → Bool) (l : List α) : List (List α) := (l.splitOnP p).filter fun t => !t.isEmpty

/-- A token of a tokeniser with the separators `p`: not empty, and free of separators. -/
def Token (p : α → Bool) (t : List α) : Prop := t ≠ [] ∧ ∀ x ∈ t, p x = false

theorem Token.of_all {t : List α} (hne : t ≠ []) (h : t.all (fun x => !p x) = true) : Token p t :=
  ⟨hne, fun x hx => by simpa using List.all_eq_true.mp h x hx⟩

theorem Token.mono {t : List α} (h : Token p t) (hq : ∀ x, q x = true → p x = true) : Token q t :=
  ⟨h.1, fun x hx => by
    have := h.2 x hx
    cases hqx : q x
    · rfl
    · rw [hq x hqx] at this
      cases this⟩

/-! ### Trimming -/

theorem rdropWhile_append (xs ys : List α) :
    (xs ++ ys).rdropWhile p = if ys.rdropWhile p = [] then xs.rdropWhile p else xs ++ ys.rdropWhile p := by
  simp only [List.rdropWhile, List.reverse_append, List.dropWhile_append, List.isEmpty_iff,
    List.reverse_eq_nil_iff]
  split <;> simp

theorem rdropWhile_append_of_all {xs ys : List α} (h : ∀ y ∈ ys, p y = true) :
    (xs ++ ys).rdropWhile p = xs.rdropWhile p := by
  rw [rdropWhile_append, if_pos (List.rdropWhile_eq_nil_iff.mpr h)]

theorem rdropWhile_eq_self {l : List α} (h : ∀ x ∈ l, p x = false) : l.rdropWhile p = l :=
  List.rdropWhile_eq_self_iff.mpr fun hl => by simp [h _ (List.getLast_mem hl)]

theorem rdropWhile_append_cons {xs ys : List α} {a : α} (h : p a = false) :
    (xs ++ a :: ys).rdropWhile p = xs ++ a :: ys.rdropWhile p := by
  have hcons : (a :: ys).rdropWhile p = a :: ys.rdropWhile p := by
    rw [← List.singleton_append, rdropWhile_append, rdropWhile_eq_self (l := [a]) (by simp [h])]
    split <;> simp_all
  rw [rdropWhile_append, hcons, if_neg (by simp)]

theorem trim_subset {l : List α} {x : α} (h : x ∈ trim p l) : x ∈ l :=
  (List.dropWhile_suffix p).subset ((List.rdropWhile_prefix p _).subset h)

theorem trim_of_all {l : List α} (h : ∀ x ∈ l, p x = true) : trim p l = [] := by
  rw [trim, List.dropWhile_eq_nil_iff.mpr h, List.rdropWhile_nil]

theorem trim_append_of_all {xs ys : List α} (h : ∀ y ∈ ys, p y = true) : trim p (xs ++ ys) = trim p xs := by
  rw [trim, trim, List.dropWhile_append]
  split
  · next hnil =>
    rw [List.isEmpty_iff] at hnil
    rw [hnil, List.dropWhile_eq_nil_iff.mpr h]
  · exact rdropWhile_append_of_all h

/-- Trimming stops at an element that is kept. -/
theorem trim_append_cons {xs ys : List α} {a : α} (hxs : ∀ x ∈ xs, p x = true) (ha : p a = false) :
    trim p (xs ++ a :: ys) = a :: ys.rdropWhile p := by
  have hdrop : (xs ++ a :: ys).dropWhile p = a :: ys := by
    rw [List.dropWhile_append, List.dropWhile_eq_nil_iff.mpr hxs]
    simp [ha]
  rw [trim, hdrop, ← List.nil_append (a :: ys), rdropWhile_append_cons ha, List.nil_append]

/-! ### Tokenising -/

@[simp] theorem tokenize_nil : tokenize p ([] : List α) = [] := by simp [tokenize]

theorem tokenize_append_cons (xs ys : List α) {a : α} (h : p a = true) :
    tokenize p (xs ++ a :: ys) = tokenize p xs ++ tokenize p ys := by
  simp only [tokenize, List.splitOnP_append_cons xs ys h, List.filter_append]

theorem tokenize_cons (ys : List α) {a : α} (h : p a = true) : tokenize p (a :: ys) = tokenize p ys := by
  simpa using tokenize_append_cons [] ys h

theorem tokenize_of_free {t : List α} (h : ∀ x ∈ t, p x = false) : tokenize p t = if t = [] then [] else [t] := by
  rw [tokenize, List.splitOnP_eq_singleton h]
  cases t <;> simp

theorem tokenize_token {t : List α} (h : Token p t) : tokenize p t = [t] := by
  rw [tokenize_of_free h.2, if_neg h.1]

theorem tokenize_append_of_all (xs : List α) {ys : List α} (h : ∀ y ∈ ys, p y = true) :
    tokenize p (xs ++ ys) = tokenize p xs := by
  induction ys generalizing xs with
  | nil => simp
  | cons a ys ih =>
    rw [tokenize_append_cons xs ys (h a (by simp))]
    simpa using ih [] fun y hy => h y (by simp [hy])

theorem tokenize_rdropWhile (h : ∀ x, q x = true → p x = true) (l : List α) :
    tokenize p (l.rdropWhile q) = tokenize p l := by
  conv_rhs => rw [← List.rdropWhile_append_rtakeWhile (p := q) (l := l)]
  exact (tokenize_append_of_all _ fun y hy => h y (List.mem_rtakeWhile_imp hy)).symm

theorem tokenize_dropWhile (h : ∀ x, q x = true → p x = true) (l : List α) :
    tokenize p (l.dropWhile q) = tokenize p l := by
  induction l with
  | nil => rfl
  | cons a l ih =>
    rw [List.dropWhile_cons]
    split
    · next ha => rw [ih, tokenize_cons l (h a ha)]
    · rfl

theorem tokenize_trim (h : ∀ x, q x = true → p x = true) (l : List α) :
    tokenize p (trim q l) = tokenize p l := by
  rw [trim, tokenize_rdropWhile h, tokenize_dropWhile h]

theorem splitOnP_mem {l t : List α} (h : t ∈ l.splitOnP p) : ∀ x ∈ t, p x = false ∧ x ∈ l := by
  induction l generalizing t with
  | nil =>
    simp only [List.splitOnP_nil, List.mem_singleton] at h
    simp [h]
  | cons a l ih =>
    have later : ∀ {t}, t ∈ l.splitOnP p → ∀ x ∈ t, p x = false ∧ x ∈ a :: l := fun ht x hx =>
      ⟨(ih ht x hx).1, List.mem_cons_of_mem _ (ih ht x hx).2⟩
    rw [List.splitOnP_cons_eq_if_modifyHead] at h
    split at h
    · rcases List.mem_cons.mp h with rfl | h
      · simp
      · exact later h
    · next ha =>
      obtain ⟨hd, tl, heq⟩ := List.exists_cons_of_ne_nil (List.splitOnP_ne_nil p l)
      rw [heq, List.modifyHead_cons] at h
      rcases List.mem_cons.mp h with rfl | h
      · intro x hx
        rcases List.mem_cons.mp hx with rfl | hx
        · exact ⟨by simpa using ha, List.mem_cons_self⟩
        · exact later (heq ▸ List.mem_cons_self) x hx
      · exact later (heq ▸ List.mem_cons_of_mem _ h)

theorem tokenize_mem {l t : List α} (h : t ∈ tokenize p l) : Token p t ∧ ∀ x ∈ t, x ∈ l := by
  obtain ⟨hsplit, hne⟩ := List.mem_filter.mp h
  exact ⟨⟨by simpa using hne, fun x hx => (splitOnP_mem hsplit x hx).1⟩, fun x hx => (splitOnP_mem hsplit x hx).2⟩

/-! ### Joined tokens -/

theorem flatMap_tokenize {ts : List (List α)} (h : ∀ t ∈ ts, Token p t) : ts.flatMap (tokenize p) = ts := by
  induction ts with
  | nil => rfl
  | cons t ts ih =>
    rw [List.flatMap_cons, tokenize_token (h t (by simp)), ih fun u hu => h u (by simp [hu])]
    rfl

/-- A trim of the joined text reaches into the last text only: the separator before it stops the trim. -/
theorem tokenize_rdropWhile_intercalate {sep : α} (hp : p sep = true) (hq : q sep = false) (init : List (List α))
    (last : List α) : tokenize p (([sep].intercalate (init ++ [last])).rdropWhile q) =
      init.flatMap (tokenize p) ++ tokenize p (last.rdropWhile q) := by
  induction init with
  | nil => simp
  | cons t init ih =>
    have hne : init ++ [last] ≠ [] := by simp
    rw [List.cons_append, List.intercalate_cons_of_ne_nil hne, List.append_assoc, List.singleton_append,
      rdropWhile_append_cons hq, tokenize_append_cons _ _ hp, ih, List.flatMap_cons, List.append_assoc]

/-- What is left of the tokens `ts`, joined by one separator each, in the first `k` elements. -/
def cut : ℕ → List (List α) → List (List α)
  | _, [] => []
  | k, t :: ts =>
    if k = 0 then [] else if k ≤ t.length then [t.take k] else t :: cut (k - t.length - 1) ts

theorem token_take {t : List α} {k : ℕ} (h : Token p t) (hk : k ≠ 0) : Token p (t.take k) :=
  ⟨by simp [h.1, hk], fun x hx => h.2 x (List.mem_of_mem_take hx)⟩

theorem tokenize_take_intercalate {sep : α} (hsep : p sep = true) {ts : List (List α)}
    (h : ∀ t ∈ ts, Token p t) (k : ℕ) : tokenize p (([sep].intercalate ts).take k) = cut k ts := by
  induction ts generalizing k with
  | nil => simp [cut]
  | cons t ts ih =>
    have ht := h t (by simp)
    by_cases h0 : k = 0
    · simp [cut, h0]
    simp only [cut, if_neg h0]
    split
    · next hk =>
      have : ([sep].intercalate (t :: ts)).take k = t.take k := by
        cases ts with
        | nil => simp
        | cons u ts => rw [List.intercalate_cons_cons, List.append_assoc, List.take_append_of_le_length hk]
      rw [this, tokenize_token (token_take ht h0)]
    · next hk =>
      cases ts with
      | nil =>
        rw [List.intercalate_singleton, List.take_of_length_le (by omega), tokenize_token ht]
        simp [cut]
      | cons u ts =>
        have hsplit : k = t.length + ((k - t.length - 1) + 1) := by omega
        rw [List.intercalate_cons_cons, List.append_assoc, List.singleton_append, hsplit,
          List.take_length_add_append, List.take_succ_cons, tokenize_append_cons _ _ hsep, tokenize_token ht,
          ih fun v hv => h v (by simp [hv])]
        simp

theorem cut_of_length_le {sep : α} {ts : List (List α)} {k : ℕ} (hne : ∀ t ∈ ts, t ≠ [])
    (h : ([sep].intercalate ts).length ≤ k) : cut k ts = ts := by
  induction ts generalizing k with
  | nil => rfl
  | cons t ts ih =>
    have ht : 0 < t.length := List.length_pos_iff.mpr (hne t (by simp))
    cases ts with
    | nil =>
      rw [List.intercalate_singleton] at h
      simp only [cut, if_neg (show k ≠ 0 by omega)]
      split
      · rw [List.take_of_length_le h]
      · rfl
    | cons u ts =>
      simp only [List.intercalate_cons_cons, List.length_append, List.length_singleton] at h
      rw [cut, if_neg (show k ≠ 0 by omega), if_neg (show ¬k ≤ t.length by omega),
        ih (fun v hv => hne v (by simp [hv])) (by omega)]

/-- Where token `i` starts in the joined text. -/
def offset : List (List α) → ℕ → ℕ
  | _, 0 => 0
  | [], _ => 0
  | t :: ts, i + 1 => t.length + 1 + offset ts i

@[simp] theorem offset_zero (ts : List (List α)) : offset ts 0 = 0 := by cases ts <;> rfl

@[simp] theorem offset_succ (t : List α) (ts : List (List α)) (i : ℕ) :
    offset (t :: ts) (i + 1) = t.length + 1 + offset ts i := rfl

/-- A cut keeps a prefix of the first `n` tokens exactly when it falls strictly inside none of them. -/
theorem take_cut_prefix {n k : ℕ} {ts : List (List α)} : (cut k ts).take n <+: ts ↔
    ∀ i < n, ∀ t, ts[i]? = some t → ¬(offset ts i < k ∧ k < offset ts i + t.length) := by
  induction ts generalizing n k with
  | nil => simp [cut]
  | cons t ts ih =>
    cases n with
    | zero => simp
    | succ n =>
      have split : (∀ i < n + 1, ∀ u, (t :: ts)[i]? = some u →
            ¬(offset (t :: ts) i < k ∧ k < offset (t :: ts) i + u.length)) ↔
          ¬(0 < k ∧ k < t.length) ∧ ∀ i < n, ∀ u, ts[i]? = some u →
            ¬(t.length + 1 + offset ts i < k ∧ k < t.length + 1 + offset ts i + u.length) := by
        rw [Nat.forall_lt_succ_left']
        simp
      rw [split]
      simp only [cut]
      split
      · next h0 => simp [h0]
      · split
        · next h0 hk =>
          -- Token `t` is the last one kept: whole exactly when the cut is at its end.
          have htake : [t.take k] <+: t :: ts ↔ t.length ≤ k := by
            rw [← List.take_eq_self_iff]
            exact ⟨fun hp => (List.cons_prefix_cons.mp hp).1, fun he => by rw [he]; exact ⟨ts, rfl⟩⟩
          rw [List.take_succ_cons, List.take_nil, htake]
          refine ⟨fun hle => ⟨by omega, fun i _ u _ => by omega⟩, fun hc => ?_⟩
          have := hc.1
          omega
        · next h0 hk =>
          have shift : ∀ a m : ℕ, (t.length + 1 + a < k ∧ k < t.length + 1 + a + m) ↔
              (a < k - t.length - 1 ∧ k - t.length - 1 < a + m) := fun a m => by omega
          rw [List.take_succ_cons, List.cons_prefix_cons, ih]
          simp only [shift]
          refine ⟨fun hp => ⟨by omega, hp.2⟩, fun hp => ⟨trivial, hp.2⟩⟩

end Tokens
