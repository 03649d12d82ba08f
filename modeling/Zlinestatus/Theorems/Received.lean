import Zlinestatus.Model.Message

/-! What the renderer reads of a message that `zsendvalue` sent: the 64-byte `recv`, the trim, the split
    at the first blank, the tokeniser and the cap of 16 states, against the arguments of the sender. -/

namespace Zlinestatus

/-- What `zsendvalue` prints for a percentage: not empty and free of ASCII whitespace. -/
abbrev PercentText (t : Bytes) : Prop := Tokens.Token (anyOf whitespace) t

/-- A state argument: not empty and free of ASCII whitespace, `,` and `+`. -/
abbrev StateName (s : Bytes) : Prop := Tokens.Token (anyOf (whitespace ++ ascii ",+")) s

theorem StateName.separators {s : Bytes} (h : StateName s) : Tokens.Token (anyOf (ascii ",+ \t")) s :=
  h.mono (anyOf_subset (by decide))

theorem StateName.blanks {s : Bytes} (h : StateName s) : Tokens.Token (anyOf whitespace) s :=
  h.mono (anyOf_subset (by decide))

/-! ### The trimmed text

A percentage text `t` with anything behind it: the trim keeps `t`, and the message is split behind `t`. -/

theorem trim_percentText {t : Bytes} (ht : PercentText t) (tail : Bytes) :
    trim (t ++ tail) whitespace = t ++ tail.rdropWhile (anyOf whitespace) := by
  obtain ⟨c, t', rfl⟩ := List.exists_cons_of_ne_nil ht.1
  have hc := ht.2 c (by simp)
  have hstart : (c :: t' ++ tail).dropWhile (anyOf whitespace) = c :: t' ++ tail := by
    rw [List.cons_append, List.dropWhile_cons, hc]
    rfl
  rw [trim, Tokens.trim, hstart, Tokens.rdropWhile_append]
  split
  · next h => rw [h, List.append_nil, Tokens.rdropWhile_eq_self ht.2]
  · rfl

theorem wsIndex_percentText {t : Bytes} (ht : PercentText t) {tail : Bytes}
    (htail : ∀ c ∈ tail.head?, anyOf (ascii " \t") c = true) : wsIndex (t ++ tail) = t.length := by
  have hnone : t.findIdx? (anyOf (ascii " \t")) = none :=
    List.findIdx?_eq_none_iff.mpr (ht.mono (anyOf_subset (by decide))).2
  rw [wsIndex, indexOfAny, List.findIdx?_append, hnone]
  cases tail with
  | nil => simp
  | cons c tail =>
    rw [List.findIdx?_cons, htail c rfl]
    simp

theorem percentRaw_percentText {t : Bytes} (ht : PercentText t) {tail : Bytes}
    (htail : ∀ c ∈ tail.head?, anyOf (ascii " \t") c = true) : percentRaw (t ++ tail) = t := by
  rw [percentRaw, wsIndex_percentText ht htail, List.take_left]

theorem messageStates_percentText {t : Bytes} (ht : PercentText t) {tail : Bytes}
    (htail : ∀ c ∈ tail.head?, anyOf (ascii " \t") c = true) :
    messageStates (t ++ tail) = (tokenizeAny tail (ascii ",+ \t")).take 16 := by
  rw [messageStates, wsIndex_percentText ht htail, List.drop_left, tokenizeAny, trim,
    Tokens.tokenize_trim (anyOf_subset (by decide)),
    storeStates_eq (by simp) fun s hs => (Tokens.tokenize_mem hs).1.1, List.nil_append]
  split
  · rfl
  · next h =>
    have : tail = [] := by simpa using h
    simp [this, tokenizeAny]

/-- What trimming leaves behind `t` starts with the space that `zsendvalue` puts there. -/
theorem rdropWhile_space (rest : Bytes) :
    ∀ c ∈ ((0x20 :: rest).rdropWhile (anyOf whitespace)).head?, anyOf (ascii " \t") c = true := by
  intro c hc
  obtain ⟨tail, htail⟩ := List.rdropWhile_prefix (anyOf whitespace) (0x20 :: rest)
  cases h : (0x20 :: rest).rdropWhile (anyOf whitespace) with
  | nil => simp [h] at hc
  | cons d l =>
    rw [h, List.cons_append] at htail
    rw [h, List.head?_cons, Option.mem_some_iff] at hc
    rw [← hc, (List.cons.inj htail).1]
    decide

theorem tokenizeAny_space (rest : Bytes) :
    tokenizeAny ((0x20 :: rest).rdropWhile (anyOf whitespace)) (ascii ",+ \t") =
      tokenizeAny (rest.rdropWhile (anyOf whitespace)) (ascii ",+ \t") := by
  have hspace : (0x20 :: rest).rdropWhile (anyOf whitespace) =
      if rest.rdropWhile (anyOf whitespace) = [] then [] else 0x20 :: rest.rdropWhile (anyOf whitespace) :=
    Tokens.rdropWhile_append [0x20] rest
  rw [hspace]
  split
  · next h => rw [h]
  · exact Tokens.tokenize_cons _ (by decide)

/-- The message read back: the percentage text, and the tokens of what the trim leaves of the rest. -/
theorem parse_trimmed {t : Bytes} (ht : PercentText t) (rest : Bytes) :
    percentRaw (trim (t ++ 0x20 :: rest) whitespace) = t ∧
      messageStates (trim (t ++ 0x20 :: rest) whitespace) =
        (tokenizeAny (rest.rdropWhile (anyOf whitespace)) (ascii ",+ \t")).take 16 := by
  rw [trim_percentText ht]
  exact ⟨percentRaw_percentText ht (rdropWhile_space rest),
    (messageStates_percentText ht (rdropWhile_space rest)).trans (by rw [tokenizeAny_space])⟩

theorem parse_alone {t : Bytes} (ht : PercentText t) {tail : Bytes} (htail : ∀ b ∈ tail, anyOf whitespace b = true) :
    percentRaw (trim (t ++ tail) whitespace) = t ∧ messageStates (trim (t ++ tail) whitespace) = [] := by
  have hnil : tail.rdropWhile (anyOf whitespace) = [] := List.rdropWhile_eq_nil_iff.mpr htail
  rw [trim_percentText ht, hnil]
  exact ⟨percentRaw_percentText ht (by simp), (messageStates_percentText ht (by simp)).trans (by simp [tokenizeAny])⟩

/-! ### The joined states -/

theorem sentMessage_nil (t : Bytes) : sentMessage t [] = t ++ ascii "\n" := rfl

theorem sentMessage_states (t : Bytes) {states : List Bytes} (h : statesBuf states ≠ []) :
    sentMessage t states = t ++ 0x20 :: (statesBuf states ++ ascii "\n") := by
  have hspace : ascii " " = [0x20] := by decide
  rw [sentMessage, if_neg (by simpa using h), hspace]
  simp

theorem statesBuf_ne_nil {states : List Bytes} (hne : states ≠ []) (h : ∀ s ∈ states, s ≠ []) :
    statesBuf states ≠ [] := by
  rw [statesBuf_eq]
  cases states with
  | nil => exact absurd rfl hne
  | cons s states =>
    cases states with
    | nil => simpa using h s (by simp)
    | cons u states => simp [List.intercalate_cons_cons, h s (by simp)]

/-- No byte of the joined states is whitespace: the trim stops at the last one received. -/
theorem statesBuf_whitespace {states : List Bytes} (h : ∀ s ∈ states, StateName s) :
    ∀ b ∈ statesBuf states, anyOf whitespace b = false := by
  rw [statesBuf_eq]
  induction states with
  | nil => simp
  | cons s states ih =>
    have hs := (h s (by simp)).blanks.2
    have htail := ih fun u hu => h u (by simp [hu])
    cases states with
    | nil => simpa using hs
    | cons u states =>
      rw [List.intercalate_cons_cons]
      intro b hb
      rcases List.mem_append.mp hb with hb | hb
      · rcases List.mem_append.mp hb with hb | hb
        · exact hs b hb
        · rw [List.mem_singleton.mp hb]
          decide
      · exact htail b hb

/-- The cut and the trim leave the first `k` bytes of the joined states, for a `recv` that takes `k` bytes
    behind the space. -/
theorem rdropWhile_take {buf : Bytes} (h : ∀ b ∈ buf, anyOf whitespace b = false) (k : ℕ) :
    ((buf ++ ascii "\n").take k).rdropWhile (anyOf whitespace) = buf.take k := by
  rw [List.take_append, Tokens.rdropWhile_append_of_all, Tokens.rdropWhile_eq_self]
  · exact fun b hb => h b (List.mem_of_mem_take hb)
  · intro b hb
    have := List.mem_of_mem_take hb
    rw [List.mem_singleton.mp this]
    decide

end Zlinestatus
