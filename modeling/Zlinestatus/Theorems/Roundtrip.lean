import Zlinestatus.Theorems.Received

/-! The message of `zsendvalue` read back by the renderer: within the bounds of the receiver nothing is
    lost, and beyond them the cut after 64 bytes may leave part of a name. -/

namespace Zlinestatus
variable {parseFloat : Bytes → Option F32} {ar : F32Arith} {t : Bytes} {states : List Bytes}

/-! ### Within the bounds -/

theorem recv_states (hs : statesBuf states ≠ []) (ht : t.length < 64) :
    recv (sentMessage t states) = t ++ 0x20 :: (statesBuf states ++ ascii "\n").take (63 - t.length) := by
  rw [sentMessage_states t hs, recv, List.take_append, List.take_of_length_le (by omega)]
  obtain ⟨k, hk⟩ : ∃ k, 64 - t.length = k + 1 := ⟨63 - t.length, by omega⟩
  rw [hk, List.take_succ_cons, show 63 - t.length = k by omega]

/-- The states read from what one `recv` yields: the tokens of the joined states, cut where the buffer
    ends. -/
theorem messageStates_recv (ht : PercentText t) (hlen : t.length < 64) (hstates : ∀ s ∈ states, StateName s) :
    percentRaw (trim (recv (sentMessage t states)) whitespace) = t ∧
      messageStates (trim (recv (sentMessage t states)) whitespace) =
        (Tokens.cut (63 - t.length) states).take 16 := by
  by_cases hnil : states = []
  · subst hnil
    have : recv (sentMessage t []) = t ++ (ascii "\n").take (64 - t.length) := by
      rw [sentMessage_nil, recv, List.take_append, List.take_of_length_le (by omega)]
    rw [this]
    refine parse_alone ht fun b hb => ?_
    rw [List.mem_singleton.mp (List.mem_of_mem_take hb)]
    decide
  · have hbuf := statesBuf_ne_nil hnil fun s hs => (hstates s hs).1
    obtain ⟨hraw, hst⟩ := parse_trimmed ht ((statesBuf states ++ ascii "\n").take (63 - t.length))
    rw [recv_states hbuf hlen]
    refine ⟨hraw, hst.trans ?_⟩
    rw [rdropWhile_take (statesBuf_whitespace hstates), statesBuf_eq, tokenizeAny,
      Tokens.tokenize_take_intercalate (by decide) fun s hs => (hstates s hs).separators]

theorem sentMessage_prefix (t : Bytes) (states : List Bytes) : t <+: sentMessage t states := by
  unfold sentMessage
  split
  · exact List.prefix_append _ _
  · simp only [List.append_assoc]
    exact List.prefix_append _ _

theorem recv_ne_nil (ht : PercentText t) (states : List Bytes) : recv (sentMessage t states) ≠ [] := by
  obtain ⟨tail, htail⟩ := sentMessage_prefix t states
  simp [recv, ← htail, ht.1]

theorem acceptMessage_sent (ht : PercentText t) : acceptMessage parseFloat ar (sentMessage t states) =
    parseIncomingMessage parseFloat ar (trim (recv (sentMessage t states)) whitespace) :=
  if_neg (by simpa using recv_ne_nil ht states)

/-- Whatever the states are, the text read as the percentage is the one sent. -/
theorem percentRaw_recv (ht : PercentText t) (hlen : t.length ≤ 64) :
    percentRaw (trim (recv (sentMessage t states)) whitespace) = t := by
  have alone : ∀ tail, (∀ b ∈ tail, anyOf whitespace b = true) → percentRaw (trim (t ++ tail) whitespace) = t :=
    fun tail htail => (parse_alone ht htail).1
  by_cases hbuf : statesBuf states = []
  · rw [sentMessage, if_pos (by simpa using hbuf), recv, List.take_append, List.take_of_length_le hlen]
    refine alone _ fun b hb => ?_
    rw [List.mem_singleton.mp (List.mem_of_mem_take hb)]
    decide
  · rcases Nat.lt_or_eq_of_le hlen with hlt | heq
    · rw [recv_states hbuf hlt]
      exact (parse_trimmed ht _).1
    · rw [sentMessage_states t hbuf, recv, ← heq, List.take_left]
      simpa using alone [] (by simp)

theorem sentMessage_length (t : Bytes) (states : List Bytes) : (sentMessage t states).length =
    t.length + 1 + if statesBuf states = [] then 0 else (statesBuf states).length + 1 := by
  split
  · next h => simp [sentMessage, h, ascii]
  · next h =>
    rw [sentMessage_states t h]
    simp [ascii]
    omega

/-- Within the bounds of the receiver (64 bytes before the newline, 16 states) the text read as the
    percentage is the one sent, and the states are the ones sent, in order. -/
theorem message_roundtrip (ar : F32Arith) {number : F32} (ht : PercentText t) (hparse : parseFloat t = some number)
    (hstates : ∀ s ∈ states, StateName s) (hcount : states.length ≤ 16)
    (hlen : (sentMessage t states).length ≤ 64 + 1) :
    percentRaw (trim (recv (sentMessage t states)) whitespace) = t ∧
      ∃ message, parseIncomingMessage parseFloat ar (trim (recv (sentMessage t states)) whitespace) = some message ∧
        message.percent = scalePercent ar number ∧ message.states = states := by
  suffices read : percentRaw (trim (recv (sentMessage t states)) whitespace) = t ∧
      messageStates (trim (recv (sentMessage t states)) whitespace) = states by
    refine ⟨read.1, ⟨_, states, hcount⟩, parseIncomingMessage_eq_some.mpr ⟨number, ?_, rfl, read.2.symm⟩, rfl, rfl⟩
    rw [read.1, hparse]
  rw [sentMessage_length] at hlen
  by_cases hfull : t.length < 64
  · obtain ⟨hraw, hst⟩ := messageStates_recv ht hfull hstates
    refine ⟨hraw, hst.trans ?_⟩
    have hcut : Tokens.cut (63 - t.length) states = states :=
      @Tokens.cut_of_length_le _ 0x2C _ _ (fun s hs => (hstates s hs).1) (by
        rw [← statesBuf_eq]
        split at hlen
        · next h => simp [h]
        · omega)
    rw [hcut, List.take_of_length_le hcount]
  · -- A text of 64 bytes fills the buffer: there is no state, and the newline is cut off.
    have hbuf : statesBuf states = [] := by
      split at hlen
      · assumption
      · omega
    have hnil : states = [] := by
      by_contra hne
      exact statesBuf_ne_nil hne (fun s hs => (hstates s hs).1) hbuf
    have h64 : t.length = 64 := by simp [hbuf] at hlen; omega
    subst hnil
    have : recv (sentMessage t []) = t ++ [] := by
      rw [sentMessage_nil, recv, ← h64, List.take_left, List.append_nil]
    rw [this]
    exact parse_alone ht (by simp)

/-- Three states, the last of which ends where the buffer ends. -/
def fullStates : List Bytes := [ascii "discharging", ascii "low", List.replicate 45 0x61]

theorem fullStates_names : ∀ s ∈ fullStates, StateName s := by
  intro s hs
  simp only [fullStates, List.mem_cons, List.not_mem_nil, or_false] at hs
  rcases hs with rfl | rfl | rfl <;> exact .of_all (by decide) (by decide)

theorem message_roundtrip_full_buffer :
    PercentText (ascii "50") ∧ (sentMessage (ascii "50") fullStates).length = 65 ∧
      ∃ message, parseIncomingMessage parseNumeral .exact
          (trim (recv (sentMessage (ascii "50") fullStates)) whitespace) = some message ∧
        message.states = fullStates := by
  have ht : PercentText (ascii "50") := .of_all (by decide) (by decide)
  have hlen : (sentMessage (ascii "50") fullStates).length = 65 := by decide
  have hparse : parseNumeral (ascii "50") = some (.finite 50) := by decide
  refine ⟨ht, hlen, ?_⟩
  obtain ⟨-, message, hm, -, hst⟩ := message_roundtrip .exact ht hparse fullStates_names (by decide) hlen.le
  exact ⟨message, hm, hst⟩

/-! ### Beyond the bounds -/

def nameStart (t : Bytes) (states : List Bytes) (i : ℕ) : ℕ := t.length + 1 + Tokens.offset states i

/-- The end of the 64-byte buffer falls strictly inside one of the first 16 names. -/
def NameCut (t : Bytes) (states : List Bytes) : Prop :=
  ∃ i < 16, ∃ s, states[i]? = some s ∧ nameStart t states i < 64 ∧ 64 < nameStart t states i + s.length

theorem nameCut_iff (ht : t.length < 64) : NameCut t states ↔ ∃ i < 16, ∃ s, states[i]? = some s ∧
    Tokens.offset states i < 63 - t.length ∧ 63 - t.length < Tokens.offset states i + s.length := by
  have shift : ∀ a m : ℕ, (t.length + 1 + a < 64 ∧ 64 < t.length + 1 + a + m) ↔
      (a < 63 - t.length ∧ 63 - t.length < a + m) := fun a m => by omega
  simp only [NameCut, nameStart, shift]

theorem messageStates_full (ht : PercentText t) (hlen : 64 ≤ t.length) :
    messageStates (trim (recv (sentMessage t states)) whitespace) = [] := by
  obtain ⟨tail, htail⟩ := sentMessage_prefix t states
  have hrecv : recv (sentMessage t states) = t.take 64 ++ [] := by
    rw [recv, ← htail, List.take_append_of_le_length hlen, List.append_nil]
  rw [hrecv]
  exact (parse_alone (Tokens.token_take ht (by decide)) (by simp)).2

/-- The states the renderer reads are a prefix of those sent, so that a name a rule requires is found
    only when it was sent, exactly when the buffer does not end inside a name. -/
theorem received_states_sent_iff (ar : F32Arith) {number : F32} (ht : PercentText t) (hparse : parseFloat t = some number)
    (hstates : ∀ s ∈ states, StateName s) :
    (∀ message, acceptMessage parseFloat ar (sentMessage t states) = some message →
      message.states <+: states ∧
        ∀ required, (∃ active ∈ message.states, eqlIgnoreCase required active = true) →
          ∃ sent ∈ states, eqlIgnoreCase required sent = true) ↔ ¬NameCut t states := by
  -- A prefix of what was sent names nothing else: the second half follows from the first.
  have named : ∀ message : ParsedMessage, message.states <+: states →
      ∀ required, (∃ active ∈ message.states, eqlIgnoreCase required active = true) →
        ∃ sent ∈ states, eqlIgnoreCase required sent = true := by
    rintro message hpre required ⟨active, hactive, heq⟩
    exact ⟨active, hpre.subset hactive, heq⟩
  rw [acceptMessage_sent ht]
  by_cases hlen : t.length < 64
  · obtain ⟨hraw, hst⟩ := messageStates_recv ht hlen hstates
    have hcut : ¬NameCut t states ↔ (Tokens.cut (63 - t.length) states).take 16 <+: states := by
      rw [Tokens.take_cut_prefix, nameCut_iff hlen]
      push Not
      rfl
    rw [hcut, ← hst]
    constructor
    · intro h
      obtain ⟨message, hm, hms⟩ := parseIncomingMessage_of_number ar (hraw.symm ▸ hparse)
      exact hms ▸ (h message hm).1
    · intro hpre message hm
      obtain ⟨_, -, -, hms⟩ := parseIncomingMessage_eq_some.mp hm
      have hpre' : message.states <+: states := hms ▸ hpre
      exact ⟨hpre', named message hpre'⟩
  · have hfull : messageStates (trim (recv (sentMessage t states)) whitespace) = [] :=
      messageStates_full ht (by omega)
    refine iff_of_true (fun message hm => ?_) ?_
    · obtain ⟨_, -, -, hms⟩ := parseIncomingMessage_eq_some.mp hm
      have hpre : message.states <+: states := by rw [hms, hfull]; exact List.nil_prefix
      exact ⟨hpre, named message hpre⟩
    · rintro ⟨i, -, s, -, hstart, -⟩
      simp only [nameStart] at hstart
      omega

/-- With a fourth state the message is longer than the buffer, which ends between two names. -/
theorem received_states_sent_two : (sentMessage (ascii "50") (fullStates ++ [ascii "charging"])).length = 74 ∧
    ¬NameCut (ascii "50") (fullStates ++ [ascii "charging"]) ∧
    ∀ message, acceptMessage parseNumeral .exact
        (sentMessage (ascii "50") (fullStates ++ [ascii "charging"])) = some message →
      message.states <+: fullStates ++ [ascii "charging"] := by
  have hcut : ¬NameCut (ascii "50") (fullStates ++ [ascii "charging"]) := by
    rintro ⟨i, -, s, hs, hstart, hend⟩
    match i, hs with
    | 0, hs | 1, hs | 2, hs =>
      obtain rfl := Option.some.inj hs
      exact absurd hend (by decide)
    | 3, hs =>
      exact absurd hstart (by decide)
  have hstates : ∀ s ∈ fullStates ++ [ascii "charging"], StateName s :=
    List.forall_mem_append.mpr ⟨fullStates_names, fun s hs => by
      rw [List.mem_singleton.mp hs]
      exact .of_all (by decide) (by decide)⟩
  have hparse : parseNumeral (ascii "50") = some (.finite 50) := by decide
  exact ⟨by decide, hcut, fun message hm =>
    ((received_states_sent_iff .exact (.of_all (by decide) (by decide)) hparse hstates).mpr hcut message hm).1⟩

/-- Six names whose message is 69 bytes long: the buffer ends inside `lowered`, behind `low`. -/
def cutNames : List Bytes :=
  List.replicate 4 (ascii "discharging") ++ [ascii "discharge", ascii "lowered"]

/-- The renderer reads the state `low`, which was not sent and which a rule for `low` matches. -/
theorem received_state_not_sent : (∀ s ∈ cutNames, StateName s) ∧ PercentText (ascii "50") ∧
    ∃ message, acceptMessage parseNumeral .exact (sentMessage (ascii "50") cutNames) = some message ∧
      ascii "low" ∈ message.states ∧ (∀ sent ∈ cutNames, eqlIgnoreCase (ascii "low") sent = false) ∧
      ¬message.states <+: cutNames := by
  have hread : (acceptMessage parseNumeral .exact (sentMessage (ascii "50") cutNames)).map (·.states) =
      some (List.replicate 4 (ascii "discharging") ++ [ascii "discharge", ascii "low"]) := by decide
  obtain ⟨message, hm, hst⟩ := Option.map_eq_some_iff.mp hread
  refine ⟨?_, .of_all (by decide) (by decide), message, hm, ?_, by decide, ?_⟩
  · intro s hs
    have hall : s ≠ [] ∧ s.all fun b => !anyOf (whitespace ++ ascii ",+") b := by
      revert s
      decide
    exact .of_all hall.1 hall.2
  · rw [hst]
    decide
  · rw [hst]
    decide

end Zlinestatus
