import Zlinestatus.Theorems.Pick
import Zlinestatus.Theorems.Roundtrip
import Zlinestatus.Theorems.StyleFile

/-! Whether a rule of the style file fires on a message that carries its own states. The key of a rule is
    split at `+`, `,` and space; the message is trimmed of all ASCII whitespace and also split at tab. -/

namespace Zlinestatus
variable {parseFloat : Bytes → Option F32} {ar : F32Arith} {t : Bytes}

/-- The arguments are the states of the rule, in any order and any letter case. -/
def Respells (args states : List Bytes) : Prop := (args.map (·.map toLower)).Perm (states.map (·.map toLower))

/-- The trim of the message takes bytes off a name that stands last. -/
def EndsBlank (name : Bytes) : Prop := ∃ b ∈ name.getLast?, anyOf whitespace b = true

/-- No name holds a tab, and a last name that ends in whitespace (carriage return, vertical tab or form
    feed) is also given before. -/
def Transmissible (args : List Bytes) : Prop :=
  (∀ a ∈ args, 0x09 ∉ a) ∧
    ∀ last ∈ args.getLast?, EndsBlank last → ∃ a ∈ args.dropLast, eqlIgnoreCase a last = true

/-- A name as the key tokeniser leaves it. -/
abbrev KeyName (s : Bytes) : Prop := Tokens.Token (anyOf (ascii "+, \n")) s

theorem Respells.lowerNames {args states : List Bytes} (h : Respells args states) :
    lowerNames args = lowerNames states := by
  ext n
  simp only [Zlinestatus.lowerNames, List.mem_toFinset, h.mem_iff]

theorem Respells.keyNames {args states : List Bytes} (h : Respells args states) (hs : ∀ s ∈ states, KeyName s) :
    ∀ a ∈ args, KeyName a := by
  intro a ha
  obtain ⟨s, hmem, heq⟩ := List.mem_map.mp (h.mem_iff.mp (List.mem_map_of_mem ha))
  exact (caseless_of_punctuation (by decide)).token (eqlIgnoreCase_iff.mpr heq) (hs s hmem)

theorem endsBlank_iff {name : Bytes} : EndsBlank name ↔ name.rdropWhile (anyOf whitespace) ≠ name := by
  rw [ne_eq, List.rdropWhile_eq_self_iff]
  cases name using List.reverseRecOn with
  | nil => simp [EndsBlank]
  | append_singleton l b => simp [EndsBlank]

/-! ### The states received -/

/-- The states read from a message of at most 64 bytes, newline included: the trim reaches into the last
    argument, and the tokeniser splits each argument further. -/
theorem messageStates_args (ht : PercentText t) {init : List Bytes} {last : Bytes}
    (hne : ∀ a ∈ init ++ [last], a ≠ []) (hlen : (sentMessage t (init ++ [last])).length ≤ 64) :
    percentRaw (trim (recv (sentMessage t (init ++ [last]))) whitespace) = t ∧
      messageStates (trim (recv (sentMessage t (init ++ [last]))) whitespace) =
        (init.flatMap (tokenizeAny · (ascii ",+ \t")) ++
          tokenizeAny (last.rdropWhile (anyOf whitespace)) (ascii ",+ \t")).take 16 := by
  have hbuf : statesBuf (init ++ [last]) ≠ [] := statesBuf_ne_nil (by simp) hne
  have hnl : ∀ b ∈ ascii "\n", anyOf whitespace b = true := List.all_eq_true.mp (by decide)
  rw [recv, List.take_of_length_le hlen, sentMessage_states t hbuf]
  obtain ⟨hraw, hst⟩ := parse_trimmed ht (statesBuf (init ++ [last]) ++ ascii "\n")
  refine ⟨hraw, hst.trans ?_⟩
  rw [Tokens.rdropWhile_append_of_all hnl, statesBuf_eq, tokenizeAny,
    Tokens.tokenize_rdropWhile_intercalate (by decide) (by decide)]
  rfl

/-- Without a tab in the names, the states read are the arguments, the last one trimmed. -/
theorem messageStates_names (ht : PercentText t) {init : List Bytes} {last : Bytes}
    (hnames : ∀ a ∈ init ++ [last], KeyName a) (htab : ∀ a ∈ init ++ [last], 0x09 ∉ a)
    (hlen : (sentMessage t (init ++ [last])).length ≤ 64) (hcount : (init ++ [last]).length ≤ 16) :
    messageStates (trim (recv (sentMessage t (init ++ [last]))) whitespace) =
      init ++ if last.rdropWhile (anyOf whitespace) = [] then [] else [last.rdropWhile (anyOf whitespace)] := by
  have token : ∀ a ∈ init ++ [last], Tokens.Token (anyOf (ascii ",+ \t")) a := by
    intro a ha
    refine ⟨(hnames a ha).1, fun b hb => ?_⟩
    have hkey := (hnames a ha).2 b hb
    have hsub : ascii ",+ \t" ⊆ ascii "+, \n" ++ [0x09] := by decide
    simp only [anyOf, List.contains_eq_mem, decide_eq_false_iff_not] at hkey ⊢
    intro hmem
    rcases List.mem_append.mp (hsub hmem) with h | h
    · exact hkey h
    · exact htab a ha (List.mem_singleton.mp h ▸ hb)
  have hlast : ∀ b ∈ last.rdropWhile (anyOf whitespace), anyOf (ascii ",+ \t") b = false := fun b hb =>
    (token last (by simp)).2 b ((List.rdropWhile_prefix _ _).subset hb)
  rw [(messageStates_args ht (fun a ha => (hnames a ha).1) hlen).2]
  have hinit : init.flatMap (tokenizeAny · (ascii ",+ \t")) = init :=
    Tokens.flatMap_tokenize fun a ha => token a (by simp [ha])
  rw [hinit, tokenizeAny, Tokens.tokenize_of_free hlast, List.take_of_length_le]
  refine le_trans ?_ hcount
  split <;> simp

/-! ### Firing -/

theorem no_tab_received (ht : PercentText t) {args : List Bytes} (hne : args ≠ []) (hargs : ∀ a ∈ args, a ≠ [])
    (hlen : (sentMessage t args).length ≤ 64) {a active : Bytes}
    (hactive : active ∈ messageStates (trim (recv (sentMessage t args)) whitespace))
    (heq : eqlIgnoreCase active a = true) : 0x09 ∉ a := by
  obtain ⟨init, last, rfl⟩ := args.eq_nil_or_concat'.resolve_left hne
  rw [(messageStates_args ht hargs hlen).2] at hactive
  have htoken : Tokens.Token (anyOf (ascii ",+ \t")) active := by
    rcases List.mem_append.mp (List.mem_of_mem_take hactive) with h | h
    · obtain ⟨b, -, hb⟩ := List.mem_flatMap.mp h
      exact (Tokens.tokenize_mem hb).1
    · exact (Tokens.tokenize_mem h).1
  have htab : Tokens.Token (anyOf [0x09]) a :=
    (caseless_of_punctuation (by decide)).token heq (htoken.mono (anyOf_subset (by decide)))
  intro hmem
  exact absurd (htab.2 _ hmem) (by decide)

/-- All arguments are found among the states read exactly when the arguments are transmissible. -/
theorem names_received_iff (ht : PercentText t) {args : List Bytes} (hne : args ≠ [])
    (hnames : ∀ a ∈ args, KeyName a) (hlen : (sentMessage t args).length ≤ 64) (hcount : args.length ≤ 16) :
    lowerNames args ⊆ lowerNames (messageStates (trim (recv (sentMessage t args)) whitespace)) ↔
      Transmissible args := by
  have found : lowerNames args ⊆ lowerNames (messageStates (trim (recv (sentMessage t args)) whitespace)) ↔
      ∀ a ∈ args, ∃ active ∈ messageStates (trim (recv (sentMessage t args)) whitespace),
        eqlIgnoreCase active a = true := by
    simp only [Finset.subset_iff, mem_lowerNames, eqlIgnoreCase_iff]
    exact ⟨fun h a ha => h ⟨a, ha, rfl⟩, fun h _ ⟨a, ha, heq⟩ => heq ▸ h a ha⟩
  rw [found]
  constructor
  · intro h
    have htab : ∀ a ∈ args, 0x09 ∉ a := fun a ha => by
      obtain ⟨active, hactive, heq⟩ := h a ha
      exact no_tab_received ht hne (fun a ha => (hnames a ha).1) hlen hactive heq
    refine ⟨htab, fun last hlast hblank => ?_⟩
    obtain ⟨init, rfl⟩ : ∃ init, args = init ++ [last] := List.getLast?_eq_some_iff.mp hlast
    obtain ⟨active, hactive, heq⟩ := h last (by simp)
    rw [messageStates_names ht hnames htab hlen hcount] at hactive
    rcases List.mem_append.mp hactive with hinit | hcut
    · exact ⟨active, by simpa using hinit, heq⟩
    · -- The trimmed name is shorter than the name itself.
      exfalso
      obtain rfl : active = last.rdropWhile (anyOf whitespace) := by
        split at hcut
        · cases hcut
        · exact List.mem_singleton.mp hcut
      exact endsBlank_iff.mp hblank
        ((List.rdropWhile_prefix (anyOf whitespace) last).eq_of_length (eqlIgnoreCase_length heq))
  · rintro ⟨htab, hlast⟩ a ha
    obtain ⟨init, last, rfl⟩ := args.eq_nil_or_concat'.resolve_left hne
    rw [messageStates_names ht hnames htab hlen hcount]
    rcases List.mem_append.mp ha with ha | ha
    · exact ⟨a, by simp [ha], eqlIgnoreCase_refl a⟩
    · obtain rfl := List.mem_singleton.mp ha
      by_cases hblank : EndsBlank a
      · obtain ⟨b, hb, heq⟩ := hlast a (by simp) hblank
        exact ⟨b, by simpa using Or.inl (by simpa using hb), heq⟩
      · have hself : a.rdropWhile (anyOf whitespace) = a := by
          by_contra hne
          exact hblank (endsBlank_iff.mpr hne)
        refine ⟨a, ?_, eqlIgnoreCase_refl a⟩
        rw [hself, if_neg (hnames a (by simp)).1]
        simp

/-- A rule of the file fires on a message with its own states, in any order and spelling, exactly when
    the arguments are transmissible; the rule picked then has at least as many states. -/
theorem rule_fires_iff (ar : F32Arith) {content : Bytes} {rule : ColorRule} {number : F32} {args : List Bytes}
    (hrule : rule ∈ (styleOfContent content).rules) (ht : PercentText t) (hparse : parseFloat t = some number)
    (hargs : Respells args rule.states) (hlen : (sentMessage t args).length ≤ 64) (hcount : args.length ≤ 16) :
    (∃ message, parseIncomingMessage parseFloat ar (trim (recv (sentMessage t args)) whitespace) = some message ∧
      ruleMatches rule message.states = true ∧
      ∃ pre picked post, Picks (styleOfContent content) message.states pre picked post ∧
        rule.states.length ≤ picked.states.length) ↔ Transmissible args := by
  have hnames := hargs.keyNames (styleOfContent_token hrule)
  have hstates := styleOfContent_states_ne_nil hrule
  have hne : args ≠ [] := fun hnil => by
    subst hnil
    exact hstates (by simpa using hargs.length_eq.symm)
  have hraw : percentRaw (trim (recv (sentMessage t args)) whitespace) = t := by
    obtain ⟨init, last, rfl⟩ := args.eq_nil_or_concat'.resolve_left hne
    exact (messageStates_args ht (fun a ha => (hnames a ha).1) hlen).1
  rw [← names_received_iff ht hne hnames hlen hcount, hargs.lowerNames, ← ruleMatches_iff]
  constructor
  · rintro ⟨message, hm, hmatch, -⟩
    obtain ⟨_, -, -, hst⟩ := parseIncomingMessage_eq_some.mp hm
    rwa [hst] at hmatch
  · intro hmatch
    obtain ⟨message, hm, hst⟩ := parseIncomingMessage_of_number ar (hraw.symm ▸ hparse)
    rw [← hst] at hmatch
    exact ⟨message, hm, hmatch, exists_picks hrule ⟨hstates, hmatch⟩⟩

/-- A style file with one rule, whose key holds a tab between two words. -/
def tabKey : Bytes := ascii "low\tpower=#BF616A\n"

theorem rule_fires_two_words : Transmissible [ascii "AC", ascii "charging"] ∧
    ∃ message, parseIncomingMessage parseNumeral .exact
        (trim (recv (sentMessage (ascii "50") [ascii "AC", ascii "charging"])) whitespace) = some message ∧
      ruleMatches ⟨[ascii "charging", ascii "ac"], ⟨0x5E, 0x81, 0xAC, 0xFF⟩⟩ message.states = true := by
  have hrule : (⟨[ascii "charging", ascii "ac"], ⟨0x5E, 0x81, 0xAC, 0xFF⟩⟩ : ColorRule) ∈
      (styleOfContent (ascii "charging+ac=#5E81AC\n")).rules := by decide
  have hargs : Respells [ascii "AC", ascii "charging"] [ascii "charging", ascii "ac"] := by
    unfold Respells
    decide
  have htrans : Transmissible [ascii "AC", ascii "charging"] := by
    refine ⟨by decide, fun last hlast hblank => absurd hblank ?_⟩
    obtain rfl := Option.some.inj hlast
    rintro ⟨b, hb, hw⟩
    obtain rfl := Option.some.inj hb
    exact absurd hw (by decide)
  have hparse : parseNumeral (ascii "50") = some (.finite 50) := by decide
  obtain ⟨message, hm, hmatch, -⟩ := (rule_fires_iff .exact hrule (.of_all (by decide) (by decide)) hparse
    hargs (by decide) (by decide)).mpr htrans
  exact ⟨htrans, message, hm, hmatch⟩

/-- The one rule of `tabKey` requires the state `low<tab>power`, which the message tokeniser takes apart. -/
theorem tab_rule_dead : ∃ rule ∈ (styleOfContent tabKey).rules, Respells [ascii "low\tpower"] rule.states ∧
    (sentMessage (ascii "50") [ascii "low\tpower"]).length ≤ 64 ∧
    ∃ message, parseIncomingMessage parseNumeral .exact
        (trim (recv (sentMessage (ascii "50") [ascii "low\tpower"])) whitespace) = some message ∧
      message.states = [ascii "low", ascii "power"] ∧ ruleMatches rule message.states = false := by
  have hself : Respells [ascii "low\tpower"] [ascii "low\tpower"] := List.Perm.refl _
  have hread : (parseIncomingMessage parseNumeral .exact
      (trim (recv (sentMessage (ascii "50") [ascii "low\tpower"])) whitespace)).map (·.states) =
      some [ascii "low", ascii "power"] := by decide
  obtain ⟨message, hm, hst⟩ := Option.map_eq_some_iff.mp hread
  have hrule : (⟨[ascii "low\tpower"], ⟨0xBF, 0x61, 0x6A, 0xFF⟩⟩ : ColorRule) ∈ (styleOfContent tabKey).rules := by decide
  exact ⟨_, hrule, hself, by decide, message, hm, hst, by rw [hst]; decide⟩

end Zlinestatus
