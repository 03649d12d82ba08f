import Zlinestatus.Model.Float

/-! The message: what `zsendvalue` sends and what the renderer reads of it. -/

namespace Zlinestatus

/-! ### The sender -/

/-- The states of `zsendvalue`'s `args[4..]`, joined in `states_buf`. -/
def statesBuf (args : List Bytes) : Bytes :=
  args.zipIdx.foldl (fun buf arg => (if arg.2 ≠ 0 then buf ++ ascii "," else buf) ++ arg.1) []

/-- The message `zsendvalue` sends for a percentage that prints as `percentage`. -/
def sentMessage (percentage : Bytes) (args : List Bytes) : Bytes :=
  if (statesBuf args).length = 0 then percentage ++ ascii "\n"
  else percentage ++ ascii " " ++ statesBuf args ++ ascii "\n"

/-! ### The receiver -/

/-- `std.posix.recv` into the 64 bytes of `buf`: one call yields the first bytes of what was sent. -/
def recv (sent : Bytes) : Bytes := sent.take 64

/-- A parsed message; `states_buf` has room for 16 states. -/
structure ParsedMessage where
  percent : F32
  states : List Bytes
  bounded : states.length ≤ 16
  deriving DecidableEq

/-- The token loop of `parseIncomingMessage`, on the states stored so far. -/
def storeStates (stored : List Bytes) : List Bytes → List Bytes
  | [] => stored
  | state :: it =>
    if state.length = 0 then storeStates stored it
    else if stored.length ≥ 16 then stored
    else storeStates (stored ++ [state]) it

theorem storeStates_length {stored : List Bytes} (h : stored.length ≤ 16) (it : List Bytes) :
    (storeStates stored it).length ≤ 16 := by
  induction it generalizing stored with
  | nil => exact h
  | cons state it ih =>
    simp only [storeStates]
    split
    · exact ih h
    · split
      · exact h
      · exact ih (by simp; omega)

/-- `ws_index` of `parseIncomingMessage` -/
def wsIndex (raw : Bytes) : ℕ := (indexOfAny raw (ascii " \t")).getD raw.length

/-- `percent_raw`: the text `parseIncomingMessage` hands to `parseFloat`. -/
def percentRaw (raw : Bytes) : Bytes := raw.take (wsIndex raw)

def messageStates (raw : Bytes) : List Bytes :=
  if wsIndex raw < raw.length then
    storeStates [] (tokenizeAny (trim (raw.drop (wsIndex raw)) (ascii " \t")) (ascii ",+ \t"))
  else []

theorem messageStates_length (raw : Bytes) : (messageStates raw).length ≤ 16 := by
  unfold messageStates
  split
  · exact storeStates_length (by simp) _
  · simp

/-- A number up to 1 is a fraction, any other a percentage; the result is clamped to 0..100. -/
def scalePercent (ar : F32Arith) (number : F32) : F32 :=
  let percent := if number.le (.finite 1) then ar.mul number (.finite 100) else number
  F32.clamp percent (.finite 0) (.finite 100)

section
variable (parseFloat : Bytes → Option F32) (ar : F32Arith)

/-- The caller waits for the next message on any error, so the errors are not told apart. -/
def parseIncomingMessage (raw : Bytes) : Option ParsedMessage :=
  match parseFloat (percentRaw raw) with
  | none => none
  | some number => some ⟨scalePercent ar number, messageStates raw, messageStates_length raw⟩

/-- `main` on the bytes of one connection: an empty delivery is skipped, any other one is trimmed and
    parsed. -/
def acceptMessage (sent : Bytes) : Option ParsedMessage :=
  let buf := recv sent
  if buf.length = 0 then none else parseIncomingMessage parseFloat ar (trim buf whitespace)

end

/-! ### What the definitions compute -/

theorem parseIncomingMessage_eq_some {parseFloat : Bytes → Option F32} {ar : F32Arith} {raw : Bytes}
    {message : ParsedMessage} : parseIncomingMessage parseFloat ar raw = some message ↔
      ∃ number, parseFloat (percentRaw raw) = some number ∧ message.percent = scalePercent ar number ∧
        message.states = messageStates raw := by
  obtain ⟨percent, states, bounded⟩ := message
  unfold parseIncomingMessage
  cases parseFloat (percentRaw raw) with
  | none => simp
  | some number => simp [eq_comm]

/-- A message whose number parses is accepted, whatever its states are. -/
theorem parseIncomingMessage_of_number {parseFloat : Bytes → Option F32} (ar : F32Arith) {raw : Bytes} {number : F32}
    (h : parseFloat (percentRaw raw) = some number) :
    ∃ message, parseIncomingMessage parseFloat ar raw = some message ∧ message.states = messageStates raw := by
  rw [parseIncomingMessage, h]
  exact ⟨_, rfl, rfl⟩

theorem storeStates_eq {stored : List Bytes} (h : stored.length ≤ 16) {it : List Bytes}
    (hne : ∀ state ∈ it, state ≠ []) : storeStates stored it = (stored ++ it).take 16 := by
  induction it generalizing stored with
  | nil => simp [storeStates, List.take_of_length_le h]
  | cons state it ih =>
    simp only [storeStates, List.length_eq_zero_iff, hne state (by simp), if_false]
    split
    · next hfull =>
      have hlen : stored.length = 16 := by omega
      rw [← hlen, List.take_left]
    · next hroom =>
      rw [ih (by simp; omega) fun s hs => hne s (by simp [hs]), List.append_assoc, List.singleton_append]

/-- The percentage of an accepted message is finite and between 0 and 100, whatever was sent. -/
theorem scalePercent_mem (ar : F32Arith) (number : F32) :
    ∃ q, scalePercent ar number = .finite q ∧ 0 ≤ q ∧ q ≤ 100 :=
  F32.clamp_mem _ (by norm_num)

theorem statesBuf_eq (args : List Bytes) : statesBuf args = [0x2C].intercalate args := by
  have hcomma : ascii "," = [0x2C] := by decide
  have later : ∀ (args : List Bytes) (buf : Bytes) (k : ℕ), k ≠ 0 →
      (args.zipIdx k).foldl (fun buf arg => (if arg.2 ≠ 0 then buf ++ ascii "," else buf) ++ arg.1) buf =
        buf ++ args.flatMap ([0x2C] ++ ·) := by
    intro args
    induction args with
    | nil => simp
    | cons arg args ih =>
      intro buf k hk
      rw [List.zipIdx_cons, List.foldl_cons, ih _ (k + 1) (by omega)]
      simp [hk, hcomma]
  cases args with
  | nil => rfl
  | cons arg args =>
    rw [statesBuf, List.zipIdx_cons, List.foldl_cons, later _ _ _ (by omega)]
    simp only [ne_eq, not_true_eq_false, if_false, List.nil_append]
    induction args generalizing arg with
    | nil => simp
    | cons next args ih =>
      rw [List.intercalate_cons_cons, ← ih next]
      simp

end Zlinestatus
