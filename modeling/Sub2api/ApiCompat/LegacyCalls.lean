import Mathlib.Logic.Function.Basic
import Sub2api.ApiCompat.AnthropicRequest
import Sub2api.ApiCompat.ChatCompletions

/-!
# Ids for legacy function calls

Legacy function calling carries no call ids: the result refers to the call by its name only, while
the Responses API pairs the two by `call_id`. `legacyFunctionCallIDs` gives the calls of a history
ids in message order and pairs each result with the oldest unanswered call of its name.
-/

namespace Sub2api.ApiCompat

/-- `ChatMessage` in a request. What its content means is read elsewhere. -/
structure ChatRequestMessage (Raw : Type) where
  role : String
  content : Raw
  reasoningContent : String := ""
  name : String := ""
  toolCalls : List ChatToolCall := []
  toolCallID : String := ""
  functionCall : Option ChatFunctionCall := none

/-- `fmt.Sprintf("call_legacy_%d", n)`. -/
def legacyID (n : ℕ) : String := "call_legacy_" ++ n.repr

theorem legacyID_injective : Function.Injective legacyID := by
  intro m n same
  have digits := congrArg String.toList same
  simp only [legacyID, String.toList_append, List.append_cancel_left_eq, Nat.toList_repr] at digits
  rw [← Nat.ofDigitChars_ten_toDigits (n := m), digits, Nat.ofDigitChars_ten_toDigits]

/-- The used ids that are not among the first generated ones. -/
def usedAhead (used : List String) (next : ℕ) : List String :=
  used.filter fun id => id ∉ (List.range next).map fun k => legacyID (k + 1)

theorem usedAhead_succ (used : List String) (next : ℕ) :
    usedAhead used (next + 1) = (usedAhead used next).filter (· ≠ legacyID (next + 1)) := by
  unfold usedAhead
  rw [List.filter_filter]
  apply List.filter_congr
  intro id _
  rw [Bool.eq_iff_iff, List.range_succ, List.map_append]
  simp only [List.map_cons, List.map_nil, List.mem_append, List.mem_singleton, not_or,
    Bool.and_eq_true, decide_eq_true_eq]
  exact and_comm

/-- The loop of `assign`: count up to a number whose id is not used. -/
def nextUnused (used : List String) (next : ℕ) : ℕ :=
  if legacyID (next + 1) ∈ used then nextUnused used (next + 1) else next + 1
termination_by (usedAhead used next).length
decreasing_by
  rename_i taken
  rw [usedAhead_succ, List.length_filter_lt_length_iff_exists]
  refine ⟨legacyID (next + 1), List.mem_filter.mpr ⟨taken, decide_eq_true ?_⟩, by simp⟩
  rw [List.mem_map]
  rintro ⟨k, low, same⟩
  have := legacyID_injective same
  have := List.mem_range.mp low
  omega

section Assigning

variable {Raw : Type}

/-- The call of a message that gets an id: tool calls of the same message take precedence. -/
def ChatRequestMessage.legacyCall (m : ChatRequestMessage Raw) : Option ChatFunctionCall :=
  if m.role = "assistant" ∧ m.toolCalls.length = 0 then m.functionCall else none

/-- A result that refers to its call by name only. -/
def ChatRequestMessage.IsLegacyResult (m : ChatRequestMessage Raw) : Prop :=
  m.role = "function" ∧ m.toolCallID = ""

instance (m : ChatRequestMessage Raw) : Decidable m.IsLegacyResult :=
  inferInstanceAs (Decidable (_ ∧ _))

/-- The ids that a history brings along. -/
def explicitIDs (msgs : List (ChatRequestMessage Raw)) : List String :=
  msgs.flatMap fun m =>
    m.toolCalls.map (·.id) ++ if m.toolCallID ≠ "" then [m.toolCallID] else []

/-- `legacyFunctionCallIDs`. The used ids are collected at the first call. -/
structure LegacyFunctionCallIDs (Raw : Type) where
  msgs : List (ChatRequestMessage Raw)
  used : Option (List String) := none
  next : ℕ := 0
  pending : String → List String := fun _ => []

namespace LegacyFunctionCallIDs

def assign (ids : LegacyFunctionCallIDs Raw) (name : String) :
    LegacyFunctionCallIDs Raw × String :=
  let used := ids.used.getD (explicitIDs ids.msgs)
  let next := nextUnused used ids.next
  let id := legacyID next
  ({ ids with
      used := some (id :: used)
      next := next
      pending := Function.update ids.pending name (ids.pending name ++ [id]) }, id)

def claim (ids : LegacyFunctionCallIDs Raw) (name : String) :
    LegacyFunctionCallIDs Raw × String :=
  match ids.pending name with
  | [] => (ids, "")
  | id :: queue => ({ ids with pending := Function.update ids.pending name queue }, id)

/-- What `convertChatMessagesToResponsesInput` does to a message before it converts it. -/
def resolve (ids : LegacyFunctionCallIDs Raw) (m : ChatRequestMessage Raw) :
    LegacyFunctionCallIDs Raw × ChatRequestMessage Raw :=
  match m.legacyCall with
  | some call =>
    let (ids, id) := ids.assign call.name
    (ids, { m with toolCalls := [{ id := id, function := call }] })
  | none =>
    if m.IsLegacyResult then
      let (ids, id) := ids.claim m.name
      (ids, { m with toolCallID := id })
    else (ids, m)

end LegacyFunctionCallIDs

/-- The messages with the ids that they get. -/
def LegacyFunctionCallIDs.resolveAll (ids : LegacyFunctionCallIDs Raw) :
    List (ChatRequestMessage Raw) → List (ChatRequestMessage Raw)
  | [] => []
  | m :: rest => (ids.resolve m).2 :: (ids.resolve m).1.resolveAll rest

/-- The messages that `convertChatMessagesToResponsesInput` converts. -/
def resolved (msgs : List (ChatRequestMessage Raw)) : List (ChatRequestMessage Raw) :=
  LegacyFunctionCallIDs.resolveAll { msgs := msgs } msgs

/-- The call ids of the items that `chatMessageToResponsesItems` makes of a message. A function's
result without an id is sent under the function's name. -/
def callIDs (m : ChatRequestMessage Raw) : List String :=
  if m.role = "assistant" then m.toolCalls.map (·.id)
  else if m.role = "tool" then [m.toolCallID]
  else if m.role = "function" then [if m.toolCallID = "" then m.name else m.toolCallID]
  else []

end Assigning

end Sub2api.ApiCompat
