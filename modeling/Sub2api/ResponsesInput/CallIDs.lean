import Mathlib.Data.List.Dedup
import Sub2api.Go.JsonDecoded
import Sub2api.Go.Strings
import Sub2api.Lists.Positions

/-!
# Replayed tool calls

`dedupeOpenAIResponsesCallIDs` drops from the input of a Responses request the calls and the outputs
that another item of the same id stands for. The items of a request are told apart by their
positions, since a replayed item can equal the one that it repeats.
-/

namespace Sub2api.ResponsesInput

open Sub2api.Go Sub2api.Go.Json Sub2api.Positions

/-- `isResponsesCallOutputType`. -/
def isResponsesCallOutputType (itemType : String) : Bool := hasSuffix itemType "_output"

/-- The trimmed `call_id` of an item; an item that is no object has none. -/
def callID : JsonValue → String
  | .object item => trimSpace (stringValue (JsonMap.get item "call_id"))
  | _ => ""

def isOutput : JsonValue → Bool
  | .object item => isResponsesCallOutputType (stringValue (JsonMap.get item "type"))
  | _ => false

/-- `calls[callID]`. -/
def calls (input : List JsonValue) (id : String) : List ℕ :=
  positions (fun item => callID item = id && !isOutput item) input

/-- `outputs[callID]`. -/
def outputs (input : List JsonValue) (id : String) : List ℕ :=
  positions (fun item => callID item = id && isOutput item) input

/-- The last call before the last output. -/
def lastCall (calls : List ℕ) (lastOutput : ℕ) : Option ℕ :=
  calls.foldl (fun last index => if index < lastOutput then some index else last) none

/-- What is dropped for one id. -/
def dropped (calls outputs : List ℕ) : List ℕ :=
  match outputs.getLast? with
  | some lastOutput =>
    let lastCall := lastCall calls lastOutput
    calls.filter (fun index => some index ≠ lastCall) ++
      outputs.filter fun index => index ≠ lastOutput
  | none => calls.dropLast

/-- The keys of both maps. -/
def callIDs (input : List JsonValue) : List String :=
  ((input.map callID).filter fun id => id ≠ "").dedup

def drop (input : List JsonValue) : List ℕ :=
  (callIDs input).flatMap fun id => dropped (calls input id) (outputs input id)

structure DedupeResult where
  body : String
  changed : Bool := false
  failed : Bool := false

def dedupeOpenAIResponsesCallIDs (body : String) : DedupeResult :=
  if contains body "\"call_id\"" = false then { body := body }
  else
    match decodeObject body with
    | none => { body := body, failed := true }
    | some payload =>
      match payload.get "input" with
      | some (.array input) =>
        if drop input = [] then { body := body }
        else
          let filtered := keepAt (fun i => decide (i ∉ drop input)) input
          { body := encodeRaw (.object (payload.put "input" (.array filtered))), changed := true }
      | _ => { body := body }

/-! ### What is left -/

/-- There is a call of the id at the position. -/
def CallAt (input : List JsonValue) (id : String) (i : ℕ) : Prop :=
  ∃ item, input[i]? = some item ∧ callID item = id ∧ isOutput item = false

def OutputAt (input : List JsonValue) (id : String) (i : ℕ) : Prop :=
  ∃ item, input[i]? = some item ∧ callID item = id ∧ isOutput item = true

/-- The positions that are kept are right. -/
structure Right (input : List JsonValue) (keep : ℕ → Bool) : Prop where
  others : ∀ i item, input[i]? = some item → callID item = "" → keep i = true
  oneCall : ∀ id ≠ "", ∀ i j, CallAt input id i → CallAt input id j →
    keep i = true → keep j = true → i = j
  oneOutput : ∀ id ≠ "", ∀ i j, OutputAt input id i → OutputAt input id j →
    keep i = true → keep j = true → i = j
  /-- The last output and the last call before it. -/
  pair : ∀ id ≠ "", ∀ i k, CallAt input id i → OutputAt input id k → i < k →
    (∀ j, CallAt input id j → j < k → j ≤ i) → (∀ j, OutputAt input id j → j ≤ k) →
    keep i = true ∧ keep k = true
  unanswered : ∀ id ≠ "", (∀ k, ¬OutputAt input id k) → ∀ i, CallAt input id i →
    (∀ j, CallAt input id j → j ≤ i) → keep i = true
  single : ∀ id ≠ "", (∀ i j, CallAt input id i → CallAt input id j → i = j) →
    (∀ i j, OutputAt input id i → OutputAt input id j → i = j) →
    ∀ i, CallAt input id i ∨ OutputAt input id i → keep i = true

def Deduped (input output : List JsonValue) : Prop :=
  ∃ keep, output = keepAt keep input ∧ Right input keep

def inputItems (body : String) : List JsonValue :=
  match (fields body).get "input" with
  | some (.array input) => input
  | _ => []

structure Dedupes (body : String) : Prop where
  items : Deduped (inputItems body) (inputItems (dedupeOpenAIResponsesCallIDs body).body)
  fields : ∀ key ≠ "input",
    (fields (dedupeOpenAIResponsesCallIDs body).body).get key = (fields body).get key
  again : (dedupeOpenAIResponsesCallIDs (dedupeOpenAIResponsesCallIDs body).body).body =
    (dedupeOpenAIResponsesCallIDs body).body

/-! ### Which positions are dropped -/

instance (input : List JsonValue) (id : String) (i : ℕ) : Decidable (CallAt input id i) :=
  decidable_of_iff ((input[i]?.map fun item => (callID item, isOutput item)) = some (id, false))
    (by simp [CallAt])

instance (input : List JsonValue) (id : String) (i : ℕ) : Decidable (OutputAt input id i) :=
  decidable_of_iff ((input[i]?.map fun item => (callID item, isOutput item)) = some (id, true))
    (by simp [OutputAt])

variable {input : List JsonValue} {id : String} {i j k : ℕ}

theorem mem_calls : i ∈ calls input id ↔ CallAt input id i := by
  unfold calls CallAt
  rw [mem_positions]
  simp

theorem mem_outputs : i ∈ outputs input id ↔ OutputAt input id i := by
  unfold outputs OutputAt
  rw [mem_positions]
  simp

theorem calls_ordered (input : List JsonValue) (id : String) :
    (calls input id).Pairwise (· < ·) := positions_ordered _ _

theorem outputs_ordered (input : List JsonValue) (id : String) :
    (outputs input id).Pairwise (· < ·) := positions_ordered _ _

theorem lastCall_eq (calls : List ℕ) (lastOutput : ℕ) :
    lastCall calls lastOutput = (calls.filter fun index => index < lastOutput).getLast? := by
  have general : ∀ (calls : List ℕ) (last : Option ℕ),
      calls.foldl (fun last index => if index < lastOutput then some index else last) last =
        ((calls.filter fun index => index < lastOutput).getLast?).or last := by
    intro calls
    induction calls with
    | nil => simp
    | cons index rest ih =>
      intro last
      rw [List.foldl_cons, ih]
      by_cases before : index < lastOutput
      · rw [if_pos before, List.filter_cons_of_pos (by simpa using before)]
        cases later : (rest.filter fun index => index < lastOutput).getLast? with
        | none =>
          rw [List.getLast?_eq_none_iff.mp later]
          rfl
        | some found =>
          rw [List.getLast?_cons, later]
          rfl
      · rw [if_neg before, List.filter_cons_of_neg (by simpa using before)]
  have whole := general calls none
  rw [Option.or_none] at whole
  exact whole

/-- The last call before an output. -/
theorem lastCall_some {cs : List ℕ} (ordered : cs.Pairwise (· < ·)) :
    lastCall cs k = some i ↔ i ∈ cs ∧ i < k ∧ ∀ j ∈ cs, j < k → j ≤ i := by
  rw [lastCall_eq]
  constructor
  · intro last
    obtain ⟨mem, greatest⟩ := getLast?_greatest (ordered.filter _) last
    obtain ⟨listed, before⟩ := List.mem_filter.mp mem
    exact ⟨listed, by simpa using before,
      fun j mem less => greatest j (List.mem_filter.mpr ⟨mem, by simpa using less⟩)⟩
  · rintro ⟨listed, before, greatest⟩
    have mem : i ∈ cs.filter fun index => index < k :=
      List.mem_filter.mpr ⟨listed, by simpa using before⟩
    cases last : (cs.filter fun index => index < k).getLast? with
    | none =>
      rw [List.getLast?_eq_none_iff.mp last] at mem
      cases mem
    | some found =>
      obtain ⟨mem', greatest'⟩ := getLast?_greatest (ordered.filter _) last
      obtain ⟨listed', before'⟩ := List.mem_filter.mp mem'
      have le := greatest' i mem
      have ge := greatest found listed' (by simpa using before')
      rw [Nat.le_antisymm ge le]

theorem at_of_dropped (mem : i ∈ dropped (calls input id) (outputs input id)) :
    CallAt input id i ∨ OutputAt input id i := by
  unfold dropped at mem
  split at mem
  · rcases List.mem_append.mp mem with call | output
    · exact Or.inl (mem_calls.mp (List.mem_of_mem_filter call))
    · exact Or.inr (mem_outputs.mp (List.mem_of_mem_filter output))
  · exact Or.inl (mem_calls.mp ((mem_dropLast_iff (calls_ordered input id)).mp mem).1)

theorem mem_drop : i ∈ drop input ↔
    ∃ id ≠ "", i ∈ dropped (calls input id) (outputs input id) := by
  unfold drop
  rw [List.mem_flatMap]
  constructor
  · rintro ⟨id, listed, mem⟩
    have some_ := (List.mem_filter.mp (List.mem_dedup.mp listed)).2
    exact ⟨id, by simpa using some_, mem⟩
  · rintro ⟨id, some_, mem⟩
    refine ⟨id, ?_, mem⟩
    have item : ∃ item ∈ input, callID item = id := by
      rcases at_of_dropped mem with ⟨item, at_, own, -⟩ | ⟨item, at_, own, -⟩
      · exact ⟨item, List.mem_of_getElem? at_, own⟩
      · exact ⟨item, List.mem_of_getElem? at_, own⟩
    obtain ⟨item, mem_, own⟩ := item
    exact List.mem_dedup.mpr (List.mem_filter.mpr
      ⟨List.mem_map.mpr ⟨item, mem_, own⟩, by simpa using some_⟩)

theorem CallAt.id_eq {id' : String} (here : CallAt input id i)
    (there : CallAt input id' i ∨ OutputAt input id' i) : id' = id := by
  obtain ⟨item, at_, own, -⟩ := here
  rcases there with ⟨item', at', own', -⟩ | ⟨item', at', own', -⟩
  · rw [at_] at at'
    cases at'
    rw [← own, own']
  · rw [at_] at at'
    cases at'
    rw [← own, own']

theorem OutputAt.id_eq {id' : String} (here : OutputAt input id i)
    (there : CallAt input id' i ∨ OutputAt input id' i) : id' = id := by
  obtain ⟨item, at_, own, -⟩ := here
  rcases there with ⟨item', at', own', -⟩ | ⟨item', at', own', -⟩
  · rw [at_] at at'
    cases at'
    rw [← own, own']
  · rw [at_] at at'
    cases at'
    rw [← own, own']

theorem CallAt.not_output {id' : String} (here : CallAt input id i) : ¬OutputAt input id' i := by
  rintro ⟨item', at', -, output⟩
  obtain ⟨item, at_, -, call⟩ := here
  rw [at_] at at'
  cases at'
  rw [call] at output
  cases output

/-- An item is dropped for its own id. -/
theorem mem_drop_of_at (some_ : id ≠ "") (here : CallAt input id i ∨ OutputAt input id i) :
    i ∈ drop input ↔ i ∈ dropped (calls input id) (outputs input id) := by
  rw [mem_drop]
  constructor
  · rintro ⟨id', -, mem⟩
    have same : id' = id := by
      rcases here with call | output
      · exact call.id_eq (at_of_dropped mem)
      · exact output.id_eq (at_of_dropped mem)
    rwa [same] at mem
  · intro mem
    exact ⟨id, some_, mem⟩

/-- With an output, the last call before the last output is the one that is kept. -/
theorem call_dropped (some_ : id ≠ "") (call : CallAt input id i)
    (last : (outputs input id).getLast? = some k) :
    i ∈ drop input ↔ lastCall (calls input id) k ≠ some i := by
  rw [mem_drop_of_at some_ (Or.inl call), dropped, last, List.mem_append, List.mem_filter,
    List.mem_filter]
  constructor
  · rintro (⟨-, other⟩ | ⟨output, -⟩)
    · intro same
      rw [same] at other
      simp at other
    · exact absurd (mem_outputs.mp output) call.not_output
  · intro other
    exact Or.inl ⟨mem_calls.mpr call, by simpa using Ne.symm other⟩

theorem output_dropped (some_ : id ≠ "") (output : OutputAt input id i)
    (last : (outputs input id).getLast? = some k) : i ∈ drop input ↔ i ≠ k := by
  rw [mem_drop_of_at some_ (Or.inr output), dropped, last, List.mem_append, List.mem_filter,
    List.mem_filter]
  constructor
  · rintro (⟨call, -⟩ | ⟨-, other⟩)
    · exact absurd output (mem_calls.mp call).not_output
    · simpa using other
  · intro other
    exact Or.inr ⟨mem_outputs.mpr output, by simpa using other⟩

theorem unanswered_dropped (some_ : id ≠ "") (call : CallAt input id i)
    (none_ : ∀ k, ¬OutputAt input id k) :
    i ∈ drop input ↔ ∃ j, CallAt input id j ∧ i < j := by
  have empty : outputs input id = [] := by
    apply List.eq_nil_iff_forall_not_mem.mpr
    intro k mem
    exact none_ k (mem_outputs.mp mem)
  rw [mem_drop_of_at some_ (Or.inl call), dropped, empty, List.getLast?_nil,
    mem_dropLast_iff (calls_ordered input id)]
  constructor
  · rintro ⟨-, j, mem, less⟩
    exact ⟨j, mem_calls.mp mem, less⟩
  · rintro ⟨j, here, less⟩
    exact ⟨mem_calls.mpr call, j, mem_calls.mpr here, less⟩

/-- An id with an output has a last one. -/
theorem last_output (output : OutputAt input id j) :
    ∃ k, (outputs input id).getLast? = some k ∧ OutputAt input id k ∧
      ∀ j, OutputAt input id j → j ≤ k := by
  cases last : (outputs input id).getLast? with
  | none =>
    have mem := mem_outputs.mpr output
    rw [List.getLast?_eq_none_iff.mp last] at mem
    cases mem
  | some k =>
    obtain ⟨mem, greatest⟩ := getLast?_greatest (outputs_ordered input id) last
    exact ⟨k, rfl, mem_outputs.mp mem, fun j here => greatest j (mem_outputs.mpr here)⟩

/-! ### What is kept -/

/-- What the code keeps. -/
def kept (input : List JsonValue) (i : ℕ) : Bool := i ∉ drop input

theorem kept_iff : kept input i = true ↔ i ∉ drop input := by simp [kept]

theorem others_kept {item : JsonValue} (at_ : input[i]? = some item) (none_ : callID item = "") :
    kept input i = true := by
  rw [kept_iff, mem_drop]
  rintro ⟨id, some_, mem⟩
  apply some_
  rcases at_of_dropped mem with ⟨item', at', own, -⟩ | ⟨item', at', own, -⟩
  · rw [at_] at at'
    cases at'
    rw [← own, none_]
  · rw [at_] at at'
    cases at'
    rw [← own, none_]

/-- Among several calls the one that is kept is before the last output, if there is one. -/
theorem call_kept (some_ : id ≠ "") (call : CallAt input id i) (keep : kept input i = true) :
    (∀ k, OutputAt input id k → (∀ j, OutputAt input id j → j ≤ k) →
      lastCall (calls input id) k = some i) ∧
    ((∀ k, ¬OutputAt input id k) → ∀ j, CallAt input id j → j ≤ i) := by
  rw [kept_iff] at keep
  constructor
  · intro k output greatest
    obtain ⟨k', last, output', greatest'⟩ := last_output output
    have same : k' = k := Nat.le_antisymm (greatest k' output') (greatest' k output)
    subst same
    by_contra other
    exact keep ((call_dropped some_ call last).mpr other)
  · intro none_ j here
    by_contra less
    exact keep ((unanswered_dropped some_ call none_).mpr ⟨j, here, by omega⟩)

theorem oneCall_kept (some_ : id ≠ "") (call : CallAt input id i) (call' : CallAt input id j)
    (keep : kept input i = true) (keep' : kept input j = true) : i = j := by
  obtain ⟨answered, unanswered⟩ := call_kept some_ call keep
  obtain ⟨answered', unanswered'⟩ := call_kept some_ call' keep'
  by_cases outputs_ : ∃ k, OutputAt input id k
  · obtain ⟨k, output⟩ := outputs_
    obtain ⟨k', -, output', greatest⟩ := last_output output
    have first := answered k' output' greatest
    rw [answered' k' output' greatest] at first
    exact (Option.some.inj first).symm
  · have none_ := not_exists.mp outputs_
    exact Nat.le_antisymm (unanswered' none_ i call) (unanswered none_ j call')

theorem output_kept (some_ : id ≠ "") (output : OutputAt input id k) (keep : kept input k = true)
    (j : ℕ) (other : OutputAt input id j) : j ≤ k := by
  obtain ⟨k', last, -, greatest⟩ := last_output output
  rw [kept_iff, output_dropped some_ output last, not_not] at keep
  exact keep ▸ greatest j other

/-- A call that is kept is before the output that is kept. -/
theorem call_before_output (some_ : id ≠ "") (call : CallAt input id i)
    (output : OutputAt input id k) (keep : kept input i = true) (keep' : kept input k = true) :
    i < k := by
  have last := (call_kept some_ call keep).1 k output (output_kept some_ output keep')
  exact ((lastCall_some (calls_ordered input id)).mp last).2.1

/-- No id has its only call after its only output. -/
def InOrder (input : List JsonValue) : Prop :=
  ∀ id ≠ "", ∀ i k, CallAt input id i → OutputAt input id k →
    (∀ j, CallAt input id j → j = i) → (∀ j, OutputAt input id j → j = k) → i < k

theorem pair_kept (some_ : id ≠ "") (call : CallAt input id i) (output : OutputAt input id k)
    (less : i < k) (lastCall_ : ∀ j, CallAt input id j → j < k → j ≤ i)
    (lastOutput : ∀ j, OutputAt input id j → j ≤ k) :
    kept input i = true ∧ kept input k = true := by
  obtain ⟨k', last, output', greatest⟩ := last_output output
  have same : k' = k := Nat.le_antisymm (lastOutput k' output') (greatest k output)
  subst same
  rw [kept_iff, kept_iff, call_dropped some_ call last, output_dropped some_ output last, not_not,
    not_not]
  refine ⟨(lastCall_some (calls_ordered input id)).mpr ⟨mem_calls.mpr call, less, ?_⟩, rfl⟩
  intro j mem
  exact lastCall_ j (mem_calls.mp mem)

theorem unanswered_kept (some_ : id ≠ "") (none_ : ∀ k, ¬OutputAt input id k)
    (call : CallAt input id i) (last : ∀ j, CallAt input id j → j ≤ i) : kept input i = true := by
  rw [kept_iff, unanswered_dropped some_ call none_]
  rintro ⟨j, here, less⟩
  exact absurd (last j here) (by omega)

theorem right_of_inOrder (order : InOrder input) : Right input (kept input) where
  others _ _ := others_kept
  oneCall _ some_ _ _ := oneCall_kept some_
  oneOutput id some_ i j output output' keep keep' :=
    Nat.le_antisymm (output_kept some_ output' keep' i output)
      (output_kept some_ output keep j output')
  pair _ some_ _ _ := pair_kept some_
  unanswered _ some_ none_ _ := unanswered_kept some_ none_
  single id some_ oneCall oneOutput i here := by
    rcases here with call | output
    · by_cases outputs_ : ∃ k, OutputAt input id k
      · obtain ⟨k, output⟩ := outputs_
        have less := order id some_ i k call output (fun j here => oneCall j i here call)
          fun j here => oneOutput j k here output
        exact (pair_kept some_ call output less
          (fun j here _ => Nat.le_of_eq (oneCall j i here call))
          fun j here => Nat.le_of_eq (oneOutput j k here output)).1
      · exact unanswered_kept some_ (not_exists.mp outputs_) call
          fun j here => Nat.le_of_eq (oneCall j i here call)
    · obtain ⟨k, last, output', -⟩ := last_output output
      rw [kept_iff, output_dropped some_ output last, not_not]
      exact oneOutput i k output output'

/-- What is left has nothing more to drop. -/
theorem drop_keepAt (input : List JsonValue) : drop (keepAt (kept input) input) = [] := by
  apply List.eq_nil_iff_forall_not_mem.mpr
  intro p mem
  obtain ⟨id, some_, mem⟩ := mem_drop.mp mem
  have here := at_of_dropped mem
  rw [← mem_drop_of_at some_ here] at mem
  have oneCall : ∀ p q, CallAt (keepAt (kept input) input) id p →
      CallAt (keepAt (kept input) input) id q → ¬p < q := by
    rintro p q ⟨a, at_p, own, call⟩ ⟨b, at_q, own', call'⟩ less
    obtain ⟨i, j, at_i, keep_i, at_j, keep_j, order⟩ := keepAt_getElem? at_p at_q
    exact absurd (oneCall_kept some_ ⟨a, at_i, own, call⟩ ⟨b, at_j, own', call'⟩ keep_i keep_j)
      (Nat.ne_of_lt (order less))
  have oneOutput : ∀ p q, OutputAt (keepAt (kept input) input) id p →
      OutputAt (keepAt (kept input) input) id q → ¬p < q := by
    rintro p q ⟨a, at_p, own, output⟩ ⟨b, at_q, own', output'⟩ less
    obtain ⟨i, j, at_i, keep_i, at_j, keep_j, order⟩ := keepAt_getElem? at_p at_q
    have le := output_kept some_ ⟨a, at_i, own, output⟩ keep_i j ⟨b, at_j, own', output'⟩
    exact absurd (order less) (by omega)
  have inOrder : ∀ p q, OutputAt (keepAt (kept input) input) id p →
      CallAt (keepAt (kept input) input) id q → q < p := by
    intro p q output call
    rcases Nat.lt_trichotomy p q with less | same | greater
    · obtain ⟨a, at_p, own, output⟩ := output
      obtain ⟨b, at_q, own', call⟩ := call
      obtain ⟨k, i, at_k, keep_k, at_i, keep_i, order⟩ := keepAt_getElem? at_p at_q
      have before := call_before_output some_ ⟨b, at_i, own', call⟩ ⟨a, at_k, own, output⟩ keep_i
        keep_k
      exact absurd (order less) (by omega)
    · rw [same] at output
      exact absurd output call.not_output
    · exact greater
  rcases here with call | output
  · by_cases outputs_ : ∃ k, OutputAt (keepAt (kept input) input) id k
    · obtain ⟨k, output⟩ := outputs_
      obtain ⟨k', last, output', -⟩ := last_output output
      apply (call_dropped some_ call last).mp mem
      apply (lastCall_some (calls_ordered _ _)).mpr
      refine ⟨mem_calls.mpr call, inOrder k' p output' call, ?_⟩
      intro j mem_j _
      exact Nat.not_lt.mp (oneCall p j call (mem_calls.mp mem_j))
    · obtain ⟨j, here, less⟩ := (unanswered_dropped some_ call (not_exists.mp outputs_)).mp mem
      exact oneCall p j call here less
  · obtain ⟨k, last, output', greatest⟩ := last_output output
    apply (output_dropped some_ output last).mp mem
    exact Nat.le_antisymm (greatest p output) (Nat.not_lt.mp (oneOutput p k output output'))

/-! ### The body -/

theorem inputItems_of {body : String} {payload : JsonMap}
    (decoded : decodeObject body = some payload)
    (found : payload.get "input" = some (.array input)) : inputItems body = input := by
  simp [inputItems, fields, decoded, found]

/-- The body is untouched, or it has what is left in the place of its input. -/
theorem dedupe_cases (body : String) :
    (dedupeOpenAIResponsesCallIDs body).body = body ∧
        (contains body "\"call_id\"" = true → drop (inputItems body) = []) ∨
      ∃ payload, decodeObject body = some payload ∧
        payload.get "input" = some (.array (inputItems body)) ∧
        contains body "\"call_id\"" = true ∧ drop (inputItems body) ≠ [] ∧
        (dedupeOpenAIResponsesCallIDs body).body =
          encodeRaw (.object (payload.put "input"
            (.array (keepAt (kept (inputItems body)) (inputItems body))))) := by
  have nothing : drop [] = [] := rfl
  unfold dedupeOpenAIResponsesCallIDs
  by_cases literal : contains body "\"call_id\"" = false
  · rw [if_pos literal]
    exact Or.inl ⟨rfl, fun present => by rw [literal] at present; cases present⟩
  · have present : contains body "\"call_id\"" = true := by simpa using literal
    rw [if_neg literal]
    cases decoded : decodeObject body with
    | none =>
      have items : inputItems body = [] := by simp [inputItems, fields, decoded, JsonMap.get]
      rw [items]
      exact Or.inl ⟨rfl, fun _ => nothing⟩
    | some payload =>
      have fields_ : fields body = payload := by simp [fields, decoded]
      dsimp only
      split
      · rename_i input found
        have items := inputItems_of decoded found
        rw [items]
        split
        · rename_i empty
          exact Or.inl ⟨rfl, fun _ => empty⟩
        · rename_i some_
          exact Or.inr ⟨payload, rfl, found, present, some_, rfl⟩
      · rename_i other
        have items : inputItems body = [] := by
          unfold inputItems
          rw [fields_]
          split
          · rename_i input found
            exact absurd found (other input)
          · rfl
        rw [items]
        exact Or.inl ⟨rfl, fun _ => nothing⟩

theorem keepAt_of_drop_nil (nothing : drop input = []) : keepAt (kept input) input = input := by
  apply keepAt_all
  intro i _
  rw [kept_iff, nothing]
  exact List.not_mem_nil

/-- What is written is read as the payload with what is left. -/
theorem decodeObject_deduped {body : String} {payload : JsonMap}
    (decoded : decodeObject body = some payload)
    (found : payload.get "input" = some (.array input)) :
    decodeObject (encodeRaw (.object (payload.put "input" (.array (keepAt (kept input) input))))) =
      some (payload.put "input" (.array (keepAt (kept input) input))) := by
  have fits : Fits (9999 + 1) (.object payload) := decodeObject_fits decoded
  apply decodeObject_encodeRaw
  apply fits.set
  apply (fits.get found).items
  intro item mem
  obtain ⟨i, at_, -⟩ := mem_keepAt.mp mem
  exact List.mem_of_getElem? at_

theorem dedupe_items (body : String) (literal : contains body "\"call_id\"" = true) :
    inputItems (dedupeOpenAIResponsesCallIDs body).body =
      keepAt (kept (inputItems body)) (inputItems body) := by
  rcases dedupe_cases body with ⟨same, nothing⟩ | ⟨payload, decoded, found, -, -, written⟩
  · rw [same, keepAt_of_drop_nil (nothing literal)]
  · rw [written]
    apply inputItems_of (decodeObject_deduped decoded found)
    rw [get_put, if_pos rfl]

theorem dedupe_fields (body key : String) (other : key ≠ "input") :
    (fields (dedupeOpenAIResponsesCallIDs body).body).get key = (fields body).get key := by
  rcases dedupe_cases body with ⟨same, -⟩ | ⟨payload, decoded, found, -, -, written⟩
  · rw [same]
  · rw [written]
    simp [fields, decodeObject_deduped decoded found, get_put, decoded, other]

/-- A second pass finds nothing. -/
theorem dedupe_again (body : String) :
    (dedupeOpenAIResponsesCallIDs (dedupeOpenAIResponsesCallIDs body).body).body =
      (dedupeOpenAIResponsesCallIDs body).body := by
  rcases dedupe_cases body with ⟨same, -⟩ | ⟨-, -, -, literal, -, -⟩
  · rw [same, same]
  · rcases dedupe_cases (dedupeOpenAIResponsesCallIDs body).body with
      ⟨same, -⟩ | ⟨-, -, -, -, some_, -⟩
    · exact same
    · have nothing := drop_keepAt (inputItems body)
      rw [← dedupe_items body literal] at nothing
      exact absurd nothing some_

/-- Each id has at most one call and at most one output. -/
def Single (input : List JsonValue) : Prop :=
  ∀ id ≠ "", (∀ i j, CallAt input id i → CallAt input id j → i = j) ∧
    ∀ i j, OutputAt input id i → OutputAt input id j → i = j

theorem inOrder_of_deduped (deduped : Deduped input (keepAt (kept input) input)) :
    InOrder input := by
  obtain ⟨keep, same, right⟩ := deduped
  intro id some_ i k call output onlyCall onlyOutput
  have oneCall : ∀ i j, CallAt input id i → CallAt input id j → i = j :=
    fun i j here there => (onlyCall i here).trans (onlyCall j there).symm
  have oneOutput : ∀ i j, OutputAt input id i → OutputAt input id j → i = j :=
    fun i j here there => (onlyOutput i here).trans (onlyOutput j there).symm
  have both : kept input i = true ∧ kept input k = true := by
    have present : ∀ p, CallAt input id p ∨ OutputAt input id p →
        ∃ item q, input[p]? = some item ∧ input[q]? = some item ∧ kept input q = true := by
      intro p here
      have keep_p := right.single id some_ oneCall oneOutput p here
      have at_ : ∃ item, input[p]? = some item := by
        rcases here with ⟨item, at_, -⟩ | ⟨item, at_, -⟩
        · exact ⟨item, at_⟩
        · exact ⟨item, at_⟩
      obtain ⟨item, at_⟩ := at_
      have mem : item ∈ keepAt (kept input) input := by
        rw [same]
        exact mem_keepAt.mpr ⟨p, at_, keep_p⟩
      obtain ⟨q, at_q, keep_q⟩ := mem_keepAt.mp mem
      exact ⟨item, q, at_, at_q, keep_q⟩
    constructor
    · obtain ⟨item, q, at_, at_q, keep_q⟩ := present i (Or.inl call)
      obtain ⟨item', at', own, kind⟩ := call
      rw [at_] at at'
      cases at'
      rwa [onlyCall q ⟨item, at_q, own, kind⟩] at keep_q
    · obtain ⟨item, q, at_, at_q, keep_q⟩ := present k (Or.inr output)
      obtain ⟨item', at', own, kind⟩ := output
      rw [at_] at at'
      cases at'
      rwa [onlyOutput q ⟨item, at_q, own, kind⟩] at keep_q
  exact call_before_output some_ call output both.1 both.2

theorem deduped_self_iff : Deduped input input ↔ Single input := by
  have inside : ∀ {id i}, CallAt input id i ∨ OutputAt input id i → i < input.length := by
    rintro id i (⟨item, at_, -⟩ | ⟨item, at_, -⟩)
    · exact (List.getElem?_eq_some_iff.mp at_).1
    · exact (List.getElem?_eq_some_iff.mp at_).1
  constructor
  · rintro ⟨keep, same, right⟩ id some_
    have all : ∀ i, CallAt input id i ∨ OutputAt input id i → keep i = true :=
      fun i here => all_of_keepAt same.symm (inside here)
    constructor
    · intro i j call call'
      exact right.oneCall id some_ i j call call' (all i (Or.inl call)) (all j (Or.inl call'))
    · intro i j output output'
      exact right.oneOutput id some_ i j output output' (all i (Or.inr output))
        (all j (Or.inr output'))
  · intro single
    refine ⟨fun _ => true, (keepAt_all fun _ _ => rfl).symm, ?_⟩
    exact {
      others := fun _ _ _ _ => rfl
      oneCall := fun id some_ i j call call' _ _ => (single id some_).1 i j call call'
      oneOutput := fun id some_ i j output output' _ _ => (single id some_).2 i j output output'
      pair := fun _ _ _ _ _ _ _ _ _ => ⟨rfl, rfl⟩
      unanswered := fun _ _ _ _ _ _ => rfl
      single := fun _ _ _ _ _ _ => rfl }

/-- Replayed calls are dropped as they should be exactly where the key is found and no id has its
only call after its only output, or where the key is not found and there is nothing to drop. -/
theorem dedupes_iff (body : String) :
    Dedupes body ↔
      (contains body "\"call_id\"" = true → InOrder (inputItems body)) ∧
        (contains body "\"call_id\"" = false → Single (inputItems body)) := by
  have untouched : contains body "\"call_id\"" = false →
      (dedupeOpenAIResponsesCallIDs body).body = body := by
    intro absent
    rw [dedupeOpenAIResponsesCallIDs, if_pos absent]
  constructor
  · intro dedupes
    have items := dedupes.items
    constructor
    · intro present
      rw [dedupe_items body present] at items
      exact inOrder_of_deduped items
    · intro absent
      rw [untouched absent] at items
      exact deduped_self_iff.mp items
  · rintro ⟨found, missed⟩
    refine ⟨?_, fun key other => dedupe_fields body key other, dedupe_again body⟩
    cases literal : contains body "\"call_id\"" with
    | true =>
      rw [dedupe_items body literal]
      exact ⟨_, rfl, right_of_inOrder (found literal)⟩
    | false =>
      rw [untouched literal]
      exact deduped_self_iff.mpr (missed literal)

/-- An output with its call after it, each once. -/
def answeredFirst : String :=
  "\x7b\"input\":[\x7b\"type\":\"function_call_output\",\"call_id\":\"c\"\x7d," ++
    "\x7b\"type\":\"function_call\",\"call_id\":\"c\"\x7d]\x7d"

/-- The only call of an id is dropped when its output comes first. -/
theorem answeredFirst_not_dedupes : ¬Dedupes answeredFirst := by
  intro dedupes
  have literal : contains answeredFirst "\"call_id\"" = true := by decide +kernel
  have items := dedupes.items
  rw [dedupe_items answeredFirst literal] at items
  have length : (inputItems answeredFirst).length = 2 := by decide +kernel
  have inside : ∀ {i}, CallAt (inputItems answeredFirst) "c" i ∨
      OutputAt (inputItems answeredFirst) "c" i → i < 2 := by
    rintro i (⟨item, at_, -⟩ | ⟨item, at_, -⟩)
    · exact length ▸ (List.getElem?_eq_some_iff.mp at_).1
    · exact length ▸ (List.getElem?_eq_some_iff.mp at_).1
  have call : CallAt (inputItems answeredFirst) "c" 1 := by decide +kernel
  have output : OutputAt (inputItems answeredFirst) "c" 0 := by decide +kernel
  have before := inOrder_of_deduped items "c" (by decide) 1 0 call output
    (fun j here => by
      have bound := inside (Or.inl here)
      have other : ¬CallAt (inputItems answeredFirst) "c" 0 := by decide +kernel
      rcases Nat.lt_succ_iff_lt_or_eq.mp bound with less | same
      · rw [Nat.lt_one_iff.mp less] at here
        exact absurd here other
      · exact same)
    (fun j here => by
      have bound := inside (Or.inr here)
      have other : ¬OutputAt (inputItems answeredFirst) "c" 1 := by decide +kernel
      rcases Nat.lt_succ_iff_lt_or_eq.mp bound with less | same
      · exact Nat.lt_one_iff.mp less
      · rw [same] at here
        exact absurd here other)
  exact absurd before (by decide)

end Sub2api.ResponsesInput
