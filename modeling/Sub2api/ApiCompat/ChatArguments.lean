import Sub2api.ApiCompat.ChatBlocks
import Sub2api.ApiCompat.ChatChunking

/-!
# The arguments of the calls of a chat stream that is converted directly

`Tracked` says where the converter has what came of each call: nowhere, in the buffers while the
name is missing, or in the call's block. The stream is well-formed, and no arguments are lost,
exactly when each call's arguments come while its block is open.
-/

namespace Sub2api.ApiCompat

open Go Transducer ChatToAnthropic
open ToAnthropic (blockStart blockDelta blockStop messageEnd)
open ChatToResponses (ChatInput fragments)

/-! ### What came of a call -/

/-- The first name that is not empty. -/
def calledName (parts : List ChatToolCall) : String :=
  ((parts.map (·.function.name)).find? fun name => name ≠ "").getD ""

def receivedArguments (parts : List ChatToolCall) : String :=
  String.join (parts.map (·.function.arguments))

structure ToolSoFar where
  name : String := ""
  arguments : String := ""

namespace ToolSoFar

/-- The name counts if it is the first. -/
def called (name : String) (call : ToolSoFar) : ToolSoFar :=
  { call with name := if call.name = "" then name else call.name }

def argued (arguments : String) (call : ToolSoFar) : ToolSoFar :=
  { call with arguments := call.arguments ++ arguments }

end ToolSoFar

/-- The calls of which something came, by their indices. -/
abbrev Calls := ℤ → Option ToolSoFar

/-- What came of the calls in some fragments. -/
def callsOf (parts : List ChatToolCall) : Calls := fun index =>
  if fragmentsOf parts index = [] then none
  else some { name := calledName (fragmentsOf parts index)
              arguments := receivedArguments (fragmentsOf parts index) }

namespace Calls

def called (index : ℤ) (name : String) (calls : Calls) : Calls :=
  Function.update calls index (some (((calls index).getD {}).called name))

def argued (index : ℤ) (arguments : String) (calls : Calls) : Calls :=
  Function.update calls index (some (((calls index).getD {}).argued arguments))

end Calls

variable {parts : List ChatToolCall}

theorem calledName_concat {part : ChatToolCall} :
    calledName (parts ++ [part]) =
      if calledName parts = "" then part.function.name else calledName parts := by
  unfold calledName
  rw [List.map_append, List.map_singleton, List.find?_append]
  cases found : (parts.map (·.function.name)).find? fun name => name ≠ "" with
  | none =>
    rw [Option.none_or, Option.getD_none, if_pos rfl]
    by_cases empty : part.function.name = ""
    · simp [empty]
    · simp [empty]
  | some name =>
    have named : name ≠ "" := by simpa using List.find?_some found
    rw [Option.some_or, Option.getD_some, if_neg named]

theorem receivedArguments_concat {part : ChatToolCall} :
    receivedArguments (parts ++ [part]) = receivedArguments parts ++ part.function.arguments := by
  unfold receivedArguments
  rw [List.map_append, String.join_append]
  simp

theorem callsOf_getD {index : ℤ} :
    (callsOf parts index).getD {} =
      { name := calledName (fragmentsOf parts index)
        arguments := receivedArguments (fragmentsOf parts index) } := by
  unfold callsOf
  split
  · rename_i nothing
    rw [nothing]
    rfl
  · rfl

/-- A fragment names its call, then adds its arguments. -/
theorem callsOf_concat {call : ChatToolCall} :
    callsOf (parts ++ [call]) =
      ((callsOf parts).called (callIndex call) call.function.name).argued (callIndex call)
        call.function.arguments := by
  funext index
  unfold Calls.argued Calls.called
  by_cases same : index = callIndex call
  · have fragments : fragmentsOf (parts ++ [call]) (callIndex call) =
        fragmentsOf parts (callIndex call) ++ [call] := by
      rw [fragmentsOf_concat, if_pos rfl]
    rw [same, Function.update_self, Function.update_self, Option.getD_some, callsOf_getD]
    unfold callsOf
    rw [fragments, if_neg (by simp), calledName_concat, receivedArguments_concat]
    rfl
  · have fragments : fragmentsOf (parts ++ [call]) index = fragmentsOf parts index := by
      rw [fragmentsOf_concat, if_neg (Ne.symm same)]
    rw [Function.update_of_ne same, Function.update_of_ne same]
    unfold callsOf
    rw [fragments]

/-! ### Where a call is -/

variable {s s' : ChatCompletionsToAnthropicStreamState} {blocks : List Builder}
  {current : Option Builder} {b : Builder} {p : Phase × Assembly} {calls : Calls} {idx : ℤ}
  {call : ToolSoFar}

/-- The block of a call, but for the arguments. -/
structure BlockFor (s : ChatCompletionsToAnthropicStreamState) (idx : ℤ) (call : ToolSoFar)
    (b : Builder) : Prop where
  index : b.index = s.toolBlockIndex idx
  type : b.block.type = .toolUse
  name : b.block.name = call.name

/-- What the arguments of a finished block are. -/
def orEmptyObject (arguments : String) : String :=
  if arguments = "" then "\x7b\x7d" else arguments

/-- The block of a call has its arguments. -/
inductive Shown (s : ChatCompletionsToAnthropicStreamState) (blocks : List Builder)
    (current : Option Builder) (idx : ℤ) (call : ToolSoFar) : Prop
  | finished (b : Builder) (member : b ∈ blocks) (block : BlockFor s idx call b)
      (arguments : b.json = orEmptyObject call.arguments)
  | opened (b : Builder) (last : current = some b) (block : BlockFor s idx call b)
      (arguments : b.json = call.arguments)

/-- Where the converter has what came of the call of an index. -/
inductive Has (s : ChatCompletionsToAnthropicStreamState) (blocks : List Builder)
    (current : Option Builder) (idx : ℤ) : Option ToolSoFar → Prop
  | unseen (fresh : s.toolAnnounced idx = none) (arguments : s.pendingToolArgs idx = "") :
      Has s blocks current idx none
  | waiting (call : ToolSoFar) (postponed : s.toolAnnounced idx = some false)
      (unnamed : call.name = "") (arguments : s.pendingToolArgs idx = call.arguments) :
      Has s blocks current idx (some call)
  | told (call : ToolSoFar) (announced : s.toolAnnounced idx = some true)
      (arguments : s.pendingToolArgs idx = "") (shown : Shown s blocks current idx call) :
      Has s blocks current idx (some call)

/-- The converter has what came of all calls, the blocks of the announced ones apart. -/
structure Tracked (s : ChatCompletionsToAnthropicStreamState) (blocks : List Builder)
    (current : Option Builder) (calls : Calls) : Prop where
  has : ∀ idx, Has s blocks current idx (calls idx)
  apart : ∀ i j, s.toolAnnounced i = some true → s.toolAnnounced j = some true →
    s.toolBlockIndex i = s.toolBlockIndex j → i = j
  pending : ∀ i, i ∈ s.pendingToolCallID.map Prod.fst ↔ s.toolAnnounced i = some false
  distinct : (s.pendingToolCallID.map Prod.fst).Nodup

/-- Before the end a call is announced with its name only. -/
def Named (s : ChatCompletionsToAnthropicStreamState) (calls : Calls) : Prop :=
  ∀ idx call, s.toolAnnounced idx = some true → calls idx = some call → call.name ≠ ""

theorem Shown.congr (places : s'.toolBlockIndex idx = s.toolBlockIndex idx)
    (shown : Shown s blocks current idx call) : Shown s' blocks current idx call := by
  cases shown with
  | finished b member block arguments =>
    refine .finished b member ⟨?_, block.type, block.name⟩ arguments
    rw [places]
    exact block.index
  | opened b last block arguments =>
    refine .opened b last ⟨?_, block.type, block.name⟩ arguments
    rw [places]
    exact block.index

theorem closeBuilder_json (type : b.block.type = .toolUse) :
    (closeBuilder b).json = orEmptyObject b.json := by
  unfold closeBuilder orEmptyObject
  by_cases empty : b.json = ""
  · rw [if_pos ⟨type, empty⟩, if_pos empty]
  · rw [if_neg (fun both => empty both.2), if_neg empty]

theorem closeBuilder_block : (closeBuilder b).block = b.block := by
  unfold closeBuilder
  split <;> rfl

theorem Shown.close (shown : Shown s blocks current idx call) :
    Shown s (closedBlocks blocks current) none idx call := by
  unfold closedBlocks
  cases shown with
  | finished b member block arguments =>
    exact .finished b (List.mem_append_left _ member) block arguments
  | opened b last block arguments =>
    rw [last]
    refine .finished (closeBuilder b) (by simp) ⟨?_, ?_, ?_⟩ ?_
    · rw [closeBuilder_index]
      exact block.index
    · rw [closeBuilder_block]
      exact block.type
    · rw [closeBuilder_block]
      exact block.name
    · rw [closeBuilder_json block.type, arguments]

/-- A block that is no call's has no call's arguments. -/
theorem Shown.unopened (other : ∀ b, current = some b → b.block.type ≠ .toolUse)
    (shown : Shown s blocks current idx call) : Shown s blocks none idx call := by
  cases shown with
  | finished b member block arguments => exact .finished b member block arguments
  | opened b last block _ => exact absurd block.type (other b last)

theorem Shown.reopened (shown : Shown s blocks none idx call) :
    Shown s blocks current idx call := by
  cases shown with
  | finished b member block arguments => exact .finished b member block arguments
  | opened b last _ _ => cases last

theorem Has.move {blocks' : List Builder} {current' : Option Builder} {known : Option ToolSoFar}
    (now : Has s blocks current idx known) (places : s'.toolBlockIndex idx = s.toolBlockIndex idx)
    (announced : s'.toolAnnounced idx = s.toolAnnounced idx)
    (arguments : s'.pendingToolArgs idx = s.pendingToolArgs idx)
    (shows : ∀ call, Shown s blocks current idx call → Shown s blocks' current' idx call) :
    Has s' blocks' current' idx known := by
  cases now with
  | unseen fresh args => exact .unseen (announced.trans fresh) (arguments.trans args)
  | waiting call postponed unnamed args =>
    exact .waiting call (announced.trans postponed) unnamed (arguments.trans args)
  | told call told args shown =>
    exact .told call (announced.trans told) (arguments.trans args) ((shows call shown).congr places)

/-- The blocks change, but the converter's maps do not. -/
theorem Tracked.move {blocks' : List Builder} {current' : Option Builder}
    (now : Tracked s blocks current calls) (places : s'.toolBlockIndex = s.toolBlockIndex)
    (announced : s'.toolAnnounced = s.toolAnnounced)
    (callIDs : s'.pendingToolCallID = s.pendingToolCallID)
    (arguments : s'.pendingToolArgs = s.pendingToolArgs)
    (shows : ∀ idx call, Shown s blocks current idx call → Shown s blocks' current' idx call) :
    Tracked s' blocks' current' calls := by
  obtain ⟨has, apart, pending, distinct⟩ := now
  constructor
  · intro idx
    exact (has idx).move (congrFun places idx) (congrFun announced idx) (congrFun arguments idx) (shows idx)
  · rw [announced, places]
    exact apart
  · rw [announced, callIDs]
    exact pending
  · rw [callIDs]
    exact distinct

theorem Tracked.tools (now : Tracked s blocks current calls) (same : SameTools s s') :
    Tracked s' blocks current calls :=
  now.move same.blockIndex same.announced same.callIDs same.args fun _ _ shown => shown

theorem Tracked.close (now : Tracked s blocks current calls) (same : SameTools s s') :
    Tracked s' (closedBlocks blocks current) none calls :=
  now.move same.blockIndex same.announced same.callIDs same.args fun _ _ => Shown.close

theorem Tracked.unopened (now : Tracked s blocks current calls)
    (other : ∀ b, current = some b → b.block.type ≠ .toolUse) : Tracked s blocks none calls :=
  now.move rfl rfl rfl rfl fun _ _ => Shown.unopened other

theorem Tracked.reopened (now : Tracked s blocks none calls) :
    Tracked s blocks current calls :=
  now.move rfl rfl rfl rfl fun _ _ => Shown.reopened

/-! ### Announcing and adding -/

theorem Has.pendingArgs {known : Option ToolSoFar} (now : Has s blocks current idx known)
    (unannounced : s.toolAnnounced idx ≠ some true) :
    s.pendingToolArgs idx = (known.getD {}).arguments := by
  cases now with
  | unseen _ args => exact args
  | waiting call _ _ args => exact args
  | told call announced _ _ => exact absurd announced unannounced

/-- The block of an announced call is not past the last one. -/
theorem Tracked.place (now : Tracked s blocks none calls) (announced : s.toolAnnounced idx = some true)
    {next : ℤ} (below : ∀ b ∈ blocks, b.index < next) : s.toolBlockIndex idx < next := by
  have here := now.has idx
  generalize calls idx = known at here
  cases here with
  | unseen fresh _ =>
    rw [fresh] at announced
    cases announced
  | waiting call postponed _ _ =>
    rw [postponed] at announced
    cases announced
  | told call _ _ shown =>
    cases shown with
    | finished b member block _ =>
      rw [← block.index]
      exact below b member
    | opened b last _ _ => cases last

theorem Tracked.announce {callID name : String} (now : Tracked s blocks none calls)
    (below : ∀ b ∈ blocks, b.index < s.contentBlockIndex)
    (unannounced : s.toolAnnounced idx ≠ some true) :
    Tracked (announceCCAnthropicToolBlock idx callID name s).1 blocks
      (some { index := s.contentBlockIndex, block := callBlock callID name
              json := s.pendingToolArgs idx })
      (Function.update calls idx
        (some { name := name, arguments := ((calls idx).getD {}).arguments })) := by
  have known := (now.has idx).pendingArgs unannounced
  have state := @announceCCAnthropicToolBlock_state s idx callID name
  generalize (announceCCAnthropicToolBlock idx callID name s).1 = s' at state ⊢
  have places : s'.toolBlockIndex = Function.update s.toolBlockIndex idx s.contentBlockIndex := by
    rw [state]
    rfl
  have announced : s'.toolAnnounced = Function.update s.toolAnnounced idx (some true) := by
    rw [state]
    rfl
  have callIDs : s'.pendingToolCallID = s.pendingToolCallID.filter fun entry => entry.1 ≠ idx := by
    rw [state]
    rfl
  have arguments : s'.pendingToolArgs = Function.update s.pendingToolArgs idx "" := by
    rw [state]
  clear state
  constructor
  · intro i
    by_cases same : i = idx
    · rw [same, Function.update_self]
      refine .told _ ?_ ?_ (.opened _ rfl ⟨?_, rfl, rfl⟩ known)
      · rw [announced, Function.update_self]
      · rw [arguments, Function.update_self]
      · rw [places, Function.update_self]
    · rw [Function.update_of_ne same]
      refine (now.has i).move ?_ ?_ ?_ fun _ => Shown.reopened
      · rw [places, Function.update_of_ne same]
      · rw [announced, Function.update_of_ne same]
      · rw [arguments, Function.update_of_ne same]
  · intro i j announcedI announcedJ place
    rw [announced] at announcedI announcedJ
    rw [places] at place
    by_cases first : i = idx
    · by_cases second : j = idx
      · rw [first, second]
      · rw [Function.update_of_ne second] at announcedJ
        rw [first, Function.update_self, Function.update_of_ne second] at place
        have before := now.place announcedJ below
        omega
    · rw [Function.update_of_ne first] at announcedI place
      by_cases second : j = idx
      · rw [second, Function.update_self] at place
        have before := now.place announcedI below
        omega
      · rw [Function.update_of_ne second] at announcedJ place
        exact now.apart i j announcedI announcedJ place
  · intro i
    have others : i ∈ (s.pendingToolCallID.filter fun entry => entry.1 ≠ idx).map Prod.fst ↔
        i ∈ s.pendingToolCallID.map Prod.fst ∧ i ≠ idx := by
      simp only [List.mem_map, List.mem_filter, decide_eq_true_eq]
      constructor
      · rintro ⟨entry, ⟨member, other⟩, rfl⟩
        exact ⟨⟨entry, member, rfl⟩, other⟩
      · rintro ⟨⟨entry, member, rfl⟩, other⟩
        exact ⟨entry, ⟨member, other⟩, rfl⟩
    rw [callIDs, announced, others]
    by_cases same : i = idx
    · rw [same, Function.update_self]
      simp
    · rw [Function.update_of_ne same, ← now.pending i]
      exact and_iff_left same
  · rw [callIDs]
    exact now.distinct.sublist (List.filter_sublist.map _)

/-- The first fragment of a call that has no name yet. -/
theorem Tracked.postpone {callID : String} (now : Tracked s blocks current calls)
    (fresh : s.toolAnnounced idx = none)
    (places : s'.toolBlockIndex = s.toolBlockIndex)
    (announced : s'.toolAnnounced = Function.update s.toolAnnounced idx (some false))
    (callIDs : s'.pendingToolCallID = s.pendingToolCallID ++ [(idx, callID)])
    (arguments : s'.pendingToolArgs = s.pendingToolArgs) :
    Tracked s' blocks current (Function.update calls idx (some {})) := by
  have absent : idx ∉ s.pendingToolCallID.map Prod.fst := by
    rw [now.pending, fresh]
    simp
  have unannounced : s.toolAnnounced idx ≠ some true := by
    rw [fresh]
    simp
  have others : ∀ i, s'.toolAnnounced i = some true → s.toolAnnounced i = some true := by
    intro i announcedI
    rw [announced] at announcedI
    by_cases same : i = idx
    · rw [same, Function.update_self] at announcedI
      cases announcedI
    · rwa [Function.update_of_ne same] at announcedI
  constructor
  · intro i
    by_cases same : i = idx
    · rw [same, Function.update_self]
      refine .waiting _ ?_ rfl ?_
      · rw [announced, Function.update_self]
      · have known := (now.has idx).pendingArgs unannounced
        have here := now.has idx
        generalize calls idx = told at here
        rw [arguments]
        cases here with
        | unseen _ args => exact args
        | waiting call postponed _ _ =>
          rw [fresh] at postponed
          cases postponed
        | told call announced' _ _ => exact absurd announced' unannounced
    · rw [Function.update_of_ne same]
      refine (now.has i).move (congrFun places i) ?_ (congrFun arguments i) fun _ shown => shown
      rw [announced, Function.update_of_ne same]
  · intro i j announcedI announcedJ place
    rw [places] at place
    exact now.apart i j (others i announcedI) (others j announcedJ) place
  · intro i
    rw [callIDs, announced, List.map_append, List.mem_append, now.pending i]
    by_cases same : i = idx
    · simp [same, Function.update_self]
    · simp [same]
  · rw [callIDs, List.map_append]
    refine List.nodup_append'.mpr ⟨now.distinct, List.nodup_singleton _, ?_⟩
    rw [List.disjoint_comm]
    exact List.singleton_disjoint.mpr absent

/-- Arguments for the open block. -/
theorem Tracked.argued {arguments : String} (now : Tracked s blocks (some b) calls)
    (same : SameTools s s') (announced : s.toolAnnounced idx = some true)
    (here : s.toolBlockIndex idx = b.index) (below : ∀ b' ∈ blocks, b'.index < b.index) :
    Tracked s' blocks (some { b with json := b.json ++ arguments })
      (calls.argued idx arguments) := by
  have moved : Tracked s blocks (some { b with json := b.json ++ arguments })
      (calls.argued idx arguments) := by
    obtain ⟨has, apart, pending, distinct⟩ := now
    refine ⟨?_, apart, pending, distinct⟩
    intro i
    have there := has i
    unfold Calls.argued
    by_cases this : i = idx
    · rw [this] at there
      rw [this, Function.update_self]
      generalize calls idx = known at there
      cases there with
      | unseen fresh _ =>
        rw [fresh] at announced
        cases announced
      | waiting call postponed _ _ =>
        rw [postponed] at announced
        cases announced
      | told call _ args shown =>
        refine .told _ announced args ?_
        cases shown with
        | finished b' member block _ =>
          have before := below b' member
          rw [block.index, here] at before
          exact absurd before (lt_irrefl _)
        | opened b' last block written =>
          cases last
          refine .opened _ rfl ⟨block.index, block.type, block.name⟩ ?_
          show b.json ++ arguments = call.arguments ++ arguments
          rw [written]
    · rw [Function.update_of_ne this]
      generalize calls i = known at there
      cases there with
      | unseen fresh args => exact .unseen fresh args
      | waiting call postponed unnamed args => exact .waiting call postponed unnamed args
      | told call told args shown =>
        refine .told call told args ?_
        cases shown with
        | finished b' member block written => exact .finished b' member block written
        | opened b' last block _ =>
          cases last
          have place : s.toolBlockIndex i = s.toolBlockIndex idx := by
            rw [here, ← block.index]
          exact absurd (apart i idx told announced place) this
  exact moved.tools same

/-- Arguments for a call that waits for its name. -/
theorem Tracked.buffered {arguments : String} (now : Tracked s blocks current calls)
    (postponed : s.toolAnnounced idx = some false) :
    Tracked { s with
        pendingToolArgs := Function.update s.pendingToolArgs idx
          (s.pendingToolArgs idx ++ arguments) } blocks current (calls.argued idx arguments) := by
  obtain ⟨has, apart, pending, distinct⟩ := now
  refine ⟨?_, apart, pending, distinct⟩
  intro i
  have there := has i
  unfold Calls.argued
  by_cases this : i = idx
  · rw [this] at there
    rw [this, Function.update_self]
    generalize calls idx = known at there
    cases there with
    | unseen fresh _ =>
      rw [fresh] at postponed
      cases postponed
    | waiting call _ unnamed args =>
      refine .waiting _ postponed unnamed ?_
      show Function.update s.pendingToolArgs idx _ idx = call.arguments ++ arguments
      rw [Function.update_self, args]
    | told call announced _ _ =>
      rw [announced] at postponed
      cases postponed
  · rw [Function.update_of_ne this]
    exact there.move rfl rfl (Function.update_of_ne this ..) fun _ shown => shown.congr rfl

end Sub2api.ApiCompat
