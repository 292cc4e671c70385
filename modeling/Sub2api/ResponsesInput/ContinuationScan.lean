import Mathlib.Tactic.Tauto
import Sub2api.ResponsesInput.ToolContinuation

/-!
# What the tool output checks find

Each check is described by the entries that it reads: what has been seen after one more item, and
what a whole pass has seen when it ends or stops.
-/

namespace Sub2api.ResponsesInput

open Sub2api.Go Sub2api.Go.Json

/-! ### Inputs, entry by entry -/

variable {seen : List Entry} {e : Entry}

theorem hasOutput_concat :
    HasOutput (seen ++ [e]) ↔ HasOutput seen ∨ ∃ callID, e = .output callID := by
  unfold HasOutput
  simp only [List.mem_append, List.mem_singleton]
  constructor
  · rintro ⟨callID, before | here⟩
    · exact Or.inl ⟨callID, before⟩
    · exact Or.inr ⟨callID, here.symm⟩
  · rintro (⟨callID, before⟩ | ⟨callID, rfl⟩)
    · exact ⟨callID, Or.inl before⟩
    · exact ⟨callID, Or.inr rfl⟩

theorem hasCall_concat :
    HasCall (seen ++ [e]) ↔ HasCall seen ∨ ∃ callID ≠ "", e = .context callID := by
  unfold HasCall
  simp only [List.mem_append, List.mem_singleton]
  constructor
  · rintro ⟨callID, named, before | here⟩
    · exact Or.inl ⟨callID, named, before⟩
    · exact Or.inr ⟨callID, named, here.symm⟩
  · rintro (⟨callID, named, before⟩ | ⟨callID, named, rfl⟩)
    · exact ⟨callID, named, Or.inl before⟩
    · exact ⟨callID, named, Or.inr rfl⟩

theorem hasBlankOutput_concat :
    HasBlankOutput (seen ++ [e]) ↔ HasBlankOutput seen ∨ e = .output "" := by
  unfold HasBlankOutput
  rw [List.mem_append, List.mem_singleton]
  tauto

theorem HasOutput.append {before : List Entry} (found : HasOutput before) (after : List Entry) :
    HasOutput (before ++ after) := by
  obtain ⟨callID, mem⟩ := found
  exact ⟨callID, List.mem_append_left _ mem⟩

theorem HasCall.append {before : List Entry} (found : HasCall before) (after : List Entry) :
    HasCall (before ++ after) := by
  obtain ⟨callID, named, mem⟩ := found
  exact ⟨callID, named, List.mem_append_left _ mem⟩

theorem HasNamedOutput.append {before : List Entry} (found : HasNamedOutput before)
    (after : List Entry) : HasNamedOutput (before ++ after) := by
  obtain ⟨callID, named, mem⟩ := found
  exact ⟨callID, named, List.mem_append_left _ mem⟩

/-- An output names its call or does not. -/
theorem HasOutput.named {input : List Entry} (found : HasOutput input)
    (all : ¬HasBlankOutput input) : HasNamedOutput input := by
  obtain ⟨callID, mem⟩ := found
  refine ⟨callID, ?_, mem⟩
  rintro rfl
  exact all mem

/-! ### The checks on entries -/

def Scan.visit (scan : Scan) : Entry → Scan × Bool
  | .output callID =>
    if callID = "" then
      ({ scan with
          result := { scan.result with
            hasFunctionCallOutput := true, hasFunctionCallOutputMissingCallID := true } }, true)
    else
      Scan.visited
        { scan with
          result := { scan.result with hasFunctionCallOutput := true }
          callIDs := callID :: scan.callIDs }
  | .context callID =>
    if callID ≠ "" then
      Scan.visited { scan with result := { scan.result with hasToolCallContext := true } }
    else scan.visited
  | .reference id =>
    if id = "" then (scan, true)
    else Scan.visited { scan with referenceIDs := id :: scan.referenceIDs }
  | .other => scan.visited
  | .skipped => (scan, true)

def Scan.visitAll : Scan → List Entry → Scan
  | scan, [] => scan
  | scan, e :: rest =>
    match scan.visit e with
    | (scan, true) => Scan.visitAll scan rest
    | (scan, false) => scan

theorem visitItem_eq (format : FloatFormat) (scan : Scan) (item : Document) :
    visitItem format scan item = scan.visit (shownEntry format item) := by
  unfold visitItem shownEntry
  by_cases object : item.isObject = true
  · unfold entryOf
    by_cases output :
        isCodexToolCallOutputItemType (Document.str format (item.get "type")) = true
    · simp [object, output, Scan.visit]
    by_cases context :
        isCodexToolCallContextItemType (Document.str format (item.get "type")) = true
    · simp [object, output, context, Scan.visit]
    by_cases reference : Document.str format (item.get "type") = "item_reference"
    · rw [reference] at output context
      simp [object, output, context, reference, Scan.visit]
    · simp [object, output, context, reference, Scan.visit]
  · simp [object, Scan.visit]

theorem visitItems_eq (format : FloatFormat) (items : List Document) :
    ∀ scan : Scan, visitItems format scan items = scan.visitAll (items.map (shownEntry format)) := by
  induction items with
  | nil =>
    intro scan
    rfl
  | cons item rest ih =>
    intro scan
    rw [visitItems, List.map_cons, Scan.visitAll, visitItem_eq]
    cases visit : scan.visit (shownEntry format item) with
    | mk scan' goesOn =>
      cases goesOn with
      | true => exact ih scan'
      | false => rfl

/-- The scan has seen these entries. -/
structure Scan.Describes (scan : Scan) (seen : List Entry) : Prop where
  output : scan.result.hasFunctionCallOutput = true ↔ HasOutput seen
  call : scan.result.hasToolCallContext = true ↔ HasCall seen
  blank : scan.result.hasFunctionCallOutputMissingCallID = true ↔ HasBlankOutput seen
  open_ : scan.result.hasItemReferenceForAllCallIDs = false
  callIDs : ∀ callID, callID ∈ scan.callIDs ↔ callID ≠ "" ∧ .output callID ∈ seen
  references : ∀ id, id ∈ scan.referenceIDs ↔ id ≠ "" ∧ .reference id ∈ seen

theorem Scan.describes_nil : Scan.Describes {} [] := by
  constructor <;> simp [HasOutput, HasCall, HasBlankOutput]

variable {scan : Scan}

theorem Scan.Describes.visit (describes : scan.Describes seen) (e : Entry) :
    (scan.visit e).1.Describes (seen ++ [e]) := by
  obtain ⟨output, call, blank, open_, callIDs, references⟩ := describes
  cases e with
  | output callID =>
    by_cases named : callID = ""
    · constructor <;>
        simp_all [Scan.visit, hasOutput_concat, hasCall_concat, hasBlankOutput_concat]
    · constructor <;>
        simp_all [Scan.visit, Scan.visited, hasOutput_concat, hasCall_concat,
          hasBlankOutput_concat]
      intro id
      by_cases same : id = callID
      · simp [same, named]
      · simp [same]
  | context callID =>
    by_cases named : callID = ""
    · constructor <;>
        simp_all [Scan.visit, Scan.visited, hasOutput_concat, hasCall_concat,
          hasBlankOutput_concat]
    · constructor <;>
        simp_all [Scan.visit, Scan.visited, hasOutput_concat, hasCall_concat,
          hasBlankOutput_concat]
  | reference id =>
    by_cases named : id = ""
    · constructor <;>
        simp_all [Scan.visit, hasOutput_concat, hasCall_concat, hasBlankOutput_concat]
    · constructor <;>
        simp_all [Scan.visit, Scan.visited, hasOutput_concat, hasCall_concat,
          hasBlankOutput_concat]
      intro other
      by_cases same : other = id
      · simp [same, named]
      · simp [same]
  | other =>
    constructor <;>
      simp_all [Scan.visit, Scan.visited, hasOutput_concat, hasCall_concat,
        hasBlankOutput_concat]
  | skipped =>
    constructor <;>
      simp_all [Scan.visit, hasOutput_concat, hasCall_concat, hasBlankOutput_concat]

/-- The scan stops only when it has seen an output and a call. -/
theorem Scan.visit_stops (stops : (scan.visit e).2 = false) :
    (scan.visit e).1.result.hasFunctionCallOutput = true ∧
      (scan.visit e).1.result.hasToolCallContext = true := by
  cases e with
  | output callID =>
    rw [Scan.visit] at stops ⊢
    split at stops
    · cases stops
    · simp_all [Scan.visited]
  | context callID =>
    rw [Scan.visit] at stops ⊢
    split at stops <;> simp_all [Scan.visited]
  | reference id =>
    rw [Scan.visit] at stops ⊢
    split at stops
    · cases stops
    · simp_all [Scan.visited]
  | other => simp_all [Scan.visit, Scan.visited]
  | skipped => cases stops

/-- It goes on with both in view only after an output that does not name its call. -/
theorem Scan.visit_goesOn (goesOn : (scan.visit e).2 = true) (named : e ≠ .output "")
    (both : (scan.visit e).1.result.hasFunctionCallOutput = true ∧
      (scan.visit e).1.result.hasToolCallContext = true) :
    scan.result.hasFunctionCallOutput = true ∧ scan.result.hasToolCallContext = true := by
  cases e with
  | output callID =>
    have some_ : callID ≠ "" := by
      rintro rfl
      exact named rfl
    simp_all [Scan.visit, Scan.visited]
  | context callID =>
    rw [Scan.visit] at goesOn both
    split at goesOn <;> simp_all [Scan.visited]
  | reference id =>
    rw [Scan.visit] at goesOn both
    split at goesOn <;> simp_all [Scan.visited]
  | other => exact both
  | skipped => exact both

theorem Scan.visitAll_describes (rest : List Entry) :
    ∀ (scan : Scan) (seen : List Entry), scan.Describes seen →
      ∃ reached left, seen ++ rest = reached ++ left ∧ (scan.visitAll rest).Describes reached ∧
        (left = [] ∨ HasOutput reached ∧ HasCall reached) := by
  induction rest with
  | nil =>
    intro scan seen describes
    exact ⟨seen, [], rfl, describes, Or.inl rfl⟩
  | cons e rest ih =>
    intro scan seen describes
    have next := describes.visit e
    rw [Scan.visitAll]
    cases visit : scan.visit e with
    | mk scan' goesOn =>
      rw [visit] at next
      cases goesOn with
      | true =>
        obtain ⟨reached, left, all, reaches, stopped⟩ := ih scan' _ next
        exact ⟨reached, left, by rw [← all, List.append_assoc]; rfl, reaches, stopped⟩
      | false =>
        obtain ⟨output, call⟩ := Scan.visit_stops (congrArg Prod.snd visit)
        rw [visit] at output call
        exact ⟨seen ++ [e], rest, by simp, next,
          Or.inr ⟨next.output.mp output, next.call.mp call⟩⟩

theorem Scan.visit_missing (missing : scan.result.hasFunctionCallOutputMissingCallID = true) :
    (scan.visit e).1.result.hasFunctionCallOutputMissingCallID = true := by
  cases e with
  | output callID =>
    rw [Scan.visit]
    split
    · rfl
    · exact missing
  | context callID =>
    rw [Scan.visit]
    split <;> exact missing
  | reference id =>
    rw [Scan.visit]
    split <;> exact missing
  | other => exact missing
  | skipped => exact missing

theorem Scan.visitAll_missing (rest : List Entry) :
    ∀ scan : Scan, scan.result.hasFunctionCallOutputMissingCallID = true →
      (scan.visitAll rest).result.hasFunctionCallOutputMissingCallID = true := by
  induction rest with
  | nil =>
    intro scan missing
    exact missing
  | cons e rest ih =>
    intro scan missing
    have next := Scan.visit_missing (e := e) missing
    rw [Scan.visitAll]
    cases visit : scan.visit e with
    | mk scan' goesOn =>
      rw [visit] at next
      cases goesOn with
      | true => exact ih scan' next
      | false => exact next

/-- Whatever output of the rest does not name its call, an output that does and a call stand before
it. -/
def BlankOutputsLateAfter (seen rest : List Entry) : Prop :=
  ∀ before after, rest = before ++ .output "" :: after →
    HasNamedOutput (seen ++ before) ∧ HasCall (seen ++ before)

theorem blankOutputsLateAfter_cons (named : e ≠ .output "") {rest : List Entry} :
    BlankOutputsLateAfter seen (e :: rest) ↔ BlankOutputsLateAfter (seen ++ [e]) rest := by
  constructor
  · intro late before after split
    have := late (e :: before) after (by rw [split]; rfl)
    rwa [List.append_assoc]
  · intro late before after split
    cases before with
    | nil => exact absurd (List.cons.inj split).1 named
    | cons first before =>
      obtain ⟨rfl, tail⟩ := List.cons.inj split
      have := late before after tail
      rwa [List.append_assoc] at this

/-- A scan that is not done misses the ids of exactly the outputs that come too early. -/
theorem Scan.visitAll_missing_iff (rest : List Entry) :
    ∀ (scan : Scan) (seen : List Entry), scan.Describes seen → ¬HasBlankOutput seen →
      ¬(HasOutput seen ∧ HasCall seen) →
      ((scan.visitAll rest).result.hasFunctionCallOutputMissingCallID = false ↔
        BlankOutputsLateAfter seen rest) := by
  induction rest with
  | nil =>
    intro scan seen describes named _
    constructor
    · intro _ before after split
      exact absurd split.symm (by simp)
    · intro _
      rw [Scan.visitAll]
      exact Bool.eq_false_iff.mpr (mt describes.blank.mp named)
  | cons e rest ih =>
    intro scan seen describes named open_
    have next := describes.visit e
    by_cases blank : e = .output ""
    · subst blank
      constructor
      · intro none_
        have missing := Scan.visitAll_missing rest (scan.visit (.output "")).1 rfl
        rw [Scan.visitAll] at none_
        exact Bool.noConfusion (missing.symm.trans none_)
      · intro late
        obtain ⟨output, call⟩ := late [] rest rfl
        rw [List.append_nil] at output call
        obtain ⟨callID, _, mem⟩ := output
        exact absurd ⟨⟨callID, mem⟩, call⟩ open_
    · have named' : ¬HasBlankOutput (seen ++ [e]) := by
        rw [hasBlankOutput_concat]
        tauto
      rw [blankOutputsLateAfter_cons blank, Scan.visitAll]
      cases visit : scan.visit e with
      | mk scan' goesOn =>
        rw [visit] at next
        cases goesOn with
        | true =>
          apply ih scan' _ next named'
          rintro ⟨output, call⟩
          have before := Scan.visit_goesOn (congrArg Prod.snd visit) blank
            (by rw [visit]; exact ⟨next.output.mpr output, next.call.mpr call⟩)
          exact open_ ⟨describes.output.mp before.1, describes.call.mp before.2⟩
        | false =>
          obtain ⟨output, call⟩ := Scan.visit_stops (congrArg Prod.snd visit)
          rw [visit] at output call
          constructor
          · intro _ before after _
            exact ⟨((next.output.mp output).named named').append before,
              (next.call.mp call).append before⟩
          · intro _
            exact Bool.eq_false_iff.mpr (mt next.blank.mp named')

/-! ### What the checks find -/

/-- What the four results of a check stand for. -/
structure Validates (result : FunctionCallOutputValidation) (output call missing referenced : Prop) :
    Prop where
  output : result.hasFunctionCallOutput = true ↔ output
  call : result.hasToolCallContext = true ↔ call
  missing : result.hasFunctionCallOutputMissingCallID = true ↔ missing
  referenced : result.hasItemReferenceForAllCallIDs = true ↔ referenced

theorem Validates.eq_iff {first second : FunctionCallOutputValidation}
    {output call missing referenced output' call' missing' referenced' : Prop}
    (validates : Validates first output call missing referenced)
    (validates' : Validates second output' call' missing' referenced') :
    first = second ↔
      (output ↔ output') ∧ (call ↔ call') ∧ (missing ↔ missing') ∧ (referenced ↔ referenced') := by
  rw [← validates.output, ← validates.call, ← validates.missing, ← validates.referenced,
    ← validates'.output, ← validates'.call, ← validates'.missing, ← validates'.referenced]
  obtain ⟨o, c, m, r⟩ := first
  obtain ⟨o', c', m', r'⟩ := second
  constructor
  · intro same
    cases same
    exact ⟨Iff.rfl, Iff.rfl, Iff.rfl, Iff.rfl⟩
  · rintro ⟨same, same', same'', same'''⟩
    rw [FunctionCallOutputValidation.mk.injEq]
    exact ⟨Bool.eq_iff_iff.mpr same, Bool.eq_iff_iff.mpr same', Bool.eq_iff_iff.mpr same'',
      Bool.eq_iff_iff.mpr same'''⟩

theorem allReferenced_referenced {result : FunctionCallOutputValidation}
    {callIDs referenceIDs : List String} {input : List Entry}
    (open_ : result.hasItemReferenceForAllCallIDs = false)
    (outputs : ∀ callID, callID ∈ callIDs ↔ callID ≠ "" ∧ .output callID ∈ input)
    (references : ∀ id, id ∈ referenceIDs ↔ id ≠ "" ∧ .reference id ∈ input) :
    (allReferenced result callIDs referenceIDs).hasItemReferenceForAllCallIDs = true ↔
      Referenced input := by
  unfold allReferenced
  split
  · rename_i none_
    rw [open_]
    constructor
    · intro absurd_
      cases absurd_
    · rintro ⟨⟨callID, named, mem⟩, each⟩
      rcases none_ with rfl | rfl
      · exact absurd ((outputs callID).mpr ⟨named, mem⟩) (List.not_mem_nil)
      · exact absurd ((references callID).mpr ⟨named, each callID named mem⟩) (List.not_mem_nil)
  · rename_i some_
    rw [not_or] at some_
    simp only [List.all_eq_true, List.contains_iff_mem]
    constructor
    · intro all
      obtain ⟨callID, mem⟩ := List.exists_mem_of_ne_nil _ some_.1
      constructor
      · exact ⟨callID, (outputs callID).mp mem⟩
      · intro id named found
        exact ((references id).mp (all id ((outputs id).mpr ⟨named, found⟩))).2
    · rintro ⟨_, each⟩ callID mem
      obtain ⟨named, found⟩ := (outputs callID).mp mem
      exact (references callID).mpr ⟨named, each callID named found⟩

theorem allReferenced_frame (result : FunctionCallOutputValidation)
    (callIDs referenceIDs : List String) :
    (allReferenced result callIDs referenceIDs).hasFunctionCallOutput =
        result.hasFunctionCallOutput ∧
      (allReferenced result callIDs referenceIDs).hasToolCallContext = result.hasToolCallContext ∧
      (allReferenced result callIDs referenceIDs).hasFunctionCallOutputMissingCallID =
        result.hasFunctionCallOutputMissingCallID := by
  unfold allReferenced
  split <;> exact ⟨rfl, rfl, rfl⟩

theorem Referenced.hasOutput {input : List Entry} (referenced : Referenced input) :
    HasOutput input := by
  obtain ⟨⟨callID, _, mem⟩, _⟩ := referenced
  exact ⟨callID, mem⟩

theorem validates_nil : Validates {} (HasOutput []) (HasCall []) False (¬HasCall [] ∧ Referenced []) := by
  constructor <;> simp [HasOutput, HasCall, Referenced, HasNamedOutput]

theorem blankOutputsLate_nil : BlankOutputsLate [] := by
  intro before after split
  exact absurd split.symm (by simp)

/-- A scan that has reached the end of the input. -/
theorem Scan.Describes.finish {input : List Entry} {missing : Prop}
    (describes : scan.Describes input)
    (blank : scan.result.hasFunctionCallOutputMissingCallID = true ↔ missing) :
    Validates
      (if !scan.result.hasFunctionCallOutput || scan.result.hasToolCallContext then scan.result
        else allReferenced scan.result scan.callIDs scan.referenceIDs)
      (HasOutput input) (HasCall input) missing (¬HasCall input ∧ Referenced input) := by
  split
  · rename_i early
    refine ⟨describes.output, describes.call, blank, ?_⟩
    rw [describes.open_]
    constructor
    · intro absurd_
      cases absurd_
    · rintro ⟨noCall, referenced⟩
      rw [Bool.or_eq_true, Bool.not_eq_true'] at early
      rcases early with noOutput | call
      · rw [describes.output.mpr referenced.hasOutput] at noOutput
        cases noOutput
      · exact absurd (describes.call.mp call) noCall
  · rename_i late
    rw [Bool.or_eq_true, not_or, Bool.not_eq_true, Bool.not_eq_true] at late
    obtain ⟨output, call, missing'⟩ :=
      allReferenced_frame scan.result scan.callIDs scan.referenceIDs
    have noCall := mt describes.call.mpr (Bool.eq_false_iff.mp late.2)
    constructor
    · rw [output]
      exact describes.output
    · rw [call]
      exact describes.call
    · rw [missing']
      exact blank
    · rw [allReferenced_referenced describes.open_ describes.callIDs describes.references]
      exact ⟨fun referenced => ⟨noCall, referenced⟩, And.right⟩

/-- A scan that stopped before the end. -/
theorem Scan.Describes.stopped {reached : List Entry} (left : List Entry) {missing : Prop}
    (describes : scan.Describes reached) (both : HasOutput reached ∧ HasCall reached)
    (blank : scan.result.hasFunctionCallOutputMissingCallID = true ↔ missing) :
    Validates
      (if !scan.result.hasFunctionCallOutput || scan.result.hasToolCallContext then scan.result
        else allReferenced scan.result scan.callIDs scan.referenceIDs)
      (HasOutput (reached ++ left)) (HasCall (reached ++ left)) missing
      (¬HasCall (reached ++ left) ∧ Referenced (reached ++ left)) := by
  have output := describes.output.mpr both.1
  have call := describes.call.mpr both.2
  rw [call, Bool.or_true, if_pos rfl]
  constructor
  · exact ⟨fun _ => both.1.append left, fun _ => output⟩
  · exact ⟨fun _ => both.2.append left, fun _ => call⟩
  · exact blank
  · rw [describes.open_]
    constructor
    · intro absurd_
      cases absurd_
    · rintro ⟨noCall, _⟩
      exact absurd (both.2.append left) noCall

/-- What is found in the text: the ids of the outputs that come too early are missed. -/
theorem validateFunctionCallOutputContextBytes_validates (format : FloatFormat) (body : Document) :
    Validates (validateFunctionCallOutputContextBytes format body)
      (HasOutput (shownInput format body)) (HasCall (shownInput format body))
      (¬BlankOutputsLate (shownInput format body))
      (¬HasCall (shownInput format body) ∧ Referenced (shownInput format body)) := by
  unfold validateFunctionCallOutputContextBytes shownInput
  split
  · rename_i items _ _
    rw [visitItems_eq]
    generalize items.map (shownEntry format) = input
    have missing := Scan.visitAll_missing_iff input {} [] Scan.describes_nil
      (by simp [HasBlankOutput]) (by simp [HasOutput])
    have missing : (Scan.visitAll {} input).result.hasFunctionCallOutputMissingCallID = true ↔
        ¬BlankOutputsLate input := by
      rw [← not_iff_not, not_not, Bool.not_eq_true]
      exact missing
    obtain ⟨reached, left, all, describes, stopped⟩ :=
      Scan.visitAll_describes input {} [] Scan.describes_nil
    rw [List.nil_append] at all
    rcases stopped with rfl | both
    · rw [List.append_nil] at all
      rw [← all] at describes
      exact describes.finish missing
    · have found := describes.stopped left both missing
      rwa [← all] at found
  · obtain ⟨output, call, missing, referenced⟩ := validates_nil
    refine ⟨output, call, ?_, referenced⟩
    rw [missing]
    exact ⟨False.elim, fun late => absurd blankOutputsLate_nil late⟩

/-! ### What is found in the decoded request -/

theorem not_context_of_output {typ : String} (output : isCodexToolCallOutputItemType typ = true) :
    isCodexToolCallContextItemType typ = false := by
  unfold isCodexToolCallOutputItemType toolCallOutputItemTypes at output
  unfold isCodexToolCallContextItemType
  simp only [List.contains_iff_mem, List.mem_cons, List.not_mem_nil, or_false] at output
  rcases output with same | same | same | same <;> (rw [same]; decide)

/-- What the first pass keeps. -/
structure Notes (result : FunctionCallOutputValidation) (seen : List Entry) : Prop where
  output : result.hasFunctionCallOutput = true ↔ HasOutput seen
  call : result.hasToolCallContext = true ↔ HasCall seen
  missing : result.hasFunctionCallOutputMissingCallID = false
  open_ : result.hasItemReferenceForAllCallIDs = false

theorem Notes.noteItem {result : FunctionCallOutputValidation} (notes : Notes result seen)
    (itemMap : JsonMap) :
    Notes (noteItem result itemMap) (seen ++ [stringEntry (.object itemMap)]) := by
  obtain ⟨output, call, missing, open_⟩ := notes
  unfold ResponsesInput.noteItem
  rw [stringEntry, entryOf]
  by_cases isOutput : isCodexToolCallOutputItemType (itemString itemMap "type") = true
  · constructor <;> simp_all [hasOutput_concat, hasCall_concat]
  by_cases isContext : isCodexToolCallContextItemType (itemString itemMap "type") = true
  · by_cases named : trimSpace (itemString itemMap "call_id") = ""
    · constructor <;> simp_all [hasOutput_concat, hasCall_concat]
    · constructor <;> simp_all [hasOutput_concat, hasCall_concat]
  by_cases reference : itemString itemMap "type" = "item_reference"
  · constructor <;> simp_all [hasOutput_concat, hasCall_concat]
  · constructor <;> simp_all [hasOutput_concat, hasCall_concat]

theorem noteItems_notes (input : List JsonValue) :
    ∀ (result : FunctionCallOutputValidation) (seen : List Entry), Notes result seen →
      ∃ reached left, seen ++ input.map stringEntry = reached ++ left ∧
        Notes (noteItems result input) reached ∧
        (left = [] ∨ HasOutput reached ∧ HasCall reached) := by
  induction input with
  | nil =>
    intro result seen notes
    exact ⟨seen, [], rfl, notes, Or.inl rfl⟩
  | cons item rest ih =>
    intro result seen notes
    cases item with
    | object itemMap =>
      have next := notes.noteItem itemMap
      rw [noteItems]
      split
      · rename_i both
        rw [Bool.and_eq_true] at both
        exact ⟨_, rest.map stringEntry, by simp, next,
          Or.inr ⟨next.output.mp both.1, next.call.mp both.2⟩⟩
      · obtain ⟨reached, left, all, reaches, stopped⟩ := ih _ _ next
        exact ⟨reached, left, by rw [← all]; simp, reaches, stopped⟩
    | null | bool _ | number _ | string _ | array _ =>
      have next : Notes result (seen ++ [.skipped]) := by
        obtain ⟨output, call, missing, open_⟩ := notes
        constructor <;> simp_all [hasOutput_concat, hasCall_concat]
      obtain ⟨reached, left, all, reaches, stopped⟩ := ih _ _ next
      exact ⟨reached, left, by rw [← all]; simp [stringEntry], reaches, stopped⟩

/-- What the second pass keeps. -/
structure Collects (start : FunctionCallOutputValidation) (scan : Scan) (seen : List Entry) : Prop
    where
  output : scan.result.hasFunctionCallOutput = start.hasFunctionCallOutput
  call : scan.result.hasToolCallContext = start.hasToolCallContext
  open_ : scan.result.hasItemReferenceForAllCallIDs = start.hasItemReferenceForAllCallIDs
  blank : scan.result.hasFunctionCallOutputMissingCallID = true ↔ HasBlankOutput seen
  callIDs : ∀ callID, callID ∈ scan.callIDs ↔ callID ≠ "" ∧ .output callID ∈ seen
  references : ∀ id, id ∈ scan.referenceIDs ↔ id ≠ "" ∧ .reference id ∈ seen

theorem Collects.collectItem {start : FunctionCallOutputValidation}
    (collects : Collects start scan seen) (item : JsonValue) :
    Collects start (collectItem scan item) (seen ++ [stringEntry item]) := by
  obtain ⟨output, call, open_, blank, callIDs, references⟩ := collects
  cases item with
  | object itemMap =>
    rw [ResponsesInput.collectItem, stringEntry, entryOf]
    by_cases isOutput : isCodexToolCallOutputItemType (itemString itemMap "type") = true
    · by_cases named : trimSpace (itemString itemMap "call_id") = ""
      · constructor <;> simp_all [hasBlankOutput_concat]
      · constructor <;> simp_all [hasBlankOutput_concat]
        intro id
        by_cases same : id = trimSpace (itemString itemMap "call_id")
        · simp [same, named]
        · simp [same]
    by_cases isContext : isCodexToolCallContextItemType (itemString itemMap "type") = true
    · have noReference : itemString itemMap "type" ≠ "item_reference" := by
        intro same
        rw [same] at isContext
        exact absurd isContext (by decide)
      constructor <;> simp_all [hasBlankOutput_concat]
    by_cases reference : itemString itemMap "type" = "item_reference"
    · by_cases named : trimSpace (itemString itemMap "id") = ""
      · constructor <;> simp_all [hasBlankOutput_concat]
      · constructor <;> simp_all [hasBlankOutput_concat]
        intro id
        by_cases same : id = trimSpace (itemString itemMap "id")
        · simp [same, named]
        · simp [same]
    · constructor <;> simp_all [hasBlankOutput_concat]
  | null | bool _ | number _ | string _ | array _ =>
    constructor <;> simp_all [ResponsesInput.collectItem, stringEntry, hasBlankOutput_concat]

theorem collectItems_collects {start : FunctionCallOutputValidation} (input : List JsonValue) :
    ∀ (scan : Scan) (seen : List Entry), Collects start scan seen →
      Collects start (input.foldl collectItem scan) (seen ++ input.map stringEntry) := by
  induction input with
  | nil =>
    intro scan seen collects
    rwa [List.map_nil, List.append_nil]
  | cons item rest ih =>
    intro scan seen collects
    have all := ih _ _ (collects.collectItem item)
    rwa [List.append_assoc] at all

/-- What is found in the decoded request: the ids are not looked at beside a call. -/
theorem validateFunctionCallOutputContext_validates (body : Document) :
    Validates (validateFunctionCallOutputContext (requestMap body))
      (HasOutput (stringInput body)) (HasCall (stringInput body))
      (HasBlankOutput (stringInput body) ∧ ¬HasCall (stringInput body))
      (¬HasCall (stringInput body) ∧ Referenced (stringInput body)) := by
  unfold validateFunctionCallOutputContext stringInput
  cases requestInput (requestMap body) with
  | none =>
    obtain ⟨output, call, missing, referenced⟩ := validates_nil
    refine ⟨output, call, ?_, referenced⟩
    rw [missing]
    exact ⟨False.elim, fun blank => absurd blank.1 (by simp [HasBlankOutput])⟩
  | some input =>
    have start : Notes {} [] := by constructor <;> simp [HasOutput, HasCall]
    obtain ⟨reached, left, all, notes, stopped⟩ := noteItems_notes input {} [] start
    rw [List.nil_append] at all
    dsimp only
    rw [all]
    generalize noteItems {} input = result at notes
    split
    · rename_i early
      have found : HasOutput (reached ++ left) → HasCall (reached ++ left) := by
        intro output
        rcases stopped with rfl | both
        · rw [List.append_nil] at output ⊢
          rw [notes.output.mpr output] at early
          exact notes.call.mp (by simpa using early)
        · exact both.2.append left
      constructor
      · rcases stopped with rfl | both
        · rw [List.append_nil]
          exact notes.output
        · exact ⟨fun _ => both.1.append left, fun _ => notes.output.mpr both.1⟩
      · rcases stopped with rfl | both
        · rw [List.append_nil]
          exact notes.call
        · exact ⟨fun _ => both.2.append left, fun _ => notes.call.mpr both.2⟩
      · rw [notes.missing]
        constructor
        · intro absurd_
          cases absurd_
        · rintro ⟨blank, noCall⟩
          exact absurd (found ⟨"", blank⟩) noCall
      · rw [notes.open_]
        constructor
        · intro absurd_
          cases absurd_
        · rintro ⟨noCall, referenced⟩
          exact absurd (found referenced.hasOutput) noCall
    · rename_i late
      rw [Bool.or_eq_true, not_or, Bool.not_eq_true, Bool.not_eq_true] at late
      have noCall := mt notes.call.mpr (Bool.eq_false_iff.mp late.2)
      have whole : left = [] := by
        rcases stopped with whole | both
        · exact whole
        · exact absurd both.2 noCall
      subst whole
      rw [List.append_nil] at all ⊢
      have start : Collects result { result := result } [] := by
        constructor <;> simp [notes.missing, HasBlankOutput]
      have collects := collectItems_collects input _ _ start
      rw [List.nil_append, all] at collects
      generalize input.foldl collectItem { result := result } = scan at collects ⊢
      obtain ⟨output, call, missing⟩ :=
        allReferenced_frame scan.result scan.callIDs scan.referenceIDs
      constructor
      · rw [output, collects.output]
        exact notes.output
      · rw [call, collects.call]
        exact notes.call
      · rw [missing, collects.blank]
        exact ⟨fun blank => ⟨blank, noCall⟩, And.left⟩
      · rw [allReferenced_referenced (collects.open_.trans notes.open_) collects.callIDs
          collects.references]
        exact ⟨fun referenced => ⟨noCall, referenced⟩, And.right⟩

/-- The signals have been gathered from these entries. -/
structure SignalScan.Describes (scan : SignalScan) (seen : List Entry) : Prop where
  call : scan.signals.hasToolCallContext = true ↔ HasCall seen
  blank : scan.signals.hasFunctionCallOutputMissingCallID = true ↔ HasBlankOutput seen
  open_ : scan.signals.hasItemReferenceForAllCallIDs = false
  callIDs : ∀ callID, callID ∈ scan.callIDs ↔ callID ≠ "" ∧ .output callID ∈ seen
  references : ∀ id, id ∈ scan.referenceIDs ↔ id ≠ "" ∧ .reference id ∈ seen

theorem SignalScan.Describes.analyzeItem {scan : SignalScan} (describes : scan.Describes seen)
    (item : JsonValue) : (analyzeItem scan item).Describes (seen ++ [stringEntry item]) := by
  obtain ⟨call, blank, open_, callIDs, references⟩ := describes
  cases item with
  | object itemMap =>
    rw [ResponsesInput.analyzeItem, stringEntry, entryOf]
    by_cases isOutput : isCodexToolCallOutputItemType (itemString itemMap "type") = true
    · have noContext := not_context_of_output isOutput
      by_cases named : trimSpace (itemString itemMap "call_id") = ""
      · constructor <;> simp_all [hasCall_concat, hasBlankOutput_concat]
      · constructor <;> simp_all [hasCall_concat, hasBlankOutput_concat]
        intro id
        by_cases same : id = trimSpace (itemString itemMap "call_id")
        · simp [same, named]
        · simp [same]
    by_cases isContext : isCodexToolCallContextItemType (itemString itemMap "type") = true
    · by_cases named : trimSpace (itemString itemMap "call_id") = ""
      · constructor <;> simp_all [hasCall_concat, hasBlankOutput_concat]
      · constructor <;> simp_all [hasCall_concat, hasBlankOutput_concat]
    by_cases reference : itemString itemMap "type" = "item_reference"
    · by_cases named : trimSpace (itemString itemMap "id") = ""
      · constructor <;> simp_all [hasCall_concat, hasBlankOutput_concat]
      · constructor <;> simp_all [hasCall_concat, hasBlankOutput_concat]
        intro id
        by_cases same : id = trimSpace (itemString itemMap "id")
        · simp [same, named]
        · simp [same]
    · constructor <;> simp_all [hasCall_concat, hasBlankOutput_concat]
  | null | bool _ | number _ | string _ | array _ =>
    constructor <;>
      simp_all [ResponsesInput.analyzeItem, stringEntry, hasCall_concat, hasBlankOutput_concat]

theorem analyzeItems_describes (input : List JsonValue) :
    ∀ (scan : SignalScan) (seen : List Entry), scan.Describes seen →
      (input.foldl analyzeItem scan).Describes (seen ++ input.map stringEntry) := by
  induction input with
  | nil =>
    intro scan seen describes
    rwa [List.map_nil, List.append_nil]
  | cons item rest ih =>
    intro scan seen describes
    have all := ih _ _ (describes.analyzeItem item)
    rwa [List.append_assoc] at all

/-- What the signals say of calls, missing ids and references. -/
theorem analyzeToolContinuationSignals_finds (body : Document) :
    ((analyzeToolContinuationSignals (requestMap body)).hasToolCallContext = true ↔
        HasCall (stringInput body)) ∧
      ((analyzeToolContinuationSignals
          (requestMap body)).hasFunctionCallOutputMissingCallID = true ↔
        HasBlankOutput (stringInput body)) ∧
      ((analyzeToolContinuationSignals (requestMap body)).hasItemReferenceForAllCallIDs = true ↔
        Referenced (stringInput body)) := by
  unfold analyzeToolContinuationSignals stringInput
  cases requestInput (requestMap body) with
  | none => simp [HasCall, HasBlankOutput, Referenced, HasNamedOutput]
  | some input =>
    have start : SignalScan.Describes {} [] := by
      constructor <;> simp [HasCall, HasBlankOutput]
    have describes := analyzeItems_describes input _ _ start
    rw [List.nil_append] at describes
    dsimp only
    generalize input.foldl analyzeItem {} = scan at describes ⊢
    split
    · rename_i none_
      refine ⟨describes.call, describes.blank, ?_⟩
      rw [describes.open_]
      constructor
      · intro absurd_
        cases absurd_
      · rintro ⟨⟨callID, named, mem⟩, _⟩
        have found := (describes.callIDs callID).mpr ⟨named, mem⟩
        rw [none_] at found
        exact absurd found List.not_mem_nil
    · rename_i some_
      refine ⟨describes.call, describes.blank, ?_⟩
      have fresh : ({} : FunctionCallOutputValidation).hasItemReferenceForAllCallIDs = false := rfl
      have found := allReferenced_referenced fresh describes.callIDs describes.references
      rw [← found]
      unfold allReferenced
      cases none_ : scan.referenceIDs with
      | nil => simp
      | cons id ids => simp [some_]

end Sub2api.ResponsesInput
