import Sub2api.Go.Strings
import Sub2api.Lists.Fallible
import Sub2api.ResponsesInput.ContinuationScan

/-!
# Agreement of the tool output checks

The text and the decoded request give entries of the same kinds. The checks agree exactly if the ids
that they show have the same effect and the scan of the text does not meet an output without a
`call_id` before it stops.
-/

namespace Sub2api.ResponsesInput

open Sub2api.Go Sub2api.Go.Json

/-! ### What both readings have in common -/

/-- How an entry of the text is read as an entry of the decoded request: an id that is no string is
lost. -/
inductive Reads : Entry → Entry → Prop
  | output {id id' : String} (same : id' = "" ∨ id' = id) : Reads (.output id) (.output id')
  | context {id id' : String} (same : id' = "" ∨ id' = id) : Reads (.context id) (.context id')
  | reference {id id' : String} (same : id' = "" ∨ id' = id) : Reads (.reference id) (.reference id')
  | other : Reads .other .other
  | skipped : Reads .skipped .skipped

theorem toList_trimSpace {text : String} {c : Char} {rest : List Char}
    (spelled : text.toList = c :: rest) (printed : Go.isSpace c = false) :
    ∃ rest', (trimSpace text).toList = c :: rest' := by
  have starts : hasPrefix text (String.singleton c) = true := by
    rw [hasPrefix_iff, spelled]
    exact ⟨rest, by simp⟩
  have kept := hasPrefix_trimSpace starts (by simpa [NoBlank] using printed)
  rw [hasPrefix_iff] at kept
  obtain ⟨rest', same⟩ := kept
  exact ⟨rest', by simpa using same.symm⟩

/-- What starts with none of their letters is not a type of an item that is looked at. -/
theorem unknown_of_toList {text : String} {c : Char} {rest : List Char}
    (spelled : text.toList = c :: rest) (printed : Go.isSpace c = false)
    (letter : c ∉ ['t', 'f', 'l', 'c', 'm', 'i']) :
    isCodexToolCallOutputItemType text = false ∧ isCodexToolCallContextItemType text = false ∧
      text ≠ "item_reference" := by
  obtain ⟨rest', trimmed⟩ := toList_trimSpace spelled printed
  refine ⟨?_, ?_, ?_⟩
  · rw [← Bool.not_eq_true]
    unfold isCodexToolCallOutputItemType toolCallOutputItemTypes
    simp only [List.contains_iff_mem, List.mem_cons, List.not_mem_nil, or_false]
    rintro (same | same | same | same) <;>
      (rw [same] at trimmed
       cases trimmed
       exact letter (by decide))
  · rw [← Bool.not_eq_true]
    unfold isCodexToolCallContextItemType toolCallContextItemTypes
    simp only [List.contains_iff_mem, List.mem_cons, List.not_mem_nil, or_false]
    rintro (same | same | same | same | same | same) <;>
      (rw [same] at trimmed
       cases trimmed
       exact letter (by decide))
  · rintro rfl
    cases spelled
    exact letter (by decide)

theorem unknown_of_startsNumber {text : String} {c : Char} {rest : List Char}
    (spelled : text.toList = c :: rest) (starts : startsNumber c = true) :
    isCodexToolCallOutputItemType text = false ∧ isCodexToolCallContextItemType text = false ∧
      text ≠ "item_reference" := by
  apply unknown_of_toList spelled (Document.isSpace_of_startsNumber starts)
  intro letter
  simp only [List.mem_cons, List.not_mem_nil, or_false] at letter
  rcases letter with rfl | rfl | rfl | rfl | rfl | rfl <;> exact absurd starts (by decide)

/-- A value is read as the same string, or as none. -/
theorem stringValue_decode (format : FloatFormat) (d : Option Document) :
    stringValue (d.map Document.decode) = "" ∨
      stringValue (d.map Document.decode) = Document.str format d := by
  rcases d with _ | (_ | _ | _ | _ | _ | _)
  · exact Or.inl rfl
  all_goals first | exact Or.inl rfl | exact Or.inr rfl

/-- Where a value is not read as the same string, its text is not a type that is looked at. -/
theorem typeValue_decode (format : FloatFormat) (d : Option Document) :
    stringValue (d.map Document.decode) = Document.str format d ∨
      (stringValue (d.map Document.decode) = "" ∧
        isCodexToolCallOutputItemType (Document.str format d) = false ∧
        isCodexToolCallContextItemType (Document.str format d) = false ∧
        Document.str format d ≠ "item_reference") := by
  cases d with
  | none => exact Or.inl rfl
  | some d =>
    cases d with
    | null => exact Or.inl rfl
    | string text => exact Or.inl rfl
    | bool b =>
      right
      cases b with
      | true =>
        have unknown : isCodexToolCallOutputItemType "true" = false ∧
            isCodexToolCallContextItemType "true" = false ∧ "true" ≠ "item_reference" := by
          decide
        exact ⟨rfl, unknown⟩
      | false =>
        have unknown : isCodexToolCallOutputItemType "false" = false ∧
            isCodexToolCallContextItemType "false" = false ∧ "false" ≠ "item_reference" := by
          decide
        exact ⟨rfl, unknown⟩
    | number n =>
      right
      obtain ⟨c, rest, spelled, starts⟩ := Document.startsNumber_str format n
      exact ⟨rfl, unknown_of_startsNumber spelled starts⟩
    | array items rest =>
      right
      have spelled : (Document.str format (some (.array items rest))).toList =
          '[' :: rest.toList := by simp [Document.str]
      exact ⟨rfl, unknown_of_toList spelled (by decide) (by decide)⟩
    | object members rest =>
      right
      have spelled : (Document.str format (some (.object members rest))).toList =
          '\x7b' :: rest.toList := by simp [Document.str]
      exact ⟨rfl, unknown_of_toList spelled (by decide) (by decide)⟩

theorem trimSpace_reads {string shown : String} (same : string = "" ∨ string = shown) :
    trimSpace string = "" ∨ trimSpace string = trimSpace shown := by
  rcases same with rfl | rfl
  · exact Or.inl rfl
  · exact Or.inr rfl

/-- An item has the same kind in both readings. -/
theorem reads_entry (format : FloatFormat) {item : Document} (distinct : item.Distinct) :
    Reads (shownEntry format item) (stringEntry item.decode) := by
  cases object : item.decode with
  | object itemMap =>
    have isObject : item.isObject = true := by
      cases item <;> simp [Document.decode, Document.isObject] at object ⊢
    have read : ∀ key, itemString itemMap key = stringValue ((item.get key).map Document.decode) := by
      intro key
      rw [itemString, distinct.get_decode object]
    rw [shownEntry, if_pos isObject, stringEntry, entryOf, entryOf]
    have callID := trimSpace_reads (stringValue_decode format (item.get "call_id"))
    have id := trimSpace_reads (stringValue_decode format (item.get "id"))
    rw [← read] at callID id
    rcases typeValue_decode format (item.get "type") with same | ⟨lost, output, context, reference⟩
    · rw [read "type", same]
      split
      · exact Reads.output callID
      · split
        · exact Reads.context callID
        · split
          · exact Reads.reference id
          · exact Reads.other
    · rw [read "type", lost, output, context, if_neg reference]
      exact Reads.other
  | null | bool _ | number _ | string _ | array _ =>
    have noObject : item.isObject = false := by
      cases item <;> simp [Document.decode, Document.isObject] at object ⊢
    rw [shownEntry, noObject]
    exact Reads.skipped

/-- The two readings of the input of a request. -/
theorem reads_input (format : FloatFormat) {body : Document} (distinct : body.Distinct) :
    List.Forall₂ Reads (shownInput format body) (stringInput body) := by
  cases distinct with
  | null | bool _ | number _ | string _ | array _ => exact List.Forall₂.nil
  | @object members rest names each =>
    have map : requestMap (.object members rest) =
        some (JsonMap.ofMembers (Document.decodeMembers members)) := rfl
    have input : JsonMap.get (JsonMap.ofMembers (Document.decodeMembers members)) "input" =
        (members.lookup "input").map Document.decode := by
      rw [JsonMap.get_ofMembers (by rwa [Document.map_fst_decodeMembers]),
        Document.lookup_decodeMembers]
    unfold shownInput stringInput requestInput
    rw [map]
    dsimp only
    rw [input, Document.get]
    cases found : members.lookup "input" with
    | none => exact List.Forall₂.nil
    | some value =>
      have mem : ("input", value) ∈ members := by
        obtain ⟨before, after, rfl, _⟩ := List.lookup_eq_some_iff.mp found
        exact List.mem_append_right _ (List.mem_cons_self ..)
      have distinct := each _ mem
      cases distinct with
      | null | bool _ | number _ | string _ | object _ _ => exact List.Forall₂.nil
      | @array items rest each =>
        rw [Option.map_some, Document.decode, Document.decodeItems_eq_map]
        dsimp only
        rw [List.map_map, List.forall₂_map_left_iff, List.forall₂_map_right_iff]
        exact List.forall₂_same.mpr fun item mem => reads_entry format (each item mem)

/-! ### Agreement -/

section Readings

variable {shown strings : List Entry}

theorem hasOutput_iff (reads : List.Forall₂ Reads shown strings) :
    HasOutput shown ↔ HasOutput strings := by
  constructor
  · rintro ⟨callID, mem⟩
    obtain ⟨e', mem', same⟩ := Lists.left_of_forall₂ reads mem
    cases same
    exact ⟨_, mem'⟩
  · rintro ⟨callID, mem⟩
    obtain ⟨e, mem', same⟩ := Lists.right_of_forall₂ reads mem
    cases same
    exact ⟨_, mem'⟩

/-- The id of a call in the decoded request is one in the text. -/
theorem HasCall.of_strings (reads : List.Forall₂ Reads shown strings) (call : HasCall strings) :
    HasCall shown := by
  obtain ⟨callID, named, mem⟩ := call
  obtain ⟨e, mem', read⟩ := Lists.right_of_forall₂ reads mem
  cases read with
  | @context id _ same =>
    rcases same with rfl | rfl
    · exact absurd rfl named
    · exact ⟨_, named, mem'⟩

/-- An output that does not name its call in the text does not in the decoded request. -/
theorem HasBlankOutput.of_shown (reads : List.Forall₂ Reads shown strings)
    (blank : HasBlankOutput shown) : HasBlankOutput strings := by
  obtain ⟨e', mem, read⟩ := Lists.left_of_forall₂ reads blank
  cases read with
  | @output _ id' same =>
    rcases same with rfl | rfl <;> exact mem

theorem BlankOutputsLate.blank_iff (noCall : ¬HasCall shown) :
    ¬BlankOutputsLate shown ↔ HasBlankOutput shown := by
  constructor
  · intro early
    by_contra named
    apply early
    rintro before after rfl
    exact absurd (List.mem_append_right _ (List.mem_cons_self ..)) named
  · intro blank late
    obtain ⟨before, after, split⟩ := List.append_of_mem blank
    apply noCall
    rw [split]
    exact (late before after split).2.append _

/-- The text and the decoded request show the same of the ids, and the scan of the text stops before
it misses one. -/
structure SameReading (shown strings : List Entry) : Prop where
  /-- If a call has an id, one has a string as its id. -/
  call : HasCall shown → HasCall strings
  late : HasCall shown → BlankOutputsLate shown
  /-- Without a call, an output whose id is no string comes with one that has no id. -/
  blank : ¬HasCall shown → HasBlankOutput strings → HasBlankOutput shown
  /-- Without a call, ids that are no strings are not what the references are about. -/
  referenced : ¬HasCall shown → (Referenced shown ↔ Referenced strings)

/-- Where every id is a string, only the order counts. -/
theorem sameReading_self_iff : SameReading shown shown ↔ (HasCall shown → BlankOutputsLate shown) := by
  constructor
  · intro same
    exact same.late
  · intro late
    exact ⟨id, late, fun _ => id, fun _ => Iff.rfl⟩

theorem sameReading_iff (reads : List.Forall₂ Reads shown strings) :
    ((HasCall shown ↔ HasCall strings) ∧
        (¬BlankOutputsLate shown ↔ HasBlankOutput strings ∧ ¬HasCall strings) ∧
        (¬HasCall shown ∧ Referenced shown ↔ ¬HasCall strings ∧ Referenced strings)) ↔
      SameReading shown strings := by
  constructor
  · rintro ⟨calls, missing, referenced⟩
    refine ⟨calls.mp, ?_, ?_, ?_⟩
    · intro call
      by_contra early
      exact (missing.mp early).2 (calls.mp call)
    · intro noCall blank
      rw [← BlankOutputsLate.blank_iff noCall, missing]
      exact ⟨blank, mt calls.mpr noCall⟩
    · intro noCall
      have noCall' := mt calls.mpr noCall
      constructor
      · intro all
        exact (referenced.mp ⟨noCall, all⟩).2
      · intro all
        exact (referenced.mpr ⟨noCall', all⟩).2
  · intro same
    have calls : HasCall shown ↔ HasCall strings := ⟨same.call, HasCall.of_strings reads⟩
    refine ⟨calls, ?_, ?_⟩
    · by_cases call : HasCall shown
      · constructor
        · intro early
          exact absurd (same.late call) early
        · rintro ⟨_, noCall⟩
          exact absurd (calls.mp call) noCall
      · rw [BlankOutputsLate.blank_iff call]
        constructor
        · intro blank
          exact ⟨blank.of_shown reads, mt calls.mpr call⟩
        · rintro ⟨blank, _⟩
          exact same.blank call blank
    · rw [← calls]
      constructor
      · rintro ⟨noCall, all⟩
        exact ⟨noCall, (same.referenced noCall).mp all⟩
      · rintro ⟨noCall, all⟩
        exact ⟨noCall, (same.referenced noCall).mpr all⟩

end Readings

/-- The three checks of a request. -/
structure ChecksAgree (format : FloatFormat) (body : Document) : Prop where
  results : validateFunctionCallOutputContextBytes format body =
    validateFunctionCallOutputContext (requestMap body)
  missing : (analyzeToolContinuationSignals (requestMap body)).hasToolCallContext = false →
    (validateFunctionCallOutputContextBytes format body).hasFunctionCallOutputMissingCallID =
        (analyzeToolContinuationSignals (requestMap body)).hasFunctionCallOutputMissingCallID ∧
      (validateFunctionCallOutputContext (requestMap body)).hasFunctionCallOutputMissingCallID =
        (analyzeToolContinuationSignals (requestMap body)).hasFunctionCallOutputMissingCallID
  references : (analyzeToolContinuationSignals (requestMap body)).hasToolCallContext = false →
    (validateFunctionCallOutputContextBytes format body).hasItemReferenceForAllCallIDs =
        (analyzeToolContinuationSignals (requestMap body)).hasItemReferenceForAllCallIDs ∧
      (validateFunctionCallOutputContext (requestMap body)).hasItemReferenceForAllCallIDs =
        (analyzeToolContinuationSignals (requestMap body)).hasItemReferenceForAllCallIDs

/-- Without a call the decoded check and the signals find the same. -/
theorem analyze_agrees (body : Document)
    (noCall : (analyzeToolContinuationSignals (requestMap body)).hasToolCallContext = false) :
    (validateFunctionCallOutputContext (requestMap body)).hasFunctionCallOutputMissingCallID =
        (analyzeToolContinuationSignals (requestMap body)).hasFunctionCallOutputMissingCallID ∧
      (validateFunctionCallOutputContext (requestMap body)).hasItemReferenceForAllCallIDs =
        (analyzeToolContinuationSignals (requestMap body)).hasItemReferenceForAllCallIDs := by
  have found := validateFunctionCallOutputContext_validates body
  obtain ⟨call, blank, referenced⟩ := analyzeToolContinuationSignals_finds body
  have noCall' := mt call.mpr (Bool.eq_false_iff.mp noCall)
  constructor
  · rw [Bool.eq_iff_iff, found.missing, blank]
    exact ⟨And.left, fun blank => ⟨blank, noCall'⟩⟩
  · rw [Bool.eq_iff_iff, found.referenced, referenced]
    exact ⟨And.right, fun all => ⟨noCall', all⟩⟩

/-- The checks of a request agree exactly if its text and what it is decoded to show the same ids
and no output without an id is met before the scan of the text stops at a call. -/
theorem checksAgree_iff (format : FloatFormat) (body : Document) (distinct : body.Distinct) :
    ChecksAgree format body ↔ SameReading (shownInput format body) (stringInput body) := by
  have reads := reads_input format distinct
  have same := (validateFunctionCallOutputContextBytes_validates format body).eq_iff
    (validateFunctionCallOutputContext_validates body)
  rw [← sameReading_iff reads]
  constructor
  · intro agree
    exact (same.mp agree.results).2
  · intro readings
    have results := same.mpr ⟨hasOutput_iff reads, readings⟩
    constructor
    · exact results
    · intro noCall
      rw [results]
      exact ⟨(analyze_agrees body noCall).1, (analyze_agrees body noCall).1⟩
    · intro noCall
      rw [results]
      exact ⟨(analyze_agrees body noCall).2, (analyze_agrees body noCall).2⟩

namespace ContinuationSample

/-- Numbers are printed as they are written, with a sign. -/
def format : FloatFormat where
  format literal := "+" ++ literal
  starts literal := ⟨'+', literal.toList, by simp, by decide⟩

def item (type : String) (members : List (String × Document)) : Document :=
  .object (("type", .string type) :: members) ""

def request (items : List Document) : Document :=
  .object [("input", .array items "")] ""

/-- An output without an id, and a call after it. -/
def early : Document :=
  request [item "function_call_output" [], item "function_call" [("call_id", .string "a")]]

/-- The output of a call that is referred to. -/
def answered : Document :=
  request [item "function_call_output" [("call_id", .string "a")],
    item "item_reference" [("id", .string "a")]]

/-- An output whose id is a number. -/
def numbered : Document :=
  request [item "function_call_output" [("call_id", .number ⟨"5", by decide⟩)]]

theorem answered_distinct : answered.Distinct := by
  apply Document.Distinct.object
  · decide
  · simp only [List.forall_mem_singleton]
    apply Document.Distinct.array
    simp only [List.forall_mem_cons]
    refine ⟨?_, ?_, by simp⟩
    · apply Document.Distinct.object
      · decide
      · simp only [List.forall_mem_cons]
        exact ⟨Document.Distinct.string _, Document.Distinct.string _, by simp⟩
    · apply Document.Distinct.object
      · decide
      · simp only [List.forall_mem_cons]
        exact ⟨Document.Distinct.string _, Document.Distinct.string _, by simp⟩

end ContinuationSample

theorem checksAgree_answered :
    ChecksAgree ContinuationSample.format ContinuationSample.answered := by
  apply (checksAgree_iff ContinuationSample.format ContinuationSample.answered
    ContinuationSample.answered_distinct).mpr
  have shown : shownInput ContinuationSample.format ContinuationSample.answered =
      [.output "a", .reference "a"] := by decide +kernel
  have strings : stringInput ContinuationSample.answered = [.output "a", .reference "a"] := by
    decide +kernel
  rw [shown, strings, sameReading_self_iff]
  rintro ⟨callID, _, mem⟩
  simp at mem

/-- The text reports a missing id beside a call, which the decoded request does not, and takes a
number for an id. -/
theorem checks_disagree :
    ¬ChecksAgree ContinuationSample.format ContinuationSample.early ∧
      ¬ChecksAgree ContinuationSample.format ContinuationSample.numbered := by
  constructor
  · intro agree
    exact absurd agree.results (by decide +kernel)
  · intro agree
    exact absurd agree.results (by decide +kernel)

end Sub2api.ResponsesInput
