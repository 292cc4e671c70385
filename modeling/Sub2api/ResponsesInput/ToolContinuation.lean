import Sub2api.Go.JsonDocument

/-!
# Tool outputs and what they continue

The checks whether the tool outputs in the input of a Responses request can be told which calls they
answer: `ValidateFunctionCallOutputContextBytes` in one pass over the JSON text, and
`ValidateFunctionCallOutputContext` and `AnalyzeToolContinuationSignals` over the decoded request.
-/

namespace Sub2api.ResponsesInput

open Sub2api.Go Sub2api.Go.Json

def toolCallContextItemTypes : List String :=
  ["tool_call", "function_call", "local_shell_call", "tool_search_call", "custom_tool_call",
    "mcp_tool_call"]

def toolCallOutputItemTypes : List String :=
  ["function_call_output", "tool_search_output", "custom_tool_call_output",
    "mcp_tool_call_output"]

def isCodexToolCallContextItemType (typ : String) : Bool :=
  toolCallContextItemTypes.contains (trimSpace typ)

def isCodexToolCallOutputItemType (typ : String) : Bool :=
  toolCallOutputItemTypes.contains (trimSpace typ)

structure FunctionCallOutputValidation where
  hasFunctionCallOutput : Bool := false
  hasToolCallContext : Bool := false
  hasFunctionCallOutputMissingCallID : Bool := false
  hasItemReferenceForAllCallIDs : Bool := false
  deriving DecidableEq

/-! ### Over the text -/

/-- `result`, `callIDs` and `referenceIDs` on the way through the input. -/
structure Scan where
  result : FunctionCallOutputValidation := {}
  callIDs : List String := []
  referenceIDs : List String := []

/-- The end of a visit: the scan goes on until it has seen an output and a call. -/
def Scan.visited (scan : Scan) : Scan × Bool :=
  (scan, !scan.result.hasFunctionCallOutput || !scan.result.hasToolCallContext)

/-- The body of `input.ForEach`, with whether it goes on. -/
def visitItem (format : FloatFormat) (scan : Scan) (item : Document) : Scan × Bool :=
  if item.isObject = false then (scan, true)
  else
    let itemType := Document.str format (item.get "type")
    if isCodexToolCallOutputItemType itemType then
      let callID := trimSpace (Document.str format (item.get "call_id"))
      if callID = "" then
        ({ scan with
            result := { scan.result with
              hasFunctionCallOutput := true, hasFunctionCallOutputMissingCallID := true } }, true)
      else
        Scan.visited
          { scan with
            result := { scan.result with hasFunctionCallOutput := true }
            callIDs := callID :: scan.callIDs }
    else if isCodexToolCallContextItemType itemType then
      if trimSpace (Document.str format (item.get "call_id")) ≠ "" then
        Scan.visited { scan with result := { scan.result with hasToolCallContext := true } }
      else scan.visited
    else if itemType = "item_reference" then
      let idValue := trimSpace (Document.str format (item.get "id"))
      if idValue = "" then (scan, true)
      else Scan.visited { scan with referenceIDs := idValue :: scan.referenceIDs }
    else scan.visited

def visitItems (format : FloatFormat) : Scan → List Document → Scan
  | scan, [] => scan
  | scan, item :: rest =>
    match visitItem format scan item with
    | (scan, true) => visitItems format scan rest
    | (scan, false) => scan

/-- The end of both checks. -/
def allReferenced (result : FunctionCallOutputValidation) (callIDs referenceIDs : List String) :
    FunctionCallOutputValidation :=
  if callIDs = [] ∨ referenceIDs = [] then result
  else
    { result with
      hasItemReferenceForAllCallIDs := callIDs.all fun callID => referenceIDs.contains callID }

def validateFunctionCallOutputContextBytes (format : FloatFormat) (body : Document) :
    FunctionCallOutputValidation :=
  match body.get "input" with
  | some (.array items _) =>
    let scan := visitItems format {} items
    if !scan.result.hasFunctionCallOutput || scan.result.hasToolCallContext then scan.result
    else allReferenced scan.result scan.callIDs scan.referenceIDs
  | _ => {}

/-! ### Over the decoded request -/

/-- A request body as a `map[string]any`; a body that is no object is no request. -/
def requestMap (body : Document) : Option JsonMap :=
  match body.decode with
  | .object members => some members
  | _ => none

/-- `itemMap[key].(string)`. -/
def itemString (item : JsonMap) (key : String) : String := stringValue (item.get key)

/-- `reqBody["input"].([]any)`. -/
def requestInput : Option JsonMap → Option (List JsonValue)
  | none => none
  | some reqBody =>
    match reqBody.get "input" with
    | some (.array input) => some input
    | _ => none

/-- One item of the first pass. -/
def noteItem (result : FunctionCallOutputValidation) (itemMap : JsonMap) :
    FunctionCallOutputValidation :=
  let itemType := itemString itemMap "type"
  if isCodexToolCallOutputItemType itemType then { result with hasFunctionCallOutput := true }
  else if isCodexToolCallContextItemType itemType then
    if trimSpace (itemString itemMap "call_id") ≠ "" then { result with hasToolCallContext := true }
    else result
  else result

/-- The first pass, which ends at once when it has seen an output and a call. -/
def noteItems : FunctionCallOutputValidation → List JsonValue → FunctionCallOutputValidation
  | result, [] => result
  | result, .object itemMap :: rest =>
    let result := noteItem result itemMap
    if result.hasFunctionCallOutput && result.hasToolCallContext then result
    else noteItems result rest
  | result, _ :: rest => noteItems result rest

/-- One item of the second pass. -/
def collectItem (scan : Scan) : JsonValue → Scan
  | .object itemMap =>
    let itemType := itemString itemMap "type"
    if isCodexToolCallOutputItemType itemType then
      let callID := trimSpace (itemString itemMap "call_id")
      if callID = "" then
        { scan with result := { scan.result with hasFunctionCallOutputMissingCallID := true } }
      else { scan with callIDs := callID :: scan.callIDs }
    else if itemType = "item_reference" then
      let idValue := trimSpace (itemString itemMap "id")
      if idValue = "" then scan else { scan with referenceIDs := idValue :: scan.referenceIDs }
    else scan
  | _ => scan

def validateFunctionCallOutputContext (reqBody : Option JsonMap) : FunctionCallOutputValidation :=
  match requestInput reqBody with
  | none => {}
  | some input =>
    let result := noteItems {} input
    if !result.hasFunctionCallOutput || result.hasToolCallContext then result
    else
      let scan := input.foldl collectItem { result := result }
      allReferenced scan.result scan.callIDs scan.referenceIDs

structure ToolContinuationSignals where
  hasFunctionCallOutput : Bool := false
  hasFunctionCallOutputMissingCallID : Bool := false
  hasToolCallContext : Bool := false
  hasItemReference : Bool := false
  hasItemReferenceForAllCallIDs : Bool := false
  functionCallOutputCallIDs : List String := []

/-- `signals` and the sets of `AnalyzeToolContinuationSignals`. -/
structure SignalScan where
  signals : ToolContinuationSignals := {}
  callIDs : List String := []
  referenceIDs : List String := []

def analyzeItem (scan : SignalScan) : JsonValue → SignalScan
  | .object itemMap =>
    let itemType := itemString itemMap "type"
    if isCodexToolCallContextItemType itemType then
      if trimSpace (itemString itemMap "call_id") ≠ "" then
        { scan with signals := { scan.signals with hasToolCallContext := true } }
      else scan
    else if isCodexToolCallOutputItemType itemType then
      let callID := trimSpace (itemString itemMap "call_id")
      if callID = "" then
        { scan with
          signals := { scan.signals with
            hasFunctionCallOutput := true, hasFunctionCallOutputMissingCallID := true } }
      else
        { scan with
          signals := { scan.signals with hasFunctionCallOutput := true }
          callIDs := scan.callIDs.insert callID }
    else if itemType = "item_reference" then
      let signals := { scan.signals with hasItemReference := true }
      let idValue := trimSpace (itemString itemMap "id")
      if idValue = "" then { scan with signals := signals }
      else { scan with signals := signals, referenceIDs := scan.referenceIDs.insert idValue }
    else scan
  | _ => scan

def analyzeToolContinuationSignals (reqBody : Option JsonMap) : ToolContinuationSignals :=
  match requestInput reqBody with
  | none => {}
  | some input =>
    let scan := input.foldl analyzeItem {}
    if scan.callIDs = [] then scan.signals
    else
      { scan.signals with
        functionCallOutputCallIDs := scan.callIDs
        hasItemReferenceForAllCallIDs := !scan.referenceIDs.isEmpty &&
          scan.callIDs.all fun callID => scan.referenceIDs.contains callID }

/-! ### What an item is -/

/-- An item as a check sees it, its ids trimmed. -/
inductive Entry where
  | output (callID : String)
  | context (callID : String)
  | reference (id : String)
  | other
  /-- No object. -/
  | skipped
  deriving DecidableEq

/-- An object with the strings that are read at its keys. -/
def entryOf (read : String → String) : Entry :=
  if isCodexToolCallOutputItemType (read "type") then .output (trimSpace (read "call_id"))
  else if isCodexToolCallContextItemType (read "type") then .context (trimSpace (read "call_id"))
  else if read "type" = "item_reference" then .reference (trimSpace (read "id"))
  else .other

/-- An item of the text, any value read as its text. -/
def shownEntry (format : FloatFormat) (item : Document) : Entry :=
  if item.isObject then entryOf fun key => Document.str format (item.get key) else .skipped

/-- An item of the decoded request, only strings being read. -/
def stringEntry : JsonValue → Entry
  | .object itemMap => entryOf (itemString itemMap)
  | _ => .skipped

/-- The input as the text shows it. -/
def shownInput (format : FloatFormat) (body : Document) : List Entry :=
  match body.get "input" with
  | some (.array items _) => items.map (shownEntry format)
  | _ => []

/-- The input with the strings in it. -/
def stringInput (body : Document) : List Entry :=
  match requestInput (requestMap body) with
  | some input => input.map stringEntry
  | none => []

/-! ### What the checks are to find -/

def HasOutput (input : List Entry) : Prop := ∃ callID, .output callID ∈ input

/-- There is an output that names its call. -/
def HasNamedOutput (input : List Entry) : Prop := ∃ callID ≠ "", .output callID ∈ input

/-- There is a call with an id. -/
def HasCall (input : List Entry) : Prop := ∃ callID ≠ "", .context callID ∈ input

/-- An output does not name its call. -/
def HasBlankOutput (input : List Entry) : Prop := .output "" ∈ input

/-- There are outputs that name their calls, and a reference to each of these. -/
def Referenced (input : List Entry) : Prop :=
  HasNamedOutput input ∧ ∀ callID ≠ "", .output callID ∈ input → .reference callID ∈ input

/-- Whatever output does not name its call, one that does and a call stand before it. -/
def BlankOutputsLate (input : List Entry) : Prop :=
  ∀ before after, input = before ++ .output "" :: after → HasNamedOutput before ∧ HasCall before

end Sub2api.ResponsesInput
