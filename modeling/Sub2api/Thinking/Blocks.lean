import Sub2api.Go.JsonNumbers
import Sub2api.Go.Strings

/-!
# Blocks of thinking

The protocol of a model decides whether blocks of thinking are filtered at all. A body that does
not look like one with thinking is not parsed.
-/

namespace Sub2api.Thinking

open Sub2api.Go Sub2api.Go.Json

inductive ThinkingProtocol where
  | unknown
  | anthropicStrict
  | passbackRequired
  deriving DecidableEq

/-- `strings.ToLower` and `normalizeEffortModelID`. -/
structure ModelIDs where
  toLower : String → String
  normalizeEffortModelID : String → String

variable (ids : ModelIDs)

def resolveThinkingProtocol (modelID : String) : ThinkingProtocol :=
  if modelID = "" then .unknown
  else
    let id := ids.toLower modelID
    if hasPrefix id "deepseek-" || hasPrefix id "kimi-" || hasPrefix id "moonshot-" ||
        hasPrefix id "glm-" || id = "k3" || id = "k3-256k" then .passbackRequired
    else if hasPrefix id "minimax-m" then .passbackRequired
    else if (hasPrefix id "qwen-" || hasPrefix id "qwen2-" || hasPrefix id "qwen3-" ||
        hasPrefix id "qwen4-") && contains id "-thinking" then .passbackRequired
    else if hasPrefix id "claude-" || hasPrefix id "opus-" || hasPrefix id "sonnet-" ||
        hasPrefix id "haiku-" then .anthropicStrict
    else .unknown

def shouldPreFilterThinkingBlocks (modelID : String) : Bool :=
  resolveThinkingProtocol ids modelID = .anthropicStrict

def isOpus55 (model : String) : Bool := ids.normalizeEffortModelID model = "claude-opus-5-5"

def isSonnet55 (model : String) : Bool := ids.normalizeEffortModelID model = "claude-sonnet-5-5"

def isHaiku55 (model : String) : Bool := ids.normalizeEffortModelID model = "claude-haiku-5-5"

def isClaude55SignedThinkingModel (model : String) : Bool :=
  isOpus55 ids model || isSonnet55 ids model || isHaiku55 ids model

/-! ### Messages and blocks -/

/-- A field that should be a string. -/
def text (m : JsonMap) (key : String) : String := stringValue (m.get key)

def field (msg : JsonValue) (key : String) : Option JsonValue :=
  match msg with
  | .object msg => JsonMap.get msg key
  | _ => none

def role (msg : JsonValue) : String := stringValue (field msg "role")

/-- The content array of a message. -/
def content? (msg : JsonValue) : Option (List JsonValue) :=
  match field msg "content" with
  | some (.array content) => some content
  | _ => none

/-- The messages of a body. -/
def messages (body : String) : List JsonValue :=
  match (fields body).get "messages" with
  | some (.array messages) => messages
  | _ => []

/-- A block of thinking, with its type or only with the field. -/
def isThinking : JsonValue → Bool
  | .object block =>
    let blockType := text block "type"
    blockType = "thinking" || blockType = "redacted_thinking" ||
      blockType = "" && JsonMap.has block "thinking"
  | _ => false

def textBlock (content : String) : JsonValue :=
  .object [("text", .string content), ("type", .string "text")]

/-- What stands for the content of a message that is left without any. -/
def placeholder (role : String) : JsonValue :=
  textBlock (if role = "assistant" then "(assistant content removed)" else "(content removed)")

/-! ### Numbers do not matter here -/

variable (f : Floats)

theorem text_passMap (m : JsonMap) (key : String) : text (f.passMap m) key = text m key := by
  unfold text
  rw [f.get_passMap, f.stringValue_pass]

theorem field_pass (m : JsonValue) (key : String) :
    field (f.pass m) key = (field m key).map f.pass := by
  cases m with
  | object msg => exact f.get_passMap msg key
  | null | bool | number | string | array => rfl

theorem role_pass (m : JsonValue) : role (f.pass m) = role m := by
  rw [role, field_pass, f.stringValue_pass]
  rfl

theorem isThinking_pass (b : JsonValue) : isThinking (f.pass b) = isThinking b := by
  cases b with
  | object block =>
      change isThinking (.object (f.passMap block)) = isThinking (.object block)
      simp only [isThinking, text_passMap, f.has_passMap]
  | null | bool | number | string | array => rfl

theorem content?_pass (m : JsonValue) :
    content? (f.pass m) = (content? m).map fun content => content.map f.pass := by
  unfold content?
  rw [field_pass]
  cases field m "content" with
  | none => rfl
  | some v => cases v with
    | array content => rw [Option.map_some, f.pass_array]; rfl
    | null | bool | number | string | object => rfl

theorem fits_placeholder (depth : ℕ) (role : String) : Fits (depth + 1) (placeholder role) := by
  have before : ("text" : String) < "type" := by decide +kernel
  apply Fits.object
  · exact List.pairwise_pair.mpr before
  · intro member mem
    rcases List.mem_cons.mp mem with rfl | later
    · exact Fits.string _ _
    · cases List.mem_singleton.mp later
      exact Fits.string _ _

end Sub2api.Thinking
