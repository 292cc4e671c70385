import Sub2api.BatchImage.Job
import Sub2api.Go.Strings

/-!
# A line of a provider's output

`parseBatchImageResultLine` finds in one line of the output which item it is about and what became
of the item.
-/

namespace Sub2api.BatchImage

open Go

/-- A decoded JSON value; a number by the integer that `int64` makes of it, and of a repeated member
the last. -/
inductive Any where
  | null
  | bool (value : Bool)
  | number (truncated : ℤ)
  | string (value : String)
  | array (values : List Any)
  | object (members : List (String × Any))

abbrev Object := List (String × Any)

/-- What the parser takes from the standard library: `json.Unmarshal` into a map, which is empty for
`null`, and `strings.ToLower`. -/
structure LineReader where
  unmarshal : String → Option Object
  toLower : String → String

/-- A text cut after so many bytes: the runes that are whole, and whether one was cut through. -/
structure CutText where
  text : String
  cut : Bool := false

inductive ParsedStatus where
  | succeeded
  | failed

structure ParsedBatchImageResult where
  customID : String
  status : ParsedStatus := .failed
  mimeType : String := ""
  fileExtension : String := ""
  imageCount : ℕ := 0
  errorCode : String := ""
  errorMessage : CutText := { text := "" }
  sourceLineNumber : ℕ

/-- The limit on a stored message, in bytes. -/
def maxErrorMessageLength : ℕ := 1000

inductive ParseFailure where
  | unmarshal (line : ℕ)
  | missingCustomID (line : ℕ)

/-! ### Values in a line -/

namespace Any

def asArray : Any → Option (List Any)
  | .array values => some values
  | _ => none

def asObject : Any → Option Object
  | .object members => some members
  | _ => none

end Any

def member (obj : Object) (key : String) : Any := (obj.lookup key).getD .null

/-- `batchImageMapString`. -/
def mapString (obj : Object) (key : String) : String :=
  match member obj key with
  | .string value => trimSpace value
  | .number truncated => toString truncated
  | _ => ""

/-- `batchImageNestedAny`. -/
def nestedAny (current : Any) : List String → Any
  | [] => current
  | key :: keys =>
    match current with
    | .object members => nestedAny (member members key) keys
    | _ => .null

/-- `batchImageNestedString`. -/
def nestedString (obj : Object) (keys : List String) : String :=
  match nestedAny (.object obj) keys with
  | .string value => trimSpace value
  | _ => ""

/-- `batchImageFirstNonEmptyString`. -/
def firstNonEmptyString : List String → String
  | [] => ""
  | value :: values => if trimSpace value ≠ "" then trimSpace value else firstNonEmptyString values

def firstMap (values : List Any) : Option Object := values.findSome? Any.asObject

/-- `truncateBatchImageMessage`. -/
def truncateBatchImageMessage (message : String) (limit : ℕ) : CutText :=
  let message := trimSpace message
  if limit = 0 ∨ message.utf8ByteSize ≤ limit then { text := message }
  else
    let whole := (message.toList.inits.filter fun runes =>
      (String.ofList runes).utf8ByteSize ≤ limit).getLastD []
    { text := String.ofList whole, cut := (String.ofList whole).utf8ByteSize ≠ limit }

/-! ### The images of a line -/

section Lines

variable (reader : LineReader)

/-- The MIME type of a part that is an image. -/
def imageMime (part : Any) : Option String := do
  let part ← part.asObject
  let inline ← firstMap [member part "inlineData", member part "inline_data"]
  let data := trimSpace (mapString inline "data")
  let mime := firstNonEmptyString [mapString inline "mimeType", mapString inline "mime_type"]
  if data = "" ∨ ¬ hasPrefix (reader.toLower (trimSpace mime)) "image/" then none
  else some (trimSpace mime)

/-- `batchImageFindImagePartsInCandidates`: how many images there are, and the first MIME type. -/
def findImagePartsInCandidates (raw : Any) : ℕ × String :=
  let candidates := (raw.asArray.getD []).filterMap Any.asObject
  let parts := candidates.flatMap fun candidate =>
    ((nestedAny (.object candidate) ["content", "parts"]).asArray.getD [])
  let mimes := parts.filterMap (imageMime reader)
  (mimes.length, (mimes.find? (· ≠ "")).getD "")

/-- `batchImageFindImageParts`. -/
def findImageParts (obj : Object) : ℕ × String :=
  let inResponse := findImagePartsInCandidates reader
    (nestedAny (.object obj) ["response", "candidates"])
  if 0 < inResponse.1 then inResponse
  else findImagePartsInCandidates reader (member obj "candidates")

/-- `batchImageFileExtension`. -/
def fileExtension (mimeType : String) : String :=
  let mime := reader.toLower (trimSpace mimeType)
  if mime = "image/png" then "png"
  else if mime = "image/jpeg" ∨ mime = "image/jpg" then "jpg"
  else if mime = "image/webp" then "webp"
  else ""

/-! ### The failure of a line -/

/-- `batchImageMapFailureCode`. -/
def mapFailureCode (code message : String) : String :=
  let text := reader.toLower (trimSpace (code ++ " " ++ message))
  let mentions (words : List String) : Bool := words.any (Go.contains text)
  if mentions ["safety", "policy", "blocked", "prohibited"] then "SAFETY_BLOCKED"
  else if mentions ["invalid_argument", "invalid argument", "bad request"] then "INVALID_ARGUMENT"
  else if mentions ["quota", "rate", "resource_exhausted", "too many requests"] then
    "PROVIDER_RATE_LIMITED"
  else "PROVIDER_ITEM_FAILED"

/-- Code and message of a failure under one of the members that tell one. -/
def failureUnder (obj : Object) (key : String) : Option (String × String) :=
  match member obj key with
  | .object failure =>
    let message :=
      firstNonEmptyString [mapString failure "message", mapString failure "details"]
    let code := firstNonEmptyString [mapString failure "code", mapString failure "status"]
    some (mapFailureCode reader code message, message)
  | _ => none

/-- `batchImageFailureFromProviderFields`. -/
def failureFromProviderFields (obj : Object) : Option (String × String) :=
  match failureUnder reader obj "status" with
  | some failure => some failure
  | none => failureUnder reader obj "error"

/-- `batchImageHasCandidates`. -/
def hasCandidates (obj : Object) : Bool :=
  (obj.lookup "candidates").isSome ||
    (nestedAny (.object obj) ["response", "candidates"]).asArray.isSome

/-! ### The line -/

/-- The id a line names its item by. -/
def lineCustomID (obj : Object) : String :=
  firstNonEmptyString
    [ mapString obj "key", mapString obj "custom_id", mapString obj "customId",
      nestedString obj ["request", "key"] ]

/-- What the line says became of the item. -/
def lineResult (obj : Object) (customID : String) (lineNumber : ℕ) : ParsedBatchImageResult :=
  let parsed : ParsedBatchImageResult := { customID := customID, sourceLineNumber := lineNumber }
  let (imageCount, mimeType) := findImageParts reader obj
  if 0 < imageCount then
    { parsed with
      status := .succeeded
      imageCount := imageCount
      mimeType := mimeType
      fileExtension := fileExtension reader mimeType }
  else
    match failureFromProviderFields reader obj with
    | some (code, message) =>
      { parsed with
        errorCode := code
        errorMessage := truncateBatchImageMessage message maxErrorMessageLength }
    | none =>
      if (obj.lookup "response").isSome || hasCandidates obj then
        { parsed with
          errorCode := "EMPTY_IMAGE_OUTPUT"
          errorMessage := { text := "provider response contained no image output" } }
      else
        { parsed with
          errorCode := "PROVIDER_ITEM_FAILED"
          errorMessage := { text := "provider result line contained no image output" } }

/-- `ParseBatchImageResultLine`. -/
def parseBatchImageResultLine (line : String) (lineNumber : ℕ) :
    Except ParseFailure ParsedBatchImageResult :=
  match reader.unmarshal line with
  | none => .error (.unmarshal lineNumber)
  | some obj =>
    if lineCustomID obj = "" then .error (.missingCustomID lineNumber)
    else .ok (lineResult reader obj (lineCustomID obj) lineNumber)

end Lines

end Sub2api.BatchImage
