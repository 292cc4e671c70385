import Mathlib.Data.List.Sort
import Mathlib.Data.String.Basic
import Sub2api.Go.Strings

/-!
# JSON as Go's standard library has it

`Scanner.step` is the scanner of `encoding/json`, one character at a time: `valid`, `compact`,
`unmarshalMap` and `unmarshalString` read what it says of a text. An error of the scanner is
sticky, so it is `none` here.
-/

namespace Sub2api.Go.Json

/-! ### The scanner -/

inductive ParseState where
  | objectKey
  | objectValue
  | arrayValue

inductive ScanState where
  | beginValue
  | beginValueOrEmpty
  | beginString
  | beginStringOrEmpty
  | endValue
  | endTop
  | inString
  | inStringEsc
  /-- In the digits of an escaped code unit, with so many left after the next. -/
  | inStringEscU (left : ℕ)
  | neg
  | int
  | zero
  | dot
  | fraction
  | exponent
  | exponentSign
  | exponentDigits
  /-- In `true`, `false` or `null`, before these characters. -/
  | word (rest : List Char)
  deriving DecidableEq

inductive Opcode where
  | continue
  | beginLiteral
  | beginObject
  | objectKey
  | objectValue
  | endObject
  | beginArray
  | arrayValue
  | endArray
  | skipSpace
  | end
  deriving DecidableEq

/-- The scanner; the innermost parse state comes first. -/
structure Scanner where
  state : ScanState := .beginValue
  parseState : List ParseState := []

/-- `isSpace` of the scanner. -/
def isSpace (c : Char) : Bool := c == ' ' || c == '\t' || c == '\r' || c == '\n'

def isDigit (c : Char) : Bool := '0' ≤ c && c ≤ '9'

def isHex (c : Char) : Bool := isDigit c || ('a' ≤ c && c ≤ 'f') || ('A' ≤ c && c ≤ 'F')

abbrev Scanned := Option (Opcode × Scanner)

namespace Scanner

def goto (s : Scanner) (state : ScanState) (opcode : Opcode) : Scanned :=
  some (opcode, { s with state := state })

/-- `pushParseState`; nesting is limited. -/
def push (s : Scanner) (parse : ParseState) (state : ScanState) (opcode : Opcode) : Scanned :=
  if s.parseState.length + 1 ≤ 10000 then
    some (opcode, { state := state, parseState := parse :: s.parseState })
  else none

/-- `popParseState`. -/
def pop (s : Scanner) (opcode : Opcode) : Scanned :=
  match s.parseState.tail with
  | [] => some (opcode, { state := .endTop, parseState := [] })
  | outer => some (opcode, { state := .endValue, parseState := outer })

/-- `stateEndTop`. -/
def stateEndTop (s : Scanner) (c : Char) : Scanned :=
  if isSpace c then s.goto .endTop .end else none

/-- `stateEndValue`. -/
def stateEndValue (s : Scanner) (c : Char) : Scanned :=
  match s.parseState with
  | [] => s.stateEndTop c
  | parse :: outer =>
    if isSpace c then s.goto .endValue .skipSpace
    else
      match parse with
      | .objectKey =>
        if c = ':' then
          some (.objectKey, { state := .beginValue, parseState := .objectValue :: outer })
        else none
      | .objectValue =>
        if c = ',' then
          some (.objectValue, { state := .beginString, parseState := .objectKey :: outer })
        else if c = '}' then s.pop .endObject
        else none
      | .arrayValue =>
        if c = ',' then s.goto .beginValue .arrayValue
        else if c = ']' then s.pop .endArray
        else none

/-- `stateBeginValue`. -/
def stateBeginValue (s : Scanner) (c : Char) : Scanned :=
  if isSpace c then some (.skipSpace, s)
  else if c = '{' then s.push .objectKey .beginStringOrEmpty .beginObject
  else if c = '[' then s.push .arrayValue .beginValueOrEmpty .beginArray
  else if c = '"' then s.goto .inString .beginLiteral
  else if c = '-' then s.goto .neg .beginLiteral
  else if c = '0' then s.goto .zero .beginLiteral
  else if c = 't' then s.goto (.word ['r', 'u', 'e']) .beginLiteral
  else if c = 'f' then s.goto (.word ['a', 'l', 's', 'e']) .beginLiteral
  else if c = 'n' then s.goto (.word ['u', 'l', 'l']) .beginLiteral
  else if isDigit c then s.goto .int .beginLiteral
  else none

/-- `stateBeginString`. -/
def stateBeginString (s : Scanner) (c : Char) : Scanned :=
  if isSpace c then some (.skipSpace, s)
  else if c = '"' then s.goto .inString .beginLiteral
  else none

/-- `state0`: after the integer part of a number. -/
def state0 (s : Scanner) (c : Char) : Scanned :=
  if c = '.' then s.goto .dot .continue
  else if c = 'e' ∨ c = 'E' then s.goto .exponent .continue
  else s.stateEndValue c

def step (s : Scanner) (c : Char) : Scanned :=
  match s.state with
  | .beginValue => s.stateBeginValue c
  | .beginValueOrEmpty =>
    if isSpace c then some (.skipSpace, s)
    else if c = ']' then s.stateEndValue c
    else s.stateBeginValue c
  | .beginString => s.stateBeginString c
  | .beginStringOrEmpty =>
    if isSpace c then some (.skipSpace, s)
    else if c = '}' then
      { s with parseState := .objectValue :: s.parseState.tail }.stateEndValue c
    else s.stateBeginString c
  | .endValue => s.stateEndValue c
  | .endTop => s.stateEndTop c
  | .inString =>
    if c = '"' then s.goto .endValue .continue
    else if c = '\\' then s.goto .inStringEsc .continue
    else if c.toNat < 0x20 then none
    else some (.continue, s)
  | .inStringEsc =>
    if c ∈ ['b', 'f', 'n', 'r', 't', '\\', '/', '"'] then s.goto .inString .continue
    else if c = 'u' then s.goto (.inStringEscU 3) .continue
    else none
  | .inStringEscU left =>
    if isHex c then
      match left with
      | 0 => s.goto .inString .continue
      | more + 1 => s.goto (.inStringEscU more) .continue
    else none
  | .neg =>
    if c = '0' then s.goto .zero .continue
    else if isDigit c then s.goto .int .continue
    else none
  | .int => if isDigit c then some (.continue, s) else s.state0 c
  | .zero => s.state0 c
  | .dot => if isDigit c then s.goto .fraction .continue else none
  | .fraction =>
    if isDigit c then some (.continue, s)
    else if c = 'e' ∨ c = 'E' then s.goto .exponent .continue
    else s.stateEndValue c
  | .exponent =>
    if c = '+' ∨ c = '-' then s.goto .exponentSign .continue
    else if isDigit c then s.goto .exponentDigits .continue
    else none
  | .exponentSign => if isDigit c then s.goto .exponentDigits .continue else none
  | .exponentDigits => if isDigit c then some (.continue, s) else s.stateEndValue c
  | .word [] => s.stateEndValue c
  | .word [last] => if c = last then s.goto .endValue .continue else none
  | .word (next :: rest) => if c = next then s.goto (.word rest) .continue else none

/-- `eof`: whether the text may end here. -/
def eof (s : Scanner) : Bool :=
  s.state = .endTop ||
    match s.step ' ' with
    | some (_, after) => after.state = .endTop
    | none => false

/-- The opcodes of a text, each with its character. -/
def scan (s : Scanner) : List Char → Option (List (Opcode × Char) × Scanner)
  | [] => some ([], s)
  | c :: rest => do
    let (opcode, s) ← s.step c
    let (later, s) ← s.scan rest
    pure ((opcode, c) :: later, s)

end Scanner

/-- The opcodes of a valid text: `checkValid`. -/
def tokens (text : String) : Option (List (Opcode × Char)) :=
  match ({} : Scanner).scan text.toList with
  | some (scanned, s) => if s.eof then some scanned else none
  | none => none

/-- `json.Valid`. -/
def valid (text : String) : Bool := (tokens text).isSome

/-! ### Writing -/

/-- Four hexadecimal digits of a code unit. -/
def hex4 (n : ℕ) : List Char :=
  [Nat.digitChar (n / 4096 % 16), Nat.digitChar (n / 256 % 16), Nat.digitChar (n / 16 % 16),
    Nat.digitChar (n % 16)]

def escapeU (c : Char) : List Char := '\\' :: 'u' :: hex4 c.toNat

/-- The characters that are escaped for HTML and JavaScript. -/
def escapesHTML (c : Char) : Bool :=
  c == '<' || c == '>' || c == '&' || c.toNat == 0x2028 || c.toNat == 0x2029

/-- `json.Compact` with HTML escaping, on a valid text. -/
def compact (text : String) : String :=
  String.ofList (((tokens text).getD []).flatMap fun (opcode, c) =>
    if opcode = .skipSpace ∨ opcode = .end then [] else if escapesHTML c then escapeU c else [c])

/-- A character of an encoded string. -/
def encodeChar (c : Char) : List Char :=
  if c = '"' ∨ c = '\\' then ['\\', c]
  else if c.toNat = 8 then ['\\', 'b']
  else if c.toNat = 12 then ['\\', 'f']
  else if c = '\n' then ['\\', 'n']
  else if c = '\r' then ['\\', 'r']
  else if c = '\t' then ['\\', 't']
  else if c.toNat < 0x20 ∨ escapesHTML c then escapeU c
  else [c]

/-- `json.Marshal` of a string. -/
def marshalString (text : String) : String :=
  String.ofList ('"' :: text.toList.flatMap encodeChar ++ ['"'])

/-- An object of members that are JSON already. -/
def object (members : List (String × String)) : String :=
  "\x7b" ++ String.intercalate "," (members.map fun (key, value) =>
    marshalString key ++ ":" ++ value) ++ "\x7d"

/-- `json.Marshal` of a map of raw messages, whose keys are sorted. -/
def marshalMap (map : List (String × String)) : String :=
  object ((map.insertionSort fun a b => a.1 ≤ b.1).map fun (key, raw) => (key, compact raw))

/-! ### Reading -/

/-- The innermost of the open frames takes the value that is complete now. -/
def intoInnermost {F V : Type} (take : F → V → F) (value : Option V) (frames : List F) : List F :=
  match value, frames with
  | some v, frame :: outer => take frame v :: outer
  | _, frames => frames

def hexValue (c : Char) : ℕ :=
  if isDigit c then c.toNat - '0'.toNat
  else if 'a' ≤ c ∧ c ≤ 'f' then c.toNat - 'a'.toNat + 10
  else c.toNat - 'A'.toNat + 10

def codeUnit (digits : List Char) : ℕ := digits.foldl (fun n c => 16 * n + hexValue c) 0

/-- The code points of a string literal after its first quote, surrogates apart. -/
def unescape : List Char → List ℕ
  | '\\' :: 'u' :: a :: b :: c :: d :: rest => codeUnit [a, b, c, d] :: unescape rest
  | '\\' :: 'b' :: rest => 8 :: unescape rest
  | '\\' :: 'f' :: rest => 12 :: unescape rest
  | '\\' :: 'n' :: rest => '\n'.toNat :: unescape rest
  | '\\' :: 'r' :: rest => '\r'.toNat :: unescape rest
  | '\\' :: 't' :: rest => '\t'.toNat :: unescape rest
  | '\\' :: c :: rest => c.toNat :: unescape rest
  | '"' :: _ => []
  | c :: rest => c.toNat :: unescape rest
  | [] => []

/-- A code point on its own: a surrogate is replaced. -/
def rune (point : ℕ) : Char :=
  if 0xd800 ≤ point ∧ point < 0xe000 then Char.ofNat 0xfffd else Char.ofNat point

/-- The text of code points, with each pair of surrogates joined. -/
def joinSurrogates : List ℕ → List Char
  | high :: low :: rest =>
    if (0xd800 ≤ high ∧ high < 0xdc00) ∧ 0xdc00 ≤ low ∧ low < 0xe000 then
      Char.ofNat (0x10000 + (high - 0xd800) * 0x400 + (low - 0xdc00)) :: joinSurrogates rest
    else rune high :: joinSurrogates (low :: rest)
  | [point] => [rune point]
  | [] => []

/-- The text of a string literal. -/
def unquote (literal : List Char) : String :=
  String.ofList (joinSurrogates (unescape literal.tail))

/-- The members of an object read so far: the current key's literal and, after its colon, the
value's text. -/
structure Members where
  depth : ℕ := 0
  key : List Char := []
  value : Option (List Char) := none
  read : List (String × String) := []

namespace Members

/-- A key that is read again replaces the earlier value. -/
def finish (m : Members) : Members :=
  match m.value with
  | none => m
  | some text =>
    let key := unquote m.key
    { m with
      key := []
      value := none
      read := m.read.filter (fun member => member.1 ≠ key) ++ [(key, String.ofList text)] }

def put (m : Members) (c : Char) : Members :=
  match m.value with
  | none => { m with key := m.key ++ [c] }
  | some text => { m with value := some (text ++ [c]) }

def next (m : Members) : Opcode × Char → Members
  | (.beginObject, c) | (.beginArray, c) =>
    if m.depth = 0 then { m with depth := 1 } else { m.put c with depth := m.depth + 1 }
  | (.endObject, c) | (.endArray, c) =>
    if m.depth = 1 then { m.finish with depth := 0 } else { m.put c with depth := m.depth - 1 }
  | (.objectKey, c) => if m.depth = 1 then { m with value := some [] } else m.put c
  | (.objectValue, c) => if m.depth = 1 then m.finish else m.put c
  | (.skipSpace, c) => if 1 < m.depth then m.put c else m
  | (.end, _) => m
  | (_, c) => m.put c

end Members

/-- `json.Unmarshal` into a map of raw messages; `null` leaves it empty, and no other value fits. -/
def unmarshalMap (text : String) : Option (List (String × String)) :=
  match tokens text with
  | none => none
  | some scanned =>
    match scanned.dropWhile fun token => token.1 = .skipSpace with
    | (.beginObject, _) :: _ => some (scanned.foldl Members.next {}).read
    | (_, 'n') :: _ => some []
    | _ => none

/-- `json.Unmarshal` into a string; `null` leaves it empty, and no other value fits. -/
def unmarshalString (text : String) : Option String :=
  match tokens text with
  | none => none
  | some scanned =>
    match scanned.dropWhile fun token => token.1 = .skipSpace with
    | (_, '"') :: later => some (unquote ('"' :: later.map Prod.snd))
    | (_, 'n') :: _ => some ""
    | _ => none

end Sub2api.Go.Json
