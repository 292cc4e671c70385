import Mathlib.Data.List.Basic

/-!
# The EventStream decoder

`Decode` reads frames from a byte stream until one of them is a chunk or an error. A slice whose
bounds are not inside is a panic, here `none`. The reader only ends, with `io.EOF`; other read
errors are left out.
-/

namespace Sub2api.Bedrock

/-- `b[lo:hi]`. -/
def slice (b : List UInt8) (lo hi : ℕ) : Option (List UInt8) :=
  if lo ≤ hi ∧ hi ≤ b.length then some ((b.drop lo).take (hi - lo)) else none

def ascii (s : String) : List UInt8 := s.toList.map fun ch => UInt8.ofNat ch.toNat

/-! ### Checksums -/

def crc32Bit (crc : BitVec 32) : BitVec 32 :=
  if crc.getLsbD 0 then (crc >>> 1) ^^^ 0xEDB88320#32 else crc >>> 1

def crc32Byte (crc : BitVec 32) (b : UInt8) : BitVec 32 :=
  Nat.repeat crc32Bit 8 (crc ^^^ BitVec.ofNat 32 b.toNat)

/-- `crc32.Checksum` with the IEEE table. -/
def checksum (bytes : List UInt8) : ℕ := (~~~ bytes.foldl crc32Byte 0xFFFFFFFF#32).toNat

def bedrockReadUint32 : List UInt8 → ℕ
  | a :: b :: c :: d :: _ => a.toNat * 16777216 + b.toNat * 65536 + c.toNat * 256 + d.toNat
  | _ => 0

def bedrockReadUint16 : List UInt8 → ℕ
  | a :: b :: _ => a.toNat * 256 + b.toNat
  | _ => 0

/-! ### Headers -/

/-- What a step over one header comes to. -/
inductive Scan where
  | found (value : List UInt8)
  | next (pos : ℕ)

/-- The value of a header from its type on. -/
def scanValue (headers targetName name : List UInt8) (valueType pos : ℕ) : Option Scan :=
  match valueType with
  | 7 =>
    if pos + 2 > headers.length then some (.found [])
    else do
      let valueLen := bedrockReadUint16 (← slice headers pos (pos + 2))
      let pos := pos + 2
      if pos + valueLen > headers.length then some (.found [])
      else
        let value ← slice headers pos (pos + valueLen)
        if name = targetName then some (.found value) else some (.next (pos + valueLen))
  | 0 => if name = targetName then some (.found (ascii "true")) else some (.next pos)
  | 1 => if name = targetName then some (.found (ascii "false")) else some (.next pos)
  | 2 => if name = targetName then some (.found []) else some (.next (pos + 1))
  | 3 => if name = targetName then some (.found []) else some (.next (pos + 2))
  | 4 => if name = targetName then some (.found []) else some (.next (pos + 4))
  | 5 => if name = targetName then some (.found []) else some (.next (pos + 8))
  | 6 =>
    if pos + 2 > headers.length then some (.found [])
    else do
      let valueLen := bedrockReadUint16 (← slice headers pos (pos + 2))
      some (.next (pos + (2 + valueLen)))
  | 8 => some (.next (pos + 8))
  | 9 => some (.next (pos + 16))
  | _ => some (.found [])

/-- One round of the loop over the headers. -/
def scanHeader (headers targetName : List UInt8) (pos : ℕ) : Option Scan := do
  let nameLen ← (headers[pos]?).map (·.toNat)
  let pos := pos + 1
  if pos + nameLen > headers.length then some (.found [])
  else
    let name ← slice headers pos (pos + nameLen)
    let pos := pos + nameLen
    if pos ≥ headers.length then some (.found [])
    else
      let valueType ← (headers[pos]?).map (·.toNat)
      scanValue headers targetName name valueType (pos + 1)

theorem scanValue_forward {headers targetName name : List UInt8} {valueType pos next : ℕ}
    (scanned : scanValue headers targetName name valueType pos = some (.next next)) :
    pos ≤ next := by
  unfold scanValue at scanned
  -- A header that is found is no next position, and a header that is passed has its length.
  have passed : ∀ {value : List UInt8} {after : ℕ}, pos ≤ after →
      (if name = targetName then some (Scan.found value) else some (.next after)) =
        some (.next next) → pos ≤ next := by
    intro value after forward same
    split at same
    · cases same
    · cases same
      exact forward
  split at scanned
  · split at scanned
    · cases scanned
    · obtain ⟨raw, -, scanned⟩ := Option.bind_eq_some_iff.mp scanned
      dsimp only at scanned
      split at scanned
      · cases scanned
      · obtain ⟨value, -, scanned⟩ := Option.bind_eq_some_iff.mp scanned
        exact passed (by omega) scanned
  · exact passed (by omega) scanned
  · exact passed (by omega) scanned
  · exact passed (by omega) scanned
  · exact passed (by omega) scanned
  · exact passed (by omega) scanned
  · exact passed (by omega) scanned
  · split at scanned
    · cases scanned
    · obtain ⟨raw, -, scanned⟩ := Option.bind_eq_some_iff.mp scanned
      cases scanned
      omega
  · cases scanned
    omega
  · cases scanned
    omega
  · cases scanned

theorem scanHeader_forward {headers targetName : List UInt8} {pos next : ℕ}
    (scanned : scanHeader headers targetName pos = some (.next next)) : pos < next := by
  unfold scanHeader at scanned
  obtain ⟨nameLen, -, scanned⟩ := Option.bind_eq_some_iff.mp scanned
  dsimp only at scanned
  split at scanned
  · cases scanned
  · obtain ⟨name, -, scanned⟩ := Option.bind_eq_some_iff.mp scanned
    split at scanned
    · cases scanned
    · obtain ⟨valueType, -, scanned⟩ := Option.bind_eq_some_iff.mp scanned
      have := scanValue_forward scanned
      omega

/-- The loop of `extractEventStreamHeaderValue`. -/
def extractFrom (headers targetName : List UInt8) (pos : ℕ) : Option (List UInt8) :=
  if _inside : pos < headers.length then
    match _scanned : scanHeader headers targetName pos with
    | none => none
    | some (.found value) => some value
    | some (.next next) => extractFrom headers targetName next
  else some []
termination_by headers.length - pos
decreasing_by
  have := scanHeader_forward _scanned
  omega

def extractEventStreamHeaderValue (headers : List UInt8) (targetName : String) :
    Option (List UInt8) :=
  extractFrom headers (ascii targetName) 0

/-! ### Frames -/

inductive DecodeError where
  /-- `io.EOF`. -/
  | eof
  /-- `io.ErrUnexpectedEOF`. -/
  | unexpectedEOF
  | preludeCRC
  | totalLength (totalLength : ℕ)
  | messageCRC
  | exception (exceptionType payload : List UInt8)
  | error (payload : List UInt8)
  deriving DecidableEq

/-- `io.ReadFull`, and what is left to read. -/
def readFull (n : ℕ) (stream : List UInt8) : Except DecodeError (List UInt8) × List UInt8 :=
  if n ≤ stream.length then (.ok (stream.take n), stream.drop n)
  else (.error (if stream = [] then .eof else .unexpectedEOF), [])

/-- What follows the prelude of a frame whose lengths and checksums were looked at. -/
structure RawFrame where
  headersLength : ℕ
  data : List UInt8
  deriving DecidableEq

/-- One frame of the stream. -/
def readFrame (stream : List UInt8) : Except DecodeError RawFrame × List UInt8 :=
  match readFull 12 stream with
  | (.error err, rest) => (.error err, rest)
  | (.ok prelude, rest) =>
    if checksum (prelude.take 8) ≠ bedrockReadUint32 (prelude.drop 8) then
      (.error .preludeCRC, rest)
    else
      let totalLength := bedrockReadUint32 (prelude.take 4)
      let headersLength := bedrockReadUint32 ((prelude.drop 4).take 4)
      if totalLength < 16 then (.error (.totalLength totalLength), rest)
      else
        match readFull (totalLength - 12) rest with
        | (.error err, rest) => (.error err, rest)
        | (.ok data, rest) =>
          if checksum (prelude ++ data.take (data.length - 4)) ≠
              bedrockReadUint32 (data.drop (data.length - 4)) then
            (.error .messageCRC, rest)
          else (.ok { headersLength, data }, rest)

/-- What a call of `Decode` comes to. -/
inductive Decoded where
  | payload (payload : List UInt8)
  | failed (err : DecodeError)
  | panicked

/-- The result that a frame with these headers gives, if it gives one. -/
def frameResult (headers payload : List UInt8) : Option (Option Decoded) := do
  let eventType ← extractEventStreamHeaderValue headers ":event-type"
  if eventType = ascii "chunk" then return some (.payload payload)
  let exceptionType ← extractEventStreamHeaderValue headers ":exception-type"
  if exceptionType ≠ [] then return some (.failed (.exception exceptionType payload))
  let messageType ← extractEventStreamHeaderValue headers ":message-type"
  if messageType = ascii "exception" ∨ messageType = ascii "error" then
    return some (.failed (.error payload))
  return none

/-- The end of a round of `Decode`. -/
def RawFrame.result (frame : RawFrame) : Option (Option Decoded) := do
  let headers ← slice frame.data 0 frame.headersLength
  let payload ← slice frame.data frame.headersLength (frame.data.length - 4)
  frameResult headers payload

theorem readFull_shorter {n : ℕ} {stream data rest : List UInt8}
    (read : readFull n stream = (.ok data, rest)) : rest.length + n = stream.length := by
  unfold readFull at read
  split at read
  · rename_i enough
    obtain ⟨-, rfl⟩ := Prod.mk.inj read
    rw [List.length_drop]
    omega
  · cases read

theorem readFrame_shorter {stream rest : List UInt8} {frame : RawFrame}
    (read : readFrame stream = (.ok frame, rest)) : rest.length < stream.length := by
  unfold readFrame at read
  cases first : readFull 12 stream with
  | mk prelude after =>
    rw [first] at read
    cases prelude with
    | error err => cases read
    | ok prelude =>
      have length := readFull_shorter first
      dsimp only at read
      split at read
      · cases read
      · split at read
        · cases read
        · generalize bedrockReadUint32 (prelude.take 4) - 12 = n at read
          cases second : readFull n after with
          | mk data after' =>
            rw [second] at read
            cases data with
            | error err => cases read
            | ok data =>
              have length' := readFull_shorter second
              dsimp only at read
              split at read
              · cases read
              · obtain ⟨-, rfl⟩ := Prod.mk.inj read
                omega

/-- `Decode`, and what is left to read. -/
def decode (stream : List UInt8) : Decoded × List UInt8 :=
  match _read : readFrame stream with
  | (.error err, rest) => (.failed err, rest)
  | (.ok frame, rest) =>
    match frame.result with
    | none => (.panicked, rest)
    | some (some result) => (result, rest)
    | some none => decode rest
termination_by stream.length
decreasing_by exact readFrame_shorter _read

end Sub2api.Bedrock

/-!
### Frames

What the bytes of a frame stand for: headers of ten types, a payload and two checksums. A frame with
its bounds is a value whose bytes are determined, so that every frame here is well formed.
-/

namespace Sub2api.Bedrock

/-! ### Numbers -/

def uint16 (n : ℕ) : List UInt8 := [UInt8.ofNat (n / 256), UInt8.ofNat n]

def uint32 (n : ℕ) : List UInt8 :=
  [UInt8.ofNat (n / 16777216), UInt8.ofNat (n / 65536), UInt8.ofNat (n / 256), UInt8.ofNat n]

theorem read_uint16 {n : ℕ} (small : n < 65536) : bedrockReadUint16 (uint16 n) = n := by
  simp only [uint16, bedrockReadUint16, UInt8.toNat_ofNat']
  omega

theorem read_uint32 {n : ℕ} (small : n < 4294967296) : bedrockReadUint32 (uint32 n) = n := by
  simp only [uint32, bedrockReadUint32, UInt8.toNat_ofNat']
  omega

theorem checksum_lt (bytes : List UInt8) : checksum bytes < 4294967296 := BitVec.isLt _

/-! ### Headers -/

abbrev Exactly (n : ℕ) := { bytes : List UInt8 // bytes.length = n }

abbrev AtMost (n : ℕ) := { bytes : List UInt8 // bytes.length ≤ n }

inductive HeaderValue where
  | boolTrue
  | boolFalse
  | byte (value : Exactly 1)
  | short (value : Exactly 2)
  | int (value : Exactly 4)
  | long (value : Exactly 8)
  | bytes (value : AtMost 65535)
  | string (value : AtMost 65535)
  | timestamp (value : Exactly 8)
  | uuid (value : Exactly 16)

namespace HeaderValue

def tag : HeaderValue → ℕ
  | boolTrue => 0
  | boolFalse => 1
  | byte _ => 2
  | short _ => 3
  | int _ => 4
  | long _ => 5
  | bytes _ => 6
  | string _ => 7
  | timestamp _ => 8
  | uuid _ => 9

def body : HeaderValue → List UInt8
  | boolTrue | boolFalse => []
  | byte value => value.1
  | short value => value.1
  | int value => value.1
  | long value => value.1
  | bytes value => uint16 value.1.length ++ value.1
  | string value => uint16 value.1.length ++ value.1
  | timestamp value => value.1
  | uuid value => value.1

/-- What a header can be asked for: numbers have no text, and byte arrays, timestamps and uuids are
never asked. -/
def text? : HeaderValue → Option (List UInt8)
  | boolTrue => some (ascii "true")
  | boolFalse => some (ascii "false")
  | string value => some value.1
  | byte _ | short _ | int _ | long _ => some []
  | bytes _ | timestamp _ | uuid _ => none

end HeaderValue

structure Header where
  name : AtMost 255
  value : HeaderValue

def Header.encode (h : Header) : List UInt8 :=
  UInt8.ofNat h.name.1.length :: (h.name.1 ++ UInt8.ofNat h.value.tag :: h.value.body)

def encodeHeaders (headers : List Header) : List UInt8 := headers.flatMap Header.encode

/-- The text of the first header of a name that can be asked. -/
def textOf (headers : List Header) (name : List UInt8) : List UInt8 :=
  ((headers.filter fun h => h.name.1 = name).findSome? fun h => h.value.text?).getD []

/-! ### Frames -/

structure Frame where
  headers : List Header
  payload : List UInt8
  fits : 16 + (encodeHeaders headers).length + payload.length < 4294967296

namespace Frame

variable (f : Frame)

def totalLength : ℕ := 16 + (encodeHeaders f.headers).length + f.payload.length

/-- The two lengths. -/
def lengths : List UInt8 := uint32 f.totalLength ++ uint32 (encodeHeaders f.headers).length

def prelude : List UInt8 := f.lengths ++ uint32 (checksum f.lengths)

/-- What the checksum of the message is taken of. -/
def message : List UInt8 := f.prelude ++ (encodeHeaders f.headers ++ f.payload)

def encode : List UInt8 := f.message ++ uint32 (checksum f.message)

def IsChunk : Prop := textOf f.headers (ascii ":event-type") = ascii "chunk"

instance : Decidable f.IsChunk := by
  unfold IsChunk
  infer_instance

/-- What a frame gives to the caller; an event of another type gives nothing. -/
def outcome : Option Decoded :=
  if f.IsChunk then some (.payload f.payload)
  else if textOf f.headers (ascii ":exception-type") ≠ [] then
    some (.failed (.exception (textOf f.headers (ascii ":exception-type")) f.payload))
  else if textOf f.headers (ascii ":message-type") = ascii "exception" ∨
      textOf f.headers (ascii ":message-type") = ascii "error" then
    some (.failed (.error f.payload))
  else none

end Frame

end Sub2api.Bedrock
