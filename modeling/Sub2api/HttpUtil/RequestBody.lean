import Sub2api.Go.Strings
import Sub2api.HttpUtil.LenientBody
import Sub2api.Readers.Reader

/-!
# Reading request bodies

`ReadRequestBodyWithPrealloc` reads a body in chunks, puts them together and decodes them. The chunks
lose nothing. The decoders are read through a limit of 64 MiB, and a decoded body that goes beyond it
is cut there without an error: `readRequestBody_whole_iff`.

The decoders are `Environment.newReader`: a codec takes or refuses a body, and gives a reader of the
decoded stream, which ends with an error where the body is not well formed.
-/

namespace Sub2api.HttpUtil

open Readers

/-! ### The source -/

def requestBodyReadInitCap : ℕ := 512

def requestBodyReadMaxInitCap : ℕ := 2 ^ 20

inductive Codec where
  | zstd
  | gzip
  | zlib

/-- The decoders, `strings.ToLower`, and how the buffer of `io.ReadAll` grows. -/
structure Environment (ε : Type) where
  newReader : Codec → List UInt8 → Except ε (Reader UInt8 ε)
  toLower : String → String
  spare : ℕ → ℕ

inductive DecodeError (ε : Type) where
  | unsupportedContentEncoding
  | decoder (e : ε)

inductive BodyError (ε : Type) where
  | read (e : ε)
  | decodeContentEncoding (encoding : String) (cause : DecodeError ε)

/-- The body of a request: none, one that was read before, or a stream. -/
inductive Body (ε : Type) where
  | none
  | preread (body : List UInt8)
  | stream (reader : Reader UInt8 ε)

/-- The headers are empty when they are missing. -/
structure Request (ε : Type) where
  body : Body ε
  contentLength : ℤ
  contentEncodingHeader : String
  contentLengthHeader : String

variable {ε : Type}

/-- The size of the next chunk: one more than what is announced, to see the end of the stream. -/
def chunkCapacity (contentLength : ℤ) (total capacity : ℕ) : ℕ :=
  let remaining := contentLength - total
  if remaining ≥ 0 ∧ remaining < capacity then remaining.toNat + 1 else capacity

def nextCapacity (capacity : ℕ) : ℕ :=
  if capacity < requestBodyReadMaxInitCap then
    if capacity * 2 > requestBodyReadMaxInitCap then requestBodyReadMaxInitCap else capacity * 2
  else capacity

/-- The chunks are copied one after the other into a buffer of `total` bytes. -/
def assemble (chunks : List (List UInt8)) (total : ℕ) : List UInt8 :=
  match chunks with
  | [] => []
  | [chunk] => chunk
  | chunks => (chunks.flatten ++ List.replicate total 0).take total

theorem chunkCapacity_pos (contentLength : ℤ) (total : ℕ) {capacity : ℕ} (positive : 0 < capacity) :
    0 < chunkCapacity contentLength total capacity := by
  unfold chunkCapacity
  dsimp only
  split
  · exact Nat.succ_pos _
  · exact positive

theorem nextCapacity_pos {capacity : ℕ} (positive : 0 < capacity) : 0 < nextCapacity capacity := by
  unfold nextCapacity requestBodyReadMaxInitCap
  split
  · split <;> omega
  · exact positive

def addChunk (chunks : List (List UInt8)) (chunk : List UInt8) : List (List UInt8) :=
  if chunk.isEmpty then chunks else chunks ++ [chunk]

/-- The loop. -/
def readRequestBodyChunks (contentLength : ℤ) (reader : Reader UInt8 ε) (capacity total : ℕ)
    (chunks : List (List UInt8)) (positive : 0 < capacity) : Except ε (List UInt8) :=
  let size := chunkCapacity contentLength total capacity
  match _more : (fill reader size).ended with
  | some (.failed e) => .error e
  | some .eof =>
      .ok (assemble (addChunk chunks (fill reader size).data)
        (total + (fill reader size).data.length))
  | none =>
      readRequestBodyChunks contentLength (fill reader size).rest (nextCapacity capacity)
        (total + (fill reader size).data.length) (addChunk chunks (fill reader size).data)
        (nextCapacity_pos positive)
termination_by reader.remaining
decreasing_by
  exact (fill_took reader _).progress (chunkCapacity_pos contentLength total positive) _more

def codecOf : String → Option Codec
  | "zstd" => some .zstd
  | "gzip" => some .gzip
  | "x-gzip" => some .gzip
  | "deflate" => some .zlib
  | _ => none

def decompressRequestBody (env : Environment ε) (encoding : String) (raw : List UInt8) :
    Except (DecodeError ε) (List UInt8) :=
  match codecOf encoding with
  | none => .error .unsupportedContentEncoding
  | some codec =>
      match env.newReader codec raw with
      | .error e => .error (.decoder e)
      | .ok dec =>
          match readAll env.spare dec maxDecompressedBodySize.toNat 0 with
          | (decoded, .eof) => .ok decoded
          | (_, .failed e) => .error (.decoder e)

/-- The first capacity. -/
def capHint (contentLength : ℤ) : ℕ :=
  if contentLength > 0 then
    if contentLength < requestBodyReadInitCap then requestBodyReadInitCap
    else if contentLength > requestBodyReadMaxInitCap then requestBodyReadMaxInitCap
    else contentLength.toNat
  else requestBodyReadInitCap

theorem capHint_pos (contentLength : ℤ) : 0 < capHint contentLength := by
  unfold capHint requestBodyReadInitCap requestBodyReadMaxInitCap
  split
  · split
    · exact Nat.succ_pos _
    · split <;> omega
  · exact Nat.succ_pos _

/-- The encoding a request names. -/
def contentEncoding (env : Environment ε) (req : Request ε) : String :=
  env.toLower (Go.trimSpace req.contentEncodingHeader)

/-- The body, and the request with its headers after it. -/
def readRequestBodyWithPrealloc (env : Environment ε) (req : Request ε) :
    Except (BodyError ε) (List UInt8) × Request ε :=
  match req.body with
  | .none => (.ok [], req)
  | .preread body => (.ok body, req)
  | .stream reader =>
      match readRequestBodyChunks req.contentLength reader (capHint req.contentLength) 0 []
          (capHint_pos req.contentLength) with
      | .error e => (.error (.read e), req)
      | .ok raw =>
          let enc := contentEncoding env req
          if enc = "" ∨ enc = "identity" then (.ok raw, req)
          else
            match decompressRequestBody env enc raw with
            | .error cause => (.error (.decodeContentEncoding enc cause), req)
            | .ok decoded =>
                (.ok decoded, { req with
                  contentEncodingHeader := ""
                  contentLengthHeader := ""
                  contentLength := decoded.length })

/-! ### Chunks -/

theorem flatten_addChunk (chunks : List (List UInt8)) (chunk : List UInt8) :
    (addChunk chunks chunk).flatten = chunks.flatten ++ chunk := by
  unfold addChunk
  split
  · rename_i none_
    rw [List.isEmpty_iff.mp none_, List.append_nil]
  · rw [List.flatten_concat]

/-- The buffer has room for the chunks, and for nothing else. -/
theorem assemble_eq {chunks : List (List UInt8)} {total : ℕ} (size : total = chunks.flatten.length) :
    assemble chunks total = chunks.flatten := by
  unfold assemble
  split
  · rfl
  · rw [List.flatten_singleton]
  · rw [size, List.take_left]

/-- The whole of a stream that ends properly is read, and the error of another. -/
theorem readRequestBodyChunks_eq (contentLength : ℤ) (reader : Reader UInt8 ε) (capacity total : ℕ)
    (chunks : List (List UInt8)) (positive : 0 < capacity) (size : total = chunks.flatten.length) :
    readRequestBodyChunks contentLength reader capacity total chunks positive =
      match reader.ending with
      | .eof => .ok (chunks.flatten ++ reader.content)
      | .failed e => .error e := by
  induction count : reader.remaining using Nat.strong_induction_on
    generalizing reader capacity total chunks with
  | _ count ih =>
      have took := fill_took reader (chunkCapacity contentLength total capacity)
      have some_ := chunkCapacity_pos contentLength total positive
      have total' : total + (fill reader (chunkCapacity contentLength total capacity)).data.length =
          (addChunk chunks
            (fill reader (chunkCapacity contentLength total capacity)).data).flatten.length := by
        rw [flatten_addChunk, List.length_append, size]
      rw [readRequestBodyChunks]
      split
      · rename_i e ended
        rw [← (took.ended _ ended).1]
      · rename_i ended
        obtain ⟨ending, all⟩ := took.ended _ ended
        have data := took.data
        rw [all, List.append_nil] at data
        rw [← ending, assemble_eq total', flatten_addChunk, data]
      · rename_i more
        have fewer := took.progress some_ more
        rw [ih _ (by omega) _ _ _ _ _ total' rfl, took.ending, flatten_addChunk, List.append_assoc,
          took.data]

/-! ### Whole bodies -/

/-- What a stream's body is: its bytes, decoded when an encoding is named. -/
def IsBody (env : Environment ε) (encoding : String) (reader : Reader UInt8 ε) (bytes : List UInt8) :
    Prop :=
  reader.ending = .eof ∧
    if encoding = "" ∨ encoding = "identity" then bytes = reader.content
    else ∃ codec dec, codecOf encoding = some codec ∧ env.newReader codec reader.content = .ok dec ∧
      dec.ending = .eof ∧ bytes = dec.content

/-- The result is an error or the whole body. -/
def WholeOrError (env : Environment ε) (req : Request ε)
    (result : Except (BodyError ε) (List UInt8)) : Prop :=
  ∀ bytes, result = .ok bytes →
    match req.body with
    | .none => bytes = []
    | .preread body => bytes = body
    | .stream reader => IsBody env (contentEncoding env req) reader bytes

/-- Where the encoding has a decoder that takes the body, the decoded stream is at its end within the
limit. -/
def DecodesWithin (env : Environment ε) (req : Request ε) : Prop :=
  ∀ reader codec dec, req.body = .stream reader → reader.ending = .eof →
    codecOf (contentEncoding env req) = some codec → env.newReader codec reader.content = .ok dec →
      Within dec maxDecompressedBodySize.toNat

theorem limit_pos : 0 < maxDecompressedBodySize.toNat := by
  unfold maxDecompressedBodySize
  omega

/-- What the decoder's stream becomes. -/
theorem decompressRequestBody_eq {env : Environment ε} {encoding : String} {raw : List UInt8}
    {codec : Codec} {dec : Reader UInt8 ε} (supported : codecOf encoding = some codec)
    (taken : env.newReader codec raw = .ok dec) :
    (Within dec maxDecompressedBodySize.toNat → decompressRequestBody env encoding raw =
      match dec.ending with
      | .eof => .ok dec.content
      | .failed e => .error (.decoder e)) ∧
    (¬Within dec maxDecompressedBodySize.toNat → decompressRequestBody env encoding raw =
      .ok (dec.content.take maxDecompressedBodySize.toNat)) := by
  obtain ⟨whole, cut⟩ := readAll_eq env.spare dec maxDecompressedBodySize.toNat 0 limit_pos
  unfold decompressRequestBody
  rw [supported]
  dsimp only
  rw [taken]
  dsimp only
  constructor
  · intro inside
    rw [whole inside]
    cases dec.ending <;> rfl
  · intro outside
    rw [cut outside]

theorem decompressRequestBody_ok {env : Environment ε} {encoding : String} {raw decoded : List UInt8}
    (made : decompressRequestBody env encoding raw = .ok decoded) :
    ∃ codec dec, codecOf encoding = some codec ∧ env.newReader codec raw = .ok dec := by
  unfold decompressRequestBody at made
  split at made
  · cases made
  · rename_i codec supported
    split at made
    · cases made
    · rename_i dec taken
      exact ⟨codec, dec, supported, taken⟩

theorem codecOf_identity {encoding : String} {codec : Codec} (supported : codecOf encoding = some codec) :
    ¬(encoding = "" ∨ encoding = "identity") := by
  rintro (rfl | rfl) <;> cases supported

section Stream

variable {env : Environment ε} {req : Request ε} {reader : Reader UInt8 ε}

/-- A stream that ends properly is decoded when an encoding is named. -/
theorem readRequestBody_stream (body : req.body = .stream reader) (ending : reader.ending = .eof) :
    (readRequestBodyWithPrealloc env req).1 =
      if contentEncoding env req = "" ∨ contentEncoding env req = "identity" then .ok reader.content
      else
        match decompressRequestBody env (contentEncoding env req) reader.content with
        | .error cause => .error (.decodeContentEncoding (contentEncoding env req) cause)
        | .ok decoded => .ok decoded := by
  have chunks := readRequestBodyChunks_eq req.contentLength reader (capHint req.contentLength) 0 []
    (capHint_pos _) rfl
  rw [ending] at chunks
  unfold readRequestBodyWithPrealloc
  rw [body]
  dsimp only
  rw [chunks]
  dsimp only [List.flatten_nil, List.nil_append]
  split
  · rfl
  · cases decompressRequestBody env (contentEncoding env req) reader.content with
    | error cause => rfl
    | ok decoded => rfl

theorem readRequestBody_failed {e : ε} (body : req.body = .stream reader)
    (ending : reader.ending = .failed e) :
    (readRequestBodyWithPrealloc env req).1 = .error (.read e) := by
  have chunks := readRequestBodyChunks_eq req.contentLength reader (capHint req.contentLength) 0 []
    (capHint_pos _) rfl
  rw [ending] at chunks
  unfold readRequestBodyWithPrealloc
  rw [body]
  dsimp only
  rw [chunks]

theorem whole_of_within (body : req.body = .stream reader) (within : DecodesWithin env req)
    {bytes : List UInt8} (result : (readRequestBodyWithPrealloc env req).1 = .ok bytes) :
    IsBody env (contentEncoding env req) reader bytes := by
  cases ending : reader.ending with
  | failed e =>
      rw [readRequestBody_failed body ending] at result
      cases result
  | eof =>
      rw [readRequestBody_stream body ending] at result
      refine ⟨ending, ?_⟩
      split at result
      · rename_i plain
        rw [if_pos plain]
        cases result
        rfl
      · rename_i named
        rw [if_neg named]
        cases decoded : decompressRequestBody env (contentEncoding env req) reader.content with
        | error cause =>
            rw [decoded] at result
            cases result
        | ok bytes' =>
            rw [decoded] at result
            cases result
            obtain ⟨codec, dec, supported, taken⟩ := decompressRequestBody_ok decoded
            have inside := within reader codec dec body ending supported taken
            rw [(decompressRequestBody_eq supported taken).1 inside] at decoded
            refine ⟨codec, dec, supported, taken, ?_⟩
            cases ends : dec.ending with
            | failed e =>
                rw [ends] at decoded
                cases decoded
            | eof =>
                rw [ends] at decoded
                cases decoded
                exact ⟨rfl, rfl⟩

/-- A decoded stream that is not at its end within the limit is cut there. -/
theorem within_of_whole (body : req.body = .stream reader) (ending : reader.ending = .eof)
    {codec : Codec} {dec : Reader UInt8 ε} (supported : codecOf (contentEncoding env req) =
      some codec)
    (taken : env.newReader codec reader.content = .ok dec)
    (whole : WholeOrError env req (readRequestBodyWithPrealloc env req).1) :
    Within dec maxDecompressedBodySize.toNat := by
  by_contra outside
  have named := codecOf_identity supported
  have result : (readRequestBodyWithPrealloc env req).1 = _ := readRequestBody_stream body ending
  rw [if_neg named, (decompressRequestBody_eq supported taken).2 outside] at result
  have spec := whole _ result
  rw [body] at spec
  dsimp only at spec
  obtain ⟨_, spec⟩ := spec
  rw [if_neg named] at spec
  obtain ⟨codec', dec', supported', taken', ends, cut⟩ := spec
  rw [supported] at supported'
  cases supported'
  rw [taken] at taken'
  cases taken'
  apply outside
  unfold Within
  rw [ends]
  have length := congrArg List.length cut
  rw [List.length_take] at length
  dsimp only
  omega

end Stream

/-- **When a body is read whole or not at all.** -/
theorem readRequestBody_whole_iff (env : Environment ε) (req : Request ε) :
    WholeOrError env req (readRequestBodyWithPrealloc env req).1 ↔ DecodesWithin env req := by
  constructor
  · intro whole reader codec dec body ending supported taken
    exact within_of_whole body ending supported taken whole
  · intro within bytes result
    cases body : req.body with
    | none =>
        unfold readRequestBodyWithPrealloc at result
        rw [body] at result
        cases result
        rfl
    | preread read =>
        unfold readRequestBodyWithPrealloc at result
        rw [body] at result
        cases result
        rfl
    | stream reader => exact whole_of_within body within result

namespace Sample

/-- A zstd frame of one zero more than the limit: 512 blocks that repeat a zero 128 KiB times, and a
last block with one more. -/
def zerosFrame : List UInt8 :=
  [0x28, 0xb5, 0x2f, 0xfd, 0x00, 0x38] ++
    (List.replicate 512 [0x02, 0x00, 0x10, 0x00]).flatten ++ [0x0b, 0x00, 0x00, 0x00]

def zeros : List UInt8 := List.replicate (64 * 2 ^ 20 + 1) 0

/-- Of the decoders, what they make of the frame. -/
def environment : Environment Unit where
  newReader codec body :=
    match codec with
    | .zstd => if body = zerosFrame then .ok ⟨zeros, .eof, false, []⟩ else .error ()
    | _ => .error ()
  toLower := id
  spare _ := 511

def zstdRequest : Request Unit where
  body := .stream ⟨zerosFrame, .eof, false, []⟩
  contentLength := 2058
  contentEncodingHeader := "zstd"
  contentLengthHeader := "2058"

end Sample

/-- A body of one byte more than the limit is cut without an error. -/
theorem decoded_body_cut : ¬WholeOrError Sample.environment Sample.zstdRequest
    (readRequestBodyWithPrealloc Sample.environment Sample.zstdRequest).1 := by
  intro whole
  have encoding : contentEncoding Sample.environment Sample.zstdRequest = "zstd" := by
    decide +kernel
  have taken : ∀ frame, frame = Sample.zerosFrame → Sample.environment.newReader .zstd frame =
      .ok ⟨Sample.zeros, .eof, false, []⟩ := fun _ same => if_pos same
  have inside := within_of_whole rfl rfl (by rw [encoding]; rfl) (taken _ rfl) whole
  have length := inside.length_le
  rw [Sample.zeros, List.length_replicate] at length
  unfold maxDecompressedBodySize at length
  omega

end Sub2api.HttpUtil
