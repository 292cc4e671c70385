import Sub2api.Bedrock.EventStream

/-!
# What is decoded

A frame is read back from its bytes, whatever follows them. A frame that was read only panics by its
headers length: reading headers stays inside of them.
-/

namespace Sub2api.Bedrock

/-! ### Reading headers -/

section Slices

variable (before part rest : List UInt8)

theorem slice_part :
    slice (before ++ (part ++ rest)) before.length (before.length + part.length) = some part := by
  unfold slice
  rw [if_pos (by simp only [List.length_append]; omega), List.drop_left, Nat.add_sub_cancel_left,
    List.take_left]

theorem getElem?_part (b : UInt8) : (before ++ b :: rest)[before.length]? = some b := by
  rw [List.getElem?_append_right (Nat.le_refl _), Nat.sub_self]
  rfl

end Slices

/-- What passing a header comes to: it is the one that is looked for, or the next one follows. -/
def passed (targetName name : List UInt8) (value : HeaderValue) (next : ℕ) : Scan :=
  if name = targetName then
    match value.text? with
    | some text => .found text
    | none => .next next
  else .next next

theorem scanValue_encode (before rest targetName name : List UInt8) (value : HeaderValue) :
    scanValue (before ++ (value.body ++ rest)) targetName name value.tag before.length =
      some (passed targetName name value (before ++ value.body).length) := by
  have sized : ∀ (bytes : AtMost 65535),
      before ++ ((uint16 bytes.1.length ++ bytes.1) ++ rest) =
        before ++ (uint16 bytes.1.length ++ (bytes.1 ++ rest)) := by simp
  have first : ∀ (bytes : AtMost 65535),
      slice (before ++ (uint16 bytes.1.length ++ (bytes.1 ++ rest))) before.length
        (before.length + 2) = some (uint16 bytes.1.length) := fun bytes => slice_part _ _ _
  have second : ∀ (bytes : AtMost 65535),
      slice (before ++ (uint16 bytes.1.length ++ (bytes.1 ++ rest))) (before.length + 2)
        (before.length + 2 + bytes.1.length) = some bytes.1 := by
    intro bytes
    have found := slice_part (before ++ uint16 bytes.1.length) bytes.1 rest
    rw [List.append_assoc, List.length_append] at found
    exact found
  have short : ∀ (bytes : AtMost 65535), bedrockReadUint16 (uint16 bytes.1.length) =
      bytes.1.length := fun bytes => read_uint16 (Nat.lt_succ_of_le bytes.2)
  have ends : ∀ (bytes : AtMost 65535), (before ++ (uint16 bytes.1.length ++ bytes.1)).length =
      before.length + 2 + bytes.1.length := by
    intro bytes
    rw [List.length_append, List.length_append]
    exact (Nat.add_assoc ..).symm
  unfold passed
  cases value with
  | string bytes =>
    change scanValue (before ++ ((uint16 bytes.1.length ++ bytes.1) ++ rest)) targetName name 7
      before.length = _
    rw [sized]
    simp only [HeaderValue.body, HeaderValue.text?, scanValue]
    rw [if_neg (by simp [uint16]), first]
    simp only [Option.bind_eq_bind, Option.bind_some]
    rw [short, if_neg (by simp [uint16]; omega), second, ends]
    simp [apply_ite some]
  | bytes bytes =>
    change scanValue (before ++ ((uint16 bytes.1.length ++ bytes.1) ++ rest)) targetName name 6
      before.length = _
    rw [sized]
    simp only [HeaderValue.body, HeaderValue.text?, scanValue]
    rw [if_neg (by simp [uint16]), first]
    simp only [Option.bind_eq_bind, Option.bind_some]
    rw [short, ends, ite_self, Nat.add_assoc]
  | boolTrue => simp [HeaderValue.body, HeaderValue.tag, HeaderValue.text?, scanValue, apply_ite some]
  | boolFalse =>
    simp [HeaderValue.body, HeaderValue.tag, HeaderValue.text?, scanValue, apply_ite some]
  | byte v => simp [HeaderValue.body, HeaderValue.tag, HeaderValue.text?, scanValue, v.2, apply_ite some]
  | short v =>
    simp [HeaderValue.body, HeaderValue.tag, HeaderValue.text?, scanValue, v.2, apply_ite some]
  | int v => simp [HeaderValue.body, HeaderValue.tag, HeaderValue.text?, scanValue, v.2, apply_ite some]
  | long v => simp [HeaderValue.body, HeaderValue.tag, HeaderValue.text?, scanValue, v.2, apply_ite some]
  | timestamp v => simp [HeaderValue.body, HeaderValue.tag, HeaderValue.text?, scanValue, v.2]
  | uuid v => simp [HeaderValue.body, HeaderValue.tag, HeaderValue.text?, scanValue, v.2]

theorem scanHeader_encode (before rest targetName : List UInt8) (h : Header) :
    scanHeader (before ++ (h.encode ++ rest)) targetName before.length =
      some (passed targetName h.name.1 h.value (before ++ h.encode).length) := by
  have tag : h.value.tag < 256 := by
    cases h.value <;> simp [HeaderValue.tag]
  have length : (UInt8.ofNat h.name.1.length).toNat = h.name.1.length := by
    rw [UInt8.toNat_ofNat']
    have := h.name.2
    omega
  -- The four parts of the header, each after what is before it.
  have at_ : before ++ (h.encode ++ rest) =
      before ++ UInt8.ofNat h.name.1.length ::
        (h.name.1 ++ (UInt8.ofNat h.value.tag :: (h.value.body ++ rest))) := by
    simp [Header.encode]
  have name_ : before ++ (h.encode ++ rest) =
      (before ++ [UInt8.ofNat h.name.1.length]) ++
        (h.name.1 ++ (UInt8.ofNat h.value.tag :: (h.value.body ++ rest))) := by
    simp [Header.encode]
  have type_ : before ++ (h.encode ++ rest) =
      (before ++ UInt8.ofNat h.name.1.length :: h.name.1) ++
        UInt8.ofNat h.value.tag :: (h.value.body ++ rest) := by
    simp [Header.encode]
  have value_ : before ++ (h.encode ++ rest) =
      (before ++ UInt8.ofNat h.name.1.length :: (h.name.1 ++ [UInt8.ofNat h.value.tag])) ++
        (h.value.body ++ rest) := by
    simp [Header.encode]
  have nameLen : (before ++ (h.encode ++ rest))[before.length]? =
      some (UInt8.ofNat h.name.1.length) := by
    rw [at_]
    exact getElem?_part _ _ _
  have name : slice (before ++ (h.encode ++ rest)) (before.length + 1)
      (before.length + 1 + h.name.1.length) = some h.name.1 := by
    rw [name_]
    have found := slice_part (before ++ [UInt8.ofNat h.name.1.length]) h.name.1
      (UInt8.ofNat h.value.tag :: (h.value.body ++ rest))
    rw [List.length_append] at found
    exact found
  have valueType : (before ++ (h.encode ++ rest))[before.length + 1 + h.name.1.length]? =
      some (UInt8.ofNat h.value.tag) := by
    rw [type_]
    have found := getElem?_part (before ++ UInt8.ofNat h.name.1.length :: h.name.1)
      (h.value.body ++ rest) (UInt8.ofNat h.value.tag)
    rw [List.length_append, List.length_cons, Nat.add_comm h.name.1.length, ← Nat.add_assoc] at found
    exact found
  have inside : before.length + 1 + h.name.1.length < (before ++ (h.encode ++ rest)).length :=
    (List.getElem?_eq_some_iff.mp valueType).1
  have value := scanValue_encode
    (before ++ UInt8.ofNat h.name.1.length :: (h.name.1 ++ [UInt8.ofNat h.value.tag])) rest
    targetName h.name.1 h.value
  rw [← value_] at value
  have start : (before ++ UInt8.ofNat h.name.1.length ::
      (h.name.1 ++ [UInt8.ofNat h.value.tag])).length =
        before.length + 1 + h.name.1.length + 1 := by
    simp only [List.length_append, List.length_cons, List.length_nil]
    omega
  have finish : (before ++ UInt8.ofNat h.name.1.length ::
      (h.name.1 ++ [UInt8.ofNat h.value.tag])) ++ h.value.body = before ++ h.encode := by
    simp [Header.encode]
  rw [start, finish] at value
  unfold scanHeader
  rw [nameLen]
  simp only [Option.map_some, Option.bind_eq_bind, Option.bind_some, length]
  rw [if_neg (by omega), name]
  simp only [Option.bind_some]
  rw [if_neg (by omega), valueType]
  simp only [Option.map_some, Option.bind_some, UInt8.toNat_ofNat', Nat.mod_eq_of_lt tag]
  exact value

/-- The loop over the bytes of headers finds their text. -/
theorem extractFrom_encode (before targetName : List UInt8) (headers : List Header) :
    extractFrom (before ++ encodeHeaders headers) targetName before.length =
      some (textOf headers targetName) := by
  induction headers generalizing before with
  | nil =>
    unfold extractFrom
    rw [dif_neg]
    · rfl
    · rw [encodeHeaders, List.flatMap_nil, List.append_nil]
      exact Nat.lt_irrefl _
  | cons h headers ih =>
    have scanned := scanHeader_encode before (encodeHeaders headers) targetName h
    have all : encodeHeaders (h :: headers) = h.encode ++ encodeHeaders headers :=
      List.flatMap_cons
    have later := ih (before ++ h.encode)
    rw [List.append_assoc] at later
    rw [all]
    unfold extractFrom
    rw [dif_pos (by simp [Header.encode])]
    have skipped : (¬ h.name.1 = targetName ∨ h.value.text? = none) →
        textOf (h :: headers) targetName = textOf headers targetName := by
      intro none_
      unfold textOf
      by_cases same : h.name.1 = targetName
      · rw [List.filter_cons_of_pos (by simpa using same), List.findSome?_cons,
          none_.resolve_left (fun other => other same)]
      · rw [List.filter_cons_of_neg (by simpa using same)]
    split
    · rename_i none_
      rw [scanned] at none_
      cases none_
    · rename_i value found
      rw [scanned, Option.some.injEq] at found
      unfold passed at found
      split at found
      · rename_i same
        split at found
        · rename_i text is
          cases found
          unfold textOf
          rw [List.filter_cons_of_pos (by simpa using same), List.findSome?_cons, is]
          rfl
        · cases found
      · cases found
    · rename_i next found
      rw [scanned, Option.some.injEq] at found
      unfold passed at found
      split at found
      · split at found
        · cases found
        · rename_i none_
          cases found
          rw [later, skipped (Or.inr none_)]
      · rename_i other
        cases found
        rw [later, skipped (Or.inl other)]

theorem extractEventStreamHeaderValue_encode (headers : List Header) (targetName : String) :
    extractEventStreamHeaderValue (encodeHeaders headers) targetName =
      some (textOf headers (ascii targetName)) := extractFrom_encode [] _ headers

/-! ### Reading frames -/

theorem readFull_append {n : ℕ} {part rest : List UInt8} (length : part.length = n) :
    readFull n (part ++ rest) = (.ok part, rest) := by
  subst length
  unfold readFull
  rw [if_pos (by simp), List.take_left, List.drop_left]

theorem readFrame_encode (f : Frame) (rest : List UInt8) :
    readFrame (f.encode ++ rest) =
      (.ok {
        headersLength := (encodeHeaders f.headers).length
        data := encodeHeaders f.headers ++ f.payload ++ uint32 (checksum f.message) }, rest) := by
  have fits := f.fits
  have split_ : f.encode ++ rest = f.prelude ++
      ((encodeHeaders f.headers ++ f.payload ++ uint32 (checksum f.message)) ++ rest) := by
    simp [Frame.encode, Frame.message]
  have lengths : f.lengths.length = 8 := rfl
  have totalLength : bedrockReadUint32 (f.prelude.take 4) = f.totalLength := by
    change bedrockReadUint32 (uint32 f.totalLength) = _
    exact read_uint32 fits
  have headersLength : bedrockReadUint32 ((f.prelude.drop 4).take 4) =
      (encodeHeaders f.headers).length := by
    change bedrockReadUint32 (uint32 (encodeHeaders f.headers).length) = _
    exact read_uint32 (by omega)
  have preludeCRC : checksum (f.prelude.take 8) = bedrockReadUint32 (f.prelude.drop 8) := by
    change checksum f.lengths = bedrockReadUint32 (uint32 (checksum f.lengths))
    exact (read_uint32 (checksum_lt _)).symm
  have length : (encodeHeaders f.headers ++ f.payload ++ uint32 (checksum f.message)).length =
      f.totalLength - 12 := by
    rw [List.length_append, List.length_append, show (uint32 (checksum f.message)).length = 4 from rfl]
    unfold Frame.totalLength
    omega
  have body : (encodeHeaders f.headers ++ f.payload).length =
      (encodeHeaders f.headers ++ f.payload ++ uint32 (checksum f.message)).length - 4 := by
    rw [@List.length_append _ _ (uint32 (checksum f.message))]
    rfl
  have take_ : (encodeHeaders f.headers ++ f.payload ++ uint32 (checksum f.message)).take
      ((encodeHeaders f.headers ++ f.payload ++ uint32 (checksum f.message)).length - 4) =
        encodeHeaders f.headers ++ f.payload := by
    rw [← body, List.take_left]
  have drop_ : (encodeHeaders f.headers ++ f.payload ++ uint32 (checksum f.message)).drop
      ((encodeHeaders f.headers ++ f.payload ++ uint32 (checksum f.message)).length - 4) =
        uint32 (checksum f.message) := by
    rw [← body, List.drop_left]
  rw [split_]
  unfold readFrame
  rw [readFull_append (show f.prelude.length = 12 from rfl)]
  dsimp only
  rw [if_neg (not_not_intro preludeCRC), totalLength, headersLength,
    if_neg (by unfold Frame.totalLength; omega), readFull_append length]
  dsimp only
  rw [take_, drop_, if_neg]
  apply not_not_intro
  change checksum f.message = _
  exact (read_uint32 (checksum_lt _)).symm

theorem frameResult_encode (f : Frame) :
    frameResult (encodeHeaders f.headers) f.payload = some f.outcome := by
  unfold frameResult Frame.outcome
  simp only [extractEventStreamHeaderValue_encode, Option.bind_eq_bind, Option.bind_some]
  by_cases chunk : f.IsChunk
  · have type_ : textOf f.headers (ascii ":event-type") = ascii "chunk" := chunk
    rw [if_pos type_, if_pos chunk]
    rfl
  · have type_ : ¬ textOf f.headers (ascii ":event-type") = ascii "chunk" := chunk
    rw [if_neg type_, if_neg chunk]
    split
    · rfl
    · split <;> rfl

theorem result_encode (f : Frame) (crc : List UInt8) (four : crc.length = 4) :
    RawFrame.result {
      headersLength := (encodeHeaders f.headers).length
      data := encodeHeaders f.headers ++ f.payload ++ crc } = some f.outcome := by
  have headers : slice (encodeHeaders f.headers ++ f.payload ++ crc) 0
      (encodeHeaders f.headers).length = some (encodeHeaders f.headers) := by
    have found := slice_part [] (encodeHeaders f.headers) (f.payload ++ crc)
    rwa [List.nil_append, ← List.append_assoc, List.length_nil, Nat.zero_add] at found
  have payload : slice (encodeHeaders f.headers ++ f.payload ++ crc)
      (encodeHeaders f.headers).length
      ((encodeHeaders f.headers ++ f.payload ++ crc).length - 4) = some f.payload := by
    have found := slice_part (encodeHeaders f.headers) f.payload crc
    rw [List.append_assoc, List.length_append, List.length_append, four,
      show (encodeHeaders f.headers).length + (f.payload.length + 4) - 4 =
        (encodeHeaders f.headers).length + f.payload.length by omega]
    exact found
  unfold RawFrame.result
  dsimp only
  rw [headers, payload]
  exact frameResult_encode f

/-- A frame at the front gives its outcome, or is passed. -/
theorem decode_encode (f : Frame) (rest : List UInt8) :
    decode (f.encode ++ rest) =
      match f.outcome with
      | some result => (result, rest)
      | none => decode rest := by
  have read := readFrame_encode f rest
  have result := result_encode f (uint32 (checksum f.message)) rfl
  rw [decode]
  split
  · rename_i other
    rw [read] at other
    cases other
  · rename_i frame rest' same
    rw [read] at same
    cases same
    rw [result]
    cases f.outcome <;> rfl

end Sub2api.Bedrock
