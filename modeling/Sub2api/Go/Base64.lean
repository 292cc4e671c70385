import Sub2api.Go.Strings

/-!
# Bytes as text

`base64.RawStdEncoding` and the reading of bytes as UTF-8. What `EncodeToString` makes of a text's
bytes decodes to these bytes, and they read as the text.
-/

namespace Sub2api.Go

/-- The value of a digit of the standard alphabet. -/
def base64Value (c : Char) : Option ℕ :=
  if 'A' ≤ c ∧ c ≤ 'Z' then some (c.toNat - 65)
  else if 'a' ≤ c ∧ c ≤ 'z' then some (c.toNat - 71)
  else if '0' ≤ c ∧ c ≤ '9' then some (c.toNat + 4)
  else if c = '+' then some 62
  else if c = '/' then some 63
  else none

/-- The bytes of the values of digits; the bits left over by the last digit are not looked at. -/
def base64Bytes : List ℕ → Option (List ℕ)
  | a :: b :: c :: d :: rest => do
    let later ← base64Bytes rest
    some ((a * 4 + b / 16) :: (b % 16 * 16 + c / 4) :: (c % 4 * 64 + d) :: later)
  | [a, b, c] => some [a * 4 + b / 16, b % 16 * 16 + c / 4]
  | [a, b] => some [a * 4 + b / 16]
  | [_] => none
  | [] => some []

/-- `base64.RawStdEncoding.DecodeString`, which passes over line breaks. -/
def base64Decode (text : String) : Option (List ℕ) := do
  let values ← (text.toList.filter fun c => c ≠ '\r' ∧ c ≠ '\n').mapM base64Value
  base64Bytes values

/-- The runes of bytes, after so many that belong to the rune before: each byte at which no rune
starts stands for the replacement character. -/
def runesAfter : ℕ → List UInt8 → List Char
  | _, [] => []
  | left + 1, _ :: rest => runesAfter left rest
  | 0, b :: rest =>
    match (b :: rest).toByteArray.utf8DecodeChar? 0 with
    | some c => c :: runesAfter (c.utf8Size - 1) rest
    | none => Char.ofNat 0xfffd :: runesAfter 0 rest

/-- Bytes read as a text. -/
def textOf (bytes : List ℕ) : String := String.ofList (runesAfter 0 (bytes.map UInt8.ofNat))

/-- The bytes of a text. -/
def bytesOf (text : String) : List ℕ := text.toUTF8.toList.map UInt8.toNat

/-! ### Round trips -/

private theorem base64Value_digit_table :
    ∀ n < 64, base64Value (base64Digit n) = some n ∧ base64Digit n ≠ '\r' ∧ base64Digit n ≠ '\n' := by
  decide +kernel

theorem base64Value_digit {n : ℕ} (small : n < 64) : base64Value (base64Digit n) = some n :=
  (base64Value_digit_table n small).1

/-- The values of the digits that encode bytes. -/
def base64Values : List ℕ → List ℕ
  | a :: b :: c :: rest =>
    a / 4 :: (a % 4 * 16 + b / 16) :: (b % 16 * 4 + c / 64) :: c % 64 :: base64Values rest
  | [a, b] => [a / 4, a % 4 * 16 + b / 16, b % 16 * 4]
  | [a] => [a / 4, a % 4 * 16]
  | [] => []

theorem base64Encode_eq (bytes : List ℕ) :
    base64Encode bytes = (base64Values bytes).map base64Digit := by
  fun_induction base64Encode bytes with
  | case1 a b c rest ih => simp [base64Values, ih]
  | case2 a b => rfl
  | case3 a => rfl
  | case4 => rfl

theorem base64Values_small {bytes : List ℕ} (byte : ∀ b ∈ bytes, b < 256) :
    ∀ n ∈ base64Values bytes, n < 64 := by
  fun_induction base64Values bytes with
  | case1 a b c rest ih =>
    simp only [List.mem_cons, forall_eq_or_imp] at byte ⊢
    obtain ⟨ha, hb, hc, later⟩ := byte
    exact ⟨by omega, by omega, by omega, by omega, ih later⟩
  | case2 a b =>
    simp only [List.mem_cons, List.not_mem_nil, or_false, forall_eq_or_imp, forall_eq] at byte ⊢
    omega
  | case3 a =>
    simp only [List.mem_cons, List.not_mem_nil, or_false, forall_eq_or_imp, forall_eq] at byte ⊢
    omega
  | case4 => simp

theorem base64Bytes_values {bytes : List ℕ} (byte : ∀ b ∈ bytes, b < 256) :
    base64Bytes (base64Values bytes) = some bytes := by
  fun_induction base64Values bytes with
  | case1 a b c rest ih =>
    simp only [List.mem_cons, forall_eq_or_imp] at byte
    obtain ⟨ha, hb, hc, later⟩ := byte
    have first : a / 4 * 4 + (a % 4 * 16 + b / 16) / 16 = a := by omega
    have second : (a % 4 * 16 + b / 16) % 16 * 16 + (b % 16 * 4 + c / 64) / 4 = b := by omega
    have third : (b % 16 * 4 + c / 64) % 4 * 64 + c % 64 = c := by omega
    simp only [base64Bytes, ih later, first, second, third, Option.bind_eq_bind,
      Option.bind_some]
  | case2 a b =>
    simp only [List.mem_cons, List.not_mem_nil, or_false, forall_eq_or_imp, forall_eq] at byte
    have first : a / 4 * 4 + (a % 4 * 16 + b / 16) / 16 = a := by omega
    have second : (a % 4 * 16 + b / 16) % 16 * 16 + b % 16 * 4 / 4 = b := by omega
    simp only [base64Bytes, first, second]
  | case3 a =>
    simp only [List.mem_cons, List.not_mem_nil, or_false, forall_eq] at byte
    have first : a / 4 * 4 + a % 4 * 16 / 16 = a := by omega
    simp only [base64Bytes, first]
  | case4 => rfl

private theorem mapM_base64Value {values : List ℕ} (small : ∀ n ∈ values, n < 64) :
    (values.map base64Digit).mapM base64Value = some values := by
  induction values with
  | nil => rfl
  | cons n rest ih =>
    have first := base64Value_digit (small n (by simp))
    have later := ih fun m member => small m (by simp [member])
    simp [List.mapM_cons, first, later]

/-- Decoding takes encoded bytes back. -/
theorem base64Decode_encode {bytes : List ℕ} (byte : ∀ b ∈ bytes, b < 256) :
    base64Decode (String.ofList (base64Encode bytes)) = some bytes := by
  have small := base64Values_small byte
  have kept : (base64Encode bytes).filter (fun c => c ≠ '\r' ∧ c ≠ '\n') = base64Encode bytes := by
    rw [List.filter_eq_self, base64Encode_eq]
    intro c member
    obtain ⟨n, inside, rfl⟩ := List.mem_map.mp member
    simpa using (base64Value_digit_table n (small n inside)).2
  unfold base64Decode
  rw [String.toList_ofList, kept, base64Encode_eq, mapM_base64Value small]
  exact base64Bytes_values byte

theorem bytesOf_small (text : String) : ∀ b ∈ bytesOf text, b < 256 := by
  intro b member
  obtain ⟨byte, _, rfl⟩ := List.mem_map.mp member
  exact byte.toNat_lt

private theorem runesAfter_drop (skipped later : List UInt8) :
    runesAfter skipped.length (skipped ++ later) = runesAfter 0 later := by
  induction skipped with
  | nil => rfl
  | cons b rest ih => exact ih

/-- A rune is read off the front of its bytes. -/
theorem runesAfter_encodeChar (c : Char) (later : List UInt8) :
    runesAfter 0 (String.utf8EncodeChar c ++ later) = c :: runesAfter 0 later := by
  have decoded : (String.utf8EncodeChar c ++ later).toByteArray.utf8DecodeChar? 0 = some c := by
    rw [List.toByteArray_append]
    exact ByteArray.utf8DecodeChar?_utf8EncodeChar_append
  have width := String.length_utf8EncodeChar c
  generalize String.utf8EncodeChar c = encoded at decoded width ⊢
  cases encoded with
  | nil => exact absurd width (by simpa using (Char.utf8Size_pos c).ne)
  | cons b rest =>
    have left : c.utf8Size - 1 = rest.length := by simp at width; omega
    simp only [List.cons_append] at decoded ⊢
    rw [runesAfter, decoded]
    simp only [left]
    rw [runesAfter_drop]

theorem runesAfter_encode (text : List Char) :
    runesAfter 0 (text.flatMap String.utf8EncodeChar) = text := by
  induction text with
  | nil => rfl
  | cons c rest ih => rw [List.flatMap_cons, runesAfter_encodeChar, ih]

private theorem toList_loop (bytes : ByteArray) (i : ℕ) (read : List UInt8) :
    ByteArray.toList.loop bytes i read = read.reverse ++ bytes.data.toList.drop i := by
  fun_induction ByteArray.toList.loop bytes i read with
  | case1 i read inside ih =>
    have next : bytes.data.toList.drop i = bytes.get! i :: bytes.data.toList.drop (i + 1) := by
      have bound : i < bytes.data.toList.length := by simpa using inside
      have here : bytes.get! i = bytes.data.toList[i] := by
        simp only [ByteArray.get!, Array.getElem_toList]
        exact getElem!_pos bytes.data i inside
      rw [List.drop_eq_getElem_cons bound, here]
    rw [ih, next]
    simp
  | case2 i read outside =>
    have past : bytes.data.toList.drop i = [] := by
      apply List.drop_eq_nil_of_le
      simpa using not_lt.mp outside
    rw [past, List.append_nil]

/-- The bytes of a text read as the text. -/
theorem textOf_bytesOf (text : String) : textOf (bytesOf text) = text := by
  have bytes : text.toUTF8.toList = text.toList.flatMap String.utf8EncodeChar := by
    rw [ByteArray.toList, toList_loop, String.toUTF8_eq_toByteArray, ← String.utf8Encode_toList,
      List.utf8Encode, List.toList_data_toByteArray]
    rfl
  unfold textOf bytesOf
  rw [List.map_map, show UInt8.ofNat ∘ UInt8.toNat = id from funext fun b => by simp, List.map_id,
    bytes, runesAfter_encode, String.ofList_toList]

end Sub2api.Go
