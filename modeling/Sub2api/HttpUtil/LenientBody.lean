import Sub2api.Go.JsonControls

/-!
# Lenient request bodies

`NormalizeLenientJSONRequestBody` escapes the raw control bytes of strings. Where none of them
follows a backslash the result is JSON exactly when the body is so in the lenient grammar, with the
same value. A control byte that follows a backslash gives a second backslash instead, and the text
of the escape after it.
-/

namespace Sub2api.HttpUtil

open Go.JsonBytes

/-! ### The source -/

def maxDecompressedBodySize : ℤ := 64 * 2 ^ 20

/-- `http.MaxBytesError`. -/
structure MaxBytesError where
  limit : ℤ
  deriving DecidableEq

def trimUTF8BOM : List UInt8 → List UInt8
  | 0xef :: 0xbb :: 0xbf :: rest => rest
  | body => body

/-- The loop: the body before the next byte, the output once there is one, and the two flags. -/
def normalizeLoop (limit : ℤ) :
    List UInt8 → Option (List UInt8) → Flags → List UInt8 → Except MaxBytesError (Option (List UInt8))
  | _, out, _, [] => .ok out
  | seen, out, f, b :: rest =>
    if f.inString ∧ isControl b then
      let out := out.getD seen
      if limit < out.length + 6 then .error ⟨limit⟩
      else
        normalizeLoop limit (seen ++ [b]) (some (out ++ unicodeEscape b)) { f with escaped := false }
          rest
    else
      match out with
      | none => normalizeLoop limit (seen ++ [b]) none (f.next b) rest
      | some out =>
        if limit < out.length + 1 then .error ⟨limit⟩
        else normalizeLoop limit (seen ++ [b]) (some (out ++ [b])) (f.next b) rest

/-- The limit that a call works with. -/
def effectiveLimit (maxNormalizedBytes : ℤ) : ℤ :=
  if maxNormalizedBytes ≤ 0 then maxDecompressedBodySize else maxNormalizedBytes

def normalizeLenientJSONRequestBody (body : List UInt8) (maxNormalizedBytes : ℤ) :
    Except MaxBytesError (List UInt8) :=
  let limit := effectiveLimit maxNormalizedBytes
  let body := trimUTF8BOM body
  if body.length = 0 then .ok body
  else if limit < body.length then .error ⟨limit⟩
  else (normalizeLoop limit [] none {} body).map fun out => out.getD body

/-! ### The loop escapes the control bytes -/

/-- What is put out after a part of the body, once there is an output. -/
theorem normalizeLoop_some (limit : ℤ) (seen out : List UInt8) (f : Flags) (rest : List UInt8)
    (fits : out.length ≤ limit) :
    normalizeLoop limit seen (some out) f rest =
      if limit < (out ++ escapeControls f rest).length then .error ⟨limit⟩
      else .ok (some (out ++ escapeControls f rest)) := by
  induction rest generalizing seen out f with
  | nil =>
      rw [escapeControls, List.append_nil, if_neg (not_lt.mpr fits)]
      rfl
  | cons b rest ih =>
      rw [normalizeLoop, escapeControls]
      split
      · have six : (unicodeEscape b).length = 6 := rfl
        dsimp only [Option.getD_some]
        by_cases beyond : limit < out.length + 6
        · rw [if_pos beyond, if_pos]
          rw [List.length_append, List.length_append, six]
          omega
        · rw [if_neg beyond, ih _ _ _ (by rw [List.length_append, six]; omega), List.append_assoc]
      · by_cases beyond : limit < out.length + 1
        · rw [if_pos beyond, if_pos]
          rw [List.length_append, List.length_cons]
          omega
        · rw [if_neg beyond, ih _ _ _ (by rw [List.length_append, List.length_singleton]; omega),
            List.append_assoc, List.singleton_append]

theorem normalizeLoop_none (limit : ℤ) (seen : List UInt8) (f : Flags) (rest : List UInt8)
    (fits : ((seen ++ rest).length : ℤ) ≤ limit) :
    (normalizeLoop limit seen none f rest).map (fun out => out.getD (seen ++ rest)) =
      if limit < (seen ++ escapeControls f rest).length then .error ⟨limit⟩
      else .ok (seen ++ escapeControls f rest) := by
  induction rest generalizing seen f with
  | nil =>
      rw [escapeControls, if_neg (not_lt.mpr fits)]
      rfl
  | cons b rest ih =>
      rw [normalizeLoop, escapeControls]
      split
      · have six : (unicodeEscape b).length = 6 := rfl
        dsimp only [Option.getD_none]
        by_cases beyond : limit < seen.length + 6
        · rw [if_pos beyond, if_pos]
          · rfl
          · rw [List.length_append, List.length_append, six]
            omega
        · rw [if_neg beyond, normalizeLoop_some _ _ _ _ _ (by rw [List.length_append, six]; omega),
            List.append_assoc]
          split
          · rfl
          · rfl
      · have next := ih (seen ++ [b]) (f.next b) (by simpa using fits)
        simpa using next

/-- The body within the limit, with its control bytes escaped. -/
theorem normalize_eq (body : List UInt8) (maxNormalizedBytes : ℤ) :
    normalizeLenientJSONRequestBody body maxNormalizedBytes =
      if effectiveLimit maxNormalizedBytes < (escapeControls {} (trimUTF8BOM body)).length then
        .error ⟨effectiveLimit maxNormalizedBytes⟩
      else .ok (escapeControls {} (trimUTF8BOM body)) := by
  unfold normalizeLenientJSONRequestBody
  dsimp only
  have positive : 0 < effectiveLimit maxNormalizedBytes := by
    unfold effectiveLimit maxDecompressedBodySize
    split <;> omega
  generalize trimUTF8BOM body = text
  split
  · rename_i empty
    rw [List.length_eq_zero_iff] at empty
    rw [empty]
    exact (if_neg (not_lt.mpr positive.le)).symm
  · have longer := length_escapeControls {} text
    split
    · rename_i beyond
      rw [if_pos (by omega)]
    · rename_i room
      exact normalizeLoop_none _ [] {} text (not_lt.mp room)

theorem normalize_ok_iff {body result : List UInt8} {maxNormalizedBytes : ℤ} :
    normalizeLenientJSONRequestBody body maxNormalizedBytes = .ok result ↔
      ((escapeControls {} (trimUTF8BOM body)).length : ℤ) ≤ effectiveLimit maxNormalizedBytes ∧
        result = escapeControls {} (trimUTF8BOM body) := by
  rw [normalize_eq]
  split
  · rename_i beyond
    constructor
    · intro same
      cases same
    · rintro ⟨within, -⟩
      exact absurd beyond (not_lt.mpr within)
  · rename_i room
    constructor
    · intro same
      cases same
      exact ⟨not_lt.mp room, rfl⟩
    · rintro ⟨-, rfl⟩
      rfl

/-! ### The byte order mark -/

def utf8BOM : List UInt8 := [0xef, 0xbb, 0xbf]

theorem trimUTF8BOM_of_unmarked {body : List UInt8} (none_ : ¬utf8BOM <+: body) :
    trimUTF8BOM body = body := by
  unfold trimUTF8BOM
  split
  · rename_i rest
    exact absurd (List.prefix_append utf8BOM rest) none_
  · rfl

/-- Before its first string a text is left as it is. -/
theorem escapeControls_outside {b : UInt8} (quote : b ≠ 0x22) (rest : List UInt8) :
    escapeControls {} (b :: rest) = b :: escapeControls {} rest := by
  have still : Flags.next {} b = {} := by simp [Flags.next, quote]
  rw [escapeControls, if_neg fun both => Bool.false_ne_true both.1, still]

theorem cons_prefix_escapeControls {b : UInt8} (quote : b ≠ 0x22) {start text : List UInt8} :
    b :: start <+: escapeControls {} text ↔
      ∃ rest, text = b :: rest ∧ start <+: escapeControls {} rest := by
  constructor
  · intro begins
    cases text with
    | nil => exact absurd begins (by simp [escapeControls])
    | cons first rest =>
        rw [escapeControls, if_neg fun both => Bool.false_ne_true both.1,
          List.cons_prefix_cons] at begins
        obtain ⟨same, later⟩ := begins
        have still : Flags.next {} first = {} := by simp [Flags.next, ← same, quote]
        rw [still] at later
        exact ⟨rest, by rw [same], later⟩
  · rintro ⟨rest, rfl, begins⟩
    rw [escapeControls_outside quote]
    exact List.cons_prefix_cons.mpr ⟨rfl, begins⟩

theorem escapeControls_marked (rest : List UInt8) :
    escapeControls {} (utf8BOM ++ rest) = utf8BOM ++ escapeControls {} rest := by
  simp only [utf8BOM, List.cons_append, List.nil_append]
  rw [escapeControls_outside (by decide), escapeControls_outside (by decide),
    escapeControls_outside (by decide)]

theorem utf8BOM_prefix_iff {text : List UInt8} :
    utf8BOM <+: escapeControls {} text ↔ utf8BOM <+: text := by
  constructor
  · intro begins
    obtain ⟨_, first, begins₁⟩ := (cons_prefix_escapeControls (by decide)).mp begins
    obtain ⟨_, second, begins₂⟩ := (cons_prefix_escapeControls (by decide)).mp begins₁
    obtain ⟨rest, third, -⟩ := (cons_prefix_escapeControls (by decide)).mp begins₂
    rw [first, second, third]
    exact List.prefix_append utf8BOM rest
  · rintro ⟨rest, rfl⟩
    refine ⟨escapeControls {} rest, ?_⟩
    exact (escapeControls_marked rest).symm

/-! ### What a repair promises -/

/-- A body's value stays, and a body that is no JSON becomes so exactly when the lenient grammar
reads it, with the value it has there; the limit holds; and normalising again changes nothing. -/
structure Faithful (body : List UInt8) (maxNormalizedBytes : ℤ) : Prop where
  same_value : ∀ result v, normalizeLenientJSONRequestBody body maxNormalizedBytes = .ok result →
    decode .strict (trimUTF8BOM body) = some v → decode .strict result = some v
  lenient_value : ∀ result, normalizeLenientJSONRequestBody body maxNormalizedBytes = .ok result →
    decode .strict result = decode .lenient (trimUTF8BOM body)
  within_limit : ∀ result, normalizeLenientJSONRequestBody body maxNormalizedBytes = .ok result →
    (result.length : ℤ) ≤ effectiveLimit maxNormalizedBytes
  error_iff : (∃ e, normalizeLenientJSONRequestBody body maxNormalizedBytes = .error e) ↔
    effectiveLimit maxNormalizedBytes <
      (trimUTF8BOM body).length + 5 * controls {} (trimUTF8BOM body)
  again : ∀ result, normalizeLenientJSONRequestBody body maxNormalizedBytes = .ok result →
    normalizeLenientJSONRequestBody result maxNormalizedBytes = .ok result

variable {body result : List UInt8} {maxNormalizedBytes : ℤ}

theorem decode_normalized
    (done : normalizeLenientJSONRequestBody body maxNormalizedBytes = .ok result) :
    decode .strict result = decode .lax (trimUTF8BOM body) := by
  rw [(normalize_ok_iff.mp done).2, decode_escapeControls]

theorem same_value {v : Value}
    (done : normalizeLenientJSONRequestBody body maxNormalizedBytes = .ok result)
    (strict : decode .strict (trimUTF8BOM body) = some v) : decode .strict result = some v := by
  have lenient := decode_lenient_of_strict strict
  rw [decode_lenient] at lenient
  rw [decode_normalized done]
  split at lenient
  · cases lenient
  · exact lenient

theorem error_iff : (∃ e, normalizeLenientJSONRequestBody body maxNormalizedBytes = .error e) ↔
    effectiveLimit maxNormalizedBytes <
      (trimUTF8BOM body).length + 5 * controls {} (trimUTF8BOM body) := by
  have length := length_escapeControls {} (trimUTF8BOM body)
  rw [normalize_eq]
  split
  · exact iff_of_true ⟨_, rfl⟩ (by omega)
  · refine iff_of_false ?_ (by omega)
    rintro ⟨e, same⟩
    cases same

theorem again_iff (done : normalizeLenientJSONRequestBody body maxNormalizedBytes = .ok result) :
    normalizeLenientJSONRequestBody result maxNormalizedBytes = .ok result ↔
      ¬utf8BOM <+: trimUTF8BOM body := by
  obtain ⟨within, rfl⟩ := normalize_ok_iff.mp done
  rw [normalize_ok_iff, ← utf8BOM_prefix_iff]
  constructor
  · rintro ⟨-, same⟩ ⟨rest, marked⟩
    have settled := escapeControls_idem {} (trimUTF8BOM body)
    rw [← marked, escapeControls_marked] at settled
    rw [← marked] at same
    have shorter : utf8BOM ++ rest = escapeControls {} rest := same
    rw [List.append_cancel_left settled] at shorter
    have lengths := congrArg List.length shorter
    rw [List.length_append] at lengths
    exact absurd lengths (by simp [utf8BOM])
  · intro unmarked
    rw [trimUTF8BOM_of_unmarked unmarked, escapeControls_idem]
    exact ⟨within, rfl⟩

/-- **When the repair changes nothing but control bytes.** It does so exactly when it is refused for
its length, or no control byte of a string follows a backslash in a body that would be JSON with it,
and the body without its byte order mark does not begin with another one. -/
theorem faithful_iff (body : List UInt8) (maxNormalizedBytes : ℤ) :
    Faithful body maxNormalizedBytes ↔
      effectiveLimit maxNormalizedBytes <
          (trimUTF8BOM body).length + 5 * controls {} (trimUTF8BOM body) ∨
        (escapedControl {} (trimUTF8BOM body) = false ∨ decode .lax (trimUTF8BOM body) = none) ∧
          ¬utf8BOM <+: trimUTF8BOM body := by
  constructor
  · intro faithful
    by_cases beyond : effectiveLimit maxNormalizedBytes <
        (trimUTF8BOM body).length + 5 * controls {} (trimUTF8BOM body)
    · exact Or.inl beyond
    · right
      obtain ⟨result, done⟩ : ∃ result,
          normalizeLenientJSONRequestBody body maxNormalizedBytes = .ok result := by
        cases answer : normalizeLenientJSONRequestBody body maxNormalizedBytes with
        | ok result => exact ⟨result, rfl⟩
        | error e => exact absurd (error_iff.mp ⟨e, answer⟩) beyond
      refine ⟨?_, (again_iff done).mp (faithful.again result done)⟩
      have same := faithful.lenient_value result done
      rw [decode_normalized done, decode_lenient] at same
      cases escaped : escapedControl {} (trimUTF8BOM body) with
      | false => exact Or.inl rfl
      | true =>
          rw [escaped, if_pos rfl] at same
          exact Or.inr same
  · intro condition
    have room : ∀ {result}, normalizeLenientJSONRequestBody body maxNormalizedBytes = .ok result →
        (escapedControl {} (trimUTF8BOM body) = false ∨ decode .lax (trimUTF8BOM body) = none) ∧
          ¬utf8BOM <+: trimUTF8BOM body := by
      intro result done
      rcases condition with beyond | rest
      · obtain ⟨e, failed⟩ := error_iff.mpr beyond
        rw [failed] at done
        cases done
      · exact rest
    constructor
    · exact fun result v done => same_value done
    · intro result done
      rw [decode_normalized done, decode_lenient]
      split
      · rename_i escaped
        exact (room done).1.resolve_left (by rw [escaped]; decide)
      · rfl
    · intro result done
      rw [(normalize_ok_iff.mp done).2]
      exact (normalize_ok_iff.mp done).1
    · exact error_iff
    · exact fun result done => (again_iff done).mpr (room done).2

namespace Sample

/-- A string of a backslash and a null byte. -/
def escapedNull : List UInt8 := [0x22, 0x5c, 0x00, 0x22]

/-- The string that it becomes: an escaped backslash and five characters. -/
def repaired : List UInt8 := [0x22, 0x5c, 0x5c, 0x75, 0x30, 0x30, 0x30, 0x30, 0x22]

end Sample

/-- The broken escape becomes a valid string. -/
theorem not_faithful_escapedNull : ¬Faithful Sample.escapedNull 1024 := by
  intro faithful
  have done : normalizeLenientJSONRequestBody Sample.escapedNull 1024 = .ok Sample.repaired := by
    decide +kernel
  have same := faithful.lenient_value _ done
  have valid : (decode .strict Sample.repaired).isSome = true := by decide +kernel
  have invalid : (decode .lenient (trimUTF8BOM Sample.escapedNull)).isSome = false := by
    decide +kernel
  rw [same, invalid] at valid
  cases valid

end Sub2api.HttpUtil
