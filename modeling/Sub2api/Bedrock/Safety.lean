import Sub2api.Bedrock.Decoding

/-!
# The length of the headers

The length of the headers comes with the frame, under both checksums, and is not compared with the
length of the frame. That is the only way to slice outside: the headers themselves are read inside
their bounds, whatever they are.
-/

namespace Sub2api.Bedrock

/-! ### Reading headers stays inside -/

theorem slice_isSome {b : List UInt8} {lo hi : ℕ} :
    (slice b lo hi).isSome ↔ lo ≤ hi ∧ hi ≤ b.length := by
  unfold slice
  split
  · rename_i inside
    exact iff_of_true rfl inside
  · rename_i outside
    exact iff_of_false Bool.false_ne_true outside

theorem scanValue_isSome (headers targetName name : List UInt8) (valueType pos : ℕ) :
    (scanValue headers targetName name valueType pos).isSome := by
  have found : ∀ (value : List UInt8) (next : ℕ),
      (if name = targetName then some (Scan.found value) else some (.next next)).isSome := by
    intro value next
    split <;> rfl
  unfold scanValue
  split
  · split
    · rfl
    · obtain ⟨raw, raw_⟩ := Option.isSome_iff_exists.mp
        (slice_isSome.mpr ⟨by omega, by omega⟩ : (slice headers pos (pos + 2)).isSome)
      rw [raw_]
      simp only [Option.bind_eq_bind, Option.bind_some]
      split
      · rfl
      · rename_i inside
        obtain ⟨value, value_⟩ := Option.isSome_iff_exists.mp
          (slice_isSome.mpr ⟨by omega, by omega⟩ :
            (slice headers (pos + 2) (pos + 2 + bedrockReadUint16 raw)).isSome)
        rw [value_]
        exact found value _
  · exact found _ _
  · exact found _ _
  · exact found _ _
  · exact found _ _
  · exact found _ _
  · exact found _ _
  · split
    · rfl
    · obtain ⟨raw, raw_⟩ := Option.isSome_iff_exists.mp
        (slice_isSome.mpr ⟨by omega, by omega⟩ : (slice headers pos (pos + 2)).isSome)
      rw [raw_]
      rfl
  · rfl
  · rfl
  · rfl

theorem scanHeader_isSome {headers targetName : List UInt8} {pos : ℕ}
    (inside : pos < headers.length) : (scanHeader headers targetName pos).isSome := by
  unfold scanHeader
  rw [List.getElem?_eq_getElem inside]
  simp only [Option.map_some, Option.bind_eq_bind, Option.bind_some]
  split
  · rfl
  · obtain ⟨name, name_⟩ := Option.isSome_iff_exists.mp
      (slice_isSome.mpr ⟨by omega, by omega⟩ :
        (slice headers (pos + 1) (pos + 1 + headers[pos].toNat)).isSome)
    rw [name_]
    simp only [Option.bind_some]
    split
    · rfl
    · rename_i typed
      rw [List.getElem?_eq_getElem (by omega)]
      exact scanValue_isSome ..

theorem extractFrom_isSome (headers targetName : List UInt8) (pos : ℕ) :
    (extractFrom headers targetName pos).isSome := by
  induction left : headers.length - pos using Nat.strongRecOn generalizing pos with
  | ind n ih =>
    unfold extractFrom
    split
    · rename_i inside
      split
      · rename_i none_
        have some_ := @scanHeader_isSome headers targetName pos inside
        rw [none_] at some_
        cases some_
      · rfl
      · rename_i next scanned
        have forward := scanHeader_forward scanned
        exact ih (headers.length - next) (by omega) next rfl
    · rfl

theorem frameResult_isSome (headers payload : List UInt8) : (frameResult headers payload).isSome := by
  have extracted : ∀ name, ∃ value, extractEventStreamHeaderValue headers name = some value :=
    fun name => Option.isSome_iff_exists.mp (extractFrom_isSome headers (ascii name) 0)
  obtain ⟨eventType, eventType_⟩ := extracted ":event-type"
  obtain ⟨exceptionType, exceptionType_⟩ := extracted ":exception-type"
  obtain ⟨messageType, messageType_⟩ := extracted ":message-type"
  unfold frameResult
  rw [eventType_, exceptionType_, messageType_]
  simp only [Option.bind_eq_bind, Option.bind_some]
  split
  · rfl
  · split
    · rfl
    · split <;> rfl

/-! ### The frames of a call -/

/-- The headers end before the checksum does begin. -/
def RawFrame.Fits (frame : RawFrame) : Prop := frame.headersLength ≤ frame.data.length - 4

theorem result_isSome (frame : RawFrame) : frame.result.isSome ↔ frame.Fits := by
  unfold RawFrame.result
  by_cases fits : frame.Fits
  · have fits_ : frame.headersLength ≤ frame.data.length - 4 := fits
    obtain ⟨headers, headers_⟩ := Option.isSome_iff_exists.mp
      (slice_isSome.mpr ⟨by omega, by omega⟩ : (slice frame.data 0 frame.headersLength).isSome)
    obtain ⟨payload, payload_⟩ := Option.isSome_iff_exists.mp
      (slice_isSome.mpr ⟨by omega, by omega⟩ :
        (slice frame.data frame.headersLength (frame.data.length - 4)).isSome)
    rw [headers_, payload_]
    exact iff_of_true (frameResult_isSome headers payload) fits
  · refine iff_of_false ?_ fits
    have outside : slice frame.data frame.headersLength (frame.data.length - 4) = none := by
      unfold slice
      rw [if_neg fun inside => fits inside.1]
    rw [outside]
    cases slice frame.data 0 frame.headersLength <;> simp

/-- A frame that is no chunk, no exception and no error. -/
def RawFrame.Passed (frame : RawFrame) : Prop :=
  let headers := frame.data.take frame.headersLength
  extractEventStreamHeaderValue headers ":event-type" ≠ some (ascii "chunk") ∧
    extractEventStreamHeaderValue headers ":exception-type" = some [] ∧
    extractEventStreamHeaderValue headers ":message-type" ≠ some (ascii "exception") ∧
    extractEventStreamHeaderValue headers ":message-type" ≠ some (ascii "error")

theorem result_passed {frame : RawFrame} (fits : frame.Fits) :
    frame.result = some none ↔ frame.Passed := by
  have fits_ : frame.headersLength ≤ frame.data.length - 4 := fits
  have headers : slice frame.data 0 frame.headersLength =
      some (frame.data.take frame.headersLength) := by
    unfold slice
    rw [if_pos ⟨by omega, by omega⟩]
    rfl
  obtain ⟨payload, payload_⟩ := Option.isSome_iff_exists.mp
    (slice_isSome.mpr ⟨by omega, by omega⟩ :
      (slice frame.data frame.headersLength (frame.data.length - 4)).isSome)
  have extracted : ∀ name, ∃ value,
      extractEventStreamHeaderValue (frame.data.take frame.headersLength) name = some value :=
    fun name => Option.isSome_iff_exists.mp (extractFrom_isSome _ (ascii name) 0)
  obtain ⟨eventType, eventType_⟩ := extracted ":event-type"
  obtain ⟨exceptionType, exceptionType_⟩ := extracted ":exception-type"
  obtain ⟨messageType, messageType_⟩ := extracted ":message-type"
  unfold RawFrame.result RawFrame.Passed frameResult
  rw [headers, payload_]
  simp only [Option.bind_eq_bind, Option.bind_some, eventType_, exceptionType_, messageType_,
    Option.some.injEq, ne_eq]
  split
  · rename_i chunk
    exact iff_of_false nofun fun passed => passed.1 chunk
  · rename_i other
    split
    · rename_i exception
      exact iff_of_false nofun fun passed => exception passed.2.1
    · rename_i noType
      split
      · rename_i failed
        refine iff_of_false nofun fun passed => ?_
        exact failed.elim passed.2.2.1 passed.2.2.2
      · rename_i fine
        rw [not_or] at fine
        exact iff_of_true rfl ⟨other, not_not.mp noType, fine⟩

/-- The frames with right checksums that a call of `Decode` comes to: the first one of the stream,
and the one after a frame that is passed. -/
inductive Reads : List UInt8 → RawFrame → Prop where
  | first {stream rest frame} (read : readFrame stream = (.ok frame, rest)) : Reads stream frame
  | after {stream rest frame later} (read : readFrame stream = (.ok frame, rest))
      (fits : frame.Fits) (passed : frame.Passed) (reads : Reads rest later) : Reads stream later

def AllFit (stream : List UInt8) : Prop := ∀ frame, Reads stream frame → frame.Fits

theorem decode_panics_iff (stream : List UInt8) :
    (decode stream).1 ≠ .panicked ↔ AllFit stream := by
  induction size : stream.length using Nat.strongRecOn generalizing stream with
  | ind n ih =>
    rw [decode]
    split
    · rename_i err rest read
      refine iff_of_true nofun ?_
      intro frame reads
      cases reads with
      | first read' =>
        rw [read] at read'
        cases read'
      | after read' =>
        rw [read] at read'
        cases read'
    · rename_i frame rest read
      have only : ∀ {frame' rest'}, readFrame stream = (.ok frame', rest') →
          frame' = frame ∧ rest' = rest := by
        intro frame' rest' read'
        rw [read] at read'
        cases read'
        exact ⟨rfl, rfl⟩
      split
      · rename_i outside
        refine iff_of_false (fun safe => safe rfl) fun fit => ?_
        have some_ := (result_isSome frame).mpr (fit frame (.first read))
        rw [outside] at some_
        cases some_
      · rename_i result is
        have fits : frame.Fits := (result_isSome frame).mp (by rw [is]; rfl)
        have given : ¬ frame.Passed := by
          intro passed
          rw [(result_passed fits).mpr passed] at is
          cases is
        refine iff_of_true ?_ ?_
        · -- A frame that fits gives a payload or an error.
          rintro rfl
          obtain ⟨headers, -, is⟩ := Option.bind_eq_some_iff.mp is
          obtain ⟨payload, -, is⟩ := Option.bind_eq_some_iff.mp is
          obtain ⟨eventType, -, is⟩ := Option.bind_eq_some_iff.mp is
          split at is
          · cases is
          · obtain ⟨exceptionType, -, is⟩ := Option.bind_eq_some_iff.mp is
            split at is
            · cases is
            · obtain ⟨messageType, -, is⟩ := Option.bind_eq_some_iff.mp is
              split at is <;> cases is
        · intro other reads
          cases reads with
          | first read' =>
            obtain ⟨rfl, -⟩ := only read'
            exact fits
          | after read' _ passed =>
            obtain ⟨rfl, -⟩ := only read'
            exact absurd passed given
      · rename_i is
        have fits : frame.Fits := (result_isSome frame).mp (by rw [is]; rfl)
        have passed := (result_passed fits).mp is
        have shorter := readFrame_shorter read
        rw [ih rest.length (by omega) rest rfl]
        constructor
        · intro fit other reads
          cases reads with
          | first read' =>
            obtain ⟨rfl, -⟩ := only read'
            exact fits
          | after read' _ _ reads =>
            obtain ⟨-, rfl⟩ := only read'
            exact fit other reads
        · exact fun fit other reads => fit other (.after read fits passed reads)

/-! ### Progress -/

theorem readFull_le {n : ℕ} (stream : List UInt8) : (readFull n stream).2.length ≤ stream.length := by
  unfold readFull
  split
  · change (stream.drop n).length ≤ _
    rw [List.length_drop]
    omega
  · exact Nat.zero_le _

theorem readFull_lt {n : ℕ} {stream : List UInt8} (positive : 0 < n) (some_ : stream ≠ []) :
    (readFull n stream).2.length < stream.length := by
  have length := List.length_pos_of_ne_nil some_
  unfold readFull
  split
  · rename_i enough
    change (stream.drop n).length < _
    rw [List.length_drop]
    omega
  · exact length

theorem readFrame_lt {stream : List UInt8} (some_ : stream ≠ []) :
    (readFrame stream).2.length < stream.length := by
  have first := readFull_lt (n := 12) (by decide) some_
  unfold readFrame
  cases prelude_ : readFull 12 stream with
  | mk prelude rest =>
    rw [prelude_] at first
    cases prelude with
    | error err => exact first
    | ok prelude =>
      dsimp only
      split
      · exact first
      · split
        · exact first
        · have second := readFull_le (n := bedrockReadUint32 (prelude.take 4) - 12) rest
          cases data_ : readFull (bedrockReadUint32 (prelude.take 4) - 12) rest with
          | mk data rest' =>
            rw [data_] at second
            have total : rest'.length < stream.length := Nat.lt_of_le_of_lt second first
            cases data with
            | error err => exact total
            | ok data =>
              dsimp only
              split
              · exact total
              · exact total

theorem decode_consumes (stream : List UInt8) (some_ : stream ≠ []) :
    (decode stream).2.length < stream.length := by
  induction size : stream.length using Nat.strongRecOn generalizing stream with
  | ind n ih =>
    have read := readFrame_lt some_
    rw [decode]
    split
    · rename_i err rest read'
      rw [read'] at read
      dsimp only at read ⊢
      omega
    · rename_i frame rest read'
      rw [read'] at read
      dsimp only at read
      split
      · dsimp only
        omega
      · dsimp only
        omega
      · by_cases done : rest = []
        · have nothing : decode [] = (.failed .eof, []) := by
            rw [decode]
            rfl
          rw [done, nothing]
          change 0 < n
          omega
        · have := ih rest.length (by omega) rest done rfl
          omega

/-! ### Safe and exact -/

/-- The frame at the front has a wrong length or checksum, or is cut short. -/
def Malformed (stream : List UInt8) : Prop :=
  match (readFrame stream).1 with
  | .error _ => True
  | .ok frame => ¬ frame.Fits

/-- What a call of `Decode` should do on any bytes. -/
structure Safe (stream : List UInt8) : Prop where
  inside : (decode stream).1 ≠ .panicked
  consumes : stream ≠ [] → (decode stream).2.length < stream.length
  rejects : Malformed stream → ∃ err, (decode stream).1 = .failed err

theorem safe_iff (stream : List UInt8) : Safe stream ↔ AllFit stream := by
  constructor
  · exact fun safe => (decode_panics_iff stream).mp safe.inside
  · intro fit
    refine ⟨(decode_panics_iff stream).mpr fit, decode_consumes stream, ?_⟩
    intro malformed
    unfold Malformed at malformed
    split at malformed
    · rename_i err failed
      rw [decode]
      split
      · rename_i err' rest read
        exact ⟨err', rfl⟩
      · rename_i frame rest read
        rw [read] at failed
        cases failed
    · rename_i frame read
      exact absurd (fit frame (.first (Prod.ext read rfl))) malformed

/-- The results of so many calls, one after the other. -/
def successive : ℕ → List UInt8 → List Decoded
  | 0, _ => []
  | calls + 1, stream => (decode stream).1 :: successive calls (decode stream).2

/-- What frames give to the caller, and after them the end. -/
def expected (calls : ℕ) (frames : List Frame) : List Decoded :=
  (frames.filterMap Frame.outcome ++ List.replicate calls (Decoded.failed .eof)).take calls

theorem successive_encode (calls : ℕ) (frames : List Frame) :
    successive calls (frames.flatMap Frame.encode) = expected calls frames := by
  induction frames generalizing calls with
  | nil =>
    have nothing : decode [] = (.failed .eof, []) := by
      rw [decode]
      rfl
    unfold expected
    rw [List.flatMap_nil, List.filterMap_nil, List.nil_append, List.take_replicate, Nat.min_self]
    induction calls with
    | zero => rfl
    | succ calls ih =>
      rw [successive, nothing, List.replicate_succ]
      exact congrArg _ ih
  | cons f frames ih =>
    rw [List.flatMap_cons]
    have front := decode_encode f (frames.flatMap Frame.encode)
    cases calls with
    | zero => rfl
    | succ calls =>
      unfold expected
      cases outcome : f.outcome with
      | none =>
        rw [outcome] at front
        rw [List.filterMap_cons_none outcome]
        have later := ih (calls + 1)
        unfold expected at later
        rw [← later, successive, successive, front]
      | some result =>
        rw [outcome] at front
        rw [List.filterMap_cons_some outcome, successive, front, List.cons_append,
          List.take_succ_cons, ih calls]
        unfold expected
        have enough : calls ≤ (frames.filterMap Frame.outcome ++
            List.replicate calls (Decoded.failed .eof)).length := by
          rw [List.length_append, List.length_replicate]
          omega
        rw [List.replicate_succ', ← List.append_assoc, List.take_append_of_le_length enough]

/-- On any bytes `Decode` is safe exactly when no frame that it comes to has headers that are longer
than the frame allows, and frames are decoded to what they give, in order. -/
theorem decode_safe_iff_and_exact (stream : List UInt8) :
    (Safe stream ↔ AllFit stream) ∧
      ∀ calls frames, successive calls (frames.flatMap Frame.encode) = expected calls frames :=
  ⟨safe_iff stream, successive_encode⟩

/-- Sixteen bytes with right checksums that claim a header of one byte. -/
theorem long_headers_panic :
    ¬ Safe [0, 0, 0, 16, 0, 0, 0, 1, 114, 197, 120, 125, 117, 117, 111, 109] := by
  intro safe
  have fit := (safe_iff _).mp safe
  have read : readFrame [0, 0, 0, 16, 0, 0, 0, 1, 114, 197, 120, 125, 117, 117, 111, 109] =
      (.ok { headersLength := 1, data := [117, 117, 111, 109] }, []) := by decide +kernel
  have fits : (1 : ℕ) ≤ 4 - 4 := fit _ (.first read)
  omega

end Sub2api.Bedrock
