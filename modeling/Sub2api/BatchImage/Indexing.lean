import Sub2api.BatchImage.Programs
import Sub2api.BatchImage.ResultLine
import Sub2api.Database.Transaction
import Mathlib.Data.Finset.Sort
import Mathlib.Data.Finset.Card
import Mathlib.Data.String.Basic

/-!
# Indexing a batch output

`index` reads a provider's output line by line, reconciles it with the custom ids of the job's
items, and replaces the items in one transaction.

* `listFrom_ok` — the expected ids are those of all the job's items;
* `reconcile_ok` — what is to be stored has each expected id once;
* `replaceItems_ok` — the transaction leaves what is to be stored, with the prompts there were;
* `index_reconciles` — what a call that succeeds and one that fails leave;
* `index_indexOutput` — to the job's row a call that succeeds is the processor's `indexOutput`.
-/

namespace Sub2api.BatchImage

open Database Go Billing

/-! ### The tables -/

inductive ItemStatus where
  | pending
  | success
  | failed
  | cancelled
  deriving DecidableEq

/-- A row of `batch_image_items`. -/
structure BatchImageItem where
  jobID : String
  customID : String
  status : ItemStatus := .failed
  promptPreview : Option String := none
  providerSourceObject : Option String := none
  sourceLineNumber : Option ℕ := none
  mimeType : Option String := none
  fileExtension : Option String := none
  imageCount : ℕ := 0
  errorCode : Option String := none
  errorMessage : Option CutText := none
  indexedAt : Option Time := none

namespace BatchImageItem

/-- The columns of the unique index. -/
def key (item : BatchImageItem) : String × String := (item.jobID, item.customID)

/-- The item but for the time it was indexed at. -/
def undated (item : BatchImageItem) : BatchImageItem := { item with indexedAt := none }

end BatchImageItem

/-- The items of all jobs by ascending id, which the unique index keeps apart. -/
structure ItemTable where
  rows : List BatchImageItem := []
  unique : (rows.map BatchImageItem.key).Nodup := by decide

namespace ItemTable

def ofJob (t : ItemTable) (batchID : String) : List BatchImageItem :=
  t.rows.filter (·.jobID = batchID)

/-- `DELETE … WHERE job_id`. -/
def deleteJob (t : ItemTable) (batchID : String) : ItemTable where
  rows := t.rows.filter (·.jobID ≠ batchID)
  unique := t.unique.sublist ((List.filter_sublist).map _)

end ItemTable

structure IndexDb where
  jobs : Table String BatchImageJob
  items : ItemTable
  /-- The `index_reconciled` events: of which job, and how many ids were unknown and missing. -/
  events : List (String × ℕ × ℕ) := []

namespace IndexDb

/-- The ids the output is reconciled with. -/
def expected (db : IndexDb) (batchID : String) : Finset String :=
  ((db.items.ofJob batchID).map BatchImageItem.customID).toFinset

/-- The counts in the job's row. -/
def counts (db : IndexDb) (batchID : String) : Option (ℤ × ℤ) :=
  (db.jobs batchID).map fun job => (job.successCount, job.failCount)

end IndexDb

inductive IndexError where
  | outputMissing
  | parseFailed (failure : ParseFailure)
  | unexpectedEOF
  | readFailed
  | duplicateCustomID (customID : String) (firstLine line : ℕ)
  | noResultLines
  | jobNotFound
  | stateConflict
  | itemExists
  | database

/-! ### The repository -/

/-- `createBatchImageItemWithSQL`: the unique index may refuse the row, and a text that was cut
through a rune is none to the database. -/
def ItemTable.insert (item : BatchImageItem) (t : ItemTable) : Except IndexError ItemTable :=
  if item.errorMessage.any CutText.cut then .error .database
  else if taken : item.key ∈ t.rows.map BatchImageItem.key then .error .itemExists
  else
    .ok
      { rows := t.rows ++ [item]
        unique := by
          rw [List.map_append, List.map_singleton]
          exact List.nodup_append.mpr ⟨t.unique, List.nodup_singleton _, by
            rintro a here b there rfl
            exact taken (List.mem_singleton.mp there ▸ here)⟩ }

/-- `batchImageItemPromptPreviews`: the job's prompts, no text where there is none. -/
def batchImageItemPromptPreviews (items : List BatchImageItem) (customID : String) : String :=
  ((items.find? (·.customID = customID)).bind (·.promptPreview)).getD ""

/-- The row that is inserted for an item: it keeps the prompt there was. -/
def BatchImageItem.withPrompt (previews : String → String) (item : BatchImageItem) :
    BatchImageItem :=
  if item.promptPreview = none ∧ previews item.customID ≠ "" then
    { item with promptPreview := some (previews item.customID) }
  else item

abbrev IndexTx (α : Type) := Tx IndexDb IndexError α

/-- The loop of inserts. -/
def insertItems (batchID : String) (previews : String → String) :
    List BatchImageItem → IndexTx Unit
  | [] => pure ()
  | item :: items => do
    Tx.tryStmt fun db =>
      match db.items.insert ({ item with jobID := batchID }.withPrompt previews) with
      | .error e => .error e
      | .ok table => .ok ((), { db with items := table })
    insertItems batchID previews items

/-- `replaceBatchImageItemsForJobWithSQL`. -/
def replaceItems (now : Time) (batchID : String) (items : List BatchImageItem)
    (counts : ℤ × ℤ) : IndexTx (Ending Unit) := do
  let found ← Tx.stmt fun db => (db.jobs batchID, db)
  match found with
  | none => Tx.fail .jobNotFound
  | some job =>
    if job.status ≠ .indexing then Tx.fail .stateConflict
    else
      let previews ← Tx.stmt fun db =>
        (batchImageItemPromptPreviews (db.items.ofJob batchID), db)
      Tx.stmt fun db => ((), { db with items := db.items.deleteJob batchID })
      insertItems batchID previews items
      Tx.stmt fun db => ((), { db with
        jobs := (db.jobs.updateWhere batchID (fun _ => true) fun job => { job with
          successCount := counts.1
          failCount := counts.2
          updatedAt := now }).2 })
      return .commit ()

/-- `ListBatchImageItems` without a status filter. -/
def listBatchImageItems (items : List BatchImageItem) (limit offset : ℕ) :
    List BatchImageItem :=
  (items.drop offset).take (if limit = 0 ∨ 500 < limit then 100 else limit)

/-! ### The indexer -/

/-- What the scanner makes of an output: its lines, and the error that ended it. -/
structure Output where
  lines : List String
  ended : Option IndexError := none

/-- What one call of the indexer meets. -/
structure IndexEnv where
  /-- The pages of the item list that cannot be read. -/
  pageFails : ℕ → Bool := fun _ => false
  /-- The output, when it can be opened. -/
  output : Option Output
  eventFails : Bool := false
  faults : Faults IndexError := noFaults
  indexedAt : Time
  updatedAt : Time

/-- The page size of `listExpectedCustomIDs`. -/
def pageSize : ℕ := 500

/-- The loop of `listExpectedCustomIDs` over the pages, from an offset on. -/
def listFrom (pageFails : ℕ → Bool) (items : List BatchImageItem) (page offset : ℕ)
    (expected : Finset String) : Except IndexError (Finset String) :=
  if pageFails page then .error .database
  else
    let rows := listBatchImageItems items pageSize offset
    let expected := rows.foldl (fun ids item => insert item.customID ids) expected
    if _full : rows.length < pageSize then .ok expected
    else listFrom pageFails items (page + 1) (offset + rows.length) expected
  termination_by items.length - offset
  decreasing_by
    simp [rows, listBatchImageItems, pageSize] at _full ⊢
    omega

structure BatchImageIndexResult where
  successCount : ℕ := 0
  failCount : ℕ := 0
  totalCount : ℕ := 0
  deriving DecidableEq

/-- The variables of the indexer's loop. -/
structure Reconciliation where
  seen : List (String × ℕ) := []
  unknownCount : ℕ := 0
  missingCount : ℕ := 0
  items : List BatchImageItem := []
  result : BatchImageIndexResult := {}
  lineNumber : ℕ := 0

/-- `batchImageOptionalStringPtr`. -/
def optionalString (value : String) : Option String :=
  if trimSpace value = "" then none else some (trimSpace value)

/-- `batchImageOptionalStringPtr` of a text that may have been cut: what was cut through is no
white space. -/
def optionalCutText (value : CutText) : Option CutText :=
  if value.cut then some { value with text := String.ofList (value.text.toList.dropWhile isSpace) }
  else (optionalString value.text).map fun text => { text := text }

/-- `batchImageDerefString`. -/
def derefString (value : Option String) : String := (value.map trimSpace).getD ""

def sourceObject (job : BatchImageJob) : String :=
  if derefString job.providerOutputRef = "" then derefString job.providerJobName
  else derefString job.providerOutputRef

section Indexer

variable (reader : LineReader) (job : BatchImageJob) (now : Time) (expected : Finset String)

/-- The item to store for a line. -/
def parsedItem (parsed : ParsedBatchImageResult) : BatchImageItem :=
  let item : BatchImageItem :=
    { jobID := job.batchID
      customID := parsed.customID
      providerSourceObject := optionalString (sourceObject job)
      sourceLineNumber := some parsed.sourceLineNumber
      imageCount := parsed.imageCount
      indexedAt := some now }
  match parsed.status with
  | .succeeded =>
    { item with
      status := .success
      mimeType := optionalString parsed.mimeType
      fileExtension := optionalString parsed.fileExtension }
  | .failed =>
    { item with
      status := .failed
      errorCode := optionalString parsed.errorCode
      errorMessage := optionalCutText parsed.errorMessage }

/-- The item to store for an id that the output leaves out. -/
def missingItem (customID : String) : BatchImageItem where
  jobID := job.batchID
  customID := customID
  status := .failed
  providerSourceObject := optionalString (sourceObject job)
  errorCode := some "PROVIDER_RESULT_MISSING"
  errorMessage := some { text := "provider output did not include a result for this item" }
  indexedAt := some now

namespace BatchImageIndexResult

/-- One more item with a result. -/
def count (r : BatchImageIndexResult) : ParsedStatus → BatchImageIndexResult
  | .succeeded => { r with successCount := r.successCount + 1, totalCount := r.totalCount + 1 }
  | .failed => { r with failCount := r.failCount + 1, totalCount := r.totalCount + 1 }

end BatchImageIndexResult

/-- The body of the loop over the lines. -/
def indexLine (r : Reconciliation) (line : String) : Except IndexError Reconciliation :=
  let r := { r with lineNumber := r.lineNumber + 1 }
  if trimSpace line = "" then .ok r
  else
    match parseBatchImageResultLine reader (trimSpace line) r.lineNumber with
    | .error failure => .error (.parseFailed failure)
    | .ok parsed =>
      -- an id that was not submitted must not reach the items
      if 0 < expected.card ∧ parsed.customID ∉ expected then
        .ok { r with unknownCount := r.unknownCount + 1 }
      else
        match r.seen.lookup parsed.customID with
        | some firstLine => .error (.duplicateCustomID parsed.customID firstLine r.lineNumber)
        | none =>
          .ok { r with
            seen := (parsed.customID, r.lineNumber) :: r.seen
            items := r.items ++ [parsedItem job now parsed]
            result := r.result.count parsed.status }

def indexLines (r : Reconciliation) : List String → Except IndexError Reconciliation
  | [] => .ok r
  | line :: lines =>
    match indexLine reader job now expected r line with
    | .error e => .error e
    | .ok r => indexLines r lines

/-- The expected ids that were not seen, in order. -/
def missingIDs (r : Reconciliation) : List String :=
  (expected.filter fun customID => r.seen.lookup customID = none).sort

/-- A failed item for every submitted one that the output leaves out. -/
def addMissing (r : Reconciliation) : Reconciliation :=
  let missing := missingIDs expected r
  { r with
    items := r.items ++ missing.map (missingItem job now)
    missingCount := missing.length
    result := { r.result with
      failCount := r.result.failCount + missing.length
      totalCount := r.result.totalCount + missing.length } }

/-- The indexer from the opened output to what is to be stored. -/
def reconcile (output : Output) : Except IndexError Reconciliation :=
  match indexLines reader job now expected {} output.lines with
  | .error e => .error e
  | .ok r =>
    match output.ended with
    | some e => .error e
    | none =>
      if (addMissing job now expected r).result.totalCount = 0 then .error .noResultLines
      else .ok (addMissing job now expected r)

end Indexer

/-- `AppendBatchImageEvent`, whose failure is only logged. -/
def appendReconciled (env : IndexEnv) (batchID : String) (r : Reconciliation) (db : IndexDb) :
    IndexDb :=
  if (0 < r.unknownCount ∨ 0 < r.missingCount) ∧ ¬ env.eventFails then
    { db with events := db.events ++ [(batchID, r.unknownCount, r.missingCount)] }
  else db

/-- `Index`: its answer, and the tables after it. -/
def index (reader : LineReader) (job : BatchImageJob) (env : IndexEnv) (db : IndexDb) :
    Except IndexError BatchImageIndexResult × IndexDb :=
  match listFrom env.pageFails (db.items.ofJob job.batchID) 0 0 ∅ with
  | .error e => (.error e, db)
  | .ok expected =>
    match env.output with
    | none => (.error .outputMissing, db)
    | some output =>
      match reconcile reader job env.indexedAt expected output with
      | .error e => (.error e, db)
      | .ok r =>
        match transact (replaceItems env.updatedAt job.batchID r.items
            (r.result.successCount, r.result.failCount)) env.faults
            (appendReconciled env job.batchID r db) with
        | (.error e, db) => (.error e, db)
        | (.ok (), db) => (.ok r.result, db)

/-! ### The expected ids -/

theorem foldl_insert (rows : List BatchImageItem) (ids : Finset String) :
    rows.foldl (fun ids item => insert item.customID ids) ids =
      ids ∪ (rows.map BatchImageItem.customID).toFinset := by
  induction rows generalizing ids with
  | nil => simp
  | cons row rows ih =>
      rw [List.foldl_cons, ih]
      ext id
      simp only [Finset.mem_union, Finset.mem_insert, List.map_cons, List.toFinset_cons]
      tauto

/-- A page, and the items behind it. -/
theorem listBatchImageItems_append (items : List BatchImageItem) (limit offset : ℕ) :
    listBatchImageItems items limit offset ++
        items.drop (offset + (listBatchImageItems items limit offset).length) =
      items.drop offset := by
  unfold listBatchImageItems
  generalize (if limit = 0 ∨ 500 < limit then 100 else limit) = limit
  rw [← List.drop_drop, List.length_take]
  rcases le_total limit (items.drop offset).length with few | many
  · rw [min_eq_left few, List.take_append_drop]
  · rw [min_eq_right many, List.take_of_length_le many, List.drop_length, List.append_nil]

/-- The pages from an offset on hold the items from there on. -/
theorem listFrom_ok {pageFails : ℕ → Bool} {items : List BatchImageItem} {page offset : ℕ}
    {expected ids : Finset String} (ok : listFrom pageFails items page offset expected = .ok ids) :
    ids = expected ∪ ((items.drop offset).map BatchImageItem.customID).toFinset := by
  fun_induction listFrom pageFails items page offset expected with
  | case1 => cases ok
  | case2 page offset expected _ rows expected' last =>
      have all : rows = items.drop offset := by
        apply List.take_of_length_le
        simp only [rows, listBatchImageItems, pageSize, List.length_take, List.length_drop] at last ⊢
        norm_num at last ⊢
        omega
      rw [← all, ← Except.ok.inj ok]
      exact foldl_insert rows expected
  | case3 page offset expected _ rows expected' more ih =>
      rw [ih ok, ← listBatchImageItems_append items pageSize offset, List.map_append,
        List.toFinset_append, ← Finset.union_assoc]
      exact congrArg (· ∪ _) (foldl_insert rows expected)

/-! ### The loop over the lines -/

section Loop

variable {reader : LineReader} {job : BatchImageJob} {now : Time} {expected : Finset String}
  {r r' : Reconciliation}

/-- What the loop's items and counts are at any time. -/
structure Tallied (job : BatchImageJob) (expected : Finset String) (r : Reconciliation) : Prop where
  seen : ∀ id, r.seen.lookup id = none ↔ id ∉ r.items.map BatchImageItem.customID
  distinct : (r.items.map BatchImageItem.customID).Nodup
  among : ∀ item ∈ r.items, item.customID ∈ expected
  ofJob : ∀ item ∈ r.items, item.jobID = job.batchID
  unprompted : ∀ item ∈ r.items, item.promptPreview = none
  success : r.result.successCount = r.items.countP (·.status = .success)
  total : r.result.totalCount = r.items.length
  counted : r.result.successCount + r.result.failCount = r.result.totalCount

theorem tallied_initially : Tallied job expected {} := by
  constructor <;> simp

variable (job now) in
theorem parsedItem_eq (parsed : ParsedBatchImageResult) :
    (parsedItem job now parsed).jobID = job.batchID ∧
      (parsedItem job now parsed).customID = parsed.customID ∧
      (parsedItem job now parsed).promptPreview = none := by
  unfold parsedItem
  cases parsed.status <;> exact ⟨rfl, rfl, rfl⟩

variable (job now) in
/-- An item is counted as what it is stored as. -/
theorem count_parsedItem (parsed : ParsedBatchImageResult) (counts : BatchImageIndexResult) :
    (counts.count parsed.status).successCount =
        counts.successCount + [parsedItem job now parsed].countP (·.status = .success) ∧
      (counts.count parsed.status).totalCount = counts.totalCount + 1 ∧
      (counts.count parsed.status).successCount + (counts.count parsed.status).failCount =
        counts.successCount + counts.failCount + 1 := by
  unfold parsedItem
  cases parsed.status with
  | succeeded =>
      refine ⟨by simp [BatchImageIndexResult.count], rfl, ?_⟩
      simp only [BatchImageIndexResult.count]
      omega
  | failed =>
      refine ⟨by simp [BatchImageIndexResult.count], rfl, ?_⟩
      simp only [BatchImageIndexResult.count]
      omega

/-- One more item, which was not seen before. -/
theorem Tallied.append (tallied : Tallied job expected r) {parsed : ParsedBatchImageResult}
    (known : parsed.customID ∈ expected) (unseen : r.seen.lookup parsed.customID = none) :
    Tallied job expected { r with
      seen := (parsed.customID, r.lineNumber) :: r.seen
      items := r.items ++ [parsedItem job now parsed]
      result := r.result.count parsed.status } := by
  obtain ⟨ofJob, id, unprompted⟩ := parsedItem_eq job now parsed
  obtain ⟨success, total, both⟩ := count_parsedItem job now parsed r.result
  constructor
  · intro other
    rw [List.map_append, List.mem_append, not_or, ← tallied.seen other, List.map_singleton, id,
      List.mem_singleton, List.lookup_cons]
    by_cases same : other = parsed.customID
    · simp [same]
    · have differs : (other == parsed.customID) = false := beq_false_of_ne same
      rw [differs]
      exact ⟨fun unseen => ⟨unseen, same⟩, And.left⟩
  · rw [List.map_append, List.map_singleton, id]
    apply List.nodup_append.mpr
    refine ⟨tallied.distinct, List.nodup_singleton _, ?_⟩
    rintro a here b there rfl
    exact (tallied.seen a).mp (List.mem_singleton.mp there ▸ unseen) here
  · intro item mem
    rcases List.mem_append.mp mem with before | new
    · exact tallied.among item before
    · rw [List.mem_singleton.mp new, id]
      exact known
  · intro item mem
    rcases List.mem_append.mp mem with before | new
    · exact tallied.ofJob item before
    · rw [List.mem_singleton.mp new, ofJob]
  · intro item mem
    rcases List.mem_append.mp mem with before | new
    · exact tallied.unprompted item before
    · rw [List.mem_singleton.mp new, unprompted]
  · rw [List.countP_append, success, tallied.success]
  · rw [List.length_append, total, tallied.total, List.length_singleton]
  · rw [both, total, tallied.counted]

theorem Tallied.indexLine (tallied : Tallied job expected r) (some_ : 0 < expected.card)
    {line : String} (ok : indexLine reader job now expected r line = .ok r') :
    Tallied job expected r' := by
  unfold BatchImage.indexLine at ok
  dsimp only at ok
  split at ok
  · cases ok
    exact { tallied with }
  · split at ok
    · cases ok
    · rename_i parsed read
      split at ok
      · cases ok
        exact { tallied with }
      · rename_i known
        split at ok
        · cases ok
        · rename_i unseen
          cases ok
          have known : parsed.customID ∈ expected := by
            by_contra unknown
            exact known ⟨some_, unknown⟩
          exact Tallied.append (r := { r with lineNumber := r.lineNumber + 1 }) { tallied with }
            known unseen

theorem Tallied.indexLines (tallied : Tallied job expected r) (some_ : 0 < expected.card)
    {lines : List String} (ok : indexLines reader job now expected r lines = .ok r') :
    Tallied job expected r' := by
  induction lines generalizing r with
  | nil =>
      cases ok
      exact tallied
  | cons line lines ih =>
      unfold BatchImage.indexLines at ok
      split at ok
      · cases ok
      · rename_i next stepped
        exact ih (tallied.indexLine some_ stepped) ok

/-- Each expected id once and no other, and the counts are those of the items. -/
structure Exact (expected : Finset String) (items : List BatchImageItem)
    (result : BatchImageIndexResult) : Prop where
  once : ∀ id, (items.map BatchImageItem.customID).count id = if id ∈ expected then 1 else 0
  success : result.successCount = items.countP (·.status = .success)
  total : result.successCount + result.failCount = result.totalCount
  card : result.totalCount = expected.card

theorem mem_missingIDs {id : String} :
    id ∈ missingIDs expected r ↔ id ∈ expected ∧ r.seen.lookup id = none := by
  unfold missingIDs
  rw [Finset.mem_sort, Finset.mem_filter]

theorem ids_missing (missing : List String) :
    (missing.map (missingItem job now)).map BatchImageItem.customID = missing := by
  rw [List.map_map]
  exact List.map_id missing

/-- With the failed items for what is missing each expected id is there once. -/
theorem Tallied.exact (tallied : Tallied job expected r) :
    Exact expected (addMissing job now expected r).items (addMissing job now expected r).result := by
  have ids : (addMissing job now expected r).items.map BatchImageItem.customID =
      r.items.map BatchImageItem.customID ++ missingIDs expected r := by
    unfold addMissing
    rw [List.map_append, ids_missing]
  have distinct : ((addMissing job now expected r).items.map BatchImageItem.customID).Nodup := by
    rw [ids]
    apply List.nodup_append.mpr
    refine ⟨tallied.distinct, Finset.sort_nodup _ _, ?_⟩
    rintro a here b there rfl
    exact (tallied.seen a).mp (mem_missingIDs.mp there).2 here
  have all (id : String) : id ∈ (addMissing job now expected r).items.map BatchImageItem.customID ↔
      id ∈ expected := by
    rw [ids, List.mem_append, mem_missingIDs]
    constructor
    · rintro (here | ⟨known, _⟩)
      · obtain ⟨item, mem, rfl⟩ := List.mem_map.mp here
        exact tallied.among item mem
      · exact known
    · intro known
      by_cases seen : id ∈ r.items.map BatchImageItem.customID
      · exact Or.inl seen
      · exact Or.inr ⟨known, (tallied.seen id).mpr seen⟩
  constructor
  · intro id
    rw [distinct.count]
    exact if_congr (all id) rfl rfl
  · have none_ : ((missingIDs expected r).map (missingItem job now)).countP
        (·.status = .success) = 0 := by
      rw [List.countP_eq_zero]
      intro item mem
      obtain ⟨id, _, rfl⟩ := List.mem_map.mp mem
      simp [missingItem]
    unfold addMissing
    rw [List.countP_append, none_, tallied.success, add_zero]
  · have counted := tallied.counted
    unfold addMissing
    dsimp only
    omega
  · have same : ((addMissing job now expected r).items.map BatchImageItem.customID).toFinset =
        expected := by
      ext id
      rw [List.mem_toFinset, all]
    have length : (addMissing job now expected r).items.length = expected.card := by
      rw [← List.length_map BatchImageItem.customID, ← List.toFinset_card_of_nodup distinct, same]
    rw [← length]
    unfold addMissing
    rw [List.length_append, List.length_map, tallied.total]

theorem Tallied.addMissing_items (tallied : Tallied job expected r) {item : BatchImageItem}
    (mem : item ∈ (addMissing job now expected r).items) :
    item.jobID = job.batchID ∧ item.promptPreview = none := by
  rcases List.mem_append.mp mem with seen | missing
  · exact ⟨tallied.ofJob item seen, tallied.unprompted item seen⟩
  · obtain ⟨id, _, rfl⟩ := List.mem_map.mp missing
    exact ⟨rfl, rfl⟩

theorem reconcile_ok {output : Output} (some_ : 0 < expected.card)
    (ok : reconcile reader job now expected output = .ok r) :
    Exact expected r.items r.result ∧
      ∀ item ∈ r.items, item.jobID = job.batchID ∧ item.promptPreview = none := by
  unfold reconcile at ok
  split at ok
  · cases ok
  · rename_i read through
    have tallied := tallied_initially.indexLines some_ through
    split at ok
    · cases ok
    · split at ok
      · cases ok
      · cases ok
        exact ⟨tallied.exact, fun item mem => tallied.addMissing_items mem⟩

/-! ### Another time -/

/-- The loops of two calls that differ in their time only. -/
structure SameButDate (r r' : Reconciliation) : Prop where
  seen : r'.seen = r.seen
  unknownCount : r'.unknownCount = r.unknownCount
  items : r'.items.map BatchImageItem.undated = r.items.map BatchImageItem.undated
  result : r'.result = r.result
  lineNumber : r'.lineNumber = r.lineNumber

theorem undated_parsedItem (now' : Time) (parsed : ParsedBatchImageResult) :
    (parsedItem job now' parsed).undated = (parsedItem job now parsed).undated := by
  unfold parsedItem
  cases parsed.status <;> rfl

theorem indexLine_sameButDate {now' : Time} {s s' : Reconciliation} {line : String}
    (same : SameButDate r r') (ok : indexLine reader job now expected r line = .ok s)
    (ok' : indexLine reader job now' expected r' line = .ok s') : SameButDate s s' := by
  obtain ⟨seen, unknownCount, items, result, lineNumber⟩ := same
  unfold indexLine at ok ok'
  rw [seen, lineNumber] at ok'
  dsimp only at ok ok'
  split at ok
  · rename_i blank
    rw [if_pos blank] at ok'
    cases ok
    cases ok'
    exact ⟨rfl, unknownCount, items, result, rfl⟩
  · rename_i written
    rw [if_neg written] at ok'
    split at ok
    · cases ok
    · rename_i parsed read
      rw [read] at ok'
      dsimp only at ok'
      split at ok
      · rename_i unknown
        rw [if_pos unknown] at ok'
        cases ok
        cases ok'
        exact ⟨rfl, congrArg (· + 1) unknownCount, items, result, rfl⟩
      · rename_i known
        rw [if_neg known] at ok'
        split at ok
        · cases ok
        · rename_i unseen
          rw [unseen] at ok'
          cases ok
          cases ok'
          refine ⟨rfl, unknownCount, ?_, congrArg (fun counts => counts.count parsed.status) result, rfl⟩
          rw [List.map_append, List.map_append, items, List.map_singleton, List.map_singleton,
            undated_parsedItem]

theorem indexLines_sameButDate {now' : Time} {s s' : Reconciliation} {lines : List String}
    (same : SameButDate r r') (ok : indexLines reader job now expected r lines = .ok s)
    (ok' : indexLines reader job now' expected r' lines = .ok s') : SameButDate s s' := by
  induction lines generalizing r r' with
  | nil =>
      cases ok
      cases ok'
      exact same
  | cons line lines ih =>
      unfold indexLines at ok ok'
      split at ok
      · cases ok
      · rename_i next stepped
        split at ok'
        · cases ok'
        · rename_i next' stepped'
          exact ih (indexLine_sameButDate same stepped stepped') ok ok'

theorem addMissing_sameButDate {now' : Time} (same : SameButDate r r') :
    SameButDate (addMissing job now expected r) (addMissing job now' expected r') := by
  obtain ⟨seen, unknownCount, items, result, lineNumber⟩ := same
  have missing : missingIDs expected r' = missingIDs expected r := by
    unfold missingIDs
    rw [seen]
  unfold addMissing
  rw [missing]
  refine ⟨seen, unknownCount, ?_, ?_, lineNumber⟩
  · rw [List.map_append, List.map_append, items, List.map_map, List.map_map]
    rfl
  · rw [result]

theorem reconcile_sameButDate {now' : Time} {output : Output}
    (ok : reconcile reader job now expected output = .ok r)
    (ok' : reconcile reader job now' expected output = .ok r') : SameButDate r r' := by
  unfold reconcile at ok ok'
  split at ok
  · cases ok
  · rename_i read through
    split at ok'
    · cases ok'
    · rename_i read' through'
      have same := indexLines_sameButDate ⟨rfl, rfl, rfl, rfl, rfl⟩ through through'
      split at ok
      · cases ok
      · split at ok
        · cases ok
        · split at ok'
          · cases ok'
          · split at ok'
            · cases ok'
            · cases ok
              cases ok'
              exact addMissing_sameButDate same

end Loop

/-! ### The transaction -/

section Transaction

variable {faults : Faults IndexError} {n m : ℕ} {db db' : IndexDb} {batchID : String}
  {previews : String → String} {items : List BatchImageItem}

theorem insert_ok {item : BatchImageItem} {t t' : ItemTable} (ok : t.insert item = .ok t') :
    t'.rows = t.rows ++ [item] := by
  unfold ItemTable.insert at ok
  split at ok
  · cases ok
  · split at ok
    · cases ok
    · cases ok
      rfl

/-- The row that an item of the job becomes. -/
def stored (batchID : String) (previews : String → String) (item : BatchImageItem) :
    BatchImageItem :=
  { item with jobID := batchID }.withPrompt previews

@[simp] theorem stored_jobID (item : BatchImageItem) :
    (stored batchID previews item).jobID = batchID := by
  unfold stored BatchImageItem.withPrompt
  split <;> rfl

@[simp] theorem stored_customID (item : BatchImageItem) :
    (stored batchID previews item).customID = item.customID := by
  unfold stored BatchImageItem.withPrompt
  split <;> rfl

@[simp] theorem stored_status (item : BatchImageItem) :
    (stored batchID previews item).status = item.status := by
  unfold stored BatchImageItem.withPrompt
  split <;> rfl

theorem undated_stored (item : BatchImageItem) :
    (stored batchID previews item).undated = stored batchID previews item.undated := by
  unfold stored BatchImageItem.withPrompt
  split
  · rename_i some_
    exact (if_pos some_).symm
  · rename_i none_
    exact (if_neg none_).symm

theorem promptPreview_stored {item : BatchImageItem} (unprompted : item.promptPreview = none) :
    ((stored batchID previews item).promptPreview).getD "" = previews item.customID := by
  unfold stored BatchImageItem.withPrompt
  split
  · rfl
  · rename_i none_
    have nothing : previews item.customID = "" := by
      by_contra some_
      exact none_ ⟨unprompted, some_⟩
    rw [nothing, unprompted]
    rfl

/-- The loop of inserts puts the job's items behind those there are. -/
theorem insertItems_ok
    (ok : insertItems batchID previews items faults (n, db) = .ok ((), (m, db'))) :
    db'.items.rows = db.items.rows ++ items.map (stored batchID previews) ∧
      db'.jobs = db.jobs ∧ db'.events = db.events := by
  induction items generalizing n db with
  | nil =>
      rw [insertItems, Tx.pure_eq_ok] at ok
      obtain ⟨-, -, rfl⟩ := ok
      simp
  | cons item items ih =>
      simp only [insertItems, Tx.bind_eq_ok, Tx.tryStmt_eq_ok] at ok
      obtain ⟨_, _, between, ⟨_, answered, rfl⟩, later⟩ := ok
      split at answered
      · cases answered
      · rename_i table inserted
        cases answered
        obtain ⟨rows, jobs, events⟩ := ih later
        refine ⟨?_, jobs, events⟩
        rw [rows, insert_ok inserted]
        simp [stored]

/-- What the transaction finds and leaves. -/
theorem replaceItems_ok {now : Time} {counts : ℤ × ℤ} {ending : Ending Unit}
    (ok : replaceItems now batchID items counts faults (n, db) = .ok (ending, (m, db'))) :
    ending = .commit () ∧ ∃ row, db.jobs batchID = some row ∧ row.status = .indexing ∧
      db'.jobs = Function.update db.jobs batchID (some { row with
        successCount := counts.1, failCount := counts.2, updatedAt := now }) ∧
      db'.items.rows = (db.items.deleteJob batchID).rows ++
        items.map (stored batchID (batchImageItemPromptPreviews (db.items.ofJob batchID))) := by
  simp only [replaceItems, Tx.bind_eq_ok, Tx.stmt_eq_ok] at ok
  obtain ⟨found, _, _, ⟨_, selected, rfl⟩, ok⟩ := ok
  cases selected
  cases here : db.jobs batchID with
  | none => simp [here] at ok
  | some row =>
      simp only [here] at ok
      split at ok
      · simp at ok
      · rename_i indexing
        simp only [Tx.bind_eq_ok, Tx.stmt_eq_ok, Tx.pure_eq_ok] at ok
        obtain ⟨_, _, _, ⟨_, read, rfl⟩, _, _, _, ⟨_, deleted, rfl⟩, _, _, between, inserted, _, _,
          _, ⟨_, updated, rfl⟩, rfl, rfl, rfl⟩ := ok
        cases read
        cases deleted
        cases updated
        obtain ⟨rows, jobs, _⟩ := insertItems_ok inserted
        refine ⟨rfl, row, rfl, not_not.mp indexing, ?_, rows⟩
        simp [jobs, Table.updateWhere, here]

end Transaction

/-! ### The whole call -/

section Index

variable {reader : LineReader} {job : BatchImageJob} {env : IndexEnv} {db db' : IndexDb}
  {result : BatchImageIndexResult}

@[simp] theorem appendReconciled_jobs (r : Reconciliation) :
    (appendReconciled env job.batchID r db).jobs = db.jobs := by
  unfold appendReconciled
  split <;> rfl

@[simp] theorem appendReconciled_items (r : Reconciliation) :
    (appendReconciled env job.batchID r db).items = db.items := by
  unfold appendReconciled
  split <;> rfl

theorem index_error {e : IndexError} (failed : index reader job env db = (.error e, db')) :
    db'.items = db.items ∧ db'.jobs = db.jobs := by
  unfold index at failed
  split at failed
  · cases failed
    exact ⟨rfl, rfl⟩
  · split at failed
    · cases failed
      exact ⟨rfl, rfl⟩
    · split at failed
      · cases failed
        exact ⟨rfl, rfl⟩
      · rename_i r _
        split at failed
        · rename_i replaced
          cases failed
          have kept := transact_error (congrArg Prod.fst replaced)
          rw [replaced] at kept
          have same : db' = appendReconciled env job.batchID r db := kept
          rw [same, appendReconciled_items, appendReconciled_jobs]
          exact ⟨rfl, rfl⟩
        · cases failed

/-- What a call that succeeds found, and what it leaves. -/
theorem index_ok (ok : index reader job env db = (.ok result, db')) :
    ∃ output r row, env.output = some output ∧
      reconcile reader job env.indexedAt (db.expected job.batchID) output = .ok r ∧
      result = r.result ∧ db.jobs job.batchID = some row ∧ row.status = .indexing ∧
      db'.jobs = Function.update db.jobs job.batchID (some { row with
        successCount := r.result.successCount, failCount := r.result.failCount
        updatedAt := env.updatedAt }) ∧
      db'.items.rows = (db.items.deleteJob job.batchID).rows ++ r.items.map
        (stored job.batchID (batchImageItemPromptPreviews (db.items.ofJob job.batchID))) := by
  unfold index at ok
  split at ok
  · cases ok
  · rename_i expected listed
    have all : expected = db.expected job.batchID := by
      rw [listFrom_ok listed, List.drop_zero, Finset.empty_union]
      rfl
    split at ok
    · cases ok
    · rename_i output opened
      split at ok
      · cases ok
      · rename_i r reconciled
        split at ok
        · cases ok
        · rename_i after replaced
          cases ok
          rcases transact_cases (replaceItems env.updatedAt job.batchID r.items
              (r.result.successCount, r.result.failCount)) env.faults
              (appendReconciled env job.batchID r db) with
            ⟨e, failed, _⟩ | ⟨_, n, s, ran, _⟩ | ⟨_, n, s, ran, committed⟩
          · rw [replaced] at failed
            cases failed
          · cases (replaceItems_ok ran).1
          · rw [replaced] at committed
            cases committed
            obtain ⟨_, row, here, indexing, jobs, rows⟩ := replaceItems_ok ran
            rw [appendReconciled_jobs] at here jobs
            rw [appendReconciled_items] at rows
            exact ⟨output, r, row, opened, all ▸ reconciled, rfl, here, indexing, jobs, rows⟩

/-- To the job's row, a call that succeeds is the processor's `indexOutput` on the counts. -/
theorem index_indexOutput {s : State} (same : s.jobs = db.jobs)
    (ok : index reader job env db = (.ok result, db')) :
    ∃ parsed replaced next s', (indexOutput job).step parsed s = some (next, s) ∧
      next.step replaced s = some (.ret (.ok ()), s') ∧ s'.jobs = db'.jobs := by
  obtain ⟨_, r, row, -, -, -, here, indexing, jobs, -⟩ := index_ok ok
  let counts : ℤ × ℤ := (r.result.successCount, r.result.failCount)
  refine ⟨{ index := .ok counts }, { now := env.updatedAt },
    replaceBatchImageItemsForJob job.batchID counts, { s with jobs := db'.jobs }, rfl, ?_, rfl⟩
  simp only [replaceBatchImageItemsForJob, onJob, Interleave.Prog.atomic, Interleave.Prog.step,
    same, here, indexing, State.putJob, jobs, Bool.false_eq_true, if_false, if_true,
    Option.map_some]
  rfl

variable {items : List BatchImageItem}

/-- The job's items after a call that succeeds. -/
theorem ofJob_replaced {t t' : ItemTable} {batchID : String} {previews : String → String}
    (rows : t'.rows = (t.deleteJob batchID).rows ++ items.map (stored batchID previews)) :
    t'.ofJob batchID = items.map (stored batchID previews) := by
  have gone : (t.deleteJob batchID).rows.filter (·.jobID = batchID) = [] := by
    rw [List.filter_eq_nil_iff]
    intro item mem
    have other := (List.mem_filter.mp mem).2
    simpa using other
  have kept : (items.map (stored batchID previews)).filter (·.jobID = batchID) =
      items.map (stored batchID previews) := by
    rw [List.filter_eq_self]
    intro item mem
    obtain ⟨item, _, rfl⟩ := List.mem_map.mp mem
    simp
  unfold ItemTable.ofJob
  rw [rows, List.filter_append, gone, kept, List.nil_append]

/-- The prompts of the rows that are stored are those there were. -/
theorem previews_stored {batchID customID : String} {previews : String → String}
    (unprompted : ∀ item ∈ items, item.promptPreview = none)
    (mem : customID ∈ items.map BatchImageItem.customID) :
    batchImageItemPromptPreviews (items.map (stored batchID previews)) customID =
      previews customID := by
  obtain ⟨item, here, rfl⟩ := List.mem_map.mp mem
  have found : ∃ first, items.find? (·.customID = item.customID) = some first := by
    rw [← Option.isSome_iff_exists, List.find?_isSome]
    exact ⟨item, here, by simp⟩
  obtain ⟨first, found⟩ := found
  have same : first.customID = item.customID := by simpa using List.find?_some found
  unfold batchImageItemPromptPreviews
  rw [List.find?_map]
  have composed : ((fun row : BatchImageItem => decide (row.customID = item.customID)) ∘
      stored batchID previews) = fun row => decide (row.customID = item.customID) := by
    funext row
    simp
  rw [composed, found]
  exact (promptPreview_stored (unprompted first (List.mem_of_find?_eq_some found))).trans
    (congrArg previews same)

theorem exact_stored {expected : Finset String} {batchID : String} {previews : String → String}
    (exact_ : Exact expected items result) :
    Exact expected (items.map (stored batchID previews)) result := by
  have ids : (items.map (stored batchID previews)).map BatchImageItem.customID =
      items.map BatchImageItem.customID := by
    rw [List.map_map]
    exact List.map_congr_left fun item _ => stored_customID item
  constructor
  · rw [ids]
    exact exact_.once
  · rw [exact_.success, List.countP_map]
    apply List.countP_congr
    intro item _
    simp
  · exact exact_.total
  · exact exact_.card

/-- The ids of what is stored exactly are the expected ones. -/
theorem Exact.ids {expected : Finset String} (exact_ : Exact expected items result) :
    (items.map BatchImageItem.customID).toFinset = expected := by
  ext id
  rw [List.mem_toFinset, ← List.count_pos_iff, exact_.once]
  split <;> simp_all

theorem stored_congr {batchID : String} {previews previews' : String → String}
    {item : BatchImageItem} (same : previews' item.customID = previews item.customID) :
    stored batchID previews' item = stored batchID previews item := by
  unfold stored BatchImageItem.withPrompt
  dsimp only
  rw [same]

theorem undated_map_stored (batchID : String) (previews : String → String)
    (items : List BatchImageItem) :
    (items.map (stored batchID previews)).map BatchImageItem.undated =
      (items.map BatchImageItem.undated).map (stored batchID previews) := by
  rw [List.map_map, List.map_map]
  exact List.map_congr_left fun item _ => undated_stored item

/-- A call with the output of one that succeeded stores the same items and counts. -/
theorem index_index {again : IndexEnv} {answer : Except IndexError BatchImageIndexResult}
    {db'' : IndexDb} (some_ : 0 < (db.expected job.batchID).card)
    (ok : index reader job env db = (.ok result, db')) (same : again.output = env.output)
    (repeated : index reader job again db' = (answer, db'')) :
    (db''.items.ofJob job.batchID).map BatchImageItem.undated =
        (db'.items.ofJob job.batchID).map BatchImageItem.undated ∧
      db''.counts job.batchID = db'.counts job.batchID ∧
      ∀ result', answer = .ok result' → result' = result := by
  cases answer with
  | error e =>
      obtain ⟨items, jobs⟩ := index_error repeated
      unfold IndexDb.counts
      rw [items, jobs]
      exact ⟨rfl, rfl, fun _ absurd_ => by cases absurd_⟩
  | ok result' =>
      obtain ⟨output, r, row, opened, reconciled, rfl, here, _, jobs, rows⟩ := index_ok ok
      obtain ⟨output', r', row', opened', reconciled', rfl, here', _, jobs', rows'⟩ :=
        index_ok repeated
      obtain ⟨exact_, plain⟩ := reconcile_ok some_ reconciled
      have first := ofJob_replaced rows
      have expected : db'.expected job.batchID = db.expected job.batchID := by
        unfold IndexDb.expected
        rw [first]
        exact (exact_stored exact_).ids
      cases opened.symm.trans (same.symm.trans opened')
      rw [expected] at reconciled'
      obtain ⟨_, _, items, counted, _⟩ := reconcile_sameButDate reconciled reconciled'
      refine ⟨?_, ?_, fun _ answered => (Except.ok.inj answered).symm.trans counted⟩
      · rw [ofJob_replaced rows', undated_map_stored, items, ← undated_map_stored, first]
        apply congrArg
        apply List.map_congr_left
        intro item mem
        exact stored_congr (previews_stored (fun item mem => (plain item mem).2)
          (List.mem_map_of_mem mem))
      · unfold IndexDb.counts
        rw [jobs', jobs, counted]
        simp

/-- **The reconciliation.** Where the job has items, a call that succeeds stores each of their ids
once and no other, with the counts of what it stored, and a further call with the same output changes
neither the items nor the counts; a call that fails leaves items and counts as they were. -/
theorem index_reconciles (reader : LineReader) (job : BatchImageJob) (env : IndexEnv)
    (db : IndexDb) (some_ : (db.expected job.batchID).Nonempty) :
    (∀ result db', index reader job env db = (.ok result, db') →
      Exact (db.expected job.batchID) (db'.items.ofJob job.batchID) result ∧
        db'.counts job.batchID = some ((result.successCount : ℤ), (result.failCount : ℤ)) ∧
        ∀ again answer db'', again.output = env.output →
          index reader job again db' = (answer, db'') →
          (db''.items.ofJob job.batchID).map BatchImageItem.undated =
              (db'.items.ofJob job.batchID).map BatchImageItem.undated ∧
            db''.counts job.batchID = db'.counts job.batchID ∧
            ∀ result', answer = .ok result' → result' = result) ∧
      ∀ e db', index reader job env db = (.error e, db') →
        db'.items = db.items ∧ db'.jobs = db.jobs := by
  have positive := Finset.card_pos.mpr some_
  constructor
  · intro result db' ok
    refine ⟨?_, ?_, fun again answer db'' same repeated => index_index positive ok same repeated⟩
    · obtain ⟨_, r, _, _, reconciled, rfl, _, _, _, rows⟩ := index_ok ok
      rw [ofJob_replaced rows]
      exact exact_stored (reconcile_ok positive reconciled).1
    · obtain ⟨_, r, _, _, _, rfl, _, _, jobs, _⟩ := index_ok ok
      unfold IndexDb.counts
      rw [jobs]
      simp
  · intro e db' failed
    exact index_error failed

end Index

namespace OutputSample

/-- A line about the item `a` with one image, and one about an item nobody submitted. -/
def imageLine : String :=
  "\x7b\"key\":\"a\",\"candidates\":[\x7b\"content\":\x7b\"parts\":[\x7b\"inlineData\":" ++
    "\x7b\"mimeType\":\"image/png\",\"data\":\"AA\"\x7d\x7d]\x7d\x7d]\x7d"

def strayLine : String := "\x7b\"key\":\"z\"\x7d"

def reader : LineReader where
  unmarshal line :=
    if line = imageLine then
      some
        [ ("key", .string "a"),
          ("candidates", .array [.object [("content", .object [("parts", .array [.object
            [("inlineData", .object
              [("mimeType", .string "image/png"), ("data", .string "AA")])]])])]]) ]
    else if line = strayLine then some [("key", .string "z")]
    else none
  toLower text := String.ofList (text.toList.map Char.toLower)

def job : BatchImageJob where
  batchID := "b"
  userID := 1
  apiKeyID := some 1
  accountID := some 1
  provider := "gemini"
  model := "m"
  status := .indexing
  itemCount := 2
  estimatedCost := ⟨0⟩
  holdAmount := none
  billableUnitPrice := ⟨0⟩
  pricingSnapshotVersion := 1
  providerJobName := some "jobs/1"
  requestHash := none
  updatedAt := 0

def submitted : IndexDb where
  jobs := fun id => if id = "b" then some job else none
  items :=
    { rows :=
        [ { jobID := "b", customID := "a", status := .pending, promptPreview := some "a cat" },
          { jobID := "b", customID := "c", status := .pending } ] }

def env : IndexEnv where
  output := some { lines := [strayLine, "", imageLine] }
  indexedAt := 5
  updatedAt := 6

end OutputSample

open OutputSample in
theorem sample_reconciled : ∃ db',
    index reader job env submitted = (.ok ⟨1, 1, 2⟩, db') ∧
      Exact (submitted.expected "b") (db'.items.ofJob "b") ⟨1, 1, 2⟩ ∧
      db'.counts "b" = some (1, 1) := by
  have answered : (index reader job env submitted).1.toOption = some ⟨1, 1, 2⟩ := by
    decide +kernel
  have ran : ∃ db', index reader job env submitted = (.ok ⟨1, 1, 2⟩, db') := by
    cases out : index reader job env submitted with
    | mk answer db' =>
        rw [out] at answered
        cases answer with
        | error e => cases answered
        | ok result =>
            cases answered
            exact ⟨db', rfl⟩
  obtain ⟨db', ran⟩ := ran
  have some_ : (submitted.expected job.batchID).Nonempty := ⟨"a", by decide⟩
  obtain ⟨stored, counts, _⟩ := (index_reconciles reader job env submitted some_).1 _ _ ran
  exact ⟨db', ran, stored, counts⟩

end Sub2api.BatchImage
