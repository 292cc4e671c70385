import Sub2api.Database.Session
import Sub2api.Go.Strings
import Mathlib.Data.List.Sort

/-!
# The migration runner

`applyMigrationsFS` goes over the migration files by name and records each one it has applied. A
file whose name ends in `_notx.sql` is run statement by statement outside a transaction, where a
`CREATE INDEX CONCURRENTLY` that fails leaves an INVALID index behind; `prepareNonTransactionalMigration`
drops such an index before some of the files are tried again.

Of the schema only the indexes are kept, by name, with whether they are valid. `overInvalid` is
history: the names that a `CREATE INDEX … IF NOT EXISTS` accepted although the index was INVALID.
The advisory lock makes attempts of several servers follow each other, so a run is a list of them.
-/

namespace Sub2api.Migrations

open Go Database

/-! ### Files and checksums -/

structure File where
  name : String
  content : String

/-- A statement's effect on the indexes, by name. -/
inductive IndexChange where
  | create (name : String)
  | drop (name : String)
  deriving DecidableEq

def IndexChange.name : IndexChange → String
  | .create name => name
  | .drop name => name

/-- What the runner is given: the case tables of Unicode, SHA-256 in hex, and how PostgreSQL reads a
statement of a file that runs outside a transaction and the text of one that runs inside; `none` is
a text it refuses. -/
structure Outside where
  upper : String → String
  lower : String → String
  checksum : String → String
  statement : String → Option IndexChange
  transaction : String → Option (List IndexChange)

def nonTransactionalMigrationSuffix : String := "_notx.sql"

/-- `listMigrationFiles`: by name, without the hidden ones. -/
def listMigrationFiles (files : List File) : List File :=
  (files.filter fun file =>
    hasSuffix file.name ".sql" && !hasPrefix file.name "." && !hasPrefix file.name "_").mergeSort
    fun a b => decide (a.name ≤ b.name)

structure MigrationChecksumCompatibilityRule where
  fileChecksum : String
  acceptedDBChecksum : List String
  acceptedChecksums : List String

def newMigrationChecksumCompatibilityRule (fileChecksum : String)
    (acceptedDBChecksums : List String) : MigrationChecksumCompatibilityRule where
  fileChecksum
  acceptedDBChecksum := acceptedDBChecksums
  acceptedChecksums := fileChecksum :: acceptedDBChecksums

def migrationChecksumCompatibilityRules : List (String × MigrationChecksumCompatibilityRule) :=
  [
    ("054_drop_legacy_cache_columns.sql", newMigrationChecksumCompatibilityRule
      "82de761156e03876653e7a6a4eee883cd927847036f779b0b9f34c42a8af7a7d"
      ["182c193f3359946cf094090cd9e57d5c3fd9abaffbc1e8fc378646b8a6fa12b4"]),
    ("061_add_usage_log_request_type.sql", newMigrationChecksumCompatibilityRule
      "66207e7aa5dd0429c2e2c0fabdaf79783ff157fa0af2e81adff2ee03790ec65c"
      ["08a248652cbab7cfde147fc6ef8cda464f2477674e20b718312faa252e0481c0",
        "222b4a09c797c22e5922b6b172327c824f5463aaa8760e4f621bc5c22e2be0f3"]),
    ("109_auth_identity_compat_backfill.sql", newMigrationChecksumCompatibilityRule
      "0580b4602d85435edf9aca1633db580bb3932f26517f75134106f80275ec2ace"
      ["551e498aa5616d2d91096e9d72cf9fb36e418ee22eacc557f8811cadbc9e20ee"]),
    ("110_pending_auth_and_provider_default_grants.sql", newMigrationChecksumCompatibilityRule
      "32cf87ee787b1bb36b5c691367c96eee37518fa3eed6f3322cf68795e3745279"
      ["e3d1f433be2b564cfbdc549adf98fce13c5c7b363ebc20fd05b765d0563b0925"]),
    ("112_add_payment_order_provider_key_snapshot.sql", newMigrationChecksumCompatibilityRule
      "b75f8f56d39455682787696a3d92ad25b055444ca328fb7fca9a460a15d68d99"
      ["ffd3e8a2c9295fa9cbefefd629a78268877e5b51bc970a82d9b3f46ec4ebd15e"]),
    ("115_auth_identity_legacy_external_backfill.sql", newMigrationChecksumCompatibilityRule
      "022aadd97bb53e755f0cf7a3a957e0cb1a1353b0c39ec4de3234acd2871fd04f"
      ["4cf39e508be9fd1a5aa41610cbbebeb80385c9adda45bf78a706de9db4f1385f"]),
    ("116_auth_identity_legacy_external_safety_reports.sql", newMigrationChecksumCompatibilityRule
      "07edb09fa8d04ffb172b0621e3c22f4d1757d20a24ae267b3b36b087ab72d488"
      ["f7757bd929ac67ffb08ce69fa4cf20fad39dbff9d5a5085fb2adabb7607e5877"]),
    ("118_wechat_dual_mode_and_auth_source_defaults.sql", newMigrationChecksumCompatibilityRule
      "b54194d7a3e4fbf710e0a3590d22a2fe7966804c487052a356e0b55f53ef96b0"
      ["e0cdf835d6c688d64100f483d31bc02ac9ebad414bf1837af239a84bf75b8227",
        "a38243ca0a72c3a01c0a92b7986423054d6133c0399441f853b99802852720fb"]),
    ("119_enforce_payment_orders_out_trade_no_unique.sql", newMigrationChecksumCompatibilityRule
      "0bbe809ae48a9d811dabda1ba1c74955bd71c4a9cc610f9128816818dfa6c11e"
      ["ebd2c67cce0116393fb4f1b5d5116a67c6aceb73820dfb5133d1ff6f36d72d34"]),
    ("120_enforce_payment_orders_out_trade_no_unique_notx.sql", newMigrationChecksumCompatibilityRule
      "34aadc0db59a4e390f92a12b73bd74642d9724f33124f73638ae00089ea5e074"
      ["e77921f79d539bc24575cb9c16cbe566d2b23ce816190343d0a7568f6a3fcf61",
        "707431450603e70a43ce9fbd61e0c12fa67da4875158ccefabacea069587ab22",
        "04b082b5a239c525154fe9185d324ee2b05ff90da9297e10dba19f9be79aa59a"]),
    ("123_fix_legacy_auth_source_grant_on_signup_defaults.sql", newMigrationChecksumCompatibilityRule
      "2ce43c2cd89e9f9e1febd34a407ed9e84d177386c5544b6f02c1f58a21129f57"
      ["6cd33422f215dcd1f486ab6f35c0ea5805d9ca69bb25906d94bc649156657145"]),
    ("159_batch_image_foundation.sql", newMigrationChecksumCompatibilityRule
      "d902b70982025ec519749faf058aab7631e82c3f48167b9a4ae4db718eb72cce"
      ["82da85b5d98e67a0507647b873a40373e84538e4adafdeed6767c0ac8b6570b2"]),
    ("161_batch_image_pricing_snapshot.sql", newMigrationChecksumCompatibilityRule
      "4012af3e43636cb6af22e0176d59d1fcc70615c0f310194329461ae462c4fbd6"
      ["96d915c9b7a6941ae99039e0ff3f1a61481eb9bddd933d11c6fadb2274554e87"]),
    ("234_account_model_health_probe_failures.sql", newMigrationChecksumCompatibilityRule
      "ada3fb0d3633e35de24969c55209dc7d10e115b7a9d51d358fb75142427b9680"
      ["ada752ff9d07d964669f404df9a6b5d518520728d9538df4399e8ef3cad91fa9"]),
    ("195_channel_monitor_mode.sql", newMigrationChecksumCompatibilityRule
      "13f3792f3e3e53ee96e26415c884cf8062c77172824b54fcc9a8c0c2b1f185ec"
      ["4c74fe33ef2274cc72e1bb49671e651274532c034b29f5b2982c2a4c88d101a6"]),
    ("220_clear_non_grok_video_generation_config.sql", newMigrationChecksumCompatibilityRule
      "85e320b9ec64f2d3fcd8cf705b2b4e76a7b49f7a57140c14bff97f32691c818b"
      ["3da48c8fdffe6390325f43d08b8e353e0a365df43d44a78dbbe655d0deb18402"]),
    ("219_group_search_price_per_1k.sql", newMigrationChecksumCompatibilityRule
      "e86786ebcc3b14206fd2d321380a4e50e80cdadbfcf4962c639255e6a14008db"
      ["df6ffd71b97e30ec2c8fe7b95e15783042dea58c553e32701ee7c42a5619af80"]),
    ("218_group_audio_voice_pricing.sql", newMigrationChecksumCompatibilityRule
      "40ee9f3a2af0e0a5e99dabc878fd0fe98be1011f26bcfcefcac7197f7081f0e7"
      ["c2a5e5b4ffd6968ad1c10593289fbc11192cdea19fec3ed9bce3a84eff9a8351"]),
    ("244_model_aliases_and_fallback_policy.sql", newMigrationChecksumCompatibilityRule
      "c52da0b844961bd1709e11321d29361004dd9d0d8ae0eefc88411f98e6e82195"
      ["f8f482b5691071a796fcce9d77e0c03e0065f58174b9d5b893b1c1bbf6203f18"]),
    ("246_deepseek_provider_model_aliases.sql", newMigrationChecksumCompatibilityRule
      "43d1132e80f99ff010ec8852719122ef4d4fa671a4da06c63b9bd618ad6c09ec"
      ["77d37168f52a38d3cfb8b860a4630b93ff1db4eb5e753dbc7ac68eb4144d9461"])]

def isMigrationChecksumCompatible (name dbChecksum fileChecksum : String) : Bool :=
  match migrationChecksumCompatibilityRules.lookup name with
  | none => false
  | some rule =>
      rule.acceptedChecksums.contains dbChecksum && rule.acceptedChecksums.contains fileChecksum

/-! ### Statements -/

def splitSQLStatements (content : String) : List String :=
  (splitOn content ';').filter fun part => trimSpace part ≠ ""

def stripSQLLineComment (s : String) : String :=
  trimSpace (join ((splitOn s '\n').map fun line => before line "--") "\n")

def isNonTransactional (o : Outside) (name : String) : Bool :=
  hasSuffix (o.lower (trimSpace name)) nonTransactionalMigrationSuffix

/-- The check of one statement of a file that runs outside a transaction. -/
def validateStatement (o : Outside) (stmt : String) : Except String Unit :=
  let normalized := o.upper (stripSQLLineComment (trimSpace stmt))
  if normalized = "" then .ok ()
  else if contains normalized "CONCURRENTLY" then
    let isCreateIndex := contains normalized "CREATE" && contains normalized "INDEX"
    let isDropIndex := contains normalized "DROP" && contains normalized "INDEX"
    if !isCreateIndex && !isDropIndex then
      .error "*_notx.sql currently only supports CREATE/DROP INDEX CONCURRENTLY statements"
    else if isCreateIndex && !contains normalized "IF NOT EXISTS" then
      .error "CREATE INDEX CONCURRENTLY in *_notx.sql must include IF NOT EXISTS for idempotency"
    else if isDropIndex && !contains normalized "IF EXISTS" then
      .error "DROP INDEX CONCURRENTLY in *_notx.sql must include IF EXISTS for idempotency"
    else .ok ()
  else .error "*_notx.sql must not mix non-CONCURRENTLY SQL statements"

def validateMigrationExecutionMode (o : Outside) (name content : String) : Except String Bool :=
  let upperContent := o.upper content
  if !isNonTransactional o name then
    if contains upperContent "CONCURRENTLY" then
      .error "CONCURRENTLY statements must be placed in *_notx.sql migrations"
    else .ok false
  else if contains upperContent "BEGIN" || contains upperContent "COMMIT"
      || contains upperContent "ROLLBACK" then
    .error "*_notx.sql must not contain transaction control statements (BEGIN/COMMIT/ROLLBACK)"
  else
    match (splitSQLStatements content).forM (validateStatement o) with
    | .error reason => .error reason
    | .ok () => .ok true

/-! ### The database -/

structure Db where
  schemaTable : Bool := false
  recorded : List (String × String) := []
  atlasTable : Bool := false
  atlasRevisions : List (String × String × String) := []
  indexes : String → Option Bool := fun _ => none
  outTradeNos : List String := []
  overInvalid : List String := []

def Db.setIndex (db : Db) (name : String) (valid : Option Bool) : Db :=
  { db with indexes := fun other => if other = name then valid else db.indexes other }

/-- `CREATE INDEX CONCURRENTLY IF NOT EXISTS` and `DROP INDEX CONCURRENTLY IF EXISTS`: an index of
the name is accepted as it is. -/
def Db.change (db : Db) : IndexChange → Db
  | .create name =>
      match db.indexes name with
      | none => db.setIndex name (some true)
      | some true => db
      | some false => { db with overInvalid := name :: db.overInvalid }
  | .drop name => db.setIndex name none

/-- What such a statement leaves when it fails midway: an INVALID index. -/
def Db.halfway (db : Db) : IndexChange → Db
  | .create name => if db.indexes name = none then db.setIndex name (some false) else db
  | .drop name => if db.indexes name = none then db else db.setIndex name (some false)

/-- The change of a transaction, in which an index is built at once. -/
def Db.changeInTx (db : Db) : IndexChange → Db
  | .create name => if db.indexes name = none then db.setIndex name (some true) else db
  | .drop name => db.setIndex name none

/-- `INSERT INTO schema_migrations`: the file name is the primary key. -/
def Db.record (db : Db) (name checksum : String) : Option Db :=
  if db.schemaTable ∧ ∀ row ∈ db.recorded, row.1 ≠ name then
    some { db with recorded := db.recorded ++ [(name, checksum)] }
  else none

/-! ### The runner -/

inductive Failure where
  | lock
  | createSchemaMigrations
  | atlas (step : String)
  | checkMigration (name : String)
  | checksumMismatch (name db file : String)
  | validateMigration (name reason : String)
  | checkInvalidIndex (name indexName : String)
  | dropInvalidIndex (name indexName : String)
  | precheckDuplicates (name : String)
  | duplicateOutTradeNos (name : String) (duplicates : List String)
  | applyNonTx (name : String) (statement : ℕ)
  | recordNonTx (name : String)
  | begin (name : String)
  | apply (name : String)
  | record (name : String)
  | commit (name : String)
  deriving DecidableEq

abbrev Runner := Session Db Failure

def dropInvalidIndexIfPresent (name indexName : String) : Runner Unit := do
  let invalid ← Session.query (.checkInvalidIndex name indexName)
    fun db => db.indexes indexName == some false
  if invalid then
    Session.exec (.dropInvalidIndex name indexName)
      (fun db => some ((), db.setIndex indexName none)) id
  else pure ()

def dropInvalidIndexes (name : String) : List String → Runner Unit
  | [] => pure ()
  | indexName :: rest => do
      dropInvalidIndexIfPresent name indexName
      dropInvalidIndexes name rest

/-- `findDuplicatePaymentOrderOutTradeNos`: at most five, the most frequent first. -/
def findDuplicatePaymentOrderOutTradeNos (outTradeNos : List String) : List String :=
  let named := outTradeNos.filter (· ≠ "")
  let repeated := named.eraseDups.filter fun outTradeNo => 1 < named.count outTradeNo
  let sorted := repeated.mergeSort fun a b =>
    decide (named.count b < named.count a ∨ (named.count a = named.count b ∧ a ≤ b))
  (sorted.take 5).map fun outTradeNo => s!"{outTradeNo} (count={named.count outTradeNo})"

def paymentOrdersOutTradeNoUniqueMigration : String :=
  "120_enforce_payment_orders_out_trade_no_unique_notx.sql"

/-- The indexes that `prepareNonTransactionalMigration` drops when they are INVALID, file by file. -/
def preparedIndexes (name : String) : List String :=
  if name = paymentOrdersOutTradeNoUniqueMigration then ["paymentorder_out_trade_no_unique"]
  else if name = "153_scheduler_outbox_pending_dedup_key_index_notx.sql" then
    ["idx_scheduler_outbox_pending_dedup_key"]
  else if name = "174_add_usage_logs_api_key_latest_ip_index_notx.sql" then
    ["idx_usage_logs_api_key_latest_ip"]
  else if name = "195_add_usage_log_upstream_model_mismatch_index_notx.sql" then
    ["idx_usage_logs_upstream_model_mismatch_created_at"]
  else if name = "226_add_usage_log_effective_model_indexes_notx.sql" then
    ["idx_usage_logs_effective_requested_model_created",
      "idx_usage_logs_effective_upstream_model_created"]
  else if name = "233_add_usage_log_upstream_request_id_index_notx.sql" then
    ["idx_usage_logs_upstream_request_id"]
  else []

def prepareNonTransactionalMigration (name : String) : Runner Unit := do
  if name = paymentOrdersOutTradeNoUniqueMigration then
    let duplicates ← Session.query (.precheckDuplicates name)
      fun db => findDuplicatePaymentOrderOutTradeNos db.outTradeNos
    if duplicates ≠ [] then Session.throw (.duplicateOutTradeNos name duplicates)
    else dropInvalidIndexes name (preparedIndexes name)
  else dropInvalidIndexes name (preparedIndexes name)

/-- The statements of a file that runs outside a transaction, without the blank ones. -/
def applyStatements (o : Outside) (name : String) : ℕ → List String → Runner Unit
  | _, [] => pure ()
  | i, stmt :: rest =>
      let trimmed := trimSpace stmt
      if trimmed = "" then applyStatements o name (i + 1) rest
      else if stripSQLLineComment trimmed = "" then applyStatements o name (i + 1) rest
      else do
        Session.exec (.applyNonTx name (i + 1))
          (fun db => (o.statement trimmed).map fun change => ((), db.change change))
          (fun db => (o.statement trimmed).elim db db.halfway)
        applyStatements o name (i + 1) rest

/-- The transaction: what its statements did reaches the database with the commit. -/
def applyInTransaction (o : Outside) (name content checksum : String) : Runner Unit := do
  Session.query (.begin name) fun _ => ()
  Session.exec (.apply name) (fun db => (o.transaction content).map fun _ => ((), db)) id
  Session.exec (.record name) (fun db => (db.record name checksum).map fun _ => ((), db)) id
  Session.exec (.commit name)
    (fun db => do
      let changes ← o.transaction content
      let db ← db.record name checksum
      return ((), changes.foldl Db.changeInTx db)) id

def applyFile (o : Outside) (file : File) : Runner Unit :=
  let name := file.name
  let content := trimSpace file.content
  if content = "" then pure ()
  else do
    let checksum := o.checksum content
    let existing ← Session.exec (.checkMigration name)
      (fun db => if db.schemaTable then some (db.recorded.lookup name, db) else none) id
    match existing with
    | some existing =>
        if existing = checksum then pure ()
        else if isMigrationChecksumCompatible name existing checksum then pure ()
        else Session.throw (.checksumMismatch name existing checksum)
    | none =>
        match validateMigrationExecutionMode o name content with
        | .error reason => Session.throw (.validateMigration name reason)
        | .ok true => do
            prepareNonTransactionalMigration name
            applyStatements o name 0 (splitSQLStatements content)
            Session.exec (.recordNonTx name)
              (fun db => (db.record name checksum).map fun db => ((), db)) id
        | .ok false => applyInTransaction o name content checksum

def applyFiles (o : Outside) : List File → Runner Unit
  | [] => pure ()
  | file :: rest => do
      applyFile o file
      applyFiles o rest

/-- `latestMigrationBaseline`: version, description and hash. -/
def latestMigrationBaseline (o : Outside) (files : List File) : String × String × String :=
  match (listMigrationFiles files).getLast? with
  | none => ("baseline", "baseline", "")
  | some file =>
      let version := trimSuffix file.name ".sql"
      (version, version, o.checksum (trimSpace file.content))

def ensureAtlasBaselineAligned (o : Outside) (files : List File) : Runner Unit := do
  let hasLegacy ← Session.query (.atlas "check schema_migrations") fun db => db.schemaTable
  if !hasLegacy then pure ()
  else
    let hasAtlas ← Session.query (.atlas "check atlas_schema_revisions") fun db => db.atlasTable
    if hasAtlas then pure ()
    else
      Session.exec (.atlas "create atlas_schema_revisions")
        (fun db => some ((), { db with atlasTable := true })) id
    let count ← Session.query (.atlas "count atlas_schema_revisions")
      fun db => db.atlasRevisions.length
    if count > 0 then pure ()
    else
      Session.exec (.atlas "insert atlas baseline")
        (fun db => some ((), { db with
          atlasRevisions := db.atlasRevisions ++ [latestMigrationBaseline o files] })) id

def applyMigrationsFS (o : Outside) (files : List File) : Runner Unit := do
  Session.query .lock fun _ => ()
  Session.exec .createSchemaMigrations (fun db => some ((), { db with schemaTable := true })) id
  ensureAtlasBaselineAligned o files
  applyFiles o (listMigrationFiles files)

/-- One start of the program: what becomes of its statements, and the orders it finds. -/
structure Attempt where
  outcomes : List Outcome
  outTradeNos : List String := []

def Attempt.run (o : Outside) (files : List File) (attempt : Attempt) (db : Db) :
    Except Failure Unit × Db :=
  let (answer, _, db) := applyMigrationsFS o files attempt.outcomes
    { db with outTradeNos := attempt.outTradeNos }
  (answer, db)

/-- The database after a list of attempts, from an empty one. -/
def after (o : Outside) (files : List File) (attempts : List Attempt) : Db :=
  attempts.foldl (fun db attempt => (attempt.run o files db).2) {}

end Sub2api.Migrations
