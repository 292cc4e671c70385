import Mathlib.Data.List.Induction
import Sub2api.Migrations.Runner

/-!
# The indexes a run of attempts leaves

The files are applied in the order of their names, so the recorded ones are always the first ones.
`Progress` says this of the database, with what the recorded files settle about the indexes: it is
known of every index that the next file, when it runs outside a transaction, does not change. One
lemma a part of the runner, each a triple with a crash condition, keeps it; `returned_leavesValid_iff`
is what follows for a run of attempts whose last one returned.
-/

namespace Sub2api.Migrations

open Go Database

-- No proof here depends on what trimming does.
attribute [local irreducible] trimSpace

/-! ### What the files settle -/

/-- The statements of a file that reach the database. -/
def executedStatements (content : String) : List String :=
  ((splitSQLStatements content).map trimSpace).filter fun trimmed =>
    trimmed ≠ "" ∧ stripSQLLineComment trimmed ≠ ""

def File.blank (file : File) : Bool := trimSpace file.content = ""

/-- The changes of the indexes that a file stands for. -/
def File.changes (o : Outside) (file : File) : List IndexChange :=
  if file.blank then []
  else if isNonTransactional o file.name then
    (executedStatements (trimSpace file.content)).filterMap o.statement
  else (o.transaction (trimSpace file.content)).getD []

def File.row (o : Outside) (file : File) : String × String :=
  (file.name, o.checksum (trimSpace file.content))

def IndexChange.settles : IndexChange → Option Bool
  | .create _ => some true
  | .drop _ => none

/-- What a list of changes leaves of an index, when nothing goes wrong. -/
def settled : List IndexChange → String → Option Bool :=
  List.foldl (fun status change name => if change.name = name then change.settles else status name)
    fun _ => none

theorem settled_append (changes : List IndexChange) (change : IndexChange) (name : String) :
    settled (changes ++ [change]) name =
      if change.name = name then change.settles else settled changes name := by
  simp [settled, List.foldl_append]

/-- The later changes decide, where they name the index at all. -/
theorem settled_later (first later : List IndexChange) (name : String) :
    settled (first ++ later) name =
      if name ∈ later.map (·.name) then settled later name else settled first name := by
  induction later using List.reverseRecOn with
  | nil => simp
  | append_singleton later change ih =>
      rw [← List.append_assoc, settled_append, settled_append, ih]
      by_cases own : change.name = name
      · simp [own]
      · have other : name ≠ change.name := fun same => own same.symm
        simp [own, other]

theorem settled_valid (changes : List IndexChange) (name : String) :
    settled changes name ≠ some false := by
  induction changes using List.reverseRecOn with
  | nil => simp [settled]
  | append_singleton changes change ih =>
      rw [settled_append]
      split
      · cases change <;> simp [IndexChange.settles]
      · exact ih

/-! ### Progress -/

/-- The indexes that the next file may have left in any state. -/
def touched (o : Outside) : List File → List String
  | [] => []
  | file :: rest =>
      if file.blank then touched o rest
      else if isNonTransactional o file.name then (file.changes o).map (·.name)
      else []

/-- The files that are done are recorded, and they settle the indexes the next one leaves alone. -/
structure Progress (o : Outside) (done rest : List File) (db : Db) : Prop where
  recorded : db.recorded = (done.filter (!·.blank)).map (·.row o)
  indexes : db.overInvalid = [] → ∀ name, name ∉ touched o rest →
    db.indexes name = settled (done.flatMap (·.changes o)) name

/-- Some first part of the files is done. -/
def Underway (o : Outside) (files : List File) (db : Db) : Prop :=
  ∃ done rest, done ++ rest = files ∧ Progress o done rest db

/-- While a file runs outside a transaction: what the others settle, and what its own statements
settled so far. -/
structure Midway (o : Outside) (done : List File) (file : File) (applied : List IndexChange)
    (db : Db) : Prop where
  schema : db.schemaTable = true
  recorded : db.recorded = (done.filter (!·.blank)).map (·.row o)
  others : db.overInvalid = [] → ∀ name, name ∉ (file.changes o).map (·.name) →
    db.indexes name = settled (done.flatMap (·.changes o)) name
  own : db.overInvalid = [] → ∀ name ∈ applied.map (·.name), db.indexes name = settled applied name

variable {o : Outside} {done rest : List File} {file : File}

theorem touched_of_nonTx (nonblank : file.blank = false) (nonTx : isNonTransactional o file.name) :
    touched o (file :: rest) = (file.changes o).map (·.name) := by
  simp [touched, nonblank, nonTx]

/-- Wherever a file stops, the files before it are done. -/
theorem Midway.progress {applied : List IndexChange} {db : Db} (nonblank : file.blank = false)
    (nonTx : isNonTransactional o file.name) (midway : Midway o done file applied db) :
    Progress o done (file :: rest) db where
  recorded := midway.recorded
  indexes := by
    rw [touched_of_nonTx nonblank nonTx]
    exact midway.others

/-- Dropping an INVALID index touches nothing that is settled. -/
theorem Midway.dropped {db : Db} {indexName : String} (midway : Midway o done file [] db)
    (invalid : db.indexes indexName = some false) :
    Midway o done file [] (db.setIndex indexName none) where
  schema := midway.schema
  recorded := midway.recorded
  others := by
    intro fine name outside
    have status := midway.others fine name outside
    by_cases same : name = indexName
    · subst same
      exact absurd (status.symm.trans invalid) (settled_valid _ _)
    · simpa [Db.setIndex, same] using status
  own := by
    intro _ name impossible
    cases impossible

theorem dropInvalidIndexIfPresent_spec (name indexName : String) (nonblank : file.blank = false)
    (nonTx : isNonTransactional o file.name) :
    Session.Triple (Midway o done file []) (dropInvalidIndexIfPresent name indexName)
      (fun _ => Midway o done file []) (Progress o done (file :: rest)) := by
  have check : Session.Triple (Midway o done file [])
      (Session.query (Failure.checkInvalidIndex name indexName)
        fun db : Db => db.indexes indexName == some false)
      (fun invalid db => Midway o done file [] db ∧
        (invalid = true → db.indexes indexName = some false))
      (Progress o done (file :: rest)) := by
    apply Session.Triple.query
    · intro db midway
      exact midway.progress nonblank nonTx
    · intro db midway
      exact ⟨midway, by simp⟩
  refine Session.Triple.bind check ?_
  intro invalid
  split
  · rename_i isInvalid
    apply Session.Triple.exec
    · rintro db ⟨midway, _⟩
      exact ⟨midway.progress nonblank nonTx, midway.progress nonblank nonTx⟩
    · rintro db _ db' ⟨midway, status⟩ made
      cases made
      have dropped := midway.dropped (status isInvalid)
      exact ⟨dropped, dropped.progress nonblank nonTx⟩
  · apply Session.Triple.ret
    rintro db ⟨midway, _⟩
    exact midway

theorem dropInvalidIndexes_spec (name : String) (indexNames : List String)
    (nonblank : file.blank = false) (nonTx : isNonTransactional o file.name) :
    Session.Triple (Midway o done file []) (dropInvalidIndexes name indexNames)
      (fun _ => Midway o done file []) (Progress o done (file :: rest)) := by
  induction indexNames with
  | nil => exact Session.Triple.ret fun _ midway => midway
  | cons indexName later ih =>
      exact Session.Triple.bind (dropInvalidIndexIfPresent_spec name indexName nonblank nonTx)
        fun _ => ih

theorem prepareNonTransactionalMigration_spec (name : String) (nonblank : file.blank = false)
    (nonTx : isNonTransactional o file.name) :
    Session.Triple (Midway o done file []) (prepareNonTransactionalMigration name)
      (fun _ => Midway o done file []) (Progress o done (file :: rest)) := by
  unfold prepareNonTransactionalMigration
  split
  · have precheck : Session.Triple (Midway o done file [])
        (Session.query (Failure.precheckDuplicates name)
          fun db : Db => findDuplicatePaymentOrderOutTradeNos db.outTradeNos)
        (fun _ => Midway o done file []) (Progress o done (file :: rest)) := by
      apply Session.Triple.query
      · intro db midway
        exact midway.progress nonblank nonTx
      · intro db midway
        exact midway
    refine Session.Triple.bind precheck ?_
    intro duplicates
    split
    · exact Session.Triple.throw fun db midway => midway.progress nonblank nonTx
    · exact dropInvalidIndexes_spec name _ nonblank nonTx
  · exact dropInvalidIndexes_spec name _ nonblank nonTx

/-! ### The statements of a file -/

theorem Db.change_fine {db : Db} {change : IndexChange}
    (fine : (db.change change).overInvalid = []) :
    db.overInvalid = [] ∧ (db.change change).indexes change.name = change.settles := by
  cases change with
  | create name =>
      unfold Db.change at fine ⊢
      dsimp only at fine ⊢
      split at fine
      · simp_all [Db.setIndex, IndexChange.name, IndexChange.settles]
      · simp_all [IndexChange.name, IndexChange.settles]
      · cases fine
  | drop name =>
      exact ⟨fine, by simp [Db.change, Db.setIndex, IndexChange.name, IndexChange.settles]⟩

theorem Db.change_other {db : Db} {change : IndexChange} {name : String}
    (other : name ≠ change.name) : (db.change change).indexes name = db.indexes name := by
  cases change with
  | create created =>
      unfold Db.change
      dsimp only
      split
      · exact if_neg other
      · rfl
      · rfl
  | drop dropped => exact if_neg other

theorem Db.change_kept (db : Db) (change : IndexChange) :
    (db.change change).schemaTable = db.schemaTable ∧
      (db.change change).recorded = db.recorded := by
  cases change with
  | create created =>
      unfold Db.change
      dsimp only
      split
      · exact ⟨rfl, rfl⟩
      · exact ⟨rfl, rfl⟩
      · exact ⟨rfl, rfl⟩
  | drop dropped => exact ⟨rfl, rfl⟩

theorem Db.halfway_other {db : Db} {change : IndexChange} {name : String}
    (other : name ≠ change.name) : (db.halfway change).indexes name = db.indexes name := by
  cases change with
  | create created =>
      unfold Db.halfway
      dsimp only
      split
      · exact if_neg other
      · rfl
  | drop dropped =>
      unfold Db.halfway
      dsimp only
      split
      · rfl
      · exact if_neg other

theorem Db.halfway_kept (db : Db) (change : IndexChange) :
    (db.halfway change).recorded = db.recorded ∧
      (db.halfway change).overInvalid = db.overInvalid := by
  cases change with
  | create created =>
      unfold Db.halfway
      dsimp only
      split <;> exact ⟨rfl, rfl⟩
  | drop dropped =>
      unfold Db.halfway
      dsimp only
      split <;> exact ⟨rfl, rfl⟩

/-- A statement of the file settles its index and leaves the others. -/
theorem Midway.change {applied : List IndexChange} {change : IndexChange} {db : Db}
    (midway : Midway o done file applied db) (listed : change ∈ file.changes o) :
    Midway o done file (applied ++ [change]) (db.change change) where
  schema := (db.change_kept change).1.trans midway.schema
  recorded := (db.change_kept change).2.trans midway.recorded
  others := by
    intro fine name outside
    have other : name ≠ change.name := by
      rintro rfl
      exact outside (List.mem_map.mpr ⟨change, listed, rfl⟩)
    rw [Db.change_other other]
    exact midway.others (Db.change_fine fine).1 name outside
  own := by
    intro fine name named
    obtain ⟨fineBefore, settles⟩ := Db.change_fine fine
    rw [settled_append]
    by_cases own : change.name = name
    · rw [if_pos own, ← own]
      exact settles
    · rw [if_neg own, Db.change_other fun same => own same.symm]
      apply midway.own fineBefore
      rw [List.map_append, List.mem_append] at named
      rcases named with earlier | last
      · exact earlier
      · exact absurd (List.mem_singleton.mp last).symm own

/-- A statement that stops halfway leaves the files before done. -/
theorem Midway.halfway {applied : List IndexChange} {change : IndexChange} {db : Db}
    (midway : Midway o done file applied db) (listed : change ∈ file.changes o)
    (nonblank : file.blank = false) (nonTx : isNonTransactional o file.name) :
    Progress o done (file :: rest) (db.halfway change) where
  recorded := (db.halfway_kept change).1.trans midway.recorded
  indexes := by
    rw [touched_of_nonTx nonblank nonTx]
    intro fine name outside
    have other : name ≠ change.name := by
      rintro rfl
      exact outside (List.mem_map.mpr ⟨change, listed, rfl⟩)
    rw [Db.halfway_other other]
    exact midway.others ((db.halfway_kept change).2.symm.trans fine) name outside

theorem executedStatements_cons (stmt : String) (later : List String) :
    ((stmt :: later).map trimSpace).filter (fun trimmed =>
        decide (trimmed ≠ "" ∧ stripSQLLineComment trimmed ≠ "")) =
      if trimSpace stmt ≠ "" ∧ stripSQLLineComment (trimSpace stmt) ≠ "" then
        trimSpace stmt :: (later.map trimSpace).filter fun trimmed =>
          decide (trimmed ≠ "" ∧ stripSQLLineComment trimmed ≠ "")
      else (later.map trimSpace).filter fun trimmed =>
        decide (trimmed ≠ "" ∧ stripSQLLineComment trimmed ≠ "") := by
  rw [List.map_cons, List.filter_cons]
  simp only [decide_eq_true_eq]

/-- The loop over the statements, with those before it applied. -/
theorem applyStatements_spec (nonblank : file.blank = false)
    (nonTx : isNonTransactional o file.name) (name : String) (stmts : List String) (i : ℕ)
    (applied : List IndexChange)
    (all : applied ++ (((stmts.map trimSpace).filter fun trimmed =>
      decide (trimmed ≠ "" ∧ stripSQLLineComment trimmed ≠ "")).filterMap o.statement) =
        file.changes o) :
    Session.Triple (Midway o done file applied) (applyStatements o name i stmts)
      (fun _ => Midway o done file (file.changes o)) (Progress o done (file :: rest)) := by
  induction stmts generalizing i applied with
  | nil =>
      have same : applied = file.changes o := by simpa using all
      rw [same]
      exact Session.Triple.ret fun _ midway => midway
  | cons stmt later ih =>
      rw [executedStatements_cons] at all
      unfold applyStatements
      dsimp only
      split
      · rename_i empty
        rw [if_neg (fun both => both.1 empty)] at all
        exact ih (i + 1) applied all
      · rename_i nonempty
        split
        · rename_i comment
          rw [if_neg (fun both => both.2 comment)] at all
          exact ih (i + 1) applied all
        · rename_i text
          rw [if_pos ⟨nonempty, text⟩, List.filterMap_cons] at all
          cases meaning : o.statement (trimSpace stmt) with
          | none =>
              -- PostgreSQL refuses the statement whatever the outcome.
              rw [meaning] at all
              refine Session.Triple.bind (Session.Triple.exec ?_ ?_) fun _ => ih (i + 1) applied all
              · intro db midway
                exact ⟨midway.progress nonblank nonTx, midway.progress nonblank nonTx⟩
              · intro db _ db' _ made
                cases made
          | some change =>
              rw [meaning] at all
              dsimp only at all
              have listed : change ∈ file.changes o := by
                rw [← all]
                exact List.mem_append_right _ (List.mem_cons_self ..)
              have next : (applied ++ [change]) ++ (((later.map trimSpace).filter fun trimmed =>
                  decide (trimmed ≠ "" ∧ stripSQLLineComment trimmed ≠ "")).filterMap o.statement) =
                    file.changes o := by
                rw [List.append_assoc]
                exact all
              refine Session.Triple.bind (Session.Triple.exec ?_ ?_)
                fun _ => ih (i + 1) (applied ++ [change]) next
              · intro db midway
                exact ⟨midway.progress nonblank nonTx, midway.halfway listed nonblank nonTx⟩
              · intro db _ db' midway made
                cases made
                have changed := midway.change listed
                exact ⟨changed, changed.progress nonblank nonTx⟩

/-! ### Recording -/

theorem Db.record_some {db db' : Db} {name checksum : String}
    (recorded : db.record name checksum = some db') :
    db' = { db with recorded := db.recorded ++ [(name, checksum)] } := by
  unfold Db.record at recorded
  split at recorded
  · exact (Option.some.inj recorded).symm
  · cases recorded

theorem rows_append (nonblank : file.blank = false) :
    ((done ++ [file]).filter (!·.blank)).map (·.row o) =
      (done.filter (!·.blank)).map (·.row o) ++ [file.row o] := by
  simp [List.filter_append, nonblank]

/-- A file whose statements went through settles its indexes once it is recorded. -/
theorem Midway.finish {db db' : Db} (midway : Midway o done file (file.changes o) db)
    (nonblank : file.blank = false)
    (recorded : db.record file.name (o.checksum (trimSpace file.content)) = some db') :
    db'.schemaTable = true ∧ Progress o (done ++ [file]) rest db' := by
  rw [Db.record_some recorded]
  refine ⟨midway.schema, ?_, ?_⟩
  · rw [rows_append nonblank, ← midway.recorded]
    rfl
  · intro fine name _
    rw [List.flatMap_append, List.flatMap_singleton, settled_later]
    by_cases own : name ∈ (file.changes o).map (·.name)
    · rw [if_pos own]
      exact midway.own fine name own
    · rw [if_neg own]
      exact midway.others fine name own

theorem Db.changeInTx_kept (db : Db) (change : IndexChange) :
    (db.changeInTx change).schemaTable = db.schemaTable ∧
      (db.changeInTx change).recorded = db.recorded ∧
      (db.changeInTx change).overInvalid = db.overInvalid := by
  cases change with
  | create created =>
      unfold Db.changeInTx
      dsimp only
      split <;> exact ⟨rfl, rfl, rfl⟩
  | drop dropped => exact ⟨rfl, rfl, rfl⟩

theorem Db.changeInTx_settled {db : Db} {changes : List IndexChange}
    (status : ∀ name, db.indexes name = settled changes name) (change : IndexChange)
    (name : String) : (db.changeInTx change).indexes name = settled (changes ++ [change]) name := by
  cases change with
  | create created =>
      have settles : settled (changes ++ [.create created]) name =
          if created = name then some true else settled changes name := settled_append _ _ _
      rw [settles]
      simp only [Db.changeInTx]
      by_cases own : created = name
      · subst own
        rw [if_pos rfl]
        split
        · simp [Db.setIndex]
        · rename_i present
          have valid := settled_valid changes created
          rw [← status] at valid
          cases found : db.indexes created with
          | none => exact absurd found present
          | some isValid =>
              cases isValid with
              | true => rfl
              | false => exact absurd found valid
      · have other : name ≠ created := fun same => own same.symm
        rw [if_neg own]
        split
        · simpa [Db.setIndex, other] using status name
        · exact status name
  | drop dropped =>
      have settles : settled (changes ++ [.drop dropped]) name =
          if dropped = name then none else settled changes name := settled_append _ _ _
      rw [settles]
      simp only [Db.changeInTx, Db.setIndex]
      by_cases own : dropped = name
      · simp [own]
      · have other : name ≠ dropped := fun same => own same.symm
        simpa [own, other] using status name

theorem Db.changesInTx (later : List IndexChange) {db : Db} :
    (later.foldl Db.changeInTx db).schemaTable = db.schemaTable ∧
      (later.foldl Db.changeInTx db).recorded = db.recorded ∧
      (later.foldl Db.changeInTx db).overInvalid = db.overInvalid ∧
      ∀ changes, (∀ name, db.indexes name = settled changes name) →
        ∀ name, (later.foldl Db.changeInTx db).indexes name = settled (changes ++ later) name := by
  induction later generalizing db with
  | nil =>
      refine ⟨rfl, rfl, rfl, ?_⟩
      intro changes status name
      rw [List.append_nil]
      exact status name
  | cons change later ih =>
      obtain ⟨schema, recorded, overInvalid, settles⟩ := @ih (db.changeInTx change)
      obtain ⟨schema', recorded', overInvalid'⟩ := db.changeInTx_kept change
      refine ⟨schema.trans schema', recorded.trans recorded', overInvalid.trans overInvalid', ?_⟩
      intro changes status name
      have all := settles (changes ++ [change]) (Db.changeInTx_settled status change) name
      rw [List.append_assoc] at all
      exact all

theorem changes_of_tx (nonblank : file.blank = false) (tx : ¬ isNonTransactional o file.name) :
    file.changes o = (o.transaction (trimSpace file.content)).getD [] := by
  simp [File.changes, nonblank, tx]

theorem touched_of_tx (nonblank : file.blank = false) (tx : ¬ isNonTransactional o file.name) :
    touched o (file :: rest) = [] := by
  simp [touched, nonblank, tx]

/-- A file that runs inside a transaction settles its indexes with the commit. -/
theorem Progress.commit {db db' : Db} {changes : List IndexChange}
    (progress : Progress o done (file :: rest) db) (schema : db.schemaTable = true)
    (nonblank : file.blank = false) (tx : ¬ isNonTransactional o file.name)
    (meaning : o.transaction (trimSpace file.content) = some changes)
    (recorded : db.record file.name (o.checksum (trimSpace file.content)) = some db') :
    (changes.foldl Db.changeInTx db').schemaTable = true ∧
      Progress o (done ++ [file]) rest (changes.foldl Db.changeInTx db') := by
  rw [Db.record_some recorded]
  obtain ⟨schema', recorded', overInvalid, settles⟩ :=
    @Db.changesInTx changes
      { db with recorded := db.recorded ++ [(file.name, o.checksum (trimSpace file.content))] }
  refine ⟨schema'.trans schema, ?_, ?_⟩
  · rw [recorded', rows_append nonblank, ← progress.recorded]
    rfl
  · intro fine name _
    rw [overInvalid] at fine
    have status := progress.indexes fine
    rw [touched_of_tx nonblank tx] at status
    rw [List.flatMap_append, List.flatMap_singleton, changes_of_tx nonblank tx, meaning]
    exact settles _ (fun other => status other (List.not_mem_nil)) name

/-! ### One file -/

/-- The loop stands before `left`, of which a first part may be done already. -/
def At (o : Outside) (passed left : List File) (db : Db) : Prop :=
  ∃ ahead rest, ahead ++ rest = left ∧ db.schemaTable = true ∧
    Progress o (passed ++ ahead) rest db

theorem applyInTransaction_spec {files passed : List File} (split : passed ++ file :: rest = files)
    (nonblank : file.blank = false) (tx : ¬ isNonTransactional o file.name) :
    Session.Triple (fun db => db.schemaTable = true ∧ Progress o passed (file :: rest) db)
      (applyInTransaction o file.name (trimSpace file.content)
        (o.checksum (trimSpace file.content)))
      (fun _ db => db.schemaTable = true ∧ Progress o (passed ++ [file]) rest db)
      (Underway o files) := by
  have stops : ∀ db : Db, (db.schemaTable = true ∧ Progress o passed (file :: rest) db) →
      Underway o files db := fun db before => ⟨passed, file :: rest, split, before.2⟩
  -- Until the commit nothing reaches the database.
  have pending : ∀ (e : Failure) (effect : Db → Option (Unit × Db)),
      (∀ db a db', effect db = some (a, db') → db' = db) →
      Session.Triple (fun db => db.schemaTable = true ∧ Progress o passed (file :: rest) db)
        (Session.exec e effect id)
        (fun _ db => db.schemaTable = true ∧ Progress o passed (file :: rest) db)
        (Underway o files) := by
    intro e effect unchanged
    apply Session.Triple.exec
    · intro db before
      exact ⟨stops db before, stops db before⟩
    · intro db a db' before made
      rw [unchanged db a db' made]
      exact ⟨before, stops db before⟩
  unfold applyInTransaction
  refine Session.Triple.bind (pending _ _ ?_) fun _ =>
    Session.Triple.bind (pending _ _ ?_) fun _ =>
      Session.Triple.bind (pending _ _ ?_) fun _ => Session.Triple.exec ?_ ?_
  · intro db a db' made
    cases made
    rfl
  · intro db a db' made
    obtain ⟨_, _, same⟩ := Option.map_eq_some_iff.mp made
    cases same
    rfl
  · intro db a db' made
    obtain ⟨_, _, same⟩ := Option.map_eq_some_iff.mp made
    cases same
    rfl
  · intro db before
    exact ⟨stops db before, stops db before⟩
  · rintro db a db' ⟨schema, progress⟩ made
    cases meaning : o.transaction (trimSpace file.content) with
    | none => simp [meaning] at made
    | some changes =>
        cases recorded : db.record file.name (o.checksum (trimSpace file.content)) with
        | none => simp [meaning, recorded] at made
        | some db₁ =>
            simp only [meaning, recorded, Option.bind_eq_bind, Option.bind_some, Option.pure_def,
              Option.some.injEq, Prod.mk.injEq] at made
            obtain ⟨_, rfl⟩ := made
            have committed : _ ∧ Progress o (passed ++ [file]) rest _ :=
              progress.commit schema nonblank tx meaning recorded
            refine ⟨committed, passed ++ [file], rest, ?_, committed.2⟩
            rw [List.append_assoc]
            exact split

theorem validate_mode {name content : String} {nonTx : Bool}
    (valid : validateMigrationExecutionMode o name content = .ok nonTx) :
    isNonTransactional o name = nonTx := by
  unfold validateMigrationExecutionMode at valid
  dsimp only at valid
  split at valid
  · rename_i inside
    split at valid
    · cases valid
    · cases valid
      simpa using inside
  · rename_i outside
    split at valid
    · cases valid
    · split at valid
      · cases valid
      · cases valid
        simpa using outside

/-- The recorded checksum of a file that is done. -/
theorem lookup_done (nodup : (done.map (·.name)).Nodup) (listed : file ∈ done)
    (nonblank : file.blank = false) :
    ((done.filter (!·.blank)).map (·.row o)).lookup file.name =
      some (o.checksum (trimSpace file.content)) := by
  induction done with
  | nil => cases listed
  | cons first later ih =>
      rw [List.map_cons, List.nodup_cons] at nodup
      rcases List.mem_cons.mp listed with rfl | inLater
      · simp [nonblank, File.row]
      · have other : (file.name == first.name) = false := by
          apply beq_false_of_ne
          intro same
          exact nodup.1 (same ▸ List.mem_map.mpr ⟨file, inLater, rfl⟩)
        cases blank : first.blank with
        | true => simpa [blank] using ih nodup.2 inLater
        | false => simpa [blank, File.row, List.lookup_cons, other] using ih nodup.2 inLater

theorem lookup_undone (missing : file.name ∉ done.map (·.name)) :
    ((done.filter (!·.blank)).map (·.row o)).lookup file.name = none := by
  rw [List.lookup_eq_none_iff]
  rintro ⟨name, checksum⟩ listed
  obtain ⟨other, kept, same⟩ := List.mem_map.mp listed
  cases same
  simp only [bne_iff_ne, ne_eq]
  intro same
  apply missing
  rw [same]
  exact List.mem_map.mpr ⟨other, (List.mem_filter.mp kept).1, rfl⟩

theorem Progress.blank {db : Db} (progress : Progress o done (file :: rest) db)
    (blank : file.blank = true) : Progress o (done ++ [file]) rest db where
  recorded := by
    rw [progress.recorded]
    simp [List.filter_append, blank]
  indexes := by
    have same : touched o (file :: rest) = touched o rest := by simp [touched, blank]
    have unchanged : file.changes o = [] := by simp [File.changes, blank]
    intro fine name outside
    rw [progress.indexes fine name (by rw [same]; exact outside)]
    simp [unchanged]

/-- The recorded checksum is asked for; the answer is the table's. -/
theorem checkMigration_spec {pre : Db → Prop} {abort : Db → Prop} {answer : Option String}
    (name : String) (schema : ∀ db, pre db → db.recorded.lookup name = answer)
    (stops : ∀ db, pre db → abort db) :
    Session.Triple pre
      (Session.exec (Failure.checkMigration name)
        (fun db => if db.schemaTable then some (db.recorded.lookup name, db) else none) id)
      (fun existing db => existing = answer ∧ pre db) abort := by
  apply Session.Triple.exec
  · intro db before
    exact ⟨stops db before, stops db before⟩
  · intro db existing db' before made
    split at made
    · cases made
      exact ⟨⟨schema db before, before⟩, stops db before⟩
    · cases made

/-- A file that is done is passed over. -/
theorem applyFile_done {files passed ahead : List File}
    (split : passed ++ file :: (ahead ++ rest) = files) (nodup : (files.map (·.name)).Nodup) :
    Session.Triple
      (fun db => db.schemaTable = true ∧ Progress o (passed ++ file :: ahead) rest db)
      (applyFile o file)
      (fun _ db => db.schemaTable = true ∧ Progress o (passed ++ file :: ahead) rest db)
      (Underway o files) := by
  have stops : ∀ db : Db,
      (db.schemaTable = true ∧ Progress o (passed ++ file :: ahead) rest db) →
        Underway o files db := by
    intro db before
    refine ⟨passed ++ file :: ahead, rest, ?_, before.2⟩
    rw [List.append_assoc, List.cons_append]
    exact split
  unfold applyFile
  dsimp only
  split
  · exact Session.Triple.ret fun _ before => before
  · rename_i nonempty
    have nonblank : file.blank = false := by simpa [File.blank] using nonempty
    have known : ∀ db : Db,
        (db.schemaTable = true ∧ Progress o (passed ++ file :: ahead) rest db) →
        db.recorded.lookup file.name = some (o.checksum (trimSpace file.content)) := by
      rintro db ⟨_, progress⟩
      rw [progress.recorded]
      apply lookup_done _ (List.mem_append_right _ (List.mem_cons_self ..)) nonblank
      have all : ((passed ++ file :: ahead).map (·.name) ++ rest.map (·.name)).Nodup := by
        rw [← split] at nodup
        simpa [List.append_assoc] using nodup
      exact all.of_append_left
    refine Session.Triple.bind (checkMigration_spec file.name known stops) ?_
    intro existing
    split
    · split
      · exact Session.Triple.ret fun _ before => before.2
      · rename_i recorded mismatch
        -- The recorded checksum is the file's, so this does not happen.
        have impossible : ∀ db : Db, ¬ (some recorded = some (o.checksum (trimSpace file.content)) ∧
            db.schemaTable = true ∧ Progress o (passed ++ file :: ahead) rest db) := by
          rintro db ⟨same, _⟩
          exact mismatch (Option.some.inj same)
        split
        · exact Session.Triple.ret fun db before => absurd before (impossible db)
        · exact Session.Triple.throw fun db before => absurd before (impossible db)
    · have impossible : ∀ db : Db, ¬ (none = some (o.checksum (trimSpace file.content)) ∧
          db.schemaTable = true ∧ Progress o (passed ++ file :: ahead) rest db) := by
        rintro db ⟨same, _⟩
        cases same
      split
      · exact Session.Triple.throw fun db before => absurd before (impossible db)
      · intro outcomes db before
        exact absurd before (impossible db)
      · intro outcomes db before
        exact absurd before (impossible db)

theorem changes_of_nonTx (nonblank : file.blank = false) (nonTx : isNonTransactional o file.name) :
    (((splitSQLStatements (trimSpace file.content)).map trimSpace).filter fun trimmed =>
      decide (trimmed ≠ "" ∧ stripSQLLineComment trimmed ≠ "")).filterMap o.statement =
        file.changes o := by
  unfold File.changes
  rw [if_neg (by rw [nonblank]; decide), if_pos nonTx]
  rfl

/-- A file that runs outside a transaction, up to its record. -/
theorem applyNonTx_spec (nonblank : file.blank = false) (nonTx : isNonTransactional o file.name) :
    Session.Triple (fun db => db.schemaTable = true ∧ Progress o done (file :: rest) db)
      (prepareNonTransactionalMigration file.name >>= fun _ =>
        applyStatements o file.name 0 (splitSQLStatements (trimSpace file.content)))
      (fun _ => Midway o done file (file.changes o)) (Progress o done (file :: rest)) := by
  have prepared := @prepareNonTransactionalMigration_spec o done rest file file.name nonblank nonTx
  have all := changes_of_nonTx nonblank nonTx
  rw [← List.nil_append (List.filterMap _ _)] at all
  have applied := @applyStatements_spec o done rest file nonblank nonTx file.name _ 0 [] all
  have started : ∀ db : Db, (db.schemaTable = true ∧ Progress o done (file :: rest) db) →
      Midway o done file [] db := by
    rintro db ⟨schema, progress⟩
    have indexes := progress.indexes
    rw [touched_of_nonTx nonblank nonTx] at indexes
    exact ⟨schema, progress.recorded, indexes, fun _ name impossible => by cases impossible⟩
  exact Session.Triple.bind
    (prepared.mono started (fun _ _ midway => midway) fun _ stopped => stopped) fun _ => applied

/-- The next file is applied and recorded, or stops with the files before it done. -/
theorem applyFile_next {files passed : List File} (split : passed ++ file :: rest = files)
    (nodup : (files.map (·.name)).Nodup) :
    Session.Triple (fun db => db.schemaTable = true ∧ Progress o passed (file :: rest) db)
      (applyFile o file)
      (fun _ db => db.schemaTable = true ∧ Progress o (passed ++ [file]) rest db)
      (Underway o files) := by
  have stops : ∀ db : Db, (db.schemaTable = true ∧ Progress o passed (file :: rest) db) →
      Underway o files db := fun db before => ⟨passed, file :: rest, split, before.2⟩
  unfold applyFile
  dsimp only
  split
  · rename_i empty
    have blank : file.blank = true := by simpa [File.blank] using empty
    exact Session.Triple.ret fun _ before => ⟨before.1, before.2.blank blank⟩
  · rename_i nonempty
    have nonblank : file.blank = false := by simpa [File.blank] using nonempty
    have unknown : ∀ db : Db, (db.schemaTable = true ∧ Progress o passed (file :: rest) db) →
        db.recorded.lookup file.name = none := by
      rintro db ⟨_, progress⟩
      rw [progress.recorded]
      apply lookup_undone
      rw [← split, List.map_append, List.map_cons] at nodup
      intro inPassed
      exact (List.nodup_append.mp nodup).2.2 _ inPassed _ (List.mem_cons_self ..) rfl
    refine Session.Triple.bind (checkMigration_spec file.name unknown stops) ?_
    intro existing
    split
    · intro outcomes db before
      cases before.1
    · split
      · exact Session.Triple.throw fun db before => stops db before.2
      · rename_i valid
        have nonTx : isNonTransactional o file.name = true := validate_mode valid
        have stopsMidway : ∀ db : Db, Progress o passed (file :: rest) db → Underway o files db :=
          fun db progress => ⟨passed, file :: rest, split, progress⟩
        have applied := (@applyNonTx_spec o passed rest file nonblank nonTx).mono
          (fun db (before : none = (none : Option String) ∧ db.schemaTable = true ∧
            Progress o passed (file :: rest) db) => before.2)
          (fun _ _ midway => midway) stopsMidway
        rw [← Session.bind_assoc]
        refine Session.Triple.bind applied fun _ => Session.Triple.exec ?_ ?_
        · intro db midway
          have before := stopsMidway db (midway.progress nonblank nonTx)
          exact ⟨before, before⟩
        · intro db a db' midway made
          obtain ⟨db₁, recorded, same⟩ := Option.map_eq_some_iff.mp made
          cases same
          have finished : _ ∧ Progress o (passed ++ [file]) rest _ :=
            midway.finish nonblank recorded
          refine ⟨finished, passed ++ [file], rest, ?_, finished.2⟩
          rw [List.append_assoc]
          exact split
      · rename_i valid
        have tx : ¬ isNonTransactional o file.name = true := by
          rw [validate_mode valid]
          decide
        exact (applyInTransaction_spec split nonblank tx).mono (fun _ before => before.2)
          (fun _ _ finished => finished) fun _ stopped => stopped

/-! ### All files -/

/-- One turn of the loop. -/
theorem applyFile_spec {files passed : List File} (split : passed ++ file :: rest = files)
    (nodup : (files.map (·.name)).Nodup) :
    Session.Triple (At o passed (file :: rest)) (applyFile o file)
      (fun _ => At o (passed ++ [file]) rest) (Underway o files) := by
  rintro outcomes db ⟨ahead, later, whole, before⟩
  cases ahead with
  | nil =>
      rw [List.append_nil] at before
      rw [List.nil_append] at whole
      subst whole
      have ended := (@applyFile_next o rest file files passed split nodup).mono
        (fun _ started => started)
        (fun _ db after => (⟨[], rest, rfl, by rwa [List.append_nil]⟩ :
          At o (passed ++ [file]) rest db))
        fun _ stopped => stopped
      exact ended outcomes db before
  | cons first ahead =>
      rw [List.cons_append, List.cons.injEq] at whole
      obtain ⟨rfl, rfl⟩ := whole
      have ended := (@applyFile_done o later first files passed ahead split nodup).mono
        (fun _ started => started)
        (fun _ db after => (⟨ahead, later, rfl, by rwa [List.append_assoc]⟩ :
          At o (passed ++ [first]) (ahead ++ later) db))
        fun _ stopped => stopped
      exact ended outcomes db before

theorem applyFiles_spec {files passed left : List File} (split : passed ++ left = files)
    (nodup : (files.map (·.name)).Nodup) :
    Session.Triple (At o passed left) (applyFiles o left)
      (fun _ => Progress o files []) (Underway o files) := by
  induction left generalizing passed with
  | nil =>
      apply Session.Triple.ret
      rintro db ⟨ahead, rest, whole, _, progress⟩
      obtain ⟨rfl, rfl⟩ := List.append_eq_nil_iff.mp whole
      rw [split] at progress
      exact progress
  | cons file rest ih =>
      have next : passed ++ [file] ++ rest = files := by
        rw [List.append_assoc]
        exact split
      exact Session.Triple.bind (applyFile_spec split nodup) fun _ => ih next

/-- Between the attempts and around the loop. -/
theorem Progress.same {db db' : Db} (progress : Progress o done rest db)
    (recorded : db'.recorded = db.recorded) (indexes : db'.indexes = db.indexes)
    (overInvalid : db'.overInvalid = db.overInvalid) : Progress o done rest db' where
  recorded := recorded.trans progress.recorded
  indexes := by
    rw [indexes, overInvalid]
    exact progress.indexes

variable {files : List File}

theorem Underway.same {db db' : Db} (underway : Underway o files db)
    (recorded : db'.recorded = db.recorded) (indexes : db'.indexes = db.indexes)
    (overInvalid : db'.overInvalid = db.overInvalid) : Underway o files db' := by
  obtain ⟨done, rest, whole, progress⟩ := underway
  exact ⟨done, rest, whole, progress.same recorded indexes overInvalid⟩

/-- A statement that changes neither the records nor the indexes. -/
theorem aside_spec {α : Type} {pre post : Db → Prop} (e : Failure) (effect : Db → Option (α × Db))
    (underway : ∀ db, pre db → Underway o files db)
    (after : ∀ db a db', pre db → effect db = some (a, db') → post db' ∧
      db'.recorded = db.recorded ∧ db'.indexes = db.indexes ∧ db'.overInvalid = db.overInvalid) :
    Session.Triple pre (Session.exec e effect id)
      (fun _ db => post db ∧ Underway o files db) (Underway o files) := by
  apply Session.Triple.exec
  · intro db before
    exact ⟨underway db before, underway db before⟩
  · intro db a db' before made
    obtain ⟨holds, recorded, indexes, overInvalid⟩ := after db a db' before made
    have still := (underway db before).same recorded indexes overInvalid
    exact ⟨⟨holds, still⟩, still⟩

/-- The schema table is there and a first part of the files is done. -/
def Started (o : Outside) (files : List File) (db : Db) : Prop :=
  db.schemaTable = true ∧ Underway o files db

theorem Started.query_spec {α : Type} (e : Failure) (answer : Db → α) :
    Session.Triple (Started o files) (Session.query e answer)
      (fun _ => Started o files) (Underway o files) := by
  apply Session.Triple.query
  · intro db started
    exact started.2
  · intro db started
    exact started

theorem ensureAtlasBaselineAligned_spec (files listed : List File) :
    Session.Triple (Started o listed) (ensureAtlasBaselineAligned o files)
      (fun _ => Started o listed) (Underway o listed) := by
  have kept : ∀ (e : Failure) (effect : Db → Db),
      (∀ db, (effect db).schemaTable = db.schemaTable ∧ (effect db).recorded = db.recorded ∧
        (effect db).indexes = db.indexes ∧ (effect db).overInvalid = db.overInvalid) →
      Session.Triple (Started o listed) (Session.exec e (fun db => some ((), effect db)) id)
        (fun _ => Started o listed) (Underway o listed) := by
    intro e effect same
    apply aside_spec e _ fun db started => started.2
    intro db a db' started made
    cases made
    obtain ⟨schema, others⟩ := same db
    exact ⟨schema.trans started.1, others⟩
  unfold ensureAtlasBaselineAligned
  refine Session.Triple.bind (Started.query_spec _ _) fun hasLegacy => ?_
  split
  · exact Session.Triple.ret fun _ started => started
  · refine Session.Triple.bind (Started.query_spec _ _) fun hasAtlas => ?_
    have counted : Session.Triple (Started o listed)
        (do
          let count ← Session.query (Failure.atlas "count atlas_schema_revisions")
            fun db : Db => db.atlasRevisions.length
          if count > 0 then pure ()
          else
            Session.exec (Failure.atlas "insert atlas baseline")
              (fun db : Db => some ((), { db with
                atlasRevisions := db.atlasRevisions ++ [latestMigrationBaseline o files] })) id)
        (fun _ => Started o listed) (Underway o listed) := by
      refine Session.Triple.bind (Started.query_spec _ _) fun count => ?_
      split
      · exact Session.Triple.ret fun _ started => started
      · exact kept _ _ fun db => ⟨rfl, rfl, rfl, rfl⟩
    split
    · exact counted
    · exact Session.Triple.bind (kept _ _ fun db => ⟨rfl, rfl, rfl, rfl⟩) fun _ => counted

theorem applyMigrationsFS_spec (nodup : ((listMigrationFiles files).map (·.name)).Nodup) :
    Session.Triple (Underway o (listMigrationFiles files)) (applyMigrationsFS o files)
      (fun _ => Progress o (listMigrationFiles files) [])
      (Underway o (listMigrationFiles files)) := by
  unfold applyMigrationsFS
  have locked : Session.Triple (Underway o (listMigrationFiles files))
      (Session.query Failure.lock fun _ : Db => ())
      (fun _ => Underway o (listMigrationFiles files))
      (Underway o (listMigrationFiles files)) :=
    Session.Triple.query (fun _ underway => underway) fun _ underway => underway
  have created : Session.Triple (Underway o (listMigrationFiles files))
      (Session.exec Failure.createSchemaMigrations
        (fun db : Db => some ((), { db with schemaTable := true })) id)
      (fun _ => Started o (listMigrationFiles files))
      (Underway o (listMigrationFiles files)) := by
    apply aside_spec _ _ fun db underway => underway
    intro db a db' _ made
    cases made
    exact ⟨rfl, rfl, rfl, rfl⟩
  refine Session.Triple.bind locked fun _ => Session.Triple.bind created fun _ =>
    Session.Triple.bind (ensureAtlasBaselineAligned_spec files _) fun _ => ?_
  apply (applyFiles_spec (List.nil_append _) nodup).mono
  · rintro db ⟨schema, done, rest, whole, progress⟩
    exact ⟨done, rest, whole, schema, progress⟩
  · intro _ _ finished
    exact finished
  · intro _ stopped
    exact stopped

/-! ### Runs of attempts -/

theorem Attempt.run_underway (nodup : ((listMigrationFiles files).map (·.name)).Nodup)
    (attempt : Attempt) {db : Db} (underway : Underway o (listMigrationFiles files) db) :
    Underway o (listMigrationFiles files) (attempt.run o files db).2 ∧
      ((attempt.run o files db).1 = .ok () →
        Progress o (listMigrationFiles files) [] (attempt.run o files db).2) := by
  have opened : Underway o (listMigrationFiles files)
      { db with outTradeNos := attempt.outTradeNos } := underway.same rfl rfl rfl
  have ended := applyMigrationsFS_spec nodup attempt.outcomes _ opened
  unfold Attempt.run
  cases ran : applyMigrationsFS o files attempt.outcomes
      { db with outTradeNos := attempt.outTradeNos } with
  | mk answer left =>
      rw [ran] at ended
      cases answer with
      | ok _ =>
          constructor
          · exact ⟨_, [], List.append_nil _, ended⟩
          · intro _
            exact ended
      | error e =>
          constructor
          · exact ended
          · intro impossible
            cases impossible

theorem after_append (files : List File) (attempts : List Attempt) (attempt : Attempt) :
    after o files (attempts ++ [attempt]) = (attempt.run o files (after o files attempts)).2 := by
  simp [after, List.foldl_append]

/-- Whatever happened to the attempts, a first part of the files is done. -/
theorem after_underway (nodup : ((listMigrationFiles files).map (·.name)).Nodup)
    (attempts : List Attempt) :
    Underway o (listMigrationFiles files) (after o files attempts) := by
  induction attempts using List.reverseRecOn with
  | nil =>
      refine ⟨[], listMigrationFiles files, rfl, rfl, ?_⟩
      intro _ name _
      rfl
  | append_singleton attempts attempt ih =>
      rw [after_append]
      exact (attempt.run_underway nodup ih).1

/-- What an attempt that returns is to leave: the indexes valid that the files outside a transaction
create, and one record a file, with its checksum. -/
structure LeavesValid (o : Outside) (files : List File) (db : Db) : Prop where
  valid : ∀ file ∈ files, isNonTransactional o file.name → ∀ name,
    .create name ∈ file.changes o → db.indexes name = some true
  recorded : ∀ file ∈ files, db.recorded.filter (·.1 == file.name) = [file.row o]

/-- No file drops, for good, an index that one outside a transaction creates. -/
def Lasting (o : Outside) (files : List File) : Prop :=
  ∀ file ∈ files, isNonTransactional o file.name → ∀ name, .create name ∈ file.changes o →
    settled (files.flatMap (·.changes o)) name = some true

theorem rows_named (nodup : (files.map (·.name)).Nodup) (nonblank : file.blank = false)
    (listed : file ∈ files) :
    ((files.filter (!·.blank)).map (·.row o)).filter (·.1 == file.name) = [file.row o] := by
  induction files with
  | nil => cases listed
  | cons first later ih =>
      rw [List.map_cons, List.nodup_cons] at nodup
      rcases List.mem_cons.mp listed with rfl | inLater
      · have others : ((later.filter (!·.blank)).map (·.row o)).filter (·.1 == file.name) = [] := by
          rw [List.filter_eq_nil_iff]
          intro row inRows
          obtain ⟨other, kept, rfl⟩ := List.mem_map.mp inRows
          intro same
          apply nodup.1
          rw [← eq_of_beq same]
          exact List.mem_map.mpr ⟨other, (List.mem_filter.mp kept).1, rfl⟩
        rw [List.filter_cons_of_pos (by simp [nonblank]), List.map_cons,
          List.filter_cons_of_pos (by simp [File.row]), others]
      · have other : (first.name == file.name) = false := by
          apply beq_false_of_ne
          intro same
          exact nodup.1 (same ▸ List.mem_map.mpr ⟨file, inLater, rfl⟩)
        cases blank : first.blank with
        | true => simpa [blank] using ih nodup.2 inLater
        | false =>
            rw [List.filter_cons_of_pos (by simp [blank]), List.map_cons,
              List.filter_cons_of_neg (by simp [File.row, other])]
            exact ih nodup.2 inLater

theorem rows_of_blank (nodup : (files.map (·.name)).Nodup) (blank : file.blank = true)
    (listed : file ∈ files) :
    ((files.filter (!·.blank)).map (·.row o)).filter (·.1 == file.name) = [] := by
  rw [List.filter_eq_nil_iff]
  intro row inRows same
  obtain ⟨other, kept, rfl⟩ := List.mem_map.mp inRows
  have inFiles := (List.mem_filter.mp kept).1
  have equal : other = file := List.inj_on_of_nodup_map nodup inFiles listed (eq_of_beq same)
  rw [equal] at kept
  simp [blank] at kept

/-- An attempt that returns leaves valid indexes and one record a file, as long as no
`CREATE INDEX … IF NOT EXISTS` of the run met an INVALID index; blank files, and indexes that a file
drops for good, are the exceptions. -/
theorem returned_leavesValid_iff (o : Outside) (files : List File)
    (nodup : ((listMigrationFiles files).map (·.name)).Nodup) (attempts : List Attempt)
    (attempt : Attempt) (fine : (after o files (attempts ++ [attempt])).overInvalid = [])
    (returned : (attempt.run o files (after o files attempts)).1 = .ok ()) :
    LeavesValid o (listMigrationFiles files) (after o files (attempts ++ [attempt])) ↔
      (∀ file ∈ listMigrationFiles files, file.blank = false) ∧
        Lasting o (listMigrationFiles files) := by
  have finished := (attempt.run_underway nodup (after_underway nodup attempts)).2 returned
  rw [← after_append] at finished
  have indexes : ∀ name, (after o files (attempts ++ [attempt])).indexes name =
      settled ((listMigrationFiles files).flatMap (·.changes o)) name :=
    fun name => finished.indexes fine name List.not_mem_nil
  constructor
  · intro leaves
    constructor
    · intro file listed
      have row := leaves.recorded file listed
      rw [finished.recorded] at row
      cases blank : file.blank with
      | false => rfl
      | true =>
          rw [rows_of_blank nodup blank listed] at row
          cases row
    · intro file listed nonTx name creates
      rw [← indexes]
      exact leaves.valid file listed nonTx name creates
  · rintro ⟨nonblank, lasting⟩
    constructor
    · intro file listed nonTx name creates
      rw [indexes]
      exact lasting file listed nonTx name creates
    · intro file listed
      rw [finished.recorded]
      exact rows_named nodup (nonblank file listed) listed

/-! ### Later attempts -/

/-- The records and the indexes are those of `finished`. -/
def Unmoved (finished db : Db) : Prop :=
  db.recorded = finished.recorded ∧ db.indexes = finished.indexes ∧
    db.overInvalid = finished.overInvalid

variable {finished : Db}

theorem Unmoved.exec_spec {α : Type} (e : Failure) {effect : Db → Option (α × Db)}
    (aside : ∀ db a db', effect db = some (a, db') → Unmoved db db') :
    Session.Triple (Unmoved finished) (Session.exec e effect id)
      (fun _ => Unmoved finished) (Unmoved finished) := by
  apply Session.Triple.exec
  · exact fun _ unmoved => ⟨unmoved, unmoved⟩
  · rintro db a db' ⟨recorded, indexes, overInvalid⟩ made
    obtain ⟨recorded', indexes', overInvalid'⟩ := aside db a db' made
    have still : Unmoved finished db' :=
      ⟨recorded'.trans recorded, indexes'.trans indexes, overInvalid'.trans overInvalid⟩
    exact ⟨still, still⟩

theorem Unmoved.query_spec {α : Type} (e : Failure) (answer : Db → α) :
    Session.Triple (Unmoved finished) (Session.query e answer)
      (fun _ => Unmoved finished) (Unmoved finished) :=
  Session.Triple.query (fun _ unmoved => unmoved) fun _ unmoved => unmoved

theorem ensureAtlasBaselineAligned_unmoved (files : List File) :
    Session.Triple (Unmoved finished) (ensureAtlasBaselineAligned o files)
      (fun _ => Unmoved finished) (Unmoved finished) := by
  have moves : ∀ (e : Failure) (effect : Db → Db), (∀ db, Unmoved db (effect db)) →
      Session.Triple (Unmoved finished) (Session.exec e (fun db => some ((), effect db)) id)
        (fun _ => Unmoved finished) (Unmoved finished) := by
    intro e effect aside
    apply Unmoved.exec_spec
    rintro db a db' ⟨⟩
    exact aside db
  unfold ensureAtlasBaselineAligned
  refine Session.Triple.bind (Unmoved.query_spec _ _) fun hasLegacy => ?_
  split
  · exact Session.Triple.ret fun _ unmoved => unmoved
  · refine Session.Triple.bind (Unmoved.query_spec _ _) fun hasAtlas => ?_
    split
    -- without the table of Atlas it is created first
    all_goals try refine Session.Triple.bind (moves _ _ fun _ => ⟨rfl, rfl, rfl⟩) fun _ => ?_
    all_goals
      refine Session.Triple.bind (Unmoved.query_spec _ _) fun count => ?_
      split
      · exact Session.Triple.ret fun _ unmoved => unmoved
      · exact moves _ _ fun _ => ⟨rfl, rfl, rfl⟩

theorem applyFile_unmoved (known : file.blank = false →
      finished.recorded.lookup file.name = some (o.checksum (trimSpace file.content))) :
    Session.Triple (Unmoved finished) (applyFile o file)
      (fun _ => Unmoved finished) (Unmoved finished) := by
  unfold applyFile
  dsimp only
  split
  · exact Session.Triple.ret fun _ unmoved => unmoved
  · rename_i nonempty
    have row := known (by simpa [File.blank] using nonempty)
    refine Session.Triple.bind (checkMigration_spec file.name
      (fun db unmoved => unmoved.1 ▸ row) fun _ unmoved => unmoved) ?_
    rintro existing outcomes db ⟨rfl, unmoved⟩
    dsimp only
    rw [if_pos rfl]
    exact unmoved

theorem applyFiles_unmoved
    (known : ∀ file ∈ files, file.blank = false → finished.recorded.lookup file.name =
      some (o.checksum (trimSpace file.content))) :
    Session.Triple (Unmoved finished) (applyFiles o files)
      (fun _ => Unmoved finished) (Unmoved finished) := by
  induction files with
  | nil => exact Session.Triple.ret fun _ unmoved => unmoved
  | cons file rest ih =>
      obtain ⟨first, later⟩ := List.forall_mem_cons.mp known
      exact Session.Triple.bind (applyFile_unmoved first) fun _ => ih later

theorem Attempt.run_unmoved (attempt : Attempt) {db : Db}
    (known : ∀ file ∈ listMigrationFiles files, file.blank = false →
      finished.recorded.lookup file.name = some (o.checksum (trimSpace file.content)))
    (unmoved : Unmoved finished db) : Unmoved finished (attempt.run o files db).2 := by
  have whole : Session.Triple (Unmoved finished) (applyMigrationsFS o files)
      (fun _ => Unmoved finished) (Unmoved finished) := by
    refine Session.Triple.bind (Unmoved.query_spec _ _) fun _ =>
      Session.Triple.bind (Unmoved.exec_spec _ ?_) fun _ =>
        Session.Triple.bind (ensureAtlasBaselineAligned_unmoved files) fun _ =>
          applyFiles_unmoved known
    rintro db a db' ⟨⟩
    exact ⟨rfl, rfl, rfl⟩
  have ended := whole attempt.outcomes { db with outTradeNos := attempt.outTradeNos } unmoved
  unfold Attempt.run
  split at ended
  · rename_i ran
    rw [ran]
    exact ended
  · rename_i ran
    rw [ran]
    exact ended

/-- Once an attempt has returned, no later one, however it ends, records or undoes a migration or
touches an index. -/
theorem returned_unmoved (o : Outside) (files : List File)
    (nodup : ((listMigrationFiles files).map (·.name)).Nodup) (attempts : List Attempt)
    (attempt : Attempt) (returned : (attempt.run o files (after o files attempts)).1 = .ok ())
    (later : List Attempt) :
    Unmoved (after o files (attempts ++ [attempt])) (after o files (attempts ++ [attempt] ++ later)) := by
  have recorded := ((attempt.run_underway nodup (after_underway nodup attempts)).2 returned).recorded
  rw [← after_append] at recorded
  induction later using List.reverseRecOn with
  | nil =>
      rw [List.append_nil]
      exact ⟨rfl, rfl, rfl⟩
  | append_singleton later next ih =>
      rw [← List.append_assoc, after_append files (attempts ++ [attempt] ++ later)]
      apply next.run_unmoved _ ih
      intro file listed nonblank
      rw [recorded]
      exact lookup_done nodup listed nonblank

/-! ### Builds that lost their answer or stopped -/

def buildStatement : String := "CREATE INDEX CONCURRENTLY IF NOT EXISTS i ON t (c)"

def buildFile : File where
  name := "300_i_notx.sql"
  content := buildStatement

/-- A database that understands one statement of a file outside a transaction. -/
def understands (stmt indexName : String) : Outside where
  upper text := String.ofList (text.toList.map Char.toUpper)
  lower text := String.ofList (text.toList.map Char.toLower)
  checksum := id
  statement text := if text = stmt then some (.create indexName) else none
  transaction _ := none

/-- The first attempt builds the index and loses the answer; the second one accepts it. -/
def lostBuild : Attempt where
  outcomes := List.replicate 8 .done ++ [.lost]

def untroubled : Attempt where
  outcomes := List.replicate 9 .done

theorem lost_build_leavesValid :
    LeavesValid (understands buildStatement "i") (listMigrationFiles [buildFile])
      (after (understands buildStatement "i") [buildFile] ([lostBuild] ++ [untroubled])) ↔
      (∀ file ∈ listMigrationFiles [buildFile], file.blank = false) ∧
        Lasting (understands buildStatement "i") (listMigrationFiles [buildFile]) := by
  have ran :
      (untroubled.run (understands buildStatement "i") [buildFile]
        (after (understands buildStatement "i") [buildFile] [lostBuild])).1 = .ok () ∧
      (after (understands buildStatement "i") [buildFile]
        ([lostBuild] ++ [untroubled])).overInvalid = [] := by decide +kernel
  exact returned_leavesValid_iff _ _ (by decide +kernel) [lostBuild] untroubled ran.2 ran.1

theorem lost_build_unmoved :
    Unmoved (after (understands buildStatement "i") [buildFile] ([lostBuild] ++ [untroubled]))
      (after (understands buildStatement "i") [buildFile]
        ([lostBuild] ++ [untroubled] ++ [untroubled])) :=
  returned_unmoved _ _ (by decide +kernel) [lostBuild] untroubled (by decide +kernel) [untroubled]

/-- The first attempt stops in the middle of the build. -/
def stoppedBuild : Attempt where
  outcomes := List.replicate 8 .done ++ [.halfway]

def retriedBuild : Except Failure Unit × Db :=
  untroubled.run (understands buildStatement "i") [buildFile]
    (after (understands buildStatement "i") [buildFile] [stoppedBuild])

/-- The second attempt finds the INVALID index, takes it for the index, and returns. -/
theorem failed_build_accepted :
    retriedBuild.1 = .ok () ∧ buildFile.blank = false ∧
      Lasting (understands buildStatement "i") [buildFile] ∧
      ¬ LeavesValid (understands buildStatement "i") [buildFile] retriedBuild.2 := by
  have ran : retriedBuild.1 = .ok () ∧ retriedBuild.2.indexes "i" = some false := by
    decide +kernel
  have creates : buildFile.changes (understands buildStatement "i") = [.create "i"] := by
    decide +kernel
  have nonTx : isNonTransactional (understands buildStatement "i") buildFile.name = true := by
    decide +kernel
  refine ⟨ran.1, by decide +kernel, ?_, ?_⟩
  · intro file listed _ name created
    cases List.mem_singleton.mp listed
    rw [creates, List.mem_singleton, IndexChange.create.injEq] at created
    rw [List.flatMap_singleton, creates, created]
    rfl
  · intro leaves
    have valid := leaves.valid buildFile (List.mem_singleton.mpr rfl) nonTx "i"
      (by rw [creates]; exact List.mem_singleton.mpr rfl)
    rw [ran.2] at valid
    cases valid

end Sub2api.Migrations
