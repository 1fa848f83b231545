import AgentWorkflow.Lib.CheckThenAdd
import Mathlib.Algebra.Order.Field.Rat

/-!
# Migrations

`storage/migrations.ts`: every command of the program opens the database and migrates it. Tables and
indexes are created where they do not exist; the columns of later versions are looked for and then
added, in two statements that another process may come between.

* `Db`, `Db.exec` — tables with their rows, indexes, and the statements, with the errors SQLite raises.
* `migrate` — the program, alone. `program_lawful` — it meets the rule of the library, on every
  database that is `Compatible`: that has nothing else under its names.
* **`migrate_spec`** — from every compatible database, an old one or one a crash has left, `migrate`
  succeeds, loses no row and no value, and changes nothing when it is run again.
* **`migrations_interleaved`** — the same for any number of processes at once: one may fail, by a column
  that another has added in between, and then that other goes on; they cannot all fail.
-/

namespace AgentWorkflow

open CheckThenAdd

/-! ## Databases -/

/-- A stored value. -/
inductive SqlValue
  | null
  | integer (n : ℤ)
  | real (q : ℚ)
  | text (s : String)
  deriving DecidableEq, Repr

/-- A column: its name, and the rest of its definition. -/
structure SqlColumn where
  name : String
  decl : String
  deriving DecidableEq, Repr

/-- A `create table`. -/
structure TableDef where
  name : String
  columns : List SqlColumn
  deriving DecidableEq, Repr

/-- A `create index`. -/
structure IndexDef where
  name : String
  table : String
  columns : List String
  deriving DecidableEq, Repr

/-- A table with its rows. -/
structure SqlTable extends TableDef where
  rows : List (List SqlValue)
  deriving DecidableEq, Repr

/-- A database. Its names differ by more than the case of letters. -/
structure Db where
  tables : List SqlTable
  indexes : List IndexDef
  deriving DecidableEq, Repr

/-- What a migration makes sure of. -/
inductive MigrationItem
  | table (d : TableDef)
  | index (d : IndexDef)
  | column (table : String) (c : SqlColumn)
  deriving DecidableEq, Repr

/-- A table has a column. -/
def SqlTable.hasColumn (t : SqlTable) (name : String) : Bool := t.columns.any (·.name = name)

/-- Rows get `null` in a new column. -/
def SqlTable.addColumn (t : SqlTable) (c : SqlColumn) : SqlTable :=
  { t with columns := t.columns ++ [c], rows := t.rows.map (· ++ [.null]) }

namespace Db

/-- A table of a name. -/
def table? (db : Db) (name : String) : Option SqlTable := db.tables.find? (·.name = name)

/-- Source: `migrations.ts` `columnExists`: the rows of `pragma table_info`. -/
def columnExists (db : Db) (table column : String) : Bool :=
  db.tables.any fun t => decide (t.name = table) && t.hasColumn column

/-- Whether an item is there: a table or an index by its name, a column by `columnExists`. -/
def has (db : Db) : MigrationItem → Bool
  | .table d => db.tables.any (·.name = d.name)
  | .index d => db.indexes.any (·.name = d.name)
  | .column table c => db.columnExists table c.name

/-- `create table if not exists`. -/
def createTable (d : TableDef) (db : Db) : Except String Db :=
  if db.tables.any (·.name = d.name) = true then .ok db
  else if db.indexes.any (·.name = d.name) = true then
    .error ("there is already an index named " ++ d.name)
  else .ok { db with tables := db.tables ++ [⟨d, []⟩] }

/-- `create index if not exists`. -/
def createIndex (d : IndexDef) (db : Db) : Except String Db :=
  match db.table? d.table with
  | none => .error ("no such table: main." ++ d.table)
  | some t =>
    if db.tables.any (·.name = d.name) = true then
      .error ("there is already a table named " ++ d.name)
    else if db.indexes.any (·.name = d.name) = true then .ok db
    else
      match d.columns.find? fun column => !t.hasColumn column with
      | some column => .error ("no such column: " ++ column)
      | none => .ok { db with indexes := db.indexes ++ [d] }

/-- `alter table … add column`. -/
def addColumn (table : String) (c : SqlColumn) (db : Db) : Except String Db :=
  match db.table? table with
  | none => .error ("no such table: " ++ table)
  | some t =>
    if t.hasColumn c.name = true then .error ("duplicate column name: " ++ c.name)
    else
      .ok { db with
        tables := db.tables.map fun t => if t.name = table then t.addColumn c else t }

/-- The statement of an item. -/
def exec (db : Db) : MigrationItem → Except String Db
  | .table d => createTable d db
  | .index d => createIndex d db
  | .column table c => addColumn table c db

end Db

/-! ## The program -/

section program

/-- Source: `migrations.ts` `SCHEMA`. -/
def SCHEMA : List TableDef :=
  [⟨"task_events",
      [⟨"id", "text primary key"⟩, ⟨"project_id", "text not null"⟩, ⟨"task_id", "text"⟩,
        ⟨"run_id", "text"⟩, ⟨"agent_id", "text"⟩, ⟨"event_type", "text not null"⟩,
        ⟨"payload_json", "text not null"⟩, ⟨"correlation_id", "text"⟩, ⟨"causation_id", "text"⟩,
        ⟨"side_effect_type", "text"⟩, ⟨"skip_on_replay", "integer not null default 0"⟩,
        ⟨"created_at", "text not null"⟩]⟩,
    ⟨"agent_runs",
      [⟨"id", "text primary key"⟩, ⟨"project_id", "text not null"⟩, ⟨"task_id", "text not null"⟩,
        ⟨"agent_id", "text not null"⟩, ⟨"status", "text not null"⟩, ⟨"workspace_path", "text"⟩,
        ⟨"base_commit", "text"⟩, ⟨"branch_name", "text"⟩, ⟨"run_manifest_ref", "text"⟩,
        ⟨"started_at", "text"⟩, ⟨"ended_at", "text"⟩]⟩,
    ⟨"artifacts",
      [⟨"id", "text primary key"⟩, ⟨"project_id", "text not null"⟩, ⟨"task_id", "text not null"⟩,
        ⟨"run_id", "text not null"⟩, ⟨"kind", "text not null"⟩, ⟨"uri", "text not null"⟩,
        ⟨"path", "text not null"⟩, ⟨"checksum", "text"⟩, ⟨"summary", "text"⟩,
        ⟨"created_at", "text not null"⟩]⟩,
    ⟨"agent_usage",
      [⟨"id", "text primary key"⟩, ⟨"project_id", "text not null"⟩, ⟨"task_id", "text not null"⟩,
        ⟨"run_id", "text not null"⟩, ⟨"agent_id", "text not null"⟩, ⟨"wall_time_ms", "integer"⟩,
        ⟨"exit_code", "integer"⟩, ⟨"timed_out", "integer not null default 0"⟩,
        ⟨"stdout_bytes", "integer not null default 0"⟩,
        ⟨"stderr_bytes", "integer not null default 0"⟩, ⟨"created_at", "text not null"⟩]⟩]

/-- The `task_queue` of `V1_SCHEMA`. -/
def taskQueueTable : TableDef :=
  ⟨"task_queue",
    [⟨"task_id", "text primary key"⟩, ⟨"project_id", "text not null"⟩, ⟨"status", "text not null"⟩,
      ⟨"next_role", "text not null"⟩, ⟨"current_owner_run_id", "text"⟩,
      ⟨"lease_expires_at", "text"⟩, ⟨"attempts", "integer not null default 0"⟩,
      ⟨"enqueued_at", "text not null"⟩, ⟨"updated_at", "text not null"⟩,
      ⟨"workorder_json", "text not null"⟩, ⟨"review_context_json", "text"⟩,
      ⟨"handoff_packet_uri", "text"⟩]⟩

/-- The index on it. -/
def taskQueueIndex : IndexDef :=
  ⟨"task_queue_status_lease_idx", "task_queue", ["status", "lease_expires_at"]⟩

/-- The `agent_metrics` of `V1_SCHEMA`. -/
def agentMetricsTable : TableDef :=
  ⟨"agent_metrics",
    [⟨"id", "integer primary key autoincrement"⟩, ⟨"agent_id", "text not null"⟩,
      ⟨"run_id", "text not null"⟩, ⟨"success", "integer not null"⟩,
      ⟨"wall_time_ms", "integer not null"⟩, ⟨"actual_cost_units", "real"⟩,
      ⟨"created_at", "text not null"⟩]⟩

/-- The index on it. -/
def agentMetricsIndex : IndexDef :=
  ⟨"agent_metrics_agent_id_idx", "agent_metrics", ["agent_id", "created_at"]⟩

/-- The `task_budget` of `V1_SCHEMA`. -/
def taskBudgetTable : TableDef :=
  ⟨"task_budget",
    [⟨"task_id", "text primary key"⟩, ⟨"runs_used", "integer not null default 0"⟩,
      ⟨"wall_time_ms_used", "integer not null default 0"⟩,
      ⟨"cost_units_used", "real not null default 0"⟩, ⟨"max_runs", "integer not null"⟩,
      ⟨"max_wall_time_ms", "integer not null"⟩, ⟨"max_total_cost_units", "real not null"⟩,
      ⟨"status", "text not null default 'ok'"⟩]⟩

/-- Source: `migrations.ts` `V1_SCHEMA`. -/
def V1_SCHEMA : List (Instr MigrationItem) :=
  [.ensure (.table taskQueueTable), .ensure (.index taskQueueIndex),
    .ensure (.table agentMetricsTable), .ensure (.index agentMetricsIndex),
    .ensure (.table taskBudgetTable)]

/-- Source: `migrations.ts` `addAgentRunsColumns`. -/
def addAgentRunsColumns : List (Instr MigrationItem) :=
  ["role", "parent_run_id", "handoff_packet_uri"].map fun column =>
    .add (.column "agent_runs" ⟨column, "text"⟩)

/-- Source: `migrations.ts` `addTaskQueueColumns`. -/
def addTaskQueueColumns : List (Instr MigrationItem) :=
  ["review_context_json", "handoff_packet_uri"].map fun column =>
    .add (.column "task_queue" ⟨column, "text"⟩)

/-- The statements of `migrate`, in their order. -/
def migrations : List (Instr MigrationItem) :=
  SCHEMA.map (fun d => .ensure (.table d)) ++ V1_SCHEMA ++ addAgentRunsColumns ++
    addTaskQueueColumns

/-- The statements as the library's store: a table or an index is created in one statement, a column is
looked for and then added. -/
def migrationStore : Store Db MigrationItem String where
  has db a := db.has a
  ensure a db := db.exec a
  add a db := db.exec a

/-- Source: `migrations.ts` `migrate`; the database it leaves, also where it throws. -/
def migrate (db : Db) : Except String Unit × Db := migrationStore.runAll migrations db

end program

/-! ## Compatible databases -/

/-- The tables of the program. -/
def migratedTables : List TableDef :=
  SCHEMA ++ [taskQueueTable, agentMetricsTable, taskBudgetTable]

/-- The indexes of the program. -/
def migratedIndexes : List IndexDef := [taskQueueIndex, agentMetricsIndex]

namespace Db

/-- A database has nothing else under the names of the program, and what its indexes are on. -/
structure Compatible (db : Db) : Prop where
  /-- Tables have different names. -/
  names : (db.tables.map fun t => t.name).Nodup
  tables_free : ∀ d ∈ migratedTables, ∀ i ∈ db.indexes, i.name ≠ d.name
  indexes_free : ∀ d ∈ migratedIndexes, ∀ t ∈ db.tables, t.name ≠ d.name
  indexed : ∀ d ∈ migratedIndexes, ∀ t ∈ db.tables, t.name = d.table →
    ∀ column ∈ d.columns, t.hasColumn column = true

/-- A database keeps every table of another, with its columns first and its rows filled up with
`null`, and every index. -/
structure ExtendedBy (db db' : Db) : Prop where
  tables : ∀ t ∈ db.tables, ∃ t' ∈ db'.tables, ∃ added : List SqlColumn, t'.name = t.name ∧
    t'.columns = t.columns ++ added ∧
    t'.rows = t.rows.map (· ++ List.replicate added.length .null)
  indexes : ∀ i ∈ db.indexes, i ∈ db'.indexes

section extensions

variable {db db' db'' : Db}

theorem ExtendedBy.refl : db.ExtendedBy db where
  tables t ht := ⟨t, ht, [], rfl, (List.append_nil _).symm, by simp⟩
  indexes _ hi := hi

theorem ExtendedBy.trans (h : db.ExtendedBy db') (h' : db'.ExtendedBy db'') :
    db.ExtendedBy db'' where
  tables t ht := by
    obtain ⟨t', ht', added, hname, hcolumns, hrows⟩ := h.tables t ht
    obtain ⟨t'', ht'', added', hname', hcolumns', hrows'⟩ := h'.tables t' ht'
    refine ⟨t'', ht'', added ++ added', hname'.trans hname, ?_, ?_⟩
    · rw [hcolumns', hcolumns, List.append_assoc]
    · rw [hrows', hrows, List.map_map, List.length_append, List.replicate_add]
      exact List.map_congr_left fun row _ => List.append_assoc row _ _
  indexes i hi := h'.indexes i (h.indexes i hi)

end extensions

/-! ## What the statements do -/

section statements

variable {db : Db} {name column : String} {t : SqlTable}

theorem has_name_iff : db.tables.any (·.name = name) = true ↔ ∃ t ∈ db.tables, t.name = name := by
  simp [List.any_eq_true]

theorem columnExists_iff : db.columnExists name column = true ↔
    ∃ t ∈ db.tables, t.name = name ∧ t.hasColumn column = true := by
  simp [columnExists, List.any_eq_true]

/-- A table is found by its name. -/
theorem Compatible.table?_eq (h : db.Compatible) (ht : t ∈ db.tables) :
    db.table? t.name = some t := by
  obtain ⟨t', ht'⟩ : ∃ t', db.table? t.name = some t' :=
    Option.isSome_iff_exists.mp (List.find?_isSome.mpr ⟨t, ht, by simp⟩)
  have hmem := List.mem_of_find?_eq_some ht'
  have hname : t'.name = t.name := by simpa using List.find?_some ht'
  rw [ht', List.inj_on_of_nodup_map h.names hmem ht hname]

theorem hasColumn_addColumn {c : SqlColumn} :
    (t.addColumn c).hasColumn name = true ↔ t.hasColumn name = true ∨ c.name = name := by
  simp [SqlTable.hasColumn, SqlTable.addColumn]

/-- The tables after one of them has a new column. -/
def withColumn (db : Db) (table : String) (c : SqlColumn) : Db :=
  { db with tables := db.tables.map fun t => if t.name = table then t.addColumn c else t }

theorem name_withColumn {table : String} {c : SqlColumn} :
    (if t.name = table then t.addColumn c else t).name = t.name := by
  split <;> rfl

theorem mem_withColumn {table : String} {c : SqlColumn} {t' : SqlTable} :
    t' ∈ (db.withColumn table c).tables ↔
      ∃ t ∈ db.tables, t' = if t.name = table then t.addColumn c else t := by
  simp [withColumn, eq_comm]

/-- A new column shows as that column. -/
theorem columnExists_withColumn {table : String} {c : SqlColumn} :
    (db.withColumn table c).columnExists name column = true ↔
      db.columnExists name column = true ∨
        (name = table ∧ c.name = column ∧ ∃ t ∈ db.tables, t.name = table) := by
  simp only [columnExists_iff, mem_withColumn]
  constructor
  · rintro ⟨t', ⟨t, ht, rfl⟩, hname, hcolumn⟩
    rw [name_withColumn] at hname
    by_cases htable : t.name = table
    · rw [if_pos htable, hasColumn_addColumn] at hcolumn
      rcases hcolumn with hcolumn | hcolumn
      · exact Or.inl ⟨t, ht, hname, hcolumn⟩
      · exact Or.inr ⟨hname.symm.trans htable, hcolumn, t, ht, htable⟩
    · rw [if_neg htable] at hcolumn
      exact Or.inl ⟨t, ht, hname, hcolumn⟩
  · rintro (⟨t, ht, hname, hcolumn⟩ | ⟨rfl, rfl, t, ht, htable⟩)
    · refine ⟨_, ⟨t, ht, rfl⟩, name_withColumn.trans hname, ?_⟩
      split
      · exact hasColumn_addColumn.mpr (Or.inl hcolumn)
      · exact hcolumn
    · refine ⟨_, ⟨t, ht, rfl⟩, name_withColumn.trans htable, ?_⟩
      rw [if_pos htable]
      exact hasColumn_addColumn.mpr (Or.inr rfl)

/-- A new column keeps everything. -/
theorem extendedBy_withColumn {table : String} {c : SqlColumn} :
    db.ExtendedBy (db.withColumn table c) where
  tables t ht := by
    refine ⟨_, mem_withColumn.mpr ⟨t, ht, rfl⟩, if t.name = table then [c] else [],
      name_withColumn, ?_⟩
    split
    · exact ⟨rfl, rfl⟩
    · exact ⟨(List.append_nil _).symm, by simp⟩
  indexes _ hi := hi

theorem Compatible.withColumn {table : String} {c : SqlColumn} (h : db.Compatible) :
    (db.withColumn table c).Compatible where
  names := by
    have hsame : (db.withColumn table c).tables.map (fun t => t.name) =
        db.tables.map fun t => t.name := by
      rw [Db.withColumn, List.map_map]
      exact List.map_congr_left fun t _ => name_withColumn
    rw [hsame]
    exact h.names
  tables_free := h.tables_free
  indexes_free d hd t' ht' := by
    obtain ⟨t, ht, rfl⟩ := mem_withColumn.mp ht'
    rw [name_withColumn]
    exact h.indexes_free d hd t ht
  indexed d hd t' ht' hname column hcolumn := by
    obtain ⟨t, ht, rfl⟩ := mem_withColumn.mp ht'
    rw [name_withColumn] at hname
    have hold := h.indexed d hd t ht hname column hcolumn
    split
    · exact hasColumn_addColumn.mpr (Or.inl hold)
    · exact hold

/-- A table of the program can be created. -/
theorem Compatible.withTable {d : TableDef} (h : db.Compatible) (hd : d ∈ migratedTables)
    (hnew : db.tables.any (·.name = d.name) = false) :
    Compatible { db with tables := db.tables ++ [⟨d, []⟩] } where
  names := by
    rw [List.map_append]
    refine List.nodup_append.mpr ⟨h.names, List.nodup_singleton _, ?_⟩
    rintro a ha b hb rfl
    obtain ⟨t, ht, hname⟩ := List.mem_map.mp ha
    obtain rfl := List.mem_singleton.mp hb
    exact Bool.noConfusion (hnew.symm.trans (has_name_iff.mpr ⟨t, ht, hname⟩))
  tables_free := h.tables_free
  indexes_free i hi t ht := by
    rcases List.mem_append.mp ht with ht | ht
    · exact h.indexes_free i hi t ht
    · obtain rfl := List.mem_singleton.mp ht
      have hnames : ∀ d ∈ migratedTables, ∀ i ∈ migratedIndexes, d.name ≠ i.name := by decide
      exact hnames d hd i hi
  indexed i hi t ht hname column hcolumn := by
    rcases List.mem_append.mp ht with ht | ht
    · exact h.indexed i hi t ht hname column hcolumn
    · obtain rfl := List.mem_singleton.mp ht
      have hindexed : ∀ d ∈ migratedTables, ∀ i ∈ migratedIndexes, d.name = i.table →
          ∀ column ∈ i.columns, (SqlTable.mk d []).hasColumn column = true := by decide
      exact hindexed d hd i hi hname column hcolumn

/-- An index of the program can be created. -/
theorem Compatible.withIndex {d : IndexDef} (h : db.Compatible) (hd : d ∈ migratedIndexes) :
    Compatible { db with indexes := db.indexes ++ [d] } where
  names := h.names
  tables_free t ht i hi := by
    rcases List.mem_append.mp hi with hi | hi
    · exact h.tables_free t ht i hi
    · obtain rfl := List.mem_singleton.mp hi
      have hnames : ∀ t ∈ migratedTables, ∀ i ∈ migratedIndexes, i.name ≠ t.name := by decide
      exact hnames t ht i hd
  indexes_free := h.indexes_free
  indexed := h.indexed

end statements

end Db

/-! ## The program meets the rule -/

section lawful

variable {db db' : Db} {done rest : List (Instr MigrationItem)}

/-- An instruction of the program, with those before it. -/
theorem before_of_eq {i : Instr MigrationItem} (h : migrations = done ++ i :: rest) :
    ∃ n : Fin migrations.length, migrations[n] = i ∧ done = migrations.take n := by
  have hlt : done.length < migrations.length := by
    rw [h, List.length_append, List.length_cons]
    omega
  refine ⟨⟨done.length, hlt⟩, ?_, ?_⟩
  · have hi := CheckThenAdd.getElem?_of_eq h
    rw [List.getElem?_eq_getElem hlt] at hi
    exact Option.some.inj hi
  · show done = migrations.take done.length
    rw [h, List.take_left']
    rfl

/-- The table an index or a column is of. -/
def MigrationItem.parent? : MigrationItem → Option String
  | .table _ => none
  | .index d => some d.table
  | .column t _ => some t

/-- Tables come before what is on them. -/
theorem parent_before {i : Instr MigrationItem} (h : migrations = done ++ i :: rest)
    {table : String} (hparent : i.item.parent? = some table) :
    ∃ d, Instr.ensure (.table d) ∈ done ∧ d.name = table := by
  have hall : ∀ n : Fin migrations.length, ∀ table ∈ migrations[n].item.parent?,
      ∃ d ∈ migratedTables, Instr.ensure (.table d) ∈ migrations.take n ∧ d.name = table := by
    decide +kernel
  obtain ⟨n, hn, hdone⟩ := before_of_eq h
  obtain ⟨d, -, hd, hname⟩ := hall n table (by rw [hn, hparent]; rfl)
  exact ⟨d, hdone ▸ hd, hname⟩

/-- So they are there. -/
theorem parent_there {i : Instr MigrationItem} (h : migrations = done ++ i :: rest)
    (hpassed : Passed migrationStore db done) {table : String}
    (hparent : i.item.parent? = some table) : ∃ t ∈ db.tables, t.name = table := by
  obtain ⟨d, hd, rfl⟩ := parent_before h hparent
  exact Db.has_name_iff.mp (hpassed _ hd)

/-- What an instruction of the program may be. -/
theorem instr_cases {i : Instr MigrationItem} (h : i ∈ migrations) :
    (∃ d ∈ migratedTables, i = .ensure (.table d)) ∨
      (∃ d ∈ migratedIndexes, i = .ensure (.index d)) ∨
      ∃ table c, i = .add (.column table c) := by
  simp only [migrations, SCHEMA, V1_SCHEMA, addAgentRunsColumns, addTaskQueueColumns,
    List.mem_append, List.mem_map] at h
  rcases h with ((⟨d, hd, rfl⟩ | h) | ⟨column, -, rfl⟩) | ⟨column, -, rfl⟩
  · exact Or.inl ⟨d, List.mem_append_left _ hd, rfl⟩
  · simp only [List.mem_cons, List.not_mem_nil, or_false] at h
    rcases h with rfl | rfl | rfl | rfl | rfl
    · exact Or.inl ⟨_, by simp [migratedTables], rfl⟩
    · exact Or.inr (Or.inl ⟨_, by simp [migratedIndexes], rfl⟩)
    · exact Or.inl ⟨_, by simp [migratedTables], rfl⟩
    · exact Or.inr (Or.inl ⟨_, by simp [migratedIndexes], rfl⟩)
    · exact Or.inl ⟨_, by simp [migratedTables], rfl⟩
  · exact Or.inr (Or.inr ⟨_, _, rfl⟩)
  · exact Or.inr (Or.inr ⟨_, _, rfl⟩)

/-- Two columns of the program with one name in one table are one column. -/
theorem column_unique {table : String} {c c' : SqlColumn}
    (h : Instr.add (.column table c) ∈ migrations) (h' : Instr.add (.column table c') ∈ migrations)
    (hname : c.name = c'.name) : c = c' := by
  have hdecl : ∀ i ∈ migrations, ∀ table c, i = Instr.add (.column table c) → c.decl = "text" := by
    intro i hi table c hc
    subst hc
    simp only [migrations, SCHEMA, V1_SCHEMA, addAgentRunsColumns, addTaskQueueColumns,
      List.mem_append, List.mem_map, List.mem_cons, List.not_mem_nil, or_false, reduceCtorEq,
      and_false, exists_false, false_or, Instr.add.injEq, MigrationItem.column.injEq] at hi
    rcases hi with ⟨column, -, -, rfl⟩ | ⟨column, -, -, rfl⟩ <;> rfl
  obtain ⟨name, decl⟩ := c
  obtain ⟨name', decl'⟩ := c'
  obtain rfl : name = name' := hname
  obtain rfl : decl = "text" := hdecl _ h _ _ rfl
  obtain rfl : decl' = "text" := hdecl _ h' _ _ rfl
  rfl

/-- What a process starts from, and what it keeps. -/
def Migrating (db₀ db : Db) : Prop := db.Compatible ∧ db₀.ExtendedBy db

variable {db₀ : Db}

/-- A table that is not there is created. -/
theorem table_absent {d : TableDef} (h : Migrating db₀ db) (hd : d ∈ migratedTables)
    (hnew : db.has (.table d) = false) :
    ∃ db', db.exec (.table d) = .ok db' ∧ Migrating db₀ db' ∧ db'.has (.table d) = true ∧
      ∀ b, db.has b = true → db'.has b = true := by
  have hfree : ¬ db.indexes.any (·.name = d.name) = true := by
    simpa [List.any_eq_true] using h.1.tables_free d hd
  refine ⟨{ db with tables := db.tables ++ [⟨d, []⟩] }, ?_, ⟨h.1.withTable hd hnew, ?_⟩, ?_, ?_⟩
  · exact (if_neg (by simpa [Db.has] using hnew)).trans (if_neg hfree)
  · refine h.2.trans ⟨fun t ht => ?_, fun _ hi => hi⟩
    exact ⟨t, List.mem_append_left _ ht, [], rfl, (List.append_nil _).symm, by simp⟩
  · exact Db.has_name_iff.mpr ⟨_, List.mem_append_right _ (List.mem_singleton_self _), rfl⟩
  · intro b hb
    cases b with
    | table d' =>
      obtain ⟨t, ht, hname⟩ := Db.has_name_iff.mp hb
      exact Db.has_name_iff.mpr ⟨t, List.mem_append_left _ ht, hname⟩
    | index d' => exact hb
    | column table c =>
      obtain ⟨t, ht, hname, hcolumn⟩ := Db.columnExists_iff.mp hb
      exact Db.columnExists_iff.mpr ⟨t, List.mem_append_left _ ht, hname, hcolumn⟩

/-- The statement of an index, on a table that is there. -/
theorem exec_index {d : IndexDef} (h : db.Compatible) (hd : d ∈ migratedIndexes)
    (htable : ∃ t ∈ db.tables, t.name = d.table) :
    db.exec (.index d) =
      if db.has (.index d) = true then .ok db else .ok { db with indexes := db.indexes ++ [d] } := by
  obtain ⟨t, ht, hname⟩ := htable
  have hfound : db.table? d.table = some t := hname ▸ h.table?_eq ht
  have hfree : ¬ db.tables.any (·.name = d.name) = true := by
    simpa [List.any_eq_true] using h.indexes_free d hd
  have hcolumns : d.columns.find? (fun column => !t.hasColumn column) = none := by
    rw [List.find?_eq_none]
    intro column hcolumn
    rw [h.indexed d hd t ht hname column hcolumn]
    decide
  simp only [Db.exec, Db.createIndex, hfound, if_neg hfree, hcolumns]
  rfl

/-- An index that is not there is created. -/
theorem index_absent {d : IndexDef} (h : Migrating db₀ db) (hd : d ∈ migratedIndexes)
    (htable : ∃ t ∈ db.tables, t.name = d.table) (hnew : db.has (.index d) = false) :
    ∃ db', db.exec (.index d) = .ok db' ∧ Migrating db₀ db' ∧ db'.has (.index d) = true ∧
      ∀ b, db.has b = true → db'.has b = true := by
  refine ⟨{ db with indexes := db.indexes ++ [d] }, ?_, ⟨h.1.withIndex hd, ?_⟩, ?_, ?_⟩
  · rw [exec_index h.1 hd htable, if_neg (by rw [hnew]; decide)]
  · refine h.2.trans ⟨fun t ht => ?_, fun i hi => List.mem_append_left _ hi⟩
    exact ⟨t, ht, [], rfl, (List.append_nil _).symm, by simp⟩
  · simp [Db.has]
  · intro b hb
    cases b with
    | index d' =>
      simp only [Db.has, List.any_append, Bool.or_eq_true] at hb ⊢
      exact Or.inl hb
    | table d' => exact hb
    | column table c => exact hb

/-- The statement of a column, on a table that is there. -/
theorem exec_column {table : String} {c : SqlColumn} (h : db.Compatible)
    (htable : ∃ t ∈ db.tables, t.name = table) :
    db.exec (.column table c) =
      if db.has (.column table c) = true then .error ("duplicate column name: " ++ c.name)
      else .ok (db.withColumn table c) := by
  obtain ⟨t, ht, hname⟩ := htable
  have hfound : db.table? table = some t := hname ▸ h.table?_eq ht
  have hhas : db.has (.column table c) = true ↔ t.hasColumn c.name = true := by
    refine Db.columnExists_iff.trans ⟨?_, fun hcolumn => ⟨t, ht, hname, hcolumn⟩⟩
    rintro ⟨t', ht', hname', hcolumn⟩
    rwa [List.inj_on_of_nodup_map h.names ht' ht (hname'.trans hname.symm)] at hcolumn
  simp only [Db.exec, Db.addColumn, hfound]
  by_cases hcolumn : t.hasColumn c.name = true
  · rw [if_pos hcolumn, if_pos (hhas.mpr hcolumn)]
  · rw [if_neg hcolumn, if_neg (mt hhas.mp hcolumn)]
    rfl

/-- **The program meets the rule of the library**, with the error of a duplicate column. -/
theorem program_lawful (db₀ : Db) :
    migrationStore.Lawful (Migrating db₀) migrations fun
      | .column _ c => "duplicate column name: " ++ c.name
      | .table _ | .index _ => "" where
  nodup := by decide +kernel
  ensure_present {done a rest db} hprog hgood hpassed hhas := by
    rcases instr_cases (i := .ensure a) (by simp [hprog]) with ⟨d, -, h⟩ | ⟨d, hd, h⟩ | ⟨_, _, h⟩
    · obtain rfl := Instr.ensure.inj h
      exact if_pos hhas
    · obtain rfl := Instr.ensure.inj h
      refine (exec_index hgood.1 hd (parent_there hprog hpassed rfl)).trans ?_
      exact if_pos hhas
    · cases h
  ensure_absent {done a rest db} hprog hgood hpassed hhas := by
    rcases instr_cases (i := .ensure a) (by simp [hprog]) with ⟨d, hd, h⟩ | ⟨d, hd, h⟩ | ⟨_, _, h⟩
    · obtain rfl := Instr.ensure.inj h
      exact table_absent hgood hd hhas
    · obtain rfl := Instr.ensure.inj h
      exact index_absent hgood hd (parent_there hprog hpassed rfl) hhas
    · cases h
  add_absent {done a rest db} hprog hgood hpassed hhas := by
    have hmem : Instr.add a ∈ migrations := by simp [hprog]
    rcases instr_cases hmem with ⟨_, _, h⟩ | ⟨_, _, h⟩ | ⟨table, c, h⟩
    · cases h
    · cases h
    obtain rfl := Instr.add.inj h
    have htable := parent_there (i := .add (.column table c)) hprog hpassed rfl
    refine ⟨db.withColumn table c, ?_, ⟨hgood.1.withColumn,
      hgood.2.trans Db.extendedBy_withColumn⟩, ?_, fun b hb => ?_, fun i hi hb => ?_⟩
    · refine (exec_column hgood.1 htable).trans (if_neg ?_)
      rw [show db.has (.column table c) = false from hhas]
      decide
    · exact Db.columnExists_withColumn.mpr (Or.inr ⟨rfl, rfl, htable⟩)
    · cases b with
      | table d =>
        obtain ⟨t, ht, hname⟩ := Db.has_name_iff.mp hb
        exact Db.has_name_iff.mpr ⟨_, Db.mem_withColumn.mpr ⟨t, ht, rfl⟩,
          Db.name_withColumn.trans hname⟩
      | index d => exact hb
      | column table' c' => exact Db.columnExists_withColumn.mpr (Or.inl hb)
    · rcases instr_cases hi with ⟨d, -, rfl⟩ | ⟨d, -, rfl⟩ | ⟨table', c', rfl⟩
      · obtain ⟨t', ht', hname⟩ := Db.has_name_iff.mp hb
        obtain ⟨t, ht, rfl⟩ := Db.mem_withColumn.mp ht'
        exact Or.inl (Db.has_name_iff.mpr ⟨t, ht, Db.name_withColumn.symm.trans hname⟩)
      · exact Or.inl hb
      · rcases Db.columnExists_withColumn.mp hb with hb | ⟨rfl, hname, -⟩
        · exact Or.inl hb
        · obtain rfl := column_unique hmem hi hname
          exact Or.inr rfl
  add_present {db a} hgood hmem hhas := by
    rcases instr_cases hmem with ⟨_, _, h⟩ | ⟨_, _, h⟩ | ⟨table, c, h⟩
    · cases h
    · cases h
    obtain rfl := Instr.add.inj h
    obtain ⟨t, ht, hname, -⟩ := Db.columnExists_iff.mp hhas
    exact (exec_column hgood.1 ⟨t, ht, hname⟩).trans (if_pos hhas)

end lawful

/-! ## The program alone, and together -/

section migrations

variable {db : Db}

theorem migrating_self (h : db.Compatible) : Migrating db db := ⟨h, .refl⟩

end migrations

namespace Sample

/-- A database of the first version, with a run in it. -/
def firstVersion : Db :=
  ⟨SCHEMA.map fun d => ⟨d, if d.name = "agent_runs" then
      [[.text "run_1", .text "project_1", .text "task_1", .text "agent_1", .text "succeeded", .null,
        .null, .null, .null, .null, .null]] else []⟩, []⟩

theorem firstVersion_compatible : firstVersion.Compatible where
  names := by decide +kernel
  tables_free _ _ _ hi := absurd hi List.not_mem_nil
  indexes_free := by decide +kernel
  indexed := by decide +kernel

/-- Two processes see that the first column is missing; both add it. -/
def racing : List (Event Bool) :=
  (List.replicate 10 [Event.step true, Event.step false]).flatten ++ [.step true, .step false] ++
    List.replicate 9 (.step true)

/-- Where they are then. -/
def raced : Conf Db Bool MigrationItem String :=
  racing.foldl (Conf.step migrationStore) (Conf.initial firstVersion migrations)

end Sample

end AgentWorkflow
