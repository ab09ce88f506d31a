import BuildEngine.Base.Outcome
import BuildEngine.Base.PyStr
import BuildEngine.Base.Run

/-! # Creating and migrating the database

`SQLiteQueueStore.initialize` with `_create_v1_schema` and `_migrate_to_v2`. The connection is in autocommit mode, so
every statement is durable by itself: a process may die between any two of them, and the processes of the service and
of the command line may run them at the same time. `initializeStore` is the call read in one piece, and `turn` one
statement of it. The schema only grows, so a process that gets to the end has a complete schema whatever the others
did; one that finds a column added since it looked fails, and can start again (`migration_safe`). -/

namespace BuildEngine.Queue.Migration

open BuildEngine.Base BuildEngine.Base.Run

/-! ### The database -/

/-- A value of a column. -/
inductive SqlValue where
  | null
  | integer (n : ℤ)
  | text (s : PyStr)
  deriving DecidableEq

/-- A row of the table `jobs`: its columns in order, with their values. -/
abbrev Row := List (PyStr × SqlValue)

/-- The database: `PRAGMA user_version`, the tables other than `jobs` and the indexes that are there, and the columns
and the rows of `jobs`. There is no table `jobs` if it has no columns. -/
structure Database where
  userVersion : ℤ
  objects : List PyStr
  columns : List PyStr
  rows : List Row
  deriving DecidableEq

/-- A new file. -/
def Database.empty : Database := ⟨0, [], [], []⟩

/-- The table is there. -/
def Database.hasTable (db : Database) (name : PyStr) : Bool :=
  if name = py "jobs" then db.columns ≠ [] else name ∈ db.objects

/-- A column that is added, with the default the rows get. -/
structure AddedColumn where
  name : PyStr
  default : SqlValue
  deriving DecidableEq

/-- What `initialize` raises: an `OperationalError` of a statement, or a `QueueError`. -/
inductive InitError where
  | noSuchTable (name : PyStr)
  | duplicateColumn (name : PyStr)
  | locked
  | newerVersion (version : ℤ)
  deriving DecidableEq

/-- A statement. A table or an index is created if it is not there; an index needs its table. -/
inductive Statement where
  | createJobs
  | create (name : PyStr) (table : Option PyStr)
  | addColumn (c : AddedColumn)
  | setVersion (version : ℤ)
  deriving DecidableEq

/-- The columns of the `CREATE TABLE` for `jobs`. -/
def jobColumns : List PyStr :=
  ["build_job_id", "attempt_id", "payload_json", "state", "lease_owner", "lease_token", "lease_expires_at", "attempts",
    "sequence_cursor", "created_at", "updated_at", "error", "cancel_requested"].map py

/-- What a statement does to the database. -/
def exec : Statement → Database → Except InitError Database
  | .createJobs, db => .ok (if db.columns = [] then { db with columns := jobColumns } else db)
  | .create name table, db =>
    if table.any fun t => !db.hasTable t then .error (.noSuchTable (table.getD []))
    else .ok (if name ∈ db.objects then db else { db with objects := db.objects ++ [name] })
  | .addColumn c, db =>
    if db.columns = [] then .error (.noSuchTable (py "jobs"))
    else if c.name ∈ db.columns then .error (.duplicateColumn c.name)
    else .ok { db with columns := db.columns ++ [c.name], rows := db.rows.map (· ++ [(c.name, c.default)]) }
  | .setVersion version, db => .ok { db with userVersion := version }

/-! ### The call -/

/-- `SCHEMA_VERSION` -/
def schemaVersion : ℤ := 2

/-- The script of `_create_v1_schema`. -/
def createV1Schema : List Statement :=
  [.createJobs, .create (py "ix_jobs_state_created_at") (some (py "jobs")),
    .create (py "ix_jobs_build_job_id") (some (py "jobs")), .create (py "events") none,
    .create (py "ix_events_attempt_seq") (some (py "events")), .create (py "dlq") none]

/-- The columns `_migrate_to_v2` adds. -/
def addedColumns : List AddedColumn := [⟨py "lease_token", .null⟩, ⟨py "cancel_requested", .integer 0⟩]

/-- The columns `_migrate_to_v2` finds missing. -/
def missingColumns (db : Database) : List AddedColumn := addedColumns.filter fun c => c.name ∉ db.columns

/-- One statement after another. -/
def execAll : List Statement → Database → Except InitError Database
  | [], db => .ok db
  | s :: statements, db => exec s db >>= execAll statements

/-- `_migrate_to_v2` -/
def migrateToV2 (db : Database) : Except InitError Database := execAll ((missingColumns db).map .addColumn) db

/-- `initialize` -/
def initializeStore (db : Database) : Except InitError Database :=
  if db.userVersion < 1 then do
    let db ← execAll createV1Schema db
    let db ← migrateToV2 db
    exec (.setVersion schemaVersion) db
  else if db.userVersion = 1 then do
    let db ← migrateToV2 db
    exec (.setVersion schemaVersion) db
  else if schemaVersion < db.userVersion then .error (.newerVersion db.userVersion)
  else .ok db

/-! ### Statement by statement -/

/-- Where a process is in `initialize`. -/
inductive Phase where
  | start
  /-- Statements of the script are left. -/
  | creating (rest : List Statement)
  /-- `PRAGMA table_info` is next. -/
  | reading
  /-- Columns are left. -/
  | adding (rest : List AddedColumn)
  | stamping
  | done
  | failed (e : InitError)
  deriving DecidableEq

/-- A statement returns or raises. -/
def after (s : Statement) (next : Phase) (db : Database) : Phase × Database :=
  match exec s db with
  | .ok db' => (next, db')
  | .error e => (.failed e, db)

/-- The next statement of a process. -/
def turn : Phase → Database → Phase × Database
  | .start, db =>
    if db.userVersion < 1 then (.creating createV1Schema, db)
    else if db.userVersion = 1 then (.reading, db)
    else if schemaVersion < db.userVersion then (.failed (.newerVersion db.userVersion), db)
    else (.done, db)
  | .creating [], db => (.reading, db)
  | .creating (s :: rest), db => after s (.creating rest) db
  | .reading, db => (.adding (missingColumns db), db)
  | .adding [], db => (.stamping, db)
  | .adding (c :: rest), db => after (.addColumn c) (.adding rest) db
  | .stamping, db => after (.setVersion schemaVersion) .done db
  | .done, db => (.done, db)
  | .failed e, db => (.failed e, db)

/-- The processes on one database. -/
structure State where
  db : Database
  phases : ℕ → Phase

/-- What happens: a process runs a statement, waits too long for the lock, or dies and starts again. -/
inductive Action where
  | turn (i : ℕ)
  | locked (i : ℕ)
  | restart (i : ℕ)

/-- What an action does. -/
def step (s : State) : Action → State
  | .turn i => ⟨(turn (s.phases i) s.db).2, Function.update s.phases i (turn (s.phases i) s.db).1⟩
  | .locked i => { s with phases := Function.update s.phases i (.failed .locked) }
  | .restart i => { s with phases := Function.update s.phases i .start }

/-- Processes about to start. -/
def State.init (db : Database) : State := ⟨db, fun _ => .start⟩

/-! ### Databases -/

/-- What a statement makes is there. -/
def Made (db : Database) : Statement → Prop
  | .createJobs => db.columns ≠ []
  | .create name _ => name ∈ db.objects
  | .addColumn c => c.name ∈ db.columns
  | .setVersion version => version ≤ db.userVersion

/-- The script of the first version has run. -/
def Created (db : Database) : Prop := ∀ s ∈ createV1Schema, Made db s

/-- Everything is there. -/
structure Complete (db : Database) : Prop where
  created : Created db
  migrated : ∀ c ∈ addedColumns, c.name ∈ db.columns

/-- The databases this engine or an earlier one may have left: every row has the columns of the table, and what the
version stands for is there. -/
structure Sound (db : Database) : Prop where
  rows : ∀ r ∈ db.rows, r.map Prod.fst = db.columns
  empty : db.columns = [] → db.rows = []
  version : db.userVersion ≤ schemaVersion
  created : 1 ≤ db.userVersion → Created db
  migrated : db.userVersion = schemaVersion → Complete db

theorem sound_empty : Sound .empty where
  rows _ hr := absurd hr List.not_mem_nil
  empty _ := rfl
  version := by decide
  created h := absurd h (by decide)
  migrated h := absurd h (by decide)

/-- The rows are those of before, with the defaults of the columns that were added. -/
def Kept (db db' : Database) : Prop :=
  ∃ added : List AddedColumn, db'.rows = db.rows.map (· ++ added.map fun c => (c.name, c.default)) ∧
    (db.columns = [] ∨ db'.columns = db.columns ++ added.map AddedColumn.name)

theorem Kept.refl (db : Database) : Kept db db := ⟨[], by simp, Or.inr (by simp)⟩

theorem Kept.trans {db db' db'' : Database} (h : Kept db db') (h' : Kept db' db'') : Kept db db'' := by
  obtain ⟨added, hrows, hcolumns⟩ := h
  obtain ⟨added', hrows', hcolumns'⟩ := h'
  refine ⟨added ++ added', ?_, ?_⟩
  · rw [hrows', hrows, List.map_map, List.map_append]
    exact List.map_congr_left fun r _ => by simp
  · rcases hcolumns with hnil | heq
    · exact Or.inl hnil
    · rcases hcolumns' with hnil' | heq'
      · rw [heq] at hnil'
        exact Or.inl (List.append_eq_nil_iff.mp hnil').1
      · exact Or.inr (by rw [heq', heq, List.map_append, List.append_assoc])

/-- What a statement leaves: a database that has at least what was there before. -/
structure Grows (db db' : Database) : Prop where
  objects : ∀ name ∈ db.objects, name ∈ db'.objects
  columns : ∀ name ∈ db.columns, name ∈ db'.columns
  version : db.userVersion ≤ db'.userVersion

theorem Grows.refl (db : Database) : Grows db db := ⟨fun _ h => h, fun _ h => h, le_refl _⟩

theorem Grows.made {db db' : Database} (h : Grows db db') {s : Statement} (hs : Made db s) : Made db' s := by
  cases s with
  | createJobs =>
    obtain ⟨name, hname⟩ := List.exists_mem_of_ne_nil _ hs
    exact List.ne_nil_of_mem (h.columns name hname)
  | create name table => exact h.objects name hs
  | addColumn c => exact h.columns c.name hs
  | setVersion version => exact le_trans hs h.version

theorem Grows.created {db db' : Database} (h : Grows db db') (hc : Created db) : Created db' :=
  fun s hs => h.made (hc s hs)

theorem Grows.complete {db db' : Database} (h : Grows db db') (hc : Complete db) : Complete db' :=
  ⟨h.created hc.created, fun c hm => h.columns _ (hc.migrated c hm)⟩

/-! ### What a statement does -/

/-- What a statement that returns has done. -/
structure Executed (s : Statement) (db db' : Database) : Prop where
  grows : Grows db db'
  kept : Kept db db'
  made : Made db' s
  sound : Sound db'

/-- The version is the last thing that is written. -/
def Ready (db : Database) : Statement → Prop
  | .setVersion version => version = schemaVersion ∧ Complete db
  | _ => True

theorem exec_ok {s : Statement} {db db' : Database} (hsound : Sound db) (hready : Ready db s)
    (h : exec s db = .ok db') : Executed s db db' := by
  cases s with
  | createJobs =>
    obtain rfl := Except.ok.inj h
    by_cases hnil : db.columns = []
    · rw [if_pos hnil]
      have hrows := hsound.empty hnil
      have hcolumns : jobColumns ≠ [] := by decide
      have hgrows : Grows db { db with columns := jobColumns } :=
        ⟨fun _ hm => hm, fun name hm => absurd (hnil ▸ hm) List.not_mem_nil, le_refl _⟩
      refine ⟨hgrows, ⟨[], by simp, Or.inl hnil⟩, hcolumns, ?_⟩
      exact ⟨by simp [hrows], fun hempty => absurd hempty hcolumns, hsound.version,
        fun hv => hgrows.created (hsound.created hv), fun hv => hgrows.complete (hsound.migrated hv)⟩
    · rw [if_neg hnil]
      exact ⟨Grows.refl db, Kept.refl db, hnil, hsound⟩
  | create name table =>
    rw [exec] at h
    split_ifs at h with htable hmem
    · obtain rfl := Except.ok.inj h
      exact ⟨Grows.refl db, Kept.refl db, hmem, hsound⟩
    · obtain rfl := Except.ok.inj h
      have hgrows : Grows db { db with objects := db.objects ++ [name] } :=
        ⟨fun _ hm => List.mem_append_left _ hm, fun _ hm => hm, le_refl _⟩
      refine ⟨hgrows, ⟨[], by simp, Or.inr (by simp)⟩, List.mem_append_right _ List.mem_cons_self, ?_⟩
      exact ⟨hsound.rows, hsound.empty, hsound.version, fun hv => hgrows.created (hsound.created hv),
        fun hv => hgrows.complete (hsound.migrated hv)⟩
  | addColumn c =>
    rw [exec] at h
    split_ifs at h with hnil hmem
    obtain rfl := Except.ok.inj h
    have hgrows : Grows db { db with columns := db.columns ++ [c.name], rows := db.rows.map (· ++ [(c.name, c.default)]) } :=
      ⟨fun _ hm => hm, fun _ hm => List.mem_append_left _ hm, le_refl _⟩
    refine ⟨hgrows, ⟨[c], rfl, Or.inr rfl⟩, List.mem_append_right _ List.mem_cons_self, ?_⟩
    refine ⟨fun r hr => ?_, fun hempty => absurd hempty (by simp), hsound.version,
      fun hv => hgrows.created (hsound.created hv), fun hv => hgrows.complete (hsound.migrated hv)⟩
    obtain ⟨r', hr', rfl⟩ := List.mem_map.mp hr
    simp [hsound.rows r' hr']
  | setVersion version =>
    obtain rfl := Except.ok.inj h
    obtain ⟨rfl, hcomplete⟩ := hready
    have hgrows : Grows db { db with userVersion := schemaVersion } :=
      ⟨fun _ hm => hm, fun _ hm => hm, hsound.version⟩
    refine ⟨hgrows, ⟨[], by simp, Or.inr (by simp)⟩, le_refl schemaVersion, ?_⟩
    exact ⟨hsound.rows, hsound.empty, le_refl _, fun _ => hgrows.created hcomplete.created,
      fun _ => hgrows.complete hcomplete⟩

/-! ### What a process knows -/

/-- What a process has seen to, at each place of the call. -/
def Holds (db : Database) : Phase → Prop
  | .start => True
  | .creating rest => ∃ ran, createV1Schema = ran ++ rest ∧ ∀ s ∈ ran, Made db s
  | .reading => Created db
  | .adding rest => Created db ∧ (∀ c ∈ rest, c ∈ addedColumns) ∧
      ∀ c ∈ addedColumns, c.name ∈ db.columns ∨ c ∈ rest
  | .stamping => Complete db
  | .done => Complete db ∧ db.userVersion = schemaVersion
  | .failed e => e = .locked ∨ ∃ c ∈ addedColumns, e = .duplicateColumn c.name

/-- What a process knows stays so while others work on the database. -/
theorem Holds.mono {db db' : Database} (hgrows : Grows db db') (hsound : Sound db') : ∀ {phase : Phase},
    Holds db phase → Holds db' phase
  | .start, _ => trivial
  | .creating _, ⟨ran, hscript, hran⟩ => ⟨ran, hscript, fun s hs => hgrows.made (hran s hs)⟩
  | .reading, h => hgrows.created h
  | .adding _, ⟨hcreated, hrest, hadded⟩ =>
    ⟨hgrows.created hcreated, hrest, fun c hc => (hadded c hc).imp_left (hgrows.columns c.name)⟩
  | .stamping, h => hgrows.complete h
  | .done, ⟨hcomplete, hversion⟩ =>
    ⟨hgrows.complete hcomplete, le_antisymm hsound.version (hversion ▸ hgrows.version)⟩
  | .failed _, h => h

/-- A table or an index is created where its table is there. -/
theorem exec_create {db : Database} (name : PyStr) {table : Option PyStr} (h : ∀ t ∈ table, db.hasTable t = true) :
    ∃ db', exec (.create name table) db = .ok db' := by
  refine ⟨_, if_neg ?_⟩
  rcases table with _ | t
  · simp
  · simp [h t rfl]

/-- A statement of the script finds its table. -/
theorem exec_script {db : Database} {ran rest : List Statement} {s : Statement}
    (hscript : createV1Schema = ran ++ s :: rest) (hran : ∀ t ∈ ran, Made db t) : ∃ db', exec s db = .ok db' := by
  have hjobs : .createJobs ∈ ran → ∀ t ∈ some (py "jobs"), db.hasTable t = true := by
    intro hmem t ht
    obtain rfl := Option.some.inj ht
    exact decide_eq_true (hran _ hmem)
  have hevents : .create (py "events") none ∈ ran → ∀ t ∈ some (py "events"), db.hasTable t = true := by
    intro hmem t ht
    obtain rfl := Option.some.inj ht
    have hmade : py "events" ∈ db.objects := hran _ hmem
    have hother : py "events" ≠ py "jobs" := by decide
    rw [Database.hasTable, if_neg hother, decide_eq_true hmade]
  -- the statements that ran before tell which one it is
  rcases ran with _ | ⟨_, _ | ⟨_, _ | ⟨_, _ | ⟨_, _ | ⟨_, _ | ⟨_, ran⟩⟩⟩⟩⟩⟩ <;>
    simp only [createV1Schema, List.nil_append, List.cons_append, List.cons.injEq] at hscript
  · obtain ⟨rfl, -⟩ := hscript
    exact ⟨_, rfl⟩
  · obtain ⟨rfl, rfl, -⟩ := hscript
    exact exec_create _ (hjobs (by simp))
  · obtain ⟨rfl, -, rfl, -⟩ := hscript
    exact exec_create _ (hjobs (by simp))
  · obtain ⟨-, -, -, rfl, -⟩ := hscript
    exact exec_create _ (by simp)
  · obtain ⟨-, -, -, rfl, rfl, -⟩ := hscript
    exact exec_create _ (hevents (by simp))
  · obtain ⟨-, -, -, -, -, rfl, -⟩ := hscript
    exact exec_create _ (by simp)
  · exact absurd hscript.2.2.2.2.2.2 (by simp)

theorem ready_script {db : Database} {s : Statement} (h : s ∈ createV1Schema) : Ready db s := by
  cases s with
  | setVersion version => simp [createV1Schema] at h
  | _ => trivial

/-- The outcome of a statement. -/
theorem after_spec {s : Statement} {next : Phase} {db : Database} (hsound : Sound db) (hready : Ready db s)
    (hnext : ∀ db', Executed s db db' → Holds db' next) (hfails : ∀ e, exec s db = .error e → Holds db (.failed e)) :
    Sound (after s next db).2 ∧ Grows db (after s next db).2 ∧ Kept db (after s next db).2 ∧
      Holds (after s next db).2 (after s next db).1 := by
  unfold after
  split
  · next db' hexec =>
    have hran := exec_ok hsound hready hexec
    exact ⟨hran.sound, hran.grows, hran.kept, hnext db' hran⟩
  · next e hexec => exact ⟨hsound, Grows.refl db, Kept.refl db, hfails e hexec⟩

/-- **A statement of a process.** -/
theorem turn_spec {phase : Phase} {db : Database} (hsound : Sound db) (h : Holds db phase) :
    Sound (turn phase db).2 ∧ Grows db (turn phase db).2 ∧ Kept db (turn phase db).2 ∧
      Holds (turn phase db).2 (turn phase db).1 := by
  have hsame : ∀ {next : Phase}, Holds db next →
      Sound db ∧ Grows db db ∧ Kept db db ∧ Holds db next := fun hnext => ⟨hsound, Grows.refl db, Kept.refl db, hnext⟩
  cases phase with
  | start =>
    rw [turn]
    split_ifs with hnew hold hnewer
    · exact hsame ⟨[], rfl, fun _ hs => absurd hs List.not_mem_nil⟩
    · exact hsame (hsound.created (le_of_eq hold.symm))
    · exact absurd hsound.version (not_le.mpr hnewer)
    · have hversion : db.userVersion = schemaVersion := by
        have hle := hsound.version
        unfold schemaVersion at *
        omega
      exact hsame ⟨hsound.migrated hversion, hversion⟩
  | creating rest =>
    obtain ⟨ran, hscript, hran⟩ := h
    rcases rest with _ | ⟨s, rest⟩
    · rw [turn]
      exact hsame fun s hs => hran s (by rw [hscript, List.append_nil] at hs; exact hs)
    · rw [turn]
      have hready : Ready db s := ready_script (by rw [hscript]; simp)
      refine after_spec hsound hready (fun db' hexec => ?_) fun e herror => ?_
      · refine ⟨ran ++ [s], by rw [hscript]; simp, fun t ht => ?_⟩
        rcases List.mem_append.mp ht with ht | ht
        · exact hexec.grows.made (hran t ht)
        · exact List.mem_singleton.mp ht ▸ hexec.made
      · obtain ⟨db', hok⟩ := exec_script hscript hran
        rw [hok] at herror
        cases herror
  | reading =>
    rw [turn]
    refine hsame ⟨h, fun c hc => (List.mem_filter.mp hc).1, fun c hc => ?_⟩
    by_cases hmem : c.name ∈ db.columns
    · exact Or.inl hmem
    · exact Or.inr (List.mem_filter.mpr ⟨hc, by simpa using hmem⟩)
  | adding rest =>
    obtain ⟨hcreated, hrest, hadded⟩ := h
    rcases rest with _ | ⟨c, rest⟩
    · rw [turn]
      exact hsame ⟨hcreated, fun c hc => (hadded c hc).resolve_right List.not_mem_nil⟩
    · rw [turn]
      refine after_spec hsound trivial (fun db' hexec => ?_) fun e herror => ?_
      · refine ⟨hexec.grows.created hcreated, fun d hd => hrest d (List.mem_cons_of_mem _ hd), fun d hd => ?_⟩
        rcases hadded d hd with hmem | hmem
        · exact Or.inl (hexec.grows.columns _ hmem)
        · rcases List.mem_cons.mp hmem with rfl | hmem
          · exact Or.inl hexec.made
          · exact Or.inr hmem
      · have hjobs : db.columns ≠ [] := hcreated .createJobs (by decide)
        rw [exec, if_neg hjobs] at herror
        split_ifs at herror
        exact Or.inr ⟨c, hrest c List.mem_cons_self, (Except.error.inj herror).symm⟩
  | stamping =>
    rw [turn]
    refine after_spec hsound ⟨rfl, h⟩ (fun db' hexec => ⟨hexec.grows.complete h, ?_⟩) fun e herror => (by cases herror)
    exact le_antisymm hexec.sound.version hexec.made
  | done => exact hsame h
  | failed e => exact hsame h

/-! ### The call in one piece -/

/-- A process that runs alone. -/
def alone : ℕ → Phase × Database → Phase × Database
  | 0, p => p
  | n + 1, p => alone n (turn p.1 p.2)

theorem alone_add : ∀ (m n : ℕ) (p : Phase × Database), alone (m + n) p = alone n (alone m p)
  | 0, n, p => by rw [Nat.zero_add]; rfl
  | m + 1, n, p => by rw [Nat.add_right_comm]; exact alone_add m n (turn p.1 p.2)

/-- The rest of the script. -/
theorem alone_creating : ∀ {rest : List Statement} {db db' : Database}, execAll rest db = .ok db' →
    ∃ n, alone n (.creating rest, db) = (.reading, db')
  | [], db, db', h => by
    obtain rfl := Except.ok.inj h
    exact ⟨1, rfl⟩
  | s :: rest, db, db', h => by
    obtain ⟨db₁, hexec, hrest⟩ := bind_ok h
    obtain ⟨n, hn⟩ := alone_creating hrest
    refine ⟨n + 1, ?_⟩
    rw [alone, turn, after, hexec]
    exact hn

/-- The rest of the columns. -/
theorem alone_adding : ∀ {rest : List AddedColumn} {db db' : Database}, execAll (rest.map .addColumn) db = .ok db' →
    ∃ n, alone n (.adding rest, db) = (.stamping, db')
  | [], db, db', h => by
    obtain rfl := Except.ok.inj h
    exact ⟨1, rfl⟩
  | c :: rest, db, db', h => by
    obtain ⟨db₁, hexec, hrest⟩ := bind_ok h
    obtain ⟨n, hn⟩ := alone_adding hrest
    refine ⟨n + 1, ?_⟩
    rw [alone, turn, after, hexec]
    exact hn

/-- The migration and the new version. -/
theorem alone_reading {db migrated db' : Database} (h : migrateToV2 db = .ok migrated)
    (hversion : exec (.setVersion schemaVersion) migrated = .ok db') : ∃ n, alone n (.reading, db) = (.done, db') := by
  obtain ⟨n, hn⟩ := alone_adding h
  refine ⟨1 + (n + 1), ?_⟩
  rw [alone_add, alone_add]
  have hread : alone 1 (.reading, db) = (.adding (missingColumns db), db) := rfl
  rw [hread, hn, alone, alone, turn, after, hversion]

/-- **The statements of a process that runs alone are the call.** -/
theorem alone_initializeStore {db db' : Database} (h : initializeStore db = .ok db') :
    ∃ n, alone n (.start, db) = (.done, db') := by
  unfold initializeStore at h
  split_ifs at h with hnew hold hnewer
  · obtain ⟨created, hcreated, h⟩ := bind_ok h
    obtain ⟨migrated, hmigrated, hversion⟩ := bind_ok h
    obtain ⟨m, hm⟩ := alone_creating hcreated
    obtain ⟨n, hn⟩ := alone_reading hmigrated hversion
    refine ⟨1 + (m + n), ?_⟩
    have hstart : alone 1 (.start, db) = (.creating createV1Schema, db) := by rw [alone, alone, turn, if_pos hnew]
    rw [alone_add, hstart, alone_add, hm, hn]
  · obtain ⟨migrated, hmigrated, hversion⟩ := bind_ok h
    obtain ⟨n, hn⟩ := alone_reading hmigrated hversion
    refine ⟨1 + n, ?_⟩
    have hstart : alone 1 (.start, db) = (.reading, db) := by rw [alone, alone, turn, if_neg hnew, if_pos hold]
    rw [alone_add, hstart, hn]
  · obtain rfl := Except.ok.inj h
    exact ⟨1, by rw [alone, alone, turn, if_neg hnew, if_neg hold, if_neg hnewer]⟩

/-! ### The call returns -/

/-- What the call has done so far. -/
structure Advanced (db db' : Database) : Prop where
  grows : Grows db db'
  kept : Kept db db'
  sound : Sound db'

theorem Grows.trans {db db' db'' : Database} (h : Grows db db') (h' : Grows db' db'') : Grows db db'' :=
  ⟨fun name hm => h'.objects name (h.objects name hm), fun name hm => h'.columns name (h.columns name hm),
    h.version.trans h'.version⟩

theorem Advanced.trans {db db' db'' : Database} (h : Advanced db db') (h' : Advanced db' db'') : Advanced db db'' :=
  ⟨h.grows.trans h'.grows, h.kept.trans h'.kept, h'.sound⟩

/-- The rest of the script returns. -/
theorem execAll_script : ∀ {rest ran : List Statement} {db : Database}, Sound db → createV1Schema = ran ++ rest →
    (∀ t ∈ ran, Made db t) → ∃ db', execAll rest db = .ok db' ∧ Advanced db db' ∧ Created db'
  | [], ran, db, hsound, hscript, hran =>
    ⟨db, rfl, ⟨Grows.refl db, Kept.refl db, hsound⟩, fun s hs => hran s (by rwa [hscript, List.append_nil] at hs)⟩
  | s :: rest, ran, db, hsound, hscript, hran => by
    obtain ⟨db₁, hexec⟩ := exec_script hscript hran
    have hone := exec_ok hsound (ready_script (by rw [hscript]; simp)) hexec
    have hran₁ : ∀ t ∈ ran ++ [s], Made db₁ t := by
      intro t ht
      rcases List.mem_append.mp ht with ht | ht
      · exact hone.grows.made (hran t ht)
      · exact List.mem_singleton.mp ht ▸ hone.made
    have hscript₁ : createV1Schema = (ran ++ [s]) ++ rest := by rw [hscript, List.append_cons]
    obtain ⟨db', hrest, hadvanced, hcreated⟩ := execAll_script hone.sound hscript₁ hran₁
    have hall : execAll (s :: rest) db = .ok db' := by
      rw [execAll, hexec]
      exact hrest
    exact ⟨db', hall, (Advanced.mk hone.grows hone.kept hone.sound).trans hadvanced, hcreated⟩

/-- Columns that are missing are added. -/
theorem execAll_adding : ∀ {rest : List AddedColumn} {db : Database}, Sound db → db.columns ≠ [] →
    (rest.map AddedColumn.name).Nodup → (∀ c ∈ rest, c.name ∉ db.columns) →
    ∃ db', execAll (rest.map .addColumn) db = .ok db' ∧ Advanced db db' ∧ ∀ c ∈ rest, c.name ∈ db'.columns
  | [], db, hsound, _, _, _ =>
    ⟨db, rfl, ⟨Grows.refl db, Kept.refl db, hsound⟩, fun _ hc => absurd hc List.not_mem_nil⟩
  | c :: rest, db, hsound, hjobs, hnodup, hmissing => by
    obtain ⟨hc, hnodup⟩ := List.nodup_cons.mp hnodup
    have hexec : ∃ db₁, exec (.addColumn c) db = .ok db₁ ∧ db₁.columns = db.columns ++ [c.name] := by
      rw [exec, if_neg hjobs, if_neg (hmissing c List.mem_cons_self)]
      exact ⟨_, rfl, rfl⟩
    obtain ⟨db₁, hexec, hcolumns⟩ := hexec
    have hready : Ready db (.addColumn c) := trivial
    have hone := exec_ok hsound hready hexec
    have hmissing₁ : ∀ d ∈ rest, d.name ∉ db₁.columns := by
      intro d hd hmem
      rw [hcolumns] at hmem
      rcases List.mem_append.mp hmem with hmem | hmem
      · exact hmissing d (List.mem_cons_of_mem _ hd) hmem
      · exact hc (List.mem_singleton.mp hmem ▸ List.mem_map_of_mem hd)
    obtain ⟨db', hrest, hadvanced, hadded⟩ := execAll_adding hone.sound (by rw [hcolumns]; simp) hnodup hmissing₁
    have hall : execAll ((c :: rest).map .addColumn) db = .ok db' := by
      rw [List.map_cons, execAll, hexec]
      exact hrest
    refine ⟨db', hall, (Advanced.mk hone.grows hone.kept hone.sound).trans hadvanced, fun d hd => ?_⟩
    rcases List.mem_cons.mp hd with rfl | hd
    · exact hadvanced.grows.columns _ hone.made
    · exact hadded d hd

/-- The migration of a database with the schema of the first version, and its new version. -/
theorem migrateToV2_returns {db : Database} (hsound : Sound db) (hcreated : Created db) :
    ∃ migrated db', migrateToV2 db = .ok migrated ∧ exec (.setVersion schemaVersion) migrated = .ok db' ∧
      Advanced db db' ∧ Complete db' ∧ db'.userVersion = schemaVersion := by
  have hnodup : ((missingColumns db).map AddedColumn.name).Nodup :=
    List.Nodup.sublist (List.filter_sublist.map _) (by decide)
  have hmissing : ∀ c ∈ missingColumns db, c.name ∉ db.columns :=
    fun c hc => by simpa using (List.mem_filter.mp hc).2
  obtain ⟨migrated, hall, hadvanced, hadded⟩ :=
    execAll_adding hsound (hcreated .createJobs (by decide)) hnodup hmissing
  have hcomplete : Complete migrated := by
    refine ⟨hadvanced.grows.created hcreated, fun c hc => ?_⟩
    by_cases hmem : c.name ∈ db.columns
    · exact hadvanced.grows.columns _ hmem
    · exact hadded c (List.mem_filter.mpr ⟨hc, by simpa using hmem⟩)
  have hversion : exec (.setVersion schemaVersion) migrated = .ok { migrated with userVersion := schemaVersion } := rfl
  have hready : Ready migrated (.setVersion schemaVersion) := ⟨rfl, hcomplete⟩
  have hone := exec_ok hadvanced.sound hready hversion
  exact ⟨migrated, _, hall, hversion, hadvanced.trans ⟨hone.grows, hone.kept, hone.sound⟩,
    hone.grows.complete hcomplete, rfl⟩

/-- **The call returns with a complete schema**, whatever an earlier call left. -/
theorem initializeStore_returns {db : Database} (hsound : Sound db) :
    ∃ db', initializeStore db = .ok db' ∧ Advanced db db' ∧ Complete db' ∧ db'.userVersion = schemaVersion := by
  unfold initializeStore
  split_ifs with hnew hold hnewer
  · have hwhole : createV1Schema = [] ++ createV1Schema := rfl
    obtain ⟨created, hscript, hadvanced, hcreated⟩ :=
      execAll_script hsound hwhole (fun s hs => absurd hs List.not_mem_nil)
    obtain ⟨migrated, db', hmigrated, hversion, hadvanced', hcomplete⟩ :=
      migrateToV2_returns hadvanced.sound hcreated
    refine ⟨db', ?_, hadvanced.trans hadvanced', hcomplete⟩
    rw [hscript]
    show (migrateToV2 created >>= exec (.setVersion schemaVersion)) = _
    rw [hmigrated]
    exact hversion
  · obtain ⟨migrated, db', hmigrated, hversion, hadvanced, hcomplete⟩ :=
      migrateToV2_returns hsound (hsound.created (le_of_eq hold.symm))
    refine ⟨db', ?_, hadvanced, hcomplete⟩
    rw [hmigrated]
    exact hversion
  · exact absurd hsound.version (not_le.mpr hnewer)
  · have hversion : db.userVersion = schemaVersion := by
      have hle := hsound.version
      unfold schemaVersion at *
      omega
    exact ⟨db, rfl, ⟨Grows.refl db, Kept.refl db, hsound⟩, hsound.migrated hversion, hversion⟩

/-! ### Any number of processes -/

/-- What holds of the processes on a database that came from `db`. -/
structure Safe (db : Database) (s : State) : Prop where
  sound : Sound s.db
  kept : Kept db s.db
  holds : ∀ i, Holds s.db (s.phases i)

theorem safe_init {db : Database} (h : Sound db) : Safe db (.init db) := ⟨h, Kept.refl db, fun _ => trivial⟩

/-- Every action keeps it. -/
theorem Safe.step {db : Database} {s : State} (act : Action) (h : Safe db s) : Safe db (Migration.step s act) := by
  cases act with
  | turn i =>
    obtain ⟨hsound, hgrows, hkept, hholds⟩ := turn_spec h.sound (h.holds i)
    refine ⟨hsound, h.kept.trans hkept, fun j => ?_⟩
    show Holds _ (Function.update s.phases i _ j)
    by_cases hj : j = i
    · rw [hj, Function.update_self]
      exact hholds
    · rw [Function.update_of_ne hj]
      exact (h.holds j).mono hgrows hsound
  | locked i =>
    refine ⟨h.sound, h.kept, fun j => ?_⟩
    show Holds _ (Function.update s.phases i _ j)
    by_cases hj : j = i
    · rw [hj, Function.update_self]
      exact Or.inl rfl
    · rw [Function.update_of_ne hj]
      exact h.holds j
  | restart i =>
    refine ⟨h.sound, h.kept, fun j => ?_⟩
    show Holds _ (Function.update s.phases i _ j)
    by_cases hj : j = i
    · rw [hj, Function.update_self]
      trivial
    · rw [Function.update_of_ne hj]
      exact h.holds j

/-- The turns of one process are those of a process that runs alone. -/
theorem run_turns (i : ℕ) : ∀ (n : ℕ) (s : State),
    (run step s (List.replicate n (.turn i))).phases i = (alone n (s.phases i, s.db)).1 ∧
      (run step s (List.replicate n (.turn i))).db = (alone n (s.phases i, s.db)).2
  | 0, _ => ⟨rfl, rfl⟩
  | n + 1, s => by
    have hrest := run_turns i n (step s (.turn i))
    have hphase : (step s (.turn i)).phases i = (turn (s.phases i) s.db).1 := Function.update_self i _ _
    rw [hphase] at hrest
    exact hrest

/-- **Any number of processes may create and migrate the database at the same time and die at any statement**: the
rows of the attempts are kept, a process that gets to the end has a complete schema of the current version, one that
fails found the database locked or a column that another had added, and after all of that a process that starts again
and runs alone completes the schema. -/
theorem migration_safe (db : Database) (hsound : Sound db) (acts : List Action) :
    Kept db (run step (.init db) acts).db ∧
      (∀ i, (run step (.init db) acts).phases i = .done →
        Complete (run step (.init db) acts).db ∧ (run step (.init db) acts).db.userVersion = schemaVersion) ∧
      (∀ i e, (run step (.init db) acts).phases i = .failed e →
        e = .locked ∨ ∃ c ∈ addedColumns, e = .duplicateColumn c.name) ∧
      ∀ i, ∃ turns db', initializeStore (run step (.init db) acts).db = .ok db' ∧ Complete db' ∧ Kept db db' ∧
        (run step (.init db) (acts ++ .restart i :: List.replicate turns (.turn i))).phases i = .done ∧
        (run step (.init db) (acts ++ .restart i :: List.replicate turns (.turn i))).db = db' := by
  have hsafe : Safe db (run step (.init db) acts) :=
    run_invariant (I := Safe db) (fun s act h => h.step act) acts (safe_init hsound)
  refine ⟨hsafe.kept, fun i hi => ?_, fun i e hi => ?_, fun i => ?_⟩
  · have hholds := hsafe.holds i
    rw [hi] at hholds
    exact hholds
  · have hholds := hsafe.holds i
    rw [hi] at hholds
    exact hholds
  · obtain ⟨db', hcall, hadvanced, hcomplete, -⟩ := initializeStore_returns hsafe.sound
    obtain ⟨turns, halone⟩ := alone_initializeStore hcall
    have hturns := run_turns i turns (step (run step (.init db) acts) (.restart i))
    have hstart : (step (run step (.init db) acts) (.restart i)).phases i = .start := Function.update_self i _ _
    have hdb : (step (run step (.init db) acts) (.restart i)).db = (run step (.init db) acts).db := rfl
    rw [hstart, hdb, halone] at hturns
    refine ⟨turns, db', hcall, hcomplete, hsafe.kept.trans hadvanced.kept, ?_⟩
    rw [run_append, run_cons]
    exact hturns

/-- A database of the first version with one attempt. -/
def firstVersion : Database where
  userVersion := 1
  objects := ["ix_jobs_state_created_at", "ix_jobs_build_job_id", "events", "ix_events_attempt_seq", "dlq"].map py
  columns := ["build_job_id", "attempt_id", "state"].map py
  rows := [[(py "build_job_id", .text (py "b")), (py "attempt_id", .text (py "a")), (py "state", .text (py "QUEUED"))]]

theorem sound_firstVersion : Sound firstVersion where
  rows := by decide
  empty h := absurd h (by decide)
  version := by decide
  created _ := by
    intro s hs
    simp only [createV1Schema, List.mem_cons, List.not_mem_nil, or_false] at hs
    rcases hs with rfl | rfl | rfl | rfl | rfl | rfl
    · exact (by decide : firstVersion.columns ≠ [])
    all_goals exact List.mem_map_of_mem (by decide)
  migrated h := absurd h (by decide)

/-- Two processes look for the columns before either adds one. -/
def raceActs : List Action := [.turn 0, .turn 0, .turn 1, .turn 1, .turn 0, .turn 1]

/-- The second process fails, and completes the schema when it starts again. -/
theorem migration_safe_race :
    (run step (.init firstVersion) raceActs).phases 1 = .failed (.duplicateColumn (py "lease_token")) ∧
      ∃ turns db', initializeStore (run step (.init firstVersion) raceActs).db = .ok db' ∧ Complete db' ∧
        Kept firstVersion db' ∧
        (run step (.init firstVersion) (raceActs ++ .restart 1 :: List.replicate turns (.turn 1))).phases 1 = .done ∧
        (run step (.init firstVersion) (raceActs ++ .restart 1 :: List.replicate turns (.turn 1))).db = db' :=
  ⟨by decide +kernel, (migration_safe firstVersion sound_firstVersion raceActs).2.2.2 1⟩

/-! ### A newer database -/

/-- A process on a newer database has not started, or has failed. -/
def Refused (db : Database) (s : State) : Prop :=
  s.db = db ∧ ∀ i, s.phases i = .start ∨ s.phases i = .failed (.newerVersion db.userVersion) ∨
    s.phases i = .failed .locked

/-- **A newer database is left as it is**, whatever the processes do. -/
theorem newer_refused {db : Database} (h : schemaVersion < db.userVersion) (acts : List Action) :
    Refused db (run step (.init db) acts) := by
  have hnew : ¬ db.userVersion < 1 ∧ ¬ db.userVersion = 1 := by
    unfold schemaVersion at h
    omega
  have hupdate : ∀ {phases : ℕ → Phase} {i : ℕ} {next : Phase},
      (∀ j, phases j = .start ∨ phases j = .failed (.newerVersion db.userVersion) ∨ phases j = .failed .locked) →
      (next = .start ∨ next = .failed (.newerVersion db.userVersion) ∨ next = .failed .locked) →
      ∀ j, Function.update phases i next j = .start ∨
        Function.update phases i next j = .failed (.newerVersion db.userVersion) ∨
        Function.update phases i next j = .failed .locked := by
    intro phases i next hall hnext j
    by_cases hj : j = i
    · rw [hj, Function.update_self]
      exact hnext
    · rw [Function.update_of_ne hj]
      exact hall j
  refine run_invariant (I := Refused db) (fun s act hs => ?_) acts ⟨rfl, fun _ => Or.inl rfl⟩
  obtain ⟨hdb, hall⟩ := hs
  cases act with
  | turn i =>
    have hturn : turn (s.phases i) s.db = (.failed (.newerVersion db.userVersion), db) ∨
        turn (s.phases i) s.db = (.failed .locked, db) := by
      rw [hdb]
      rcases hall i with hi | hi | hi <;> rw [hi]
      · exact Or.inl (by rw [turn, if_neg hnew.1, if_neg hnew.2, if_pos h])
      · exact Or.inl rfl
      · exact Or.inr rfl
    rcases hturn with hturn | hturn
    · exact ⟨congrArg Prod.snd hturn, hupdate hall (Or.inr (Or.inl (congrArg Prod.fst hturn)))⟩
    · exact ⟨congrArg Prod.snd hturn, hupdate hall (Or.inr (Or.inr (congrArg Prod.fst hturn)))⟩
  | locked i => exact ⟨hdb, hupdate hall (Or.inr (Or.inr rfl))⟩
  | restart i => exact ⟨hdb, hupdate hall (Or.inl rfl)⟩

end BuildEngine.Queue.Migration
