import Stargate.Base.StringOrder
import Stargate.Base.Transition

/-!
# `runMigrations`

A run lists the `.sql` files of a directory in order, and applies those that
`schema_migrations` does not name: in one transaction for each file, its SQL and the row with
its name. A run may stop between any two statements, and others follow it.

- `migrator`: the runs, statement by statement;
- `applied`: what a list of files makes of a database;
- `Pc.Consistent`: where a run stands in the list;
- `resumable`: at every moment the rows name a prefix of the list, and the database is what that
  prefix makes of the first one;
- `can_finish`: a run that starts over can finish where the files can be applied at all.
-/

namespace Stargate.Migrations

open Base

variable {σ : Type}

/-- A directory: the names of its entries, and what the SQL of each does to a database, unless
it fails. -/
structure Directory (σ : Type) where
  names : List String
  nodup : names.Nodup
  sql : String → σ → Option σ

/-- `file.endsWith('.sql')`. -/
def isSql (file : String) : Bool := ".sql".toList.isSuffixOf file.toList

/-- `(await fs.readdir(migrationsDir)).filter(..).sort()`, for the order in which the entries are
returned. -/
def files (readdir : List String) : List String := sortStrings (readdir.filter isSql)

/-- The next statement of a run. `rest` are the files after the current one, and `tx` is the
database that the open transaction sees. -/
inductive Pc (σ : Type) where
  /-- No run is going on: none has started, or the last one threw or died. -/
  | stopped
  | createTable
  | readdir
  | selectRow (file : String) (rest : List String)
  | readFile (file : String) (rest : List String)
  | begin (file : String) (rest : List String)
  | sql (file : String) (rest : List String)
  | insertRow (file : String) (rest : List String) (tx : σ)
  | commit (file : String) (rest : List String) (tx : σ)
  | returned

/-- The committed database, the rows of `schema_migrations` (`none` where there is no such table),
and the run. -/
structure World (σ : Type) where
  db : σ
  migrations : Option (List String)
  pc : Pc σ

/-- The head of the loop. -/
def nextFile : List String → Pc σ
  | [] => .returned
  | file :: rest => .selectRow file rest

inductive Step where
  /-- `runMigrations` is called. -/
  | start
  /-- The next statement; `readdir` is what the directory listing returns. -/
  | statement (readdir : List String)
  /-- The statement fails, or the process dies before it. An open transaction is rolled back. -/
  | stop

/-- Is there a row of the file? -/
def World.hasRow (w : World σ) (file : String) : Bool := (w.migrations.getD []).contains file

/-- The runs of one runner over a directory. -/
def migrator (dir : Directory σ) : Lts (World σ) Step where
  step w
    | .start =>
      match w.pc with
      | .stopped | .returned => some { w with pc := .createTable }
      | _ => none
    | .stop =>
      match w.pc with
      | .stopped | .returned => none
      | _ => some { w with pc := .stopped }
    | .statement readdir =>
      match w.pc with
      | .stopped | .returned => none
      | .createTable => some { w with migrations := some (w.migrations.getD []), pc := .readdir }
      | .readdir =>
        if readdir.Perm dir.names then some { w with pc := nextFile (files readdir) } else none
      | .selectRow file rest =>
        if w.migrations.isNone then some { w with pc := .stopped }
        else if w.hasRow file then some { w with pc := nextFile rest }
        else some { w with pc := .readFile file rest }
      | .readFile file rest => some { w with pc := .begin file rest }
      | .begin file rest => some { w with pc := .sql file rest }
      | .sql file rest =>
        match dir.sql file w.db with
        | some tx => some { w with pc := .insertRow file rest tx }
        -- ROLLBACK
        | none => some { w with pc := .stopped }
      | .insertRow file rest tx =>
        -- PRIMARY KEY
        if w.migrations.isNone || w.hasRow file then some { w with pc := .stopped }
        else some { w with pc := .commit file rest tx }
      | .commit file rest tx =>
        some { w with
          db := tx
          migrations := some (w.migrations.getD [] ++ [file])
          pc := nextFile rest }

/-! ## What the files make of a database -/

/-- The composition of files, in order. -/
def applied (dir : Directory σ) (names : List String) (db : σ) : Option σ :=
  names.foldlM (fun db file => dir.sql file db) db

theorem applied_concat {dir : Directory σ} {names : List String} {db tx : σ} {file : String}
    {s₀ : σ} (h : applied dir names s₀ = some db) (hsql : dir.sql file db = some tx) :
    applied dir (names ++ [file]) s₀ = some tx := by
  unfold applied at h ⊢
  rw [List.foldlM_append, h]
  simp [hsql]

/-- The files in order do not depend on the listing. -/
theorem files_eq_of_perm {xs ys : List String} (h : xs.Perm ys) : files xs = files ys :=
  sortStrings_eq_of_perm (h.filter isSql)

theorem nodup_files (dir : Directory σ) : (files dir.names).Nodup :=
  (perm_sortStrings _).nodup_iff.mpr (dir.nodup.filter _)

section Runs

variable {dir : Directory σ} {s₀ : σ} {w w' : World σ} {a : Step} {file : String}
  {rest rows : List String}

/-- The files before the current one have been applied. -/
def Passed (dir : Directory σ) (rows : List String) (file : String) (rest : List String) : Prop :=
  ∃ done, files dir.names = done ++ file :: rest ∧ done <+: rows

/-- The file is the first one that has no row. -/
def Next (dir : Directory σ) (rows : List String) (file : String) (rest : List String) : Prop :=
  files dir.names = rows ++ file :: rest

/-- Where a run stands, by the rows and the database. -/
def Pc.Consistent (dir : Directory σ) (rows : List String) (db : σ) : Pc σ → Prop
  | .stopped | .createTable | .readdir => True
  | .selectRow file rest => Passed dir rows file rest
  | .readFile file rest | .begin file rest | .sql file rest => Next dir rows file rest
  | .insertRow file rest tx | .commit file rest tx =>
    Next dir rows file rest ∧ dir.sql file db = some tx
  | .returned => rows = files dir.names

/-- The rows name a prefix of the files, and the database is what that prefix makes of `s₀`. -/
structure Resumable (dir : Directory σ) (s₀ : σ) (w : World σ) : Prop where
  rows : w.migrations.getD [] <+: files dir.names
  db : applied dir (w.migrations.getD []) s₀ = some w.db
  pc : w.pc.Consistent dir (w.migrations.getD []) w.db

/-- The head of the loop, where the files before `rest` have rows. -/
theorem consistent_nextFile {done : List String} {db : σ} (hsplit : files dir.names = done ++ rest)
    (hdone : done <+: rows) (hrows : rows <+: files dir.names) :
    (nextFile rest).Consistent dir rows db := by
  cases rest with
  | nil =>
    rw [List.append_nil] at hsplit
    refine hrows.eq_of_length_le ?_
    rw [hsplit]
    exact hdone.length_le
  | cons file rest => exact ⟨done, hsplit, hdone⟩

/-- A file at the head of the loop is the next one without a row, or it has a row. -/
theorem Passed.next_or (h : Passed dir rows file rest) (hrows : rows <+: files dir.names) :
    Next dir rows file rest ∨
      ∃ done, files dir.names = (done ++ [file]) ++ rest ∧ done ++ [file] <+: rows := by
  obtain ⟨done, hsplit, later, hlater⟩ := h
  cases later with
  | nil =>
    rw [List.append_nil] at hlater
    rw [Next, hsplit, hlater]
    exact .inl rfl
  | cons x later =>
    obtain ⟨tail, htail⟩ := hrows
    rw [hsplit, ← hlater, List.append_assoc, List.append_cancel_left_eq, List.cons_append] at htail
    obtain ⟨rfl, -⟩ := List.cons.inj htail
    refine .inr ⟨done, ?_, later, ?_⟩
    · rw [hsplit, List.append_assoc, List.singleton_append]
    · rw [← hlater, List.append_assoc, List.singleton_append]

theorem Next.notMem (h : Next dir rows file rest) : file ∉ rows := by
  intro hmem
  have hnodup := nodup_files dir
  rw [h, List.nodup_append] at hnodup
  exact hnodup.2.2 file hmem file List.mem_cons_self rfl

/-- After the row of the next file, the loop goes on with the files after it. -/
theorem Next.concat (h : Next dir rows file rest) :
    files dir.names = (rows ++ [file]) ++ rest := by
  rw [h, List.append_assoc, List.singleton_append]

/-- **One step** keeps rows and effects in line. -/
theorem resumable_step (h : Resumable dir s₀ w) (hstep : (migrator dir).step w a = some w') :
    Resumable dir s₀ w' := by
  obtain ⟨db, migrations, pc⟩ := w
  obtain ⟨hrows, hdb, hpc⟩ := h
  dsimp only at hrows hdb hpc
  have hhas : ∀ file, World.hasRow ⟨db, migrations, pc⟩ file = true ↔ file ∈ migrations.getD [] :=
    fun file => List.contains_iff_mem
  cases a with
  | start =>
    cases pc with
    | stopped | returned =>
      cases hstep
      exact ⟨hrows, hdb, trivial⟩
    | _ => cases hstep
  | stop =>
    cases pc with
    | stopped | returned => cases hstep
    | _ =>
      cases hstep
      exact ⟨hrows, hdb, trivial⟩
  | statement readdir =>
    cases pc with
    | stopped | returned => cases hstep
    | createTable =>
      cases hstep
      exact ⟨hrows, hdb, trivial⟩
    | readdir =>
      simp only [migrator] at hstep
      split at hstep
      · next hperm =>
        cases hstep
        refine ⟨hrows, hdb, ?_⟩
        rw [files_eq_of_perm hperm]
        exact consistent_nextFile (List.nil_append _).symm List.nil_prefix hrows
      · cases hstep
    | selectRow file rest =>
      have hpassed := Passed.next_or hpc hrows
      simp only [migrator] at hstep
      split at hstep
      · cases hstep
        exact ⟨hrows, hdb, trivial⟩
      · split at hstep
        · next hrow =>
          cases hstep
          -- with a row, the file is not the next one
          rcases hpassed with hnext | ⟨done, hsplit, hdone⟩
          · exact absurd ((hhas file).mp hrow) hnext.notMem
          · exact ⟨hrows, hdb, consistent_nextFile hsplit hdone hrows⟩
        · next hno =>
          cases hstep
          rcases hpassed with hnext | ⟨done, -, hdone⟩
          · exact ⟨hrows, hdb, hnext⟩
          · exact absurd ((hhas file).mpr (hdone.subset
              (List.mem_append_right _ List.mem_cons_self))) hno
    | readFile file rest =>
      cases hstep
      exact ⟨hrows, hdb, hpc⟩
    | begin file rest =>
      cases hstep
      exact ⟨hrows, hdb, hpc⟩
    | sql file rest =>
      simp only [migrator] at hstep
      split at hstep
      · next tx hsql =>
        cases hstep
        exact ⟨hrows, hdb, hpc, hsql⟩
      · cases hstep
        exact ⟨hrows, hdb, trivial⟩
    | insertRow file rest tx =>
      simp only [migrator] at hstep
      split at hstep
      · cases hstep
        exact ⟨hrows, hdb, trivial⟩
      · cases hstep
        exact ⟨hrows, hdb, hpc⟩
    | commit file rest tx =>
      -- the row and the effects of the file become visible together
      obtain ⟨hnext, hsql⟩ := hpc
      cases hstep
      have hrows' : migrations.getD [] ++ [file] <+: files dir.names := ⟨rest, hnext.concat.symm⟩
      exact ⟨hrows', applied_concat hdb hsql,
        consistent_nextFile hnext.concat List.prefix_rfl hrows'⟩

/-! ## Every sequence of runs -/

/-- Before the first run: no row, and no run. -/
def Initial (s₀ : σ) (w : World σ) : Prop :=
  w.db = s₀ ∧ w.migrations.getD [] = [] ∧ w.pc = .stopped

theorem resumable_initial (h : Initial s₀ w) : Resumable dir s₀ w := by
  obtain ⟨rfl, hrows, hpc⟩ := h
  constructor
  · rw [hrows]
    exact List.nil_prefix
  · rw [hrows]
    rfl
  · rw [hpc]
    trivial

/-- A run that returns has applied all files. -/
theorem applied_of_returned {as : List Step} (hinit : Initial s₀ w)
    (hrun : (migrator dir).run w as = some w') (hreturned : w'.pc = .returned) :
    applied dir (files dir.names) s₀ = some w'.db := by
  have h : Resumable dir s₀ w' := (migrator dir).inv_of_run (fun _ _ _ => resumable_step)
    (resumable_initial hinit) hrun
  have hall := h.pc
  rw [hreturned] at hall
  exact hall ▸ h.db

/-- **Migrations are resumable.** In every sequence of runs, each of which may stop at any
statement: the rows always name a prefix of the sorted files, and the database is what exactly
these files, in order and once each, make of the initial one. After a run that returns these are
all files. -/
theorem resumable {as : List Step} (hinit : Initial s₀ w)
    (hrun : (migrator dir).run w as = some w') :
    w'.migrations.getD [] <+: files dir.names ∧ (w'.migrations.getD []).Nodup ∧
    applied dir (w'.migrations.getD []) s₀ = some w'.db ∧
    (w'.pc = .returned → w'.migrations.getD [] = files dir.names ∧
      applied dir (files dir.names) s₀ = some w'.db) := by
  have h : Resumable dir s₀ w' := (migrator dir).inv_of_run (fun _ _ _ => resumable_step)
    (resumable_initial hinit) hrun
  refine ⟨h.rows, (nodup_files dir).sublist h.rows.sublist, h.db, fun hreturned => ?_⟩
  have hall := h.pc
  rw [hreturned] at hall
  exact ⟨hall, hall ▸ h.db⟩

/-! ### A run that finishes -/

/-- `n` more statements lead to the end of the run. -/
def Finishes (dir : Directory σ) (w : World σ) : Prop :=
  ∃ n t, (migrator dir).run w (List.replicate n (.statement dir.names)) = some t ∧ t.pc = .returned

/-- One statement, and what is left after it. -/
theorem finishes_step (hstep : (migrator dir).step w (.statement dir.names) = some w')
    (h : Finishes dir w') : Finishes dir w := by
  obtain ⟨n, t, hrun, hreturned⟩ := h
  exact ⟨n + 1, t, (migrator dir).run_cons.mpr ⟨w', hstep, hrun⟩, hreturned⟩

/-- The SQL of the next file succeeds where all files can be applied. -/
theorem sql_of_applied {db final : σ} (hnext : Next dir rows file rest)
    (hdb : applied dir rows s₀ = some db) (hall : applied dir (files dir.names) s₀ = some final) :
    ∃ tx, dir.sql file db = some tx := by
  rw [hnext, applied, List.foldlM_append] at hall
  unfold applied at hdb
  rw [hdb, Option.bind_eq_bind, Option.bind_some, List.foldlM_cons, Option.bind_eq_bind,
    Option.bind_eq_some_iff] at hall
  obtain ⟨tx, hsql, -⟩ := hall
  exact ⟨tx, hsql⟩

/-- The loop from any of its heads on. -/
theorem finishes_loop {final : σ} (hall : applied dir (files dir.names) s₀ = some final)
    (rest : List String) (h : Resumable dir s₀ w) (htable : w.migrations = some rows)
    (hpc : w.pc = nextFile rest) : Finishes dir w := by
  induction rest generalizing w rows with
  | nil => exact ⟨0, w, rfl, hpc⟩
  | cons file rest ih =>
    obtain ⟨db, migrations, pc⟩ := w
    cases htable
    cases hpc
    by_cases hrow : World.hasRow ⟨db, some rows, .selectRow file rest⟩ file = true
    · have hskip : (migrator dir).step ⟨db, some rows, .selectRow file rest⟩ (.statement dir.names)
          = some ⟨db, some rows, nextFile rest⟩ := by
        simp only [migrator, Option.isNone_some, Bool.false_eq_true, if_false, hrow, if_true]
      exact finishes_step hskip (ih (resumable_step h hskip) rfl rfl)
    · have hnext : Next dir rows file rest := by
        rcases Passed.next_or h.pc h.rows with hnext | ⟨done, -, hdone⟩
        · exact hnext
        · exact absurd (List.contains_iff_mem.mpr (hdone.subset
            (List.mem_append_right _ List.mem_cons_self))) hrow
      obtain ⟨tx, hsql⟩ := sql_of_applied hnext h.db hall
      have hno : (rows.contains file) = false := Bool.eq_false_iff.mpr hrow
      have hsteps : (migrator dir).run ⟨db, some rows, .selectRow file rest⟩
          (List.replicate 6 (.statement dir.names))
          = some ⟨tx, some (rows ++ [file]), nextFile rest⟩ := by
        simp only [List.replicate, Lts.run, migrator, World.hasRow, Option.isNone_some,
          Option.getD_some, hno, hsql, Bool.false_eq_true, if_false, Option.bind_some,
          Bool.or_false]
      have hres : Resumable dir s₀ ⟨tx, some (rows ++ [file]), nextFile rest⟩ :=
        (migrator dir).inv_of_run (fun _ _ _ => resumable_step) h hsteps
      obtain ⟨n, t, hrun, hreturned⟩ := ih hres rfl rfl
      refine ⟨6 + n, t, ?_, hreturned⟩
      rw [List.replicate_add]
      exact (migrator dir).run_append.mpr ⟨_, hsteps, hrun⟩

/-- **Whatever stopped the runs so far, the next one finishes**, if the files can be applied at
all. -/
theorem can_finish {as : List Step} {final : σ} (hinit : Initial s₀ w)
    (hall : applied dir (files dir.names) s₀ = some final)
    (hrun : (migrator dir).run w as = some w') (hstopped : w'.pc = .stopped) :
    ∃ u, (migrator dir).step w' .start = some u ∧ Finishes dir u := by
  have h : Resumable dir s₀ w' := (migrator dir).inv_of_run (fun _ _ _ => resumable_step)
    (resumable_initial hinit) hrun
  obtain ⟨db, migrations, pc⟩ := w'
  cases hstopped
  have htable : Resumable dir s₀ ⟨db, some (migrations.getD []), nextFile (files dir.names)⟩ :=
    ⟨h.rows, h.db, consistent_nextFile (List.nil_append _).symm List.nil_prefix h.rows⟩
  have hlist : (migrator dir).step ⟨db, some (migrations.getD []), .readdir⟩ (.statement dir.names)
      = some ⟨db, some (migrations.getD []), nextFile (files dir.names)⟩ := by
    simp only [migrator, List.Perm.refl, if_true]
  exact ⟨⟨db, migrations, .createTable⟩, rfl, finishes_step rfl
    (finishes_step hlist (finishes_loop hall _ htable rfl rfl))⟩

end Runs

/-! ## A run that dies, and the next one -/

/-- Two files, each of which adds its name. -/
def twoFiles : Directory (List String) where
  names := ["b.sql", "README.md", "a.sql"]
  nodup := by decide
  sql file db := some (db ++ [file])

/-- The process dies after the SQL of the second file. The next run lists the entries in another
order. -/
def diesAndFinishes : List Step :=
  .start :: List.replicate 12 (.statement ["b.sql", "README.md", "a.sql"]) ++
    .stop :: .start :: List.replicate 9 (.statement ["a.sql", "b.sql", "README.md"])

/-- No table, and nothing applied. -/
def nothing : World (List String) := ⟨[], none, .stopped⟩

theorem resumable_twoFiles : ∃ t, Initial [] nothing ∧
    (migrator twoFiles).run nothing diesAndFinishes = some t ∧ t.pc = .returned ∧
    t.db = ["a.sql", "b.sql"] ∧
    t.migrations.getD [] <+: files twoFiles.names ∧ (t.migrations.getD []).Nodup ∧
    applied twoFiles (t.migrations.getD []) [] = some t.db ∧
    (t.pc = .returned → t.migrations.getD [] = files twoFiles.names ∧
      applied twoFiles (files twoFiles.names) [] = some t.db) := by
  have hrun : (migrator twoFiles).run nothing diesAndFinishes
      = some ⟨["a.sql", "b.sql"], some ["a.sql", "b.sql"], .returned⟩ := by
    rfl
  exact ⟨_, ⟨rfl, rfl, rfl⟩, hrun, rfl, rfl, resumable ⟨rfl, rfl, rfl⟩ hrun⟩

end Stargate.Migrations
