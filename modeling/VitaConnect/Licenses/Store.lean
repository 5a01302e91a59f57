import VitaConnect.Licenses.Import
import VitaConnect.Storage.FirstWins

/-! # The license database over many imports

Each run of `license_thread` offers the licences that it reads of the licence files, in the order of the walk.
The database takes an offered licence at most when there is none with its content id, so the one that came
first stays, and `query_rif` answers it.
-/
namespace VitaConnect.Licenses
open CString Rif Storage
set_option autoImplicit false

abbrev Row := CStr × List Byte

def rowOf (rif : List Byte) : Row := (contentIdOf rif, rif)

/-! ## What a run offers -/

section Offers
variable {Db Stmt : Type} (env : Environment Db Stmt)

/-- The licence that is read of a file -/
def offered (path : CStr) : Option (List Byte) :=
  if 0 < env.sceIoOpen path then
    match env.sceIoRead path with
    | .error _ => none
    | .ok read => if read.1.length = rifSize then some read.1 else none
  else none

/-- The rows that a copying pass offers -/
def offers (files : List (CStr × CStr)) : List Row :=
  files.filterMap fun file => if isRif file.2 then (offered env (joinPath file.1 file.2)).map rowOf else none

theorem offers_cons (file : CStr × CStr) (files : List (CStr × CStr)) :
    offers env (file :: files)
      = (if isRif file.2 then (offered env (joinPath file.1 file.2)).map rowOf else none).toList
        ++ offers env files := by
  rw [offers, List.filterMap_cons]
  cases if isRif file.2 then (offered env (joinPath file.1 file.2)).map rowOf else none <;> rfl

theorem offered_read {path : CStr} {rif : List Byte} (h : offered env path = some rif) :
    rif.length = rifSize ∧ ∃ read, env.sceIoRead path = .ok read ∧ read.1 = rif := by
  unfold offered at h
  split at h
  · split at h
    · cases h
    · next read hread =>
      split_ifs at h with hlength
      obtain rfl := Option.some.inj h
      exact ⟨hlength, read, hread, rfl⟩
  · cases h

end Offers

/-! ## What the database takes -/

section Takes
variable {Db Stmt : Type} {licenses : Db → List Row} {env : Environment Db Stmt} {s : Importing Db}

/-- The rows of `t` are those of `s` and what it takes of the rows that are offered; all of them, when the
database accepts every row whose key is new. -/
def Takes (licenses : Db → List Row) (accepts : Prop) (rows : List Row) (db db' : Db) : Prop :=
  ∃ taken, taken.Sublist rows ∧ licenses db' = insertAllNew (licenses db) taken ∧ (accepts → taken = rows)

theorem takes_nothing {accepts : Prop} {db : Db} : Takes licenses accepts [] db db :=
  ⟨[], List.Sublist.refl _, rfl, fun _ => rfl⟩

theorem Takes.trans {accepts : Prop} {rows rows' : List Row} {db db' db'' : Db}
    (h : Takes licenses accepts rows db db') (h' : Takes licenses accepts rows' db' db'') :
    Takes licenses accepts (rows ++ rows') db db'' := by
  obtain ⟨taken, hsub, hrows, hall⟩ := h
  obtain ⟨taken', hsub', hrows', hall'⟩ := h'
  refine ⟨taken ++ taken', hsub.append hsub', ?_, fun haccepts => by rw [hall haccepts, hall' haccepts]⟩
  rw [hrows', hrows, insertAllNew_append]

/-- What SQLite does besides `Executes`: its calls on the database do not fail, a statement that inserts a new
content id is executed, and there is no row to select for a content id that is not there. -/
structure Accepts (sql : Sqlite Db Stmt) (licenses : Db → List Row) : Prop where
  openV2 : ∀ db, sql.openV2 db = sqliteOk
  insert : ∀ db lit contentId blob, readLiteral lit = some contentId →
    let stmt := sql.prepareV2 db (bytes "INSERT INTO Licenses VALUES(" ++ lit ++ bytes ", ?)")
    stmt.1 = sqliteOk ∧ (sql.bindBlob stmt.2 blob).1 = sqliteOk ∧
      ((licenses db).lookup contentId = none → (sql.step db (sql.bindBlob stmt.2 blob).2).1 = sqliteDone)
  miss : ∀ db lit contentId, readLiteral lit = some contentId → (licenses db).lookup contentId = none →
    (sql.step db (sql.prepareV2 db (bytes "SELECT RIF FROM Licenses WHERE CONTENT_ID = " ++ lit)).2).1
      ≠ sqliteRow

theorem insertDone_of_accepts {sql : Sqlite Db Stmt} (h : Accepts sql licenses) {rif behind : List Byte}
    (hrif : rif.length = rifSize) (hdenotes : InsertDenotes rif behind) {db : Db}
    (habsent : (licenses db).lookup (contentIdOf rif) = none) : insertDone sql db rif behind = true := by
  obtain ⟨-, lit, hquery, hlit⟩ := hdenotes
  have hquery' : insertQuery rif behind = bytes "INSERT INTO Licenses VALUES(" ++ lit ++ bytes ", ?)" := hquery
  have hblob : rif.take rifSize = rif := List.take_of_length_le hrif.le
  obtain ⟨hprepare, hbind, hstep⟩ := h.insert db lit (contentIdOf rif) rif hlit
  rw [insertDone_iff, InsertReady, insertStmt, hblob, hquery']
  exact ⟨⟨h.openV2 db, hprepare, hbind⟩, hstep habsent⟩

theorem insertRif_takes (hsql : Executes env.sql licenses) (hrefuses : Refuses env.sql licenses)
    {rif : List Byte} (hrif : rif.length = rifSize) (hdenotes : InsertDenotes rif env.behind) (db : Db) :
    Takes licenses (Accepts env.sql licenses) [rowOf rif] db (insertRif env.sql db rif env.behind).2 := by
  have hrow := insertRif_licenses hsql hrefuses hrif hdenotes db
  by_cases hdone : insertDone env.sql db rif env.behind = true
  · rw [if_pos hdone] at hrow
    refine ⟨[rowOf rif], List.Sublist.refl _, ?_, fun _ => rfl⟩
    have habsent : (licenses db).lookup (rowOf rif).1 = none := by
      obtain ⟨-, lit, hquery, hlit⟩ := hdenotes
      have hquery' : insertQuery rif env.behind
          = bytes "INSERT INTO Licenses VALUES(" ++ lit ++ bytes ", ?)" := hquery
      have hblob : rif.take rifSize = rif := List.take_of_length_le hrif.le
      obtain ⟨-, hstep⟩ := (insertDone_iff db rif env.behind).mp hdone
      rw [insertStmt, hblob, hquery'] at hstep
      exact (hsql.insert db lit (contentIdOf rif) rif hlit hstep).1
    rw [hrow, insertAllNew_cons, insertNew_of_absent habsent]
    rfl
  · rw [if_neg hdone, List.append_nil] at hrow
    by_cases haccepts : Accepts env.sql licenses
    · have hpresent : (licenses db).lookup (rowOf rif).1 ≠ none := fun habsent =>
        hdone (insertDone_of_accepts haccepts hrif hdenotes habsent)
      refine ⟨[rowOf rif], List.Sublist.refl _, ?_, fun _ => rfl⟩
      rw [hrow, insertAllNew_cons, insertNew_of_present hpresent]
      rfl
    · exact ⟨[], List.nil_sublist _, hrow, fun h => absurd h haccepts⟩

theorem copyLicense_takes (hsql : Executes env.sql licenses) (hrefuses : Refuses env.sql licenses)
    (hdenote : ReadsDenote env) (hrif : s.data.rif.length = rifSize) (path : CStr) :
    (copyLicense env path s).data.rif.length = rifSize ∧
      Takes licenses (Accepts env.sql licenses) ((offered env path).map rowOf).toList s.db
        (copyLicense env path s).db := by
  unfold copyLicense offered
  split
  · cases hread : env.sceIoRead path with
    | error code => exact ⟨hrif, takes_nothing⟩
    | ok read =>
      have hlength : (read.1 ++ s.data.rif.drop read.1.length).length = rifSize := by
        have hle := read.2
        rw [List.length_append, List.length_drop]
        omega
      dsimp only
      split_ifs with hwhole
      · have hbuffer : read.1 ++ s.data.rif.drop read.1.length = read.1 := by
          rw [List.drop_of_length_le (by omega), List.append_nil]
        rw [hbuffer]
        exact ⟨hwhole, insertRif_takes hsql hrefuses hwhole (hdenote path read hread hwhole) s.db⟩
      · exact ⟨hlength, takes_nothing⟩
  · exact ⟨hrif, takes_nothing⟩

/-- A copying pass over the files -/
theorem callAll_takes (hsql : Executes env.sql licenses) (hrefuses : Refuses env.sql licenses)
    (hdenote : ReadsDenote env) (hrif : s.data.rif.length = rifSize) (hpass : s.data.copyPass = true)
    (files : List (CStr × CStr)) :
    Takes licenses (Accepts env.sql licenses) (offers env files) s.db (callAll env files s).db := by
  induction files generalizing s with
  | nil => exact takes_nothing
  | cons file files ih =>
    have hvisited := (licenseFileCallback_visited env (s := s) file.1 file.2).copyPass
    have hfile : (licenseFileCallback env file.1 file.2 s).data.rif.length = rifSize ∧
        Takes licenses (Accepts env.sql licenses)
          (if isRif file.2 then (offered env (joinPath file.1 file.2)).map rowOf else none).toList s.db
          (licenseFileCallback env file.1 file.2 s).db := by
      by_cases hname : isRif file.2 = true
      · rw [licenseFileCallback_copies env hname hpass, if_pos hname]
        exact copyLicense_takes (s := s.visit file.1 file.2) hsql hrefuses hdenote hrif _
      · rw [licenseFileCallback_other env hname, if_neg hname]
        exact ⟨hrif, takes_nothing⟩
    rw [offers_cons, callAll_cons]
    exact hfile.2.trans (ih hfile.1 (hvisited.trans hpass))

end Takes

/-! ## Runs of the thread -/

/-- A run of `license_thread`: what the calls answer in it, and the two trees -/
structure Run (Db Stmt : Type) where
  env : ThreadEnvironment Db Stmt
  app : Directory
  addcont : Directory

section Runs
variable {Db Stmt : Type} {licenses : Db → List Row}

def Run.files (run : Run Db Stmt) : List (CStr × CStr) := licenseFiles run.app run.addcont

/-- What a run does to the database, also where it ends before the copying pass. -/
def Run.behind (run : Run Db Stmt) (db : Db) : Db :=
  match run.env.malloc with
  | none => db
  | some rif =>
    match untilCopy run.env run.app run.addcont db with
    | none => (ensureDb run.env (licensePass run.env run.app run.addcont (licenseStart db rif)).db).2
    | some s => (licensePass run.env run.app run.addcont s).db

/-- The rows that a run offers: none where it ends before the copying pass -/
def Run.offers (run : Run Db Stmt) (db : Db) : List Row :=
  if (untilCopy run.env run.app run.addcont db).isSome then Licenses.offers run.env.toEnvironment run.files
  else []

theorem licenseThread_db {run : Run Db Stmt} {db : Db} {nbrRefreshItem : ℤ} {t : Importing Db}
    (h : licenseThread run.env run.app run.addcont db = (nbrRefreshItem, some t)) : run.behind db = t.db := by
  unfold licenseThread at h
  cases hcopy : untilCopy run.env run.app run.addcont db with
  | none =>
    rw [hcopy] at h
    cases h
  | some s =>
    rw [hcopy] at h
    obtain ⟨rif, hmalloc, -⟩ := Option.bind_eq_some_iff.mp hcopy
    rw [Run.behind, hmalloc, hcopy]
    exact congrArg Importing.db (Option.some.inj (Prod.mk.inj h).2)

def behindRuns (runs : List (Run Db Stmt)) (db : Db) : Db := runs.foldl (fun db run => run.behind db) db

def offeredBy : List (Run Db Stmt) → Db → List Row
  | [], _ => []
  | run :: runs, db => run.offers db ++ offeredBy runs (run.behind db)

/-- What the runs rely on: SQLite executes the statements, creating the database keeps its rows, and the
licences that are read have content ids that their statements denote. -/
structure Run.Sound (licenses : Db → List Row) (run : Run Db Stmt) : Prop where
  executes : Executes run.env.sql licenses
  refuses : Refuses run.env.sql licenses
  opened : ∀ db, licenses (run.env.sqlExec.openV2 db).2 = licenses db
  created : ∀ db, licenses (run.env.sqlExec.exec db licenseDbSchema).2 = licenses db
  denote : ReadsDenote run.env.toEnvironment
  malloc : ∀ rif, run.env.malloc = some rif → rif.length = rifSize

theorem ensureDb_licenses {run : Run Db Stmt} (h : run.Sound licenses) (db : Db) :
    licenses (ensureDb run.env db).2 = licenses db := by
  unfold ensureDb createDb
  dsimp only
  split_ifs
  · rfl
  · exact h.opened db
  · exact (h.created _).trans (h.opened db)

theorem counting_db (run : Run Db Stmt) (db : Db) (rif : List Byte) :
    (licensePass run.env run.app run.addcont (licenseStart db rif)).db = db := by
  have hcounting := callAll_counting run.env.toEnvironment (s := licenseStart db rif) rfl run.files
  rw [licensePass_eq run.env run.app run.addcont _ rfl rfl]
  exact congrArg Importing.db hcounting

/-- Where the copying pass starts -/
theorem untilCopy_start {run : Run Db Stmt} (h : run.Sound licenses) {db : Db} {s : Importing Db}
    (hcopy : untilCopy run.env run.app run.addcont db = some s) :
    licenses s.db = licenses db ∧ s.data.rif.length = rifSize := by
  obtain ⟨rif, hmalloc, hrest⟩ := Option.bind_eq_some_iff.mp hcopy
  have hcounting := callAll_counting run.env.toEnvironment (s := licenseStart db rif) rfl run.files
  rw [licensePass_eq run.env run.app run.addcont _ rfl rfl, ← Run.files, hcounting] at hrest
  dsimp only at hrest
  split at hrest
  · cases hrest
  · obtain rfl := Option.some.inj hrest
    exact ⟨ensureDb_licenses h db, h.malloc rif hmalloc⟩

theorem Takes.of_licenses {accepts : Prop} {rows : List Row} {db db' db'' : Db}
    (h : Takes licenses accepts rows db' db'') (hsame : licenses db' = licenses db) :
    Takes licenses accepts rows db db'' := by
  obtain ⟨taken, hsub, hrows, hall⟩ := h
  exact ⟨taken, hsub, by rw [hrows, hsame], hall⟩

theorem Run.takes {run : Run Db Stmt} (h : run.Sound licenses) (db : Db) :
    Takes licenses (Accepts run.env.sql licenses) (run.offers db) db (run.behind db) := by
  unfold Run.behind Run.offers
  cases hmalloc : run.env.malloc with
  | none =>
    have hcopy : untilCopy run.env run.app run.addcont db = none := by
      unfold untilCopy
      rw [hmalloc]
      rfl
    rw [hcopy]
    exact takes_nothing
  | some rif =>
    cases hcopy : untilCopy run.env run.app run.addcont db with
    | none =>
      refine ⟨[], List.Sublist.refl _, ?_, fun _ => rfl⟩
      dsimp only
      rw [ensureDb_licenses h, counting_db]
      rfl
    | some s =>
      obtain ⟨hsame, hrif⟩ := untilCopy_start h hcopy
      have hcounted := untilCopy_counted run.env hcopy
      have htakes := callAll_takes h.executes h.refuses h.denote hrif hcounted.copyPass run.files
      dsimp only
      rw [licensePass_eq run.env run.app run.addcont s hcounted.curDepth hcounted.maxDepth]
      exact htakes.of_licenses hsame

theorem behindRuns_takes {runs : List (Run Db Stmt)} (h : ∀ run ∈ runs, run.Sound licenses) (db : Db) :
    Takes licenses (∀ run ∈ runs, Accepts run.env.sql licenses) (offeredBy runs db) db
      (behindRuns runs db) := by
  induction runs generalizing db with
  | nil => exact takes_nothing
  | cons run runs ih =>
    obtain ⟨taken, hsub, hrows, hall⟩ := run.takes (h run List.mem_cons_self) db
    obtain ⟨taken', hsub', hrows', hall'⟩ :=
      ih (fun other hother => h other (List.mem_cons_of_mem run hother)) (run.behind db)
    refine ⟨taken ++ taken', hsub.append hsub', ?_, fun haccepts => ?_⟩
    · rw [insertAllNew_append, ← hrows]
      exact hrows'
    · rw [hall (haccepts run List.mem_cons_self),
        hall' fun other hother => haccepts other (List.mem_cons_of_mem run hother)]
      rfl

/-! ## What is found -/

theorem queryRif_miss {sql : Sqlite Db Stmt} (haccepts : Accepts sql licenses) {contentId : CStr}
    (hselect : SelectDenotes contentId) {db : Db} (habsent : (licenses db).lookup contentId = none)
    (malloc : Bool) : queryRif sql malloc db contentId = none := by
  obtain ⟨-, lit, hquery, hlit⟩ := hselect
  have hquery' : selectQuery contentId
      = bytes "SELECT RIF FROM Licenses WHERE CONTENT_ID = " ++ lit := by
    rw [selectQuery, hquery, List.append_nil]
  have hmiss := haccepts.miss db lit contentId hlit habsent
  unfold queryRif
  rw [hquery']
  have hsize : (0 : ℕ) ≠ rifSize := by decide
  dsimp only
  rw [if_neg hmiss, if_pos hsize, ite_self, ite_self]

/-- The licences are whole. -/
def Whole (rows : List Row) : Prop := ∀ row ∈ rows, row.2.length = rifSize

theorem whole_nil : Whole [] := fun _ hrow => absurd hrow List.not_mem_nil

theorem mem_of_lookup {rows : List Row} {contentId : CStr} {rif : List Byte}
    (h : rows.lookup contentId = some rif) : (contentId, rif) ∈ rows := by
  obtain ⟨front, back, rfl, -⟩ := List.lookup_eq_some_iff.mp h
  exact List.mem_append_right front List.mem_cons_self

theorem offers_mem {env : Environment Db Stmt} {files : List (CStr × CStr)} {row : Row}
    (h : row ∈ offers env files) : ∃ file ∈ files, isRif file.2 = true ∧ ∃ read,
      env.sceIoRead (joinPath file.1 file.2) = .ok read ∧ read.1.length = rifSize ∧ row = rowOf read.1 := by
  obtain ⟨file, hfile, hrow⟩ := List.mem_filterMap.mp h
  split_ifs at hrow with hname
  obtain ⟨rif, hoffered, rfl⟩ := Option.map_eq_some_iff.mp hrow
  obtain ⟨hlength, read, hread, rfl⟩ := offered_read env hoffered
  exact ⟨file, hfile, hname, read, hread, hlength, rfl⟩

theorem offeredBy_mem {runs : List (Run Db Stmt)} {db : Db} {row : Row} (h : row ∈ offeredBy runs db) :
    ∃ run ∈ runs, row ∈ Licenses.offers run.env.toEnvironment run.files := by
  induction runs generalizing db with
  | nil => cases h
  | cons run runs ih =>
    rcases List.mem_append.mp h with hhere | hlater
    · unfold Run.offers at hhere
      split_ifs at hhere
      · exact ⟨run, List.mem_cons_self, hhere⟩
      · cases hhere
    · obtain ⟨other, hother, hrow⟩ := ih hlater
      exact ⟨other, List.mem_cons_of_mem run hother, hrow⟩

theorem offeredBy_whole (runs : List (Run Db Stmt)) (db : Db) : Whole (offeredBy runs db) := by
  intro row hrow
  obtain ⟨run, -, hoffers⟩ := offeredBy_mem hrow
  obtain ⟨_, -, -, read, -, hlength, rfl⟩ := offers_mem hoffers
  exact hlength

theorem behindRuns_whole {runs : List (Run Db Stmt)} (h : ∀ run ∈ runs, run.Sound licenses) {db : Db}
    (hwhole : Whole (licenses db)) : Whole (licenses (behindRuns runs db)) := by
  obtain ⟨taken, hsub, hrows, -⟩ := behindRuns_takes h db
  intro row hrow
  rw [hrows] at hrow
  rcases mem_insertAllNew hrow with hold | hnew
  · exact hwhole row hold
  · exact offeredBy_whole runs db row (hsub.subset hnew)

end Runs

/-! ## One title, imported twice -/

def oneRun : Run (List Row) TableStmt := ⟨oneLicense, oneTitle, .done⟩

theorem tableSqlite_refuses : Refuses tableSqlite id := by
  intro rows stmt hstep
  unfold tableSqlite at hstep ⊢
  dsimp only at hstep ⊢
  cases hinserted : insertedId stmt.query with
  | some contentId =>
    rw [hinserted] at hstep
    dsimp only at hstep ⊢
    split_ifs at hstep ⊢
    · exact absurd rfl hstep
    · rfl
  | none =>
    dsimp only
    split <;> rfl

theorem tableSqlite_inserts {rows : List Row} {stmt : TableStmt} {contentId : CStr}
    (hinserted : insertedId stmt.query = some contentId) (habsent : rows.lookup contentId = none) :
    (tableSqlite.step rows stmt).1 = sqliteDone := by
  simp [tableSqlite, hinserted, habsent]

theorem tableSqlite_prepares {rows : List Row} {query : CStr} {contentId : CStr}
    (hinserted : insertedId query = some contentId) : (tableSqlite.prepareV2 rows query).1 = sqliteOk := by
  simp [tableSqlite, hinserted]

theorem tableSqlite_accepts : Accepts tableSqlite id where
  openV2 _ := rfl
  insert rows lit contentId blob hlit := by
    have hinserted : insertedId (bytes "INSERT INTO Licenses VALUES(" ++ lit ++ bytes ", ?)")
        = some contentId := by
      rw [insertedId, between_append, Option.bind_some, hlit]
    exact ⟨tableSqlite_prepares hinserted, rfl, fun habsent => tableSqlite_inserts hinserted habsent⟩
  miss rows lit contentId hlit habsent := by
    have hselected : selectedId (bytes "SELECT RIF FROM Licenses WHERE CONTENT_ID = " ++ lit)
        = some contentId := by
      have hbetween := between_append (bytes "SELECT RIF FROM Licenses WHERE CONTENT_ID = ") lit []
      rw [List.append_nil] at hbetween
      rw [selectedId, hbetween, Option.bind_some, hlit]
    have hinserted : insertedId (bytes "SELECT RIF FROM Licenses WHERE CONTENT_ID = " ++ lit) = none := by
      rw [insertedId, Option.bind_eq_none_iff]
      intro middle hmiddle
      exact absurd (between_head? hmiddle (by decide)) (by simp [bytes])
    have habsent' : rows.lookup contentId = none := habsent
    simp [tableSqlite, hinserted, hselected, habsent', sqliteDone, sqliteRow]

theorem oneRun_sound : oneRun.Sound id where
  executes := tableSqlite_executes
  refuses := tableSqlite_refuses
  opened _ := rfl
  created _ := rfl
  denote path read hread hlength := by
    obtain rfl := Except.ok.inj hread
    have hsafe : InsertSafe oneRif := by
      rw [InsertSafe]
      decide +kernel
    exact (insertDenotes_iff hlength []).mpr hsafe
  malloc rif hrif := by
    obtain rfl := Option.some.inj hrif
    exact List.length_replicate

/-! ## What stays and what is found -/

section Found
variable {Db Stmt : Type} {licenses : Db → List Row}

/-- **Licences stay.** However many imports there are, of whatever trees, and whatever fails in them: the rows
of the database stay where they are, no content id comes twice, every new row is a whole licence that has been
read of a licence file, under its own content id, and `query_rif` goes on to answer the licence that was there
first. -/
theorem licenses_stay (runs : List (Run Db Stmt)) (db : Db) (hsound : ∀ run ∈ runs, run.Sound licenses)
    (hunique : ((licenses db).map Prod.fst).Nodup) (hwhole : Whole (licenses db)) :
    licenses db <+: licenses (behindRuns runs db) ∧
      ((licenses (behindRuns runs db)).map Prod.fst).Nodup ∧
      (∀ row ∈ licenses (behindRuns runs db), row ∈ licenses db ∨
        ∃ run ∈ runs, ∃ file ∈ run.files, isRif file.2 = true ∧ ∃ read,
          run.env.sceIoRead (joinPath file.1 file.2) = .ok read ∧ read.1.length = rifSize ∧
            row = rowOf read.1) ∧
      ∀ (sql : Sqlite Db Stmt) (contentId : CStr) (rif : List Byte), Executes sql licenses →
        SelectDenotes contentId → (licenses db).lookup contentId = some rif →
          queryRif sql true (behindRuns runs db) contentId = some rif := by
  obtain ⟨taken, hsub, hrows, -⟩ := behindRuns_takes hsound db
  rw [hrows]
  refine ⟨prefix_insertAllNew _ _, nodup_insertAllNew hunique _, fun row hrow => ?_, ?_⟩
  · refine (mem_insertAllNew hrow).imp_right fun hnew => ?_
    obtain ⟨run, hrun, hoffers⟩ := offeredBy_mem (hsub.subset hnew)
    exact ⟨run, hrun, offers_mem hoffers⟩
  · intro sql contentId rif hsql hselect hrow
    have hlength : rif.length = rifSize := hwhole _ (mem_of_lookup hrow)
    have hlookup : (licenses (behindRuns runs db)).lookup contentId = some rif := by
      rw [hrows, lookup_insertAllNew, hrow]
      rfl
    exact queryRif_row hsql hlength hselect hlookup true

theorem licenses_stay_twice : ((behindRuns [oneRun, oneRun] []).map Prod.fst).Nodup := by
  have hsound : ∀ run ∈ [oneRun, oneRun], run.Sound id :=
    List.forall_mem_cons.mpr ⟨oneRun_sound, List.forall_mem_singleton.mpr oneRun_sound⟩
  obtain ⟨-, hunique, -⟩ := @licenses_stay _ _ id [oneRun, oneRun] [] hsound List.nodup_nil whole_nil
  rwa [id_eq] at hunique

/-- **What an import finds is found.** Where the database accepts every row whose content id is new, `query_rif`
answers after any number of imports the licence that was there, or else the first one that any of them has read
under the content id, or else none; and an import of the same files changes nothing. -/
theorem queryRif_behind_runs (runs : List (Run Db Stmt)) (db : Db)
    (hsound : ∀ run ∈ runs, run.Sound licenses) (haccepts : ∀ run ∈ runs, Accepts run.env.sql licenses)
    (hwhole : Whole (licenses db)) :
    (∀ (sql : Sqlite Db Stmt) (contentId : CStr), Executes sql licenses → Accepts sql licenses →
        SelectDenotes contentId → queryRif sql true (behindRuns runs db) contentId
          = ((licenses db).lookup contentId).or ((offeredBy runs db).lookup contentId)) ∧
      ∀ run : Run Db Stmt, run.Sound licenses →
        Licenses.offers run.env.toEnvironment run.files ⊆ offeredBy runs db →
          licenses (run.behind (behindRuns runs db)) = licenses (behindRuns runs db) := by
  obtain ⟨taken, -, hrows, hall⟩ := behindRuns_takes hsound db
  rw [hall haccepts] at hrows
  constructor
  · intro sql contentId hsql haccepts' hselect
    have hlookup : (licenses (behindRuns runs db)).lookup contentId
        = ((licenses db).lookup contentId).or ((offeredBy runs db).lookup contentId) := by
      rw [hrows, lookup_insertAllNew]
    rw [← hlookup]
    cases hfound : (licenses (behindRuns runs db)).lookup contentId with
    | none => exact queryRif_miss haccepts' hselect hfound true
    | some rif =>
      exact queryRif_row hsql (behindRuns_whole hsound hwhole _ (mem_of_lookup hfound)) hselect hfound true
  · intro run hrun hsame
    obtain ⟨again, hagain, hrows', -⟩ := run.takes hrun (behindRuns runs db)
    have hsub : again ⊆ offeredBy runs db := by
      refine fun row hrow => hsame ?_
      have hoffers := hagain.subset hrow
      unfold Run.offers at hoffers
      split_ifs at hoffers
      · exact hoffers
      · cases hoffers
    rw [hrows', hrows, insertAllNew_of_subset _ hsub]

theorem queryRif_behind_runs_one :
    queryRif tableSqlite true (behindRuns [oneRun] []) (bytes "X") = some oneRif := by
  have hoffered : (offeredBy [oneRun] []).lookup (bytes "X") = some oneRif := by decide +kernel
  have hsound : ∀ run ∈ [oneRun], run.Sound id := List.forall_mem_singleton.mpr oneRun_sound
  have haccepts : ∀ run ∈ [oneRun], Accepts run.env.sql id :=
    List.forall_mem_singleton.mpr tableSqlite_accepts
  have hselect : SelectDenotes (bytes "X") := (selectDenotes_iff _).mpr (by decide)
  obtain ⟨hfound, -⟩ := @queryRif_behind_runs _ _ id [oneRun] [] hsound haccepts whole_nil
  rw [hfound tableSqlite (bytes "X") tableSqlite_executes tableSqlite_accepts hselect, hoffered]
  exact Option.none_or

end Found

end VitaConnect.Licenses
