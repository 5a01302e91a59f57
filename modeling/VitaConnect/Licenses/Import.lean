import VitaConnect.Licenses.Visits

/-! # Importing the licences (`refresh.c`: `license_thread`; `rif.c`: `create_db`; `thread.c`:
`thread_user_message`)

The thread counts the licence files of two trees and then inserts the licences of the same files. What it
publishes is the first number, whatever comes of the inserts; `copied`, which it keeps beside it, is read by
nothing.
-/
namespace VitaConnect.Licenses
open CString Rif Storage
set_option autoImplicit false

/-! ## `create_db` -/

def licenseDb : CStr := bytes "ux0:license/license.db"

def licenseDbSchema : CStr :=
  bytes "CREATE TABLE Licenses (CONTENT_ID TEXT NOT NULL UNIQUE,RIF BLOB NOT NULL,PRIMARY KEY(CONTENT_ID))"

/-- The functions of SQLite that `create_db` calls. -/
structure SqliteExec (Db : Type) where
  /-- `sqlite3_open_v2` with `SQLITE_OPEN_CREATE` -/
  openV2 : Db → ℤ × Db
  exec : Db → CStr → ℤ × Db

def createDb {Db : Type} (sql : SqliteExec Db) (db : Db) (schema : CStr) : ℤ × Db :=
  let (rc, db) := sql.openV2 db
  if rc ≠ sqliteOk then (rc, db) else sql.exec db schema

/-! ## `license_thread` -/

structure ThreadEnvironment (Db Stmt : Type) extends Environment Db Stmt where
  /-- The memory that `malloc(RIF_SIZE)` answers, if it answers any. -/
  malloc : Option (List Byte)
  sqlExec : SqliteExec Db

section Thread
variable {Db Stmt : Type} (env : ThreadEnvironment Db Stmt) (app addcont : Directory)

def licenseApp : CStr := bytes "ux0:license/app"

def licenseAddcont : CStr := bytes "ux0:license/addcont"

/-- One pass over the two trees. -/
def licensePass (s : Importing Db) : Importing Db :=
  let s := parseDirWithCallback .dir licenseApp (licenseDirCallback env.toEnvironment) app s
  let s := { s with data := { s.data with maxDepth := s.data.maxDepth + 1 } }
  parseDirWithCallback .dir licenseAddcont (licenseDirCallback env.toEnvironment) addcont s

/-- `license_data_t license_data = { 0, 0, 0, 0, 0, 1, malloc(RIF_SIZE) }` -/
def licenseStart (db : Db) (rif : List Byte) : Importing Db where
  data := { copyPass := false, count := 0, copied := 0, curDepth := 0, maxDepth := 1, rif := rif }
  db := db
  calls := []
  inserted := []

/-- The database is created when it cannot be opened. -/
def ensureDb (db : Db) : ℤ × Db :=
  if 0 < env.sceIoOpen licenseDb then (0, db) else createDb env.sqlExec db licenseDbSchema

/-- The counting pass and the database: nothing where the thread ends before the copying pass. -/
def untilCopy (db : Db) : Option (Importing Db) := do
  let rif ← env.malloc
  let s := licensePass env app addcont (licenseStart db rif)
  let ensured := ensureDb env s.db
  if ensured.1 ≠ 0 then none
  else some { s with db := ensured.2, data := { s.data with copyPass := true, maxDepth := 1 } }

/-- `nbrRefreshItem` at the end, and what both passes have done when the thread has come through them. -/
def licenseThread (db : Db) : ℤ × Option (Importing Db) :=
  match untilCopy env app addcont db with
  | none => (0, none)
  | some s =>
    let s := licensePass env app addcont s
    (s.data.count, some s)

/-- What `thread_user_message` shows for `run_USB == 13`. -/
def userMessage (selectRefresh : Bool) (nbrRefreshItem : ℤ) : CStr :=
  (if selectRefresh then bytes "VitaConnect: Refreshed " ++ intDec nbrRefreshItem ++ bytes " items"
    else bytes "VitaConnect: Imported " ++ intDec nbrRefreshItem ++ bytes " license(s)") ++
  if 0 < nbrRefreshItem then bytes " :)" else bytes " :("

/-! ## The files of a pass -/

def licenseFiles : List (CStr × CStr) := filesAt 1 licenseApp app ++ filesAt 2 licenseAddcont addcont

theorem licensePass_eq (s : Importing Db) (hcur : s.data.curDepth = 0) (hmax : s.data.maxDepth = 1) :
    licensePass env app addcont s
      = (callAll env.toEnvironment (licenseFiles app addcont) s).withDepths 0 2 := by
  set t := callAll env.toEnvironment (filesAt 1 licenseApp app) s with ht
  have hvisited := callAll_visited env.toEnvironment (s := s) (filesAt 1 licenseApp app)
  have happ : parseDirWithCallback .dir licenseApp (licenseDirCallback env.toEnvironment) app s = t := by
    rw [← parseDirs_eq, parseDirs_eq_callAll env.toEnvironment app licenseApp 0 (by rw [hcur, hmax]; rfl)]
  have hdeeper : ({ t with data := { t.data with maxDepth := t.data.maxDepth + 1 } } : Importing Db)
      = t.withDepths 0 2 := by
    rw [Importing.withDepths, hvisited.maxDepth, hmax, ← hcur, ← hvisited.curDepth]
    rfl
  unfold licensePass
  dsimp only
  rw [happ, hdeeper, ← parseDirs_eq, parseDirs_eq_callAll env.toEnvironment addcont licenseAddcont 1 rfl,
    callAll_withDepths, licenseFiles, callAll_append]

end Thread

/-! ## What the passes do -/

section Passes
variable {Db Stmt : Type} (env : Environment Db Stmt) {s : Importing Db}

/-- The counting pass counts the licence files, and does nothing else. -/
theorem callAll_counting (h : s.data.copyPass = false) (files : List (CStr × CStr)) :
    callAll env files s = { s with
      calls := s.calls ++ files
      data := { s.data with count := s.data.count + rifs files } } := by
  induction files generalizing s with
  | nil => simp [callAll, rifs]
  | cons file files ih =>
    by_cases hrif : isRif file.2 = true
    · rw [callAll_cons, licenseFileCallback_counts env hrif (by rw [h]; exact Bool.false_ne_true),
        ih (s := { s.visit file.1 file.2 with data := { s.data with count := s.data.count + 1 } }) h, rifs_cons,
        if_pos hrif]
      simp only [Importing.visit, List.append_assoc, List.singleton_append, Nat.cast_add, Nat.cast_one,
        add_assoc, add_comm (1 : ℤ)]
    · rw [callAll_cons, licenseFileCallback_other env hrif, ih (s := s.visit file.1 file.2) h, rifs_cons,
        if_neg hrif]
      simp only [Importing.visit, List.append_assoc, List.singleton_append, add_zero]

/-- The file is opened, a whole licence is read of it, and its insert is executed. -/
def Imports (s : Importing Db) (path : CStr) : Prop :=
  0 < env.sceIoOpen path ∧ ∃ read, env.sceIoRead path = .ok read ∧ read.1.length = rifSize ∧
    insertDone env.sql s.db (read.1 ++ s.data.rif.drop rifSize) env.behind = true

/-- Each licence file is imported, in the state in which it is met. -/
def AllImported : List (CStr × CStr) → Importing Db → Prop
  | [], _ => True
  | file :: files, s => (isRif file.2 = true → Imports env s (joinPath file.1 file.2)) ∧
      AllImported files (licenseFileCallback env file.1 file.2 s)

theorem copyLicense_inserted (path : CStr) : ∃ k ≤ 1,
    (copyLicense env path s).inserted.length = s.inserted.length + k ∧ (k = 1 ↔ Imports env s path) := by
  unfold copyLicense Imports
  by_cases hopen : 0 < env.sceIoOpen path
  · simp only [hopen, if_true, true_and]
    cases hread : env.sceIoRead path with
    | error code => exact ⟨0, by omega, rfl, by simp⟩
    | ok read =>
      by_cases hlength : read.1.length = rifSize
      · by_cases hdone : insertDone env.sql s.db (read.1 ++ s.data.rif.drop rifSize) env.behind
        · refine ⟨1, le_rfl, ?_, by simp [hlength, hdone]⟩
          simp [hlength, insertLicense, hdone]
        · refine ⟨0, by omega, ?_, by simp [hlength, hdone]⟩
          simp [hlength, insertLicense, hdone]
      · exact ⟨0, by omega, by simp [hlength], by simp [hlength]⟩
  · exact ⟨0, by omega, by simp [hopen], by simp [hopen]⟩

theorem callAll_inserted (h : s.data.copyPass = true) (files : List (CStr × CStr)) : ∃ k ≤ rifs files,
    (callAll env files s).inserted.length = s.inserted.length + k ∧
      (k = rifs files ↔ AllImported env files s) := by
  induction files generalizing s with
  | nil => exact ⟨0, le_rfl, rfl, by simp [rifs, AllImported]⟩
  | cons file files ih =>
    obtain ⟨k, hk, hlength, hall⟩ := ih (s := licenseFileCallback env file.1 file.2 s)
      ((licenseFileCallback_visited env file.1 file.2).copyPass.trans h)
    rw [callAll_cons, AllImported, ← hall]
    by_cases hrif : isRif file.2 = true
    · obtain ⟨k', hk', hlength', himports⟩ :=
        copyLicense_inserted env (s := s.visit file.1 file.2) (joinPath file.1 file.2)
      have hsame : Imports env (s.visit file.1 file.2) (joinPath file.1 file.2)
          ↔ Imports env s (joinPath file.1 file.2) := Iff.rfl
      have hinserted : (s.visit file.1 file.2).inserted = s.inserted := rfl
      rw [licenseFileCallback_copies env hrif h] at hlength ⊢
      rw [rifs_cons, if_pos hrif, ← hsame, ← himports]
      refine ⟨k' + k, by omega, by rw [hlength, hlength', hinserted]; ring, ?_⟩
      simp only [hrif, true_implies]
      omega
    · have hinserted : (s.visit file.1 file.2).inserted = s.inserted := rfl
      rw [licenseFileCallback_other env hrif] at hlength ⊢
      rw [rifs_cons, if_neg hrif]
      exact ⟨k, hk, by rw [hlength, hinserted], by simp [hrif]⟩

end Passes

/-! ## The licences that are inserted are the new rows -/

section Rows
variable {Db Stmt : Type} {licenses : Db → List (CStr × List Byte)} {env : Environment Db Stmt}
  {s : Importing Db}

/-- The licences that are read have content ids that their statements denote. -/
def ReadsDenote (env : Environment Db Stmt) : Prop :=
  ∀ path read, env.sceIoRead path = .ok read → read.1.length = rifSize → InsertDenotes read.1 env.behind

theorem copyLicense_rows (hsql : Executes env.sql licenses) (hrefuses : Refuses env.sql licenses)
    (hdenote : ReadsDenote env) (hrif : s.data.rif.length = rifSize) (path : CStr) :
    (copyLicense env path s).data.rif.length = rifSize ∧
      ∃ new, (copyLicense env path s).inserted = s.inserted ++ new ∧
        licenses (copyLicense env path s).db = licenses s.db ++ new.map fun rif => (contentIdOf rif, rif) := by
  unfold copyLicense
  split
  · cases hread : env.sceIoRead path with
    | error code => exact ⟨hrif, [], by simp, by simp⟩
    | ok read =>
      have hlength : (read.1 ++ s.data.rif.drop read.1.length).length = rifSize := by
        have hle := read.2
        rw [List.length_append, List.length_drop]
        omega
      by_cases hwhole : read.1.length = rifSize
      · have hbuffer : read.1 ++ s.data.rif.drop read.1.length = read.1 := by
          rw [List.drop_of_length_le (by omega), List.append_nil]
        have hrow := insertRif_licenses hsql hrefuses hwhole (hdenote path read hread hwhole) s.db
        simp only [hwhole, if_true]
        rw [hwhole] at hbuffer
        rw [hbuffer]
        refine ⟨hwhole, if insertDone env.sql s.db read.1 env.behind then [read.1] else [], ?_, ?_⟩
        · unfold insertLicense
          by_cases hdone : insertDone env.sql s.db read.1 env.behind <;> simp [hdone]
        · unfold insertLicense
          dsimp only
          rw [hrow]
          by_cases hdone : insertDone env.sql s.db read.1 env.behind <;> simp [hdone]
      · simp only [hwhole, if_false]
        exact ⟨hlength, [], by simp, by simp⟩
  · exact ⟨hrif, [], by simp, by simp⟩

/-- The licences a pass inserts are the rows that the database has more behind it. -/
theorem callAll_rows (hsql : Executes env.sql licenses) (hrefuses : Refuses env.sql licenses)
    (hdenote : ReadsDenote env) (hrif : s.data.rif.length = rifSize) (files : List (CStr × CStr)) :
    ∃ new, (callAll env files s).inserted = s.inserted ++ new ∧
      licenses (callAll env files s).db = licenses s.db ++ new.map fun rif => (contentIdOf rif, rif) := by
  induction files generalizing s with
  | nil => exact ⟨[], by simp [callAll], by simp [callAll]⟩
  | cons file files ih =>
    have hfile : (licenseFileCallback env file.1 file.2 s).data.rif.length = rifSize ∧
        ∃ new, (licenseFileCallback env file.1 file.2 s).inserted = s.inserted ++ new ∧
          licenses (licenseFileCallback env file.1 file.2 s).db
            = licenses s.db ++ new.map fun rif => (contentIdOf rif, rif) := by
      by_cases hname : isRif file.2 = true
      · by_cases hpass : s.data.copyPass = true
        · rw [licenseFileCallback_copies env hname hpass]
          exact copyLicense_rows (s := s.visit file.1 file.2) hsql hrefuses hdenote hrif _
        · rw [licenseFileCallback_counts env hname hpass]
          exact ⟨hrif, [], (List.append_nil _).symm, (List.append_nil _).symm⟩
      · rw [licenseFileCallback_other env hname]
        exact ⟨hrif, [], (List.append_nil _).symm, (List.append_nil _).symm⟩
    obtain ⟨hlength, new, hinserted, hrows⟩ := hfile
    obtain ⟨new', hinserted', hrows'⟩ := ih hlength
    refine ⟨new ++ new', ?_, ?_⟩
    · rw [callAll_cons, hinserted', hinserted, List.append_assoc]
    · rw [callAll_cons, hrows', hrows, List.map_append, List.append_assoc]

end Rows

/-- Where the copying pass starts. -/
structure Counted (files : List (CStr × CStr)) {Db : Type} (s : Importing Db) : Prop where
  copyPass : s.data.copyPass = true
  curDepth : s.data.curDepth = 0
  maxDepth : s.data.maxDepth = 1
  count : s.data.count = rifs files
  inserted : s.inserted = []

section Runs
variable {Db Stmt : Type} (env : ThreadEnvironment Db Stmt) {app addcont : Directory} {db : Db}
  {s : Importing Db}

theorem untilCopy_counted (h : untilCopy env app addcont db = some s) :
    Counted (licenseFiles app addcont) s := by
  obtain ⟨rif, -, h⟩ := Option.bind_eq_some_iff.mp h
  have hcounting := callAll_counting env.toEnvironment (s := licenseStart db rif) rfl (licenseFiles app addcont)
  rw [licensePass_eq env app addcont (licenseStart db rif) rfl rfl, hcounting] at h
  dsimp only at h
  split at h
  · cases h
  · obtain rfl := Option.some.inj h
    exact ⟨rfl, rfl, rfl, Int.zero_add _, rfl⟩

end Runs

/-- **The published number.** A thread that comes through both passes publishes how many licences it has
inserted exactly when every licence file it finds is imported. -/
theorem licenseThread_published_iff {Db Stmt : Type} (env : ThreadEnvironment Db Stmt) (app addcont : Directory)
    (db : Db) (s : Importing Db) (h : untilCopy env app addcont db = some s) :
    ∃ nbrRefreshItem t, licenseThread env app addcont db = (nbrRefreshItem, some t) ∧
      (nbrRefreshItem = t.inserted.length ↔
        AllImported env.toEnvironment (licenseFiles app addcont) s) := by
  have hcounted := untilCopy_counted env h
  have hpass := licensePass_eq env app addcont s hcounted.curDepth hcounted.maxDepth
  set t := callAll env.toEnvironment (licenseFiles app addcont) s with ht
  have hcount : t.data.count = rifs (licenseFiles app addcont) := by
    rw [ht, (callAll_visited env.toEnvironment _).count, if_pos hcounted.copyPass, hcounted.count]
  obtain ⟨k, -, hlength, hall⟩ :=
    callAll_inserted env.toEnvironment hcounted.copyPass (licenseFiles app addcont)
  rw [← ht, hcounted.inserted, List.length_nil, Nat.zero_add] at hlength
  refine ⟨t.data.count, t.withDepths 0 2, ?_, ?_⟩
  · rw [licenseThread, h]
    dsimp only
    rw [hpass]
    rfl
  · have hinserted : (t.withDepths 0 2).inserted = t.inserted := rfl
    rw [← hall, hcount, hinserted, hlength]
    omega

/-- One title with its licence. -/
def oneTitle : Directory := .node (bytes "PCSB00001") (.leaf (bytes "a.rif") .reg .done) .done

/-- The licence of the content id `"X"`. -/
def oneRif : List Byte := List.replicate 0x10 0 ++ bytes "X" ++ List.replicate 495 0

/-- Every file is opened and holds the licence; the database is there. -/
def oneLicense : ThreadEnvironment (List (CStr × List Byte)) TableStmt where
  sql := tableSqlite
  sceIoOpen _ := 3
  sceIoRead _ := .ok ⟨oneRif, by decide +kernel⟩
  behind := []
  malloc := some (List.replicate 512 0)
  sqlExec := ⟨fun rows => (sqliteOk, rows), fun rows _ => (sqliteOk, rows)⟩

theorem licenseThread_published_one : ∃ s nbrRefreshItem t,
    untilCopy oneLicense oneTitle .done [] = some s ∧
      licenseThread oneLicense oneTitle .done [] = (nbrRefreshItem, some t) ∧
      nbrRefreshItem = 1 ∧ t.inserted.length = 1 ∧
      AllImported oneLicense.toEnvironment (licenseFiles oneTitle .done) s := by
  have hcomes : (untilCopy oneLicense oneTitle .done []).isSome := by decide +kernel
  have hnumber : (licenseThread oneLicense oneTitle .done []).1 = 1 := by decide +kernel
  have hinserted : ((licenseThread oneLicense oneTitle .done []).2.map fun t => t.inserted.length)
      = some 1 := by
    decide +kernel
  obtain ⟨s, hs⟩ := Option.isSome_iff_exists.mp hcomes
  obtain ⟨n, t, hrun, hiff⟩ := licenseThread_published_iff oneLicense oneTitle .done [] s hs
  rw [hrun] at hnumber hinserted
  obtain rfl : n = 1 := hnumber
  have hone : t.inserted.length = 1 := Option.some.inj hinserted
  exact ⟨s, 1, t, hs, hrun, rfl, hone, hiff.mp (by rw [hone]; rfl)⟩

/-- The licence is in the database already: one is announced, and none inserted. -/
theorem licenseThread_publishes_more :
    (licenseThread oneLicense oneTitle .done [(bytes "X", oneRif)]).1 = 1 ∧
      ((licenseThread oneLicense oneTitle .done [(bytes "X", oneRif)]).2.map fun t => t.inserted) = some [] ∧
      ((licenseThread oneLicense oneTitle .done [(bytes "X", oneRif)]).2.map fun t => t.db)
        = some [(bytes "X", oneRif)] ∧
      userMessage false 1 = bytes "VitaConnect: Imported 1 license(s) :)" := by
  refine ⟨by decide +kernel, by decide +kernel, by decide +kernel, ?_⟩
  have hdigit : intDec 1 = bytes "1" := by simp [intDec, natDec]; decide
  rw [userMessage, hdigit]
  decide

end VitaConnect.Licenses
