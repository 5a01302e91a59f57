import VitaConnect.CString.Format
import VitaConnect.CString.SqlLiteral

/-! # The license database (`rif.c`, `rif.h`)

The content id of a RIF is pasted into the text of a statement. SQLite itself is a parameter: `Executes`
says what it does with a statement whose literal is complete.
-/
namespace VitaConnect.Rif
open CString
set_option autoImplicit false

def rifSize : ℕ := 512

def maxQueryLength : ℕ := 128

/-! ## The statements -/

/-- `&rif[0x10]` as a string; `behind` is the memory behind the RIF. -/
def rifText (rif behind : List Byte) : CStr := ((rif ++ behind).drop 0x10).takeWhile (· != 0)

/-- The content id: the field of 0x30 bytes up to its first NUL. -/
def contentIdOf (rif : List Byte) : CStr := ((rif.drop 0x10).take 0x30).takeWhile (· != 0)

def insertText (rif behind : List Byte) : CStr :=
  bytes "INSERT INTO Licenses VALUES('" ++ rifText rif behind ++ bytes "', ?)"

def insertQuery (rif behind : List Byte) : CStr := snprintf maxQueryLength (insertText rif behind)

def selectText (contentId : CStr) : CStr :=
  bytes "SELECT RIF FROM Licenses WHERE CONTENT_ID = '" ++ contentId ++ bytes "'"

def selectQuery (contentId : CStr) : CStr := snprintf maxQueryLength (selectText contentId)

/-! ## The functions -/

def sqliteOk : ℤ := 0
def sqliteRow : ℤ := 100
def sqliteDone : ℤ := 101

/-- The functions of SQLite that `rif.c` calls, for a type of databases and one of prepared statements. -/
structure Sqlite (Db Stmt : Type) where
  openV2 : Db → ℤ
  prepareV2 : Db → CStr → ℤ × Stmt
  bindBlob : Stmt → List Byte → ℤ × Stmt
  step : Db → Stmt → ℤ × Db × Stmt
  columnBlob : Stmt → List Byte
  finalize : Stmt → ℤ

section Functions
variable {Db Stmt : Type} (sql : Sqlite Db Stmt)

def insertRif (db : Db) (rif behind : List Byte) : ℤ × Db :=
  let rc := sql.openV2 db
  if rc ≠ sqliteOk then (rc, db)
  else
    let (rc, stmt) := sql.prepareV2 db (insertQuery rif behind)
    if rc ≠ sqliteOk then (rc, db)
    else
      let (rc, stmt) := sql.bindBlob stmt (rif.take rifSize)
      if rc ≠ sqliteOk then (rc, db)
      else
        let (rc, db, stmt) := sql.step db stmt
        if rc ≠ sqliteDone then (rc, db) else (sql.finalize stmt, db)

/-- `malloc` says whether there is memory for the RIF. -/
def queryRif (malloc : Bool) (db : Db) (contentId : CStr) : Option (List Byte) :=
  let rc := sql.openV2 db
  if rc ≠ sqliteOk then none
  else
    let (rc, stmt) := sql.prepareV2 db (selectQuery contentId)
    if rc ≠ sqliteOk then none
    else
      let (rc, _, stmt) := sql.step db stmt
      let size := if rc = sqliteRow then (sql.columnBlob stmt).length else 0
      if size ≠ rifSize then none
      else if malloc then some (sql.columnBlob stmt) else none

/-- What SQLite does with a complete statement: it inserts a row unless there is one with the content
id, and selects the row with the content id. -/
structure Executes (licenses : Db → List (CStr × List Byte)) : Prop where
  step_ne_ok : ∀ db stmt, (sql.step db stmt).1 ≠ sqliteOk
  insert : ∀ db lit contentId blob, readLiteral lit = some contentId →
    let stmt := (sql.bindBlob
      (sql.prepareV2 db (bytes "INSERT INTO Licenses VALUES(" ++ lit ++ bytes ", ?)")).2 blob).2
    (sql.step db stmt).1 = sqliteDone →
      (licenses db).lookup contentId = none ∧
        licenses (sql.step db stmt).2.1 = licenses db ++ [(contentId, blob)]
  select : ∀ db lit contentId blob, readLiteral lit = some contentId →
    (licenses db).lookup contentId = some blob →
    let stmt := sql.prepareV2 db (bytes "SELECT RIF FROM Licenses WHERE CONTENT_ID = " ++ lit)
    sql.openV2 db = sqliteOk ∧ stmt.1 = sqliteOk ∧ (sql.step db stmt.2).1 = sqliteRow ∧
      sql.columnBlob (sql.step db stmt.2).2.2 = blob

end Functions

end VitaConnect.Rif
