import VitaConnect.Rif.Statements

/-! # What `insert_rif` does to the database

The one call that changes the database is `sqlite3_step`, and a licence is inserted when it answers
`SQLITE_DONE`, whatever `insert_rif` returns.
-/
namespace VitaConnect.Rif
open CString
set_option autoImplicit false

section Inserts
variable {Db Stmt : Type} {sql : Sqlite Db Stmt} {licenses : Db → List (CStr × List Byte)}

/-- The statement of `insert_rif` with its blob. -/
def insertStmt (sql : Sqlite Db Stmt) (db : Db) (rif behind : List Byte) : ℤ × Stmt :=
  sql.bindBlob (sql.prepareV2 db (insertQuery rif behind)).2 (rif.take rifSize)

/-- The statement of `insert_rif` is executed. -/
def insertDone (sql : Sqlite Db Stmt) (db : Db) (rif behind : List Byte) : Bool :=
  sql.openV2 db = sqliteOk && (sql.prepareV2 db (insertQuery rif behind)).1 = sqliteOk &&
    (insertStmt sql db rif behind).1 = sqliteOk &&
    (sql.step db (insertStmt sql db rif behind).2).1 = sqliteDone

/-- `insert_rif` comes to its `sqlite3_step`. -/
def InsertReady (sql : Sqlite Db Stmt) (db : Db) (rif behind : List Byte) : Prop :=
  sql.openV2 db = sqliteOk ∧ (sql.prepareV2 db (insertQuery rif behind)).1 = sqliteOk ∧
    (insertStmt sql db rif behind).1 = sqliteOk

theorem insertRif_db_of_ready {db : Db} {rif behind : List Byte} (h : InsertReady sql db rif behind) :
    (insertRif sql db rif behind).2 = (sql.step db (insertStmt sql db rif behind).2).2.1 := by
  obtain ⟨hopen, hprepare, hbind⟩ := h
  rw [insertStmt] at hbind ⊢
  unfold insertRif
  dsimp only
  rw [if_neg (not_not.mpr hopen), if_neg (not_not.mpr hprepare), if_neg (not_not.mpr hbind)]
  split <;> rfl

theorem insertRif_db_of_not_ready {db : Db} {rif behind : List Byte} (h : ¬ InsertReady sql db rif behind) :
    (insertRif sql db rif behind).2 = db := by
  unfold insertRif
  dsimp only
  split
  · rfl
  · next hopen =>
    split
    · rfl
    · next hprepare =>
      split
      · rfl
      · next hbind => exact absurd ⟨not_not.mp hopen, not_not.mp hprepare, not_not.mp hbind⟩ h

theorem insertDone_iff (db : Db) (rif behind : List Byte) : insertDone sql db rif behind = true ↔
    InsertReady sql db rif behind ∧ (sql.step db (insertStmt sql db rif behind).2).1 = sqliteDone := by
  simp only [insertDone, InsertReady, Bool.and_eq_true, decide_eq_true_eq, and_assoc]

/-- A statement that is not executed changes no row. -/
def Refuses (sql : Sqlite Db Stmt) (licenses : Db → List (CStr × List Byte)) : Prop :=
  ∀ db stmt, (sql.step db stmt).1 ≠ sqliteDone → licenses (sql.step db stmt).2.1 = licenses db

/-- The row that `insert_rif` adds, where it adds one. -/
theorem insertRif_licenses (hsql : Executes sql licenses) (hrefuses : Refuses sql licenses)
    {rif behind : List Byte} (hrif : rif.length = rifSize) (h : InsertDenotes rif behind) (db : Db) :
    licenses (insertRif sql db rif behind).2
      = licenses db ++ if insertDone sql db rif behind then [(contentIdOf rif, rif)] else [] := by
  obtain ⟨-, lit, hquery, hlit⟩ := h
  have hquery' : insertQuery rif behind = bytes "INSERT INTO Licenses VALUES(" ++ lit ++ bytes ", ?)" := hquery
  have hinsert := hsql.insert db lit (contentIdOf rif) rif hlit
  rw [← hquery'] at hinsert
  have hblob : rif.take rifSize = rif := List.take_of_length_le hrif.le
  by_cases hready : InsertReady sql db rif behind
  · rw [insertRif_db_of_ready hready]
    by_cases hdone : (sql.step db (insertStmt sql db rif behind).2).1 = sqliteDone
    · rw [if_pos ((insertDone_iff db rif behind).mpr ⟨hready, hdone⟩)]
      rw [insertStmt, hblob] at hdone ⊢
      exact (hinsert hdone).2
    · rw [if_neg fun h => hdone ((insertDone_iff db rif behind).mp h).2, List.append_nil, hrefuses db _ hdone]
  · rw [insertRif_db_of_not_ready hready, if_neg fun h => hready ((insertDone_iff db rif behind).mp h).1,
      List.append_nil]

end Inserts

end VitaConnect.Rif
