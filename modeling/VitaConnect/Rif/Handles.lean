import VitaConnect.Program.Effect
import VitaConnect.Rif.Inserts

/-! # The connections and statements of `rif.c`

The three functions once more, with the handles they take. A connection is its place among all that were
opened, with the number of its statements that have not been finalised, or nothing once it is closed:
`sqlite3_close` refuses a connection with such a statement. `Answers` is what SQLite answers in one call.
-/
namespace VitaConnect.Rif.Handles
open CString Program
set_option autoImplicit false

structure Answers where
  openV2 : ℤ
  /-- A failed `sqlite3_open_v2` has given out a handle. -/
  handle : Bool
  exec : ℤ
  prepareV2 : ℤ
  bindBlob : ℤ
  step : ℤ
  columnBytes : ℤ
  columnBlob : Option (List Byte)
  finalize : ℤ
  /-- The memory that `malloc` answers. -/
  malloc : Option (List Byte)

abbrev Connections := List (Option ℕ)

/-- None of these programs ends abnormally. -/
abbrev RifM := EStateM Empty Connections

/-! ## SQLite -/

/-- The code, and the handle. -/
def sqlite3OpenV2 (a : Answers) : RifM (ℤ × Option ℕ) := do
  let opened ← get
  if a.openV2 = sqliteOk ∨ a.handle then do
    modify fun s => s ++ [some 0]
    pure (a.openV2, some opened.length)
  else pure (a.openV2, none)

def atHandle (db : Option ℕ) (f : Option ℕ → Option ℕ) (s : Connections) : Connections :=
  match db with
  | none => s
  | some i => s.modify i f

/-- A statement comes with `SQLITE_OK` only. -/
def sqlite3PrepareV2 (a : Answers) (db : Option ℕ) : RifM ℤ := do
  if a.prepareV2 = sqliteOk then modify (atHandle db (Option.map (· + 1)))
  pure a.prepareV2

def sqlite3Finalize (a : Answers) (db : Option ℕ) : RifM ℤ := do
  modify (atHandle db (Option.map (· - 1)))
  pure a.finalize

def sqlite3Close (db : Option ℕ) : RifM PUnit :=
  modify (atHandle db fun statements => if statements = some 0 then none else statements)

/-! ## The functions -/

/-- What the three functions share: every way out of the body comes to the `sqlite3_close` at `out`. -/
def withDb {α : Type} (a : Answers) (body : ℤ → Option ℕ → RifM α) : RifM α := do
  let (rc, db) ← sqlite3OpenV2 a
  let res ← body rc db
  sqlite3Close db
  pure res

def createDb (a : Answers) : RifM ℤ :=
  withDb a fun rc _ => if rc ≠ sqliteOk then pure rc else pure a.exec

def insertBody (a : Answers) (rc : ℤ) (db : Option ℕ) : RifM ℤ :=
  if rc ≠ sqliteOk then pure rc
  else do
    let rc ← sqlite3PrepareV2 a db
    if rc ≠ sqliteOk then pure rc
    else if a.bindBlob ≠ sqliteOk then pure a.bindBlob
    else if a.step ≠ sqliteDone then pure a.step
    else sqlite3Finalize a db

def insertRif (a : Answers) : RifM ℤ := withDb a (insertBody a)

def Answers.rifSize (a : Answers) : ℤ := if a.step = sqliteRow then a.columnBytes else 0

def queryBody (a : Answers) (rc : ℤ) (db : Option ℕ) : RifM (Option (List Byte)) :=
  if rc ≠ sqliteOk then pure none
  else do
    let rc ← sqlite3PrepareV2 a db
    if rc ≠ sqliteOk then pure none
    else if a.rifSize ≠ Rif.rifSize then pure none
    else do
      let _ ← sqlite3Finalize a db
      pure (a.malloc.map fun rif => a.columnBlob.getD rif)

def queryRif (a : Answers) : RifM (Option (List Byte)) := withDb a (queryBody a)

/-! ## Sequences of calls -/

inductive Call
  | createDb (a : Answers)
  | insertRif (a : Answers)
  | queryRif (a : Answers)

def call : Call → RifM PUnit
  | .createDb a => do
    let _ ← createDb a
  | .insertRif a => do
    let _ ← insertRif a
  | .queryRif a => do
    let _ ← queryRif a

def Call.answers : Call → Answers
  | .createDb a => a
  | .insertRif a => a
  | .queryRif a => a

/-- `sqlite3_open_v2` gives out a handle. -/
def Answers.GivesHandle (a : Answers) : Prop := a.openV2 = sqliteOk ∨ a.handle = true

/-- A statement is prepared. -/
def Answers.Prepares (a : Answers) : Prop := a.openV2 = sqliteOk ∧ a.prepareV2 = sqliteOk

/-- The call goes past its `sqlite3_finalize` with a statement: an insert that is not executed, a query
that finds no licence. -/
def Leaks : Call → Prop
  | .createDb _ => False
  | .insertRif a => a.Prepares ∧ (a.bindBlob ≠ sqliteOk ∨ a.step ≠ sqliteDone)
  | .queryRif a => a.Prepares ∧ a.rifSize ≠ Rif.rifSize

instance (a : Answers) : Decidable a.GivesHandle := inferInstanceAs (Decidable (_ ∨ _))

instance (a : Answers) : Decidable a.Prepares := inferInstanceAs (Decidable (_ ∧ _))

instance : DecidablePred Leaks
  | .createDb _ => inferInstanceAs (Decidable False)
  | .insertRif _ => inferInstanceAs (Decidable (_ ∧ _))
  | .queryRif _ => inferInstanceAs (Decidable (_ ∧ _))

/-- What a call leaves behind the connections: its own one, open when the call leaks. -/
def left (c : Call) : Connections := if c.answers.GivesHandle then [if Leaks c then some 1 else none] else []

section Runs
variable {a : Answers} {s : Connections}

theorem atHandle_last (f : Option ℕ → Option ℕ) (statements : Option ℕ) :
    atHandle (some s.length) f (s ++ [statements]) = s ++ [f statements] := by
  rw [atHandle]
  induction s with
  | nil => rfl
  | cons connection s ih => rw [List.cons_append, List.length_cons, List.modify_succ_cons, ih, List.cons_append]

theorem sqlite3OpenV2_run (a : Answers) (s : Connections) : sqlite3OpenV2 a s
    = if a.GivesHandle then .ok (a.openV2, some s.length) (s ++ [some 0]) else .ok (a.openV2, none) s := by
  rw [sqlite3OpenV2, bind_apply, get_apply]
  dsimp only
  rw [ite_run]
  rfl

theorem sqlite3Close_last (statements : Option ℕ) : sqlite3Close (some s.length) (s ++ [statements])
    = .ok ⟨⟩ (s ++ [if statements = some 0 then none else statements]) := by
  rw [sqlite3Close, modify_apply, atHandle_last]

theorem sqlite3PrepareV2_last (a : Answers) (n : ℕ) : sqlite3PrepareV2 a (some s.length) (s ++ [some n])
    = .ok a.prepareV2 (s ++ [some (if a.prepareV2 = sqliteOk then n + 1 else n)]) := by
  rw [sqlite3PrepareV2]
  by_cases h : a.prepareV2 = sqliteOk
  · simp [h, bind_apply, modify_apply, pure_apply, atHandle_last]
  · simp [h, pure_apply]

theorem sqlite3Finalize_last (a : Answers) (n : ℕ) : sqlite3Finalize a (some s.length) (s ++ [some n])
    = .ok a.finalize (s ++ [some (n - 1)]) := by
  rw [sqlite3Finalize, bind_apply, modify_apply, atHandle_last]
  rfl

/-- What `insert_rif` returns. -/
def insertRc (a : Answers) : ℤ :=
  if a.openV2 ≠ sqliteOk then a.openV2
  else if a.prepareV2 ≠ sqliteOk then a.prepareV2
  else if a.bindBlob ≠ sqliteOk then a.bindBlob
  else if a.step ≠ sqliteDone then a.step
  else a.finalize

/-- What `query_rif` returns. -/
def queryResult (a : Answers) : Option (List Byte) :=
  if a.Prepares ∧ a.rifSize = Rif.rifSize then a.malloc.map fun rif => a.columnBlob.getD rif else none

theorem insertBody_last (a : Answers) (s : Connections) :
    insertBody a a.openV2 (some s.length) (s ++ [some 0])
      = .ok (insertRc a) (s ++ [some (if Leaks (.insertRif a) then 1 else 0)]) := by
  unfold insertBody Leaks Answers.Prepares insertRc
  by_cases hopen : a.openV2 = sqliteOk
  · by_cases hprepare : a.prepareV2 = sqliteOk
    · by_cases hbind : a.bindBlob = sqliteOk
      · by_cases hstep : a.step = sqliteDone
        · simp [hopen, hprepare, hbind, hstep, bind_apply, sqlite3PrepareV2_last, sqlite3Finalize_last]
        · simp [hopen, hprepare, hbind, hstep, bind_apply, sqlite3PrepareV2_last, pure_apply]
      · simp [hopen, hprepare, hbind, bind_apply, sqlite3PrepareV2_last, pure_apply]
    · simp [hopen, hprepare, bind_apply, sqlite3PrepareV2_last, pure_apply]
  · simp [hopen, pure_apply]

theorem queryBody_last (a : Answers) (s : Connections) :
    queryBody a a.openV2 (some s.length) (s ++ [some 0])
      = .ok (queryResult a) (s ++ [some (if Leaks (.queryRif a) then 1 else 0)]) := by
  unfold queryBody Leaks Answers.Prepares queryResult
  by_cases hopen : a.openV2 = sqliteOk
  · by_cases hprepare : a.prepareV2 = sqliteOk
    · by_cases hsize : a.rifSize = Rif.rifSize
      · simp [-bind_pure_comp, Answers.Prepares, hopen, hprepare, hsize, bind_apply, sqlite3PrepareV2_last,
          sqlite3Finalize_last, pure_apply]
      · simp [hopen, hprepare, hsize, bind_apply, sqlite3PrepareV2_last, pure_apply]
    · simp [Answers.Prepares, hopen, hprepare, bind_apply, sqlite3PrepareV2_last, pure_apply]
  · simp [Answers.Prepares, hopen, pure_apply]

theorem withDb_run {α : Type} {body : ℤ → Option ℕ → RifM α} {res : α} {n : ℕ}
    (hbody : body a.openV2 (some s.length) (s ++ [some 0]) = .ok res (s ++ [some n]))
    (hrefused : a.openV2 ≠ sqliteOk → body a.openV2 none s = .ok res s) :
    withDb a body s = .ok res (s ++ if a.GivesHandle then [if n = 0 then none else some n] else []) := by
  unfold withDb
  by_cases hgives : a.GivesHandle
  · rw [bind_of_ok (by rw [sqlite3OpenV2_run, if_pos hgives]), if_pos hgives]
    dsimp only
    rw [bind_of_ok hbody, bind_of_ok (sqlite3Close_last (some n))]
    simp only [Option.some.injEq]
    rfl
  · rw [bind_of_ok (by rw [sqlite3OpenV2_run, if_neg hgives]), if_neg hgives, List.append_nil]
    dsimp only
    rw [bind_of_ok (hrefused fun hopen => hgives (.inl hopen))]
    rfl

/-- What the number of unfinalised statements leaves of the connection of a call. -/
theorem left_eq (c : Call) : left c = if c.answers.GivesHandle then
    [if (if Leaks c then 1 else 0) = 0 then none else some (if Leaks c then 1 else 0)] else [] := by
  rw [left]
  by_cases hleaks : Leaks c <;> simp [hleaks]

theorem createDb_run (a : Answers) (s : Connections) : createDb a s
    = .ok (if a.openV2 ≠ sqliteOk then a.openV2 else a.exec) (s ++ left (.createDb a)) := by
  rw [left_eq]
  refine withDb_run ?_ fun hopen => by rw [if_pos hopen, if_pos hopen]; rfl
  by_cases hopen : a.openV2 = sqliteOk
  · rw [if_neg (not_not.mpr hopen), if_neg (not_not.mpr hopen)]
    rfl
  · rw [if_pos hopen, if_pos hopen]
    rfl

theorem insertRif_run (a : Answers) (s : Connections) :
    insertRif a s = .ok (insertRc a) (s ++ left (.insertRif a)) := by
  rw [left_eq]
  refine withDb_run (insertBody_last a s) fun hopen => ?_
  rw [insertBody, if_pos hopen, insertRc, if_pos hopen]
  rfl

theorem queryRif_run (a : Answers) (s : Connections) :
    queryRif a s = .ok (queryResult a) (s ++ left (.queryRif a)) := by
  rw [left_eq]
  refine withDb_run (queryBody_last a s) fun hopen => ?_
  rw [queryBody, if_pos hopen, queryResult, if_neg fun h => hopen h.1.1]
  rfl

/-- One call: its connection is left open when it leaks. -/
theorem call_left (c : Call) (s : Connections) : call c s = .ok ⟨⟩ (s ++ left c) := by
  cases c with
  | createDb a =>
    rw [call, bind_of_ok (createDb_run a s)]
    rfl
  | insertRif a =>
    rw [call, bind_of_ok (insertRif_run a s)]
    rfl
  | queryRif a =>
    rw [call, bind_of_ok (queryRif_run a s)]
    rfl

/-- A sequence of calls. -/
theorem runAll_left (calls : List Call) (s : Connections) :
    runAll call calls s = .ok ⟨⟩ (s ++ calls.flatMap left) := by
  induction calls generalizing s with
  | nil => rw [runAll_nil, List.flatMap_nil, List.append_nil]
  | cons c calls ih =>
    rw [runAll_cons, call_left]
    dsimp only
    rw [ih, List.flatMap_cons, List.append_assoc]

end Runs

/-! ## What is left open -/

def NothingOpen (s : Connections) : Prop := ∀ connection ∈ s, connection = none

theorem givesHandle_of_leaks {c : Call} (h : Leaks c) : c.answers.GivesHandle := by
  cases c with
  | createDb a => exact h.elim
  | insertRif a => exact .inl h.1.1
  | queryRif a => exact .inl h.1.1

theorem nothingOpen_left_iff (c : Call) : NothingOpen (left c) ↔ ¬ Leaks c := by
  unfold left NothingOpen
  by_cases hleaks : Leaks c
  · simp [hleaks, givesHandle_of_leaks hleaks]
  · simp [hleaks]

theorem nothingOpen_flatMap_iff (calls : List Call) :
    NothingOpen (calls.flatMap left) ↔ ∀ c ∈ calls, ¬ Leaks c := by
  induction calls with
  | nil => simp [NothingOpen]
  | cons c calls ih =>
    have hsplit : NothingOpen (left c ++ calls.flatMap left)
        ↔ NothingOpen (left c) ∧ NothingOpen (calls.flatMap left) := List.forall_mem_append
    rw [List.flatMap_cons, hsplit, nothingOpen_left_iff, ih, List.forall_mem_cons]

/-- What the leaking calls leave open stays open: one connection each. -/
theorem open_eq_leaks (calls : List Call) :
    (calls.flatMap left).countP Option.isSome = calls.countP fun c => Leaks c := by
  induction calls with
  | nil => rfl
  | cons c calls ih =>
    have hleft : (left c).countP Option.isSome = if Leaks c then 1 else 0 := by
      unfold left
      by_cases hleaks : Leaks c
      · simp [hleaks, givesHandle_of_leaks hleaks]
      · simp [hleaks]
    rw [List.flatMap_cons, List.countP_append, hleft, ih, List.countP_cons]
    simp only [decide_eq_true_eq]
    omega

/-! ## The answers of a database -/

section Sqlite
variable {Db Stmt : Type} (sql : Sqlite Db Stmt) (db : Db)

/-- What the database answers in `insert_rif`. -/
def insertAnswers (rif behind : List Byte) : Answers :=
  let prepared := sql.prepareV2 db (insertQuery rif behind)
  let bound := insertStmt sql db rif behind
  let stepped := sql.step db bound.2
  { openV2 := sql.openV2 db
    handle := true
    exec := sqliteOk
    prepareV2 := prepared.1
    bindBlob := bound.1
    step := stepped.1
    columnBytes := 0
    columnBlob := none
    finalize := sql.finalize stepped.2.2
    malloc := none }

/-- What the database answers in `query_rif`, given the memory for the RIF. -/
def queryAnswers (malloc : Option (List Byte)) (contentId : CStr) : Answers :=
  let prepared := sql.prepareV2 db (selectQuery contentId)
  let stepped := sql.step db prepared.2
  { openV2 := sql.openV2 db
    handle := true
    exec := sqliteOk
    prepareV2 := prepared.1
    bindBlob := sqliteOk
    step := stepped.1
    columnBytes := (sql.columnBlob stepped.2.2).length
    columnBlob := some (sql.columnBlob stepped.2.2)
    finalize := sql.finalize stepped.2.2
    malloc := malloc }

/-- With these answers the functions return what they return of the database. -/
theorem insertRc_eq (rif behind : List Byte) :
    insertRc (insertAnswers sql db rif behind) = (Rif.insertRif sql db rif behind).1 := by
  unfold insertRc insertAnswers Rif.insertRif insertStmt
  dsimp only
  split_ifs <;> rfl

theorem queryResult_eq (malloc : Option (List Byte)) (contentId : CStr) :
    queryResult (queryAnswers sql db malloc contentId) = Rif.queryRif sql malloc.isSome db contentId := by
  unfold queryResult queryAnswers Rif.queryRif Answers.Prepares Answers.rifSize
  dsimp only
  by_cases hopen : sql.openV2 db = sqliteOk
  · by_cases hprepare : (sql.prepareV2 db (selectQuery contentId)).1 = sqliteOk
    · by_cases hstep : (sql.step db (sql.prepareV2 db (selectQuery contentId)).2).1 = sqliteRow
      · rw [if_neg (not_not.mpr hopen), if_neg (not_not.mpr hprepare), if_pos hstep, if_pos hstep]
        cases malloc <;> simp [hopen, hprepare]
      · rw [if_neg (not_not.mpr hopen), if_neg (not_not.mpr hprepare), if_neg hstep, if_neg hstep]
        simp [Rif.rifSize]
    · rw [if_neg (not_not.mpr hopen), if_pos hprepare, if_neg fun h => hprepare h.1.2]
  · rw [if_pos hopen, if_neg fun h => hopen h.1.1]

/-- A licence that is not inserted leaves its connection open. -/
theorem leaks_insert_iff (rif behind : List Byte) : Leaks (.insertRif (insertAnswers sql db rif behind)) ↔
    sql.openV2 db = sqliteOk ∧ (sql.prepareV2 db (insertQuery rif behind)).1 = sqliteOk ∧
      insertDone sql db rif behind = false := by
  rw [Bool.eq_false_iff, ne_eq, insertDone_iff]
  unfold Leaks Answers.Prepares insertAnswers InsertReady
  tauto

/-- A query that finds no licence leaves its connection open. -/
theorem leaks_query_iff (rif : List Byte) (contentId : CStr) :
    Leaks (.queryRif (queryAnswers sql db (some rif) contentId)) ↔
      sql.openV2 db = sqliteOk ∧ (sql.prepareV2 db (selectQuery contentId)).1 = sqliteOk ∧
        Rif.queryRif sql true db contentId = none := by
  have hresult := queryResult_eq sql db (some rif) contentId
  have hmalloc : (queryAnswers sql db (some rif) contentId).malloc = some rif := rfl
  have hprepares : (queryAnswers sql db (some rif) contentId).Prepares ↔
      sql.openV2 db = sqliteOk ∧ (sql.prepareV2 db (selectQuery contentId)).1 = sqliteOk := Iff.rfl
  rw [Option.isSome_some] at hresult
  rw [← hresult, ← and_assoc, ← hprepares, Leaks, queryResult, hmalloc]
  refine and_congr_right fun hprepared => ?_
  simp only [hprepared, true_and]
  split
  · next hsize => simp [hsize]
  · next hsize => simp [hsize]

end Sqlite

/-- **Handles.** Behind every call of a sequence no statement and no connection is open exactly when no
insert goes unexecuted with its statement prepared, and no query finds no licence. -/
theorem calls_nothingOpen_iff (calls : List Call) :
    (∀ p, p <+: calls → ∃ s, runAll call p [] = .ok ⟨⟩ s ∧ NothingOpen s) ↔ ∀ c ∈ calls, ¬ Leaks c := by
  constructor
  · intro h
    obtain ⟨s, hrun, hs⟩ := h calls (List.prefix_refl calls)
    rw [runAll_left] at hrun
    obtain rfl := (EStateM.Result.ok.inj hrun).2
    exact (nothingOpen_flatMap_iff calls).mp hs
  · intro h p hp
    refine ⟨p.flatMap left, runAll_left p [], (nothingOpen_flatMap_iff p).mpr fun c hc => ?_⟩
    exact h c (hp.subset hc)

/-- SQLite does what is asked, but for the step. -/
def stepAnswers (step : ℤ) : Answers where
  openV2 := sqliteOk
  handle := true
  exec := sqliteOk
  prepareV2 := sqliteOk
  bindBlob := sqliteOk
  step := step
  columnBytes := 0
  columnBlob := none
  finalize := sqliteOk
  malloc := none

/-- `SQLITE_CONSTRAINT` for a licence that is there already, and `SQLITE_DONE` for one that is not found. -/
theorem calls_leave_open :
    runAll call [.insertRif (stepAnswers 19), .queryRif (stepAnswers 101)] [] = .ok ⟨⟩ [some 1, some 1] ∧
      ¬ NothingOpen [some 1, some 1] := by
  refine ⟨?_, by simp [NothingOpen]⟩
  rw [runAll_left]
  rfl

end VitaConnect.Rif.Handles
