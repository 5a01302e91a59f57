import VitaConnect.Rif.Database

/-! # The statements of the license database

A statement denotes the content id when it is not cut and has one complete literal in its place. A RIF
whose content id has no quote and a NUL in its field or right behind it comes back as it was inserted.
-/
namespace VitaConnect.Rif
open CString
set_option autoImplicit false

/-- The text fits into the query buffer, and has one complete literal, which denotes `contentId`. -/
def Denotes (text before after contentId : CStr) : Prop :=
  text.length < maxQueryLength ∧ ∃ lit, snprintf maxQueryLength text = before ++ lit ++ after ∧
    readLiteral lit = some contentId

def InsertDenotes (rif behind : List Byte) : Prop :=
  Denotes (insertText rif behind) (bytes "INSERT INTO Licenses VALUES(") (bytes ", ?)") (contentIdOf rif)

def SelectDenotes (contentId : CStr) : Prop :=
  Denotes (selectText contentId) (bytes "SELECT RIF FROM Licenses WHERE CONTENT_ID = ") [] contentId

theorem denotes_iff {text before after t contentId : CStr}
    (htext : text = before ++ (quote :: (t ++ [quote])) ++ after) :
    Denotes text before after contentId ↔ text.length < maxQueryLength ∧ t = doubled contentId := by
  unfold Denotes
  refine and_congr_right fun hfits => ?_
  rw [snprintf_of_fits hfits, htext]
  constructor
  · rintro ⟨lit, heq, hlit⟩
    rw [List.append_cancel_right_eq, List.append_cancel_left_eq] at heq
    rw [← heq, readLiteral_eq_some_iff, literal, List.cons_inj_right, List.append_cancel_right_eq] at hlit
    exact hlit
  · rintro rfl
    exact ⟨_, rfl, readLiteral_eq_some_iff.mpr rfl⟩

theorem insertText_eq (rif behind : List Byte) :
    insertText rif behind = bytes "INSERT INTO Licenses VALUES(" ++
      (quote :: (rifText rif behind ++ [quote])) ++ bytes ", ?)" := by
  have hbefore : bytes "INSERT INTO Licenses VALUES('"
      = bytes "INSERT INTO Licenses VALUES(" ++ [quote] := by decide
  have hafter : bytes "', ?)" = [quote] ++ bytes ", ?)" := by decide
  rw [insertText, hbefore, hafter]
  simp only [List.append_assoc, List.cons_append, List.nil_append]

theorem selectText_eq (contentId : CStr) :
    selectText contentId = bytes "SELECT RIF FROM Licenses WHERE CONTENT_ID = " ++
      (quote :: (contentId ++ [quote])) ++ [] := by
  have hbefore : bytes "SELECT RIF FROM Licenses WHERE CONTENT_ID = '"
      = bytes "SELECT RIF FROM Licenses WHERE CONTENT_ID = " ++ [quote] := by decide
  have hafter : bytes "'" = [quote] := by decide
  rw [selectText, hbefore, hafter]
  simp only [List.append_assoc, List.cons_append, List.nil_append]

theorem insertText_length (rif behind : List Byte) :
    (insertText rif behind).length = (rifText rif behind).length + 34 := by
  have hbefore : (bytes "INSERT INTO Licenses VALUES('").length = 29 := by decide
  have hafter : (bytes "', ?)").length = 5 := by decide
  rw [insertText, List.length_append, List.length_append, hbefore, hafter]
  omega

theorem selectText_length (contentId : CStr) : (selectText contentId).length = contentId.length + 46 := by
  have hbefore : (bytes "SELECT RIF FROM Licenses WHERE CONTENT_ID = '").length = 45 := by decide
  have hafter : (bytes "'").length = 1 := by decide
  rw [selectText, List.length_append, List.length_append, hbefore, hafter]
  omega

/-- The text from the content id on is the content id with its quotes doubled, and not too long. -/
def InsertSafe (rif : List Byte) : Prop :=
  rifText rif [] = doubled (contentIdOf rif) ∧ (rifText rif []).length ≤ 93

/-- In a RIF that has a NUL soon enough the memory behind it does not matter. -/
theorem rifText_behind {rif : List Byte} (behind : List Byte) (hrif : rif.length = rifSize)
    (h : (rifText rif behind).length ≤ 93 ∨ (rifText rif []).length ≤ 93) :
    rifText rif behind = rifText rif [] := by
  have hlength : (rif.drop 0x10).length = 496 := by rw [List.length_drop, hrif, rifSize]
  have hnil : rifText rif [] = (rif.drop 0x10).takeWhile (· != 0) := by rw [rifText, List.append_nil]
  have hbehind : rifText rif behind = (rif.drop 0x10 ++ behind).takeWhile (· != 0) := by
    rw [rifText, List.drop_append_of_le_length (by rw [hrif]; decide)]
  rw [hnil, hbehind, List.takeWhile_append] at h ⊢
  split
  · next hall =>
    rw [if_pos hall, List.length_append] at h
    omega
  · rfl

theorem insertDenotes_iff {rif : List Byte} (hrif : rif.length = rifSize) (behind : List Byte) :
    InsertDenotes rif behind ↔ InsertSafe rif := by
  rw [InsertDenotes, denotes_iff (insertText_eq rif behind), insertText_length, InsertSafe, maxQueryLength]
  constructor
  · rintro ⟨hfits, heq⟩
    have hsame := rifText_behind behind hrif (Or.inl (by omega))
    rw [hsame] at hfits heq
    exact ⟨heq, by omega⟩
  · rintro ⟨heq, hfits⟩
    rw [rifText_behind behind hrif (Or.inr hfits)]
    exact ⟨by omega, heq⟩

theorem selectDenotes_iff (contentId : CStr) :
    SelectDenotes contentId ↔ quote ∉ contentId ∧ contentId.length ≤ 81 := by
  rw [SelectDenotes, denotes_iff (selectText_eq contentId), selectText_length, maxQueryLength, eq_comm,
    doubled_eq_self_iff]
  constructor
  · rintro ⟨hfits, hquote⟩
    exact ⟨hquote, by omega⟩
  · rintro ⟨hquote, hfits⟩
    exact ⟨by omega, hquote⟩

/-! ## Content ids that are stored and found -/

/-- What is inserted is found again. -/
def RoundTrips {Db Stmt : Type} (sql : Sqlite Db Stmt) (rif behind : List Byte) : Prop :=
  ∀ db db' malloc, insertRif sql db rif behind = (sqliteOk, db') →
    queryRif sql malloc db' (contentIdOf rif) = if malloc then some rif else none

theorem contentIdOf_eq_take (rif : List Byte) : contentIdOf rif = (rifText rif []).take 0x30 := by
  rw [contentIdOf, rifText, List.append_nil, List.take_takeWhile]

theorem nul_mem_take_iff {xs : List Byte} {n : ℕ} (hn : n ≤ xs.length) :
    0 ∈ xs.take n ↔ (xs.takeWhile (· != 0)).length < n := by
  have htake : (xs.takeWhile (· != 0)).take n = (xs.take n).takeWhile (· != 0) := List.take_takeWhile
  have hlength := congrArg List.length htake
  rw [List.length_take] at hlength
  constructor
  · intro hmem
    have hlt := ofBuffer_length_lt (if_pos hmem : ofBuffer (xs.take n) = _)
    rw [List.length_take] at hlt
    omega
  · intro hlt
    by_contra hmem
    have hall : (xs.take n).takeWhile (· != 0) = xs.take n :=
      List.takeWhile_eq_self_iff.mpr fun b hb => bne_iff_ne.mpr fun hzero => hmem (hzero ▸ hb)
    rw [hall, List.length_take] at hlength
    omega

/-- A NUL among the 49 bytes from the content id on ends the text where the content id ends. -/
theorem rifText_eq_contentIdOf_iff {rif : List Byte} (hrif : rif.length = rifSize) :
    rifText rif [] = contentIdOf rif ↔ 0 ∈ (rif.drop 0x10).take 49 := by
  have hle : 49 ≤ (rif.drop 0x10).length := by
    rw [List.length_drop, hrif]
    decide
  rw [nul_mem_take_iff hle, contentIdOf_eq_take, eq_comm, List.take_eq_self_iff, rifText, List.append_nil]
  omega

theorem statements_denote_iff {rif : List Byte} (hrif : rif.length = rifSize) (behind : List Byte) :
    InsertDenotes rif behind ∧ SelectDenotes (contentIdOf rif) ↔
      0 ∈ (rif.drop 0x10).take 49 ∧ quote ∉ contentIdOf rif := by
  have hle : (contentIdOf rif).length ≤ 0x30 := by
    rw [contentIdOf_eq_take]
    exact List.length_take_le _ _
  rw [insertDenotes_iff hrif, selectDenotes_iff, InsertSafe]
  constructor
  · rintro ⟨⟨heq, -⟩, hquote, -⟩
    rw [doubled_of_notMem hquote] at heq
    exact ⟨(rifText_eq_contentIdOf_iff hrif).mp heq, hquote⟩
  · rintro ⟨hnul, hquote⟩
    have heq := (rifText_eq_contentIdOf_iff hrif).mpr hnul
    rw [heq, doubled_of_notMem hquote]
    exact ⟨⟨rfl, by omega⟩, hquote, by omega⟩

section RoundTrip
variable {Db Stmt : Type} {sql : Sqlite Db Stmt} {licenses : Db → List (CStr × List Byte)}

theorem insertRif_row (hsql : Executes sql licenses) {rif behind : List Byte} (hrif : rif.length = rifSize)
    (h : InsertDenotes rif behind) {db db' : Db} (hrun : insertRif sql db rif behind = (sqliteOk, db')) :
    (licenses db').lookup (contentIdOf rif) = some rif := by
  obtain ⟨-, lit, hquery, hlit⟩ := h
  have hquery' : insertQuery rif behind = bytes "INSERT INTO Licenses VALUES(" ++ lit ++ bytes ", ?)" := hquery
  have hblob : rif.take rifSize = rif := List.take_of_length_le hrif.le
  have hinsert := hsql.insert db lit (contentIdOf rif) rif hlit
  unfold insertRif at hrun
  rw [hquery', hblob] at hrun
  dsimp only at hrun
  split at hrun
  · next hopen => exact absurd (Prod.mk.inj hrun).1 hopen
  split at hrun
  · next hprepare => exact absurd (Prod.mk.inj hrun).1 hprepare
  split at hrun
  · next hbind => exact absurd (Prod.mk.inj hrun).1 hbind
  split at hrun
  · exact absurd (Prod.mk.inj hrun).1 (hsql.step_ne_ok _ _)
  · next hdone =>
    obtain ⟨habsent, hrows⟩ := hinsert (not_not.mp hdone)
    rw [← (Prod.mk.inj hrun).2, hrows, List.lookup_append, habsent, Option.none_or,
      List.lookup_cons_self]

theorem queryRif_row (hsql : Executes sql licenses) {rif contentId : List Byte}
    (hrif : rif.length = rifSize) (h : SelectDenotes contentId) {db : Db}
    (hrow : (licenses db).lookup contentId = some rif) (malloc : Bool) :
    queryRif sql malloc db contentId = if malloc then some rif else none := by
  obtain ⟨-, lit, hquery, hlit⟩ := h
  have hquery' : selectQuery contentId
      = bytes "SELECT RIF FROM Licenses WHERE CONTENT_ID = " ++ lit := by
    rw [selectQuery, hquery, List.append_nil]
  obtain ⟨hopen, hprepare, hstep, hblob⟩ := hsql.select db lit contentId rif hlit hrow
  unfold queryRif
  rw [hquery']
  dsimp only
  rw [if_neg (not_not.mpr hopen), if_neg (not_not.mpr hprepare), if_pos hstep, hblob,
    if_neg (not_not.mpr hrif)]

theorem roundTrips_of_denotes (hsql : Executes sql licenses) {rif behind : List Byte}
    (hrif : rif.length = rifSize) (hinsert : InsertDenotes rif behind)
    (hselect : SelectDenotes (contentIdOf rif)) : RoundTrips sql rif behind :=
  fun _ _ malloc hrun => queryRif_row hsql hrif hselect (insertRif_row hsql hrif hinsert hrun) malloc

/-- **The statements of the license database.** When each of them denotes its content id, and of which
RIFs both do and what is inserted is found again. -/
theorem rif_statements_iff (hsql : Executes sql licenses) (rif behind : List Byte)
    (hrif : rif.length = rifSize) :
    (InsertDenotes rif behind ↔ InsertSafe rif) ∧
      (∀ contentId, SelectDenotes contentId ↔ quote ∉ contentId ∧ contentId.length ≤ 81) ∧
      (InsertDenotes rif behind ∧ SelectDenotes (contentIdOf rif) ∧ RoundTrips sql rif behind ↔
        0 ∈ (rif.drop 0x10).take 49 ∧ quote ∉ contentIdOf rif) := by
  refine ⟨insertDenotes_iff hrif behind, selectDenotes_iff, ?_⟩
  rw [← statements_denote_iff hrif behind]
  constructor
  · rintro ⟨hinsert, hselect, -⟩
    exact ⟨hinsert, hselect⟩
  · rintro ⟨hinsert, hselect⟩
    exact ⟨hinsert, hselect, roundTrips_of_denotes hsql hrif hinsert hselect⟩

end RoundTrip

/-! ## A database of one table -/

/-- The text between two others, when the query has it there. -/
def between (before after query : CStr) : Option (List Byte) :=
  let middle := (query.drop before.length).take (query.length - before.length - after.length)
  if query = before ++ middle ++ after then some middle else none

theorem between_append (before middle after : CStr) :
    between before after (before ++ middle ++ after) = some middle := by
  have hmiddle : ((before ++ middle ++ after).drop before.length).take
      ((before ++ middle ++ after).length - before.length - after.length) = middle := by
    rw [List.append_assoc, List.drop_left, List.length_append, List.length_append]
    exact List.take_left' (by omega)
  rw [between, hmiddle]
  exact if_pos rfl

theorem between_head? {before after query middle : CStr} (h : between before after query = some middle)
    (hbefore : before ≠ []) : query.head? = before.head? := by
  unfold between at h
  dsimp only at h
  split at h
  · next heq =>
    rw [heq, List.append_assoc, List.head?_append_of_ne_nil _ hbefore]
  · cases h

structure TableStmt where
  query : CStr
  blob : List Byte
  column : List Byte

def insertedId (query : CStr) : Option CStr :=
  (between (bytes "INSERT INTO Licenses VALUES(") (bytes ", ?)") query).bind readLiteral

def selectedId (query : CStr) : Option CStr :=
  (between (bytes "SELECT RIF FROM Licenses WHERE CONTENT_ID = ") [] query).bind readLiteral

/-- SQLite for the two statements, over the rows of the table. -/
def tableSqlite : Sqlite (List (CStr × List Byte)) TableStmt where
  openV2 _ := sqliteOk
  prepareV2 _ query :=
    (if (insertedId query).isSome ∨ (selectedId query).isSome then sqliteOk else 1, ⟨query, [], []⟩)
  bindBlob stmt blob := (sqliteOk, { stmt with blob := blob })
  step rows stmt :=
    match insertedId stmt.query with
    | some contentId =>
      if rows.lookup contentId = none then (sqliteDone, rows ++ [(contentId, stmt.blob)], stmt)
      else (19, rows, stmt)
    | none =>
      match (selectedId stmt.query).bind fun contentId => rows.lookup contentId with
      | some rif => (sqliteRow, rows, { stmt with column := rif })
      | none => (sqliteDone, rows, stmt)
  columnBlob stmt := stmt.column
  finalize _ := sqliteOk

theorem tableSqlite_executes : Executes tableSqlite id where
  step_ne_ok rows stmt := by
    unfold tableSqlite
    dsimp only
    split
    · split <;> simp [sqliteDone, sqliteOk]
    · split <;> simp [sqliteDone, sqliteRow, sqliteOk]
  insert rows lit contentId blob hlit := by
    have hinserted : insertedId (bytes "INSERT INTO Licenses VALUES(" ++ lit ++ bytes ", ?)")
        = some contentId := by
      rw [insertedId, between_append, Option.bind_some, hlit]
    intro stmt hdone
    simp only [tableSqlite, stmt, hinserted] at hdone ⊢
    split at hdone
    · next habsent => simp [habsent]
    · simp [sqliteDone] at hdone
  select rows lit contentId blob hlit hrow := by
    have hselected : selectedId (bytes "SELECT RIF FROM Licenses WHERE CONTENT_ID = " ++ lit)
        = some contentId := by
      have hbetween := between_append (bytes "SELECT RIF FROM Licenses WHERE CONTENT_ID = ") lit []
      rw [List.append_nil] at hbetween
      rw [selectedId, hbetween, Option.bind_some, hlit]
    have hinserted : insertedId (bytes "SELECT RIF FROM Licenses WHERE CONTENT_ID = " ++ lit) = none := by
      rw [insertedId, Option.bind_eq_none_iff]
      intro middle hmiddle
      exact absurd (between_head? hmiddle (by decide)) (by simp [bytes])
    intro stmt
    have hrow' : rows.lookup contentId = some blob := hrow
    simp [tableSqlite, stmt, hinserted, hselected, hrow']

def plainRif : List Byte := List.replicate 16 0 ++ List.replicate 36 65 ++ List.replicate 460 0

theorem rif_statements_iff_plain : InsertDenotes plainRif [] ∧ SelectDenotes (contentIdOf plainRif) ∧
    RoundTrips tableSqlite plainRif [] :=
  (rif_statements_iff tableSqlite_executes plainRif [] (by decide +kernel)).2.2.mpr (by decide +kernel)

/-- A RIF with a quote in its content id. -/
def quotedRif : List Byte :=
  List.replicate 16 0 ++ List.replicate 20 65 ++ [quote] ++ List.replicate 15 65 ++ List.replicate 460 0

theorem rif_statements_quoted : quotedRif.length = rifSize ∧ ¬ InsertDenotes quotedRif [] ∧
    ¬ SelectDenotes (contentIdOf quotedRif) := by
  have hrif : quotedRif.length = rifSize := by decide +kernel
  refine ⟨hrif, ?_, ?_⟩
  · rw [insertDenotes_iff hrif, InsertSafe]
    decide +kernel
  · rw [selectDenotes_iff]
    decide +kernel

end VitaConnect.Rif
