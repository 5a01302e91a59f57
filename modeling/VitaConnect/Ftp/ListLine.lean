import VitaConnect.CString.Decimal
import VitaConnect.CString.Fields
import VitaConnect.Ftp.Bounds
import VitaConnect.Ftp.Resolve

/-! # The lines of a listing and the sizes in them (`gen_list_format`, `cmd_SIZE_func`)

A line is eight fields and the name. LIST prints the low 32 bits of a size and SIZE all 64.
-/
namespace VitaConnect.Ftp
open CString Program
set_option autoImplicit false

/-- Each part of the time is an `unsigned short`. -/
structure SceDateTime.Fits (t : SceDateTime) : Prop where
  year : t.year < 65536
  month : t.month < 65536
  day : t.day < 65536
  hour : t.hour < 65536
  minute : t.minute < 65536

/-! ## Reading a line -/

def listedDir (line : CStr) : Bool := ((fields 8 line).1.getD 0 []).head? = some 100

def listedSize (line : CStr) : CStr := (fields 8 line).1.getD 4 []

/-- What is behind the blank after the eighth field, without the end of the line. -/
def listedName (line : CStr) : CStr :=
  let rest := (fields 8 line).2.tail
  rest.take (rest.length - eol.length)

/-- The number that a text of `%u` or `%lld` stands for. -/
def decimal (ds : CStr) : ℤ := if ds.head? = some 45 then -decValue ds.tail else decValue ds

/-- SIZE answers the text `digits` for every file with these attributes. -/
def SizeReplied (stat : SceIoStat) (digits : CStr) : Prop :=
  ∀ (env : Env) (s u : Session), s.client.recvCmdArgs.length ≤ 511 →
    env.sceIoGetstat (fileLocation env s.client.curPath s.client.recvCmdArgs) = some stat →
    cmdSizeFunc env s = .ok ⟨⟩ u →
    ctrlMsgs u.trace = ctrlMsgs s.trace ++ [bytes "213 " ++ digits ++ eol]

/-- The line gives back what it was made of. -/
structure LineRecovers (line : CStr) (dir : Bool) (stat : SceIoStat) (name : CStr) : Prop where
  ends : eol <:+ line
  dir : listedDir line = dir
  size : decimal (listedSize line) = stat.stSize.toInt
  name : listedName line = name
  replied : SizeReplied stat (listedSize line)

/-! ## The fields of a line -/

def permissions (dir : Bool) : CStr := if dir then bytes "drwxr-xr-x" else bytes "-rw-r--r--"

/-- The fields before the time, each with the blanks behind it. -/
def listFields (dir : Bool) (stat : SceIoStat) : List (CStr × ℕ) :=
  [(permissions dir, 1), (bytes "1", 1), (bytes "vita", 1), (bytes "vita", 1),
    (natDec (stat.stSize.setWidth 32).toNat, 1), (monthName stat.stMtime.month, 1),
    (natDec stat.stMtime.day, 2 - (natDec stat.stMtime.day).length + 1)]

theorem isField_natDec (n : ℕ) : IsField (natDec n) :=
  ⟨natDec_ne_nil n, fun h => absurd (mem_natDec h).1 (by decide)⟩

theorem isField_monthName (month : ℕ) : IsField (monthName month) := by
  have hall : ∀ i < 12, IsField (bytes (numToMonth.getD i "")) := by decide
  unfold monthName
  split
  · exact hall 0 (by decide)
  · exact hall _ (Nat.mod_lt _ (by decide))

theorem isField_padZero (w n : ℕ) : IsField (padZero w n) := by
  refine ⟨by simp [padZero, natDec_ne_nil], fun h => ?_⟩
  rcases List.mem_append.mp h with h | h
  · exact absurd (List.eq_of_mem_replicate h) (by decide)
  · exact (isField_natDec n).space_notMem h

theorem isField_snprintf {n : ℕ} {w : CStr} (hn : 1 < n) (h : IsField w) : IsField (snprintf n w) := by
  obtain ⟨b, t, rfl⟩ := List.exists_cons_of_ne_nil h.ne_nil
  refine ⟨?_, fun hmem => h.space_notMem (List.mem_of_mem_take hmem)⟩
  obtain ⟨k, rfl⟩ : ∃ k, n = k + 2 := ⟨n - 2, by omega⟩
  simp [snprintf]

theorem isField_listTime (currentYear : ℕ) (t : SceDateTime) : IsField (listTime currentYear t) := by
  unfold listTime
  split
  · refine isField_snprintf (by decide) ⟨by simp, ?_⟩
    have hhour := (isField_padZero 2 t.hour).space_notMem
    have hminute := (isField_padZero 2 t.minute).space_notMem
    have hcolon : space ≠ 58 := by decide
    simp [hhour, hminute, hcolon]
  · exact isField_snprintf (by decide) (isField_padZero 4 t.year)

theorem listFields_isField (dir : Bool) (stat : SceIoStat) :
    ∀ p ∈ listFields dir stat, IsField p.1 ∧ 0 < p.2 := by
  have hperm : IsField (permissions dir) := by cases dir <;> decide
  have hone : IsField (bytes "1") := by decide
  have hvita : IsField (bytes "vita") := by decide
  simp [listFields, hperm, hone, hvita, isField_natDec, isField_monthName]

theorem padded_listFields_length {stat : SceIoStat} (ht : stat.stMtime.Fits) (dir : Bool) :
    (padded (listFields dir stat)).length ≤ 44 := by
  have hperm : (permissions dir).length = 10 := by cases dir <;> decide
  have hone : (bytes "1").length = 1 := by decide
  have hvita : (bytes "vita").length = 4 := by decide
  have hsize : (natDec (stat.stSize.setWidth 32).toNat).length ≤ 10 :=
    natDec_length_le (by decide) ((stat.stSize.setWidth 32).isLt.trans (by decide))
  have hmonth : (monthName stat.stMtime.month).length = 3 := by
    have hall : ∀ i < 12, (bytes (numToMonth.getD i "")).length = 3 := by decide
    unfold monthName
    split
    · exact hall 0 (by decide)
    · exact hall _ (Nat.mod_lt _ (by decide))
  have hday : (natDec stat.stMtime.day).length ≤ 5 :=
    natDec_length_le (by decide) (ht.day.trans (by decide))
  simp only [listFields, padded, List.flatMap_cons, List.flatMap_nil, List.length_append,
    List.length_replicate, List.length_nil]
  omega

/-- The text of the line before it is cut. -/
theorem genListFormat_eq (currentYear n : ℕ) (dir : Bool) (stat : SceIoStat) (name : CStr) :
    genListFormat currentYear n dir stat name = snprintf n (padded (listFields dir stat) ++
      (listTime currentYear stat.stMtime ++ (space :: (name ++ eol)))) := by
  have hvita : bytes " 1 vita vita " =
      space :: (bytes "1" ++ space :: (bytes "vita" ++ space :: (bytes "vita" ++ [space]))) := by decide
  have hday : padRight 2 stat.stMtime.day ++ [space] = natDec stat.stMtime.day ++
      List.replicate (2 - (natDec stat.stMtime.day).length + 1) space := by
    rw [padRight, List.append_assoc, List.replicate_succ']
    rfl
  have hfields : padded (listFields dir stat) = permissions dir ++ bytes " 1 vita vita " ++
      natDec (stat.stSize.setWidth 32).toNat ++ [space] ++ monthName stat.stMtime.month ++ [space] ++
      (padRight 2 stat.stMtime.day ++ [space]) := by
    rw [hday, hvita]
    simp [padded, listFields]
  rw [genListFormat, hfields]
  simp [permissions]

theorem genListFormat_whole {stat : SceIoStat} {name : CStr} (ht : stat.stMtime.Fits)
    (hname : name.length ≤ 255) (currentYear : ℕ) (dir : Bool) :
    genListFormat currentYear 512 dir stat name = padded (listFields dir stat) ++
      (listTime currentYear stat.stMtime ++ (space :: (name ++ eol))) := by
  have hfields := padded_listFields_length ht dir
  have htime : (listTime currentYear stat.stMtime).length ≤ 5 := by
    unfold listTime
    split <;> exact snprintf_length_le 6 _
  have heol : eol.length = 2 := rfl
  rw [genListFormat_eq, snprintf_of_fits]
  simp only [List.length_append, List.length_cons]
  omega

theorem fields_genListFormat {stat : SceIoStat} {name : CStr} (ht : stat.stMtime.Fits)
    (hname : name.length ≤ 255) (currentYear : ℕ) (dir : Bool) :
    fields 8 (genListFormat currentYear 512 dir stat name) =
      ((listFields dir stat).map Prod.fst ++ [listTime currentYear stat.stMtime],
        space :: (name ++ eol)) := by
  rw [genListFormat_whole ht hname]
  exact fields_padded (isField_listTime currentYear stat.stMtime) rfl (listFields dir stat)
    (listFields_isField dir stat)

section Line
variable {stat : SceIoStat} {name : CStr} (ht : stat.stMtime.Fits) (hname : name.length ≤ 255)
  (currentYear : ℕ) (dir : Bool)
include ht hname

theorem genListFormat_ends : eol <:+ genListFormat currentYear 512 dir stat name := by
  rw [genListFormat_whole ht hname, ← List.cons_append, ← List.append_assoc, ← List.append_assoc]
  exact List.suffix_append _ eol

theorem listedDir_genListFormat : listedDir (genListFormat currentYear 512 dir stat name) = dir := by
  rw [listedDir, fields_genListFormat ht hname]
  cases dir <;> rfl

theorem listedSize_genListFormat : listedSize (genListFormat currentYear 512 dir stat name) =
    natDec (stat.stSize.setWidth 32).toNat := by
  rw [listedSize, fields_genListFormat ht hname]
  rfl

theorem listedName_genListFormat :
    listedName (genListFormat currentYear 512 dir stat name) = name := by
  rw [listedName, fields_genListFormat ht hname]
  simp

end Line

/-! ## Sizes -/

theorem decimal_natDec (n : ℕ) : decimal (natDec n) = n := by
  rw [decimal, if_neg, decValue_natDec]
  intro h
  have hdigit := mem_natDec (List.mem_of_mem_head? h)
  exact absurd hdigit.1 (by decide)

theorem sizeReplied_intDec (stat : SceIoStat) : SizeReplied stat (intDec stat.stSize.toInt) := by
  intro env s u hargs hstat hrun
  obtain ⟨path, m, hpath, hrun⟩ := bind_ok hrun
  rw [genFtpFullpath_apply env hargs] at hpath
  split at hpath
  · obtain ⟨rfl, rfl⟩ := EStateM.Result.ok.inj hpath
    rw [fileLocation] at hstat
    simp only [hstat, bind_apply, store_ok (sizeReply_fits stat.stSize), clientSendCtrlMsg_apply]
      at hrun
    obtain ⟨-, rfl⟩ := EStateM.Result.ok.inj hrun
    simp [sizeReply]
  · cases hpath

theorem toInt_eq_setWidth_iff (size : BitVec 64) :
    ((size.setWidth 32).toNat : ℤ) = size.toInt ↔ size.toNat < 2 ^ 32 := by
  have hlt := size.isLt
  rw [BitVec.toNat_setWidth, BitVec.toInt_eq_toNat_cond]
  split <;> omega

/-- **When a line of LIST gives back the entry.** It always has the directory flag and the name, and
the size of a file below 4 GiB. -/
theorem genListFormat_recovers_iff (currentYear : ℕ) (dir : Bool) {stat : SceIoStat} {name : CStr}
    (ht : stat.stMtime.Fits) (hname : name.length ≤ 255) :
    LineRecovers (genListFormat currentYear 512 dir stat name) dir stat name ↔
      stat.stSize.toNat < 2 ^ 32 := by
  have hsize := listedSize_genListFormat ht hname currentYear dir
  constructor
  · intro h
    have hdecimal := h.size
    rw [hsize, decimal_natDec] at hdecimal
    exact (toInt_eq_setWidth_iff stat.stSize).mp hdecimal
  · intro hsmall
    have hint := (toInt_eq_setWidth_iff stat.stSize).mpr hsmall
    have hdigits : natDec (stat.stSize.setWidth 32).toNat = intDec stat.stSize.toInt := by
      rw [← hint, intDec_natCast]
    refine ⟨genListFormat_ends ht hname currentYear dir, listedDir_genListFormat ht hname currentYear dir,
      ?_, listedName_genListFormat ht hname currentYear dir, ?_⟩
    · rw [hsize, decimal_natDec, hint]
    · rw [hsize, hdigits]
      exact sizeReplied_intDec stat

def newYear : SceDateTime := ⟨2024, 1, 1, 0, 0⟩

theorem newYear_fits : newYear.Fits := by constructor <;> decide

def sized (size : BitVec 64) : SceIoStat := ⟨size, newYear⟩

theorem sized_fits (size : BitVec 64) : (sized size).stMtime.Fits := newYear_fits

theorem genListFormat_recovers_small :
    (sized 4294967295).stMtime.Fits ∧ (bytes " a b").length ≤ 255 ∧
      LineRecovers (genListFormat 2024 512 false (sized 4294967295) (bytes " a b")) false
        (sized 4294967295) (bytes " a b") := by
  have hname : (bytes " a b").length ≤ 255 := by decide
  exact ⟨sized_fits _, hname,
    (genListFormat_recovers_iff 2024 false (sized_fits 4294967295) hname).mpr (by decide)⟩

/-- A file of 4 GiB is listed with the size 0, and SIZE replies 4294967296. -/
theorem genListFormat_large :
    listedSize (genListFormat 2024 512 false (sized 4294967296) (bytes "a")) = bytes "0" ∧
      sizeReply 4294967296 = bytes "213 4294967296" ++ eol ∧
      ¬ ∀ (currentYear : ℕ) (dir : Bool) (stat : SceIoStat) (name : CStr), stat.stMtime.Fits →
        1 ≤ name.length → name.length ≤ 255 → 13 ∉ name → 10 ∉ name →
        LineRecovers (genListFormat currentYear 512 dir stat name) dir stat name := by
  have hname : (bytes "a").length ≤ 255 := by decide
  have hlisted := listedSize_genListFormat (sized_fits 4294967296) hname 2024 false
  refine ⟨hlisted.trans (by decide), by decide +kernel, fun hall => ?_⟩
  have hline := hall 2024 false (sized 4294967296) (bytes "a") (sized_fits _) (by decide) hname
    (by decide) (by decide)
  have hsize := hline.size
  rw [hlisted, decimal_natDec] at hsize
  exact absurd hsize (by decide)

end VitaConnect.Ftp
