import VitaConnect.CString.Basic
import VitaConnect.Program.Chunked
import VitaConnect.Program.History
import VitaConnect.Rif.Statements
import VitaConnect.Storage.Overlay

/-! # The VFS that can write (`sqlite3.c`)

The VFS of the system only reads, so a copy of it is registered with an `xOpen` that opens the file again for
writing and with an `xWrite` of its own. What SQLite asks of `xWrite` is that a page can be read back once it has
answered `SQLITE_OK`. The copy of the methods is made once, for the first file, and is freed by `sqlite_exit`.
-/
namespace VitaConnect.Rif.Vfs
open CString Program Storage
set_option autoImplicit false

/-! ## `vita_xWrite` -/

def sqliteIoerrWrite : ℤ := 778

structure WriteAnswers where
  /-- The error of `sceIoLseek`, or nothing when the position is reached. -/
  sceIoLseek : Option {e : ℤ // -2147483648 ≤ e ∧ e < 0}
  sceIoWrite : ℤ

/-- `int seek = sceIoLseek(*p->fd, offset, SCE_SEEK_SET)` -/
def seek (a : WriteAnswers) (offset : ℕ) : ℤ :=
  match a.sceIoLseek with
  | none => (BitVec.ofInt 32 offset).toInt
  | some e => (BitVec.ofInt 32 e).toInt

/-- The code, and the file behind the call. The offsets of SQLite are not negative. -/
def vitaXWrite (a : WriteAnswers) (buf : List Byte) (offset : ℕ) (file : List Byte) : ℤ × List Byte :=
  if seek a offset ≠ offset then (sqliteIoerrWrite, file)
  else
    let file := overwritten 0 file offset (taken buf a.sceIoWrite)
    if a.sceIoWrite ≠ buf.length then (sqliteIoerrWrite, file) else (sqliteOk, file)

structure Write where
  offset : ℕ
  buf : List Byte
  answers : WriteAnswers

def Write.code (w : Write) : ℤ := (vitaXWrite w.answers w.buf w.offset []).1

def xWrites (file : List Byte) (writes : List Write) : List Byte :=
  writes.foldl (fun file w => (vitaXWrite w.answers w.buf w.offset file).2) file

/-! ## What a write does -/

/-- What the call writes, whatever it answers. -/
def Write.piece (w : Write) : Piece Byte :=
  ⟨w.offset, if seek w.answers w.offset = w.offset then taken w.buf w.answers.sceIoWrite else []⟩

theorem seek_eq_iff (a : WriteAnswers) (offset : ℕ) :
    seek a offset = offset ↔ a.sceIoLseek = none ∧ offset < 2147483648 := by
  unfold seek
  cases a.sceIoLseek with
  | none =>
    simp only [true_and]
    constructor
    · intro h
      have hlt := (BitVec.ofInt 32 (offset : ℤ)).toInt_lt
      omega
    · intro h
      exact BitVec.toInt_ofInt_eq_self (by decide) (by omega) (by omega)
  | some e =>
    obtain ⟨e, hle, hneg⟩ := e
    have hself : (BitVec.ofInt 32 e).toInt = e := BitVec.toInt_ofInt_eq_self (by decide) hle (by omega)
    refine iff_of_false (fun h => ?_) (by simp)
    have hoffset : (BitVec.ofInt 32 e).toInt = offset := h
    omega

theorem vitaXWrite_file (w : Write) (file : List Byte) :
    (vitaXWrite w.answers w.buf w.offset file).2 = overwritten 0 file w.piece.offset w.piece.data := by
  unfold vitaXWrite Write.piece
  by_cases hseek : seek w.answers w.offset = w.offset
  · simp only [hseek, ne_eq, not_true_eq_false, if_false, if_true]
    split_ifs <;> rfl
  · simp only [hseek, ne_eq, not_false_eq_true, if_true, if_false]
    rfl

theorem xWrites_eq (file : List Byte) (writes : List Write) :
    xWrites file writes = writePieces 0 file (writes.map Write.piece) := by
  induction writes generalizing file with
  | nil => rfl
  | cons w rest ih =>
    show xWrites (vitaXWrite w.answers w.buf w.offset file).2 rest = _
    rw [ih, vitaXWrite_file]
    rfl

theorem code_eq_ok_iff (w : Write) : w.code = sqliteOk ↔
    w.answers.sceIoLseek = none ∧ w.offset < 2147483648 ∧ w.answers.sceIoWrite = w.buf.length := by
  rw [← and_assoc, ← seek_eq_iff, Write.code, vitaXWrite]
  by_cases hseek : seek w.answers w.offset = w.offset
  · by_cases hwrite : w.answers.sceIoWrite = w.buf.length <;> simp [hseek, hwrite, sqliteOk, sqliteIoerrWrite]
  · simp [hseek, sqliteOk, sqliteIoerrWrite]

theorem piece_of_ok {w : Write} (h : w.code = sqliteOk) : w.piece = ⟨w.offset, w.buf⟩ := by
  obtain ⟨hlseek, hoffset, hwrite⟩ := (code_eq_ok_iff w).mp h
  rw [Write.piece, if_pos ((seek_eq_iff _ _).mpr ⟨hlseek, hoffset⟩), taken, hwrite, Int.toNat_natCast,
    List.take_length]

theorem piece_covers {w : Write} {i : ℕ} (h : w.piece.Covers i) :
    w.offset ≤ i ∧ i < w.offset + w.buf.length := by
  obtain ⟨hle, hlt⟩ := h
  refine ⟨hle, lt_of_lt_of_le hlt (Nat.add_le_add_left ?_ _)⟩
  unfold Write.piece
  dsimp only
  split_ifs
  · rw [taken, List.length_take]
    exact Nat.min_le_right _ _
  · exact Nat.zero_le _

/-! ## Pages -/

/-- A write of a whole page of `size` bytes. -/
structure Write.OfPage (size : ℕ) (w : Write) : Prop where
  aligned : size ∣ w.offset
  whole : w.buf.length = size

theorem eq_offset_of_covers {size k i : ℕ} {w : Write} (hw : w.OfPage size) (hi : i < size)
    (h : w.piece.Covers (k * size + i)) : w.offset = k * size := by
  obtain ⟨hle, hlt⟩ := piece_covers h
  obtain ⟨j, hj⟩ := hw.aligned
  rw [hw.whole] at hlt
  rw [hj, Nat.mul_comm size j] at hle hlt ⊢
  have hjk : j = k := by
    apply le_antisymm
    · by_contra hkj
      have hmul := Nat.mul_le_mul_right size (Nat.succ_le_of_lt (not_le.mp hkj))
      rw [Nat.succ_mul] at hmul
      omega
    · by_contra hjk
      have hmul := Nat.mul_le_mul_right size (Nat.succ_le_of_lt (not_le.mp hjk))
      rw [Nat.succ_mul] at hmul
      omega
  rw [hjk]

section Pages
variable {size : ℕ} {file : List Byte} {writes : List Write}

theorem xWrites_page_written {before after : List Write} {w : Write}
    (hpages : ∀ v ∈ before ++ w :: after, v.OfPage size) (hok : w.code = sqliteOk)
    (hafter : ∀ v ∈ after, v.offset ≠ w.offset) :
    ((xWrites file (before ++ w :: after)).drop w.offset).take size = w.buf := by
  obtain ⟨-, hrest⟩ := List.forall_mem_append.mp hpages
  obtain ⟨hw, hpages⟩ := List.forall_mem_cons.mp hrest
  obtain ⟨k, hk⟩ := hw.aligned
  rw [Nat.mul_comm] at hk
  have hgetD : ∀ i < size, (xWrites file (before ++ w :: after)).getD (w.offset + i) 0 = w.buf.getD i 0 := by
    intro i hi
    have hcovers : w.piece.Covers (w.offset + i) := by
      rw [piece_of_ok hok]
      exact ⟨Nat.le_add_right _ _, Nat.add_lt_add_left (by rw [hw.whole]; exact hi) _⟩
    have hlast : ∀ p ∈ after.map Write.piece, ¬ p.Covers (w.offset + i) := by
      rintro p hp hcovers
      obtain ⟨v, hv, rfl⟩ := List.mem_map.mp hp
      rw [hk] at hcovers
      exact hafter v hv ((eq_offset_of_covers (hpages v hv) hi hcovers).trans hk.symm)
    rw [xWrites_eq, List.map_append, List.map_cons, writePieces_getD_of_last 0 _ hcovers hlast, piece_of_ok hok,
      Nat.add_sub_cancel_left]
  have hlength : 0 < size → w.offset + size ≤ (xWrites file (before ++ w :: after)).length := by
    intro hsize
    have hmem : w.piece ∈ (before ++ w :: after).map Write.piece :=
      List.mem_map_of_mem (List.mem_append_right before List.mem_cons_self)
    have hdata : w.piece.data ≠ [] := by
      rw [piece_of_ok hok]
      exact List.ne_nil_of_length_pos (by rw [hw.whole]; exact hsize)
    have hend := end_le_writePieces 0 file hmem hdata
    rwa [piece_of_ok hok, hw.whole, ← xWrites_eq] at hend
  apply List.ext_getElem?
  intro i
  rw [List.getElem?_take, List.getElem?_drop]
  split_ifs with hi
  · have hfile := hgetD i hi
    have hend := hlength (Nat.zero_lt_of_lt hi)
    have hbuf : i < w.buf.length := by rw [hw.whole]; exact hi
    rw [List.getD_eq_getElem _ _ (by omega), List.getD_eq_getElem _ _ hbuf] at hfile
    rw [List.getElem?_eq_getElem (by omega), List.getElem?_eq_getElem hbuf, hfile]
  · rw [List.getElem?_eq_none]
    rw [hw.whole]
    exact not_lt.mp hi

theorem xWrites_page_untouched {k : ℕ} (hpages : ∀ w ∈ writes, w.OfPage size)
    (h : ∀ w ∈ writes, w.offset ≠ k * size) {i : ℕ} (hi : i < size) :
    (xWrites file writes).getD (k * size + i) 0 = file.getD (k * size + i) 0 := by
  rw [xWrites_eq]
  apply writePieces_getD_of_none
  rintro p hp hcovers
  obtain ⟨w, hw, rfl⟩ := List.mem_map.mp hp
  exact h w hw (eq_offset_of_covers (hpages w hw) hi hcovers)

/-- **`xWrite` keeps the pages.** Behind any run of page writes, whatever the system answers: a page holds what was
written to it last, if that write was answered with `SQLITE_OK`; a page that no write was for is as before, and 0 where
the file has grown over it; and a write from `2^31` on is refused and leaves the file alone. -/
theorem xWrites_pages (file : List Byte) (hpages : ∀ w ∈ writes, w.OfPage size) :
    (∀ before w after, writes = before ++ w :: after → w.code = sqliteOk →
        (∀ v ∈ after, v.offset ≠ w.offset) → ((xWrites file writes).drop w.offset).take size = w.buf) ∧
      (∀ k, (∀ w ∈ writes, w.offset ≠ k * size) → ∀ i < size,
        (xWrites file writes).getD (k * size + i) 0 = file.getD (k * size + i) 0) ∧
      ∀ w ∈ writes, 2147483648 ≤ w.offset → w.code = sqliteIoerrWrite ∧
        ∀ file, (vitaXWrite w.answers w.buf w.offset file).2 = file := by
  refine ⟨?_, fun k hk i hi => xWrites_page_untouched hpages hk hi, ?_⟩
  · rintro before w after rfl hok hafter
    exact xWrites_page_written hpages hok hafter
  · intro w _ hoffset
    have hseek : seek w.answers w.offset ≠ w.offset := fun h =>
      absurd ((seek_eq_iff _ _).mp h).2 (not_lt.mpr hoffset)
    exact ⟨by rw [Write.code, vitaXWrite, if_pos hseek], fun file => by rw [vitaXWrite, if_pos hseek]⟩

end Pages

theorem seekError_range : (-2147483648 : ℤ) ≤ -1 ∧ (-1 : ℤ) < 0 := by decide

/-- Page 1 is written, of page 0 half is, and the seek to page 2 fails. -/
def threeWrites : List Write :=
  [⟨2, [7, 8], ⟨none, 2⟩⟩, ⟨0, [1, 2], ⟨none, 1⟩⟩, ⟨4, [5, 6], ⟨some ⟨-1, seekError_range⟩, 2⟩⟩]

theorem xWrites_pages_three : ((xWrites [] threeWrites).drop 2).take 2 = [7, 8] := by
  have hpages : ∀ w ∈ threeWrites, w.OfPage 2 := by
    intro w hw
    simp only [threeWrites, List.mem_cons, List.not_mem_nil, or_false] at hw
    rcases hw with rfl | rfl | rfl
    · exact ⟨⟨1, rfl⟩, rfl⟩
    · exact ⟨⟨0, rfl⟩, rfl⟩
    · exact ⟨⟨2, rfl⟩, rfl⟩
  exact (xWrites_pages [] hpages).1 [] _ _ rfl (by decide) (by decide)

/-! ## `sqlite_init`, `sqlite_exit` and `vita_xOpen` -/

inductive Methods
  | original
  /-- The copy of the methods, in the block of this number. -/
  | rw (block : ℕ)
  deriving DecidableEq

structure OpenFile where
  fd : ℤ
  methods : Methods

structure State where
  /-- `rw_vfs` is not NULL. -/
  rwVfs : Bool
  /-- SQLite has `rw_vfs` in its list. -/
  registered : Bool
  /-- The last `sqlite_init` has answered `SQLITE_OK`, and no `sqlite_exit` has come since. -/
  ready : Bool
  rwMethods : Option ℕ
  /-- The blocks that have been allocated for `rw_methods`. -/
  blocks : ℕ
  files : List OpenFile
  descriptors : List ℤ

def State.start : State where
  rwVfs := false
  registered := false
  ready := false
  rwMethods := none
  blocks := 0
  files := []
  descriptors := []

def sqliteInit (malloc found : Bool) (register : ℤ) (s : State) : State :=
  if s.rwVfs then { s with ready := true }
  else if malloc then
    if found then
      if register = sqliteOk then { s with rwVfs := true, registered := true, ready := true }
      else { s with rwVfs := true, ready := false }
    else { s with rwVfs := true, ready := true }
  else { s with ready := true }

def sqliteExit (unregister : ℤ) (s : State) : State :=
  { s with
    rwMethods := none
    rwVfs := false
    registered := s.registered && !(s.rwVfs && decide (unregister = sqliteOk))
    ready := false }

structure OpenAnswers where
  create : Bool
  readWrite : Bool
  sceIoOpenRdonly : ℤ
  sceIoOpenCreat : ℤ
  /-- The `xOpen` of the system has set `pMethods`, and opened this descriptor. -/
  methods : Bool
  fd : ℤ
  sceIoOpenRdwr : ℤ
  malloc : Bool

def opened (fd : ℤ) (descriptors : List ℤ) : List ℤ := if 0 ≤ fd then fd :: descriptors else descriptors

/-- The file is made when there is none, and closed again. -/
def createFile (a : OpenAnswers) (s : State) : State :=
  if a.create then
    let fd := if a.sceIoOpenRdonly < 0 then a.sceIoOpenCreat else a.sceIoOpenRdonly
    { s with descriptors := if 0 ≤ fd then (opened fd s.descriptors).erase fd else s.descriptors }
  else s

def allocateMethods (a : OpenAnswers) (s : State) : State :=
  if s.rwMethods = none ∧ a.malloc then { s with rwMethods := some s.blocks, blocks := s.blocks + 1 } else s

/-- The file of `xOpen` with the copied methods, when there are any. -/
def overrideMethods (a : OpenAnswers) (fd : ℤ) (s : State) : State :=
  let s := allocateMethods a s
  { s with files := ⟨fd, s.rwMethods.elim .original .rw⟩ :: s.files }

/-- SQLite keeps the file until `xClose` when `pMethods` is set, whatever the code is. -/
def vitaXOpen (a : OpenAnswers) (s : State) : State :=
  let s := createFile a s
  if a.methods then
    let s := { s with descriptors := opened a.fd s.descriptors }
    if a.readWrite then
      if 0 ≤ a.fd then
        let s := { s with descriptors := opened a.sceIoOpenRdwr (s.descriptors.erase a.fd) }
        if a.sceIoOpenRdwr < 0 then { s with files := ⟨a.sceIoOpenRdwr, .original⟩ :: s.files }
        else overrideMethods a a.sceIoOpenRdwr s
      else overrideMethods a a.fd s
    else { s with files := ⟨a.fd, .original⟩ :: s.files }
  else s

/-- `xClose` of the file at a place, which is the system's own. -/
def closeFile (i : ℕ) (s : State) : State :=
  match s.files[i]? with
  | none => s
  | some file =>
    { s with
      files := s.files.eraseIdx i
      descriptors := if 0 ≤ file.fd then s.descriptors.erase file.fd else s.descriptors }

inductive Call
  | init (malloc found : Bool) (register : ℤ)
  | exit (unregister : ℤ)
  /-- SQLite comes to `vita_xOpen` through its list only. -/
  | open (a : OpenAnswers)
  | close (i : ℕ)

def State.step (s : State) : Call → State
  | .init malloc found register => sqliteInit malloc found register s
  | .exit unregister => sqliteExit unregister s
  | .open a => if s.registered then vitaXOpen a s else s
  | .close i => closeFile i s

/-! ## Its life -/

structure State.Sound (s : State) : Prop where
  /-- An `SQLITE_OK` of `sqlite_init` is true. -/
  ready : s.ready = true → s.registered = true
  /-- SQLite has no freed VFS in its list. -/
  registered : s.registered = true → s.rwVfs = true
  /-- No open file has freed methods. -/
  methods : ∀ file ∈ s.files, ∀ block, file.methods = .rw block → s.rwMethods = some block
  /-- The descriptors are the ones of the open files. -/
  descriptors : s.descriptors.Perm ((s.files.map OpenFile.fd).filter (0 ≤ ·))

/-- What keeps the VFS sound: memory, a VFS of the system and no failed registration for an `sqlite_init`, and no open
file with the copied methods for an `sqlite_exit`. -/
def Orderly (s : State) : Call → Prop
  | .init malloc found _ => if s.rwVfs then s.registered = true else malloc = true ∧ found = true
  | .exit unregister => (s.registered = true → unregister = sqliteOk) ∧ ∀ file ∈ s.files, file.methods = .original
  | _ => True

section Life
variable {s : State}

theorem sqliteInit_sound_iff (malloc found : Bool) (register : ℤ) (h : s.Sound) :
    (sqliteInit malloc found register s).Sound ↔ Orderly s (.init malloc found register) := by
  simp only [sqliteInit, Orderly]
  by_cases hvfs : s.rwVfs = true
  · rw [if_pos hvfs, if_pos hvfs]
    exact ⟨fun h' => h'.ready rfl, fun hreg => ⟨fun _ => hreg, fun _ => hvfs, h.methods, h.descriptors⟩⟩
  · have hnot : ¬ s.registered = true := fun hreg => hvfs (h.registered hreg)
    rw [if_neg hvfs, if_neg hvfs]
    by_cases hmalloc : malloc = true
    · by_cases hfound : found = true
      · rw [if_pos hmalloc, if_pos hfound]
        refine iff_of_true ?_ ⟨hmalloc, hfound⟩
        split_ifs
        · exact ⟨fun _ => rfl, fun _ => rfl, h.methods, h.descriptors⟩
        · exact ⟨nofun, fun _ => rfl, h.methods, h.descriptors⟩
      · rw [if_pos hmalloc, if_neg hfound]
        exact iff_of_false (fun h' => hnot (h'.ready rfl)) fun hboth => hfound hboth.2
    · rw [if_neg hmalloc]
      exact iff_of_false (fun h' => hnot (h'.ready rfl)) fun hboth => hmalloc hboth.1

theorem sqliteExit_sound_iff (unregister : ℤ) (h : s.Sound) :
    (sqliteExit unregister s).Sound ↔ Orderly s (.exit unregister) := by
  unfold Orderly
  constructor
  · intro h'
    refine ⟨fun hreg => ?_, fun file hfile => ?_⟩
    · by_contra hne
      have hlisted : (sqliteExit unregister s).registered = true := by simp [sqliteExit, hreg, hne]
      have hvfs := h'.registered hlisted
      cases hvfs
    · cases hmethods : file.methods with
      | original => rfl
      | rw block =>
        have hfreed := h'.methods file hfile block hmethods
        cases hfreed
  · rintro ⟨hunregister, hfiles⟩
    refine ⟨nofun, fun hreg => ?_, fun file hfile block hmethods => ?_, h.descriptors⟩
    · have hlisted := (Bool.and_eq_true_iff.mp hreg).1
      simp [sqliteExit, hlisted, hunregister hlisted, h.registered hlisted] at hreg
    · rw [hfiles file hfile] at hmethods
      cases hmethods

theorem opened_erase {fd : ℤ} (hfd : 0 ≤ fd) (descriptors : List ℤ) :
    (opened fd descriptors).erase fd = descriptors := by
  rw [opened, if_pos hfd, List.erase_cons_head]

theorem createFile_eq (a : OpenAnswers) (s : State) : createFile a s = s := by
  simp only [createFile]
  generalize (if a.sceIoOpenRdonly < 0 then a.sceIoOpenCreat else a.sceIoOpenRdonly) = fd
  by_cases hfd : 0 ≤ fd
  · rw [if_pos hfd, opened_erase hfd, ite_self]
  · rw [if_neg hfd, ite_self]

/-- One file more, with its descriptor; the copy of the methods is as before, or there was none. -/
theorem State.Sound.opens (h : s.Sound) (fd : ℤ) {methods : Methods} {rwMethods : Option ℕ} (blocks : ℕ)
    (hown : ∀ block, methods = .rw block → rwMethods = some block)
    (hkept : ∀ block, s.rwMethods = some block → rwMethods = some block) :
    State.Sound { s with
      rwMethods := rwMethods
      blocks := blocks
      files := ⟨fd, methods⟩ :: s.files
      descriptors := opened fd s.descriptors } := by
  refine ⟨h.ready, h.registered, ?_, ?_⟩
  · intro file hfile block hmethods
    rcases List.mem_cons.mp hfile with rfl | hfile
    · exact hown block hmethods
    · exact hkept block (h.methods file hfile block hmethods)
  · show (opened fd s.descriptors).Perm ((fd :: s.files.map OpenFile.fd).filter (0 ≤ ·))
    unfold opened
    by_cases hfd : 0 ≤ fd
    · rw [if_pos hfd, List.filter_cons_of_pos (by simpa using hfd)]
      exact h.descriptors.cons fd
    · rw [if_neg hfd, List.filter_cons_of_neg (by simpa using hfd)]
      exact h.descriptors

theorem overrideMethods_sound (a : OpenAnswers) (fd : ℤ) (h : s.Sound) :
    (overrideMethods a fd { s with descriptors := opened fd s.descriptors }).Sound := by
  have hown : ∀ rwMethods : Option ℕ, ∀ block, rwMethods.elim Methods.original .rw = .rw block →
      rwMethods = some block := by
    intro rwMethods block hmethods
    cases rwMethods with
    | none => cases hmethods
    | some b => exact congrArg some (Methods.rw.inj hmethods)
  simp only [overrideMethods, allocateMethods]
  split_ifs with hnew
  · exact h.opens fd _ (hown _) fun block hblock => by rw [hnew.1] at hblock; cases hblock
  · exact h.opens fd _ (hown _) fun block hblock => hblock

theorem vitaXOpen_sound (a : OpenAnswers) (h : s.Sound) : (vitaXOpen a s).Sound := by
  have horiginal : ∀ block, Methods.original = .rw block → s.rwMethods = some block := nofun
  simp only [vitaXOpen, createFile_eq]
  split_ifs with hmethods hwrite hfd hrdwr
  · rw [opened_erase hfd]
    exact h.opens a.sceIoOpenRdwr s.blocks horiginal fun _ hblock => hblock
  · rw [opened_erase hfd]
    exact overrideMethods_sound a a.sceIoOpenRdwr h
  · exact overrideMethods_sound a a.fd h
  · exact h.opens a.fd s.blocks horiginal fun _ hblock => hblock
  · exact h

theorem closeFile_sound (i : ℕ) (h : s.Sound) : (closeFile i s).Sound := by
  unfold closeFile
  cases hfile : s.files[i]? with
  | none => exact h
  | some file =>
    refine ⟨h.ready, h.registered, fun f hf => h.methods f (List.mem_of_mem_eraseIdx hf), ?_⟩
    have hperm : s.files.Perm (file :: s.files.eraseIdx i) := by
      obtain ⟨hi, rfl⟩ := List.getElem?_eq_some_iff.mp hfile
      exact (List.getElem_cons_eraseIdx_perm hi).symm
    have hfds := h.descriptors.trans ((hperm.map OpenFile.fd).filter _)
    show (if 0 ≤ file.fd then s.descriptors.erase file.fd else s.descriptors).Perm _
    by_cases hfd : 0 ≤ file.fd
    · rw [if_pos hfd]
      rw [List.map_cons, List.filter_cons_of_pos (by simpa using hfd)] at hfds
      have herased := hfds.erase file.fd
      rwa [List.erase_cons_head] at herased
    · rw [if_neg hfd]
      rwa [List.map_cons, List.filter_cons_of_neg (by simpa using hfd)] at hfds

theorem step_sound_iff (e : Call) (h : s.Sound) : (s.step e).Sound ↔ Orderly s e := by
  cases e with
  | init malloc found register => exact sqliteInit_sound_iff malloc found register h
  | exit unregister => exact sqliteExit_sound_iff unregister h
  | «open» a =>
    refine iff_of_true ?_ trivial
    show (if s.registered then vitaXOpen a s else s).Sound
    split_ifs
    · exact vitaXOpen_sound a h
    · exact h
  | close i => exact iff_of_true (closeFile_sound i h) trivial

/-- **The life of the VFS.** In every run of `sqlite_init`, `sqlite_exit`, opens and closes, an `SQLITE_OK` of
`sqlite_init` means that the VFS is registered, SQLite holds no freed VFS, no open file has freed methods and every
descriptor belongs to an open file, at every point, exactly when every call is orderly. -/
theorem vfs_sound_iff (calls : List Call) :
    AtEveryPoint State.Sound State.step .start calls ↔ EachStep Orderly State.step .start calls :=
  atEveryPoint_iff_eachStep (fun _ e h => step_sound_iff e h) ⟨nofun, nofun, nofun, .refl _⟩

end Life

end VitaConnect.Rif.Vfs
