import VitaConnect.CString.Format
import VitaConnect.Program.Ledger
import VitaConnect.Refresh.Pass

/-! # The DLC of a title (`dlc_callback_outer`, `dlc_callback_inner`)

The inner callback collects the paths of a title's DLC directories as strings on the heap, and the outer
one goes through them twice: first the directories that need a refresh are moved to `DLC_TEMP`, then each
of them is handed to the promoter. The paths in `DLC_TEMP` are cut out of the strings. A string of
`dlc_data.list` is known by its number in the order of `strdup`, which succeeds.
-/
namespace VitaConnect.Refresh
open CString Program Storage
set_option autoImplicit false

/-! ## Data -/

/-- An entry that `sceIoDread` reads, with the answers of the calls that are made for it. -/
structure Dirent where
  name : CStr
  isDir : Bool
  answers : Answers

structure DlcString where
  ptr : ℕ
  text : CStr
  answers : Answers

inductive HeapEvent
  | strdup (ptr : ℕ)
  | read (ptr : ℕ)
  | free (ptr : ℕ)
  deriving DecidableEq

/-- `dlc_data`, and what has been done on the heap. -/
structure DlcRun where
  pass : Pass
  list : List DlcString
  heap : List HeapEvent

def DlcRun.start (s : Pass) : DlcRun where
  pass := s
  list := []
  heap := []

abbrev DlcM := EStateM Fault DlcRun

def inPass {α : Type} (x : RefreshM α) : DlcM α := fun s =>
  match x s.pass with
  | .ok a t => .ok a { s with pass := t }
  | .error e t => .error e { s with pass := t }

def onHeap (e : HeapEvent) : DlcM PUnit := modify fun s => { s with heap := s.heap ++ [e] }

/-! ## Paths -/

def maxPathLength : ℕ := 1024

def maxDlcPerTitle : ℕ := 1024

def colon : Byte := 58

/-- The names that a path with a device leads through. -/
def pathOf (path : CStr) : Path :=
  match strchr path colon with
  | some i => path.take (i + 1) :: names (path.drop (i + 1))
  | none => names path

def addcont : CStr := bytes "ux0:addcont"

def dlcTemp : CStr := bytes "ux0:temp/addcont"

/-- `%s/%s` -/
def joined (dir subdir : CStr) : CStr := dir ++ slash :: subdir

/-- The path in `DLC_TEMP` of a string, whose first `len` bytes are the path of the title. -/
def dlcTempPath (len : ℕ) (text : CStr) : CStr :=
  snprintf maxPathLength (joined dlcTemp (text.drop (len + 1)))

def asciiLower (b : Byte) : Byte := if 65 ≤ b ∧ b ≤ 90 then b + 32 else b

/-- `strncasecmp(s, t, n) == 0` -/
def sameFirst (n : ℕ) (s t : CStr) : Bool := (s.take n).map asciiLower = (t.take n).map asciiLower

/-! ## The callbacks -/

def strdup (text : CStr) (answers : Answers) : DlcM PUnit := modify fun s =>
  { s with
    list := s.list ++ [⟨s.list.length, text, answers⟩]
    heap := s.heap ++ [.strdup s.list.length] }

def readString (str : DlcString) : DlcM CStr := do
  onHeap (.read str.ptr)
  pure str.text

def dlcCallbackInner (dir : CStr) (e : Dirent) : DlcM PUnit := do
  if sameFirst 4 e.name (bytes "sce_") then pure ⟨⟩
  else
    let s ← get
    if s.pass.refreshPass then
      if s.list.length < maxDlcPerTitle then
        strdup (snprintf maxPathLength (joined dir e.name)) e.answers
      else pure ⟨⟩
    else inPass addCount

/-- `parse_dir_with_callback` with `SCE_S_IFDIR`; a directory that cannot be opened lists nothing. -/
def parseDirWithCallback (listing : List Dirent) (callback : Dirent → DlcM PUnit) : DlcM PUnit :=
  runAll callback (listing.filter (·.isDir))

/-- The first loop's body: what is left in `dlc_data.list[i]`. -/
def moveDlc (len : ℕ) (str : DlcString) : DlcM (Option DlcString) := do
  let _ ← readString str
  if str.answers.refreshNeeded then
    let text ← readString str
    let path := dlcTempPath len text
    inPass (removePath str.answers (pathOf path))
    let text ← readString str
    inPass (sceIoRename str.answers.renameToTemp (pathOf text) (pathOf path))
    pure (some str)
  else
    onHeap (.free str.ptr)
    pure none

def moveAll (len : ℕ) : List DlcString → DlcM (List (Option DlcString))
  | [] => pure []
  | str :: rest => do
    let entry ← moveDlc len str
    let entries ← moveAll len rest
    pure (entry :: entries)

/-- The second loop's body. -/
def refreshDlc (len : ℕ) (entry : Option DlcString) : DlcM PUnit :=
  match entry with
  | none => pure ⟨⟩
  | some str => do
    let text ← readString str
    let path := dlcTempPath len text
    let res ← inPass (refreshApp str.answers (pathOf path))
    if res = 1 then inPass addRefreshed
    else
      let text ← readString str
      inPass (sceIoRename str.answers.renameBack (pathOf path) (pathOf text))
    onHeap (.free str.ptr)

def dlcCallbackOuter (listing : List Dirent) (dir subdir : CStr) : DlcM PUnit := do
  modify fun s => { s with list := [] }
  let title := joined dir subdir
  parseDirWithCallback listing (dlcCallbackInner (snprintf maxPathLength title))
  let s ← get
  if s.pass.refreshPass then
    let entries ← moveAll title.length s.list
    runAll (refreshDlc title.length) entries
  else pure ⟨⟩

def heapLedger : Ledger HeapEvent ℕ where
  acquires
    | .strdup ptr => some ptr
    | _ => none
  releases
    | .free ptr => some ptr
    | _ => none
  uses
    | .read ptr => some ptr
    | _ => none
  apart e k hacq := by
    cases e <;> simp_all

end VitaConnect.Refresh
