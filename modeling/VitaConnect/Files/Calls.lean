import VitaConnect.Files.Location
import VitaConnect.Program.Effect
import VitaConnect.Storage.FileSystem

/-! # The file-system calls of the console

`Env` is what the calls answer besides what the disk decides: any call can fail with any negative code, a
read or a write can be short, and a directory is listed in any order. A rename does not replace its
destination, a directory is removed only when it is empty, and `sceIoDread` lists what was in the directory
when it was opened. The console's own devices are neither made nor removed. `World.trace` keeps the calls
that change the disk or list it, with the disks before and behind them.
-/
namespace VitaConnect.Files
open CString Program Storage
set_option autoImplicit false

/-! ## Data -/

abbrev Disk := FileSystem Name (List Byte)

abbrev ErrorCode := {code : ℤ // -2147483648 ≤ code ∧ code < 0}

def enoent : ErrorCode := ⟨0x80010002 - 0x100000000, by decide⟩
def eexist : ErrorCode := ⟨0x80010011 - 0x100000000, by decide⟩
def enotdir : ErrorCode := ⟨0x80010014 - 0x100000000, by decide⟩
def eisdir : ErrorCode := ⟨0x80010015 - 0x100000000, by decide⟩
def einval : ErrorCode := ⟨0x80010016 - 0x100000000, by decide⟩
def enotempty : ErrorCode := ⟨0x8001005A - 0x100000000, by decide⟩

/-- `SceIoDirent`: the name, and what the functions read of `d_stat`. -/
structure DirEntry where
  name : Name
  isDir : Bool
  size : ℕ

inductive Answer
  | full
  /-- A read delivers at most `n + 1` bytes, and a write takes at most `n`. -/
  | short (n : ℕ)
  | error (code : ErrorCode)

structure Env where
  /-- The answer of the call with a number. -/
  answer : ℕ → Answer
  /-- What the calls of `sceIoDread` deliver of the entries of a directory. -/
  dread : Loc → List DirEntry → List DirEntry
  dread_subperm : ∀ l entries, (dread l entries).Subperm entries
  /-- The answer of the cancel handler. -/
  cancel : ℕ → Bool

inductive Call
  | dopen (dir : Loc) (answer : Except ErrorCode (List DirEntry))
  | remove (loc : Loc) (ret : ℤ)
  | rmdir (loc : Loc) (ret : ℤ)
  | mkdir (loc : Loc) (ret : ℤ)
  | rename (src dst : Loc) (ret : ℤ)
  | create (loc : Loc) (answer : Except ErrorCode Loc)
  | read (loc : Loc) (answer : Except ErrorCode (List Byte))
  | write (loc : Loc) (data : List Byte) (answer : Except ErrorCode ℕ)
  | cancel (answer : Bool)

structure Step where
  call : Call
  before : Disk
  after : Disk

/-- What the pointers that `getPathInfo` is given point at. -/
structure PathInfo where
  size : UInt64
  folders : UInt32
  files : UInt32

structure World where
  disk : Disk
  tick : ℕ
  trace : List Step
  /-- `*param->value` -/
  value : UInt64
  /-- The arguments of the calls of `SetProgress`. -/
  shown : List (UInt64 × UInt64)
  cancels : ℕ
  info : PathInfo

inductive Halt
  /-- The recursion or loop is still going when its fuel is used up. -/
  | running
  deriving DecidableEq

abbrev FileM := EStateM Halt World

/-! ## What a call does to the disk -/

def entriesOf (disk : Disk) (dir : Loc) : List DirEntry := (disk.children dir).map fun name =>
  match disk.look (dir ++ [name]) with
  | some (.file content) => ⟨name, false, content.length⟩
  | _ => ⟨name, true, 0⟩

def removeFile (l : Loc) (disk : Disk) : Except ErrorCode Disk :=
  match disk.look l with
  | some (.file _) => .ok (disk.erase l)
  | some .dir => .error eisdir
  | none => .error enoent

def removeDir (l : Loc) (disk : Disk) : Except ErrorCode Disk :=
  match disk.look l with
  | some .dir =>
    if l.length < 2 then .error einval
    else if disk.children l = [] then .ok (disk.erase l)
    else .error enotempty
  | some (.file _) => .error enotdir
  | none => .error enoent

def makeDir (l : Loc) (disk : Disk) : Except ErrorCode Disk :=
  if l.length < 2 then .error einval
  else if disk.look l ≠ none then .error eexist
  else if disk.look l.dropLast = some .dir then .ok (disk.put l .dir)
  else .error enoent

def renameEntry (src dst : Loc) (disk : Disk) : Except ErrorCode Disk :=
  if disk.look src = none then .error enoent
  else if src.length < 2 ∨ dst.length < 2 then .error einval
  else if disk.look dst ≠ none then .error eexist
  else if src <+: dst then .error einval
  else if disk.look dst.dropLast = some .dir then .ok (disk.move src dst)
  else .error enoent

/-- `SCE_O_WRONLY | SCE_O_CREAT`, with `SCE_O_TRUNC` or without it. -/
def createFile (trunc : Bool) (l : Loc) (disk : Disk) : Except ErrorCode Disk :=
  match disk.look l with
  | some (.file _) => .ok (if trunc then disk.put l (.file []) else disk)
  | some .dir => .error eisdir
  | none =>
    if l.length < 2 then .error einval
    else if disk.look l.dropLast = some .dir then .ok (disk.put l (.file []))
    else .error enoent

/-! ## The calls -/

/-- A call that does not fail ends as the disk decides. -/
def Answer.unlessFails {α : Type} (res : Except ErrorCode α) : Answer → Except ErrorCode α
  | .error code => .error code
  | _ => res

section Calls
variable (env : Env)

def World.did (w : World) (call : Call) (disk : Disk) : World :=
  { w with disk := disk, tick := w.tick + 1, trace := w.trace ++ [⟨call, w.disk, disk⟩] }

def status : Except ErrorCode Disk → ℤ
  | .ok _ => 0
  | .error code => code.1

def diskAfter (disk : Disk) : Except ErrorCode Disk → Disk
  | .ok disk => disk
  | .error _ => disk

/-- A call that changes the disk and answers 0, or leaves it and answers a code. -/
def changing (call : ℤ → Call) (op : Disk → Except ErrorCode Disk) : FileM ℤ := fun w =>
  let res := (env.answer w.tick).unlessFails (op w.disk)
  .ok (status res) (w.did (call (status res)) (diskAfter w.disk res))

def sceIoRemove (path : CStr) : FileM ℤ := changing env (.remove (locate path)) (removeFile (locate path))

def sceIoRmdir (path : CStr) : FileM ℤ := changing env (.rmdir (locate path)) (removeDir (locate path))

/-- The mode is left out. -/
def sceIoMkdir (path : CStr) : FileM ℤ := changing env (.mkdir (locate path)) (makeDir (locate path))

def sceIoRename (src dst : CStr) : FileM ℤ :=
  changing env (.rename (locate src) (locate dst)) (renameEntry (locate src) (locate dst))

def listing (l : Loc) (disk : Disk) : Except ErrorCode (List DirEntry) :=
  if l = [] then .error enoent
  else
    match disk.look l with
    | some .dir => .ok (env.dread l (entriesOf disk l))
    | some (.file _) => .error enotdir
    | none => .error enoent

/-- The entries that the calls of `sceIoDread` will deliver stand for the descriptor. -/
def sceIoDopen (path : CStr) : FileM (Except ErrorCode (List DirEntry)) := fun w =>
  let l := locate path
  let res := (env.answer w.tick).unlessFails (listing env l w.disk)
  .ok res (w.did (.dopen l res) w.disk)

/-- Whether the entry is a directory, and how long it is. -/
def statAt (l : Loc) (disk : Disk) : Except ErrorCode (Bool × ℕ) :=
  if l = [] then .error enoent
  else
    match disk.look l with
    | some .dir => .ok (true, 0)
    | some (.file content) => .ok (false, content.length)
    | none => .error enoent

def sceIoGetstat (path : CStr) : FileM (Except ErrorCode (Bool × ℕ)) := fun w =>
  .ok ((env.answer w.tick).unlessFails (statAt (locate path) w.disk)) { w with tick := w.tick + 1 }

def openFile (l : Loc) (disk : Disk) : Except ErrorCode Loc :=
  match disk.look l with
  | some (.file _) => .ok l
  | some .dir => .error eisdir
  | none => .error enoent

/-- `sceIoOpen(path, SCE_O_RDONLY, 0)`; a descriptor is the location of its file. -/
def sceIoOpenRead (path : CStr) : FileM (Except ErrorCode Loc) := fun w =>
  .ok ((env.answer w.tick).unlessFails (openFile (locate path) w.disk)) { w with tick := w.tick + 1 }

/-- `sceIoOpen(path, SCE_O_WRONLY | SCE_O_CREAT, 0777)`, or with `SCE_O_TRUNC` -/
def sceIoOpenWrite (trunc : Bool) (path : CStr) : FileM (Except ErrorCode Loc) := fun w =>
  let l := locate path
  let made := (env.answer w.tick).unlessFails (createFile trunc l w.disk)
  let res := made.map fun _ => l
  .ok res (w.did (.create l res) (diskAfter w.disk made))

def Answer.read (rest : List Byte) (size : ℕ) : Answer → Except ErrorCode (List Byte)
  | .full => .ok (rest.take size)
  | .short n => .ok (rest.take (min (n + 1) size))
  | .error code => .error code

def Answer.written (data : List Byte) : Answer → Except ErrorCode ℕ
  | .full => .ok data.length
  | .short n => .ok (min n data.length)
  | .error code => .error code

def contentAt (disk : Disk) (l : Loc) : List Byte :=
  match disk.look l with
  | some (.file content) => content
  | _ => []

def sceIoRead (fd : Loc) (pos size : ℕ) : FileM (Except ErrorCode (List Byte)) := fun w =>
  let res := (env.answer w.tick).read ((contentAt w.disk fd).drop pos) size
  .ok res (w.did (.read fd res) w.disk)

/-- What is in a file behind a write at a position. -/
def splice (content : List Byte) (pos : ℕ) (data : List Byte) : List Byte :=
  content.take pos ++ data ++ content.drop (pos + data.length)

def sceIoWrite (fd : Loc) (pos : ℕ) (data : List Byte) : FileM (Except ErrorCode ℕ) := fun w =>
  let res := (env.answer w.tick).written data
  let disk := match res with
    | .ok n => w.disk.put fd (.file (splice (contentAt w.disk fd) pos (data.take n)))
    | .error _ => w.disk
  .ok res (w.did (.write fd data res) disk)

/-- `cancelHandler()` -/
def cancelHandler : FileM Bool := fun w =>
  let answer := env.cancel w.cancels
  .ok answer { w with
    cancels := w.cancels + 1
    trace := w.trace ++ [⟨.cancel answer, w.disk, w.disk⟩] }

end Calls
end VitaConnect.Files
