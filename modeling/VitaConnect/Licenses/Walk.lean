import VitaConnect.CString.CaseFold
import VitaConnect.Rif.Inserts
import VitaConnect.Storage.Listing

/-! # The walk over the licence files (`refresh.c`: `parse_dir_with_callback`, `license_dir_callback`,
`license_file_callback`)

A directory is the listing that `sceIoDopen` and `sceIoDread` give of it; one that cannot be opened lists
nothing. The depth counter is compared for equality only, so that a walk that comes to `max_depth` once too
late would go on to the end of the tree.
-/
namespace VitaConnect.Licenses
open CString Rif Storage
set_option autoImplicit false

/-! ## Data -/

def maxPathLength : ℕ := 1024

/-- `st_mode & SCE_S_IFMT` -/
inductive FileType
  | reg | dir | other
  deriving DecidableEq

/-- What an entry can be that is not a directory. -/
inductive LeafType
  | reg | other
  deriving DecidableEq

def LeafType.fileType : LeafType → FileType
  | reg => .reg
  | other => .other

abbrev Directory := Listing CStr LeafType

/-- `license_data_t`; `processed` is not used. -/
structure LicenseData where
  copyPass : Bool
  count : ℤ
  copied : ℤ
  curDepth : ℤ
  maxDepth : ℤ
  rif : List Byte

structure Environment (Db Stmt : Type) where
  sql : Sqlite Db Stmt
  sceIoOpen : CStr → ℤ
  /-- What `sceIoRead` delivers of a file, or its error. -/
  sceIoRead : CStr → Except {c : ℤ // c < 0} {xs : List Byte // xs.length ≤ rifSize}
  /-- The memory behind the buffer of the licence. -/
  behind : List Byte

/-- `calls` are the calls of `license_file_callback`, and `inserted` are the licences that SQLite has
inserted. -/
structure Importing (Db : Type) where
  data : LicenseData
  db : Db
  calls : List (CStr × CStr)
  inserted : List (List Byte)

section Callbacks
variable {Db Stmt : Type}

/-! ## `license_file_callback` -/

/-- `snprintf(path, MAX_PATH_LENGTH, "%s/%s", dir, name)` -/
def joinPath (dir name : CStr) : CStr := snprintf maxPathLength (dir ++ bytes "/" ++ name)

def isRif (file : CStr) : Bool := 4 ≤ file.length && strcasecmp (file.drop (file.length - 4)) (bytes ".rif")

/-- The call of `insert_rif`, and what follows on its answer. -/
def insertLicense (env : Environment Db Stmt) (s : Importing Db) : Importing Db :=
  let (rc, db) := insertRif env.sql s.db s.data.rif env.behind
  { s with
    db := db
    inserted := if insertDone env.sql s.db s.data.rif env.behind then s.inserted ++ [s.data.rif] else s.inserted
    data := { s.data with copied := if rc = 0 then s.data.copied + 1 else s.data.copied } }

/-- The copying of a file: a read that delivers less than a licence inserts nothing. -/
def copyLicense (env : Environment Db Stmt) (path : CStr) (s : Importing Db) : Importing Db :=
  if 0 < env.sceIoOpen path then
    match env.sceIoRead path with
    | .error _ => s
    | .ok read =>
      let s := { s with data := { s.data with rif := read.1 ++ s.data.rif.drop read.1.length } }
      if read.1.length = rifSize then insertLicense env s else s
  else s

def licenseFileCallback (env : Environment Db Stmt) (dir file : CStr) (s : Importing Db) : Importing Db :=
  let s := { s with calls := s.calls ++ [(dir, file)] }
  if ¬ isRif file then s
  else if s.data.copyPass then copyLicense env (joinPath dir file) s
  else { s with data := { s.data with count := s.data.count + 1 } }

/-! ## `parse_dir_with_callback` and `license_dir_callback` -/

/-- The loop over the entries of an open directory. The callback is also given what the entry lists. -/
def parseDirWithCallback {σ : Type} (targetType : FileType) (path : CStr)
    (callback : CStr → CStr → Directory → σ → σ) : Directory → σ → σ
  | .done, s => s
  | .leaf name kind rest, s => parseDirWithCallback targetType path callback rest
      (if kind.fileType = targetType then callback path name .done s else s)
  | .node name entries rest, s => parseDirWithCallback targetType path callback rest
      (if targetType = .dir then callback path name entries s else s)

def Importing.withDepth (s : Importing Db) (depth : ℤ) : Importing Db :=
  { s with data := { s.data with curDepth := depth } }

/-- `parse_dir_with_callback(SCE_S_IFREG, path, license_file_callback, data)` -/
def parseFiles (env : Environment Db Stmt) (path : CStr) (entries : Directory) (s : Importing Db) :
    Importing Db :=
  parseDirWithCallback .reg path (fun dir file _ => licenseFileCallback env dir file) entries s

/-- `license_dir_callback`, given the walk over the subdirectories. -/
def descend (env : Environment Db Stmt) (parseDirs : CStr → Importing Db → Importing Db) (dir subdir : CStr)
    (entries : Directory) (s : Importing Db) : Importing Db :=
  let path := joinPath dir subdir
  let s := s.withDepth (s.data.curDepth + 1)
  let s := if s.data.curDepth = s.data.maxDepth then parseFiles env path entries s else parseDirs path s
  s.withDepth (s.data.curDepth - 1)

/-- `parse_dir_with_callback(SCE_S_IFDIR, path, license_dir_callback, data)` -/
def parseDirs (env : Environment Db Stmt) : Directory → CStr → Importing Db → Importing Db
  | .done, _, s => s
  | .leaf _ _ rest, path, s => parseDirs env rest path s
  | .node subdir entries rest, path, s =>
    parseDirs env rest path (descend env (parseDirs env entries) path subdir entries s)

def licenseDirCallback (env : Environment Db Stmt) (dir subdir : CStr) (entries : Directory) :
    Importing Db → Importing Db :=
  descend env (parseDirs env entries) dir subdir entries

/-- The walk is the loop of `parse_dir_with_callback`. -/
theorem parseDirs_eq (env : Environment Db Stmt) (tree : Directory) (path : CStr) (s : Importing Db) :
    parseDirs env tree path s = parseDirWithCallback .dir path (licenseDirCallback env) tree s := by
  induction tree generalizing s with
  | done => rfl
  | leaf name kind rest ih =>
    have htype : kind.fileType ≠ .dir := by cases kind <;> simp [LeafType.fileType]
    rw [parseDirs, parseDirWithCallback, if_neg htype, ih]
  | node name entries rest _ ih => rw [parseDirs, parseDirWithCallback, if_pos rfl, ih, licenseDirCallback]

end Callbacks

end VitaConnect.Licenses
