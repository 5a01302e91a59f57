import VitaConnect.CString.Basic
import VitaConnect.Program.Effect
import VitaConnect.Program.History
import VitaConnect.Storage.Tree

/-! # The refresh pass (`refresh.c`: `app_callback`, `patch_callback`, `psm_callback`, `refreshApp`;
`package_installer.c`: `promoteApp`, `promoteCma`)

A callback moves a content directory to a temp path, hands it to the promoter, and moves it back when
the promoter refuses it. A path is the list of its names, and `Step` has the calls that change the
file system. `Answers` is what the other calls answer during one callback: `refreshNeeded`, how much
of a tree `removePath` removes, and the system calls.

A rename needs its source and does not replace its destination; the promoter works on the directory
that it is given only.
-/
namespace VitaConnect.Refresh
open CString Program Storage
set_option autoImplicit false

/-! ## Data -/

abbrev Path := List CStr

abbrev FileSystem := Tree CStr (List Byte)

structure Promoter where
  loadScePaf : ℤ
  sceSysmoduleLoadModuleInternal : ℤ
  scePromoterUtilityInit : ℤ
  /-- `scePromoterUtilityPromotePkgWithRif` or `scePromoterUtilityPromoteImport` -/
  scePromoterUtilityPromote : ℤ
  leftover : FileSystem
  scePromoterUtilityExit : ℤ
  sceSysmoduleUnloadModuleInternal : ℤ
  unloadScePaf : ℤ

structure Answers where
  refreshNeeded : Bool
  /-- The entries below the path that `removePath` leaves. -/
  removePath : Path → Bool
  /-- Nothing but its two paths stands in the way of the first rename, to the temp path. -/
  renameToTemp : Bool
  /-- The same of the second rename, back to the content path. -/
  renameBack : Bool
  /-- The buffer that `psm_callback` reads the title id from, if there is one. -/
  cidFile : Option (List Byte)
  readWorkBin : Bool
  sceIoRemove : ℤ
  /-- The licence found for the content id of `param.sfo`. -/
  queryRif : Option (List Byte)
  sceIoOpen : ℤ
  /-- How many bytes of the licence `sceIoWrite` takes. -/
  sceIoWrite : ℕ
  promoter : Promoter

inductive Step
  | removePath (path : Path) (kept : Path → Bool)
  | sceIoRename (src dst : Path)
  | setFile (path : Path) (entry : Option (Entry (List Byte)))
  | promote (path : Path) (leftover : FileSystem)

structure World where
  fs : FileSystem
  accepted : List FileSystem

def World.step (w : World) : Step → World
  | .removePath path kept =>
    { w with fs := w.fs.graft path fun rel => if kept rel then w.fs.below path rel else none }
  | .sceIoRename src dst => { w with fs := w.fs.move src dst }
  | .setFile path entry => { w with fs := Function.update w.fs path entry }
  | .promote path leftover =>
    { fs := w.fs.graft path leftover, accepted := w.accepted ++ [w.fs.below path] }

/-- `refresh_data_t`, with the steps taken since the world `start`. -/
structure Pass where
  start : World
  steps : List Step
  refreshPass : Bool
  count : ℕ
  refreshed : ℕ

def Pass.world (s : Pass) : World := replay World.step s.start s.steps

inductive Fault
  /-- `cidFile + 7` of an unread buffer. -/
  | nullPointer
  deriving DecidableEq

abbrev RefreshM := EStateM Fault Pass

def Pass.push (s : Pass) (e : Step) : Pass := { s with steps := s.steps ++ [e] }

def emit (e : Step) : RefreshM PUnit := modify fun s => s.push e

def addRefreshed : RefreshM PUnit := modify fun s => { s with refreshed := s.refreshed + 1 }

def addCount : RefreshM PUnit := modify fun s => { s with count := s.count + 1 }

/-! ## Paths -/

def ux0 : CStr := bytes "ux0:"

def appTemp : Path := [ux0, bytes "temp", bytes "app"]

def patchTemp : Path := [ux0, bytes "temp", bytes "patch"]

def psmTemp : Path := [ux0, bytes "temp", bytes "game"]

def workBin : Path := [bytes "sce_sys", bytes "package", bytes "work.bin"]

def names (path : CStr) : Path := (path.splitOn slash).filter (· ≠ [])

/-! ## Calls -/

def removePath (a : Answers) (path : Path) : RefreshM PUnit := emit (.removePath path a.removePath)

def sceIoRename (answer : Bool) (src dst : Path) : RefreshM PUnit := do
  let s ← get
  if answer ∧ s.world.fs src ≠ none ∧ s.world.fs dst = none then emit (.sceIoRename src dst)
  else pure ⟨⟩

def rifSize : ℕ := 512

def isCustomHomebrew (a : Answers) (fs : FileSystem) (path : Path) : Bool :=
  match fs path with
  | some (.file content) => a.readWorkBin && content.take rifSize == List.replicate rifSize 0
  | _ => false

def prepareWorkBin (a : Answers) (path : Path) : RefreshM PUnit := do
  let s ← get
  if isCustomHomebrew a s.world.fs (path ++ workBin) then
    if 0 ≤ a.sceIoRemove then emit (.setFile (path ++ workBin) none) else pure ⟨⟩
  else if s.world.fs (path ++ workBin) = none then
    match a.queryRif with
    | none => pure ⟨⟩
    | some rif =>
      if 0 < a.sceIoOpen then
        emit (.setFile (path ++ workBin) (some (.file ((rif.take rifSize).take a.sceIoWrite))))
      else pure ⟨⟩
  else pure ⟨⟩

/-- The body that `promoteApp` and `promoteCma` share: the first call that fails is the answer. -/
def promoteWith (p : Promoter) (path : Path) : RefreshM ℤ :=
  if p.loadScePaf < 0 then pure p.loadScePaf
  else if p.sceSysmoduleLoadModuleInternal < 0 then pure p.sceSysmoduleLoadModuleInternal
  else if p.scePromoterUtilityInit < 0 then pure p.scePromoterUtilityInit
  else if p.scePromoterUtilityPromote < 0 then pure p.scePromoterUtilityPromote
  else do
    emit (.promote path p.leftover)
    if p.scePromoterUtilityExit < 0 then pure p.scePromoterUtilityExit
    else if p.sceSysmoduleUnloadModuleInternal < 0 then pure p.sceSysmoduleUnloadModuleInternal
    else pure p.unloadScePaf

def promoteApp (p : Promoter) (path : Path) : RefreshM ℤ := promoteWith p path

def promoteCma (p : Promoter) (path : Path) (titleid : CStr) : RefreshM ℤ :=
  promoteWith p (path ++ names titleid)

def refreshApp (a : Answers) (appPath : Path) : RefreshM ℤ := do
  prepareWorkBin a appPath
  let res ← promoteApp a.promoter appPath
  pure (if res < 0 then res else 1)

/-! ## Callbacks -/

/-- What the three callbacks do with a directory that needs a refresh. -/
def reinstall (a : Answers) (path temp : Path) (promoted : RefreshM Bool) : RefreshM PUnit := do
  removePath a temp
  sceIoRename a.renameToTemp path temp
  let ok ← promoted
  if ok then addRefreshed else sceIoRename a.renameBack temp path

/-- `app_callback` and `patch_callback` differ in the temp path and in the kind of content that
`refreshNeeded` is asked about. -/
def contentCallback (temp : Path) (a : Answers) (dir : Path) (subdir : CStr) : RefreshM PUnit := do
  let s ← get
  if s.refreshPass then
    if a.refreshNeeded then
      reinstall a (dir ++ [subdir]) temp do
        let res ← refreshApp a temp
        pure (res == 1)
    else pure ⟨⟩
  else addCount

def appCallback : Answers → Path → CStr → RefreshM PUnit := contentCallback appTemp

def patchCallback : Answers → Path → CStr → RefreshM PUnit := contentCallback patchTemp

/-- `strncpy(titleid, cidFile + 7, 9)` -/
def titleId (cidFile : List Byte) : CStr := ((cidFile.drop 7).take 9).takeWhile (· != 0)

def psmCallback (a : Answers) (dir : Path) (subdir : CStr) : RefreshM PUnit := do
  let s ← get
  if s.refreshPass then
    if a.refreshNeeded then
      match a.cidFile with
      | none => throw .nullPointer
      | some cidFile =>
        reinstall a (dir ++ [subdir]) (psmTemp ++ names (titleId cidFile)) do
          let res ← promoteCma a.promoter psmTemp (titleId cidFile)
          pure (res == 0)
    else pure ⟨⟩
  else addCount

inductive Content
  | app | patch | psm
  deriving DecidableEq

def Content.dir : Content → Path
  | .app => [ux0, bytes "app"]
  | .patch => [ux0, bytes "patch"]
  | .psm => [ux0, bytes "psm"]

structure Listed where
  content : Content
  subdir : CStr
  answers : Answers

def callback (r : Listed) : RefreshM PUnit :=
  match r.content with
  | .app => appCallback r.answers r.content.dir r.subdir
  | .patch => patchCallback r.answers r.content.dir r.subdir
  | .psm => psmCallback r.answers r.content.dir r.subdir

def Listed.path (r : Listed) : Path := r.content.dir ++ [r.subdir]

/-- The pass over the directories that `parse_dir_with_callback` lists. -/
def refreshPass : List Listed → RefreshM PUnit := runAll callback

end VitaConnect.Refresh
