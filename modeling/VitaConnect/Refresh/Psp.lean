import VitaConnect.Files.Calls
import VitaConnect.Refresh.Needed

/-! # The PSP and PS1 games (`psp_callback`, with `gen_sce_ebootpbp` of `pbp.c`)

A game is moved below `PSP_TEMP` next to a licence, with a new `__sce_ebootpbp` in it, and all of `PSP_TEMP`
is handed to the promoter. When that fails the game is moved back and `PSP_TEMP` is removed; the old
signature, which was read before, is written back when no new one could be made.

As in `Answers`, what an answer decides is what the file system does not: a file is not opened where there is
a directory, a directory is not made where there is something, and `sceIoRemove` removes files.
-/
namespace VitaConnect.Refresh.Psp
open CString Program Storage
set_option autoImplicit false

/-! ## Data -/

structure WriteAnswers where
  sceIoOpen : ℤ
  /-- How many bytes `sceIoWrite` takes, or its error. -/
  sceIoWrite : ℤ

/-- How the file that `allocateReadFile` is called for is read. -/
structure CacheAnswers where
  sceIoOpen : ℤ
  malloc : Bool
  /-- How many bytes `sceIoRead` delivers at most, or its error. -/
  sceIoRead : ℤ

structure CopyAnswers where
  /-- Both files are opened. -/
  opened : Bool
  /-- What `copyFile` leaves at its destination, unless it removes it again. -/
  left : Option (List Byte)
  res : ℤ

structure GenAnswers where
  eboot : Pbp.Reading
  /-- The function that signs for the type of the file, and the array behind it. -/
  vshNpDrmEbootSigGen : ℤ
  sceEbootpbp : List Byte
  write : WriteAnswers

/-- Where the fields of `SceNpDrmLicense` are. -/
structure LicenseLayout where
  size : ℕ
  accountId : ℕ
  contentId : ℕ
  ecdsaSignature : ℕ
  flags : ℕ

structure PspAnswers where
  refreshNeeded : Bool
  stack : Pbp.Stack
  pbpType : Pbp.Reading
  cache : CacheAnswers
  pbpContentId : Pbp.Reading
  pbpSfo : Pbp.Reading
  /-- What `discid` and the memory behind it hold before anything is stored there. -/
  discid : List Byte
  sceIoMkdir : Path → ℤ
  copyFile : CopyAnswers
  license : LicenseLayout
  writeLicense : WriteAnswers
  sceIoRemove : ℤ
  gen : GenAnswers
  renameToTemp : Bool
  promoter : Promoter
  renameBack : Bool
  /-- The entries below `PSP_TEMP` that `removePath` leaves. -/
  removePath : Path → Bool
  restore : WriteAnswers

abbrev PspM := EStateM ReadFault Pass

def ofRefresh {α : Type} (x : RefreshM α) : PspM α := fun s =>
  match x s with
  | .ok r t => .ok r t
  | .error _ t => .error .outOfBounds t

def ofOption {α : Type} : Option α → PspM α
  | some x => pure x
  | none => throw .outOfBounds

/-! ## Paths -/

def pspTemp : Path := [ux0, bytes "pspemu", bytes "temp", bytes "game"]

/-- `promote_psp_game_folder`, below `PSP_TEMP` -/
def gameFolder : Path := [bytes "PSP", bytes "GAME"]

def licenseFolder : Path := [bytes "PSP", bytes "LICENSE"]

def sceEbootpbp : CStr := bytes "__sce_ebootpbp"

/-- `promote_game_folder`, below `PSP_TEMP` -/
def promoteGameFolder (discid : CStr) : Path :=
  gameFolder ++ names (snprintf (maxPathLength - (bytes "ux0:pspemu/temp/game/PSP/GAME/").length) discid)

def promoteLicenseRif (contentid : CStr) : Path :=
  pspTemp ++ licenseFolder ++ names (contentid ++ bytes ".rif")

/-- The directories that are made. -/
def promoteDirs : List Path :=
  [[ux0, bytes "pspemu"], [ux0, bytes "pspemu", bytes "temp"], pspTemp, pspTemp ++ [bytes "PSP"],
    pspTemp ++ gameFolder, pspTemp ++ licenseFolder]

/-! ## Files -/

def WriteAnswers.Opens (w : WriteAnswers) (before : Option (Entry (List Byte))) : Prop :=
  0 ≤ w.sceIoOpen ∧ before ≠ some .dir

instance (w : WriteAnswers) (before : Option (Entry (List Byte))) : Decidable (w.Opens before) :=
  inferInstanceAs (Decidable (_ ∧ _))

def writeFile (w : WriteAnswers) (path : Path) (data : List Byte) : RefreshM ℤ := do
  let s ← get
  if w.Opens (s.world.fs path) then do
    emit (.setFile path (some (.file (data.take w.sceIoWrite.toNat))))
    pure w.sceIoWrite
  else pure (if w.sceIoOpen < 0 then w.sceIoOpen else Files.eisdir.1)

/-- The calls of `allocateReadFile`, for a file system that has this entry at the path. -/
def CacheAnswers.answers (r : CacheAnswers) : Option (Entry (List Byte)) → ReadAnswers
  | some (.file content) =>
    let delivered := content.take r.sceIoRead.toNat
    { sceIoOpen := r.sceIoOpen
      malloc := if r.malloc then some delivered else none
      sceIoRead := if r.sceIoRead < 0 then r.sceIoRead else delivered.length }
  | _ => ⟨Files.enoent.1, none, 0⟩

def cacheFile (r : CacheAnswers) (path : Path) : RefreshM (ℤ × Option (List Byte)) := do
  let s ← get
  pure (allocateReadFile (r.answers (s.world.fs path)))

def sceIoMkdir (a : PspAnswers) (path : Path) : RefreshM PUnit := do
  let s ← get
  if 0 ≤ a.sceIoMkdir path ∧ s.world.fs path = none then emit (.setFile path (some .dir)) else pure ⟨⟩

def sceIoRemove (answer : ℤ) (path : Path) : RefreshM PUnit := do
  let s ← get
  match s.world.fs path with
  | some (.file _) => if 0 ≤ answer then emit (.setFile path none) else pure ⟨⟩
  | _ => pure ⟨⟩

def copyFile (c : CopyAnswers) (dst : Path) : RefreshM ℤ := do
  let s ← get
  if c.opened ∧ s.world.fs dst ≠ some .dir then do
    emit (.setFile dst (c.left.map .file))
    pure c.res
  else pure Files.enoent.1

/-! ## The licence -/

/-- The generated licence up to `flags`. -/
def LicenseLayout.fake (l : LicenseLayout) (contentid : CStr) : List Byte :=
  let license := List.replicate l.size 0
  let license := Files.splice license l.accountId [0xEF, 0xCD, 0xAB, 0x89, 0x67, 0x45, 0x23, 0x01]
  let license := Files.splice license l.ecdsaSignature (List.replicate 0x28 0xFF)
  let license := Files.splice license l.contentId
    (contentid.take 0x30 ++ List.replicate (0x30 - contentid.length) 0)
  license.take l.flags

def prepareLicense (a : PspAnswers) (contentid : CStr) : RefreshM PUnit := do
  let res ← copyFile a.copyFile (promoteLicenseRif contentid)
  if res < 0 then do
    let _ ← writeFile a.writeLicense (promoteLicenseRif contentid) (a.license.fake contentid)
    pure ⟨⟩
  else pure ⟨⟩

/-! ## The signature -/

/-- The type of the opened file, once what goes into the signature has been read. The hash of the file goes
into the function that signs. -/
def signedType (a : PspAnswers) : Option ℤ := do
  let ((pbpType, _), file) ← opened (Pbp.determinePbpType a.stack) a.gen.eboot
  if pbpType = Pbp.PbpType.psisoimg.code ∨ pbpType = Pbp.PbpType.npumdimg.code then do
    let _ ← opened (Pbp.hashPbp a.stack) file
    some pbpType
  else some pbpType

def genSceEbootpbp (a : PspAnswers) (pspGameFolder : Path) : PspM ℤ :=
  if a.gen.eboot.sceIoOpen < 0 then pure 0
  else
    match signedType a with
    | none => throw .outOfBounds
    | some pbpType =>
      if pbpType = Pbp.PbpType.unknown.code then pure 0
      else if a.gen.vshNpDrmEbootSigGen < 0 then pure a.gen.vshNpDrmEbootSigGen
      else ofRefresh <|
        writeFile a.gen.write (pspGameFolder ++ [sceEbootpbp]) (a.gen.sceEbootpbp.take 0x200)

def restoreSignature (a : PspAnswers) (path : Path) (cached : ℤ × Option (List Byte)) (ebootGen : ℤ) :
    RefreshM PUnit :=
  if ebootGen < 0 ∧ 0 < cached.1 then do
    let _ ← writeFile a.restore (path ++ [sceEbootpbp]) (cached.2.getD [])
    pure ⟨⟩
  else pure ⟨⟩

/-! ## The callback -/

structure GameIds where
  contentid : CStr
  discid : CStr
  deriving DecidableEq

/-- The ids in `EBOOT.PBP`, unless `psp_callback` gives up. A missing param.sfo is a null pointer that
`getSfoString` reads. -/
def gameIds (a : PspAnswers) (pbpType : ℤ) (subdir : CStr) : Option (Option GameIds) := do
  let (res, file) ← opened (Pbp.getPbpContentId a.stack (some [])) a.pbpContentId
  if res = 0 then some none
  else do
    let ((sfoSize, buffer), _) ← opened (Pbp.getPbpSfo a.stack (some [])) a.pbpSfo
    if sfoSize < 0 then some none
    else do
      let buffer ← buffer
      let (_, discid) ← Sfo.getSfoString buffer (bytes "DISC_ID") a.discid 12
      let discid ←
        if pbpType = Pbp.PbpType.npumdimg.code then Files.strncpyInto discid subdir 11 else some discid
      some (some { contentid := stringOf (file.contentId.take 0x30), discid := stringOf discid })

/-- `promoteCma(PSP_TEMP, discid, SCE_PKG_TYPE_PSP)` is given all of `PSP_TEMP`. -/
def promoteCma (a : PspAnswers) : RefreshM ℤ := promoteWith a.promoter pspTemp

def settle (a : PspAnswers) (path game : Path) (promote : ℤ) : RefreshM PUnit :=
  if promote = 0 then addRefreshed
  else do
    sceIoRename a.renameBack game path
    emit (.removePath pspTemp a.removePath)

/-- From the first rename to the removal of `PSP_TEMP`. -/
def moveGame (a : PspAnswers) (path game : Path) : RefreshM PUnit := do
  sceIoRename a.renameToTemp path game
  let promote ← promoteCma a
  settle a path game promote

def promoteGame (a : PspAnswers) (path : Path) (ids : GameIds) (cached : ℤ × Option (List Byte)) :
    PspM PUnit := do
  ofRefresh (runAll (sceIoMkdir a) promoteDirs)
  ofRefresh (prepareLicense a ids.contentid)
  ofRefresh (sceIoRemove a.sceIoRemove (path ++ [sceEbootpbp]))
  let ebootGen ← genSceEbootpbp a path
  ofRefresh (moveGame a path (pspTemp ++ promoteGameFolder ids.discid))
  ofRefresh (restoreSignature a path cached ebootGen)

def pspCallback (a : PspAnswers) (dir : Path) (subdir : CStr) : PspM PUnit := do
  let s ← get
  if s.refreshPass then
    if a.refreshNeeded then do
      let (pbpType, _) ← ofOption (opened (Pbp.getPbpType a.stack (some [])) a.pbpType)
      if pbpType ≠ Pbp.PbpType.unknown.code then do
        let cached ← ofRefresh (cacheFile a.cache (dir ++ [subdir] ++ [sceEbootpbp]))
        let ids ← ofOption (gameIds a pbpType subdir)
        match ids with
        | none => pure ⟨⟩
        | some ids => promoteGame a (dir ++ [subdir]) ids cached
      else pure ⟨⟩
    else pure ⟨⟩
  else ofRefresh addCount

end VitaConnect.Refresh.Psp
