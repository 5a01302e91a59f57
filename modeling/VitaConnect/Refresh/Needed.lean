import VitaConnect.CString.Memory
import VitaConnect.Files.Split
import VitaConnect.Pbp.Reads
import VitaConnect.Pfs.Mount
import VitaConnect.Promoter.Installer
import VitaConnect.Refresh.Dlc
import VitaConnect.Sfo.Buffer

/-! # Is a refresh needed (`refreshNeeded` of `refresh.c`, `allocateReadFile` of `file.c`)

The function collects a title id, a content id and a version in three arrays, looks for the title, and goes
on by the type of the content. What `getSfoString` answers is not looked at: an array that it does not set
keeps what its memory held. A read behind the end of a buffer ends the call with a fault.
-/
namespace VitaConnect.Refresh
open CString Program
set_option autoImplicit false

/-! ## Data -/

inductive ContentType
  | app | dlc | patch | psm | psp
  deriving DecidableEq

structure ReadAnswers where
  sceIoOpen : ℤ
  /-- What the read leaves in the memory that `malloc` answers, if it answers any. -/
  malloc : Option (List Byte)
  sceIoRead : ℤ

/-- The three arrays, each with the memory behind it. -/
structure Ids where
  titleid : List Byte
  contentid : List Byte
  appver : List Byte

structure NeededAnswers where
  /-- What the arrays hold before anything is stored in them. -/
  unset : Ids
  /-- The same of `promoted_appver`. -/
  promotedAppver : List Byte
  allocateReadFile : CStr → ReadAnswers
  /-- `sceIoOpen` for the functions that only look for a file. -/
  sceIoOpen : CStr → ℤ
  sceIoLseek : CStr → ℤ
  promoter : Promoter.Answers
  /-- The value of `scePromoterUtilityCheckExist`, and what it stores. -/
  checkExist : CStr → ℤ × Option ℤ
  rifName : CStr
  fixedRifName : CStr
  pfs : Pfs.Answers
  /-- The memory that `malloc` answers `getFilename`, if it answers any. -/
  mallocFilename : Option (ℕ → Byte)
  stack : Pbp.Stack
  pbpType : Pbp.Reading
  pbpContentId : Pbp.Reading
  pbpSfo : Pbp.Reading
  vshNpDrmEbootSigVerify : ℤ

inductive ReadFault
  /-- A read of the null pointer or behind the end of a buffer. -/
  | outOfBounds
  deriving DecidableEq

abbrev NeededM := EStateM ReadFault Pfs.Globals

/-! ## Files -/

def noMemory : ℤ := 0xF0010001 - 0x100000000

/-- The answer, and what is in `*buffer`. -/
def allocateReadFile (r : ReadAnswers) : ℤ × Option (List Byte) :=
  if r.sceIoOpen < 0 then (r.sceIoOpen, none)
  else
    match r.malloc with
    | none => (noMemory, none)
    | some buffer => (r.sceIoRead, some buffer)

def checkFileExist (a : NeededAnswers) (file : CStr) : Bool := 0 ≤ a.sceIoOpen file

def getFileSize (a : NeededAnswers) (file : CStr) : ℤ :=
  if a.sceIoOpen file < 0 then a.sceIoOpen file else a.sceIoLseek file

def strupr (s : CStr) : CStr := s.map fun b => if 97 ≤ b ∧ b ≤ 122 then b - 32 else b

/-! ## The ids -/

def paramPath (appPath : CStr) : CStr :=
  snprintf maxPathLength (appPath ++ bytes "/sce_sys/param.sfo")

/-- `allocateReadFile` for the param.sfo of the directory. -/
def readParam (a : NeededAnswers) (appPath : CStr) : ℤ × Option (List Byte) :=
  allocateReadFile (a.allocateReadFile (paramPath appPath))

/-- What the three calls of `getSfoString` leave in the arrays. -/
def sfoIds (unset : Ids) (buffer : List Byte) : Option Ids := do
  let (_, titleid) ← Sfo.getSfoString buffer (bytes "TITLE_ID") unset.titleid 12
  let (_, contentid) ← Sfo.getSfoString buffer (bytes "CONTENT_ID") unset.contentid 50
  let (_, appver) ← Sfo.getSfoString buffer (bytes "APP_VER") unset.appver 8
  some { titleid, contentid, appver }

/-- For an app, a dlc or a patch. There are no ids when `refreshNeeded` returns 0 at once. -/
def paramIds (a : NeededAnswers) (appPath : CStr) : Option (Option Ids) :=
  let (sfoSize, buffer) := readParam a appPath
  if sfoSize < 0 then some none
  else do
    let buffer ← buffer
    let ids ← sfoIds a.unset buffer
    some (some ids)

def psmIds (a : NeededAnswers) (appPath : CStr) : Option (Option Ids) :=
  let path := snprintf maxPathLength (appPath ++ bytes "/RW/System/content_id")
  let (contentidSize, cidFile) := allocateReadFile (a.allocateReadFile path)
  if contentidSize ≠ 48 then some none
  else do
    let cidFile ← cidFile
    let titleid ← strncpy 9 (cidFile.drop 7)
    let contentid ← strncpy 49 cidFile
    some (some {
      titleid := titleid ++ List.replicate 3 0
      contentid := contentid ++ [0]
      appver := List.replicate 8 0 })

/-- A function of `pbp.h`, with the file as it leaves it. -/
def opened {α : Type} (x : Pbp.PbpM α) (file : Pbp.Reading) : Option (α × Pbp.Reading) :=
  match x file with
  | .ok res file => some (res, file)
  | .error _ _ => none

def ebootPath (appPath : CStr) : CStr := snprintf maxPathLength (appPath ++ bytes "/EBOOT.PBP")

/-- `TITLEID_FMT_CHECK` compares the name with itself, since `strupr` works in place. -/
def pspIds (a : NeededAnswers) (appPath : CStr) : Option (Option Ids) :=
  match (Files.getFilename a.mallocFilename appPath).map stringOf with
  | none => some none
  | some appDirectory =>
    if appDirectory.length ≠ 9 then some none
    else do
      let titleid := strupr appDirectory ++ List.replicate 3 0
      let path := some (ebootPath appPath)
      let (pbpType, _) ← opened (Pbp.getPbpType a.stack path) a.pbpType
      if pbpType = Pbp.PbpType.unknown.code then some none
      else do
        let (res, file) ← opened (Pbp.getPbpContentId a.stack path)
          { a.pbpContentId with contentId := List.replicate 50 0 }
        if res = 0 then some none
        else do
          let ((sfoSize, buffer), _) ← opened (Pbp.getPbpSfo a.stack path) a.pbpSfo
          if sfoSize ≤ 0 then some none
          else do
            let buffer ← buffer
            let titleid ←
              if pbpType = Pbp.PbpType.psisoimg.code ∨ pbpType = Pbp.PbpType.pstitleimg.code then
                (Sfo.getSfoString buffer (bytes "DISC_ID") titleid 12).map Prod.snd
              else some titleid
            let (_, appver) ← Sfo.getSfoString buffer (bytes "APP_VER") (List.replicate 8 0) 8
            let appver := if stringOf appver = [] then bytes "01.00" ++ List.replicate 3 0 else appver
            some (some { titleid, contentid := file.contentId, appver })

def readIds (a : NeededAnswers) (appPath : CStr) : ContentType → Option (Option Ids)
  | .psm => psmIds a appPath
  | .psp => pspIds a appPath
  | _ => paramIds a appPath

/-! ## The types of content -/

def bounded {α : Type} : Option α → NeededM α
  | some x => pure x
  | none => throw .outOfBounds

/-- `checkAppExist(titleid)`, which counts as true when it is not 0. -/
def appExists (a : NeededAnswers) (titleid : CStr) : Bool :=
  (Promoter.checkAppExist titleid a.promoter (a.checkExist titleid).1 (a.checkExist titleid).2).ret ≠ 0

def rifPath (type : ContentType) (ids : Ids) (rifName : CStr) : CStr :=
  snprintf maxPathLength <|
    if type = .app then bytes "ux0:license/app/" ++ stringOf ids.titleid ++ slash :: rifName
    else bytes "ux0:license/addcont/" ++ stringOf ids.titleid ++
      slash :: (stringOf (ids.contentid.drop 20) ++ slash :: rifName)

/-- The app or dlc has the licence file of the account, or the fixed one. -/
def licensed (a : NeededAnswers) (type : ContentType) (ids : Ids) : Bool :=
  checkFileExist a (rifPath type ids a.rifName) || checkFileExist a (rifPath type ids a.fixedRifName)

def appmetaPath (titleid : CStr) : CStr := snprintf maxPathLength (bytes "ux0:appmeta/" ++ titleid)

def appmetaParam (titleid : CStr) : CStr :=
  snprintf maxPathLength (bytes "ux0:appmeta/" ++ titleid ++ bytes "/param.sfo")

def readAppmeta (a : NeededAnswers) (titleid : CStr) : ℤ × Option (List Byte) :=
  allocateReadFile (a.allocateReadFile (appmetaParam titleid))

/-- The version in the param.sfo of the appmeta. -/
def promotedAppver (a : NeededAnswers) (buffer : Option (List Byte)) : Option CStr := do
  let buffer ← buffer
  let (_, appver) ← Sfo.getSfoString buffer (bytes "APP_VER") a.promotedAppver 8
  some (stringOf appver)

/-- The part behind `pfsMount`. -/
def compareVersions (a : NeededAnswers) (ids : Ids) : NeededM ℤ :=
  let (sfoSize, buffer) := readAppmeta a (stringOf ids.titleid)
  if sfoSize < 0 then pure sfoSize
  else do
    let promoted ← bounded (promotedAppver a buffer)
    let _ ← Pfs.pfsUmount a.pfs
    pure (if stringOf ids.appver = promoted then 0 else 1)

/-- The patch of a title that exists. -/
def patchNeeded (a : NeededAnswers) (ids : Ids) : NeededM ℤ := do
  let _ ← Pfs.pfsUmount a.pfs
  let mounted ← Pfs.pfsMount a.pfs (appmetaPath (stringOf ids.titleid))
  if mounted < 0 then pure 0 else compareVersions a ids

/-- The psp title that exists: is the signature of its `EBOOT.PBP` missing or invalid. -/
def pspNeeded (a : NeededAnswers) (appPath : CStr) : ℤ :=
  let sceEbootpbp := snprintf maxPathLength (appPath ++ bytes "/__sce_ebootpbp")
  if getFileSize a (ebootPath appPath) < 0 then 0
  else if 0 ≤ getFileSize a sceEbootpbp then (if a.vshNpDrmEbootSigVerify < 0 then 1 else 0)
  else 1

def neededFor (a : NeededAnswers) (appPath : CStr) (type : ContentType) (ids : Ids) : NeededM ℤ :=
  let titleid := stringOf ids.titleid
  if (type = .app ∨ type = .dlc) ∧ appExists a titleid then
    pure (if licensed a type ids then 0 else 1)
  else if type = .patch then
    if appExists a titleid = false then pure 0
    else if checkFileExist a (paramPath appPath) then patchNeeded a ids
    else pure 1
  else if (type = .psm ∨ type = .psp) ∧ appExists a titleid then
    pure (if type = .psp then pspNeeded a appPath else 0)
  else pure 1

def refreshNeeded (a : NeededAnswers) (appPath : CStr) (type : ContentType) : NeededM ℤ := do
  let ids ← bounded (readIds a appPath type)
  match ids with
  | none => pure 0
  | some ids => neededFor a appPath type ids

/-! ## The branches -/

/-- The answer of `pfsMount` for the appmeta. -/
def mountAnswer (a : NeededAnswers) (titleid : CStr) : ℤ :=
  (a.pfs.outcome (appmetaPath titleid) Pfs.knownPfsIds).1

section Branches
variable {a : NeededAnswers} {appPath : CStr} {type : ContentType} {ids : Ids} {s t : Pfs.Globals} {res : ℤ}

theorem bounded_ok {α : Type} {x : Option α} {y : α} (h : bounded x s = .ok y t) : x = some y ∧ s = t := by
  cases x with
  | none => cases h
  | some z =>
    cases h
    exact ⟨rfl, rfl⟩

/-- A branch that only returns a value. -/
theorem eq_of_pure {z : ℤ} (h : (pure z : NeededM ℤ) s = .ok res t) : z = res ∧ s = t := by
  cases h
  exact ⟨rfl, rfl⟩

theorem neededFor_patch : neededFor a appPath .patch ids =
    if appExists a (stringOf ids.titleid) = false then pure 0
    else if checkFileExist a (paramPath appPath) then patchNeeded a ids else pure 1 := by
  simp [neededFor]

theorem neededFor_vita (h : type = .app ∨ type = .dlc) : neededFor a appPath type ids =
    pure (if appExists a (stringOf ids.titleid) = true ∧ licensed a type ids = true then 0 else 1) := by
  rcases h with rfl | rfl <;>
    cases hexists : appExists a (stringOf ids.titleid) <;>
    simp [neededFor, hexists]

theorem neededFor_of_ne_patch (h : type ≠ .patch) : ∃ z, neededFor a appPath type ids = pure z := by
  simp only [neededFor, h, if_false]
  split_ifs <;> exact ⟨_, rfl⟩

/-- The patch branch up to `pfsMount`, and the mount that it holds then. -/
theorem patchNeeded_mounted (a : NeededAnswers) (ids : Ids) (s : Pfs.Globals) :
    ∃ t, (s.Released → t.Holds (a.pfs.granted (appmetaPath (stringOf ids.titleid)))) ∧
      patchNeeded a ids s =
        if mountAnswer a (stringOf ids.titleid) < 0 then .ok 0 t else compareVersions a ids t := by
  obtain ⟨_, u, hu, hreleased⟩ := Pfs.pfsUmount_ok (ε := ReadFault) a.pfs s
  obtain ⟨t, ht, hholds⟩ :=
    Pfs.pfsMount_ok (ε := ReadFault) a.pfs (appmetaPath (stringOf ids.titleid)) u
  refine ⟨t, fun hs => hholds (hreleased none hs), ?_⟩
  rw [patchNeeded, bind_of_ok hu, bind_of_ok ht, ite_run]
  rfl

end Branches

end VitaConnect.Refresh
