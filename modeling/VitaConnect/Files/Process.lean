import VitaConnect.Files.Calls
import VitaConnect.Files.Guard
import VitaConnect.Program.Rounds

/-! # Counting, removing, copying and moving trees (`file.c`)

The recursion of `getPathInfo`, `removePath`, `copyPath` and `movePath` goes down to the entries of a
directory by `newPath`. Its fuel is the number of levels that it can still go down; `maxPathLength` levels
are enough for paths that are shorter than that.
-/
namespace VitaConnect.Files
open CString Program Storage
set_option autoImplicit false

def directorySize : ℕ := 4 * 1024

def transferSize : ℕ := 128 * 1024

def errorInvalidType : ℤ := 0xF0010005 - 0x100000000

/-- `value`, `SetProgress` and `cancelHandler` say whether the pointer is not null. -/
structure FileProcessParam where
  value : Bool
  max : UInt64
  setProgress : Bool
  cancelHandler : Bool

section Process
variable (env : Env)

/-- The block that follows every piece of work: whether it has been cancelled. -/
def progress (param : Option FileProcessParam) (amount : ℕ) : FileM Bool := do
  match param with
  | none => pure false
  | some param =>
    if param.value then modify fun w => { w with value := w.value + UInt64.ofNat amount }
    if param.setProgress then
      modify fun w => { w with shown := w.shown ++ [(if param.value then w.value else 0, param.max)] }
    if param.cancelHandler then cancelHandler env else pure false

/-! ## `getPathInfo` -/

/-- Which of the three pointers are not null. -/
structure InfoPointers where
  size : Bool
  folders : Bool
  files : Bool

def PathInfo.addSize (ptrs : InfoPointers) (size : ℕ) (info : PathInfo) : PathInfo :=
  if ptrs.size then { info with size := info.size + UInt64.ofNat size } else info

def PathInfo.addFolder (ptrs : InfoPointers) (info : PathInfo) : PathInfo :=
  if ptrs.folders then { info with folders := info.folders + 1 } else info

def PathInfo.addFile (ptrs : InfoPointers) (info : PathInfo) : PathInfo :=
  if ptrs.files then { info with files := info.files + 1 } else info

def editInfo (f : PathInfo → PathInfo) : FileM PUnit := modify fun w => { w with info := f w.info }

/-- The handler is a null pointer, or skips paths. -/
def getPathInfo (handler : Option (CStr → Bool)) (ptrs : InfoPointers) : ℕ → CStr → FileM ℤ
  | 0, _ => throw .running
  | fuel + 1, path => do
    match ← sceIoDopen env path with
    | .ok entries =>
      let ret ← untilRefused (fun (dir : DirEntry) => do
        let newPath := newPath path dir.name.1
        if handler.any (· newPath) then pure 1
        else if dir.isDir then getPathInfo handler ptrs fuel newPath
        else
          editInfo fun info => (info.addSize ptrs dir.size).addFile ptrs
          pure 1) entries
      if ret ≤ 0 then pure ret
      else
        editInfo (PathInfo.addFolder ptrs)
        pure 1
    | .error _ =>
      if handler.any (· path) then pure 1
      else if ptrs.size then
        match ← sceIoGetstat env path with
        | .error code => pure code.1
        | .ok (_, size) =>
          editInfo fun info => (info.addSize ptrs size).addFile ptrs
          pure 1
      else
        editInfo (PathInfo.addFile ptrs)
        pure 1

/-! ## `removePath` -/

/-- A file inside the tree, and a path that is no directory. -/
def removeFileAt (param : Option FileProcessParam) (path : CStr) : FileM ℤ := do
  let ret ← sceIoRemove env path
  if ret < 0 then pure ret
  else if ← progress env param 1 then pure 0
  else pure 1

def removePath (param : Option FileProcessParam) : ℕ → CStr → FileM ℤ
  | 0, _ => throw .running
  | fuel + 1, path => do
    match ← sceIoDopen env path with
    | .ok entries =>
      let ret ← untilRefused (fun (dir : DirEntry) =>
        let newPath := newPath path dir.name.1
        if dir.isDir then removePath param fuel newPath else removeFileAt env param newPath) entries
      if ret ≤ 0 then pure ret
      else
        let ret ← sceIoRmdir env path
        if ret < 0 then pure ret
        else if ← progress env param 1 then pure 0
        else pure 1
    | .error _ => removeFileAt env param path

/-! ## `copyFile` -/

/-- The positions are those of the two descriptors. -/
def copyLoop (fdsrc fddst : Loc) (dstPath : CStr) (param : Option FileProcessParam) :
    ℕ → ℕ → ℕ → FileM ℤ
  | 0, _, _ => throw .running
  | fuel + 1, readPos, writePos => do
    match ← sceIoRead env fdsrc readPos transferSize with
    | .error code =>
      let _ ← sceIoRemove env dstPath
      pure code.1
    | .ok buf =>
      if buf = [] then pure 1
      else
        match ← sceIoWrite env fddst writePos buf with
        | .error code =>
          let _ ← sceIoRemove env dstPath
          pure code.1
        | .ok written =>
          if ← progress env param buf.length then
            let _ ← sceIoRemove env dstPath
            pure 0
          else copyLoop fdsrc fddst dstPath param fuel (readPos + buf.length) (writePos + written)

/-- A read that does not deliver anything ends the loop, so its fuel lasts. -/
def copyFile (param : Option FileProcessParam) (srcPath dstPath : CStr) : FileM ℤ := do
  match guard srcPath dstPath with
  | some code => pure code
  | none =>
    match ← sceIoOpenRead env srcPath with
    | .error code => pure code.1
    | .ok fdsrc =>
      match ← sceIoOpenWrite env true dstPath with
      | .error code => pure code.1
      | .ok fddst =>
        let w ← get
        copyLoop env fdsrc fddst dstPath param ((contentAt w.disk fdsrc).length + 1) 0 0

/-! ## `copyPath` -/

def copyPath (param : Option FileProcessParam) : ℕ → CStr → CStr → FileM ℤ
  | 0, _, _ => throw .running
  | fuel + 1, srcPath, dstPath => do
    match guard srcPath dstPath with
    | some code => pure code
    | none =>
      match ← sceIoDopen env srcPath with
      | .ok entries =>
        let ret ← sceIoMkdir env dstPath
        if ret < 0 ∧ ret ≠ eexist.1 then pure ret
        else if ← progress env param directorySize then pure 0
        else
          untilRefused (fun (dir : DirEntry) =>
            let newSrcPath := newPath srcPath dir.name.1
            let newDstPath := newPath dstPath dir.name.1
            if dir.isDir then copyPath param fuel newSrcPath newDstPath
            else copyFile env param newSrcPath newDstPath) entries
      | .error _ => copyFile env param srcPath dstPath

/-! ## `movePath` -/

def moveIntegrate : UInt32 := 0x1

def moveReplace : UInt32 := 0x2

def movePath (flags : UInt32) : ℕ → CStr → CStr → FileM ℤ
  | 0, _, _ => throw .running
  | fuel + 1, srcPath, dstPath => do
    match guard srcPath dstPath with
    | some code => pure code
    | none =>
      let res ← sceIoRename env srcPath dstPath
      if res = eexist.1 ∧ flags &&& (moveIntegrate ||| moveReplace) ≠ 0 then
        match ← sceIoGetstat env srcPath with
        | .error code => pure code.1
        | .ok (srcIsDir, _) =>
          match ← sceIoGetstat env dstPath with
          | .error code => pure code.1
          | .ok (dstIsDir, _) =>
            if srcIsDir ≠ dstIsDir then pure errorInvalidType
            else if ¬ srcIsDir ∧ ¬ dstIsDir ∧ flags &&& moveReplace ≠ 0 then
              let _ ← sceIoRemove env dstPath
              let res ← sceIoRename env srcPath dstPath
              if res < 0 then pure res else pure 1
            else if srcIsDir ∧ dstIsDir ∧ flags &&& moveIntegrate ≠ 0 then
              match ← sceIoDopen env srcPath with
              | .error code => pure code.1
              | .ok entries =>
                let ret ← untilRefused (fun (dir : DirEntry) =>
                  movePath flags fuel (newPath srcPath dir.name.1) (newPath dstPath dir.name.1)) entries
                if ret ≤ 0 then pure ret
                else
                  let _ ← sceIoRmdir env srcPath
                  pure 1
            else pure 1
      else pure 1

end Process
end VitaConnect.Files
