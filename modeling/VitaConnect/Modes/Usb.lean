import VitaConnect.CString.Basic
import Mathlib.Data.Fin.VecNotation

/-! # The USB storage session (`startUsb`, `stopUsb`)

The answer of a function is what it returns and the calls it has made. A session is started from a
`sceUsbstorVStorStart` that succeeds to the next `sceUsbstorVStorStop` that succeeds.
-/
namespace VitaConnect.Modes
open CString
set_option autoImplicit false

inductive UsbCall
  | destroyOtherApp
  | loadStartModule (path : CStr) (ret : ℤ)
  | stopUnloadModule (modid : ℤ) (ret : ℤ)
  | mtpStopDriver (ret : ℤ)
  | mtpStartDriver (ret : ℤ)
  | vstorSetDeviceInfo (ret : ℤ)
  | vstorSetImgFilePath (path : CStr) (ret : ℤ)
  | vstorStart (ret : ℤ)
  | vstorStop (ret : ℤ)
  | remount (id : ℕ)

structure StartAnswers where
  loadStartModule : ℤ
  mtpStopDriver : ℤ
  vstorSetDeviceInfo : ℤ
  vstorSetImgFilePath : ℤ
  vstorStart : ℤ
  mtpStartDriver : ℤ
  stopUnloadModule : ℤ

structure StopAnswers where
  vstorStop : ℤ
  mtpStartDriver : ℤ
  stopUnloadModule : ℤ
  folderExist : CStr → Bool

def usbDevicePath : CStr := bytes "ur0:QuickMenuReborn/VitaConnectEverywhere/usbdevice.skprx"

/-- 0x8054360C, which `startUsb` takes for a driver that does not run. -/
def mtpNotRunning : ℤ := 0x8054360C - 0x100000000

def errorStopDriver (a : StartAnswers) : List UsbCall :=
  [.stopUnloadModule a.loadStartModule a.stopUnloadModule]

def errorUsbstorVstor (a : StartAnswers) : List UsbCall :=
  .mtpStartDriver a.mtpStartDriver :: errorStopDriver a

def startUsb (imgFilePath : CStr) (a : StartAnswers) : ℤ × List UsbCall :=
  let calls := [.destroyOtherApp, .loadStartModule usbDevicePath a.loadStartModule]
  if a.loadStartModule < 0 then (a.loadStartModule, calls)
  else
    let calls := calls ++ [.mtpStopDriver a.mtpStopDriver]
    if a.mtpStopDriver < 0 ∧ a.mtpStopDriver ≠ mtpNotRunning then
      (a.mtpStopDriver, calls ++ errorStopDriver a)
    else
      let calls := calls ++ [.vstorSetDeviceInfo a.vstorSetDeviceInfo]
      if a.vstorSetDeviceInfo < 0 then (a.vstorSetDeviceInfo, calls ++ errorUsbstorVstor a)
      else
        let calls := calls ++ [.vstorSetImgFilePath imgFilePath a.vstorSetImgFilePath]
        if a.vstorSetImgFilePath < 0 then (a.vstorSetImgFilePath, calls ++ errorUsbstorVstor a)
        else
          let calls := calls ++ [.vstorStart a.vstorStart]
          if a.vstorStart < 0 then (a.vstorStart, calls ++ errorUsbstorVstor a)
          else (a.loadStartModule, calls)

/-- The places that `stopUsb` mounts again. -/
def remounts (folderExist : CStr → Bool) : List UsbCall :=
  [.remount 0x800] ++ (if folderExist (bytes "imc0:") then [.remount 0xD00] else []) ++
    (if folderExist (bytes "xmc0:") then [.remount 0xE00] else []) ++
    if folderExist (bytes "uma0:") then [.remount 0xF00] else []

def stopUsb (modid : ℤ) (a : StopAnswers) : ℤ × List UsbCall :=
  let calls := [.vstorStop a.vstorStop]
  if a.vstorStop < 0 then (a.vstorStop, calls)
  else
    let calls := calls ++ [.mtpStartDriver a.mtpStartDriver]
    if a.mtpStartDriver < 0 then (a.mtpStartDriver, calls)
    else
      let calls := calls ++ [.stopUnloadModule modid a.stopUnloadModule]
      if a.stopUnloadModule < 0 then (a.stopUnloadModule, calls)
      else (0, calls ++ remounts a.folderExist)

/-! ## The session -/

def sessionAfter (started : Bool) : UsbCall → Bool
  | .vstorStart ret => started || decide (0 ≤ ret)
  | .vstorStop ret => started && decide (ret < 0)
  | _ => started

def session (started : Bool) (calls : List UsbCall) : Bool := calls.foldl sessionAfter started

theorem session_append (started : Bool) (p q : List UsbCall) :
    session started (p ++ q) = session (session started p) q :=
  List.foldl_append

theorem session_remounts (started : Bool) (folderExist : CStr → Bool) :
    session started (remounts folderExist) = started := by
  unfold remounts
  simp only [session_append]
  split_ifs <;> rfl

/-- `stopUsb` ends the session when its first call succeeds, and otherwise makes no other call. -/
theorem session_stopUsb (started : Bool) (modid : ℤ) (a : StopAnswers) :
    session started (stopUsb modid a).2 = (started && decide (a.vstorStop < 0)) := by
  unfold stopUsb
  dsimp only
  split_ifs
  · rfl
  · rfl
  · rfl
  · rw [session_append, session_remounts]
    rfl

end VitaConnect.Modes
