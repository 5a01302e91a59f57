import VitaConnect.Ftp.Server
import VitaConnect.Modes.Usb

/-! # The handlers that start and stop the two modes

Each handler is a function on the variables of the plugin, and takes the answers of the system calls
it makes. The cable is read anew by each handler, so that a change of the cable is an answer. A message
thread does its work in two parts with a delay between them; a thread that could not be started is one
that takes no step.
-/
namespace VitaConnect.Modes
open CString Ftp
set_option autoImplicit false

inductive Model
  | vita | vitaTv
  deriving DecidableEq

structure Plugin where
  run : Bool
  sMesg : Bool
  toggle : Bool
  runUsb : ℤ
  onPressedFtp : Bool
  /-- `select_WifiUsb`: FTP is the selected mode. -/
  selectWifiUsb : Bool
  count : Fin 5
  usbdeviceModid : ℤ
  usbdeviceOff : Bool
  refreshOnOff : Bool
  fileBufSize : ℕ
  server : Server
  /-- The message threads in front of their delay, and the ones behind it. -/
  messages : ℕ
  delayed : ℕ
  usbCalls : List UsbCall

structure Cable where
  connected : Bool
  disconnected : Bool

structure Registry where
  wifi : ℤ
  plane : ℤ

def Plugin.start (model : Model) (checkbox : Bool) : Plugin where
  run := false
  sMesg := false
  toggle := false
  runUsb := 0
  onPressedFtp := false
  selectWifiUsb := decide (model = .vita) && checkbox
  count := 0
  usbdeviceModid := -1
  usbdeviceOff := false
  refreshOnOff := false
  fileBufSize := 0
  server := Server.start
  messages := 0
  delayed := 0
  usbCalls := []

/-! ## Starting and stopping -/

def startThread (s : Plugin) : Plugin := { s with messages := s.messages + 1 }

def stopServer (s : Plugin) : Plugin := { s with run := false, server := ftpvitaFini s.server }

/-- `stopUsb(usbdevice_modid)` with the result ignored, as it is everywhere. -/
def stopDevice (a : StopAnswers) (s : Plugin) : Plugin :=
  { s with usbCalls := s.usbCalls ++ (stopUsb s.usbdeviceModid a).2 }

def checkWifiPlane (r : Registry) (s : Plugin) : Plugin :=
  if r.wifi = 0 ∨ r.plane ≠ 0 then startThread (stopServer { s with sMesg := true }) else s

def netDevices : List CStr :=
  ["ux0:", "ur0:", "uma0:", "imc0:", "xmc0:", "gro0:", "grw0:", "os0:", "pd0:", "sa0:", "tm0:", "ud0:",
    "vd0:", "vs0:", "app0:", "savedata0:", "music0:", "photo0:"].map bytes

def addDevices (devices : List CStr) (s : Server) : Server :=
  devices.foldl (fun s devname => (ftpvitaAddDevice devname s).2) s

def doNetConnected (a : InitAnswers) (s : Plugin) : Plugin :=
  let r := ftpvitaInit a s.server
  let s := { s with fileBufSize := 512 * 1024, server := r.2 }
  if 0 ≤ r.1 then
    startThread { s with server := addDevices netDevices r.2, run := true, sMesg := false }
  else s

def mountType : Fin 5 → CStr :=
  ![bytes "MEMORY CARD", bytes "GAME CARD", bytes "SD2VITA", bytes "PSVSD", bytes "UR0"]

/-- The devices that `initUsb` looks for, in its order, when it knows the name. -/
def usbPaths (driverType : CStr) : Option (List CStr) :=
  if driverType = bytes "MEMORY CARD" then
    some [bytes "sdstor0:xmc-lp-ign-userext", bytes "sdstor0:int-lp-ign-userext"]
  else if driverType = bytes "GAME CARD" then some [bytes "sdstor0:gcd-lp-ign-gamero"]
  else if driverType = bytes "SD2VITA" then some [bytes "sdstor0:gcd-lp-ign-entire"]
  else if driverType = bytes "PSVSD" then
    some [bytes "sdstor0:uma-pp-act-a", bytes "sdstor0:uma-lp-act-entire"]
  else if driverType = bytes "UR0" then some [bytes "sdstor0:int-lp-ign-user"]
  else none

def initUsb (fileExist : CStr → Bool) (a : StartAnswers) (s : Plugin) : Plugin :=
  let s := { s with usbdeviceOff := false }
  match usbPaths (mountType s.count) with
  | none => s
  | some paths =>
    match paths.find? fileExist with
    | none => { s with usbdeviceOff := true }
    | some path =>
      let r := startUsb path a
      { s with usbdeviceModid := r.1, usbCalls := s.usbCalls ++ r.2 }

/-! ## The handlers -/

structure PressAnswers where
  registry : Registry
  init : InitAnswers
  stop : StopAnswers
  cable : Cable
  fileExist : CStr → Bool
  start : StartAnswers

/-- What the button does in FTP mode, and on the console without USB mode. -/
def pressServer (a : PressAnswers) (s : Plugin) : Plugin :=
  if s.run then startThread (stopServer s)
  else doNetConnected a.init (checkWifiPlane a.registry s)

def pressUsb (a : PressAnswers) (s : Plugin) : Plugin :=
  let s := if 0 ≤ s.usbdeviceModid then { stopDevice a.stop s with usbdeviceOff := true } else s
  if a.cable.connected then startThread (initUsb a.fileExist a.start s)
  else if a.cable.disconnected then startThread s
  else s

def onPressFtp (model : Model) (a : PressAnswers) (s : Plugin) : Plugin :=
  if s.refreshOnOff then startThread { s with runUsb := 12 }
  else
    let s := { s with onPressedFtp := true }
    match model with
    | .vita =>
      let s := { s with toggle := false }
      if s.selectWifiUsb then pressServer a s else pressUsb a s
    | .vitaTv => pressServer a s

def onPressSelect (model : Model) (s : Plugin) : Plugin :=
  match model with
  | .vita => if s.selectWifiUsb then s else { s with count := s.count + 1 }
  | .vitaTv => s

def onButtonFtpLoad (model : Model) (checkbox : ℤ) (a : StopAnswers) (s : Plugin) : Plugin :=
  match model with
  | .vita =>
    let s := { s with selectWifiUsb := decide (checkbox ≠ 0) }
    if s.selectWifiUsb then
      if 0 ≤ s.usbdeviceModid then stopDevice a s else s
    else if s.run then startThread { stopServer s with toggle := false }
    else s
  | .vitaTv => s

def onToggleCheckBoxFtpUsb (checkbox : ℤ) (a : StopAnswers) (s : Plugin) : Plugin :=
  let s := { s with selectWifiUsb := decide (checkbox ≠ 0) }
  if s.selectWifiUsb then
    if s.usbdeviceOff then s else startThread { stopDevice a s with toggle := true }
  else if s.run then startThread { stopServer s with toggle := true }
  else s

def netctlCb (model : Model) (eventType : ℤ) (a : StopAnswers) (s : Plugin) : Plugin :=
  if (eventType = 1 ∨ eventType = 2 ∨ eventType = 3) ∧ s.runUsb = 0 then
    if s.selectWifiUsb then
      if s.run then startThread { stopServer s with onPressedFtp := true } else s
    else if model = .vita ∧ s.usbdeviceOff = false then
      startThread { stopDevice a s with usbdeviceOff := true }
    else s
  else s

/-- One round of the loop of `vitaConnect_thread`, behind `sceNetCtlCheckCallback`. -/
def monitorTick (r : Registry) (cable : Cable) (a : StopAnswers) (s : Plugin) : Plugin :=
  let s := if s.sMesg then s else checkWifiPlane r s
  if cable.disconnected ∧ s.usbdeviceOff = false ∧ s.selectWifiUsb = false then
    startThread { stopDevice a s with usbdeviceOff := true }
  else s

/-- `thread_user_message` up to its delay. -/
def messageText (model : Model) (s : Plugin) : Plugin :=
  if s.selectWifiUsb ∧ model = .vita then
    if s.toggle then { s with usbdeviceOff := true } else { s with onPressedFtp := false }
  else if model = .vitaTv then { s with onPressedFtp := false }
  else s

inductive Event
  | press (a : PressAnswers)
  | pressSelect
  | buttonLoad (checkbox : ℤ) (a : StopAnswers)
  | toggle (checkbox : ℤ) (a : StopAnswers)
  | netctl (eventType : ℤ) (a : StopAnswers)
  | tick (r : Registry) (cable : Cable) (a : StopAnswers)
  | message
  | messageEnd
  /-- Another button, or the refresh thread, sets `run_USB` and starts a message thread. -/
  | announce (code : ℤ)
  | refreshing (on : Bool)

def Plugin.step (model : Model) (s : Plugin) : Event → Plugin
  | .press a => onPressFtp model a s
  | .pressSelect => onPressSelect model s
  | .buttonLoad checkbox a => onButtonFtpLoad model checkbox a s
  | .toggle checkbox a => onToggleCheckBoxFtpUsb checkbox a s
  | .netctl eventType a => netctlCb model eventType a s
  | .tick r cable a => monitorTick r cable a s
  | .message =>
    match s.messages with
    | 0 => s
    | n + 1 => { messageText model s with messages := n, delayed := s.delayed + 1 }
  | .messageEnd =>
    match s.delayed with
    | 0 => s
    | n + 1 => { s with delayed := n, runUsb := 0 }
  | .announce code => startThread { s with runUsb := code }
  | .refreshing on => { s with refreshOnOff := on }

end VitaConnect.Modes
