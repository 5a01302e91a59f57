import VitaConnect.Ftp.Path
import VitaConnect.Ftp.DataConnection

/-! # Directory listings (`gen_list_format`, `send_LIST`, `cmd_LIST_func`)

The root `/` lists the devices. A name is listed when `file_exists` finds it, and the current path
otherwise; the name is looked up without being joined to the current path.
-/
namespace VitaConnect.Ftp
open CString Program
set_option autoImplicit false

def numToMonth : List String :=
  ["Jan", "Feb", "Mar", "Apr", "May", "Jun", "Jul", "Aug", "Sep", "Oct", "Nov", "Dec"]

/-- `yt`: the hour and minute of this year, or the year. -/
def listTime (currentYear : ℕ) (t : SceDateTime) : CStr :=
  if currentYear = t.year then snprintf 6 (padZero 2 t.hour ++ [58] ++ padZero 2 t.minute)
  else snprintf 6 (padZero 4 t.year)

def monthName (month : ℕ) : CStr :=
  bytes (numToMonth.getD (if month = 0 then 0 else (month - 1) % 12) "")

/-- The size is printed as an `unsigned int`. -/
def genListFormat (currentYear n : ℕ) (dir : Bool) (stat : SceIoStat) (filename : CStr) : CStr :=
  snprintf n ((if dir then bytes "drwxr-xr-x" else bytes "-rw-r--r--") ++
    bytes " 1 vita vita " ++ natDec (stat.stSize.setWidth 32).toNat ++ [space] ++
    monthName stat.stMtime.month ++ [space] ++ padRight 2 stat.stMtime.day ++ [space] ++
    listTime currentYear stat.stMtime ++ [space] ++ filename ++ eol)

/-- The devices that `sceIoGetstat` knows, in table order. -/
def listedDevices (env : Env) : List (Bool × SceIoStat × CStr) :=
  env.deviceList.filterMap fun devname =>
    (env.sceIoGetstat (some devname)).map fun stat => (true, stat, devname)

def listedEntries (env : Env) : List (Bool × SceIoStat × CStr) :=
  env.sceIoDread.map fun dirent => (dirent.isDir, dirent.dStat, dirent.dName)

def sendLines (env : Env) : ℕ → List (Bool × SceIoStat × CStr) → FtpM PUnit
  | _, [] => pure ⟨⟩
  | i, (dir, stat, name) :: rest => do
    clientSendDataMsg env i (genListFormat env.currentYear 512 dir stat name)
    sendLines env (i + 1) rest

def sendList (env : Env) (path : CStr) : FtpM PUnit := do
  if path = [slash] then
    clientReply "150 Opening ASCII mode data transfer for LIST."
    clientOpenDataConnection env
    sendLines env 0 (listedDevices env)
    clientCloseDataConnection
    clientReply "226 Transfer complete."
  else
    let dir := env.sceIoDopen (getVitaPath path)
    emit (.dopen (getVitaPath path) dir)
    if dir < 0 then
      clientReply "550 Invalid directory."
    else
      clientReply "150 Opening ASCII mode data transfer for LIST."
      clientOpenDataConnection env
      sendLines env 0 (listedEntries env)
      emit (.dclose dir)
      clientCloseDataConnection
      clientReply "226 Transfer complete."

def listPath (env : Env) (curPath args : CStr) : CStr :=
  match scanSet argStops args with
  | none => curPath
  | some path => if fileExists env (getVitaPath path) then path else curPath

def cmdListFunc (env : Env) : FtpM PUnit := do
  let client ← getClient
  storeScanned .listPath (scanSet argStops client.recvCmdArgs)
  sendList env (listPath env client.curPath client.recvCmdArgs)

end VitaConnect.Ftp
