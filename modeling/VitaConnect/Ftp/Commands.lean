import VitaConnect.Ftp.Listing
import VitaConnect.Ftp.Transfer

/-! # The other command handlers and the dispatch table (`cmd_dispatch_table`, `get_dispatch_func`)

`Verb` has one constructor for each of the 24 entries of the table, and `runVerb` is the handler.
-/
namespace VitaConnect.Ftp
open CString Program
set_option autoImplicit false

/-! ## Handlers that only reply -/

def cmdNoopFunc : FtpM PUnit := clientReply "200 No operation ;)"

def cmdUserFunc : FtpM PUnit := clientReply "331 Username OK, need password b0ss."

def cmdPassFunc : FtpM PUnit := clientReply "230 User logged in!"

def cmdQuitFunc : FtpM PUnit :=
  clientReply ("221 #########################\r\n221 ##\tGoodbye senpai :'(\t##\r\n" ++
    "221 #########################")

def cmdSystFunc : FtpM PUnit := clientReply "215 UNIX Type: L8"

def cmdFeatFunc : FtpM PUnit := do
  clientReply "211-extensions"
  clientReply " REST STREAM"
  clientReply " UTF8"
  clientReply "211 end"

def cmdOptsFunc : FtpM PUnit := clientReply "501 bad OPTS"

/-- `sscanf(args, "%c %s", &data_type, format_control)` with the format control it stores. -/
def formatControl (args : CStr) : Option CStr := (scanToken args.tail).map Prod.fst

def cmdTypeFunc : FtpM PUnit := do
  let client ← getClient
  match client.recvCmdArgs with
  | [] => clientReply "504 Error: bad parameters?"
  | dataType :: rest =>
    storeScanned .formatControl (formatControl (dataType :: rest))
    if dataType = 65 ∨ dataType = 73 then clientReply "200 Okay"
    else clientReply "504 Error: bad parameters?"

/-! ## Files and directories -/

/-- The part of `p` behind `d`, when `p` is `d` or lies below it. -/
def below (d p : CStr) : Option CStr :=
  if p = d then some []
  else if (d ++ [slash]).isPrefixOf p then some (p.drop d.length)
  else none

def Files.renamed (files : Files) (src : CStr) (dst : Option CStr) : Files :=
  dst.elim files fun d p =>
    match below d p with
    | some rest => files (src ++ rest)
    | none => if (below src p).isSome then none else files p

def deleteFile (env : Env) (path : Option CStr) : FtpM PUnit := do
  emit (.remove path env.sceIoRemove)
  if 0 ≤ env.sceIoRemove then
    setFiles fun files => files.removed path
    notification env "File(s) Deleted: " path
    clientReply "226 File deleted."
  else
    clientReply "550 Could not delete the file."

def cmdDeleFunc (env : Env) : FtpM PUnit := do
  let destPath ← genFtpFullpath env
  deleteFile env (getVitaPath destPath)

def directoryIsNotEmpty : BitVec 32 := 0x8001005A

def deleteDir (env : Env) (path : Option CStr) : FtpM PUnit := do
  emit (.rmdir path env.sceIoRmdir)
  if 0 ≤ env.sceIoRmdir then
    notification env "Directory Deleted: " path
    clientReply "226 Directory deleted."
  else if BitVec.ofInt 32 env.sceIoRmdir = directoryIsNotEmpty then
    clientReply "550 Directory is not empty."
  else
    clientReply "550 Could not delete the directory."

def cmdRmdFunc (env : Env) : FtpM PUnit := do
  let destPath ← genFtpFullpath env
  deleteDir env (getVitaPath destPath)

def createDir (env : Env) (path : Option CStr) : FtpM PUnit := do
  emit (.mkdir path env.sceIoMkdir)
  if 0 ≤ env.sceIoMkdir then
    notification env "Directory Created: " path
    clientReply "226 Directory created."
  else
    clientReply "550 Could not create the directory."

def cmdMkdFunc (env : Env) : FtpM PUnit := do
  let destPath ← genFtpFullpath env
  createDir env (getVitaPath destPath)

def cmdRnfrFunc (env : Env) : FtpM PUnit := do
  let pathSrc ← genFtpFullpath env
  if fileExists env (getVitaPath pathSrc) then
    match getVitaPath pathSrc with
    | none => throw (.fault .nullString)
    | some vitaPathSrc =>
      store .renamePath vitaPathSrc
      setClient fun c => { c with renamePath := vitaPathSrc }
      clientReply "350 I need the destination name b0ss."
  else
    clientReply "550 The file doesn't exist."

/-- `NOTIFICATION("Renamed: %s To %s", ...)` -/
def renameNotification (env : Env) (src : CStr) (dst : Option CStr) : FtpM PUnit :=
  if env.notifsOn then
    match baseName (some src), baseName dst with
    | some old, some new =>
      emit (.notification (snprintf 256 (bytes "Renamed: " ++ old ++ bytes " To " ++ new)))
    | _, _ => throw (.fault .nullString)
  else pure ⟨⟩

def cmdRntoFunc (env : Env) : FtpM PUnit := do
  let pathDst ← genFtpFullpath env
  let client ← getClient
  emit (.rename client.renamePath (getVitaPath pathDst) env.sceIoRename)
  if env.sceIoRename < 0 then
    clientReply "550 Error renaming the file."
  else
    setFiles fun files => files.renamed client.renamePath (getVitaPath pathDst)
  renameNotification env client.renamePath (getVitaPath pathDst)
  clientReply "226 Rename completed."

def sizeReply (size : BitVec 64) : CStr := bytes "213 " ++ intDec size.toInt ++ eol

def cmdSizeFunc (env : Env) : FtpM PUnit := do
  let path ← genFtpFullpath env
  match env.sceIoGetstat (getVitaPath path) with
  | none => clientReply "550 The file doesn't exist."
  | some stat =>
    store .sizeCmd (sizeReply stat.stSize)
    clientSendCtrlMsg (sizeReply stat.stSize)

/-! ## Dispatch -/

inductive Verb
  | noop | user | pass | quit | syst | pasv | port | list | pwd | cwd | type | cdup
  | retr | stor | dele | rmd | mkd | rnfr | rnto | size | rest | feat | opts | appe
  deriving DecidableEq

def cmdDispatchTable : List (CStr × Verb) :=
  [(bytes "NOOP", .noop), (bytes "USER", .user), (bytes "PASS", .pass), (bytes "QUIT", .quit),
    (bytes "SYST", .syst), (bytes "PASV", .pasv), (bytes "PORT", .port), (bytes "LIST", .list),
    (bytes "PWD", .pwd), (bytes "CWD", .cwd), (bytes "TYPE", .type), (bytes "CDUP", .cdup),
    (bytes "RETR", .retr), (bytes "STOR", .stor), (bytes "DELE", .dele), (bytes "RMD", .rmd),
    (bytes "MKD", .mkd), (bytes "RNFR", .rnfr), (bytes "RNTO", .rnto), (bytes "SIZE", .size),
    (bytes "REST", .rest), (bytes "FEAT", .feat), (bytes "OPTS", .opts), (bytes "APPE", .appe)]

inductive DispatchFunc
  | builtin (verb : Verb)
  | custom (slot : ℕ)
  deriving DecidableEq

/-- `custom` holds the names of the valid slots of `custom_command_dispatchers`. -/
def getDispatchFunc (custom : List (Option CStr)) (cmd : CStr) : Option DispatchFunc :=
  match cmdDispatchTable.find? (·.1 == cmd) with
  | some entry => some (.builtin entry.2)
  | none => (custom.findIdx? (· == some cmd)).map .custom

def runVerb (env : Env) : Verb → FtpM PUnit
  | .noop => cmdNoopFunc
  | .user => cmdUserFunc
  | .pass => cmdPassFunc
  | .quit => cmdQuitFunc
  | .syst => cmdSystFunc
  | .pasv => cmdPasvFunc env
  | .port => cmdPortFunc env
  | .list => cmdListFunc env
  | .pwd => cmdPwdFunc
  | .cwd => cmdCwdFunc env
  | .type => cmdTypeFunc
  | .cdup => cmdCdupFunc
  | .retr => cmdRetrFunc env
  | .stor => cmdStorFunc env
  | .dele => cmdDeleFunc env
  | .rmd => cmdRmdFunc env
  | .mkd => cmdMkdFunc env
  | .rnfr => cmdRnfrFunc env
  | .rnto => cmdRntoFunc env
  | .size => cmdSizeFunc env
  | .rest => cmdRestFunc
  | .feat => cmdFeatFunc
  | .opts => cmdOptsFunc
  | .appe => cmdAppeFunc env

end VitaConnect.Ftp
