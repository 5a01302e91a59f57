import VitaConnect.Ftp.Path
import VitaConnect.Ftp.DataConnection
import VitaConnect.Program.Chunked

/-! # File transfers (`send_file`, `receive_file` and the commands RETR, STOR, APPE and REST)

`bytes_read` of `send_file` is unsigned, so a negative answer of `sceIoRead` is a length of at least
`2^31` and the loop goes on. `bytes_recv` of `receive_file` is signed.
-/
namespace VitaConnect.Ftp
open CString Program
set_option autoImplicit false

/-! ## Files -/

def Files.contents (files : Files) (path : Option CStr) : List Byte :=
  (path.bind files).getD []

/-- `SCE_O_TRUNC` empties the file, `SCE_O_CREAT` makes one. -/
def Files.opened (files : Files) (path : Option CStr) : OpenMode → Files
  | .rdonly => files
  | .append => path.elim files fun p => Function.update files p (some (files.contents path))
  | .trunc => path.elim files fun p => Function.update files p (some [])

def Files.written (files : Files) (path : Option CStr) (buf : List Byte) : Files :=
  path.elim files fun p => Function.update files p (some (files.contents path ++ buf))

def Files.removed (files : Files) (path : Option CStr) : Files :=
  path.elim files fun p => Function.update files p none

def setFiles (f : Files → Files) : FtpM PUnit := modify fun s => { s with files := f s.files }

@[simp] theorem setFiles_apply (f : Files → Files) (s : Session) :
    setFiles f s = .ok ⟨⟩ { s with files := f s.files } := rfl

def sceIoOpen (env : Env) (path : Option CStr) (mode : OpenMode) : FtpM ℤ := do
  emit (.open path mode env.sceIoOpen)
  if 0 ≤ env.sceIoOpen then setFiles fun files => files.opened path mode
  pure env.sceIoOpen

theorem sceIoOpen_apply (env : Env) (path : Option CStr) (mode : OpenMode) (s : Session) :
    sceIoOpen env path mode s = .ok env.sceIoOpen { s with
      files := if 0 ≤ env.sceIoOpen then s.files.opened path mode else s.files
      trace := s.trace ++ [.open path mode env.sceIoOpen] } := by
  by_cases h : 0 ≤ env.sceIoOpen <;>
    simp only [sceIoOpen, bind_apply, emit_apply, h, if_true, if_false, setFiles_apply, pure_apply]

/-! ## Sending -/

/-- The length that `client_send_data_raw` is given: `bytes_read` is an `unsigned int`. -/
def unsignedLen (ret : ℤ) : ℕ := (BitVec.ofInt 32 ret).toNat

/-- The loop of `send_file` from the position `pos` of the file; `i` counts the sends. -/
def sendLoop (env : Env) (fd : ℤ) (content : List Byte) :
    List ℤ → ℕ → ℕ → List Byte → FtpM PUnit
  | [], _, _, _ => throw .running
  | ret :: rets, i, pos, buffer => do
    let got := taken (content.drop pos) ret
    emit (.read fd got ret)
    if unsignedLen ret = 0 then pure ⟨⟩
    else
      let buffer' := got ++ buffer.drop got.length
      let client ← getClient
      emit (.dataSend client.transferFd (unsignedLen ret) (buffer'.take (unsignedLen ret))
        (env.sceNetSend i))
      sendLoop env fd content rets (i + 1) (pos + got.length) buffer'

def sendFile (env : Env) (path : Option CStr) : FtpM PUnit := do
  let fd ← sceIoOpen env path .rdonly
  if 0 ≤ fd then
    let s ← get
    emit (.lseek fd s.client.restorePoint)
    match env.malloc with
    | none => clientReply "550 Could not allocate memory."
    | some buffer =>
      clientOpenDataConnection env
      clientReply "150 Opening Image mode data transfer."
      sendLoop env fd (s.files.contents path) env.sceIoRead 0
        (env.sceIoLseek32 s.client.restorePoint) buffer
      emit (.close fd)
      setClient fun c => { c with restorePoint := 0 }
      notification env "Send: " path
      clientReply "226 Transfer completed."
      clientCloseDataConnection
  else
    clientReply "550 File not found."

def cmdRetrFunc (env : Env) : FtpM PUnit := do
  let destPath ← genFtpFullpath env
  sendFile env (getVitaPath destPath)

/-! ## Receiving -/

/-- One received chunk is written to the file; the answer of `sceIoWrite` is not looked at. -/
def writeChunk (env : Env) (fd : ℤ) (path : Option CStr) (i : ℕ) (buf : List Byte) : FtpM PUnit := do
  let client ← getClient
  emit (.dataRecv client.transferFd buf buf.length)
  emit (.write fd buf (env.sceIoWrite i))
  setFiles fun files => files.written path (taken buf (env.sceIoWrite i))

def receiveLoop (env : Env) (fd : ℤ) (path : Option CStr) : ℕ → List Chunk → FtpM PUnit
  | _, [] => do
    let client ← getClient
    emit (.dataRecv client.transferFd [] env.sceNetRecvEnd)
  | i, chunk :: rest => do
    writeChunk env fd path i chunk.val
    receiveLoop env fd path (i + 1) rest

def receiveMode (restorePoint : BitVec 32) : OpenMode := if restorePoint = 0 then .trunc else .append

def receiveFile (env : Env) (path : Option CStr) : FtpM PUnit := do
  let client ← getClient
  let fd ← sceIoOpen env path (receiveMode client.restorePoint)
  if 0 ≤ fd then
    match env.malloc with
    | none => clientReply "550 Could not allocate memory."
    | some _ =>
      clientOpenDataConnection env
      clientReply "150 Opening Image mode data transfer."
      receiveLoop env fd path 0 env.sceNetRecv
      emit (.close fd)
      setClient fun c => { c with restorePoint := 0 }
      if env.sceNetRecvEnd.val = 0 then
        notification env "Received: " path
        clientReply "226 Transfer completed."
      else
        emit (.remove path env.sceIoRemove)
        if 0 ≤ env.sceIoRemove then setFiles fun files => files.removed path
        notification env "Not Received: " path
        clientReply "426 Connection closed; transfer aborted."
      clientCloseDataConnection
  else
    clientReply "550 File not found."

def cmdStorFunc (env : Env) : FtpM PUnit := do
  let destPath ← genFtpFullpath env
  receiveFile env (getVitaPath destPath)

def cmdAppeFunc (env : Env) : FtpM PUnit := do
  setClient fun c => { c with restorePoint := -1 }
  let destPath ← genFtpFullpath env
  receiveFile env (getVitaPath destPath)

/-- `sscanf(recv_buffer, "%*[^ ] %d", ...)` -/
def restScan (line : CStr) : Option ℤ :=
  match scanSet [space] line with
  | none => none
  | some word => (scanInt (line.drop word.length)).map Prod.fst

def restReply (restorePoint : BitVec 32) : CStr :=
  bytes "350 Resuming at " ++ intDec restorePoint.toInt ++ eol

def cmdRestFunc : FtpM PUnit := do
  let client ← getClient
  match ofBuffer client.recvBuffer with
  | none => throw (.fault (.unterminated .recvBuffer))
  | some line =>
    let restorePoint := ((restScan line).map (BitVec.ofInt 32)).getD client.restorePoint
    setClient fun c => { c with restorePoint := restorePoint }
    store .restCmd (restReply restorePoint)
    clientSendCtrlMsg (restReply restorePoint)

end VitaConnect.Ftp
