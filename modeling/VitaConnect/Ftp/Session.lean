import VitaConnect.Ftp.Commands

/-! # The command loop (`client_thread`)

A round receives one control message of 1 to 512 bytes and runs its command. The verb is scanned
from the buffer into `cmd`, which keeps its old value when the message has no token; the argument
is searched separately and is the whole line when the line has no space. `ftpvita_init` has cleared
`custom_command_dispatchers` and nothing in the program fills it.
-/
namespace VitaConnect.Ftp
open CString Program
set_option autoImplicit false

abbrev Round := List Byte × Env

/-- The buffer of 512 bytes that `sceNetRecv` fills after `memset`. -/
def received (msg : List Byte) : List Byte :=
  (msg ++ List.replicate (512 - msg.length) 0).take 512

/-- `recv_cmd_args`: the text behind the first space, or the line. -/
def cmdArgs (line : CStr) : CStr :=
  match strchr line space with
  | some i => line.drop (i + 1)
  | none => line

/-- The command of the line, when it has one. -/
def scanCmd (line : CStr) : FtpM PUnit :=
  match scanToken line with
  | none => pure ⟨⟩
  | some (token, _) => do
    store .cmd token
    modify fun s => { s with cmd := token }

/-- The loop body of `client_thread` up to the look-up of the handler. -/
def receiveCommand (msg : List Byte) : FtpM (Option DispatchFunc) := do
  setClient fun c => { c with recvBuffer := received msg }
  match ofBuffer (received msg) with
  | none => throw (.fault (.unterminated .recvBuffer))
  | some line =>
    scanCmd line
    setClient fun c => { c with recvCmdArgs := cmdArgs line }
    let s ← get
    pure (getDispatchFunc [] s.cmd)

def serve (round : Round) : FtpM PUnit := do
  let dispatchFunc ← receiveCommand round.1
  match dispatchFunc with
  | some (.builtin verb) => runVerb round.2 verb
  | _ => clientReply "502 Sorry, command not implemented. :("

def greeting : CStr :=
  bytes ("220 FTPVita Server Ready.\n220 Message\n################################\n" ++
    "##\tWelcome To FTPVita Server\t  ##\n##\tMade By Xerpi\t\t\t       ##\n" ++
    "##\tModded By BenMitnicK\t\t##\n################################") ++ eol

/-- `client_thread` over the messages received before the connection ends. -/
def clientThread (rounds : List Round) : FtpM PUnit := do
  clientSendCtrlMsg greeting
  runAll serve rounds

/-- The end of `client_thread`, as far as the data connection is concerned. -/
def closeDataSockets : FtpM PUnit := do
  let client ← getClient
  if client.dataConType ≠ .none then
    emit (.socketClose client.dataSockfd)
    if client.dataConType = .passive then
      emit (.socketClose client.pasvSockfd)

/-- What `server_thread` and `client_list_add` set in a new client; the rest is uninitialised. -/
structure Fresh (s : Session) : Prop where
  dataConType : s.client.dataConType = .none
  curPath : s.client.curPath = [slash]
  restorePoint : s.client.restorePoint = 0

def newSession : Session where
  client :=
    { num := 0, dataSockfd := 0, dataConType := .none, dataSockaddr := ⟨0, 0⟩, pasvSockfd := 0
      recvBuffer := [], recvCmdArgs := [], curPath := [slash], renamePath := [], restorePoint := 0 }
  cmd := []
  files := fun _ => none
  trace := []

theorem fresh_newSession : Fresh newSession := ⟨rfl, rfl, rfl⟩

/-- Every call succeeds, no data arrives, and the notifications are off. -/
def calmEnv : Env where
  notifsOn := false
  fileBufSize := 524288
  vitaAddr := 0
  deviceList := []
  stackPath := []
  stackInts := fun _ => 0
  stackAddr := 0
  malloc := some []
  currentYear := 2024
  sceNetSocket := 1
  sceNetGetsockname := 0
  sceNetAccept := 2
  sceNetRecv := []
  sceNetRecvEnd := ⟨0, le_refl 0⟩
  sceNetSend := fun _ => 2147483647
  sceIoOpen := 3
  sceIoLseek32 := BitVec.toNat
  sceIoRead := [0]
  sceIoWrite := fun _ => 2147483647
  sceIoGetstat := fun _ => some ⟨0, ⟨2024, 1, 1, 0, 0⟩⟩
  sceIoDopen := fun _ => 4
  sceIoDread := []
  sceIoRemove := 0
  sceIoRmdir := 0
  sceIoMkdir := 0
  sceIoRename := 0

/-- `t` is reached from a new client by serving `rounds`. -/
def Reaches (rounds : List Round) (t : Session) : Prop :=
  ∃ s, Fresh s ∧ clientThread rounds s = .ok ⟨⟩ t

end VitaConnect.Ftp
