import VitaConnect.Ftp.Client

/-! # The data connection (`cmd_PASV_func`, `cmd_PORT_func`, `client_open_data_connection`,
`client_close_data_connection`, `client_send_data_msg`)

`data_con_type` decides which of the two sockets the transfers use; the value NONE falls into the
passive branch everywhere except when the connection is closed.
-/
namespace VitaConnect.Ftp
open CString Program
set_option autoImplicit false

/-! ## Addresses -/

def sceNetHtons (port : UInt16) : UInt16 := port <<< 8 ||| port >>> 8

def scanOctet (s : CStr) : Option (ℕ × CStr) :=
  let ds := s.takeWhile isDigit
  if ds = [] ∨ 3 < ds.length ∨ 255 < decValue ds then none
  else some (decValue ds, s.dropWhile isDigit)

/-- `n` numbers separated by dots and nothing else. -/
def scanOctets : ℕ → CStr → Option (List ℕ)
  | 0, s => if s = [] then some [] else none
  | n + 1, s =>
    match scanOctet s with
    | none => none
    | some (k, rest) =>
      if n = 0 then (scanOctets 0 rest).map (k :: ·)
      else
        match rest with
        | [] => none
        | b :: r => if b = 46 then (scanOctets n r).map (k :: ·) else none

/-- The address with the given bytes in memory, read as a little-endian word. -/
def addrOfOctets (ks : List ℕ) : UInt32 :=
  UInt32.ofNat (ks.foldr (fun k n => k + 256 * n) 0)

def sceNetInetPton (ipStr : CStr) : Option UInt32 := (scanOctets 4 ipStr).map addrOfOctets

/-! ## Setting a connection up -/

def dataSocketName (num : BitVec 32) : CStr :=
  bytes "FTPVita_client_" ++ intDec num.toInt ++ bytes "_data_socket"

def commas (ns : List ℕ) : CStr := [44].intercalate (ns.map natDec)

/-- The six numbers of the 227 reply: the address, then the port, in memory order. -/
def pasvNumbers (vitaAddr : UInt32) (port : UInt16) : List ℕ :=
  [(vitaAddr &&& 0xFF).toNat, (vitaAddr >>> 8 &&& 0xFF).toNat, (vitaAddr >>> 16 &&& 0xFF).toNat,
    (vitaAddr >>> 24 &&& 0xFF).toNat, (port &&& 0xFF).toNat, (port >>> 8 &&& 0xFF).toNat]

def pasvReply (vitaAddr : UInt32) (port : UInt16) : CStr :=
  bytes "227 Entering Passive Mode (" ++ commas (pasvNumbers vitaAddr port) ++ bytes ")" ++ eol

def cmdPasvFunc (env : Env) : FtpM PUnit := do
  let client ← getClient
  store .dataSocketName (dataSocketName client.num)
  emit (.socket env.sceNetSocket)
  setClient fun c => { c with dataSockfd := env.sceNetSocket, dataSockaddr := ⟨0, 0⟩ }
  emit (.bind env.sceNetSocket)
  emit (.listen env.sceNetSocket)
  let cmd := pasvReply env.vitaAddr env.sceNetGetsockname
  store .pasvCmd cmd
  clientSendCtrlMsg cmd
  setClient fun c => { c with dataConType := .passive }

/-- The six numbers `sscanf` leaves in `data_ip`, `porthi` and `portlo`. -/
def portNumbers (env : Env) (args : CStr) (i : ℕ) : ℤ :=
  (scanInts 6 args).getD i (env.stackInts i)

/-- `sprintf(ip_str, "%d.%d.%d.%d", ...)` -/
def portIpStr (env : Env) (args : CStr) : CStr :=
  [46].intercalate ((List.range 4).map fun i => intDec (portNumbers env args i))

def portDataPort (env : Env) (args : CStr) : UInt16 :=
  UInt16.ofInt (portNumbers env args 5 + portNumbers env args 4 * 256)

def cmdPortFunc (env : Env) : FtpM PUnit := do
  let client ← getClient
  store .ipStr (portIpStr env client.recvCmdArgs)
  let dataAddr := (sceNetInetPton (portIpStr env client.recvCmdArgs)).getD env.stackAddr
  store .dataSocketName (dataSocketName client.num)
  emit (.socket env.sceNetSocket)
  setClient fun c => { c with
    dataSockfd := env.sceNetSocket
    dataSockaddr := ⟨dataAddr, sceNetHtons (portDataPort env client.recvCmdArgs)⟩
    dataConType := .active }
  clientReply "200 PORT command successful!"

/-! ## Using the connection -/

def ClientInfo.transferFd (client : ClientInfo) : ℤ :=
  if client.dataConType = .active then client.dataSockfd else client.pasvSockfd

def clientOpenDataConnection (env : Env) : FtpM PUnit := do
  let client ← getClient
  if client.dataConType = .active then
    emit (.connect client.dataSockfd)
  else
    emit (.accept client.dataSockfd env.sceNetAccept)
    setClient fun c => { c with pasvSockfd := env.sceNetAccept }

def clientCloseDataConnection : FtpM PUnit := do
  let client ← getClient
  emit (.socketClose client.dataSockfd)
  if client.dataConType = .passive then
    emit (.socketClose client.pasvSockfd)
  setClient fun c => { c with dataConType := .none }

def ClientInfo.opened (env : Env) (client : ClientInfo) : ClientInfo :=
  if client.dataConType = .active then client
  else { client with pasvSockfd := env.sceNetAccept }

def openEvents (env : Env) (client : ClientInfo) : List Event :=
  if client.dataConType = .active then [.connect client.dataSockfd]
  else [.accept client.dataSockfd env.sceNetAccept]

theorem clientOpenDataConnection_apply (env : Env) (s : Session) :
    clientOpenDataConnection env s = .ok ⟨⟩ { s with
      client := s.client.opened env
      trace := s.trace ++ openEvents env s.client } := by
  unfold clientOpenDataConnection ClientInfo.opened openEvents
  by_cases h : s.client.dataConType = .active
  · simp [bind_apply, h]
  · simp [bind_apply, h]

def closeEvents (client : ClientInfo) : List Event :=
  .socketClose client.dataSockfd ::
    if client.dataConType = .passive then [.socketClose client.pasvSockfd] else []

theorem clientCloseDataConnection_apply (s : Session) :
    clientCloseDataConnection s = .ok ⟨⟩ { s with
      client := { s.client with dataConType := .none }
      trace := s.trace ++ closeEvents s.client } := by
  unfold clientCloseDataConnection closeEvents
  by_cases h : s.client.dataConType = .passive
  · simp [bind_apply, h]
  · simp [bind_apply, h]

theorem forall_openEvents {P : Event → Prop} (hconnect : ∀ fd, P (.connect fd))
    (haccept : ∀ fd ret, P (.accept fd ret)) (env : Env) (client : ClientInfo) :
    ∀ e ∈ openEvents env client, P e := by
  unfold openEvents
  split <;> simp [hconnect, haccept]

theorem forall_closeEvents {P : Event → Prop} (h : ∀ fd, P (.socketClose fd))
    (client : ClientInfo) : ∀ e ∈ closeEvents client, P e := by
  unfold closeEvents
  split <;> simp [h]

theorem ctrlMsgs_openEvents (env : Env) (client : ClientInfo) :
    ctrlMsgs (openEvents env client) = [] :=
  ctrlMsgs_eq_nil (forall_openEvents (fun _ => rfl) (fun _ _ => rfl) env client)

theorem ctrlMsgs_closeEvents (client : ClientInfo) : ctrlMsgs (closeEvents client) = [] :=
  ctrlMsgs_eq_nil (forall_closeEvents (fun _ => rfl) client)

/-- `client_send_data_msg` of the `i`-th line of a transfer. -/
def clientSendDataMsg (env : Env) (i : ℕ) (str : CStr) : FtpM PUnit := do
  let client ← getClient
  emit (.dataSend client.transferFd str.length str (env.sceNetSend i))

end VitaConnect.Ftp
