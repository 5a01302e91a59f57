import VitaConnect.CString.Scan
import VitaConnect.CString.Format
import VitaConnect.Program.Effect
import Mathlib.Logic.Function.Basic

/-! # The state of one FTP client thread (`ftpvita.h`, `ftpvita.c`)

`ClientInfo` is `ftpvita_client_info_t`, `Session` adds the other data the thread works on, and
`Env` is what the thread meets while it serves one control message: the globals, whatever its
uninitialised memory holds, and the answer of every system call. A handler makes each call at most
once, apart from the calls of the three data loops, which answer by a sequence.

The handlers are programs of `FtpM`. They end abnormally on a C string that does not fit its array,
on a string function applied to an array without a NUL or to NULL, and inside a read loop that has
not met its end.
-/
namespace VitaConnect.Ftp
open CString Program
set_option autoImplicit false

/-! ## Data -/

inductive DataConnectionType
  | none | active | passive
  deriving DecidableEq

/-- The fields of `SceNetSockaddrIn` that the server sets: both in network order. -/
structure SockaddrIn where
  sinAddr : UInt32
  sinPort : UInt16
  deriving DecidableEq

structure ClientInfo where
  num : BitVec 32
  dataSockfd : ℤ
  dataConType : DataConnectionType
  dataSockaddr : SockaddrIn
  pasvSockfd : ℤ
  recvBuffer : List Byte
  recvCmdArgs : CStr
  curPath : CStr
  renamePath : CStr
  restorePoint : BitVec 32
  deriving DecidableEq

structure SceDateTime where
  year : ℕ
  month : ℕ
  day : ℕ
  hour : ℕ
  minute : ℕ
  deriving DecidableEq

structure SceIoStat where
  stSize : BitVec 64
  stMtime : SceDateTime
  deriving DecidableEq

structure SceIoDirent where
  isDir : Bool
  dStat : SceIoStat
  dName : CStr
  deriving DecidableEq

inductive OpenMode
  | rdonly
  /-- `SCE_O_CREAT | SCE_O_RDWR | SCE_O_APPEND` -/
  | append
  /-- `SCE_O_CREAT | SCE_O_RDWR | SCE_O_TRUNC` -/
  | trunc
  deriving DecidableEq

/-- What a thread does to the world outside its memory, with the answer where it matters. -/
inductive Event
  | ctrlSend (msg : CStr)
  | dataSend (fd : ℤ) (len : ℕ) (passed : List Byte) (ret : ℤ)
  | dataRecv (fd : ℤ) (got : List Byte) (ret : ℤ)
  | socket (fd : ℤ)
  | bind (fd : ℤ)
  | listen (fd : ℤ)
  | connect (fd : ℤ)
  | accept (fd : ℤ) (ret : ℤ)
  | socketClose (fd : ℤ)
  | open (path : Option CStr) (mode : OpenMode) (ret : ℤ)
  | lseek (fd : ℤ) (offset : BitVec 32)
  | read (fd : ℤ) (got : List Byte) (ret : ℤ)
  | write (fd : ℤ) (buf : List Byte) (ret : ℤ)
  | close (fd : ℤ)
  | dopen (path : Option CStr) (ret : ℤ)
  | dclose (fd : ℤ)
  | remove (path : Option CStr) (ret : ℤ)
  | rmdir (path : Option CStr) (ret : ℤ)
  | mkdir (path : Option CStr) (ret : ℤ)
  | rename (src : CStr) (dst : Option CStr) (ret : ℤ)
  | notification (text : CStr)
  deriving DecidableEq

abbrev Files := CStr → Option (List Byte)

structure Session where
  client : ClientInfo
  /-- The array `cmd` of `client_thread`, read as a string. -/
  cmd : CStr
  files : Files
  trace : List Event

/-- A positive answer of `sceNetRecv` with the bytes it delivered. -/
abbrev Chunk := {c : List Byte // c ≠ []}

structure Env where
  notifsOn : Bool
  fileBufSize : ℕ
  vitaAddr : UInt32
  deviceList : List CStr
  /-- The string at the uninitialised array `cmd_path` of `gen_ftp_fullpath`. -/
  stackPath : CStr
  /-- The uninitialised numbers and address of `cmd_PORT_func`. -/
  stackInts : ℕ → ℤ
  stackAddr : UInt32
  malloc : Option (List Byte)
  currentYear : ℕ
  sceNetSocket : ℤ
  sceNetGetsockname : UInt16
  sceNetAccept : ℤ
  /-- The chunks received on the data connection, then the answer that ends the loop. -/
  sceNetRecv : List Chunk
  sceNetRecvEnd : {ret : ℤ // ret ≤ 0}
  sceNetSend : ℕ → ℤ
  sceIoOpen : ℤ
  /-- The position at which the file stands after the seek. -/
  sceIoLseek32 : BitVec 32 → ℕ
  sceIoRead : List ℤ
  sceIoWrite : ℕ → ℤ
  sceIoGetstat : Option CStr → Option SceIoStat
  sceIoDopen : Option CStr → ℤ
  sceIoDread : List SceIoDirent
  sceIoRemove : ℤ
  sceIoRmdir : ℤ
  sceIoMkdir : ℤ
  sceIoRename : ℤ

/-! ## Arrays and abnormal ends -/

/-- `PATH_MAX` of `<sys/syslimits.h>`. -/
def pathMax : ℕ := 1024

/-- The character arrays that the command path stores strings in. -/
inductive Buffer
  | recvBuffer | cmd | formatControl | ipStr | dataSocketName | pasvCmd | sizeCmd | restCmd
  | listPath | cmdPath | tmpPath | destPath | curPath | renamePath
  deriving DecidableEq

def Buffer.size : Buffer → ℕ
  | recvBuffer => 512
  | cmd => 16
  | formatControl => 8
  | ipStr => 16
  | dataSocketName => 64
  | pasvCmd => 512
  | sizeCmd => 64
  | restCmd => 64
  | listPath | cmdPath | tmpPath | destPath | curPath | renamePath => pathMax

inductive Fault
  /-- A string and its NUL are stored in an array that is too small for them. -/
  | overflow (buf : Buffer)
  /-- An array without a NUL is used as a string. -/
  | unterminated (buf : Buffer)
  /-- A string function is given NULL, or what `strrchr` answers plus one is read after NULL. -/
  | nullString
  deriving DecidableEq

inductive Halt
  | fault (f : Fault)
  /-- The read loop is still running when its sequence of answers is used up. -/
  | running
  deriving DecidableEq

abbrev FtpM := EStateM Halt Session

/-! ## Elementary steps -/

def emit (e : Event) : FtpM PUnit := modify fun s => { s with trace := s.trace ++ [e] }

def getClient : FtpM ClientInfo := fun s => .ok s.client s

def setClient (f : ClientInfo → ClientInfo) : FtpM PUnit :=
  modify fun s => { s with client := f s.client }

def store (buf : Buffer) (str : CStr) : FtpM PUnit :=
  if str.length < buf.size then pure ⟨⟩ else throw (.fault (.overflow buf))

/-- A conversion of `sscanf` stores its text, or nothing when it does not match. -/
def storeScanned (buf : Buffer) (scan : Option CStr) : FtpM PUnit :=
  match scan with
  | none => pure ⟨⟩
  | some str => store buf str

def clientSendCtrlMsg (str : CStr) : FtpM PUnit := emit (.ctrlSend str)

/-- `"\r\n"`, `FTPVITA_EOL`. -/
def eol : CStr := [13, 10]

def clientReply (str : String) : FtpM PUnit := clientSendCtrlMsg (bytes str ++ eol)

@[simp] theorem emit_apply (e : Event) (s : Session) :
    emit e s = .ok ⟨⟩ { s with trace := s.trace ++ [e] } := rfl

@[simp] theorem getClient_apply (s : Session) : getClient s = .ok s.client s := rfl

@[simp] theorem setClient_apply (f : ClientInfo → ClientInfo) (s : Session) :
    setClient f s = .ok ⟨⟩ { s with client := f s.client } := rfl

@[simp] theorem clientSendCtrlMsg_apply (str : CStr) (s : Session) :
    clientSendCtrlMsg str s = .ok ⟨⟩ { s with trace := s.trace ++ [.ctrlSend str] } := rfl

@[simp] theorem clientReply_apply (str : String) (s : Session) :
    clientReply str s = .ok ⟨⟩ { s with trace := s.trace ++ [.ctrlSend (bytes str ++ eol)] } := rfl

theorem store_ok {buf : Buffer} {str : CStr} (h : str.length < buf.size) (s : Session) :
    store buf str s = .ok ⟨⟩ s := by
  rw [store, if_pos h]
  rfl

theorem store_apply (buf : Buffer) (str : CStr) (s : Session) :
    store buf str s = if str.length < buf.size then .ok ⟨⟩ s
      else .error (.fault (.overflow buf)) s := ite_run _ _ _ _

theorem storeScanned_ok {buf : Buffer} {scan : Option CStr}
    (h : ∀ str ∈ scan, str.length < buf.size) (s : Session) : storeScanned buf scan s = .ok ⟨⟩ s := by
  cases scan with
  | none => rfl
  | some str => exact store_ok (h str rfl) s

/-! ## Control messages of a trace -/

@[simp] def Event.ctrlMsg? : Event → Option CStr
  | .ctrlSend msg => some msg
  | _ => none

def ctrlMsgs (trace : List Event) : List CStr := trace.filterMap Event.ctrlMsg?

@[simp] theorem ctrlMsgs_nil : ctrlMsgs [] = [] := rfl

@[simp] theorem ctrlMsgs_cons (e : Event) (es : List Event) :
    ctrlMsgs (e :: es) = e.ctrlMsg?.toList ++ ctrlMsgs es := by
  cases e <;> rfl

@[simp] theorem ctrlMsgs_append (xs ys : List Event) :
    ctrlMsgs (xs ++ ys) = ctrlMsgs xs ++ ctrlMsgs ys := List.filterMap_append

theorem ctrlMsgs_eq_nil {trace : List Event} (h : ∀ e ∈ trace, e.ctrlMsg? = none) :
    ctrlMsgs trace = [] := List.filterMap_eq_nil_iff.mpr h

/-! ## Notifications -/

/-- The name `strrchr(path, '/') + 1` points to. -/
def baseName (path : Option CStr) : Option CStr :=
  path.bind fun p => (strrchr p slash).map fun i => p.drop (i + 1)

/-- `NOTIFICATION` of a fixed text and one base name. `module_start` has set `notif_log_cb`, and
`log_func` cuts the text at 255 bytes. -/
def notification (env : Env) (text : String) (path : Option CStr) : FtpM PUnit :=
  if env.notifsOn then
    match baseName path with
    | none => throw (.fault .nullString)
    | some name => emit (.notification (snprintf 256 (bytes text ++ name)))
  else pure ⟨⟩

def NotificationFaults (env : Env) (path : Option CStr) : Prop :=
  env.notifsOn ∧ baseName path = none

instance (env : Env) (path : Option CStr) : Decidable (NotificationFaults env path) :=
  inferInstanceAs (Decidable (_ ∧ _))

def notificationEvents (env : Env) (text : String) (path : Option CStr) : List Event :=
  if env.notifsOn then
    ((baseName path).map fun name => .notification (snprintf 256 (bytes text ++ name))).toList
  else []

theorem notification_apply (env : Env) (text : String) (path : Option CStr) (s : Session) :
    notification env text path s =
      if NotificationFaults env path then .error (.fault .nullString) s
      else .ok ⟨⟩ { s with trace := s.trace ++ notificationEvents env text path } := by
  by_cases hf : NotificationFaults env path
  · rw [if_pos hf]
    simp [notification, hf.1, hf.2, throw_apply]
  · rw [if_neg hf, notification, notificationEvents]
    by_cases hn : env.notifsOn
    · have hb : baseName path ≠ none := fun hb => hf ⟨hn, hb⟩
      obtain ⟨name, hb⟩ := Option.ne_none_iff_exists'.mp hb
      simp [hn, hb]
    · simp [hn, pure_apply]

theorem forall_notificationEvents {P : Event → Prop} (h : ∀ name, P (.notification name))
    (env : Env) (text : String) (path : Option CStr) :
    ∀ e ∈ notificationEvents env text path, P e := by
  unfold notificationEvents
  split
  · cases baseName path <;> simp [h]
  · simp

theorem ctrlMsgs_notificationEvents (env : Env) (text : String) (path : Option CStr) :
    ctrlMsgs (notificationEvents env text path) = [] :=
  ctrlMsgs_eq_nil (forall_notificationEvents (fun _ => rfl) env text path)

end VitaConnect.Ftp
