import VitaConnect.Ftp.Client

/-! # Paths and the commands that move about (`ftpvita.c`: `get_vita_path`, `path_is_at_root`,
`dir_up`, `cmd_CWD_func`, `cmd_CDUP_func`, `cmd_PWD_func`, `gen_ftp_fullpath`)

FTP paths are Unix-like, `/ux0:/data`; `getVitaPath` drops the first slash and gives `ux0:/data`.
-/
namespace VitaConnect.Ftp
open CString Program
set_option autoImplicit false

/-- `none` is NULL. -/
def getVitaPath (path : CStr) : Option CStr := if 1 < path.length then some path.tail else none

def fileExists (env : Env) (path : Option CStr) : Bool := (env.sceIoGetstat path).isSome

def pathIsAtRoot (path : CStr) : Bool :=
  match strrchr path slash with
  | some i => i + 1 == path.length
  | none => false

/-- The bytes at which `%[^\r\n\t]` stops. -/
def argStops : List Byte := [13, 10, 9]

/-- `strcat(path, "/")` when the only slash of `path` is its first byte. -/
def addSlash (path : CStr) : CStr :=
  if strrchr path slash = some 0 then path ++ [slash] else path

def dirUp (path : CStr) : FtpM CStr :=
  if path.length = 1 then pure [slash]
  else if pathIsAtRoot path then pure [slash]
  else
    match strrchr path slash with
    | none => throw (.fault .nullString)
    | some pch => do
      store .curPath (addSlash (path.take pch))
      pure (addSlash (path.take pch))

/-- `tmp_path` of `cmd_CWD_func` before a slash is added. -/
def cwdJoin (curPath cmdPath : CStr) : CStr :=
  if cmdPath.head? = some slash then cmdPath
  else if pathIsAtRoot curPath then snprintf pathMax (curPath ++ cmdPath)
  else snprintf pathMax (curPath ++ slash :: cmdPath)

def dotDot : CStr := [46, 46]

/-- The branch of `cmd_CWD_func` for a path that is neither `/` nor `..`. -/
def cwdEnter (env : Env) (cmdPath : CStr) : FtpM PUnit := do
  let client ← getClient
  let tmpPath := addSlash (cwdJoin client.curPath cmdPath)
  store .tmpPath tmpPath
  if tmpPath = [slash] then
    store .curPath tmpPath
    setClient fun c => { c with curPath := tmpPath }
    clientReply "250 Requested file action okay, completed."
  else
    let pd := env.sceIoDopen (getVitaPath tmpPath)
    emit (.dopen (getVitaPath tmpPath) pd)
    if pd < 0 then
      clientReply "550 Invalid directory."
    else
      emit (.dclose pd)
      store .curPath tmpPath
      setClient fun c => { c with curPath := tmpPath }
      clientReply "250 Requested file action okay, completed."

def cmdCwdFunc (env : Env) : FtpM PUnit := do
  let client ← getClient
  match scanSet argStops client.recvCmdArgs with
  | none => clientReply "500 Syntax error, command unrecognized."
  | some cmdPath =>
    store .cmdPath cmdPath
    if cmdPath = [slash] then
      store .curPath cmdPath
      setClient fun c => { c with curPath := cmdPath }
      clientReply "250 Requested file action okay, completed."
    else if cmdPath = dotDot then
      let path ← dirUp client.curPath
      setClient fun c => { c with curPath := path }
      clientReply "250 Requested file action okay, completed."
    else
      cwdEnter env cmdPath

def cmdCdupFunc : FtpM PUnit := do
  let client ← getClient
  let path ← dirUp client.curPath
  setClient fun c => { c with curPath := path }
  clientReply "200 Command okay."

def pwdReply (curPath : CStr) : CStr :=
  bytes "257 \"" ++ curPath ++ bytes "\" is the current directory." ++ eol

def cmdPwdFunc : FtpM PUnit := do
  let client ← getClient
  clientSendCtrlMsg (snprintf pathMax (pwdReply client.curPath))

/-- A name such as `ux0:/foo`, with a device name of three letters. -/
def isDevicePath (cmdPath : CStr) : Bool :=
  5 ≤ cmdPath.length && cmdPath[3]? == some 58 && cmdPath[4]? == some slash

/-- The path `gen_ftp_fullpath` makes of a name, in an array of `PATH_MAX` bytes. -/
def fullPath (curPath cmdPath : CStr) : CStr :=
  if cmdPath.head? = some slash then cmdPath
  else if isDevicePath cmdPath then snprintf pathMax (slash :: cmdPath)
  else snprintf pathMax (curPath ++ slash :: cmdPath)

/-- `cmd_path` of `gen_ftp_fullpath`: when `sscanf` stores nothing the array keeps what it held. -/
def ftpName (env : Env) (args : CStr) : CStr := (scanSet argStops args).getD env.stackPath

def genFtpFullpath (env : Env) : FtpM CStr := do
  let client ← getClient
  storeScanned .cmdPath (scanSet argStops client.recvCmdArgs)
  let path := fullPath client.curPath (ftpName env client.recvCmdArgs)
  -- `strncpy` leaves `path` without a NUL when the name fills it
  if path.length < pathMax then pure path else throw (.fault (.unterminated .destPath))

theorem genFtpFullpath_keeps (env : Env) : Keeps id (genFtpFullpath env) := by
  have hstore : ∀ scan, Keeps id (storeScanned .cmdPath scan) := by
    intro scan
    cases scan with
    | none => exact keeps_pure _
    | some str => exact keeps_ite (keeps_pure _) (keeps_throw _)
  exact keeps_bind (fun _ => rfl) fun _ => keeps_bind (hstore _) fun _ =>
    keeps_ite (keeps_pure _) (keeps_throw _)

/-! ## Shape of the results -/

theorem getVitaPath_cons_cons (a b : Byte) (p : CStr) : getVitaPath (a :: b :: p) = some (b :: p) := by
  simp [getVitaPath]

theorem getVitaPath_singleton (a : Byte) : getVitaPath [a] = none := by simp [getVitaPath]

theorem pathIsAtRoot_iff (path : CStr) : pathIsAtRoot path ↔ path.getLast? = some slash := by
  unfold pathIsAtRoot
  cases h : strrchr path slash with
  | none =>
    have hmem := (strrchr_eq_none_iff path slash).mp h
    have hne : path.getLast? ≠ some slash := fun hl => hmem (List.mem_of_getLast? hl)
    simpa using hne
  | some i =>
    obtain ⟨a, b, rfl, rfl, hb⟩ := strrchr_eq_some h
    cases b with
    | nil => simp
    | cons x b =>
      have hne : (x :: b).getLast? ≠ some slash := fun hl => hb (List.mem_of_getLast? hl)
      rw [List.getLast?_append_of_ne_nil _ (by simp), List.getLast?_cons_cons]
      simpa using hne

theorem fullPath_length_lt {curPath cmdPath : CStr} (h : cmdPath.length < pathMax) :
    (fullPath curPath cmdPath).length < pathMax := by
  unfold fullPath
  split_ifs
  · exact h
  · have := snprintf_length_le pathMax (slash :: cmdPath)
    simp only [pathMax] at this ⊢
    omega
  · have := snprintf_length_le pathMax (curPath ++ slash :: cmdPath)
    simp only [pathMax] at this ⊢
    omega

theorem genFtpFullpath_apply (env : Env) {s : Session} (hargs : s.client.recvCmdArgs.length ≤ 511) :
    genFtpFullpath env s =
      if (fullPath s.client.curPath (ftpName env s.client.recvCmdArgs)).length < pathMax then
        .ok (fullPath s.client.curPath (ftpName env s.client.recvCmdArgs)) s
      else .error (.fault (.unterminated .destPath)) s := by
  have hstore : ∀ str ∈ scanSet argStops s.client.recvCmdArgs, str.length < Buffer.cmdPath.size := by
    intro str hstr
    have hlen := scanSet_length_le hstr
    simp only [Buffer.size, pathMax]
    omega
  simp only [genFtpFullpath, bind_apply, getClient_apply, storeScanned_ok hstore, ite_run,
    pure_apply, throw_apply]

/-- Only an absolute name that is none of the line's can fill the path without a NUL. -/
theorem fullPath_fits_iff (env : Env) {args : CStr} (curPath : CStr) (hargs : args.length ≤ 511) :
    (fullPath curPath (ftpName env args)).length < pathMax ↔
      (scanSet argStops args = none → env.stackPath.head? = some slash →
        env.stackPath.length < pathMax) := by
  cases hscan : scanSet argStops args with
  | some name =>
    have hlen := scanSet_length_le hscan
    rw [ftpName, hscan, Option.getD_some]
    refine iff_of_true (fullPath_length_lt ?_) (by simp)
    simp only [pathMax]
    omega
  | none =>
    have hcut : ∀ q : CStr, (snprintf pathMax q).length < pathMax := fun q =>
      Nat.lt_of_le_of_lt (snprintf_length_le pathMax q) (by decide)
    rw [ftpName, hscan, Option.getD_none, fullPath]
    split_ifs with habs hdevice
    · simp [habs]
    · simp [habs, hcut]
    · simp [habs, hcut]

end VitaConnect.Ftp
