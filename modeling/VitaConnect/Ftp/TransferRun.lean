import VitaConnect.Ftp.Transfer

/-! # How the two transfer functions end

`send_file` and `receive_file` leave through four doors each, and every door has one equation here:
the file is not opened, there is no memory, the transfer stops inside, or it comes to its reply.
-/
namespace VitaConnect.Ftp
open CString Program
set_option autoImplicit false

/-! ## `send_file` -/

def sendEvents (env : Env) (fd transferFd : ℤ) (content : List Byte) :
    List ℤ → ℕ → ℕ → List Byte → List Event
  | [], _, _, _ => []
  | ret :: rets, i, pos, buffer =>
    let got := taken (content.drop pos) ret
    let buffer' := got ++ buffer.drop got.length
    .read fd got ret ::
      if unsignedLen ret = 0 then []
      else .dataSend transferFd (unsignedLen ret) (buffer'.take (unsignedLen ret))
          (env.sceNetSend i) ::
        sendEvents env fd transferFd content rets (i + 1) (pos + got.length) buffer'

/-- The loop meets the only answer that ends it. -/
def ReadsEnd (env : Env) : Prop := ∃ ret ∈ env.sceIoRead, unsignedLen ret = 0

instance (env : Env) : Decidable (ReadsEnd env) :=
  inferInstanceAs (Decidable (∃ ret ∈ env.sceIoRead, unsignedLen ret = 0))

theorem sendLoop_apply (env : Env) (fd : ℤ) (content : List Byte) (rets : List ℤ) (i pos : ℕ)
    (buffer : List Byte) (s : Session) :
    sendLoop env fd content rets i pos buffer s =
      let t := { s with
        trace := s.trace ++ sendEvents env fd s.client.transferFd content rets i pos buffer }
      if ∃ ret ∈ rets, unsignedLen ret = 0 then .ok ⟨⟩ t else .error .running t := by
  induction rets generalizing i pos buffer s with
  | nil => simp [sendLoop, sendEvents, throw_apply]
  | cons ret rets ih =>
    by_cases h0 : unsignedLen ret = 0
    · simp [sendLoop, sendEvents, h0]
    · simp only [sendLoop, bind_apply, emit_apply, h0, if_false, getClient_apply, ih]
      simp [sendEvents, h0]

def sendingState (env : Env) (path : Option CStr) (buffer : List Byte) (s : Session) : Session :=
  { s with
    client := s.client.opened env
    trace := s.trace ++ [.open path .rdonly env.sceIoOpen, .lseek env.sceIoOpen s.client.restorePoint]
      ++ openEvents env s.client ++ [.ctrlSend (bytes "150 Opening Image mode data transfer." ++ eol)]
      ++ sendEvents env env.sceIoOpen (s.client.opened env).transferFd (s.files.contents path)
        env.sceIoRead 0 (env.sceIoLseek32 s.client.restorePoint) buffer }

section Send
variable {env : Env} (path : Option CStr) (s : Session)

theorem sendFile_notFound (h : env.sceIoOpen < 0) :
    sendFile env path s = .ok ⟨⟩ { s with
      trace := s.trace ++ [.open path .rdonly env.sceIoOpen,
        .ctrlSend (bytes "550 File not found." ++ eol)] } := by
  have h' : ¬ 0 ≤ env.sceIoOpen := by omega
  simp [sendFile, sceIoOpen_apply, bind_apply, h']

theorem sendFile_noMemory (h : 0 ≤ env.sceIoOpen) (hm : env.malloc = none) :
    sendFile env path s = .ok ⟨⟩ { s with
      trace := s.trace ++ [.open path .rdonly env.sceIoOpen,
        .lseek env.sceIoOpen s.client.restorePoint,
        .ctrlSend (bytes "550 Could not allocate memory." ++ eol)] } := by
  simp [sendFile, sceIoOpen_apply, bind_apply, h, hm, get_apply, Files.opened]

theorem sendFile_transfer {buffer : List Byte} (h : 0 ≤ env.sceIoOpen)
    (hm : env.malloc = some buffer) :
    sendFile env path s =
      if ReadsEnd env then
        let t := sendingState env path buffer s
        let u := { t with
          client := { t.client with restorePoint := 0 }
          trace := t.trace ++ [.close env.sceIoOpen] }
        if NotificationFaults env path then .error (.fault .nullString) u
        else .ok ⟨⟩ { u with
          client := { u.client with dataConType := .none }
          trace := u.trace ++ notificationEvents env "Send: " path
            ++ [.ctrlSend (bytes "226 Transfer completed." ++ eol)] ++ closeEvents u.client }
      else .error .running (sendingState env path buffer s) := by
  simp only [sendFile, sceIoOpen_apply, bind_apply, emit_apply, ite_run, h, hm, get_apply,
    Files.opened, if_true, clientOpenDataConnection_apply, clientReply_apply, sendLoop_apply,
    ReadsEnd, sendingState]
  by_cases hend : ∃ ret ∈ env.sceIoRead, unsignedLen ret = 0
  · by_cases hf : NotificationFaults env path
    · simp [hend, hf, notification_apply]
    · simp [hend, hf, notification_apply, clientCloseDataConnection_apply]
  · simp [hend]

def sendReplies (env : Env) (path : Option CStr) : List CStr :=
  if env.sceIoOpen < 0 then [bytes "550 File not found." ++ eol]
  else if env.malloc = none then [bytes "550 Could not allocate memory." ++ eol]
  else (bytes "150 Opening Image mode data transfer." ++ eol) ::
    if ReadsEnd env ∧ ¬ NotificationFaults env path then [bytes "226 Transfer completed." ++ eol]
    else []

theorem forall_sendEvents {P : Event → Prop} (hread : ∀ fd got ret, P (.read fd got ret))
    (hsend : ∀ fd len passed ret, P (.dataSend fd len passed ret)) (env : Env) (fd transferFd : ℤ)
    (content : List Byte) (rets : List ℤ) (i pos : ℕ) (buffer : List Byte) :
    ∀ e ∈ sendEvents env fd transferFd content rets i pos buffer, P e := by
  induction rets generalizing i pos buffer with
  | nil => simp [sendEvents]
  | cons ret rets ih =>
    rw [sendEvents]
    split
    · simp [hread]
    · rw [List.forall_mem_cons, List.forall_mem_cons]
      exact ⟨hread _ _ _, hsend _ _ _ _, ih _ _ _⟩

theorem ctrlMsgs_sendEvents (env : Env) (fd transferFd : ℤ) (content : List Byte) (rets : List ℤ)
    (i pos : ℕ) (buffer : List Byte) :
    ctrlMsgs (sendEvents env fd transferFd content rets i pos buffer) = [] :=
  ctrlMsgs_eq_nil (forall_sendEvents (fun _ _ _ => rfl) (fun _ _ _ _ => rfl) _ _ _ _ _ _ _ _)

theorem sendFile_msgs (env : Env) :
    ctrlMsgs (finalState (sendFile env path s)).trace
      = ctrlMsgs s.trace ++ sendReplies env path := by
  unfold sendReplies
  by_cases hopen : env.sceIoOpen < 0
  · rw [sendFile_notFound path s hopen, if_pos hopen]
    simp
  · rw [if_neg hopen]
    cases hm : env.malloc with
    | none =>
      rw [sendFile_noMemory path s (by omega) hm, if_pos rfl]
      simp
    | some buffer =>
      rw [sendFile_transfer path s (by omega) hm, if_neg (Option.some_ne_none buffer)]
      by_cases hend : ReadsEnd env
      · by_cases hf : NotificationFaults env path
        · simp [hend, hf, sendingState, ctrlMsgs_openEvents, ctrlMsgs_sendEvents]
        · simp [hend, hf, sendingState, ctrlMsgs_openEvents, ctrlMsgs_sendEvents,
            ctrlMsgs_notificationEvents, ctrlMsgs_closeEvents]
      · simp [hend, sendingState, ctrlMsgs_openEvents, ctrlMsgs_sendEvents]

end Send

/-! ## `receive_file` -/

theorem Files.written_written (files : Files) (path : Option CStr) (a b : List Byte) :
    (files.written path a).written path b = files.written path (a ++ b) := by
  cases path with
  | none => rfl
  | some p => simp [Files.written, Files.contents]

theorem Files.opened_written_nil (files : Files) (path : Option CStr) (restorePoint : BitVec 32) :
    (files.opened path (receiveMode restorePoint)).written path []
      = files.opened path (receiveMode restorePoint) := by
  cases path with
  | none => simp [Files.written]
  | some p =>
    unfold receiveMode
    split <;> simp [Files.written, Files.opened, Files.contents]

def chunkData (chunks : List Chunk) : List (List Byte) := chunks.map Subtype.val

def receiveEvents (env : Env) (fd transferFd : ℤ) : ℕ → List Chunk → List Event
  | _, [] => [.dataRecv transferFd [] env.sceNetRecvEnd]
  | i, chunk :: rest =>
    .dataRecv transferFd chunk.val chunk.val.length :: .write fd chunk.val (env.sceIoWrite i) ::
      receiveEvents env fd transferFd (i + 1) rest

theorem receiveLoop_apply (env : Env) (fd : ℤ) (path : Option CStr) (chunks : List Chunk) (i : ℕ)
    (s : Session) (hs : s.files.written path [] = s.files) :
    receiveLoop env fd path i chunks s = .ok ⟨⟩ { s with
      files := s.files.written path (takenOf env.sceIoWrite i (chunkData chunks))
      trace := s.trace ++ receiveEvents env fd s.client.transferFd i chunks } := by
  induction chunks generalizing i s with
  | nil => simp [receiveLoop, receiveEvents, chunkData, takenOf, bind_apply, hs]
  | cons chunk rest ih =>
    have hnil : ∀ buf : List Byte, (s.files.written path buf).written path []
        = s.files.written path buf := by
      intro buf
      rw [Files.written_written, List.append_nil]
    simp only [receiveLoop, writeChunk, bind_apply, getClient_apply, emit_apply, setFiles_apply]
    rw [ih]
    · simp [receiveEvents, chunkData, takenOf, Files.written_written]
    · exact hnil _

def receivedState (env : Env) (path : Option CStr) (s : Session) : Session :=
  { s with
    client := s.client.opened env
    files := (s.files.opened path (receiveMode s.client.restorePoint)).written path
      (takenOf env.sceIoWrite 0 (chunkData env.sceNetRecv))
    trace := s.trace ++ [.open path (receiveMode s.client.restorePoint) env.sceIoOpen]
      ++ openEvents env s.client ++ [.ctrlSend (bytes "150 Opening Image mode data transfer." ++ eol)]
      ++ receiveEvents env env.sceIoOpen (s.client.opened env).transferFd 0 env.sceNetRecv }

section Receive
variable {env : Env} (path : Option CStr) (s : Session)

theorem receiveFile_notFound (h : env.sceIoOpen < 0) :
    receiveFile env path s = .ok ⟨⟩ { s with
      trace := s.trace ++ [.open path (receiveMode s.client.restorePoint) env.sceIoOpen,
        .ctrlSend (bytes "550 File not found." ++ eol)] } := by
  have h' : ¬ 0 ≤ env.sceIoOpen := by omega
  simp [receiveFile, sceIoOpen_apply, bind_apply, h']

theorem receiveFile_noMemory (h : 0 ≤ env.sceIoOpen) (hm : env.malloc = none) :
    receiveFile env path s = .ok ⟨⟩ { s with
      files := s.files.opened path (receiveMode s.client.restorePoint)
      trace := s.trace ++ [.open path (receiveMode s.client.restorePoint) env.sceIoOpen,
        .ctrlSend (bytes "550 Could not allocate memory." ++ eol)] } := by
  simp [receiveFile, sceIoOpen_apply, bind_apply, h, hm]

theorem receiveFile_transfer {buffer : List Byte} (h : 0 ≤ env.sceIoOpen)
    (hm : env.malloc = some buffer) :
    receiveFile env path s =
      let t := receivedState env path s
      let u := { t with
        client := { t.client with restorePoint := 0 }
        trace := t.trace ++ [.close env.sceIoOpen] }
      if env.sceNetRecvEnd.val = 0 then
        if NotificationFaults env path then .error (.fault .nullString) u
        else .ok ⟨⟩ { u with
          client := { u.client with dataConType := .none }
          trace := u.trace ++ notificationEvents env "Received: " path
            ++ [.ctrlSend (bytes "226 Transfer completed." ++ eol)] ++ closeEvents u.client }
      else
        let v := { u with
          files := if 0 ≤ env.sceIoRemove then u.files.removed path else u.files
          trace := u.trace ++ [.remove path env.sceIoRemove] }
        if NotificationFaults env path then .error (.fault .nullString) v
        else .ok ⟨⟩ { v with
          client := { v.client with dataConType := .none }
          trace := v.trace ++ notificationEvents env "Not Received: " path
            ++ [.ctrlSend (bytes "426 Connection closed; transfer aborted." ++ eol)]
            ++ closeEvents v.client } := by
  have hnil := s.files.opened_written_nil path s.client.restorePoint
  simp only [receiveFile, sceIoOpen_apply, bind_apply, getClient_apply, emit_apply, ite_run, h, hm,
    if_true, clientOpenDataConnection_apply, clientReply_apply, receivedState]
  rw [receiveLoop_apply]
  case hs => exact hnil
  by_cases hend : env.sceNetRecvEnd.val = 0
  · by_cases hf : NotificationFaults env path
    · simp [hend, hf, notification_apply]
    · simp [hend, hf, notification_apply, clientCloseDataConnection_apply]
  · by_cases hrm : 0 ≤ env.sceIoRemove
    · by_cases hf : NotificationFaults env path
      · simp [hend, hf, hrm, notification_apply]
      · simp [hend, hf, hrm, notification_apply, clientCloseDataConnection_apply]
    · by_cases hf : NotificationFaults env path
      · simp [hend, hf, hrm, notification_apply]
      · simp [hend, hf, hrm, notification_apply, clientCloseDataConnection_apply]

def receiveReplies (env : Env) (path : Option CStr) : List CStr :=
  if env.sceIoOpen < 0 then [bytes "550 File not found." ++ eol]
  else if env.malloc = none then [bytes "550 Could not allocate memory." ++ eol]
  else (bytes "150 Opening Image mode data transfer." ++ eol) ::
    if NotificationFaults env path then []
    else if env.sceNetRecvEnd.val = 0 then [bytes "226 Transfer completed." ++ eol]
    else [bytes "426 Connection closed; transfer aborted." ++ eol]

theorem forall_receiveEvents {P : Event → Prop} (hrecv : ∀ fd got ret, P (.dataRecv fd got ret))
    (hwrite : ∀ fd buf ret, P (.write fd buf ret)) (env : Env) (fd transferFd : ℤ) (i : ℕ)
    (chunks : List Chunk) : ∀ e ∈ receiveEvents env fd transferFd i chunks, P e := by
  induction chunks generalizing i with
  | nil => simp [receiveEvents, hrecv]
  | cons chunk rest ih =>
    rw [receiveEvents, List.forall_mem_cons, List.forall_mem_cons]
    exact ⟨hrecv _ _ _, hwrite _ _ _, ih (i + 1)⟩

theorem ctrlMsgs_receiveEvents (env : Env) (fd transferFd : ℤ) (i : ℕ) (chunks : List Chunk) :
    ctrlMsgs (receiveEvents env fd transferFd i chunks) = [] :=
  ctrlMsgs_eq_nil (forall_receiveEvents (fun _ _ _ => rfl) (fun _ _ _ => rfl) _ _ _ _ _)

theorem receiveFile_msgs (env : Env) :
    ctrlMsgs (finalState (receiveFile env path s)).trace
      = ctrlMsgs s.trace ++ receiveReplies env path := by
  unfold receiveReplies
  by_cases hopen : env.sceIoOpen < 0
  · rw [receiveFile_notFound path s hopen, if_pos hopen]
    simp
  · rw [if_neg hopen]
    cases hm : env.malloc with
    | none =>
      rw [receiveFile_noMemory path s (by omega) hm, if_pos rfl]
      simp
    | some buffer =>
      rw [receiveFile_transfer path s (by omega) hm, if_neg (Option.some_ne_none buffer)]
      by_cases hend : env.sceNetRecvEnd.val = 0
      · by_cases hf : NotificationFaults env path
        · simp [hend, hf, receivedState, ctrlMsgs_openEvents, ctrlMsgs_receiveEvents]
        · simp [hend, hf, receivedState, ctrlMsgs_openEvents, ctrlMsgs_receiveEvents,
            ctrlMsgs_notificationEvents, ctrlMsgs_closeEvents]
      · by_cases hf : NotificationFaults env path
        · simp [hend, hf, receivedState, ctrlMsgs_openEvents, ctrlMsgs_receiveEvents]
        · simp [hend, hf, receivedState, ctrlMsgs_openEvents, ctrlMsgs_receiveEvents,
            ctrlMsgs_notificationEvents, ctrlMsgs_closeEvents]

end Receive

end VitaConnect.Ftp
