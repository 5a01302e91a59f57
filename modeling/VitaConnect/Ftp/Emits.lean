import VitaConnect.Ftp.TransferRun
import VitaConnect.Ftp.Listing

/-! # What a program adds to the trace

`EmitsOnly P x`: every event that `x` adds to the trace satisfies `P`, however `x` ends, and the array
`cmd` of `client_thread` stays as it is. The rules follow the elementary steps; the two transfers are
done once for every `P` that allows what a transfer does.
-/
namespace VitaConnect.Ftp
open CString Program
set_option autoImplicit false

/-- The events between `s` and `t` all satisfy `P`. -/
def Emits (P : Event → Prop) (s t : Session) : Prop := ∃ es, t.trace = s.trace ++ es ∧ ∀ e ∈ es, P e

theorem Emits.nil {P : Event → Prop} {s t : Session} (h : t.trace = s.trace) : Emits P s t :=
  ⟨[], by rw [h, List.append_nil], List.forall_mem_nil _⟩

theorem Emits.trans {P : Event → Prop} {s t u : Session} (h : Emits P s t) (h' : Emits P t u) :
    Emits P s u := by
  obtain ⟨es, ht, hes⟩ := h
  obtain ⟨es', hu, hes'⟩ := h'
  refine ⟨es ++ es', ?_, List.forall_mem_append.mpr ⟨hes, hes'⟩⟩
  rw [hu, ht, List.append_assoc]

structure Within (P : Event → Prop) (s t : Session) : Prop where
  emits : Emits P s t
  cmd : t.cmd = s.cmd

/-! ## Elementary steps -/

section Steps
variable {P : Event → Prop} {α : Type}

instance refl_within : Std.Refl (Within P) := ⟨fun _ => ⟨Emits.nil rfl, rfl⟩⟩

instance isTrans_within : IsTrans Session (Within P) :=
  ⟨fun _ _ _ h h' => ⟨h.emits.trans h'.emits, h'.cmd.trans h.cmd⟩⟩

abbrev EmitsOnly (P : Event → Prop) (x : FtpM α) : Prop := Respects (Within P) x

abbrev Quiet (x : FtpM α) : Prop := Keeps (fun s => (s.trace, s.cmd)) x

theorem emitsOnly_quiet {x : FtpM α} (h : Quiet x) : EmitsOnly P x :=
  fun s => ⟨Emits.nil (Prod.mk.inj (h s)).1, (Prod.mk.inj (h s)).2⟩

theorem quiet_getClient : Quiet getClient := fun _ => rfl

theorem quiet_setClient (f : ClientInfo → ClientInfo) : Quiet (setClient f) := fun _ => rfl

theorem quiet_setFiles (f : Files → Files) : Quiet (setFiles f) := fun _ => rfl

theorem quiet_store (buf : Buffer) (str : CStr) : Quiet (store buf str) :=
  keeps_ite (keeps_pure _) (keeps_throw _)

theorem quiet_storeScanned (buf : Buffer) (scan : Option CStr) : Quiet (storeScanned buf scan) := by
  cases scan with
  | none => exact keeps_pure _
  | some str => exact quiet_store buf str

theorem quiet_genFtpFullpath (env : Env) : Quiet (genFtpFullpath env) := by
  intro s
  have hkeeps : finalState (genFtpFullpath env s) = s := genFtpFullpath_keeps env s
  simp only [hkeeps]

theorem quiet_dirUp (path : CStr) : Quiet (dirUp path) := by
  refine keeps_ite (keeps_pure _) (keeps_ite (keeps_pure _) ?_)
  split
  · exact keeps_throw _
  · exact keeps_bind (quiet_store _ _) fun _ => keeps_pure _

theorem emitsOnly_emit {e : Event} (h : P e) : EmitsOnly P (emit e) :=
  fun _ => ⟨⟨[e], rfl, List.forall_mem_singleton.mpr h⟩, rfl⟩

theorem emitsOnly_notification (h : ∀ text, P (.notification text)) (env : Env) (text : String)
    (path : Option CStr) : EmitsOnly P (notification env text path) := by
  refine respects_ite ?_ (respects_pure _)
  split
  · exact respects_throw _
  · exact emitsOnly_emit (h _)

theorem emitsOnly_openDataConnection (hconnect : ∀ fd, P (.connect fd))
    (haccept : ∀ fd ret, P (.accept fd ret)) (env : Env) :
    EmitsOnly P (clientOpenDataConnection env) := by
  intro s
  rw [clientOpenDataConnection_apply]
  exact ⟨⟨_, rfl, forall_openEvents hconnect haccept env s.client⟩, rfl⟩

theorem emitsOnly_closeDataConnection (h : ∀ fd, P (.socketClose fd)) :
    EmitsOnly P clientCloseDataConnection := by
  intro s
  rw [clientCloseDataConnection_apply]
  exact ⟨⟨_, rfl, forall_closeEvents h s.client⟩, rfl⟩

theorem emitsOnly_sendLines (h : ∀ fd len passed ret, P (.dataSend fd len passed ret)) (env : Env)
    (entries : List (Bool × SceIoStat × CStr)) (i : ℕ) : EmitsOnly P (sendLines env i entries) := by
  induction entries generalizing i with
  | nil => exact respects_pure _
  | cons entry rest ih =>
    obtain ⟨dir, stat, name⟩ := entry
    apply respects_bind
    · exact respects_bind (emitsOnly_quiet quiet_getClient) fun _ => emitsOnly_emit (h _ _ _ _)
    · exact fun _ => ih (i + 1)

end Steps

/-! ## Transfers -/

/-- `P` allows what a transfer does once its file is open. -/
structure AllowsTransfer (P : Event → Prop) : Prop where
  reply : ∀ msg, P (.ctrlSend msg)
  notification : ∀ text, P (.notification text)
  connect : ∀ fd, P (.connect fd)
  accept : ∀ fd ret, P (.accept fd ret)
  dataSend : ∀ fd len passed ret, P (.dataSend fd len passed ret)
  dataRecv : ∀ fd got ret, P (.dataRecv fd got ret)
  socketClose : ∀ fd, P (.socketClose fd)
  read : ∀ fd got ret, P (.read fd got ret)
  write : ∀ fd buf ret, P (.write fd buf ret)
  close : ∀ fd, P (.close fd)

section Transfers
variable {P : Event → Prop}

theorem AllowsTransfer.sendLoop (h : AllowsTransfer P) (env : Env) (fd : ℤ) (content : List Byte)
    (rets : List ℤ) (i pos : ℕ) (buffer : List Byte) :
    EmitsOnly P (sendLoop env fd content rets i pos buffer) := by
  intro s
  rw [sendLoop_apply]
  have hevents := forall_sendEvents h.read h.dataSend env fd s.client.transferFd content rets i pos
    buffer
  split <;> exact ⟨⟨_, rfl, hevents⟩, rfl⟩

theorem AllowsTransfer.receiveLoop (h : AllowsTransfer P) (env : Env) (fd : ℤ) (path : Option CStr)
    (chunks : List Chunk) (i : ℕ) : EmitsOnly P (receiveLoop env fd path i chunks) := by
  induction chunks generalizing i with
  | nil =>
    exact respects_bind (emitsOnly_quiet quiet_getClient) fun _ => emitsOnly_emit (h.dataRecv _ _ _)
  | cons chunk rest ih =>
    apply respects_bind
    · exact respects_bind (emitsOnly_quiet quiet_getClient) fun _ =>
        respects_bind (emitsOnly_emit (h.dataRecv _ _ _)) fun _ =>
        respects_bind (emitsOnly_emit (h.write _ _ _)) fun _ => emitsOnly_quiet (quiet_setFiles _)
    · exact fun _ => ih (i + 1)

theorem within_sceIoOpen {env : Env} {path : Option CStr} {mode : OpenMode}
    (h : P (.open path mode env.sceIoOpen)) {f : ℤ → FtpM PUnit} (s : Session)
    (hf : ∀ t, t.client = s.client → Within P t (finalState (f env.sceIoOpen t))) :
    Within P s (finalState ((sceIoOpen env path mode >>= f) s)) := by
  have hopened : Within P s (finalState (sceIoOpen env path mode s)) := by
    rw [sceIoOpen_apply]
    exact ⟨⟨_, rfl, List.forall_mem_singleton.mpr h⟩, rfl⟩
  rw [sceIoOpen_apply] at hopened
  rw [bind_apply, sceIoOpen_apply]
  exact trans_of (Within P) hopened (hf _ rfl)

theorem sendFile_within (h : AllowsTransfer P) (env : Env) (path : Option CStr) (s : Session)
    (hopen : P (.open path .rdonly env.sceIoOpen))
    (hseek : P (.lseek env.sceIoOpen s.client.restorePoint)) :
    Within P s (finalState (sendFile env path s)) := by
  have hreply : ∀ str, EmitsOnly P (clientReply str) := fun _ => emitsOnly_emit (h.reply _)
  refine within_sceIoOpen hopen s fun t ht => ?_
  have hseek' : P (.lseek env.sceIoOpen t.client.restorePoint) := by rwa [ht]
  rw [ite_run]
  split
  · show Within P t (finalState
      ((emit (.lseek env.sceIoOpen t.client.restorePoint) >>= fun _ => _) t))
    refine respects_bind (emitsOnly_emit hseek') (fun _ => ?_) t
    split
    · exact hreply _
    · exact respects_bind (emitsOnly_openDataConnection h.connect h.accept env) fun _ =>
        respects_bind (hreply _) fun _ => respects_bind (h.sendLoop _ _ _ _ _ _ _) fun _ =>
        respects_bind (emitsOnly_emit (h.close _)) fun _ =>
        respects_bind (emitsOnly_quiet (quiet_setClient _)) fun _ =>
        respects_bind (emitsOnly_notification h.notification _ _ _) fun _ =>
        respects_bind (hreply _) fun _ => emitsOnly_closeDataConnection h.socketClose
  · exact hreply _ t

theorem receiveFile_within (h : AllowsTransfer P) (env : Env) (path : Option CStr) (s : Session)
    (hopen : P (.open path (receiveMode s.client.restorePoint) env.sceIoOpen))
    (hremove : P (.remove path env.sceIoRemove)) :
    Within P s (finalState (receiveFile env path s)) := by
  have hreply : ∀ str, EmitsOnly P (clientReply str) := fun _ => emitsOnly_emit (h.reply _)
  have hend : ∀ text str, EmitsOnly P (do
      notification env text path
      clientReply str
      clientCloseDataConnection) := fun _ _ =>
    respects_bind (emitsOnly_notification h.notification _ _ _) fun _ =>
      respects_bind (hreply _) fun _ => emitsOnly_closeDataConnection h.socketClose
  refine within_sceIoOpen hopen s fun t _ => ?_
  refine respects_ite ?_ (hreply _) t
  split
  · exact hreply _
  · refine respects_bind (emitsOnly_openDataConnection h.connect h.accept env) fun _ =>
      respects_bind (hreply _) fun _ => respects_bind (h.receiveLoop _ _ _ _ _) fun _ =>
      respects_bind (emitsOnly_emit (h.close _)) fun _ =>
      respects_bind (emitsOnly_quiet (quiet_setClient _)) fun _ => respects_ite (hend _ _) ?_
    refine respects_bind (emitsOnly_emit hremove) fun _ => ?_
    split
    · exact respects_bind (emitsOnly_quiet (quiet_setFiles _)) fun _ => hend _ _
    · exact hend _ _

end Transfers

end VitaConnect.Ftp
