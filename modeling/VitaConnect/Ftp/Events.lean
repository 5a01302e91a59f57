import VitaConnect.Ftp.RestorePoint

/-! # The kinds of events of each command

`Verb.kinds` lists what the handler of a verb can do to the world outside; `runVerb_kinds` says that
it does nothing else, however it ends, and leaves the array `cmd` of `client_thread` alone.
-/
namespace VitaConnect.Ftp
open CString Program
set_option autoImplicit false

inductive EventKind
  | reply | notification
  /-- `sceNetSocket`, `sceNetBind` and `sceNetListen` -/
  | setUp
  /-- The calls of a transfer on its sockets. -/
  | data
  | file | dir | remove
  /-- `sceIoRmdir` and `sceIoMkdir` -/
  | tree
  | rename
  deriving DecidableEq

def Event.kind : Event → EventKind
  | .ctrlSend _ => .reply
  | .notification _ => .notification
  | .socket _ | .bind _ | .listen _ => .setUp
  | .dataSend .. | .dataRecv .. | .connect _ | .accept .. | .socketClose _ => .data
  | .open .. | .lseek .. | .read .. | .write .. | .close _ => .file
  | .dopen .. | .dclose _ => .dir
  | .remove .. => .remove
  | .rmdir .. | .mkdir .. => .tree
  | .rename .. => .rename

def Verb.kinds : Verb → List EventKind
  | .pasv | .port => [.reply, .setUp]
  | .list => [.reply, .dir, .data]
  | .cwd => [.reply, .dir]
  | .retr => [.reply, .notification, .file, .data]
  | .stor | .appe => [.reply, .notification, .file, .remove, .data]
  | .dele => [.reply, .notification, .remove]
  | .rmd | .mkd => [.reply, .notification, .tree]
  | .rnto => [.reply, .notification, .rename]
  | _ => [.reply]

/-! ## Composing programs -/

/-- What RNTO does behind the call of `sceIoRename`. -/
def renameAnswer (env : Env) (src : CStr) (dst : Option CStr) : FtpM PUnit := do
  if env.sceIoRename < 0 then
    clientReply "550 Error renaming the file."
  else
    setFiles fun files => files.renamed src dst
  renameNotification env src dst
  clientReply "226 Rename completed."

/-- `x` emits only events of `kinds`. -/
abbrev EmitsOf (kinds : List EventKind) {α : Type} (x : FtpM α) : Prop :=
  EmitsOnly (fun e => e.kind ∈ kinds) x

section Steps
variable {kinds : List EventKind}

theorem emitsOf_emit {e : Event} (k : EventKind) (hk : k ∈ kinds) (he : e.kind = k) :
    EmitsOf kinds (emit e) := by
  subst he
  exact emitsOnly_emit hk

theorem emitsOf_ctrlMsg (h : .reply ∈ kinds) (msg : CStr) : EmitsOf kinds (clientSendCtrlMsg msg) :=
  emitsOf_emit .reply h rfl

theorem emitsOf_reply (h : .reply ∈ kinds) (str : String) : EmitsOf kinds (clientReply str) :=
  emitsOf_emit .reply h rfl

theorem emitsOf_notification (h : .notification ∈ kinds) (env : Env) (text : String)
    (path : Option CStr) : EmitsOf kinds (notification env text path) :=
  emitsOnly_notification (fun _ => h) env text path

theorem allowsTransfer_kinds (h : [.reply, .notification, .file, .data] ⊆ kinds) :
    AllowsTransfer (fun e => e.kind ∈ kinds) := by
  have hreply : .reply ∈ kinds := h (by decide)
  have hnotification : .notification ∈ kinds := h (by decide)
  have hfile : .file ∈ kinds := h (by decide)
  have hdata : .data ∈ kinds := h (by decide)
  exact ⟨fun _ => hreply, fun _ => hnotification, fun _ => hdata, fun _ _ => hdata,
    fun _ _ _ _ => hdata, fun _ _ _ => hdata, fun _ => hdata, fun _ _ _ => hfile, fun _ _ _ => hfile,
    fun _ => hfile⟩

theorem emitsOf_sendFile (env : Env) (path : Option CStr) :
    EmitsOf Verb.retr.kinds (sendFile env path) := by
  have hfile : .file ∈ Verb.retr.kinds := by decide
  exact fun s => sendFile_within (allowsTransfer_kinds (by decide)) env path s hfile hfile

theorem emitsOf_receiveFile (env : Env) (path : Option CStr) :
    EmitsOf Verb.stor.kinds (receiveFile env path) := by
  have hfile : .file ∈ Verb.stor.kinds := by decide
  have hremove : .remove ∈ Verb.stor.kinds := by decide
  exact fun s => receiveFile_within (allowsTransfer_kinds (by decide)) env path s hfile hremove

theorem emitsOf_renameAnswer (hreply : .reply ∈ kinds) (hnotification : .notification ∈ kinds)
    (env : Env) (src : CStr) (dst : Option CStr) : EmitsOf kinds (renameAnswer env src dst) := by
  have hnotify : EmitsOf kinds (renameNotification env src dst) := by
    refine respects_ite ?_ (respects_pure _)
    split
    · exact emitsOf_emit .notification hnotification rfl
    · exact respects_throw _
  unfold renameAnswer
  split
  · exact respects_bind (emitsOf_reply hreply _) fun _ =>
      respects_bind hnotify fun _ => emitsOf_reply hreply _
  · exact respects_bind (emitsOnly_quiet (quiet_setFiles _)) fun _ =>
      respects_bind hnotify fun _ => emitsOf_reply hreply _

end Steps

/-! ## The handlers -/

theorem emitsOf_pasv (env : Env) : EmitsOf Verb.pasv.kinds (cmdPasvFunc env) := by
  have hstore : ∀ buf str, EmitsOf Verb.pasv.kinds (store buf str) := fun buf str =>
    emitsOnly_quiet (quiet_store buf str)
  have hset : ∀ f, EmitsOf Verb.pasv.kinds (setClient f) := fun f => emitsOnly_quiet (quiet_setClient f)
  exact respects_bind (emitsOnly_quiet quiet_getClient) fun client =>
    respects_bind (hstore _ _) fun _ => respects_bind (emitsOf_emit .setUp (by decide) rfl) fun _ =>
    respects_bind (hset _) fun _ => respects_bind (emitsOf_emit .setUp (by decide) rfl) fun _ =>
    respects_bind (emitsOf_emit .setUp (by decide) rfl) fun _ => respects_bind (hstore _ _) fun _ =>
    respects_bind (emitsOf_ctrlMsg (by decide) _) fun _ => hset _

theorem emitsOf_port (env : Env) : EmitsOf Verb.port.kinds (cmdPortFunc env) := by
  have hstore : ∀ buf str, EmitsOf Verb.port.kinds (store buf str) := fun buf str =>
    emitsOnly_quiet (quiet_store buf str)
  exact respects_bind (emitsOnly_quiet quiet_getClient) fun client =>
    respects_bind (hstore _ _) fun _ => respects_bind (hstore _ _) fun _ =>
    respects_bind (emitsOf_emit .setUp (by decide) rfl) fun _ =>
    respects_bind (emitsOnly_quiet (quiet_setClient _)) fun _ => emitsOf_reply (by decide) _

theorem emitsOf_list (env : Env) : EmitsOf Verb.list.kinds (cmdListFunc env) := by
  have hdata : .data ∈ Verb.list.kinds := by decide
  have hreply : ∀ str, EmitsOf Verb.list.kinds (clientReply str) := emitsOf_reply (by decide)
  have hopen : EmitsOf Verb.list.kinds (clientOpenDataConnection env) :=
    emitsOnly_openDataConnection (fun _ => hdata) (fun _ _ => hdata) env
  have hlines : ∀ entries i, EmitsOf Verb.list.kinds (sendLines env i entries) :=
    emitsOnly_sendLines (fun _ _ _ _ => hdata) env
  have hclose : EmitsOf Verb.list.kinds clientCloseDataConnection :=
    emitsOnly_closeDataConnection fun _ => hdata
  refine respects_bind (emitsOnly_quiet quiet_getClient) fun client =>
    respects_bind (emitsOnly_quiet (quiet_storeScanned _ _)) fun _ => respects_ite ?_ ?_
  · exact respects_bind (hreply _) fun _ => respects_bind hopen fun _ =>
      respects_bind (hlines _ _) fun _ => respects_bind hclose fun _ => hreply _
  · refine respects_bind (emitsOf_emit .dir (by decide) rfl) fun _ => respects_ite (hreply _) ?_
    exact respects_bind (hreply _) fun _ => respects_bind hopen fun _ =>
      respects_bind (hlines _ _) fun _ => respects_bind (emitsOf_emit .dir (by decide) rfl) fun _ =>
      respects_bind hclose fun _ => hreply _

theorem emitsOf_cwd (env : Env) : EmitsOf Verb.cwd.kinds (cmdCwdFunc env) := by
  have hreply : ∀ str, EmitsOf Verb.cwd.kinds (clientReply str) := emitsOf_reply (by decide)
  have hstore : ∀ buf str, EmitsOf Verb.cwd.kinds (store buf str) := fun buf str =>
    emitsOnly_quiet (quiet_store buf str)
  have hset : ∀ f, EmitsOf Verb.cwd.kinds (setClient f) := fun f => emitsOnly_quiet (quiet_setClient f)
  refine respects_bind (emitsOnly_quiet quiet_getClient) fun client => ?_
  split
  · exact hreply _
  · next cmdPath _ =>
    refine respects_bind (hstore _ _) fun _ => respects_ite ?_ (respects_ite ?_ ?_)
    · exact respects_bind (hstore _ _) fun _ => respects_bind (hset _) fun _ => hreply _
    · exact respects_bind (emitsOnly_quiet (quiet_dirUp _)) fun path =>
        respects_bind (hset _) fun _ => hreply _
    · refine respects_bind (emitsOnly_quiet quiet_getClient) fun client =>
        respects_bind (hstore _ _) fun _ => respects_ite ?_ ?_
      · exact respects_bind (hstore _ _) fun _ => respects_bind (hset _) fun _ => hreply _
      · refine respects_bind (emitsOf_emit .dir (by decide) rfl) fun _ => respects_ite (hreply _) ?_
        exact respects_bind (emitsOf_emit .dir (by decide) rfl) fun _ => respects_bind (hstore _ _) fun _ =>
          respects_bind (hset _) fun _ => hreply _

theorem emitsOf_type : EmitsOf Verb.type.kinds cmdTypeFunc := by
  have hreply : ∀ str, EmitsOf Verb.type.kinds (clientReply str) := emitsOf_reply (by decide)
  refine respects_bind (emitsOnly_quiet quiet_getClient) fun client => ?_
  split
  · exact hreply _
  · exact respects_bind (emitsOnly_quiet (quiet_storeScanned _ _)) fun _ =>
      respects_ite (hreply _) (hreply _)

theorem emitsOf_rest : EmitsOf Verb.rest.kinds cmdRestFunc := by
  refine respects_bind (emitsOnly_quiet quiet_getClient) fun client => ?_
  split
  · exact respects_throw _
  · exact respects_bind (emitsOnly_quiet (quiet_setClient _)) fun _ =>
      respects_bind (emitsOnly_quiet (quiet_store _ _)) fun _ => emitsOf_ctrlMsg (by decide) _

theorem emitsOf_rnfr (env : Env) : EmitsOf Verb.rnfr.kinds (cmdRnfrFunc env) := by
  have hreply : ∀ str, EmitsOf Verb.rnfr.kinds (clientReply str) := emitsOf_reply (by decide)
  refine respects_bind (emitsOnly_quiet (quiet_genFtpFullpath env)) fun path =>
    respects_ite ?_ (hreply _)
  split
  · exact respects_throw _
  · exact respects_bind (emitsOnly_quiet (quiet_store _ _)) fun _ =>
      respects_bind (emitsOnly_quiet (quiet_setClient _)) fun _ => hreply _

theorem emitsOf_rnto (env : Env) : EmitsOf Verb.rnto.kinds (cmdRntoFunc env) :=
  respects_bind (emitsOnly_quiet (quiet_genFtpFullpath env)) fun path =>
    respects_bind (emitsOnly_quiet quiet_getClient) fun client =>
    respects_bind (emitsOf_emit .rename (by decide) rfl) fun _ =>
    emitsOf_renameAnswer (by decide) (by decide) env client.renamePath (getVitaPath path)

theorem emitsOf_size (env : Env) : EmitsOf Verb.size.kinds (cmdSizeFunc env) := by
  refine respects_bind (emitsOnly_quiet (quiet_genFtpFullpath env)) fun path => ?_
  split
  · exact emitsOf_reply (by decide) _
  · exact respects_bind (emitsOnly_quiet (quiet_store _ _)) fun _ => emitsOf_ctrlMsg (by decide) _

theorem emitsOf_dele (env : Env) : EmitsOf Verb.dele.kinds (cmdDeleFunc env) := by
  have hreply : ∀ str, EmitsOf Verb.dele.kinds (clientReply str) := emitsOf_reply (by decide)
  refine respects_bind (emitsOnly_quiet (quiet_genFtpFullpath env)) fun path =>
    respects_bind (emitsOf_emit .remove (by decide) rfl) fun _ => respects_ite ?_ (hreply _)
  exact respects_bind (emitsOnly_quiet (quiet_setFiles _)) fun _ =>
    respects_bind (emitsOf_notification (by decide) _ _ _) fun _ => hreply _

theorem emitsOf_rmd (env : Env) : EmitsOf Verb.rmd.kinds (cmdRmdFunc env) := by
  have hreply : ∀ str, EmitsOf Verb.rmd.kinds (clientReply str) := emitsOf_reply (by decide)
  refine respects_bind (emitsOnly_quiet (quiet_genFtpFullpath env)) fun path =>
    respects_bind (emitsOf_emit .tree (by decide) rfl) fun _ =>
    respects_ite ?_ (respects_ite (hreply _) (hreply _))
  exact respects_bind (emitsOf_notification (by decide) _ _ _) fun _ => hreply _

theorem emitsOf_mkd (env : Env) : EmitsOf Verb.mkd.kinds (cmdMkdFunc env) := by
  have hreply : ∀ str, EmitsOf Verb.mkd.kinds (clientReply str) := emitsOf_reply (by decide)
  refine respects_bind (emitsOnly_quiet (quiet_genFtpFullpath env)) fun path =>
    respects_bind (emitsOf_emit .tree (by decide) rfl) fun _ => respects_ite ?_ (hreply _)
  exact respects_bind (emitsOf_notification (by decide) _ _ _) fun _ => hreply _

theorem runVerb_kinds (env : Env) (v : Verb) : EmitsOf v.kinds (runVerb env v) := by
  have hpath : ∀ kinds, EmitsOf kinds (genFtpFullpath env) := fun _ =>
    emitsOnly_quiet (quiet_genFtpFullpath env)
  have hset : ∀ kinds f, EmitsOf kinds (setClient f) := fun _ f => emitsOnly_quiet (quiet_setClient f)
  cases v with
  | noop | user | pass | quit | syst | opts => exact emitsOf_reply (by decide) _
  | feat =>
    have hreply : ∀ str, EmitsOf Verb.feat.kinds (clientReply str) := emitsOf_reply (by decide)
    exact respects_bind (hreply _) fun _ => respects_bind (hreply _) fun _ =>
      respects_bind (hreply _) fun _ => hreply _
  | pasv => exact emitsOf_pasv env
  | port => exact emitsOf_port env
  | list => exact emitsOf_list env
  | pwd =>
    exact respects_bind (emitsOnly_quiet quiet_getClient) fun _ => emitsOf_ctrlMsg (by decide) _
  | cwd => exact emitsOf_cwd env
  | type => exact emitsOf_type
  | cdup =>
    exact respects_bind (emitsOnly_quiet quiet_getClient) fun _ =>
      respects_bind (emitsOnly_quiet (quiet_dirUp _)) fun _ => respects_bind (hset _ _) fun _ =>
      emitsOf_reply (by decide) _
  | retr => exact respects_bind (hpath _) fun path => emitsOf_sendFile env (getVitaPath path)
  | stor => exact respects_bind (hpath _) fun path => emitsOf_receiveFile env (getVitaPath path)
  | dele => exact emitsOf_dele env
  | rmd => exact emitsOf_rmd env
  | mkd => exact emitsOf_mkd env
  | rnfr => exact emitsOf_rnfr env
  | rnto => exact emitsOf_rnto env
  | size => exact emitsOf_size env
  | rest => exact emitsOf_rest
  | appe =>
    exact respects_bind (hset _ _) fun _ => respects_bind (hpath _) fun path =>
      emitsOf_receiveFile env (getVitaPath path)

/-- What the handler of `verb` emits; without one the answer is 502. -/
def handlerKinds (verb : Option Verb) : List EventKind := verb.elim [.reply] Verb.kinds

theorem mem_handlerKinds {verb : Option Verb} {k : EventKind} (h : k ∈ handlerKinds verb)
    (hk : k ≠ .reply) : ∃ v, verb = some v ∧ k ∈ v.kinds := by
  cases verb with
  | none => exact absurd (List.mem_singleton.mp h) hk
  | some v => exact ⟨v, rfl, h⟩

theorem handle_kinds (verb : Option Verb) (env : Env) :
    EmitsOf (handlerKinds verb) (handle verb env) := by
  cases verb with
  | none => exact emitsOf_reply (List.mem_singleton_self _) _
  | some v => exact runVerb_kinds env v

/-- A round emits only what its command can. -/
theorem serve_kinds (round : Round) (s : Session) :
    Emits (fun e => e.kind ∈ handlerKinds (verbOf s round.1)) s (finalState (serve round s)) :=
  serve_emits round s fun line => (handle_kinds _ round.2 (s.ready round.1 line)).emits

end VitaConnect.Ftp
