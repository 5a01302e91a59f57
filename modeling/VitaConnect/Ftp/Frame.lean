import VitaConnect.Ftp.Session

/-! # What the commands leave alone

`Verb.Ignores g v` lists the fields of the client that the handler of `v` may write, as the changes
that `g` does not see; `keeps_runVerb` is the frame rule. It holds of every ending of a handler.
-/
namespace VitaConnect.Ftp
open CString Program
set_option autoImplicit false

variable {γ : Type} {g : ClientInfo → γ} {α : Type}

abbrev KeepsClient (g : ClientInfo → γ) (x : FtpM α) : Prop := Keeps (fun s => g s.client) x

/-! ## Steps that do not touch the client -/

theorem keeps_emit (e : Event) : KeepsClient g (emit e) := keeps_modify fun _ => rfl

theorem keeps_setFiles (f : Files → Files) : KeepsClient g (setFiles f) := keeps_modify fun _ => rfl

theorem keeps_getClient : KeepsClient g getClient := fun _ => rfl

theorem keeps_ctrlMsg (msg : CStr) : KeepsClient g (clientSendCtrlMsg msg) := keeps_emit _

theorem keeps_reply (str : String) : KeepsClient g (clientReply str) := keeps_emit _

theorem keeps_store (buf : Buffer) (str : CStr) : KeepsClient g (store buf str) :=
  keeps_ite (keeps_pure _) (keeps_throw _)

theorem keeps_storeScanned (buf : Buffer) (scan : Option CStr) :
    KeepsClient g (storeScanned buf scan) := by
  cases scan with
  | none => exact keeps_pure _
  | some str => exact keeps_store buf str

theorem keeps_setClient {f : ClientInfo → ClientInfo} (h : ∀ c, g (f c) = g c) :
    KeepsClient g (setClient f) := keeps_modify fun s => h s.client

theorem keeps_notification (env : Env) (text : String) (path : Option CStr) :
    KeepsClient g (notification env text path) := by
  intro s
  rw [notification_apply]
  split <;> rfl

theorem keeps_genFtpFullpath (env : Env) : KeepsClient g (genFtpFullpath env) := by
  exact keeps_bind keeps_getClient fun _ => keeps_bind (keeps_storeScanned _ _) fun _ =>
    keeps_ite (keeps_pure _) (keeps_throw _)

theorem keeps_sendLines (env : Env) (entries : List (Bool × SceIoStat × CStr)) (i : ℕ) :
    KeepsClient g (sendLines env i entries) := by
  induction entries generalizing i with
  | nil => exact keeps_pure _
  | cons entry rest ih =>
    obtain ⟨dir, stat, name⟩ := entry
    exact keeps_bind (keeps_bind keeps_getClient fun _ => keeps_emit _) fun _ => ih (i + 1)

/-! ## The verbs -/

/-- `g` does not see the fields that the handler of the verb writes. -/
def Verb.Ignores (g : ClientInfo → γ) : Verb → Prop
  | .pasv | .port => ∀ c fd t addr,
      g { c with dataSockfd := fd, dataConType := t, dataSockaddr := addr } = g c
  | .list => ∀ c fd t, g { c with pasvSockfd := fd, dataConType := t } = g c
  | .cwd | .cdup => ∀ c path, g { c with curPath := path } = g c
  | .rest => ∀ c restorePoint, g { c with restorePoint := restorePoint } = g c
  | .rnfr => ∀ c path, g { c with renamePath := path } = g c
  | .retr | .stor | .appe => ∀ c fd t restorePoint,
      g { c with pasvSockfd := fd, dataConType := t, restorePoint := restorePoint } = g c
  | _ => True

theorem keeps_opened (env : Env) (h : Verb.list.Ignores g) (client : ClientInfo) :
    g (client.opened env) = g client := by
  unfold ClientInfo.opened
  split
  · rfl
  · exact h client env.sceNetAccept client.dataConType

theorem keeps_openDataConnection (env : Env) (h : Verb.list.Ignores g) :
    KeepsClient g (clientOpenDataConnection env) := by
  intro s
  rw [clientOpenDataConnection_apply]
  exact keeps_opened env h s.client

theorem keeps_closeDataConnection (h : Verb.list.Ignores g) :
    KeepsClient g clientCloseDataConnection := by
  intro s
  rw [clientCloseDataConnection_apply]
  exact h s.client s.client.pasvSockfd .none

theorem keeps_pasv (env : Env) (h : Verb.pasv.Ignores g) : KeepsClient g (cmdPasvFunc env) := by
  refine keeps_bind keeps_getClient fun client => keeps_bind (keeps_store _ _) fun _ =>
    keeps_bind (keeps_emit _) fun _ => keeps_bind (keeps_setClient fun c => ?_) fun _ =>
    keeps_bind (keeps_emit _) fun _ => keeps_bind (keeps_emit _) fun _ =>
    keeps_bind (keeps_store _ _) fun _ => keeps_bind (keeps_ctrlMsg _) fun _ =>
    keeps_setClient fun c => ?_
  · exact h c _ c.dataConType _
  · exact h c c.dataSockfd .passive c.dataSockaddr

theorem keeps_port (env : Env) (h : Verb.port.Ignores g) : KeepsClient g (cmdPortFunc env) := by
  refine keeps_bind keeps_getClient fun client => keeps_bind (keeps_store _ _) fun _ =>
    keeps_bind (keeps_store _ _) fun _ => keeps_bind (keeps_emit _) fun _ =>
    keeps_bind (keeps_setClient fun c => ?_) fun _ => keeps_reply _
  exact h c _ _ _

theorem keeps_sendList (env : Env) (h : Verb.list.Ignores g) (path : CStr) :
    KeepsClient g (sendList env path) := by
  have hopen := keeps_openDataConnection (g := g) env h
  have hclose := keeps_closeDataConnection (g := g) h
  refine keeps_ite ?_ (keeps_bind (keeps_emit _) fun _ => keeps_ite (keeps_reply _) ?_)
  · exact keeps_bind (keeps_reply _) fun _ => keeps_bind hopen fun _ =>
      keeps_bind (keeps_sendLines _ _ _) fun _ => keeps_bind hclose fun _ => keeps_reply _
  · exact keeps_bind (keeps_reply _) fun _ => keeps_bind hopen fun _ =>
      keeps_bind (keeps_sendLines _ _ _) fun _ => keeps_bind (keeps_emit _) fun _ =>
      keeps_bind hclose fun _ => keeps_reply _

theorem keeps_list (env : Env) (h : Verb.list.Ignores g) : KeepsClient g (cmdListFunc env) := by
  exact keeps_bind keeps_getClient fun _ => keeps_bind (keeps_storeScanned _ _) fun _ =>
    keeps_sendList env h _

theorem keeps_dirUp (path : CStr) : KeepsClient g (dirUp path) := by
  refine keeps_ite (keeps_pure _) (keeps_ite (keeps_pure _) ?_)
  split
  · exact keeps_throw _
  · exact keeps_bind (keeps_store _ _) fun _ => keeps_pure _

theorem keeps_cdup (h : Verb.cdup.Ignores g) : KeepsClient g cmdCdupFunc := by
  refine keeps_bind keeps_getClient fun client => keeps_bind (keeps_dirUp _) fun path =>
    keeps_bind (keeps_setClient fun c => h c path) fun _ => keeps_reply _

theorem keeps_cwdEnter (env : Env) (h : Verb.cwd.Ignores g) (cmdPath : CStr) :
    KeepsClient g (cwdEnter env cmdPath) := by
  refine keeps_bind keeps_getClient fun client => keeps_bind (keeps_store _ _) fun _ =>
    keeps_ite ?_ (keeps_bind (keeps_emit _) fun _ => keeps_ite (keeps_reply _) ?_)
  · exact keeps_bind (keeps_store _ _) fun _ => keeps_bind (keeps_setClient fun c => h c _) fun _ =>
      keeps_reply _
  · exact keeps_bind (keeps_emit _) fun _ => keeps_bind (keeps_store _ _) fun _ =>
      keeps_bind (keeps_setClient fun c => h c _) fun _ => keeps_reply _

theorem keeps_cwd (env : Env) (h : Verb.cwd.Ignores g) : KeepsClient g (cmdCwdFunc env) := by
  refine keeps_bind keeps_getClient fun client => ?_
  split
  · exact keeps_reply _
  · next cmdPath _ =>
    refine keeps_bind (keeps_store _ _) fun _ => keeps_ite ?_ (keeps_ite ?_ ?_)
    · exact keeps_bind (keeps_store _ _) fun _ => keeps_bind (keeps_setClient fun c => h c _) fun _ =>
        keeps_reply _
    · exact keeps_bind (keeps_dirUp _) fun path => keeps_bind (keeps_setClient fun c => h c path)
        fun _ => keeps_reply _
    · exact keeps_cwdEnter env h cmdPath

theorem keeps_type : KeepsClient g cmdTypeFunc := by
  refine keeps_bind keeps_getClient fun client => ?_
  split
  · exact keeps_reply _
  · exact keeps_bind (keeps_storeScanned _ _) fun _ => keeps_ite (keeps_reply _) (keeps_reply _)

theorem keeps_rest (h : Verb.rest.Ignores g) : KeepsClient g cmdRestFunc := by
  refine keeps_bind keeps_getClient fun client => ?_
  split
  · exact keeps_throw _
  · exact keeps_bind (keeps_setClient fun c => h c _) fun _ =>
      keeps_bind (keeps_store _ _) fun _ => keeps_ctrlMsg _

theorem keeps_rnfr (env : Env) (h : Verb.rnfr.Ignores g) : KeepsClient g (cmdRnfrFunc env) := by
  refine keeps_bind (keeps_genFtpFullpath env) fun path => keeps_ite ?_ (keeps_reply _)
  split
  · exact keeps_throw _
  · next src _ =>
    exact keeps_bind (keeps_store _ _) fun _ => keeps_bind (keeps_setClient fun c => h c src)
      fun _ => keeps_reply _

theorem keeps_rnto (env : Env) : KeepsClient g (cmdRntoFunc env) := by
  have hnotify : ∀ src dst, KeepsClient g (renameNotification env src dst) := by
    intro src dst
    refine keeps_ite ?_ (keeps_pure _)
    split
    · exact keeps_emit _
    · exact keeps_throw _
  refine keeps_bind (keeps_genFtpFullpath env) fun path => keeps_bind keeps_getClient fun client =>
    keeps_bind (keeps_emit _) fun _ => ?_
  split
  · exact keeps_bind (keeps_reply _) fun _ => keeps_bind (hnotify _ _) fun _ => keeps_reply _
  · exact keeps_bind (keeps_setFiles _) fun _ => keeps_bind (hnotify _ _) fun _ => keeps_reply _

theorem keeps_size (env : Env) : KeepsClient g (cmdSizeFunc env) := by
  refine keeps_bind (keeps_genFtpFullpath env) fun path => ?_
  split
  · exact keeps_reply _
  · exact keeps_bind (keeps_store _ _) fun _ => keeps_ctrlMsg _

theorem keeps_dele (env : Env) : KeepsClient g (cmdDeleFunc env) := by
  refine keeps_bind (keeps_genFtpFullpath env) fun path => keeps_bind (keeps_emit _) fun _ =>
    keeps_ite ?_ (keeps_reply _)
  exact keeps_bind (keeps_setFiles _) fun _ => keeps_bind (keeps_notification _ _ _) fun _ =>
    keeps_reply _

theorem keeps_rmd (env : Env) : KeepsClient g (cmdRmdFunc env) := by
  refine keeps_bind (keeps_genFtpFullpath env) fun path => keeps_bind (keeps_emit _) fun _ =>
    keeps_ite ?_ (keeps_ite (keeps_reply _) (keeps_reply _))
  exact keeps_bind (keeps_notification _ _ _) fun _ => keeps_reply _

theorem keeps_mkd (env : Env) : KeepsClient g (cmdMkdFunc env) := by
  refine keeps_bind (keeps_genFtpFullpath env) fun path => keeps_bind (keeps_emit _) fun _ =>
    keeps_ite ?_ (keeps_reply _)
  exact keeps_bind (keeps_notification _ _ _) fun _ => keeps_reply _

theorem keeps_sceIoOpen (env : Env) (path : Option CStr) (mode : OpenMode) :
    KeepsClient g (sceIoOpen env path mode) := by
  intro s
  rw [sceIoOpen_apply]
  rfl

theorem keeps_sendLoop (env : Env) (fd : ℤ) (content : List Byte) (rets : List ℤ) (i pos : ℕ)
    (buffer : List Byte) : KeepsClient g (sendLoop env fd content rets i pos buffer) := by
  induction rets generalizing i pos buffer with
  | nil => exact keeps_throw _
  | cons ret rets ih =>
    exact keeps_bind (keeps_emit _) fun _ => keeps_ite (keeps_pure _)
      (keeps_bind keeps_getClient fun _ => keeps_bind (keeps_emit _) fun _ => ih _ _ _)

theorem keeps_receiveLoop (env : Env) (fd : ℤ) (path : Option CStr) (chunks : List Chunk) (i : ℕ) :
    KeepsClient g (receiveLoop env fd path i chunks) := by
  induction chunks generalizing i with
  | nil => exact keeps_bind keeps_getClient fun _ => keeps_emit _
  | cons chunk rest ih =>
    exact keeps_bind (keeps_bind keeps_getClient fun _ => keeps_bind (keeps_emit _) fun _ =>
      keeps_bind (keeps_emit _) fun _ => keeps_setFiles _) fun _ => ih (i + 1)

theorem keeps_sendFile (env : Env) (h : Verb.retr.Ignores g) (path : Option CStr) :
    KeepsClient g (sendFile env path) := by
  have hlist : Verb.list.Ignores g := fun c fd t => h c fd t c.restorePoint
  have hrest : ∀ c : ClientInfo, g { c with restorePoint := 0 } = g c :=
    fun c => h c c.pasvSockfd c.dataConType 0
  refine keeps_bind (keeps_sceIoOpen _ _ _) fun fd => keeps_ite ?_ (keeps_reply _)
  refine keeps_bind keeps_get fun s => keeps_bind (keeps_emit _) fun _ => ?_
  split
  · exact keeps_reply _
  · exact keeps_bind (keeps_openDataConnection env hlist) fun _ => keeps_bind (keeps_reply _)
      fun _ => keeps_bind (keeps_sendLoop _ _ _ _ _ _ _) fun _ => keeps_bind (keeps_emit _)
      fun _ => keeps_bind (keeps_setClient hrest) fun _ => keeps_bind (keeps_notification _ _ _)
      fun _ => keeps_bind (keeps_reply _) fun _ => keeps_closeDataConnection hlist

theorem keeps_receiveFile (env : Env) (h : Verb.stor.Ignores g) (path : Option CStr) :
    KeepsClient g (receiveFile env path) := by
  have hlist : Verb.list.Ignores g := fun c fd t => h c fd t c.restorePoint
  have hrest : ∀ c : ClientInfo, g { c with restorePoint := 0 } = g c :=
    fun c => h c c.pasvSockfd c.dataConType 0
  have hclose := keeps_closeDataConnection (g := g) hlist
  refine keeps_bind keeps_getClient fun client => keeps_bind (keeps_sceIoOpen _ _ _) fun fd =>
    keeps_ite ?_ (keeps_reply _)
  split
  · exact keeps_reply _
  · refine keeps_bind (keeps_openDataConnection env hlist) fun _ => keeps_bind (keeps_reply _)
      fun _ => keeps_bind (keeps_receiveLoop _ _ _ _ _) fun _ => keeps_bind (keeps_emit _)
      fun _ => keeps_bind (keeps_setClient hrest) fun _ => keeps_ite ?_ ?_
    · exact keeps_bind (keeps_notification _ _ _) fun _ => keeps_bind (keeps_reply _) fun _ => hclose
    · refine keeps_bind (keeps_emit _) fun _ => ?_
      have hend : KeepsClient g (do
          notification env "Not Received: " path
          clientReply "426 Connection closed; transfer aborted."
          clientCloseDataConnection) :=
        keeps_bind (keeps_notification _ _ _) fun _ => keeps_bind (keeps_reply _) fun _ => hclose
      split
      · exact keeps_bind (keeps_setFiles _) fun _ => hend
      · exact hend

theorem keeps_runVerb (env : Env) (v : Verb) (h : v.Ignores g) : KeepsClient g (runVerb env v) := by
  cases v with
  | noop | user | pass | quit | syst | opts => exact keeps_reply _
  | feat => exact keeps_bind (keeps_reply _) fun _ => keeps_bind (keeps_reply _) fun _ =>
      keeps_bind (keeps_reply _) fun _ => keeps_reply _
  | pasv => exact keeps_pasv env h
  | port => exact keeps_port env h
  | list => exact keeps_list env h
  | pwd => exact keeps_bind keeps_getClient fun _ => keeps_ctrlMsg _
  | cwd => exact keeps_cwd env h
  | type => exact keeps_type
  | cdup => exact keeps_cdup h
  | retr => exact keeps_bind (keeps_genFtpFullpath env) fun _ => keeps_sendFile env h _
  | stor => exact keeps_bind (keeps_genFtpFullpath env) fun _ => keeps_receiveFile env h _
  | dele => exact keeps_dele env
  | rmd => exact keeps_rmd env
  | mkd => exact keeps_mkd env
  | rnfr => exact keeps_rnfr env h
  | rnto => exact keeps_rnto env
  | size => exact keeps_size env
  | rest => exact keeps_rest h
  | appe =>
    exact keeps_bind (keeps_setClient fun c => h c c.pasvSockfd c.dataConType (-1)) fun _ =>
      keeps_bind (keeps_genFtpFullpath env) fun _ => keeps_receiveFile env h _

end VitaConnect.Ftp
