import VitaConnect.Ftp.ReceiveFile
import VitaConnect.Ftp.SendFile
import VitaConnect.Ftp.Rename
import VitaConnect.Storage.AppendStore

/-! # The files of a session

Each command does one action on the stored files, which its verb, its path and the answers of the
system decide. The files behind a session are what its actions make of the files in front of it, and a
RETR delivers them from the restore point on. A STOR with a restore point appends, whatever the restore
point is; `standardAction` writes at the restore point instead.
-/
namespace VitaConnect.Ftp
open CString Program Storage
set_option autoImplicit false

/-! ## The action of a command -/

/-- What the writes of an upload take. -/
def uploaded (env : Env) : List Byte := takenOf env.sceIoWrite 0 (chunkData env.sceNetRecv)

def storing (restorePoint : BitVec 32) (path : CStr) (data : List Byte) : Action CStr Byte :=
  if restorePoint = 0 then .replace path data else .extend path data

def uploadAction (env : Env) (restorePoint : BitVec 32) (path : CStr) : Action CStr Byte :=
  if env.sceIoOpen < 0 then .nothing
  else if env.malloc = none then storing restorePoint path []
  else if env.sceNetRecvEnd.val = 0 ∨ env.sceIoRemove < 0 then storing restorePoint path (uploaded env)
  else .drop path

/-- Where the file at `path` comes from when `src` is renamed to `dst`. -/
def renameSource (src dst path : CStr) : Option CStr :=
  match below dst path with
  | some rest => some (src ++ rest)
  | none => if (below src path).isSome then none else some path

def commandAction (env : Env) (client : ClientInfo) (path : CStr) : Option Verb → Action CStr Byte
  | some .stor => uploadAction env client.restorePoint path
  | some .appe => uploadAction env (-1) path
  | some .dele => if 0 ≤ env.sceIoRemove then .drop path else .nothing
  | some .rnto =>
    if env.sceIoRename < 0 then .nothing else .remap (renameSource client.renamePath path)
  | _ => .nothing

def roundAction (s : Session) (round : Round) : Action CStr Byte :=
  ((namedPath s round).bind getVitaPath).elim .nothing fun path =>
    commandAction round.2 s.client path (verbOf s round.1)

/-- The actions of the rounds, each in the state in which it is served. -/
def alongRun {β : Type} (f : Session → Round → β) : Session → List Round → List β
  | _, [] => []
  | s, round :: rounds =>
    f s round ::
      match serve round s with
      | .ok _ t => alongRun f t rounds
      | .error _ _ => []

/-! ## What each handler does to the files -/

abbrev KeepsFiles {α : Type} (x : FtpM α) : Prop := Keeps Session.files x

theorem keepsFiles_store (buf : Buffer) (str : CStr) : KeepsFiles (store buf str) :=
  keeps_ite (keeps_pure _) (keeps_throw _)

theorem keepsFiles_storeScanned (buf : Buffer) (scan : Option CStr) :
    KeepsFiles (storeScanned buf scan) := by
  cases scan with
  | none => exact keeps_pure _
  | some str => exact keepsFiles_store buf str

theorem keepsFiles_emit (e : Event) : KeepsFiles (emit e) := keeps_modify fun _ => rfl

theorem keepsFiles_setClient (f : ClientInfo → ClientInfo) : KeepsFiles (setClient f) :=
  keeps_modify fun _ => rfl

theorem keepsFiles_getClient : KeepsFiles getClient := fun _ => rfl

theorem keepsFiles_genFtpFullpath (env : Env) : KeepsFiles (genFtpFullpath env) := by
  intro s
  have hkeeps : finalState (genFtpFullpath env s) = s := genFtpFullpath_keeps env s
  simp only [hkeeps]

theorem keepsFiles_notification (env : Env) (text : String) (path : Option CStr) :
    KeepsFiles (notification env text path) := by
  refine keeps_ite ?_ (keeps_pure _)
  split
  · exact keeps_throw _
  · exact keepsFiles_emit _

theorem keepsFiles_renameNotification (env : Env) (src : CStr) (dst : Option CStr) :
    KeepsFiles (renameNotification env src dst) := by
  refine keeps_ite ?_ (keeps_pure _)
  split
  · exact keepsFiles_emit _
  · exact keeps_throw _

theorem keepsFiles_openDataConnection (env : Env) : KeepsFiles (clientOpenDataConnection env) := by
  intro s
  rw [clientOpenDataConnection_apply]
  rfl

theorem keepsFiles_closeDataConnection : KeepsFiles clientCloseDataConnection := by
  intro s
  rw [clientCloseDataConnection_apply]
  rfl

theorem keepsFiles_sendLines (env : Env) (entries : List (Bool × SceIoStat × CStr)) (i : ℕ) :
    KeepsFiles (sendLines env i entries) := by
  induction entries generalizing i with
  | nil => exact keeps_pure _
  | cons entry rest ih =>
    obtain ⟨dir, stat, name⟩ := entry
    exact keeps_bind (keeps_bind keepsFiles_getClient fun _ => keepsFiles_emit _) fun _ => ih (i + 1)

theorem keepsFiles_sendList (env : Env) (path : CStr) : KeepsFiles (sendList env path) := by
  refine keeps_ite ?_ (keeps_bind (keepsFiles_emit _) fun _ => keeps_ite (keepsFiles_emit _) ?_)
  · exact keeps_bind (keepsFiles_emit _) fun _ => keeps_bind (keepsFiles_openDataConnection env)
      fun _ => keeps_bind (keepsFiles_sendLines _ _ _) fun _ =>
      keeps_bind keepsFiles_closeDataConnection fun _ => keepsFiles_emit _
  · exact keeps_bind (keepsFiles_emit _) fun _ => keeps_bind (keepsFiles_openDataConnection env)
      fun _ => keeps_bind (keepsFiles_sendLines _ _ _) fun _ => keeps_bind (keepsFiles_emit _)
      fun _ => keeps_bind keepsFiles_closeDataConnection fun _ => keepsFiles_emit _

theorem keepsFiles_dirUp (path : CStr) : KeepsFiles (dirUp path) := by
  refine keeps_ite (keeps_pure _) (keeps_ite (keeps_pure _) ?_)
  split
  · exact keeps_throw _
  · exact keeps_bind (keepsFiles_store _ _) fun _ => keeps_pure _

theorem keepsFiles_cwdEnter (env : Env) (cmdPath : CStr) : KeepsFiles (cwdEnter env cmdPath) := by
  refine keeps_bind keepsFiles_getClient fun _ => keeps_bind (keepsFiles_store _ _) fun _ =>
    keeps_ite ?_ (keeps_bind (keepsFiles_emit _) fun _ => keeps_ite (keepsFiles_emit _) ?_)
  · exact keeps_bind (keepsFiles_store _ _) fun _ => keeps_bind (keepsFiles_setClient _) fun _ =>
      keepsFiles_emit _
  · exact keeps_bind (keepsFiles_emit _) fun _ => keeps_bind (keepsFiles_store _ _) fun _ =>
      keeps_bind (keepsFiles_setClient _) fun _ => keepsFiles_emit _

theorem keepsFiles_cwd (env : Env) : KeepsFiles (cmdCwdFunc env) := by
  refine keeps_bind keepsFiles_getClient fun client => ?_
  split
  · exact keepsFiles_emit _
  · refine keeps_bind (keepsFiles_store _ _) fun _ => keeps_ite ?_ (keeps_ite ?_ ?_)
    · exact keeps_bind (keepsFiles_store _ _) fun _ => keeps_bind (keepsFiles_setClient _) fun _ =>
        keepsFiles_emit _
    · exact keeps_bind (keepsFiles_dirUp _) fun _ => keeps_bind (keepsFiles_setClient _) fun _ =>
        keepsFiles_emit _
    · exact keepsFiles_cwdEnter env _

theorem keepsFiles_sendFile (env : Env) (path : Option CStr) : KeepsFiles (sendFile env path) := by
  intro s
  by_cases hopen : env.sceIoOpen < 0
  · rw [sendFile_notFound path s hopen]
    rfl
  · cases hm : env.malloc with
    | none =>
      rw [sendFile_noMemory path s (by omega) hm]
      rfl
    | some buffer =>
      rw [sendFile_transfer path s (by omega) hm]
      dsimp only
      split_ifs <;> rfl

/-- The verbs whose handlers write to the store. -/
def Verb.writes : Verb → Bool
  | .stor | .appe | .dele | .rnto => true
  | _ => false

theorem keepsFiles_runVerb (env : Env) (v : Verb) (h : v.writes = false) :
    KeepsFiles (runVerb env v) := by
  have hreply : ∀ str, KeepsFiles (clientReply str) := fun str => keepsFiles_emit _
  have hpath := keepsFiles_genFtpFullpath env
  cases v with
  | stor | appe | dele | rnto => cases h
  | noop | user | pass | quit | syst | opts => exact hreply _
  | feat =>
    exact keeps_bind (hreply _) fun _ => keeps_bind (hreply _) fun _ => keeps_bind (hreply _)
      fun _ => hreply _
  | pasv =>
    exact keeps_bind keepsFiles_getClient fun _ => keeps_bind (keepsFiles_store _ _) fun _ =>
      keeps_bind (keepsFiles_emit _) fun _ => keeps_bind (keepsFiles_setClient _) fun _ =>
      keeps_bind (keepsFiles_emit _) fun _ => keeps_bind (keepsFiles_emit _) fun _ =>
      keeps_bind (keepsFiles_store _ _) fun _ => keeps_bind (keepsFiles_emit _) fun _ =>
      keepsFiles_setClient _
  | port =>
    exact keeps_bind keepsFiles_getClient fun _ => keeps_bind (keepsFiles_store _ _) fun _ =>
      keeps_bind (keepsFiles_store _ _) fun _ => keeps_bind (keepsFiles_emit _) fun _ =>
      keeps_bind (keepsFiles_setClient _) fun _ => hreply _
  | list =>
    exact keeps_bind keepsFiles_getClient fun _ => keeps_bind (keepsFiles_storeScanned _ _) fun _ =>
      keepsFiles_sendList env _
  | pwd => exact keeps_bind keepsFiles_getClient fun _ => keepsFiles_emit _
  | cwd => exact keepsFiles_cwd env
  | type =>
    refine keeps_bind keepsFiles_getClient fun client => ?_
    split
    · exact hreply _
    · exact keeps_bind (keepsFiles_storeScanned _ _) fun _ => keeps_ite (hreply _) (hreply _)
  | cdup =>
    exact keeps_bind keepsFiles_getClient fun _ => keeps_bind (keepsFiles_dirUp _) fun _ =>
      keeps_bind (keepsFiles_setClient _) fun _ => hreply _
  | retr => exact keeps_bind hpath fun _ => keepsFiles_sendFile env _
  | rmd =>
    exact keeps_bind hpath fun _ => keeps_bind (keepsFiles_emit _) fun _ =>
      keeps_ite (keeps_bind (keepsFiles_notification _ _ _) fun _ => hreply _)
        (keeps_ite (hreply _) (hreply _))
  | mkd =>
    exact keeps_bind hpath fun _ => keeps_bind (keepsFiles_emit _) fun _ =>
      keeps_ite (keeps_bind (keepsFiles_notification _ _ _) fun _ => hreply _) (hreply _)
  | rnfr =>
    refine keeps_bind hpath fun path => keeps_ite ?_ (hreply _)
    split
    · exact keeps_throw _
    · exact keeps_bind (keepsFiles_store _ _) fun _ => keeps_bind (keepsFiles_setClient _) fun _ =>
        hreply _
  | size =>
    refine keeps_bind hpath fun path => ?_
    split
    · exact hreply _
    · exact keeps_bind (keepsFiles_store _ _) fun _ => keepsFiles_emit _
  | rest =>
    refine keeps_bind keepsFiles_getClient fun client => ?_
    split
    · exact keeps_throw _
    · exact keeps_bind (keepsFiles_setClient _) fun _ => keeps_bind (keepsFiles_store _ _) fun _ =>
        keepsFiles_emit _

/-- An action on the file that a command names, when it names one. -/
abbrev onPath (path : Option CStr) (action : CStr → Action CStr Byte) : Action CStr Byte :=
  path.elim .nothing action

section Handlers
variable {env : Env} {s u : Session}

theorem genFtpFullpath_ok {path : CStr} (h : genFtpFullpath env s = .ok path u) :
    u = s ∧ path = fullPath s.client.curPath (ftpName env s.client.recvCmdArgs) := by
  obtain rfl : u = s := (genFtpFullpath_keeps env).ok h
  refine ⟨rfl, ?_⟩
  obtain ⟨client, m, hm, h⟩ := bind_ok h
  cases hm
  obtain ⟨_, m, -, h⟩ := bind_ok h
  rw [ite_run] at h
  split at h
  · exact (EStateM.Result.ok.inj h).1.symm
  · cases h

/-- `SCE_O_TRUNC` and `SCE_O_APPEND`, then the writes. -/
theorem opened_written (files : Files) (path : CStr) (restorePoint : BitVec 32) (data : List Byte) :
    (files.opened (some path) (receiveMode restorePoint)).written (some path) data
      = (storing restorePoint path data).apply 0 files := by
  unfold receiveMode storing
  split
  · simp [Files.opened, Files.written, Files.contents, Action.apply]
  · simp [Files.opened, Files.written, Files.contents, Action.apply]

theorem opened_nil (files : Files) (path : CStr) (restorePoint : BitVec 32) :
    files.opened (some path) (receiveMode restorePoint) = (storing restorePoint path []).apply 0 files := by
  rw [← opened_written, Files.opened_written_nil]

theorem removed_storing (files : Files) (path : CStr) (restorePoint : BitVec 32) (data : List Byte) :
    Files.removed ((storing restorePoint path data).apply 0 files) (some path)
      = (Action.drop path).apply 0 files := by
  unfold storing
  split
  · simp [Files.removed, Action.apply]
  · simp [Files.removed, Action.apply]

theorem opened_none (files : Files) (mode : OpenMode) : files.opened none mode = files := by
  cases mode <;> rfl

theorem keepsFiles_receiveFile_none (env : Env) : KeepsFiles (receiveFile env none) := by
  intro s
  by_cases hopen : env.sceIoOpen < 0
  · rw [receiveFile_notFound none s hopen]
    rfl
  · cases hm : env.malloc with
    | none =>
      rw [receiveFile_noMemory none s (by omega) hm]
      exact opened_none ..
    | some buffer =>
      have hfiles : (receivedState env none s).files = s.files := opened_none ..
      rw [receiveFile_transfer none s (by omega) hm]
      dsimp only
      split_ifs <;> exact hfiles

theorem receiveFile_files {path : Option CStr} (h : receiveFile env path s = .ok ⟨⟩ u) :
    u.files = (onPath path (uploadAction env s.client.restorePoint)).apply 0 s.files := by
  cases path with
  | none => exact (keepsFiles_receiveFile_none env).ok h
  | some path =>
    show u.files = (uploadAction env s.client.restorePoint path).apply 0 s.files
    unfold uploadAction
    by_cases hopen : env.sceIoOpen < 0
    · rw [receiveFile_notFound _ s hopen] at h
      cases h
      rw [if_pos hopen]
      rfl
    · rw [if_neg hopen]
      cases hm : env.malloc with
      | none =>
        rw [receiveFile_noMemory _ s (by omega) hm] at h
        cases h
        rw [if_pos rfl]
        exact opened_nil ..
      | some buffer =>
        rw [receiveFile_transfer _ s (by omega) hm] at h
        rw [if_neg (by simp)]
        have hstored : (receivedState env (some path) s).files
            = (storing s.client.restorePoint path (uploaded env)).apply 0 s.files := opened_written ..
        by_cases hend : env.sceNetRecvEnd.val = 0
        · simp only [hend, if_true] at h
          rw [if_pos (Or.inl hend)]
          split_ifs at h
          cases h
          exact hstored
        · simp only [hend, if_false] at h
          by_cases hrm : 0 ≤ env.sceIoRemove
          · rw [if_neg (by omega)]
            simp only [hrm, if_true] at h
            split_ifs at h
            cases h
            show (receivedState env (some path) s).files.removed (some path) = _
            rw [hstored, removed_storing]
          · rw [if_pos (by omega)]
            simp only [hrm, if_false] at h
            split_ifs at h
            cases h
            exact hstored

theorem deleteFile_files {path : Option CStr} (h : deleteFile env path s = .ok ⟨⟩ u) :
    u.files = (onPath path fun p => if 0 ≤ env.sceIoRemove then .drop p else .nothing).apply 0
      s.files := by
  obtain ⟨_, m, hm, h⟩ := bind_ok h
  cases hm
  rw [ite_run] at h
  have hanswer : KeepsFiles (do
      notification env "File(s) Deleted: " path
      clientReply "226 File deleted.") :=
    keeps_bind (keepsFiles_notification _ _ _) fun _ => keepsFiles_emit _
  by_cases hrm : 0 ≤ env.sceIoRemove
  · rw [if_pos hrm] at h
    obtain ⟨_, m, hm, h⟩ := bind_ok h
    cases hm
    rw [hanswer.ok h]
    cases path <;> simp [onPath, Files.removed, Action.apply, hrm]
  · rw [if_neg hrm] at h
    cases h
    cases path <;> simp [onPath, Action.apply, hrm]

theorem renamed_eq (files : Files) (src dst : CStr) :
    files.renamed src (some dst) = (Action.remap (renameSource src dst)).apply 0 files := by
  funext path
  show (match below dst path with
    | some rest => files (src ++ rest)
    | none => if (below src path).isSome then none else files path) = (renameSource src dst path).bind files
  unfold renameSource
  cases below dst path with
  | some rest => rfl
  | none =>
    dsimp only
    split_ifs <;> rfl

theorem renameAnswer_files {src : CStr} {dst : Option CStr}
    (h : renameAnswer env src dst s = .ok ⟨⟩ u) :
    u.files = (onPath dst fun p => if env.sceIoRename < 0 then .nothing
      else .remap (renameSource src p)).apply 0 s.files := by
  have hanswer : KeepsFiles (do
      renameNotification env src dst
      clientReply "226 Rename completed.") :=
    keeps_bind (keepsFiles_renameNotification _ _ _) fun _ => keepsFiles_emit _
  by_cases hfail : env.sceIoRename < 0
  · rw [renameAnswer, if_pos hfail] at h
    obtain ⟨_, m, hm, h⟩ := bind_ok h
    cases hm
    rw [hanswer.ok h]
    cases dst <;> simp [onPath, Action.apply, hfail]
  · rw [renameAnswer, if_neg hfail] at h
    obtain ⟨_, m, hm, h⟩ := bind_ok h
    cases hm
    rw [hanswer.ok h]
    cases dst with
    | none => rfl
    | some p => simp [onPath, renamed_eq, hfail]

end Handlers

/-! ## Rounds -/

theorem commandAction_nothing (env : Env) (client : ClientInfo) (path : CStr) {v : Verb}
    (h : v.writes = false) : commandAction env client path (some v) = .nothing := by
  cases v with
  | stor | appe | dele | rnto => cases h
  | _ => rfl

theorem handle_files {verb : Option Verb} {env : Env} {s u : Session}
    (h : handle verb env s = .ok ⟨⟩ u) :
    u.files = (onPath (getVitaPath (fullPath s.client.curPath (ftpName env s.client.recvCmdArgs)))
      fun path => commandAction env s.client path verb).apply 0 s.files := by
  have hnothing : ∀ path : Option CStr, (onPath path fun _ => .nothing).apply 0 s.files = s.files := by
    intro path
    cases path <;> rfl
  cases verb with
  | none =>
    cases h
    exact (hnothing _).symm
  | some v =>
    by_cases hwrites : v.writes = false
    · have hkeeps : KeepsFiles (handle (some v) env) := keepsFiles_runVerb env v hwrites
      simp only [commandAction_nothing env s.client _ hwrites]
      exact (hkeeps.ok h).trans (hnothing _).symm
    · cases v with
      | stor =>
        obtain ⟨path, m, hm, h⟩ := bind_ok h
        obtain ⟨rfl, rfl⟩ := genFtpFullpath_ok hm
        exact receiveFile_files h
      | appe =>
        obtain ⟨_, m, hm, h⟩ := bind_ok h
        cases hm
        obtain ⟨path, m, hm, h⟩ := bind_ok h
        obtain ⟨rfl, rfl⟩ := genFtpFullpath_ok hm
        exact receiveFile_files h
      | dele =>
        obtain ⟨path, m, hm, h⟩ := bind_ok h
        obtain ⟨rfl, rfl⟩ := genFtpFullpath_ok hm
        exact deleteFile_files h
      | rnto =>
        obtain ⟨path, m, hm, h⟩ := bind_ok h
        obtain ⟨rfl, rfl⟩ := genFtpFullpath_ok hm
        have hanswer : renameAnswer env m.client.renamePath
            (getVitaPath (fullPath m.client.curPath (ftpName env m.client.recvCmdArgs)))
            { m with trace := m.trace ++ [.rename m.client.renamePath
                (getVitaPath (fullPath m.client.curPath (ftpName env m.client.recvCmdArgs)))
                env.sceIoRename] } = .ok ⟨⟩ u := h
        have hfiles := renameAnswer_files hanswer
        exact hfiles
      | _ => exact absurd rfl hwrites

theorem serve_files {round : Round} {s u : Session} (h : serve round s = .ok ⟨⟩ u) :
    u.files = (roundAction s round).apply 0 s.files := by
  obtain ⟨msg, env⟩ := round
  obtain ⟨line, hline, -, hhandle⟩ := serve_ok h
  have hpath : namedPath s (msg, env) = some (fullPath s.client.curPath (ftpName env (cmdArgs line))) := by
    rw [namedPath, hline]
    rfl
  rw [handle_files hhandle, roundAction, hpath]
  rfl

/-! ## Sessions -/

theorem alongRun_cons_ok {β : Type} (f : Session → Round → β) {round : Round} {s m : Session}
    (h : serve round s = .ok ⟨⟩ m) (rounds : List Round) :
    alongRun f s (round :: rounds) = f s round :: alongRun f m rounds := by
  rw [alongRun, h]

theorem alongRun_append {β : Type} (f : Session → Round → β) {before : List Round} {s m : Session}
    (h : runAll serve before s = .ok ⟨⟩ m) (after : List Round) :
    alongRun f s (before ++ after) = alongRun f s before ++ alongRun f m after := by
  induction before generalizing s with
  | nil =>
    obtain rfl : s = m := by simpa [runAll_nil] using h
    rfl
  | cons round before ih =>
    obtain ⟨_, t, ht, h⟩ := bind_ok h
    rw [List.cons_append, alongRun_cons_ok f ht, alongRun_cons_ok f ht, ih h]
    rfl

/-- The files behind a session are what the actions of its commands make of the files in front. -/
theorem session_files {rounds : List Round} {s t : Session} (h : runAll serve rounds s = .ok ⟨⟩ t) :
    t.files = applyAll 0 s.files (alongRun roundAction s rounds) := by
  induction rounds generalizing s with
  | nil =>
    obtain rfl : s = t := by simpa [runAll_nil] using h
    rfl
  | cons round rounds ih =>
    obtain ⟨_, m, hm, h⟩ := bind_ok h
    rw [alongRun_cons_ok _ hm, ih h, serve_files hm]
    rfl

/-! ## What RETR delivers -/

/-- The calls of a RETR of `content` all succeed, from the restore point to the end. -/
structure DeliversWhole (env : Env) (content : List Byte) (restorePoint : BitVec 32) : Prop where
  opened : 0 ≤ env.sceIoOpen
  memory : env.malloc ≠ none
  seeks : env.sceIoLseek32 restorePoint = restorePoint.toNat
  reads : ReadAnswers content env.fileBufSize env.sceIoRead restorePoint.toNat
  noError : ∀ ret ∈ env.sceIoRead, 0 ≤ ret
  ends : 0 ∈ env.sceIoRead
  sends : ∀ j ret, env.sceIoRead[j]? = some ret → ret.toNat ≤ (env.sceNetSend j).toNat

theorem sendFile_delivers {env : Env} {path : CStr} {s u : Session} {content : List Byte}
    (hfile : s.files path = some content) (h : DeliversWhole env content s.client.restorePoint)
    (hu : sendFile env (some path) s = .ok ⟨⟩ u) :
    ∃ es, u.trace = s.trace ++ es ∧ acceptedData es = content.drop s.client.restorePoint.toNat ∧
      bytes "226 Transfer completed." ++ eol ∈ ctrlMsgs es := by
  obtain ⟨buffer, hm⟩ := Option.ne_none_iff_exists'.mp h.memory
  obtain ⟨ys, htrace, hquiet, h226⟩ := sendFile_trace (some path) s h.opened hm
  have hends : ReadsEnd env := (readAnswers_end_iff _ _ h.reads).mpr h.ends
  have hfaults : ¬ NotificationFaults env (some path) := by
    intro hfaults
    rw [sendFile_transfer (some path) s h.opened hm, if_pos hends] at hu
    dsimp only at hu
    rw [if_pos hfaults] at hu
    cases hu
  have hcontents : s.files.contents (some path) = content := by
    simp [Files.contents, hfile]
  rw [hu, hcontents, h.seeks] at htrace
  refine ⟨_, htrace, ?_, ?_⟩
  · obtain ⟨-, -, -, haccepted⟩ := views_between
      (sendEvents env env.sceIoOpen (s.client.opened env).transferFd content env.sceIoRead 0
        s.client.restorePoint.toNat buffer) (beforeSending_quiet env (some path) s.client) hquiet
    obtain ⟨-, hsent⟩ := sendEvents_sends env env.sceIoOpen (s.client.opened env).transferFd env.sceIoRead
      0 s.client.restorePoint.toNat buffer h.reads h.noError
    have hwhole : takenOf env.sceNetSend 0 (readChunks content env.sceIoRead s.client.restorePoint.toNat)
        = (readChunks content env.sceIoRead s.client.restorePoint.toNat).flatten := by
      rw [takenOf_eq_flatten_iff]
      simp only [Nat.zero_add]
      exact (readChunks_bounded_iff _ _ h.reads h.noError fun j => (env.sceNetSend j).toNat).mpr h.sends
    rw [haccepted, hsent, hwhole, readChunks_complete _ _ h.reads h.ends]
  · rw [ctrlMsgs_append]
    exact List.mem_append_right _ (h226.mpr ⟨hends, hfaults⟩)

/-- A RETR that comes to its end delivers the file that it names. -/
theorem serve_delivers {msg : List Byte} {env : Env} {t u : Session} {path : CStr} {content : List Byte}
    (hserve : serve (msg, env) t = .ok ⟨⟩ u) (hretr : verbOf t msg = some .retr)
    (hpath : (namedPath t (msg, env)).bind getVitaPath = some path) (hfile : t.files path = some content)
    (h : DeliversWhole env content t.client.restorePoint) :
    ∃ es, u.trace = t.trace ++ es ∧ acceptedData es = content.drop t.client.restorePoint.toNat ∧
      bytes "226 Transfer completed." ++ eol ∈ ctrlMsgs es := by
  obtain ⟨line, hline, -, hhandle⟩ := serve_ok hserve
  rw [hretr] at hhandle
  obtain ⟨destPath, m, hm, hsend⟩ := bind_ok hhandle
  obtain ⟨rfl, rfl⟩ := genFtpFullpath_ok hm
  have hnamed : namedPath t (msg, env)
      = some (fullPath t.client.curPath (ftpName env (cmdArgs line))) := by
    rw [namedPath, hline]
    rfl
  rw [hnamed] at hpath
  have hsend' : sendFile env (some path) (t.ready msg line) = .ok ⟨⟩ u := by
    rw [← hpath]
    exact hsend
  have hfile' : (t.ready msg line).files path = some content := hfile
  have h' : DeliversWhole env content (t.ready msg line).client.restorePoint := h
  have hdelivered := sendFile_delivers hfile' h' hsend'
  exact hdelivered

/-! ## Round trips -/

/-- The calls of an upload all succeed, and the writes take everything. -/
structure StoresWhole (env : Env) : Prop where
  opened : 0 ≤ env.sceIoOpen
  memory : env.malloc ≠ none
  received : env.sceNetRecvEnd.val = 0
  writes : ∀ j c, (chunkData env.sceNetRecv)[j]? = some c → c.length ≤ (env.sceIoWrite j).toNat

theorem StoresWhole.uploaded {env : Env} (h : StoresWhole env) : uploaded env = receivedBytes env := by
  rw [receivedBytes, Ftp.uploaded, takenOf_eq_flatten_iff]
  simpa only [Nat.zero_add] using h.writes

theorem StoresWhole.action {round : Round} {s : Session} {path : CStr} (h : StoresWhole round.2)
    (hstor : verbOf s round.1 = some .stor) (hpath : (namedPath s round).bind getVitaPath = some path) :
    roundAction s round = storing s.client.restorePoint path (receivedBytes round.2) := by
  have hopen : ¬ round.2.sceIoOpen < 0 := not_lt.mpr h.opened
  rw [roundAction, hpath, hstor, ← h.uploaded]
  show uploadAction round.2 s.client.restorePoint path = _
  rw [uploadAction, if_neg hopen, if_neg h.memory, if_pos (Or.inl h.received)]

theorem StoresWhole.appends {round : Round} {s : Session} {path : CStr} (h : StoresWhole round.2)
    (happe : verbOf s round.1 = some .appe) (hpath : (namedPath s round).bind getVitaPath = some path) :
    roundAction s round = .extend path (receivedBytes round.2) := by
  have hopen : ¬ round.2.sceIoOpen < 0 := not_lt.mpr h.opened
  rw [roundAction, hpath, happe, ← h.uploaded]
  show uploadAction round.2 (-1) path = _
  rw [uploadAction, if_neg hopen, if_neg h.memory, if_pos (Or.inl h.received)]
  rfl

/-- **What is uploaded is what is downloaded.** After a STOR without restore point, and however many
commands that do no more to the file than append to it, a RETR delivers what the STOR has received and the
later uploads have written, from its restore point on. -/
theorem session_roundTrip {before after : List Round} {upload download : Round} {s t u v w : Session}
    {path : CStr} (hbefore : runAll serve before s = .ok ⟨⟩ t) (hupload : serve upload t = .ok ⟨⟩ u)
    (hafter : runAll serve after u = .ok ⟨⟩ v) (hdownload : serve download v = .ok ⟨⟩ w)
    (hstor : verbOf t upload.1 = some .stor) (hzero : t.client.restorePoint = 0)
    (hstored : (namedPath t upload).bind getVitaPath = some path) (hstores : StoresWhole upload.2)
    (hextends : ∀ action ∈ alongRun roundAction u after, action.Extends path)
    (hretr : verbOf v download.1 = some .retr)
    (hfetched : (namedPath v download).bind getVitaPath = some path)
    (hdelivers : DeliversWhole download.2
      (receivedBytes upload.2 ++ ((alongRun roundAction u after).map (·.added path)).flatten)
      v.client.restorePoint) :
    ∃ es, w.trace = v.trace ++ es ∧ bytes "226 Transfer completed." ++ eol ∈ ctrlMsgs es ∧
      acceptedData es
        = (receivedBytes upload.2 ++ ((alongRun roundAction u after).map (·.added path)).flatten).drop
            v.client.restorePoint.toNat := by
  have haction : roundAction t upload = .replace path (receivedBytes upload.2) := by
    rw [hstores.action hstor hstored, storing, if_pos hzero]
  have hrun : runAll serve (before ++ upload :: after) s = .ok ⟨⟩ v := by
    rw [runAll_append, bind_of_ok hbefore, runAll_cons, hupload]
    exact hafter
  have hfile : v.files path
      = some (receivedBytes upload.2 ++ ((alongRun roundAction u after).map (·.added path)).flatten) := by
    rw [session_files hrun, alongRun_append _ hbefore, alongRun_cons_ok _ hupload, haction]
    exact applyAll_since_replace _ _ _ hextends
  obtain ⟨es, htrace, hdata, hreply⟩ := serve_delivers hdownload hretr hfetched hfile hdelivers
  exact ⟨es, htrace, hreply, hdata⟩

def chunkOf (b : Byte) (rest : List Byte) : Chunk := ⟨b :: rest, List.cons_ne_nil b rest⟩

def uploadRound : Round := (bytes "STOR a\r\n", { calmEnv with sceNetRecv := [chunkOf 65 [66]] })

def appendRound : Round := (bytes "APPE a\r\n", { calmEnv with sceNetRecv := [chunkOf 67 []] })

def downloadRound : Round := (bytes "RETR a\r\n", { calmEnv with sceIoRead := [3, 0] })

def uploadedSession : Session := finalState (serve uploadRound newSession)

def appendedSession : Session := finalState (serve appendRound uploadedSession)

theorem storesWhole_of_short {env : Env} (hopen : 0 ≤ env.sceIoOpen) (hmalloc : env.malloc ≠ none)
    (hend : env.sceNetRecvEnd.val = 0) (hwrite : ∀ c ∈ chunkData env.sceNetRecv, ∀ j,
      c.length ≤ (env.sceIoWrite j).toNat) : StoresWhole env :=
  ⟨hopen, hmalloc, hend, fun j c hc => hwrite c (List.mem_of_getElem? hc) j⟩

theorem session_roundTrip_appended :
    ∃ es, (finalState (serve downloadRound appendedSession)).trace = appendedSession.trace ++ es ∧
      acceptedData es = [65, 66, 67] := by
  have hupload : serve uploadRound newSession = .ok ⟨⟩ uploadedSession :=
    eq_ok_of_returned (by decide +kernel)
  have happend : serve appendRound uploadedSession = .ok ⟨⟩ appendedSession :=
    eq_ok_of_returned (by decide +kernel)
  have hdownload : serve downloadRound appendedSession
      = .ok ⟨⟩ (finalState (serve downloadRound appendedSession)) := eq_ok_of_returned (by decide +kernel)
  have hafter : runAll serve [appendRound] uploadedSession = .ok ⟨⟩ appendedSession := by
    rw [runAll_cons, happend]
    rfl
  have hstores : ∀ round ∈ [uploadRound, appendRound], StoresWhole round.2 := by
    intro round hround
    simp only [List.mem_cons, List.not_mem_nil, or_false] at hround
    rcases hround with rfl | rfl
    · refine storesWhole_of_short (by decide) (by decide) (by decide) fun c hc j => ?_
      obtain rfl : c = [65, 66] := by simpa [chunkData, uploadRound, chunkOf] using hc
      exact le_of_lt (by decide : 2 < (2147483647 : ℤ).toNat)
    · refine storesWhole_of_short (by decide) (by decide) (by decide) fun c hc j => ?_
      obtain rfl : c = [67] := by simpa [chunkData, appendRound, chunkOf] using hc
      exact le_of_lt (by decide : 1 < (2147483647 : ℤ).toNat)
  have haction : roundAction uploadedSession appendRound = .extend (bytes "/a") [67] :=
    (hstores appendRound (by simp)).appends (by decide +kernel) (by decide +kernel)
  have hactions : alongRun roundAction uploadedSession [appendRound] = [.extend (bytes "/a") [67]] := by
    rw [alongRun_cons_ok _ happend, haction]
    rfl
  have hdata : receivedBytes uploadRound.2
      ++ ((alongRun roundAction uploadedSession [appendRound]).map (·.added (bytes "/a"))).flatten
        = [65, 66, 67] := by
    rw [hactions]
    decide
  have hdelivers : DeliversWhole downloadRound.2 [65, 66, 67] 0 := by
    refine ⟨by decide, by decide, rfl, ?_, by decide, by decide, fun j ret hj => ?_⟩
    · exact Or.inl ⟨by decide, by decide, by decide, by decide, Or.inr (Or.inl ⟨rfl, by decide, rfl⟩)⟩
    · have hmem : ret ∈ [(3 : ℤ), 0] := List.mem_of_getElem? hj
      have hret : ret = 3 ∨ ret = 0 := by simpa using hmem
      show ret.toNat ≤ (2147483647 : ℤ).toNat
      omega
  have hzero : appendedSession.client.restorePoint = 0 := by decide +kernel
  have hstored : (namedPath newSession uploadRound).bind getVitaPath = some (bytes "/a") := by
    decide +kernel
  have hextends : ∀ action ∈ alongRun roundAction uploadedSession [appendRound],
      action.Extends (bytes "/a") := by
    rw [hactions]
    exact List.forall_mem_singleton.mpr trivial
  obtain ⟨es, htrace, -, hes⟩ := session_roundTrip (runAll_nil serve newSession) hupload hafter hdownload
    (by decide +kernel) (by decide +kernel) hstored (hstores uploadRound (by simp)) hextends
    (by decide +kernel) (by decide +kernel) (by rw [hdata, hzero]; exact hdelivers)
  rw [hdata, hzero] at hes
  exact ⟨es, htrace, hes⟩

/-! ## Restarts -/

/-- The action of a command where a STOR with a restore point writes at the restore point. -/
def standardAction (s : Session) (round : Round) : Action CStr Byte :=
  match roundAction s round with
  | .extend path data =>
    if verbOf s round.1 = some .stor then .overwrite path s.client.restorePoint.toNat data
    else .extend path data
  | action => action

/-- A STOR with a restore point that stores anything starts at the end of the file. -/
def ResumesAtEnd (s : Session) (round : Round) : Prop :=
  ∀ path data, verbOf s round.1 = some .stor → roundAction s round = .extend path data →
    data = [] ∨ s.client.restorePoint.toNat = (s.files.contents (some path)).length

theorem standardAction_iff (s : Session) (round : Round) :
    (roundAction s round).apply 0 s.files = (standardAction s round).apply 0 s.files ↔
      ResumesAtEnd s round := by
  have hother : (∀ path data, roundAction s round ≠ .extend path data) →
      standardAction s round = roundAction s round := by
    intro h
    unfold standardAction
    cases haction : roundAction s round with
    | extend path data => exact absurd haction (h path data)
    | _ => rfl
  by_cases hextend : ∃ path data, roundAction s round = .extend path data
  · obtain ⟨path, data, haction⟩ := hextend
    by_cases hstor : verbOf s round.1 = some .stor
    · have hstandard : standardAction s round = .overwrite path s.client.restorePoint.toNat data := by
        rw [standardAction, haction]
        exact if_pos hstor
      rw [haction, hstandard]
      constructor
      · intro h path' data' _ haction'
        obtain ⟨rfl, rfl⟩ := Action.extend.inj (haction.symm.trans haction')
        have hvalue := congrFun h path
        simp only [Action.apply, Function.update_self, Option.some.injEq] at hvalue
        exact (overwritten_eq_append_iff _ _ _ _).mp hvalue.symm
      · intro h
        have hvalue := (overwritten_eq_append_iff 0 (s.files.contents (some path)) data
          s.client.restorePoint.toNat).mpr (h path data hstor haction)
        show Function.update s.files path (some (s.files.contents (some path) ++ data)) = _
        rw [← hvalue]
        rfl
    · have hstandard : standardAction s round = .extend path data := by
        rw [standardAction, haction]
        exact if_neg hstor
      rw [haction, hstandard]
      exact iff_of_true rfl fun _ _ h => absurd h hstor
  · rw [not_exists] at hextend
    rw [hother fun path data h => hextend path ⟨data, h⟩]
    exact iff_of_true rfl fun path data _ h => absurd ⟨data, h⟩ (hextend path)

/-- **When a restart is the standard's.** The files of a session are at every point what the commands ask
for, restarts at their restore points included, exactly when every STOR with a restore point starts at the
end of the file: the server appends. -/
theorem session_standard_iff {rounds : List Round} {s t : Session}
    (hrun : runAll serve rounds s = .ok ⟨⟩ t) :
    (∀ before after m, rounds = before ++ after → runAll serve before s = .ok ⟨⟩ m →
        m.files = applyAll 0 s.files (alongRun standardAction s before)) ↔
      Along ResumesAtEnd serve s rounds := by
  induction rounds generalizing s with
  | nil =>
    refine iff_of_true (fun before after m hsplit hm => ?_) trivial
    obtain ⟨rfl, -⟩ := List.append_eq_nil_iff.mp hsplit.symm
    obtain rfl : s = m := by simpa [runAll_nil] using hm
    rfl
  | cons round rounds ih =>
    obtain ⟨_, u, hu, hrun⟩ := bind_ok hrun
    have hstep : Along ResumesAtEnd serve s (round :: rounds) ↔
        ResumesAtEnd s round ∧ Along ResumesAtEnd serve u rounds := by
      refine and_congr_right fun _ => ⟨fun h => h u hu, fun h m hm => ?_⟩
      obtain ⟨-, rfl⟩ := EStateM.Result.ok.inj (hu.symm.trans hm)
      exact h
    rw [hstep, ← ih hrun, ← standardAction_iff, ← serve_files hu]
    constructor
    · intro h
      have hfirst : u.files = (standardAction s round).apply 0 s.files := by
        have hone : runAll serve [round] s = .ok ⟨⟩ u := by
          rw [runAll_cons, hu]
          rfl
        rw [h [round] rounds u rfl hone, alongRun_cons_ok _ hu]
        rfl
      refine ⟨hfirst, fun before after m hsplit hm => ?_⟩
      have hmore : runAll serve (round :: before) s = .ok ⟨⟩ m := by
        rw [runAll_cons, hu]
        exact hm
      rw [h (round :: before) after m (congrArg (round :: ·) hsplit) hmore, alongRun_cons_ok _ hu, hfirst]
      rfl
    · rintro ⟨hfirst, hrest⟩ before after m hsplit hm
      cases before with
      | nil =>
        obtain rfl : s = m := by simpa [runAll_nil] using hm
        rfl
      | cons first before =>
        obtain ⟨rfl, hrounds⟩ := List.cons.inj hsplit
        rw [runAll_cons, hu] at hm
        rw [hrest before after m hrounds hm, alongRun_cons_ok _ hu, hfirst]
        rfl

/-- `A` stored by a STOR, then `B` by a STOR that REST lets start at the end of the file. -/
def restartedRounds : List Round :=
  [(bytes "STOR a\r\n", { calmEnv with sceNetRecv := [chunkOf 65 []] }), (bytes "REST 1\r\n", calmEnv),
    (bytes "STOR a\r\n", { calmEnv with sceNetRecv := [chunkOf 66 []] })]

theorem session_standard_iff_restarted :
    (∀ before after m, restartedRounds = before ++ after → runAll serve before newSession = .ok ⟨⟩ m →
        m.files = applyAll 0 newSession.files (alongRun standardAction newSession before)) ↔
      Along ResumesAtEnd serve newSession restartedRounds :=
  session_standard_iff (eq_ok_of_returned (by decide +kernel))

end VitaConnect.Ftp
