import VitaConnect.Ftp.CommandLine
import VitaConnect.Ftp.Invariant
import VitaConnect.Ftp.TransferRun
import VitaConnect.CString.Decimal

/-! # The strings that the command path stores

Most of the arrays are large enough for anything that 511 bytes of a line can put there. Four are
not: `recv_buffer` of a full message has no NUL, and `cmd`, `format_control` and `ip_str` are filled
without a width. `FitsRound` says of one message that it stays inside them.
-/
namespace VitaConnect.Ftp
open CString Program
set_option autoImplicit false

/-- An end that is not a store outside an array or a read of an array without a NUL. -/
def Halt.InBounds : Halt → Prop
  | .fault (.overflow _) => False
  | .fault (.unterminated _) => False
  | _ => True

/-! ## Texts whose length the types bound -/

theorem intDec_toInt_length_le (x : BitVec 32) : (intDec x.toInt).length ≤ 11 := by
  have h1 := x.toInt_lt
  have h2 := x.le_toInt
  exact intDec_length_le (k := 10) (by decide) (by omega)

theorem dataSocketName_fits (num : BitVec 32) :
    (dataSocketName num).length < Buffer.dataSocketName.size := by
  have h := intDec_toInt_length_le num
  have h1 : (bytes "FTPVita_client_").length = 15 := by decide
  have h2 : (bytes "_data_socket").length = 12 := by decide
  simp only [dataSocketName, List.length_append, h1, h2, Buffer.size]
  omega

theorem restReply_fits (restorePoint : BitVec 32) :
    (restReply restorePoint).length < Buffer.restCmd.size := by
  have h := intDec_toInt_length_le restorePoint
  have h1 : (bytes "350 Resuming at ").length = 16 := by decide
  have h2 : eol.length = 2 := rfl
  simp only [restReply, List.length_append, h1, h2, Buffer.size]
  omega

theorem sizeReply_fits (size : BitVec 64) : (sizeReply size).length < Buffer.sizeCmd.size := by
  have hlt := size.toInt_lt
  have hle := size.le_toInt
  have h : (intDec size.toInt).length ≤ 20 := intDec_length_le (k := 19) (by decide) (by omega)
  have h1 : (bytes "213 ").length = 4 := by decide
  have h2 : eol.length = 2 := rfl
  simp only [sizeReply, List.length_append, h1, h2, Buffer.size]
  omega

theorem pasvReply_fits (vitaAddr : UInt32) (port : UInt16) :
    (pasvReply vitaAddr port).length < Buffer.pasvCmd.size := by
  have hand : ∀ n : ℕ, n &&& 255 < 1000 := fun n =>
    Nat.lt_of_le_of_lt Nat.and_le_right (by decide)
  have h : (commas (pasvNumbers vitaAddr port)).length < 4 * 6 :=
    joined_length_lt 44 (List.cons_ne_nil _ _) (by simp [pasvNumbers, hand])
  have h1 : (bytes "227 Entering Passive Mode (").length = 27 := by decide
  have h2 : (bytes ")").length = 1 := by decide
  have h3 : eol.length = 2 := rfl
  simp only [pasvReply, List.length_append, h1, h2, h3, Buffer.size]
  omega

theorem cmdPasvFunc_apply (env : Env) (s : Session) :
    cmdPasvFunc env s = .ok ⟨⟩ { s with
      client := { s.client with
        dataSockfd := env.sceNetSocket
        dataSockaddr := ⟨0, 0⟩
        dataConType := .passive }
      trace := s.trace ++ [.socket env.sceNetSocket, .bind env.sceNetSocket, .listen env.sceNetSocket,
        .ctrlSend (pasvReply env.vitaAddr env.sceNetGetsockname)] } := by
  have hname := dataSocketName_fits s.client.num
  have hfits := pasvReply_fits env.vitaAddr env.sceNetGetsockname
  simp [cmdPasvFunc, bind_apply, store_ok hname, store_ok hfits]

theorem cmdPortFunc_apply (env : Env) {s : Session}
    (hip : (portIpStr env s.client.recvCmdArgs).length < Buffer.ipStr.size) :
    cmdPortFunc env s = .ok ⟨⟩ { s with
      client := { s.client with
        dataSockfd := env.sceNetSocket
        dataSockaddr := ⟨(sceNetInetPton (portIpStr env s.client.recvCmdArgs)).getD env.stackAddr,
          sceNetHtons (portDataPort env s.client.recvCmdArgs)⟩
        dataConType := .active }
      trace := s.trace ++ [.socket env.sceNetSocket,
        .ctrlSend (bytes "200 PORT command successful!" ++ eol)] } := by
  have hname := dataSocketName_fits s.client.num
  simp [cmdPortFunc, bind_apply, store_ok hip, store_ok hname]

/-! ## Steps that always stay inside -/

section Steps
variable (s : Session)

theorem inBounds_emit (e : Event) : ErrsIn Halt.InBounds (emit e) s := errsIn_of_ok (emit_apply e s)

theorem inBounds_reply (str : String) : ErrsIn Halt.InBounds (clientReply str) s :=
  errsIn_of_ok (clientReply_apply str s)

theorem inBounds_ctrlMsg (str : CStr) : ErrsIn Halt.InBounds (clientSendCtrlMsg str) s :=
  errsIn_of_ok (clientSendCtrlMsg_apply str s)

theorem inBounds_getClient : ErrsIn Halt.InBounds getClient s := errsIn_of_ok (getClient_apply s)

theorem inBounds_setClient (f : ClientInfo → ClientInfo) : ErrsIn Halt.InBounds (setClient f) s :=
  errsIn_of_ok (setClient_apply f s)

theorem inBounds_setFiles (f : Files → Files) : ErrsIn Halt.InBounds (setFiles f) s :=
  errsIn_of_ok (setFiles_apply f s)

theorem inBounds_store {buf : Buffer} {str : CStr} (h : str.length < buf.size) :
    ErrsIn Halt.InBounds (store buf str) s := errsIn_of_ok (store_ok h s)

theorem inBounds_notification (env : Env) (text : String) (path : Option CStr) :
    ErrsIn Halt.InBounds (notification env text path) s := by
  intro e t h
  rw [notification_apply] at h
  split at h
  · cases h
    trivial
  · cases h

theorem inBounds_sendFile (env : Env) (path : Option CStr) :
    ErrsIn Halt.InBounds (sendFile env path) s := by
  by_cases hopen : env.sceIoOpen < 0
  · exact errsIn_of_ok (sendFile_notFound path s hopen)
  · cases hm : env.malloc with
    | none => exact errsIn_of_ok (sendFile_noMemory path s (by omega) hm)
    | some buffer =>
      intro e t h
      rw [sendFile_transfer path s (by omega) hm] at h
      dsimp only at h
      split_ifs at h <;> cases h <;> trivial

theorem inBounds_receiveFile (env : Env) (path : Option CStr) :
    ErrsIn Halt.InBounds (receiveFile env path) s := by
  by_cases hopen : env.sceIoOpen < 0
  · exact errsIn_of_ok (receiveFile_notFound path s hopen)
  · cases hm : env.malloc with
    | none => exact errsIn_of_ok (receiveFile_noMemory path s (by omega) hm)
    | some buffer =>
      intro e t h
      rw [receiveFile_transfer path s (by omega) hm] at h
      dsimp only at h
      split_ifs at h <;> cases h <;> trivial

theorem inBounds_sendLines (env : Env) (entries : List (Bool × SceIoStat × CStr)) (i : ℕ) :
    ErrsIn Halt.InBounds (sendLines env i entries) s := by
  induction entries generalizing i s with
  | nil => exact errsIn_pure _ s
  | cons entry rest ih =>
    obtain ⟨dir, stat, name⟩ := entry
    exact errsIn_seq (errsIn_seq inBounds_getClient fun _ t => inBounds_emit t _)
      (fun _ t => ih t (i + 1)) s

theorem inBounds_openDataConnection (env : Env) :
    ErrsIn Halt.InBounds (clientOpenDataConnection env) s :=
  errsIn_of_ok (clientOpenDataConnection_apply env s)

theorem inBounds_closeDataConnection : ErrsIn Halt.InBounds clientCloseDataConnection s :=
  errsIn_of_ok (clientCloseDataConnection_apply s)

theorem inBounds_sendList (env : Env) (path : CStr) : ErrsIn Halt.InBounds (sendList env path) s := by
  refine errsIn_ite ?_ ?_
  · exact errsIn_seq (fun t => inBounds_reply t _) (fun _ => errsIn_seq
      (fun t => inBounds_openDataConnection t env) fun _ => errsIn_seq
      (fun t => inBounds_sendLines t env _ 0) fun _ => errsIn_seq inBounds_closeDataConnection
      fun _ t => inBounds_reply t _) s
  · refine errsIn_seq (fun t => inBounds_emit t _) (fun _ t => errsIn_ite (inBounds_reply t _) ?_) s
    exact errsIn_seq (fun t => inBounds_reply t _) (fun _ => errsIn_seq
      (fun t => inBounds_openDataConnection t env) fun _ => errsIn_seq
      (fun t => inBounds_sendLines t env _ 0) fun _ => errsIn_seq (fun t => inBounds_emit t _)
      fun _ => errsIn_seq inBounds_closeDataConnection fun _ t => inBounds_reply t _) t

end Steps

/-! ## Handlers -/

def Verb.ArgsFit (env : Env) (args : CStr) (v : Verb) : Prop :=
  (v = .type → ∀ control, formatControl args = some control → control.length < 8) ∧
  (v = .port → (portIpStr env args).length < 16) ∧
  (v.takesName → scanSet argStops args = none → env.stackPath.head? = some slash →
    env.stackPath.length < pathMax)

theorem store_inBounds_iff (buf : Buffer) (str : CStr) (s : Session) :
    ErrsIn Halt.InBounds (store buf str) s ↔ str.length < buf.size := by
  by_cases hlen : str.length < buf.size
  · exact iff_of_true (inBounds_store s hlen) hlen
  · refine iff_of_false (fun h => ?_) hlen
    exact h (.fault (.overflow buf)) s (by rw [store_apply, if_neg hlen])

theorem storeScanned_inBounds_iff (buf : Buffer) (scan : Option CStr) (s : Session) :
    ErrsIn Halt.InBounds (storeScanned buf scan) s ↔ ∀ str, scan = some str → str.length < buf.size := by
  cases scan with
  | none => exact iff_of_true (errsIn_pure _ s) (by simp)
  | some str => exact (store_inBounds_iff buf str s).trans (by simp)

theorem getClient_bind_iff {α : Type} (f : ClientInfo → FtpM α) (s : Session) :
    ErrsIn Halt.InBounds (getClient >>= f) s ↔ ErrsIn Halt.InBounds (f s.client) s := Iff.rfl

theorem genFtpFullpath_bind_inBounds_iff {env : Env} {f : CStr → FtpM PUnit} {s : Session}
    (hargs : s.client.recvCmdArgs.length ≤ 511)
    (hf : ∀ path : CStr, path.length < pathMax → ErrsIn Halt.InBounds (f path) s) :
    ErrsIn Halt.InBounds (genFtpFullpath env >>= f) s ↔
      (scanSet argStops s.client.recvCmdArgs = none → env.stackPath.head? = some slash →
        env.stackPath.length < pathMax) := by
  rw [← fullPath_fits_iff env s.client.curPath hargs]
  have hrun := genFtpFullpath_apply env hargs
  by_cases hfits : (fullPath s.client.curPath (ftpName env s.client.recvCmdArgs)).length < pathMax
  · rw [if_pos hfits] at hrun
    refine iff_of_true (errsIn_bind (errsIn_of_ok hrun) fun path t ht => ?_) hfits
    obtain ⟨rfl, rfl⟩ := EStateM.Result.ok.inj (hrun.symm.trans ht)
    exact hf _ hfits
  · rw [if_neg hfits] at hrun
    refine iff_of_false (fun h => ?_) hfits
    exact h (.fault (.unterminated .destPath)) s (by rw [bind_apply, hrun])

theorem cmdTypeFunc_inBounds_iff (s : Session) :
    ErrsIn Halt.InBounds cmdTypeFunc s ↔
      ∀ control, formatControl s.client.recvCmdArgs = some control → control.length < 8 := by
  rw [cmdTypeFunc, getClient_bind_iff]
  cases hargs : s.client.recvCmdArgs with
  | nil => exact iff_of_true (inBounds_reply s _) (by simp [formatControl, scanToken])
  | cons dataType rest =>
    refine (errsIn_bind_iff fun _ t _ => ?_).trans (storeScanned_inBounds_iff _ _ s)
    exact errsIn_ite (inBounds_reply t _) (inBounds_reply t _)

theorem cmdPortFunc_inBounds_iff (env : Env) (s : Session) :
    ErrsIn Halt.InBounds (cmdPortFunc env) s ↔ (portIpStr env s.client.recvCmdArgs).length < 16 := by
  rw [cmdPortFunc, getClient_bind_iff]
  refine (errsIn_bind_iff fun _ t _ => ?_).trans (store_inBounds_iff .ipStr _ s)
  exact errsIn_seq (fun t => inBounds_store t (dataSocketName_fits _)) (fun _ => errsIn_seq
    (fun t => inBounds_emit t _) fun _ => errsIn_seq (fun t => inBounds_setClient t _)
    fun _ t => inBounds_reply t _) t

theorem cmdPasvFunc_inBounds (env : Env) (s : Session) : ErrsIn Halt.InBounds (cmdPasvFunc env) s := by
  rw [cmdPasvFunc, getClient_bind_iff]
  exact errsIn_seq (fun t => inBounds_store t (dataSocketName_fits _)) (fun _ => errsIn_seq
    (fun t => inBounds_emit t _) fun _ => errsIn_seq (fun t => inBounds_setClient t _)
    fun _ => errsIn_seq (fun t => inBounds_emit t _) fun _ => errsIn_seq (fun t => inBounds_emit t _)
    fun _ => errsIn_seq (fun t => inBounds_store t (pasvReply_fits _ _)) fun _ => errsIn_seq
    (fun t => inBounds_ctrlMsg t _) fun _ t => inBounds_setClient t _) s

theorem cmdListFunc_inBounds (env : Env) {s : Session} (hargs : s.client.recvCmdArgs.length ≤ 511) :
    ErrsIn Halt.InBounds (cmdListFunc env) s := by
  rw [cmdListFunc, getClient_bind_iff]
  refine (errsIn_bind_iff fun _ t _ => inBounds_sendList t env _).mpr
    ((storeScanned_inBounds_iff _ _ s).mpr fun str hstr => ?_)
  have hlen := scanSet_length_le hstr
  simp only [Buffer.size, pathMax]
  omega

theorem cmdRestFunc_inBounds {s : Session} {line : CStr}
    (hline : ofBuffer s.client.recvBuffer = some line) : ErrsIn Halt.InBounds cmdRestFunc s := by
  rw [cmdRestFunc, getClient_bind_iff, hline]
  exact errsIn_seq (fun t => inBounds_setClient t _) (fun _ => errsIn_seq
    (fun t => inBounds_store t (restReply_fits _)) fun _ t => inBounds_ctrlMsg t _) s

/-! ## Handlers of a name -/

theorem deleteFile_inBounds (env : Env) (path : Option CStr) (s : Session) :
    ErrsIn Halt.InBounds (deleteFile env path) s := by
  refine errsIn_seq (fun t => inBounds_emit t _) (fun _ t => errsIn_ite ?_ (inBounds_reply t _)) s
  exact errsIn_seq (fun t => inBounds_setFiles t _) (fun _ => errsIn_seq
    (fun t => inBounds_notification t _ _ _) fun _ t => inBounds_reply t _) t

theorem deleteDir_inBounds (env : Env) (path : Option CStr) (s : Session) :
    ErrsIn Halt.InBounds (deleteDir env path) s := by
  refine errsIn_seq (fun t => inBounds_emit t _) (fun _ t => errsIn_ite ?_
    (errsIn_ite (inBounds_reply t _) (inBounds_reply t _))) s
  exact errsIn_seq (fun t => inBounds_notification t _ _ _) (fun _ t => inBounds_reply t _) t

theorem createDir_inBounds (env : Env) (path : Option CStr) (s : Session) :
    ErrsIn Halt.InBounds (createDir env path) s := by
  refine errsIn_seq (fun t => inBounds_emit t _) (fun _ t => errsIn_ite ?_ (inBounds_reply t _)) s
  exact errsIn_seq (fun t => inBounds_notification t _ _ _) (fun _ t => inBounds_reply t _) t

theorem renameNotification_inBounds (env : Env) (src : CStr) (dst : Option CStr) (s : Session) :
    ErrsIn Halt.InBounds (renameNotification env src dst) s := by
  refine errsIn_ite ?_ (errsIn_pure _ s)
  split
  · exact inBounds_emit s _
  · exact errsIn_throw trivial s

theorem getVitaPath_length_le {path p : CStr} (h : getVitaPath path = some p) :
    p.length ≤ path.length := by
  unfold getVitaPath at h
  split at h
  · obtain rfl := Option.some.inj h
    simp
  · cases h

theorem takesName_inBounds_iff {env : Env} {v : Verb} {s : Session} (hv : v.takesName)
    (hargs : s.client.recvCmdArgs.length ≤ 511) :
    ErrsIn Halt.InBounds (runVerb env v) s ↔
      (scanSet argStops s.client.recvCmdArgs = none → env.stackPath.head? = some slash →
        env.stackPath.length < pathMax) := by
  cases v with
  | retr => exact genFtpFullpath_bind_inBounds_iff hargs fun path _ => inBounds_sendFile s env _
  | stor => exact genFtpFullpath_bind_inBounds_iff hargs fun path _ => inBounds_receiveFile s env _
  | appe =>
    exact genFtpFullpath_bind_inBounds_iff (s := { s with
      client := { s.client with restorePoint := -1 } }) hargs fun path _ => inBounds_receiveFile _ env _
  | dele => exact genFtpFullpath_bind_inBounds_iff hargs fun path _ => deleteFile_inBounds env _ s
  | rmd => exact genFtpFullpath_bind_inBounds_iff hargs fun path _ => deleteDir_inBounds env _ s
  | mkd => exact genFtpFullpath_bind_inBounds_iff hargs fun path _ => createDir_inBounds env _ s
  | rnfr =>
    refine genFtpFullpath_bind_inBounds_iff hargs fun path hpath => ?_
    refine errsIn_ite ?_ (inBounds_reply s _)
    split
    · exact errsIn_throw trivial s
    · next src hsrc =>
      have hlen : src.length < Buffer.renamePath.size :=
        Nat.lt_of_le_of_lt (getVitaPath_length_le hsrc) hpath
      exact errsIn_seq (fun t => inBounds_store t hlen) (fun _ => errsIn_seq
        (fun t => inBounds_setClient t _) fun _ t => inBounds_reply t _) s
  | rnto =>
    refine genFtpFullpath_bind_inBounds_iff hargs fun path _ => ?_
    refine errsIn_seq inBounds_getClient (fun client => errsIn_seq (fun t => inBounds_emit t _)
      fun _ t => ?_) s
    have hend : ∀ u, ErrsIn Halt.InBounds (do
        renameNotification env client.renamePath (getVitaPath path)
        clientReply "226 Rename completed.") u :=
      errsIn_seq (fun u => renameNotification_inBounds env _ _ u) fun _ u => inBounds_reply u _
    split
    · exact errsIn_seq (fun u => inBounds_reply u _) (fun _ => hend) t
    · exact errsIn_seq (fun u => inBounds_setFiles u _) (fun _ => hend) t
  | size =>
    refine genFtpFullpath_bind_inBounds_iff hargs fun path _ => ?_
    split
    · exact inBounds_reply s _
    · exact errsIn_seq (fun t => inBounds_store t (sizeReply_fits _))
        (fun _ t => inBounds_ctrlMsg t _) s
  | _ => cases hv

theorem runVerb_inBounds_iff {env : Env} {v : Verb} {s : Session} {line : CStr}
    (hcur : CurPathInv s.client.curPath) (hargs : s.client.recvCmdArgs.length ≤ 511)
    (hline : ofBuffer s.client.recvBuffer = some line) :
    ErrsIn Halt.InBounds (runVerb env v) s ↔ v.ArgsFit env s.client.recvCmdArgs := by
  have hfree : v ≠ .type → v ≠ .port → v.takesName = false → ErrsIn Halt.InBounds (runVerb env v) s →
      (ErrsIn Halt.InBounds (runVerb env v) s ↔ v.ArgsFit env s.client.recvCmdArgs) := by
    intro htype hport hname h
    refine iff_of_true h ⟨fun hv => absurd hv htype, fun hv => absurd hv hport, fun hv => ?_⟩
    rw [hname] at hv
    cases hv
  have htakes : v ≠ .type → v ≠ .port → v.takesName →
      (ErrsIn Halt.InBounds (runVerb env v) s ↔ v.ArgsFit env s.client.recvCmdArgs) := by
    intro htype hport hname
    rw [takesName_inBounds_iff hname hargs, Verb.ArgsFit]
    simp only [htype, hport, hname, false_implies, forall_const, true_and]
  cases v with
  | type =>
    refine (cmdTypeFunc_inBounds_iff s).trans ?_
    simp [Verb.ArgsFit, Verb.takesName]
  | port =>
    refine (cmdPortFunc_inBounds_iff env s).trans ?_
    simp [Verb.ArgsFit, Verb.takesName]
  | retr | stor | appe | dele | rmd | mkd | rnfr | rnto | size => exact htakes nofun nofun rfl
  | noop | user | pass | quit | syst | opts => exact hfree nofun nofun rfl (inBounds_reply s _)
  | feat =>
    exact hfree nofun nofun rfl (errsIn_seq (fun t => inBounds_reply t _) (fun _ => errsIn_seq
      (fun t => inBounds_reply t _) fun _ => errsIn_seq (fun t => inBounds_reply t _)
      fun _ t => inBounds_reply t _) s)
  | pwd => exact hfree nofun nofun rfl (inBounds_ctrlMsg s _)
  | pasv => exact hfree nofun nofun rfl (cmdPasvFunc_inBounds env s)
  | list => exact hfree nofun nofun rfl (cmdListFunc_inBounds env hargs)
  | cwd =>
    obtain ⟨es, hrun, -⟩ := cmdCwdFunc_apply env hcur hargs
    exact hfree nofun nofun rfl (errsIn_of_ok hrun)
  | cdup => exact hfree nofun nofun rfl (errsIn_of_ok (cmdCdupFunc_apply hcur))
  | rest => exact hfree nofun nofun rfl (cmdRestFunc_inBounds hline)

/-! ## Sessions -/

/-- The message stays inside the arrays of the command path: it has a NUL or leaves room for one, its
token and its argument fit. -/
def FitsRound (s : Session) (round : Round) : Prop :=
  ∃ line, ofBuffer (received round.1) = some line ∧ TokenFits line ∧
    ∀ v, verbOf s round.1 = some v → v.ArgsFit round.2 (cmdArgs line)

theorem serve_inBounds_iff {s : Session} (round : Round) (hcur : CurPathInv s.client.curPath) :
    ErrsIn Halt.InBounds (serve round) s ↔ FitsRound s round := by
  obtain ⟨msg, env⟩ := round
  by_cases hready : ∃ line, ofBuffer (received msg) = some line ∧ TokenFits line
  · obtain ⟨line, hline, hfit⟩ := hready
    have hserve := serve_apply env s hline hfit
    have hround : FitsRound s (msg, env) ↔ ∀ v, verbOf s msg = some v → v.ArgsFit env (cmdArgs line) := by
      constructor
      · rintro ⟨line', hline', -, h⟩
        obtain rfl := Option.some.inj (hline.symm.trans hline')
        exact h
      · exact fun h => ⟨line, hline, hfit, h⟩
    rw [hround]
    have hsame : ErrsIn Halt.InBounds (serve (msg, env)) s ↔
        ErrsIn Halt.InBounds (handle (verbOf s msg) env) (s.ready msg line) := by
      unfold ErrsIn
      rw [hserve]
    rw [hsame]
    cases hverb : verbOf s msg with
    | none => exact iff_of_true (inBounds_reply _ _) (by simp)
    | some v =>
      have hrun : ErrsIn Halt.InBounds (runVerb env v) (s.ready msg line) ↔
          v.ArgsFit env (cmdArgs line) :=
        runVerb_inBounds_iff hcur (ready_args_length_le hline) hline
      rw [handle, hrun]
      simp only [Option.some.injEq, forall_eq']
  · have hnot : ∀ line, ofBuffer (received msg) = some line → ¬ TokenFits line :=
      fun line hline hfit => hready ⟨line, hline, hfit⟩
    obtain ⟨f, hf, hrun⟩ := serve_fault env s hnot
    refine iff_of_false (fun h => ?_) fun ⟨line, hline, hfit, _⟩ => hready ⟨line, hline, hfit⟩
    have hbad := h _ _ hrun
    rcases hf with rfl | rfl
    · exact hbad
    · exact hbad

/-- **When a session stays inside its arrays**: exactly when every message does that it serves. -/
theorem session_inBounds_iff (rounds : List Round) (s : Session) (hs : Fresh s) :
    (∀ e t, runAll serve rounds s = .error e t → e.InBounds) ↔ Along FitsRound serve s rounds := by
  have hcur : CurPathInv s.client.curPath := by
    rw [hs.curPath]
    exact curPathInv_root
  exact errsIn_runAll_iff (I := fun s : Session => CurPathInv s.client.curPath)
    (fun round _ hi => serve_inBounds_iff round hi) (fun _ _ _ hi h => serve_curPathInv hi h) hcur

theorem fitsRound_of {msg : List Byte} {env : Env} {v : Verb} (hmsg : msg.length ≤ 511)
    (hfit : ∀ p ∈ scanToken (commandLine msg), p.1.length < Buffer.cmd.size)
    (hverb : commandVerb msg = some v) (hargs : v.ArgsFit env (cmdArgs (commandLine msg))) (s : Session) :
    FitsRound s (msg, env) := by
  refine ⟨commandLine msg, ofBuffer_received hmsg, fun token rest h => hfit (token, rest) h, fun v' hv' => ?_⟩
  obtain rfl := Option.some.inj ((verbOf_eq_commandVerb hmsg hverb s).symm.trans hv')
  exact hargs

/-- A client that enters a device, names its data port and stores a file. -/
def storingRounds : List Round :=
  [(bytes "TYPE I\r\n", calmEnv), (bytes "CWD ux0:\r\n", calmEnv),
    (bytes "PORT 127,0,0,1,4,210\r\n", calmEnv), (bytes "STOR a\r\n", calmEnv)]

theorem session_inBounds_iff_storing : ErrsIn Halt.InBounds (runAll serve storingRounds) newSession := by
  refine (session_inBounds_iff _ newSession fresh_newSession).mpr (along_of_forall ?_)
  intro round hround s
  simp only [storingRounds, List.mem_cons, List.not_mem_nil, or_false] at hround
  rcases hround with rfl | rfl | rfl | rfl
  · have htype : formatControl (cmdArgs (commandLine (bytes "TYPE I\r\n"))) = none := by decide
    refine fitsRound_of (by decide) (by decide) (by decide : _ = some Verb.type) ⟨fun _ control h => ?_, ?_⟩ s
    · rw [htype] at h
      cases h
    · exact ⟨fun h => absurd h (by decide), fun h => absurd h (by decide)⟩
  · exact fitsRound_of (by decide) (by decide) (by decide : _ = some Verb.cwd)
      ⟨fun h => absurd h (by decide), fun h => absurd h (by decide), fun h => absurd h (by decide)⟩ s
  · exact fitsRound_of (by decide) (by decide) (by decide : _ = some Verb.port)
      ⟨fun h => absurd h (by decide), fun _ => by decide +kernel, fun h => absurd h (by decide)⟩ s
  · exact fitsRound_of (by decide) (by decide) (by decide : _ = some Verb.stor)
      ⟨fun h => absurd h (by decide), fun h => absurd h (by decide), fun _ h => absurd h (by decide)⟩ s

/-- A token of sixteen bytes leaves no room for its NUL in `cmd`. -/
theorem session_overflow_cmd :
    ∃ t, runAll serve [(bytes "AAAAAAAAAAAAAAAA\r\n", calmEnv)] newSession
        = .error (.fault (.overflow .cmd)) t ∧ ¬ (Halt.fault (.overflow .cmd)).InBounds :=
  ⟨_, eq_error_of_failure (by decide +kernel), id⟩

end VitaConnect.Ftp
