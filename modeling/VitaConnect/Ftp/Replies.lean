import VitaConnect.CString.Reply
import VitaConnect.Ftp.CommandLine
import VitaConnect.Ftp.Bounds

/-! # The replies of a command

`RepliesOnce` says of one handler call that it returns and has sent one final reply, behind at most
one preliminary one. `Verb.RepliesWell` is the condition under which the handler of the verb does
so, in any session that a client can bring about.
-/
namespace VitaConnect.Ftp
open CString Program
set_option autoImplicit false

def RepliesOnce (x : FtpM PUnit) (s : Session) : Prop :=
  ∃ t msgs, x s = .ok ⟨⟩ t ∧ ctrlMsgs t.trace = ctrlMsgs s.trace ++ msgs ∧
    oneFinalReply msgs.flatten = true

theorem repliesOnce_iff {x : FtpM PUnit} {s : Session} (t : Session) (msgs : List CStr)
    (hx : x s = .ok ⟨⟩ t) (ht : ctrlMsgs t.trace = ctrlMsgs s.trace ++ msgs) :
    RepliesOnce x s ↔ oneFinalReply msgs.flatten = true := by
  constructor
  · rintro ⟨t', msgs', hx', ht', h⟩
    obtain ⟨-, rfl⟩ := EStateM.Result.ok.inj (hx.symm.trans hx')
    obtain rfl := List.append_cancel_left (ht.symm.trans ht')
    exact h
  · exact fun h => ⟨t, msgs, hx, ht, h⟩

theorem not_repliesOnce {x : FtpM PUnit} {s t : Session} {e : Halt} (hx : x s = .error e t) :
    ¬ RepliesOnce x s := by
  rintro ⟨t', msgs, hx', -⟩
  rw [hx] at hx'
  cases hx'

/-- Steps that send nothing lead from `x` in `s` to `y` in `u`. -/
theorem repliesOnce_after {x y : FtpM PUnit} {s u : Session} (h : x s = y u)
    (hu : ctrlMsgs u.trace = ctrlMsgs s.trace) : RepliesOnce x s ↔ RepliesOnce y u := by
  unfold RepliesOnce
  rw [h, hu]

theorem repliesOnce_iff_of_msgs {x : FtpM PUnit} {s : Session} (msgs : List CStr)
    (h : ctrlMsgs (finalState (x s)).trace = ctrlMsgs s.trace ++ msgs) :
    RepliesOnce x s ↔ returned (x s) = true ∧ oneFinalReply msgs.flatten = true := by
  cases hx : x s with
  | ok a t =>
    rw [hx] at h
    rw [repliesOnce_iff t msgs hx h]
    simp [returned]
  | error e t => exact iff_of_false (not_repliesOnce hx) (by simp [returned])

/-! ## The condition -/

def Session.destPath (env : Env) (s : Session) : CStr :=
  fullPath s.client.curPath (ftpName env s.client.recvCmdArgs)

/-- The handler of a name makes its path and does not stop in a notification behind `ok`. -/
def NameReplies (env : Env) (s : Session) (refused : Prop) : Prop :=
  (s.destPath env).length < pathMax ∧
    (refused ∨ ¬ NotificationFaults env (getVitaPath (s.destPath env)))

def Verb.RepliesWell (env : Env) (s : Session) : Verb → Prop
  | .quit => False
  | .pwd => (pwdReply s.client.curPath).length < pathMax
  | .type => ∀ control, formatControl s.client.recvCmdArgs = some control → control.length < 8
  | .port => (portIpStr env s.client.recvCmdArgs).length < 16
  | .retr => (s.destPath env).length < pathMax ∧ (env.sceIoOpen < 0 ∨ env.malloc = none ∨
      (ReadsEnd env ∧ ¬ NotificationFaults env (getVitaPath (s.destPath env))))
  | .stor | .appe => NameReplies env s (env.sceIoOpen < 0 ∨ env.malloc = none)
  | .dele => NameReplies env s (env.sceIoRemove < 0)
  | .rmd => NameReplies env s (env.sceIoRmdir < 0)
  | .mkd => NameReplies env s (env.sceIoMkdir < 0)
  | .rnfr => (s.destPath env).length < pathMax ∧
      (fileExists env (getVitaPath (s.destPath env)) → getVitaPath (s.destPath env) ≠ none)
  | .rnto => (s.destPath env).length < pathMax ∧ 0 ≤ env.sceIoRename ∧
      ¬ NotificationFaults env (some s.client.renamePath) ∧
      ¬ NotificationFaults env (getVitaPath (s.destPath env))
  | .size => (s.destPath env).length < pathMax
  | _ => True

/-! ## Handlers without a file -/

theorem repliesOnce_reply (str : String) (s : Session) :
    RepliesOnce (clientReply str) s ↔ oneFinalReply (bytes str ++ eol) = true := by
  rw [repliesOnce_iff _ [bytes str ++ eol] (clientReply_apply str s) (by simp)]
  simp

theorem repliesOnce_of_reply {x : FtpM PUnit} {s : Session} (u : Session) (str : String)
    (hx : x s = clientReply str u) (hu : ctrlMsgs u.trace = ctrlMsgs s.trace)
    (hstr : oneFinalReply (bytes str ++ eol) = true) : RepliesOnce x s :=
  (repliesOnce_after hx hu).mpr ((repliesOnce_reply str u).mpr hstr)

theorem cmdQuitFunc_replies (s : Session) : ¬ RepliesOnce cmdQuitFunc s := by
  rw [cmdQuitFunc, repliesOnce_reply]
  decide

theorem cmdFeatFunc_replies (s : Session) : RepliesOnce cmdFeatFunc s := by
  refine (repliesOnce_iff { s with trace := s.trace ++ [
      .ctrlSend (bytes "211-extensions" ++ eol), .ctrlSend (bytes " REST STREAM" ++ eol),
      .ctrlSend (bytes " UTF8" ++ eol), .ctrlSend (bytes "211 end" ++ eol)] }
    [bytes "211-extensions" ++ eol, bytes " REST STREAM" ++ eol, bytes " UTF8" ++ eol,
      bytes "211 end" ++ eol] ?_ ?_).mpr (by decide)
  · simp [cmdFeatFunc, bind_apply]
  · simp

theorem repliesOnce_line {x : FtpM PUnit} {s t : Session} (line : CStr) {n : ℕ}
    (hx : x s = .ok ⟨⟩ t) (ht : ctrlMsgs t.trace = ctrlMsgs s.trace ++ [line ++ eol])
    (hline : 13 ∉ line) (hhead : replyHead line = some (n, true)) (hn : 200 ≤ n) (hn' : n < 600) :
    RepliesOnce x s := by
  rw [repliesOnce_iff t _ hx ht, List.flatten_singleton]
  exact oneFinalReply_line hline hhead hn hn'

theorem cr_notMem_intDec (z : ℤ) : 13 ∉ intDec z := by
  intro h
  rcases mem_intDec h with h | h
  · exact absurd h (by decide)
  · exact absurd h.1 (by decide)

theorem cr_notMem_commas (ns : List ℕ) : 13 ∉ commas ns := by
  intro h
  rcases mem_joined (h : 13 ∈ joined 44 ns) with h | h
  · exact absurd h (by decide)
  · exact absurd h.1 (by decide)

theorem cmdPasvFunc_replies (env : Env) (s : Session) : RepliesOnce (cmdPasvFunc env) s := by
  refine repliesOnce_line (bytes "227 Entering Passive Mode (" ++
    commas (pasvNumbers env.vitaAddr env.sceNetGetsockname) ++ bytes ")") (cmdPasvFunc_apply env s)
    ?_ ?_ (rfl : _ = some (227, true)) (by decide) (by decide)
  · simp [pasvReply]
  · simp only [List.mem_append, cr_notMem_commas, or_false]
    decide

theorem cmdPortFunc_replies_iff (env : Env) (s : Session) :
    RepliesOnce (cmdPortFunc env) s ↔ (portIpStr env s.client.recvCmdArgs).length < 16 := by
  by_cases hip : (portIpStr env s.client.recvCmdArgs).length < Buffer.ipStr.size
  · refine iff_of_true ?_ hip
    refine (repliesOnce_iff _ [bytes "200 PORT command successful!" ++ eol]
      (cmdPortFunc_apply env hip) ?_).mpr (by decide)
    simp
  · refine iff_of_false (not_repliesOnce (e := .fault (.overflow .ipStr)) (t := s) ?_) hip
    simp [cmdPortFunc, bind_apply, store_apply, hip]

theorem cmdPwdFunc_replies_iff {s : Session} (hcur : CurPathInv s.client.curPath) :
    RepliesOnce cmdPwdFunc s ↔ (pwdReply s.client.curPath).length < pathMax := by
  have hclean : 13 ∉ s.client.curPath ∧ 10 ∉ s.client.curPath :=
    ⟨fun h => hcur.clean 13 h (by decide), fun h => hcur.clean 10 h (by decide)⟩
  have hrun : cmdPwdFunc s = .ok ⟨⟩ { s with
      trace := s.trace ++ [.ctrlSend (snprintf pathMax (pwdReply s.client.curPath))] } := by
    simp [cmdPwdFunc, bind_apply]
  rw [repliesOnce_iff _ [snprintf pathMax (pwdReply s.client.curPath)] hrun (by simp),
    List.flatten_singleton]
  by_cases hfits : (pwdReply s.client.curPath).length < pathMax
  · rw [snprintf_of_fits hfits]
    refine iff_of_true (oneFinalReply_line (c := 257) ?_ rfl (by decide) (by decide)) hfits
    simp only [List.mem_append, hclean.1, or_false]
    decide
  · refine iff_of_false ?_ hfits
    -- what `snprintf` cuts off is at least the LF at the end
    set line := bytes "257 \"" ++ s.client.curPath ++ bytes "\" is the current directory." with hline
    have hreply : pwdReply s.client.curPath = line ++ [13] ++ [10] := by simp [pwdReply, hline, eol]
    have hlf : 10 ∉ line ++ [13] := by
      simp only [hline, List.mem_append, hclean.2, or_false]
      decide
    have hlong : 1023 ≤ (line ++ [13]).length := by
      rw [hreply, List.length_append, List.length_singleton] at hfits
      simp only [pathMax] at hfits
      omega
    have hcut : snprintf pathMax (pwdReply s.client.curPath) = (line ++ [13]).take 1023 := by
      rw [hreply, snprintf]
      exact List.take_append_of_le_length hlong
    rw [hcut, oneFinalReply_of_notMem fun h => hlf (List.mem_of_mem_take h)]
    decide

theorem cmdCwdFunc_replies (env : Env) {s : Session} (hcur : CurPathInv s.client.curPath)
    (hargs : s.client.recvCmdArgs.length ≤ 511) : RepliesOnce (cmdCwdFunc env) s := by
  obtain ⟨es, hrun, hmsgs⟩ := cmdCwdFunc_apply env hcur hargs
  refine (repliesOnce_iff _ _ hrun (by rw [ctrlMsgs_append, hmsgs])).mpr ?_
  unfold cwdReply
  split <;> decide

theorem cmdCdupFunc_replies {s : Session} (hcur : CurPathInv s.client.curPath) :
    RepliesOnce cmdCdupFunc s :=
  (repliesOnce_iff _ [bytes "200 Command okay." ++ eol] (cmdCdupFunc_apply hcur) (by simp)).mpr
    (by decide)

theorem cmdTypeFunc_replies_iff (s : Session) :
    RepliesOnce cmdTypeFunc s ↔
      ∀ control, formatControl s.client.recvCmdArgs = some control → control.length < 8 := by
  have hbad : oneFinalReply (bytes "504 Error: bad parameters?" ++ eol) = true := by decide
  have hgood : oneFinalReply (bytes "200 Okay" ++ eol) = true := by decide
  cases hargs : s.client.recvCmdArgs with
  | nil =>
    refine iff_of_true ?_ (by simp [formatControl, scanToken])
    refine repliesOnce_of_reply s "504 Error: bad parameters?" ?_ rfl hbad
    simp [cmdTypeFunc, bind_apply, hargs]
  | cons dataType rest =>
    set y : FtpM PUnit := if dataType = 65 ∨ dataType = 73 then clientReply "200 Okay"
      else clientReply "504 Error: bad parameters?" with hy
    have hreply : RepliesOnce y s := by
      rw [hy]
      split
      · exact (repliesOnce_reply _ s).mpr hgood
      · exact (repliesOnce_reply _ s).mpr hbad
    have hrun : cmdTypeFunc s
        = (storeScanned .formatControl (formatControl (dataType :: rest)) >>= fun _ => y) s := by
      simp only [cmdTypeFunc, bind_apply, getClient_apply, hargs, hy]
    cases hcontrol : formatControl (dataType :: rest) with
    | none =>
      refine iff_of_true ((repliesOnce_after ?_ rfl).mpr hreply) (by simp)
      rw [hrun, hcontrol]
      rfl
    | some control =>
      by_cases hfits : control.length < Buffer.formatControl.size
      · refine iff_of_true ((repliesOnce_after ?_ rfl).mpr hreply) (by simpa [Buffer.size] using hfits)
        rw [hrun, hcontrol, bind_apply, storeScanned, store_ok hfits]
      · refine iff_of_false (not_repliesOnce (e := .fault (.overflow .formatControl)) (t := s) ?_)
          (by simpa [Buffer.size] using hfits)
        rw [hrun, hcontrol, bind_apply, storeScanned, store_apply, if_neg hfits]

theorem cmdRestFunc_replies {s : Session} {line : CStr}
    (hline : ofBuffer s.client.recvBuffer = some line) : RepliesOnce cmdRestFunc s := by
  set restorePoint := ((restScan line).map (BitVec.ofInt 32)).getD s.client.restorePoint with hr
  refine repliesOnce_line (t := { s with
      client := { s.client with restorePoint := restorePoint }
      trace := s.trace ++ [.ctrlSend (restReply restorePoint)] })
    (bytes "350 Resuming at " ++ intDec restorePoint.toInt) ?_ ?_ ?_
    (rfl : _ = some (350, true)) (by decide) (by decide)
  · simp only [cmdRestFunc, bind_apply, getClient_apply, hline, setClient_apply, ← hr,
      store_ok (restReply_fits restorePoint), clientSendCtrlMsg_apply]
  · simp [restReply]
  · simp only [List.mem_append, cr_notMem_intDec, or_false]
    decide

/-! ## The listing -/

theorem sendLines_apply (env : Env) (entries : List (Bool × SceIoStat × CStr)) (i : ℕ) (s : Session) :
    ∃ es, sendLines env i entries s = .ok ⟨⟩ { s with trace := s.trace ++ es } ∧ ctrlMsgs es = [] := by
  induction entries generalizing i s with
  | nil => exact ⟨[], by simp [sendLines, pure_apply], rfl⟩
  | cons entry rest ih =>
    obtain ⟨dir, stat, name⟩ := entry
    set line := genListFormat env.currentYear 512 dir stat name with hline
    set e := Event.dataSend s.client.transferFd line.length line (env.sceNetSend i) with he
    obtain ⟨es, hes, hmsgs⟩ := ih (i + 1) { s with trace := s.trace ++ [e] }
    refine ⟨e :: es, ?_, ?_⟩
    · rw [sendLines, bind_apply, clientSendDataMsg, bind_apply, getClient_apply, ← hline]
      simp only [emit_apply, ← he, hes]
      simp
    · rw [ctrlMsgs_cons, hmsgs]
      rfl

theorem listing_replies (env : Env) (entries : List (Bool × SceIoStat × CStr)) (closing : FtpM PUnit)
    (es : List Event) (s : Session)
    (hclosing : ∀ t, closing t = .ok ⟨⟩ { t with trace := t.trace ++ es }) (hes : ctrlMsgs es = []) :
    RepliesOnce (do
      clientReply "150 Opening ASCII mode data transfer for LIST."
      clientOpenDataConnection env
      sendLines env 0 entries
      closing
      clientCloseDataConnection
      clientReply "226 Transfer complete.") s := by
  set opening : Session := { s with
    client := s.client.opened env
    trace := s.trace ++ [.ctrlSend (bytes "150 Opening ASCII mode data transfer for LIST." ++ eol)]
      ++ openEvents env s.client } with hopening
  obtain ⟨lines, hlines, hmsgs⟩ := sendLines_apply env entries 0 opening
  refine (repliesOnce_iff { opening with
      client := { opening.client with dataConType := .none }
      trace := opening.trace ++ lines ++ es ++ closeEvents opening.client
        ++ [.ctrlSend (bytes "226 Transfer complete." ++ eol)] }
    [bytes "150 Opening ASCII mode data transfer for LIST." ++ eol,
      bytes "226 Transfer complete." ++ eol] ?_ ?_).mpr (by decide)
  · simp only [bind_apply, clientReply_apply, clientOpenDataConnection_apply, ← hopening, hlines,
      hclosing, clientCloseDataConnection_apply]
  · simp [hopening, hmsgs, hes, ctrlMsgs_openEvents, ctrlMsgs_closeEvents]

theorem sendList_replies (env : Env) (path : CStr) (s : Session) : RepliesOnce (sendList env path) s := by
  unfold sendList
  split
  · exact listing_replies env (listedDevices env) (pure ⟨⟩) [] s (fun t => by simp [pure_apply]) rfl
  · set dir := env.sceIoDopen (getVitaPath path)
    set u : Session := { s with trace := s.trace ++ [.dopen (getVitaPath path) dir] } with hu
    have hsilent : ctrlMsgs u.trace = ctrlMsgs s.trace := by simp [hu]
    by_cases hdir : dir < 0
    · refine repliesOnce_of_reply u "550 Invalid directory." ?_ hsilent (by decide)
      simp only [bind_apply, emit_apply, hdir, if_true, hu]
    · refine (repliesOnce_after (u := u) ?_ hsilent).mpr
        (listing_replies env (listedEntries env) (emit (.dclose dir)) [.dclose dir] u
          (fun t => rfl) rfl)
      simp only [bind_apply, emit_apply, hdir, if_false, hu]

theorem cmdListFunc_replies (env : Env) {s : Session} (hargs : s.client.recvCmdArgs.length ≤ 511) :
    RepliesOnce (cmdListFunc env) s := by
  have hfits : ∀ str ∈ scanSet argStops s.client.recvCmdArgs, str.length < Buffer.listPath.size := by
    intro str hstr
    have hlen := scanSet_length_le hstr
    simp only [Buffer.size, pathMax]
    omega
  refine (repliesOnce_after (u := s) ?_ rfl).mpr
    (sendList_replies env (listPath env s.client.curPath s.client.recvCmdArgs) s)
  simp only [cmdListFunc, bind_apply, getClient_apply, storeScanned_ok hfits]

/-! ## Handlers of a name -/

theorem genFtpFullpath_bind_replies {env : Env} {f : CStr → FtpM PUnit} {s : Session}
    (hargs : s.client.recvCmdArgs.length ≤ 511) :
    RepliesOnce (genFtpFullpath env >>= f) s ↔
      (s.destPath env).length < pathMax ∧ RepliesOnce (f (s.destPath env)) s := by
  have hrun : genFtpFullpath env s = if (s.destPath env).length < pathMax then
      .ok (s.destPath env) s else .error (.fault (.unterminated .destPath)) s :=
    genFtpFullpath_apply env hargs
  by_cases hfits : (s.destPath env).length < pathMax
  · rw [if_pos hfits] at hrun
    rw [and_iff_right hfits]
    refine repliesOnce_after ?_ rfl
    rw [bind_apply, hrun]
  · rw [if_neg hfits] at hrun
    refine iff_of_false (not_repliesOnce (e := .fault (.unterminated .destPath)) (t := s) ?_)
      fun h => hfits h.1
    rw [bind_apply, hrun]

theorem notified_replies_iff (env : Env) (text reply : String) (path : Option CStr) (s : Session)
    (hreply : oneFinalReply (bytes reply ++ eol) = true) :
    RepliesOnce (do notification env text path; clientReply reply) s ↔
      ¬ NotificationFaults env path := by
  by_cases hf : NotificationFaults env path
  · refine iff_of_false (not_repliesOnce (e := .fault .nullString) (t := s) ?_) (not_not_intro hf)
    rw [bind_apply, notification_apply, if_pos hf]
  · refine iff_of_true ?_ hf
    refine (repliesOnce_after
      (u := { s with trace := s.trace ++ notificationEvents env text path }) ?_ ?_).mpr
      ((repliesOnce_reply reply _).mpr hreply)
    · rw [bind_apply, notification_apply, if_neg hf]
    · simp [ctrlMsgs_notificationEvents]

section Acts
variable (env : Env) (path : Option CStr) (s : Session)

theorem deleteFile_replies_iff : RepliesOnce (deleteFile env path) s ↔
    env.sceIoRemove < 0 ∨ ¬ NotificationFaults env path := by
  set u : Session := { s with trace := s.trace ++ [.remove path env.sceIoRemove] } with hu
  have hsilent : ctrlMsgs u.trace = ctrlMsgs s.trace := by simp [hu]
  by_cases hfail : env.sceIoRemove < 0
  · have h0 : ¬ 0 ≤ env.sceIoRemove := by omega
    refine iff_of_true ?_ (Or.inl hfail)
    refine repliesOnce_of_reply u "550 Could not delete the file." ?_ hsilent (by decide)
    simp only [deleteFile, bind_apply, emit_apply, h0, if_false, hu]
  · have h0 : 0 ≤ env.sceIoRemove := by omega
    rw [or_iff_right hfail, ← notified_replies_iff env "File(s) Deleted: " "226 File deleted." path
      { u with files := u.files.removed path } (by decide)]
    refine repliesOnce_after ?_ hsilent
    simp only [deleteFile, bind_apply, emit_apply, h0, if_true, setFiles_apply, hu]

theorem deleteDir_replies_iff : RepliesOnce (deleteDir env path) s ↔
    env.sceIoRmdir < 0 ∨ ¬ NotificationFaults env path := by
  set u : Session := { s with trace := s.trace ++ [.rmdir path env.sceIoRmdir] } with hu
  have hsilent : ctrlMsgs u.trace = ctrlMsgs s.trace := by simp [hu]
  by_cases hfail : env.sceIoRmdir < 0
  · have h0 : ¬ 0 ≤ env.sceIoRmdir := by omega
    refine iff_of_true ?_ (Or.inl hfail)
    by_cases hempty : BitVec.ofInt 32 env.sceIoRmdir = directoryIsNotEmpty
    · refine repliesOnce_of_reply u "550 Directory is not empty." ?_ hsilent (by decide)
      simp only [deleteDir, bind_apply, emit_apply, h0, hempty, if_true, if_false, hu]
    · refine repliesOnce_of_reply u "550 Could not delete the directory." ?_ hsilent (by decide)
      simp only [deleteDir, bind_apply, emit_apply, h0, hempty, if_false, hu]
  · have h0 : 0 ≤ env.sceIoRmdir := by omega
    rw [or_iff_right hfail, ← notified_replies_iff env "Directory Deleted: "
      "226 Directory deleted." path u (by decide)]
    refine repliesOnce_after ?_ hsilent
    simp only [deleteDir, bind_apply, emit_apply, h0, if_true, hu]

theorem createDir_replies_iff : RepliesOnce (createDir env path) s ↔
    env.sceIoMkdir < 0 ∨ ¬ NotificationFaults env path := by
  set u : Session := { s with trace := s.trace ++ [.mkdir path env.sceIoMkdir] } with hu
  have hsilent : ctrlMsgs u.trace = ctrlMsgs s.trace := by simp [hu]
  by_cases hfail : env.sceIoMkdir < 0
  · have h0 : ¬ 0 ≤ env.sceIoMkdir := by omega
    refine iff_of_true ?_ (Or.inl hfail)
    refine repliesOnce_of_reply u "550 Could not create the directory." ?_ hsilent (by decide)
    simp only [createDir, bind_apply, emit_apply, h0, if_false, hu]
  · have h0 : 0 ≤ env.sceIoMkdir := by omega
    rw [or_iff_right hfail, ← notified_replies_iff env "Directory Created: "
      "226 Directory created." path u (by decide)]
    refine repliesOnce_after ?_ hsilent
    simp only [createDir, bind_apply, emit_apply, h0, if_true, hu]

end Acts

theorem cmdRnfrFunc_replies_iff (env : Env) {s : Session}
    (hargs : s.client.recvCmdArgs.length ≤ 511) :
    RepliesOnce (cmdRnfrFunc env) s ↔ Verb.rnfr.RepliesWell env s := by
  refine (genFtpFullpath_bind_replies hargs).trans (and_congr_right fun hfits => ?_)
  by_cases hexists : fileExists env (getVitaPath (s.destPath env)) = true
  · rw [if_pos hexists, forall_prop_of_true hexists]
    cases hvita : getVitaPath (s.destPath env) with
    | none => exact iff_of_false (not_repliesOnce (throw_apply _ s)) (not_not_intro rfl)
    | some path =>
      have hlen : path.length < Buffer.renamePath.size :=
        Nat.lt_of_le_of_lt (getVitaPath_length_le hvita) hfits
      refine iff_of_true ?_ (Option.some_ne_none path)
      refine repliesOnce_of_reply { s with client := { s.client with renamePath := path } }
        "350 I need the destination name b0ss." ?_ rfl (by decide)
      simp only [bind_apply, store_ok hlen, setClient_apply]
  · rw [if_neg hexists]
    exact iff_of_true ((repliesOnce_reply _ s).mpr (by decide)) fun h => absurd h hexists

theorem cmdSizeFunc_replies_iff (env : Env) {s : Session}
    (hargs : s.client.recvCmdArgs.length ≤ 511) :
    RepliesOnce (cmdSizeFunc env) s ↔ (s.destPath env).length < pathMax := by
  refine (genFtpFullpath_bind_replies hargs).trans (and_iff_left ?_)
  cases env.sceIoGetstat (getVitaPath (s.destPath env)) with
  | none => exact (repliesOnce_reply _ s).mpr (by decide)
  | some stat =>
    refine repliesOnce_line (t := { s with
        trace := s.trace ++ [.ctrlSend (sizeReply stat.stSize)] })
      (bytes "213 " ++ intDec stat.stSize.toInt) ?_ ?_ ?_ (rfl : _ = some (213, true)) (by decide)
      (by decide)
    · simp only [bind_apply, store_ok (sizeReply_fits stat.stSize), clientSendCtrlMsg_apply]
    · simp [sizeReply]
    · simp only [List.mem_append, cr_notMem_intDec, or_false]
      decide

theorem renameNotification_fault {env : Env} {src : CStr} {dst : Option CStr} (s : Session)
    (h : NotificationFaults env (some src) ∨ NotificationFaults env dst) :
    renameNotification env src dst s = .error (.fault .nullString) s := by
  unfold renameNotification
  rcases h with ⟨hn, hold⟩ | ⟨hn, hnew⟩
  · simp [hn, hold, throw_apply]
  · cases baseName (some src) <;> simp [hn, hnew, throw_apply]

theorem renameNotification_ok {env : Env} {src : CStr} {dst : Option CStr} (s : Session)
    (h : ¬ (NotificationFaults env (some src) ∨ NotificationFaults env dst)) :
    ∃ es, ctrlMsgs es = [] ∧
      renameNotification env src dst s = .ok ⟨⟩ { s with trace := s.trace ++ es } := by
  unfold renameNotification
  by_cases hn : env.notifsOn
  · have hold : baseName (some src) ≠ none := fun hold => h (Or.inl ⟨hn, hold⟩)
    have hnew : baseName dst ≠ none := fun hnew => h (Or.inr ⟨hn, hnew⟩)
    obtain ⟨old, hold⟩ := Option.ne_none_iff_exists'.mp hold
    obtain ⟨new, hnew⟩ := Option.ne_none_iff_exists'.mp hnew
    refine ⟨[.notification (snprintf 256 (bytes "Renamed: " ++ old ++ bytes " To " ++ new))], rfl, ?_⟩
    simp only [hn, hold, hnew, if_true, emit_apply]
  · exact ⟨[], rfl, by simp [hn, pure_apply]⟩

def renamed (env : Env) (src : CStr) (dst : Option CStr) : FtpM PUnit := do
  renameNotification env src dst
  clientReply "226 Rename completed."

theorem renamed_fault {env : Env} {src : CStr} {dst : Option CStr} (s : Session)
    (h : NotificationFaults env (some src) ∨ NotificationFaults env dst) :
    renamed env src dst s = .error (.fault .nullString) s := by
  rw [renamed, bind_apply, renameNotification_fault s h]

theorem renamed_ok {env : Env} {src : CStr} {dst : Option CStr} (s : Session)
    (h : ¬ (NotificationFaults env (some src) ∨ NotificationFaults env dst)) :
    ∃ t, renamed env src dst s = .ok ⟨⟩ t ∧
      ctrlMsgs t.trace = ctrlMsgs s.trace ++ [bytes "226 Rename completed." ++ eol] := by
  obtain ⟨es, hes, hrun⟩ := renameNotification_ok s h
  refine ⟨{ s with trace := s.trace ++ es ++ [.ctrlSend (bytes "226 Rename completed." ++ eol)] },
    ?_, by simp [hes]⟩
  rw [renamed, bind_apply, hrun]
  rfl

/-- A failed rename is answered twice: by 550, and behind the notification by 226. -/
theorem cmdRntoFunc_replies_iff (env : Env) {s : Session}
    (hargs : s.client.recvCmdArgs.length ≤ 511) :
    RepliesOnce (cmdRntoFunc env) s ↔ Verb.rnto.RepliesWell env s := by
  refine (genFtpFullpath_bind_replies hargs).trans (and_congr_right fun _ => ?_)
  set src := s.client.renamePath with hsrc
  set dst := getVitaPath (s.destPath env) with hdst
  by_cases hfail : env.sceIoRename < 0
  · refine iff_of_false ?_ fun h => absurd h.1 (by omega)
    set v : Session := { s with trace := s.trace ++ [.rename src dst env.sceIoRename,
      .ctrlSend (bytes "550 Error renaming the file." ++ eol)] } with hv
    rintro ⟨t, msgs, hrun, hmsgs, hone⟩
    have hrun' : renamed env src dst v = .ok ⟨⟩ t := by
      rw [← hrun]
      simp only [bind_apply, getClient_apply, emit_apply, hfail, if_true, clientReply_apply, renamed,
        hv, hsrc, List.append_assoc, List.cons_append, List.nil_append]
    by_cases hf : NotificationFaults env (some src) ∨ NotificationFaults env dst
    · rw [renamed_fault v hf] at hrun'
      cases hrun'
    · obtain ⟨t', ht', htrace⟩ := renamed_ok v hf
      obtain ⟨-, rfl⟩ := EStateM.Result.ok.inj (ht'.symm.trans hrun')
      have hboth : ctrlMsgs t'.trace = ctrlMsgs s.trace ++
          [bytes "550 Error renaming the file." ++ eol, bytes "226 Rename completed." ++ eol] := by
        rw [htrace]
        simp [hv]
      obtain rfl := List.append_cancel_left (hmsgs.symm.trans hboth)
      exact absurd hone (by decide)
  · have hdone : 0 ≤ env.sceIoRename := by omega
    set v : Session := { s with
      files := s.files.renamed src dst
      trace := s.trace ++ [.rename src dst env.sceIoRename] } with hv
    refine (repliesOnce_after (y := renamed env src dst) (u := v) ?_ (by simp [hv])).trans ?_
    · simp only [bind_apply, getClient_apply, emit_apply, hfail, if_false, setFiles_apply, renamed,
        hv, hsrc]
    · by_cases hf : NotificationFaults env (some src) ∨ NotificationFaults env dst
      · exact iff_of_false (not_repliesOnce (renamed_fault v hf)) fun h => hf.elim h.2.1 h.2.2
      · obtain ⟨t, ht, htrace⟩ := renamed_ok v hf
        refine iff_of_true ((repliesOnce_iff t _ ht htrace).mpr (by decide)) ?_
        exact ⟨hdone, fun h => hf (Or.inl h), fun h => hf (Or.inr h)⟩

/-! ## Transfers -/

theorem sendFile_returned_iff (env : Env) (path : Option CStr) (s : Session) :
    returned (sendFile env path s) = true ↔ env.sceIoOpen < 0 ∨ env.malloc = none ∨
      (ReadsEnd env ∧ ¬ NotificationFaults env path) := by
  by_cases hopen : env.sceIoOpen < 0
  · rw [sendFile_notFound path s hopen]
    simp [returned, hopen]
  · cases hm : env.malloc with
    | none =>
      rw [sendFile_noMemory path s (by omega) hm]
      simp [returned]
    | some buffer =>
      rw [sendFile_transfer path s (by omega) hm]
      by_cases hend : ReadsEnd env
      · by_cases hf : NotificationFaults env path
        · simp [returned, hopen, hend, hf]
        · simp [returned, hend, hf]
      · simp [returned, hopen, hend]

theorem sendFile_replies_iff (env : Env) (path : Option CStr) (s : Session) :
    RepliesOnce (sendFile env path) s ↔ env.sceIoOpen < 0 ∨ env.malloc = none ∨
      (ReadsEnd env ∧ ¬ NotificationFaults env path) := by
  rw [repliesOnce_iff_of_msgs _ (sendFile_msgs path s env), sendFile_returned_iff]
  refine and_iff_left_of_imp fun h => ?_
  unfold sendReplies
  split_ifs with hopen hm hend
  · decide
  · decide
  · decide
  · exact absurd h (by tauto)

theorem receiveFile_returned_iff (env : Env) (path : Option CStr) (s : Session) :
    returned (receiveFile env path s) = true ↔ (env.sceIoOpen < 0 ∨ env.malloc = none) ∨
      ¬ NotificationFaults env path := by
  by_cases hopen : env.sceIoOpen < 0
  · rw [receiveFile_notFound path s hopen]
    simp [returned, hopen]
  · cases hm : env.malloc with
    | none =>
      rw [receiveFile_noMemory path s (by omega) hm]
      simp [returned]
    | some buffer =>
      rw [receiveFile_transfer path s (by omega) hm]
      by_cases hend : env.sceNetRecvEnd.val = 0
      · by_cases hf : NotificationFaults env path
        · simp [returned, hopen, hend, hf]
        · simp [returned, hend, hf]
      · by_cases hf : NotificationFaults env path
        · simp [returned, hopen, hend, hf]
        · simp [returned, hend, hf]

theorem receiveFile_replies_iff (env : Env) (path : Option CStr) (s : Session) :
    RepliesOnce (receiveFile env path) s ↔ (env.sceIoOpen < 0 ∨ env.malloc = none) ∨
      ¬ NotificationFaults env path := by
  rw [repliesOnce_iff_of_msgs _ (receiveFile_msgs path s env), receiveFile_returned_iff]
  refine and_iff_left_of_imp fun h => ?_
  unfold receiveReplies
  split_ifs with hopen hm hf hend
  · decide
  · decide
  · exact absurd h (by tauto)
  · decide
  · decide

/-! ## All handlers -/

theorem runVerb_replies_iff {env : Env} {s : Session} {line : CStr} (v : Verb)
    (hcur : CurPathInv s.client.curPath) (hargs : s.client.recvCmdArgs.length ≤ 511)
    (hline : ofBuffer s.client.recvBuffer = some line) :
    RepliesOnce (runVerb env v) s ↔ v.RepliesWell env s := by
  cases v with
  | noop | user | pass | syst | opts =>
    exact iff_of_true ((repliesOnce_reply _ s).mpr (by decide)) trivial
  | quit => exact iff_of_false (cmdQuitFunc_replies s) id
  | pasv => exact iff_of_true (cmdPasvFunc_replies env s) trivial
  | port => exact cmdPortFunc_replies_iff env s
  | list => exact iff_of_true (cmdListFunc_replies env hargs) trivial
  | pwd => exact cmdPwdFunc_replies_iff hcur
  | cwd => exact iff_of_true (cmdCwdFunc_replies env hcur hargs) trivial
  | type => exact cmdTypeFunc_replies_iff s
  | cdup => exact iff_of_true (cmdCdupFunc_replies hcur) trivial
  | retr =>
    exact (genFtpFullpath_bind_replies hargs).trans
      (and_congr_right fun _ => sendFile_replies_iff env _ s)
  | stor =>
    exact (genFtpFullpath_bind_replies hargs).trans
      (and_congr_right fun _ => receiveFile_replies_iff env _ s)
  | appe =>
    -- the handler first sets the restore point to -1
    refine (repliesOnce_after (s := s) (u := { s with
      client := { s.client with restorePoint := -1 } }) (y := cmdStorFunc env) rfl rfl).trans ?_
    refine (genFtpFullpath_bind_replies ?_).trans
      (and_congr_right fun _ => receiveFile_replies_iff env _ _)
    exact hargs
  | dele =>
    exact (genFtpFullpath_bind_replies hargs).trans
      (and_congr_right fun _ => deleteFile_replies_iff env _ s)
  | rmd =>
    exact (genFtpFullpath_bind_replies hargs).trans
      (and_congr_right fun _ => deleteDir_replies_iff env _ s)
  | mkd =>
    exact (genFtpFullpath_bind_replies hargs).trans
      (and_congr_right fun _ => createDir_replies_iff env _ s)
  | rnfr => exact cmdRnfrFunc_replies_iff env hargs
  | rnto => exact cmdRntoFunc_replies_iff env hargs
  | size => exact cmdSizeFunc_replies_iff env hargs
  | rest => exact iff_of_true (cmdRestFunc_replies hline) trivial
  | feat => exact iff_of_true (cmdFeatFunc_replies s) trivial

def Reached (s : Session) (round : Round) (line : CStr) (v : Verb) : Prop :=
  ofBuffer (received round.1) = some line ∧ TokenFits line ∧ verbOf s round.1 = some v

theorem serve_replies_iff {s : Session} {round : Round} {line : CStr} {v : Verb}
    (hcur : CurPathInv s.client.curPath) (h : Reached s round line v) :
    RepliesOnce (serve round) s ↔ v.RepliesWell round.2 (s.ready round.1 line) := by
  obtain ⟨hline, hfit, hverb⟩ := h
  have hrun : serve round s = runVerb round.2 v (s.ready round.1 line) := by
    rw [show round = (round.1, round.2) from rfl, serve_apply round.2 s hline hfit, hverb]
    rfl
  have hsilent : ctrlMsgs (s.ready round.1 line).trace = ctrlMsgs s.trace := rfl
  exact (repliesOnce_after hrun hsilent).trans
    (runVerb_replies_iff v hcur (ready_args_length_le hline) hline)

/-- **The replies of a session**: in every run, each handler that a message reaches answers it once
exactly when `Verb.RepliesWell` holds. -/
theorem session_replies_iff (rounds : List Round) (s : Session) (hs : Fresh s) :
    Along (fun s round => ∀ line v, Reached s round line v →
      (RepliesOnce (serve round) s ↔ v.RepliesWell round.2 (s.ready round.1 line)))
      serve s rounds := by
  refine Along.imp (I := fun s : Session => CurPathInv s.client.curPath) (P := fun _ _ => True)
    (fun s round hcur _ line v h => serve_replies_iff hcur h)
    (fun s round t hcur _ h => serve_curPathInv hcur h) ?_ (along_of_forall fun _ _ _ => trivial)
  rw [hs.curPath]
  exact curPathInv_root

/-- A message that comes to its handler, which replies once. -/
def RepliesAsReached (s : Session) (round : Round) : Prop :=
  ∃ v line, Reached s round line v ∧ v.RepliesWell round.2 (s.ready round.1 line)

theorem repliesAsReached_of {msg : List Byte} {env : Env} {s : Session} (v : Verb) (hmsg : msg.length ≤ 511)
    (hfit : ∀ p ∈ scanToken (commandLine msg), p.1.length < Buffer.cmd.size)
    (hverb : commandVerb msg = some v) (hwell : v.RepliesWell env (s.ready msg (commandLine msg))) :
    RepliesAsReached s (msg, env) :=
  ⟨v, commandLine msg, ⟨ofBuffer_received hmsg, fun token rest h => hfit (token, rest) h,
    verbOf_eq_commandVerb hmsg hverb s⟩, hwell⟩

theorem session_replies_iff_storing :
    Along (fun s round => RepliesOnce (serve round) s) serve newSession storingRounds := by
  have hreached : Along RepliesAsReached serve newSession storingRounds := by
    refine along_cons (repliesAsReached_of .type (by decide) (by decide) (by decide) ?_) <|
      along_cons (repliesAsReached_of .cwd (by decide) (by decide) (by decide) trivial) <|
      along_cons (repliesAsReached_of .port (by decide) (by decide) (by decide) ?_) <|
      along_cons (repliesAsReached_of .stor (by decide) (by decide) (by decide) ?_) trivial
    · intro control h
      have hnone : formatControl (cmdArgs (commandLine (bytes "TYPE I\r\n"))) = none := by decide
      cases hnone.symm.trans h
    · exact (by decide +kernel : (portIpStr calmEnv
        (cmdArgs (commandLine (bytes "PORT 127,0,0,1,4,210\r\n")))).length < 16)
    · exact ⟨by decide +kernel, Or.inr (by decide +kernel)⟩
  have honce := session_replies_iff storingRounds newSession fresh_newSession
  refine Along.imp (I := fun _ => True) (fun s round _ h => ?_) (fun _ _ _ _ _ _ => trivial) trivial
    (honce.and hreached)
  obtain ⟨hiff, v, line, hreach, hwell⟩ := h
  exact (hiff line v hreach).mpr hwell

theorem session_replies_rnto :
    ∃ t, serve (bytes "RNFR a\r\n", calmEnv) newSession = .ok ⟨⟩ t ∧
      verbOf t (bytes "RNTO b\r\n") = some .rnto ∧
      ¬ RepliesOnce (serve (bytes "RNTO b\r\n", { calmEnv with sceIoRename := -1 })) t := by
  refine ⟨_, eq_ok_of_returned (by decide), by decide +kernel, ?_⟩
  rw [repliesOnce_iff_of_msgs [bytes "550 Error renaming the file." ++ eol,
    bytes "226 Rename completed." ++ eol] (by decide)]
  exact fun h => absurd h.2 (by decide)

end VitaConnect.Ftp
