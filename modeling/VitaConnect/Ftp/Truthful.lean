import VitaConnect.Ftp.Events
import VitaConnect.Ftp.Replies

/-! # Replies of success behind a call that failed

A handler deceives its client when it answers with a reply of class 2 although one of these calls of its failed:
`sceNetSocket`, `sceNetAccept`, `sceNetSend` and `sceNetRecv` on the data connection, and of `sceIo` Open, Read, Write,
Dopen, Remove, Rmdir, Mkdir and Rename. The handlers that look at the answer of their call before they reply never do.
The others do, whenever such a call fails on the way to the reply: PASV and PORT with `sceNetSocket`, the transfers with
`sceNetAccept` and the calls of their loops, and RNTO, which goes on behind its 550.

Of `sceNetBind`, `sceNetListen`, `sceNetGetsockname`, `sceNetConnect`, `sceIoLseek32`, `sceIoGetstat`, `sceIoDread`, the
closes and the sends of the replies themselves no answer counts here.
-/
namespace VitaConnect.Ftp
open CString Program
set_option autoImplicit false

/-! ## Failed calls and replies of success -/

/-- A call failed, or moved less than it was given; of the events without an answer none counts. -/
def Event.Failed : Event → Prop
  | .socket fd => fd < 0
  | .accept _ ret | .dataRecv _ _ ret => ret < 0
  | .dataSend _ len _ ret => ret ≠ len
  | .open _ _ ret | .read _ _ ret | .dopen _ ret | .remove _ ret | .rmdir _ ret | .mkdir _ ret => ret < 0
  | .rename _ _ ret => ret < 0
  | .write _ buf ret => ret ≠ buf.length
  | _ => False

section Failed
variable (fd ret : ℤ) (path : Option CStr)

@[simp] theorem not_failed_ctrlSend (msg : CStr) : ¬ (Event.ctrlSend msg).Failed := id

@[simp] theorem not_failed_bind : ¬ (Event.bind fd).Failed := id

@[simp] theorem not_failed_listen : ¬ (Event.listen fd).Failed := id

@[simp] theorem not_failed_lseek (offset : BitVec 32) : ¬ (Event.lseek fd offset).Failed := id

@[simp] theorem not_failed_close : ¬ (Event.close fd).Failed := id

@[simp] theorem not_failed_dclose : ¬ (Event.dclose fd).Failed := id

@[simp] theorem failed_socket : (Event.socket fd).Failed ↔ fd < 0 := Iff.rfl

@[simp] theorem failed_open (mode : OpenMode) : (Event.open path mode ret).Failed ↔ ret < 0 := Iff.rfl

@[simp] theorem failed_read (got : List Byte) : (Event.read fd got ret).Failed ↔ ret < 0 := Iff.rfl

@[simp] theorem failed_write (buf : List Byte) : (Event.write fd buf ret).Failed ↔ ret ≠ buf.length := Iff.rfl

@[simp] theorem failed_dataSend (len : ℕ) (passed : List Byte) :
    (Event.dataSend fd len passed ret).Failed ↔ ret ≠ len := Iff.rfl

@[simp] theorem failed_dataRecv (got : List Byte) : (Event.dataRecv fd got ret).Failed ↔ ret < 0 := Iff.rfl

@[simp] theorem failed_dopen : (Event.dopen path ret).Failed ↔ ret < 0 := Iff.rfl

@[simp] theorem failed_rename (src : CStr) : (Event.rename src path ret).Failed ↔ ret < 0 := Iff.rfl

end Failed

/-- A reply that begins with `2`. -/
def Event.Succeeds (e : Event) : Prop := ∃ msg ∈ e.ctrlMsg?, msg.head? = some 50

def Deceives (es : List Event) : Prop := (∃ e ∈ es, e.Failed) ∧ ∃ e ∈ es, e.Succeeds

/-- `x` deceives the client of `s`. -/
def Deceived (x : FtpM PUnit) (s : Session) : Prop :=
  ∃ es, (finalState (x s)).trace = s.trace ++ es ∧ Deceives es

section Rules
variable {x y : FtpM PUnit} {s u : Session}

theorem deceived_iff (es : List Event) (h : (finalState (x s)).trace = s.trace ++ es) : Deceived x s ↔ Deceives es := by
  constructor
  · rintro ⟨es', hes', hdeceives⟩
    obtain rfl := List.append_cancel_left (h.symm.trans hes')
    exact hdeceives
  · exact fun hdeceives => ⟨es, h, hdeceives⟩

theorem succeeds_iff {es : List Event} : (∃ e ∈ es, e.Succeeds) ↔ ∃ msg ∈ ctrlMsgs es, msg.head? = some 50 := by
  constructor
  · rintro ⟨e, he, msg, hmsg, hhead⟩
    exact ⟨msg, List.mem_filterMap.mpr ⟨e, he, hmsg⟩, hhead⟩
  · rintro ⟨msg, hmsg, hhead⟩
    obtain ⟨e, he, hmsg⟩ := List.mem_filterMap.mp hmsg
    exact ⟨e, he, msg, hmsg, hhead⟩

/-- The events of `x` are those behind `u`, in which `y` goes on. -/
theorem deceived_after (h : x s = y u) (hu : u.trace = s.trace) : Deceived x s ↔ Deceived y u := by
  unfold Deceived
  rw [h, hu]

theorem not_deceived_of_unfailed (h : Emits (fun e => ¬ e.Failed) s (finalState (x s))) : ¬ Deceived x s := by
  obtain ⟨es, hes, hunfailed⟩ := h
  rw [deceived_iff es hes]
  rintro ⟨⟨e, he, hfailed⟩, -⟩
  exact hunfailed e he hfailed

theorem not_deceived_of_refused (h : Emits (fun e => ¬ e.Succeeds) s (finalState (x s))) : ¬ Deceived x s := by
  obtain ⟨es, hes, hrefused⟩ := h
  rw [deceived_iff es hes]
  rintro ⟨-, e, he, hsucceeds⟩
  exact hrefused e he hsucceeds

theorem not_deceived_of_msgs (msgs : List CStr)
    (h : ctrlMsgs (finalState (x s)).trace = ctrlMsgs s.trace ++ msgs)
    (hmsgs : ∀ msg ∈ msgs, msg.head? ≠ some 50) : ¬ Deceived x s := by
  rintro ⟨es, hes, -, hsucceeds⟩
  obtain ⟨msg, hmsg, hhead⟩ := succeeds_iff.mp hsucceeds
  rw [hes, ctrlMsgs_append] at h
  rw [List.append_cancel_left h] at hmsg
  exact hmsgs msg hmsg hhead

end Rules

/-! ## Handlers that look at the answer -/

/-- `x` deceives in no session. -/
def Honest (x : FtpM PUnit) : Prop := ∀ s, ¬ Deceived x s

section Honest
variable {x : FtpM PUnit} {kinds : List EventKind}

theorem unfailed_of_kinds (h : EmitsOf kinds x) (hkinds : kinds ⊆ [.reply, .notification]) :
    EmitsOnly (fun e => ¬ e.Failed) x := by
  intro s
  obtain ⟨⟨es, hes, hkind⟩, hcmd⟩ := h s
  refine ⟨⟨es, hes, fun e he => ?_⟩, hcmd⟩
  have hmem := hkinds (hkind e he)
  cases e <;> simp_all [Event.kind, Event.Failed]

theorem honest_of_kinds (h : EmitsOf kinds x) (hkinds : kinds ⊆ [.reply, .notification]) : Honest x :=
  fun s => not_deceived_of_unfailed (unfailed_of_kinds h hkinds s).emits

theorem honest_bind {α : Type} {x : FtpM α} {f : α → FtpM PUnit} (hx : Quiet x) (hf : ∀ a, Honest (f a)) :
    Honest (x >>= f) := by
  rintro s ⟨es, hes, hdeceives⟩
  have hquiet := congrArg Prod.fst (hx s)
  rw [bind_apply] at hes
  cases hrun : x s with
  | ok a t =>
    rw [hrun] at hes hquiet
    exact hf a t ⟨es, by rw [hes]; exact congrArg (· ++ es) hquiet.symm, hdeceives⟩
  | error e t =>
    rw [hrun] at hes hquiet
    obtain rfl : es = [] := by simpa using hes.symm.trans hquiet
    simp [Deceives] at hdeceives

theorem honest_ite {c : Prop} [Decidable c] {y : FtpM PUnit} (hx : Honest x) (hy : Honest y) :
    Honest (if c then x else y) := by
  split
  · exact hx
  · exact hy

/-- A call whose answer decides about the rest: without a reply of success when it failed, and without another call
that can fail when it did not. -/
theorem honest_guard {e : Event} (he : ¬ e.Succeeds) (hfailed : e.Failed → EmitsOnly (fun e => ¬ e.Succeeds) x)
    (hdone : ¬ e.Failed → EmitsOnly (fun e => ¬ e.Failed) x) : Honest (emit e >>= fun _ => x) := by
  intro s
  by_cases h : e.Failed
  · exact not_deceived_of_refused
      (respects_bind (emitsOnly_emit he) (fun _ => hfailed h) s : Within _ _ _).emits
  · exact not_deceived_of_unfailed
      (respects_bind (emitsOnly_emit h) (fun _ => hdone h) s : Within _ _ _).emits

theorem unfailed_reply (str : String) : EmitsOnly (fun e => ¬ e.Failed) (clientReply str) :=
  emitsOnly_emit id

theorem refused_reply {str : String} (h : (bytes str ++ eol).head? ≠ some 50) :
    EmitsOnly (fun e => ¬ e.Succeeds) (clientReply str) := by
  refine emitsOnly_emit fun hsucceeds => ?_
  obtain ⟨msg, hmsg, hhead⟩ := hsucceeds
  obtain rfl := Option.some.inj hmsg
  exact h hhead

theorem unfailed_notification (env : Env) (text : String) (path : Option CStr) :
    EmitsOnly (fun e => ¬ e.Failed) (notification env text path) :=
  emitsOnly_notification (fun _ => id) env text path

theorem unsuccessful {e : Event} (h : e.ctrlMsg? = none) : ¬ e.Succeeds := by
  rintro ⟨msg, hmsg, -⟩
  rw [h] at hmsg
  cases hmsg

theorem honest_dele (env : Env) : Honest (cmdDeleFunc env) := by
  refine honest_bind (quiet_genFtpFullpath env) fun path => honest_guard (unsuccessful rfl) ?_ ?_
  · intro hfailed
    rw [if_neg (not_le.mpr hfailed)]
    exact refused_reply (by decide)
  · intro hdone
    rw [if_pos (not_lt.mp hdone)]
    exact respects_bind (emitsOnly_quiet (quiet_setFiles _)) fun _ =>
      respects_bind (unfailed_notification _ _ _) fun _ => unfailed_reply _

theorem honest_rmd (env : Env) : Honest (cmdRmdFunc env) := by
  refine honest_bind (quiet_genFtpFullpath env) fun path => honest_guard (unsuccessful rfl) ?_ ?_
  · intro hfailed
    rw [if_neg (not_le.mpr hfailed)]
    exact respects_ite (refused_reply (by decide)) (refused_reply (by decide))
  · intro hdone
    rw [if_pos (not_lt.mp hdone)]
    exact respects_bind (unfailed_notification _ _ _) fun _ => unfailed_reply _

theorem honest_mkd (env : Env) : Honest (cmdMkdFunc env) := by
  refine honest_bind (quiet_genFtpFullpath env) fun path => honest_guard (unsuccessful rfl) ?_ ?_
  · intro hfailed
    rw [if_neg (not_le.mpr hfailed)]
    exact refused_reply (by decide)
  · intro hdone
    rw [if_pos (not_lt.mp hdone)]
    exact respects_bind (unfailed_notification _ _ _) fun _ => unfailed_reply _

theorem honest_reply (str : String) : Honest (clientReply str) :=
  fun s => not_deceived_of_unfailed (unfailed_reply str s).emits

theorem honest_cwd (env : Env) : Honest (cmdCwdFunc env) := by
  have hstore : ∀ buf str, Quiet (store buf str) := quiet_store
  refine honest_bind quiet_getClient fun client => ?_
  split
  · exact honest_reply _
  · refine honest_bind (hstore _ _) fun _ => honest_ite ?_ (honest_ite ?_ ?_)
    · exact honest_bind (hstore _ _) fun _ => honest_bind (quiet_setClient _) fun _ => honest_reply _
    · exact honest_bind (quiet_dirUp _) fun path => honest_bind (quiet_setClient _) fun _ => honest_reply _
    · refine honest_bind quiet_getClient fun client => honest_bind (hstore _ _) fun _ => honest_ite ?_ ?_
      · exact honest_bind (hstore _ _) fun _ => honest_bind (quiet_setClient _) fun _ => honest_reply _
      · refine honest_guard (unsuccessful rfl) ?_ ?_
        · intro hfailed
          have hneg : env.sceIoDopen _ < 0 := hfailed
          rw [if_pos hneg]
          exact refused_reply (by decide)
        · intro hdone
          have hpos : ¬ env.sceIoDopen _ < 0 := hdone
          rw [if_neg hpos]
          exact respects_bind (emitsOnly_emit id) fun _ => respects_bind (emitsOnly_quiet (hstore _ _)) fun _ =>
            respects_bind (emitsOnly_quiet (quiet_setClient _)) fun _ => unfailed_reply _

end Honest

/-! ## The condition -/

def Session.AcceptFails (env : Env) (s : Session) : Prop :=
  s.client.dataConType ≠ .active ∧ env.sceNetAccept < 0

/-- Up to the end of the file a read fails, or a send does not take what was read. -/
def SendFails (env : Env) : List ℤ → ℕ → Prop
  | [], _ => False
  | ret :: rets, i =>
    ret < 0 ∨ (unsignedLen ret ≠ 0 ∧ (env.sceNetSend i ≠ unsignedLen ret ∨ SendFails env rets (i + 1)))

/-- A line of the listing is not sent whole. -/
def LineFails (env : Env) : List (Bool × SceIoStat × CStr) → ℕ → Prop
  | [], _ => False
  | (dir, stat, name) :: rest, i =>
    env.sceNetSend i ≠ (genListFormat env.currentYear 512 dir stat name).length ∨ LineFails env rest (i + 1)

/-- A write does not take the whole chunk. -/
def WriteFails (env : Env) : List Chunk → ℕ → Prop
  | [], _ => False
  | chunk :: rest, i => env.sceIoWrite i ≠ chunk.val.length ∨ WriteFails env rest (i + 1)

def Session.vitaPath (env : Env) (s : Session) : Option CStr := getVitaPath (s.destPath env)

/-- The transfer comes to its reply of success. -/
def Session.Transfers (env : Env) (s : Session) : Prop :=
  (s.destPath env).length < pathMax ∧ 0 ≤ env.sceIoOpen ∧ env.malloc ≠ none ∧
    ¬ NotificationFaults env (s.vitaPath env)

def listedAt (env : Env) (path : CStr) : List (Bool × SceIoStat × CStr) :=
  if path = [slash] then listedDevices env else listedEntries env

/-- What fails behind the back of the client. -/
def Verb.Hides (env : Env) (s : Session) : Verb → Prop
  | .pasv => env.sceNetSocket < 0
  | .port => (portIpStr env s.client.recvCmdArgs).length < 16 ∧ env.sceNetSocket < 0
  | .list =>
    let path := listPath env s.client.curPath s.client.recvCmdArgs
    (path = [slash] ∨ 0 ≤ env.sceIoDopen (getVitaPath path)) ∧
      (s.AcceptFails env ∨ LineFails env (listedAt env path) 0)
  | .retr => s.Transfers env ∧ ReadsEnd env ∧ (s.AcceptFails env ∨ SendFails env env.sceIoRead 0)
  | .stor | .appe => s.Transfers env ∧ env.sceNetRecvEnd.val = 0 ∧
      (s.AcceptFails env ∨ WriteFails env env.sceNetRecv 0)
  | .rnto => (s.destPath env).length < pathMax ∧ env.sceIoRename < 0 ∧
      ¬ NotificationFaults env (some s.client.renamePath) ∧ ¬ NotificationFaults env (s.vitaPath env)
  | _ => False

/-! ## The handlers that hide a failure -/

section Traces
variable {env : Env} {s : Session} {es : List Event}

theorem failed_append (as bs : List Event) :
    (∃ e ∈ as ++ bs, e.Failed) ↔ (∃ e ∈ as, e.Failed) ∨ ∃ e ∈ bs, e.Failed := by
  simp [or_and_right, exists_or]

/-- A trace with a reply of success deceives when something failed. -/
theorem deceives_iff (msg : CStr) (hmsg : msg ∈ ctrlMsgs es) (hhead : msg.head? = some 50) :
    Deceives es ↔ ∃ e ∈ es, e.Failed :=
  and_iff_left (succeeds_iff.mpr ⟨msg, hmsg, hhead⟩)

theorem failed_openEvents : (∃ e ∈ openEvents env s.client, e.Failed) ↔ s.AcceptFails env := by
  unfold openEvents Session.AcceptFails
  by_cases h : s.client.dataConType = .active <;> simp [h, Event.Failed]

theorem unfailed_closeEvents (client : ClientInfo) : ¬ ∃ e ∈ closeEvents client, e.Failed := by
  rintro ⟨e, he, hfailed⟩
  exact forall_closeEvents (P := fun e => ¬ e.Failed) (fun _ => id) client e he hfailed

theorem unfailed_notificationEvents (text : String) (path : Option CStr) :
    ¬ ∃ e ∈ notificationEvents env text path, e.Failed := by
  rintro ⟨e, he, hfailed⟩
  exact forall_notificationEvents (P := fun e => ¬ e.Failed) (fun _ => id) env text path e he hfailed

theorem failed_sendEvents (fd transferFd : ℤ) (content : List Byte) (rets : List ℤ) (i pos : ℕ)
    (buffer : List Byte) :
    (∃ e ∈ sendEvents env fd transferFd content rets i pos buffer, e.Failed) ↔ SendFails env rets i := by
  induction rets generalizing i pos buffer with
  | nil => simp [sendEvents, SendFails]
  | cons ret rets ih =>
    rw [sendEvents, SendFails]
    by_cases h0 : unsignedLen ret = 0
    · simp [h0]
    · simp [h0, ih]

theorem failed_receiveEvents (fd transferFd : ℤ) (chunks : List Chunk) (i : ℕ) :
    (∃ e ∈ receiveEvents env fd transferFd i chunks, e.Failed) ↔
      WriteFails env chunks i ∨ env.sceNetRecvEnd.val < 0 := by
  induction chunks generalizing i with
  | nil => simp [receiveEvents, WriteFails]
  | cons chunk rest ih =>
    have hlength : ¬ (chunk.val.length : ℤ) < 0 := by omega
    simp [receiveEvents, WriteFails, ih, hlength, or_assoc]

def lineEvents (env : Env) (fd : ℤ) : ℕ → List (Bool × SceIoStat × CStr) → List Event
  | _, [] => []
  | i, (dir, stat, name) :: rest =>
    let line := genListFormat env.currentYear 512 dir stat name
    .dataSend fd line.length line (env.sceNetSend i) :: lineEvents env fd (i + 1) rest

theorem sendLines_run (entries : List (Bool × SceIoStat × CStr)) (i : ℕ) (s : Session) :
    sendLines env i entries s
      = .ok ⟨⟩ { s with trace := s.trace ++ lineEvents env s.client.transferFd i entries } := by
  induction entries generalizing i s with
  | nil => simp [sendLines, lineEvents, pure_apply]
  | cons entry rest ih => simp [sendLines, lineEvents, clientSendDataMsg, bind_apply, ih]

theorem failed_lineEvents (fd : ℤ) (entries : List (Bool × SceIoStat × CStr)) (i : ℕ) :
    (∃ e ∈ lineEvents env fd i entries, e.Failed) ↔ LineFails env entries i := by
  induction entries generalizing i with
  | nil => simp [lineEvents, LineFails]
  | cons entry rest ih => simp [lineEvents, LineFails, ih]

end Traces

section Handlers
variable {env : Env} {s : Session}

theorem pasv_deceived_iff : Deceived (cmdPasvFunc env) s ↔ env.sceNetSocket < 0 := by
  have hreply : (pasvReply env.vitaAddr env.sceNetGetsockname).head? = some 50 := rfl
  rw [deceived_iff _ (by rw [cmdPasvFunc_apply, finalState_ok]), Deceives, succeeds_iff]
  simp [hreply]

theorem port_deceived_iff : Deceived (cmdPortFunc env) s ↔ Verb.port.Hides env s := by
  by_cases hip : (portIpStr env s.client.recvCmdArgs).length < Buffer.ipStr.size
  · have hreply : (bytes "200 PORT command successful!").head? = some 50 := rfl
    rw [deceived_iff _ (by rw [cmdPortFunc_apply env hip, finalState_ok]), Deceives, succeeds_iff, Verb.Hides,
      and_iff_right (show _ < 16 from hip)]
    simp [hreply]
  · refine iff_of_false ?_ fun h => hip h.1
    rw [deceived_iff []]
    · simp [Deceives]
    · simp [cmdPortFunc, bind_apply, store_apply, hip]

/-- The listing between what opens and what closes the directory. -/
theorem listing_deceived_iff (entries : List (Bool × SceIoStat × CStr)) {opening closing : FtpM PUnit}
    {es es' : List Event} (hopening : ∀ t, opening t = .ok ⟨⟩ { t with trace := t.trace ++ es })
    (hclosing : ∀ t, closing t = .ok ⟨⟩ { t with trace := t.trace ++ es' }) (hes : ∀ e ∈ es, ¬ e.Failed)
    (hes' : ∀ e ∈ es', ¬ e.Failed) :
    Deceived (do
      opening
      clientReply "150 Opening ASCII mode data transfer for LIST."
      clientOpenDataConnection env
      sendLines env 0 entries
      closing
      clientCloseDataConnection
      clientReply "226 Transfer complete.") s ↔ s.AcceptFails env ∨ LineFails env entries 0 := by
  have hopened : ¬ ∃ e ∈ es, e.Failed := by
    rintro ⟨e, he, hfailed⟩
    exact hes e he hfailed
  have hclosed : ¬ ∃ e ∈ es', e.Failed := by
    rintro ⟨e, he, hfailed⟩
    exact hes' e he hfailed
  rw [deceived_iff (es ++ [.ctrlSend (bytes "150 Opening ASCII mode data transfer for LIST." ++ eol)]
    ++ openEvents env s.client ++ lineEvents env (s.client.opened env).transferFd 0 entries ++ es'
    ++ closeEvents (s.client.opened env) ++ [.ctrlSend (bytes "226 Transfer complete." ++ eol)])]
  · rw [deceives_iff (bytes "226 Transfer complete." ++ eol) (by simp) rfl]
    simp only [failed_append, failed_openEvents, failed_lineEvents, hopened, hclosed, unfailed_closeEvents]
    simp
  · simp only [bind_apply, hopening, clientReply_apply, clientOpenDataConnection_apply, sendLines_run, hclosing,
      clientCloseDataConnection_apply, finalState_ok, List.append_assoc]

theorem sendList_deceived_iff (path : CStr) :
    Deceived (sendList env path) s ↔ (path = [slash] ∨ 0 ≤ env.sceIoDopen (getVitaPath path)) ∧
      (s.AcceptFails env ∨ LineFails env (listedAt env path) 0) := by
  unfold sendList listedAt
  by_cases hroot : path = [slash]
  · simp only [hroot, if_true, true_or, true_and]
    have hpure : ∀ t : Session, (pure ⟨⟩ : FtpM PUnit) t = .ok ⟨⟩ { t with trace := t.trace ++ [] } := by
      simp [pure_apply]
    exact listing_deceived_iff (listedDevices env) hpure hpure (by simp) (by simp)
  · simp only [hroot, if_false, false_or]
    set dir := env.sceIoDopen (getVitaPath path)
    by_cases hdir : dir < 0
    · refine iff_of_false (not_deceived_of_msgs [bytes "550 Invalid directory." ++ eol] ?_ ?_)
        fun h => absurd h.1 (by omega)
      · simp [bind_apply, hdir]
      · decide
    · rw [and_iff_right (not_lt.mp hdir)]
      simp only [hdir, if_false]
      exact listing_deceived_iff (listedEntries env) (emit_apply (.dopen (getVitaPath path) dir))
        (emit_apply (.dclose dir)) (by simpa using hdir) (by simp)

theorem sendFile_deceived_iff (path : Option CStr) :
    Deceived (sendFile env path) s ↔ 0 ≤ env.sceIoOpen ∧ env.malloc ≠ none ∧ ¬ NotificationFaults env path ∧
      ReadsEnd env ∧ (s.AcceptFails env ∨ SendFails env env.sceIoRead 0) := by
  by_cases hdone : 0 ≤ env.sceIoOpen ∧ env.malloc ≠ none ∧ ReadsEnd env ∧ ¬ NotificationFaults env path
  · obtain ⟨hopen, hmalloc, hend, hf⟩ := hdone
    obtain ⟨buffer, hbuffer⟩ := Option.ne_none_iff_exists'.mp hmalloc
    have hfine : ¬ env.sceIoOpen < 0 := by omega
    simp only [hopen, hmalloc, hend, hf, ne_eq, not_false_eq_true, true_and]
    rw [deceived_iff]
    case h =>
      rw [sendFile_transfer path s hopen hbuffer, if_pos hend, if_neg hf, finalState_ok]
      simp only [sendingState, List.append_assoc]
      rfl
    rw [deceives_iff (bytes "226 Transfer completed." ++ eol) (by simp) rfl]
    simp only [failed_append, failed_openEvents, failed_sendEvents, unfailed_notificationEvents,
      unfailed_closeEvents]
    simp [hfine]
  · refine iff_of_false (not_deceived_of_msgs _ (sendFile_msgs path s env) ?_) (by tauto)
    unfold sendReplies
    split_ifs with hopen hm hend
    · decide
    · decide
    · exact absurd ⟨by omega, hm, hend.1, hend.2⟩ hdone
    · decide

theorem receiveFile_deceived_iff (path : Option CStr) :
    Deceived (receiveFile env path) s ↔ 0 ≤ env.sceIoOpen ∧ env.malloc ≠ none ∧ ¬ NotificationFaults env path ∧
      env.sceNetRecvEnd.val = 0 ∧ (s.AcceptFails env ∨ WriteFails env env.sceNetRecv 0) := by
  by_cases hdone : 0 ≤ env.sceIoOpen ∧ env.malloc ≠ none ∧ ¬ NotificationFaults env path ∧
      env.sceNetRecvEnd.val = 0
  · obtain ⟨hopen, hmalloc, hf, hend⟩ := hdone
    obtain ⟨buffer, hbuffer⟩ := Option.ne_none_iff_exists'.mp hmalloc
    have hfine : ¬ env.sceIoOpen < 0 := by omega
    have hclosed : ¬ env.sceNetRecvEnd.val < 0 := by omega
    rw [and_iff_right hopen, and_iff_right hmalloc, and_iff_right hf, and_iff_right hend, deceived_iff]
    case h =>
      rw [receiveFile_transfer path s hopen hbuffer]
      dsimp only
      rw [if_pos hend, if_neg hf, finalState_ok]
      simp only [receivedState, List.append_assoc]
      rfl
    rw [deceives_iff (bytes "226 Transfer completed." ++ eol) (by simp) rfl]
    simp only [failed_append, failed_openEvents, failed_receiveEvents, unfailed_notificationEvents,
      unfailed_closeEvents]
    simp [hfine, hclosed]
  · refine iff_of_false (not_deceived_of_msgs _ (receiveFile_msgs path s env) ?_) (by tauto)
    unfold receiveReplies
    split_ifs with hopen hm hf hend
    · decide
    · decide
    · decide
    · exact absurd ⟨by omega, hm, hf, hend⟩ hdone
    · decide

theorem genFtpFullpath_bind_deceived {f : CStr → FtpM PUnit} (hargs : s.client.recvCmdArgs.length ≤ 511) :
    Deceived (genFtpFullpath env >>= f) s ↔
      (s.destPath env).length < pathMax ∧ Deceived (f (s.destPath env)) s := by
  have hrun : genFtpFullpath env s = if (s.destPath env).length < pathMax then
      .ok (s.destPath env) s else .error (.fault (.unterminated .destPath)) s :=
    genFtpFullpath_apply env hargs
  by_cases hfits : (s.destPath env).length < pathMax
  · rw [if_pos hfits] at hrun
    rw [and_iff_right hfits]
    refine deceived_after ?_ rfl
    rw [bind_apply, hrun]
  · rw [if_neg hfits] at hrun
    refine iff_of_false (not_deceived_of_msgs [] ?_ (by simp)) fun h => hfits h.1
    rw [bind_apply, hrun]
    simp

theorem unfailed_renameNotification (src : CStr) (dst : Option CStr) :
    EmitsOnly (fun e => ¬ e.Failed) (renameNotification env src dst) := by
  refine respects_ite ?_ (respects_pure _)
  split
  · exact emitsOnly_emit id
  · exact respects_throw _

/-- RNTO behind its path. -/
def renameTo (env : Env) (dst : Option CStr) : FtpM PUnit := do
  let client ← getClient
  emit (.rename client.renamePath dst env.sceIoRename)
  renameAnswer env client.renamePath dst

theorem renameTo_honest (dst : Option CStr) (h : 0 ≤ env.sceIoRename) : ¬ Deceived (renameTo env dst) s := by
  have hanswer : ∀ src, EmitsOnly (fun e => ¬ e.Failed) (renameAnswer env src dst) := by
    intro src
    unfold renameAnswer
    rw [if_neg (not_lt.mpr h)]
    exact respects_bind (emitsOnly_quiet (quiet_setFiles _)) fun _ =>
      respects_bind (unfailed_renameNotification src dst) fun _ => unfailed_reply _
  have hrename : ∀ src, ¬ (Event.rename src dst env.sceIoRename).Failed := fun _ => not_lt.mpr h
  have hall : EmitsOnly (fun e => ¬ e.Failed) (renameTo env dst) :=
    respects_bind (emitsOnly_quiet quiet_getClient) fun client =>
      respects_bind (emitsOnly_emit (hrename _)) fun _ => hanswer _
  exact not_deceived_of_unfailed (hall s).emits

/-- Behind the 550 for the failed call comes the 226. -/
theorem renameTo_deceived_iff (dst : Option CStr) (h : env.sceIoRename < 0) :
    Deceived (renameTo env dst) s ↔
      ¬ NotificationFaults env (some s.client.renamePath) ∧ ¬ NotificationFaults env dst := by
  set src := s.client.renamePath with hsrc
  set refused : List Event := [.rename src dst env.sceIoRename,
    .ctrlSend (bytes "550 Error renaming the file." ++ eol)] with hrefused
  set v : Session := { s with trace := s.trace ++ refused } with hv
  have hrun : renameTo env dst s = renamed env src dst v := by
    simp [renameTo, renameAnswer, renamed, bind_apply, h, hv, hrefused, hsrc]
  rw [← not_or]
  by_cases hf : NotificationFaults env (some src) ∨ NotificationFaults env dst
  · refine iff_of_false ?_ (not_not.mpr hf)
    refine not_deceived_of_msgs [bytes "550 Error renaming the file." ++ eol] ?_ (by decide)
    rw [hrun, renamed_fault v hf]
    simp [hv, hrefused]
  · refine iff_of_true ?_ hf
    obtain ⟨es, -, hnotified⟩ := renameNotification_ok v hf
    have htrace : (finalState (renameTo env dst s)).trace
        = s.trace ++ (refused ++ es ++ [.ctrlSend (bytes "226 Rename completed." ++ eol)]) := by
      rw [hrun, renamed, bind_apply, hnotified]
      simp [hv]
    rw [deceived_iff _ htrace, deceives_iff (bytes "226 Rename completed." ++ eol) (by simp) rfl]
    exact ⟨.rename src dst env.sceIoRename, by simp [hrefused], h⟩

theorem rnto_deceived_iff (hargs : s.client.recvCmdArgs.length ≤ 511) :
    Deceived (cmdRntoFunc env) s ↔ Verb.rnto.Hides env s := by
  refine (genFtpFullpath_bind_deceived (f := fun path => renameTo env (getVitaPath path)) hargs).trans
    (and_congr_right fun _ => ?_)
  by_cases hfail : env.sceIoRename < 0
  · rw [and_iff_right hfail]
    exact renameTo_deceived_iff (s.vitaPath env) hfail
  · exact iff_of_false (renameTo_honest _ (not_lt.mp hfail)) fun h => hfail h.1

theorem retr_deceived_iff (hargs : s.client.recvCmdArgs.length ≤ 511) :
    Deceived (cmdRetrFunc env) s ↔ Verb.retr.Hides env s := by
  refine (genFtpFullpath_bind_deceived hargs).trans ?_
  rw [sendFile_deceived_iff]
  simp only [Verb.Hides, Session.Transfers, Session.vitaPath, and_assoc]

theorem stor_deceived_iff (hargs : s.client.recvCmdArgs.length ≤ 511) :
    Deceived (cmdStorFunc env) s ↔ Verb.stor.Hides env s := by
  refine (genFtpFullpath_bind_deceived hargs).trans ?_
  rw [receiveFile_deceived_iff]
  simp only [Verb.Hides, Session.Transfers, Session.vitaPath, and_assoc]

/-! ## All handlers -/

theorem runVerb_deceived_iff (v : Verb) (hargs : s.client.recvCmdArgs.length ≤ 511) :
    Deceived (runVerb env v) s ↔ v.Hides env s := by
  have hreplies : ∀ v : Verb, v.kinds ⊆ [.reply, .notification] → ¬ Deceived (runVerb env v) s :=
    fun v hkinds => honest_of_kinds (runVerb_kinds env v) hkinds s
  cases v with
  | noop | user | pass | quit | syst | opts | feat | pwd | type | cdup | rnfr | size | rest =>
    exact iff_of_false (hreplies _ (by decide)) id
  | pasv => exact pasv_deceived_iff
  | port => exact port_deceived_iff
  | list =>
    have hfits : ∀ str ∈ scanSet argStops s.client.recvCmdArgs, str.length < Buffer.listPath.size := by
      intro str hstr
      have hlen := scanSet_length_le hstr
      simp only [Buffer.size, pathMax]
      omega
    refine (deceived_after (u := s) ?_ rfl).trans
      (sendList_deceived_iff (listPath env s.client.curPath s.client.recvCmdArgs))
    simp only [runVerb, cmdListFunc, bind_apply, getClient_apply, storeScanned_ok hfits]
  | cwd => exact iff_of_false (honest_cwd env s) id
  | dele => exact iff_of_false (honest_dele env s) id
  | rmd => exact iff_of_false (honest_rmd env s) id
  | mkd => exact iff_of_false (honest_mkd env s) id
  | rnto => exact rnto_deceived_iff hargs
  | retr => exact retr_deceived_iff hargs
  | stor => exact stor_deceived_iff hargs
  | appe =>
    -- the handler first sets the restore point to -1
    refine (deceived_after (u := { s with client := { s.client with restorePoint := -1 } })
      (y := cmdStorFunc env) rfl rfl).trans (stor_deceived_iff ?_)
    exact hargs

end Handlers

/-- The round comes to a handler that hides a failed call. -/
def Hides (s : Session) (round : Round) : Prop :=
  ∃ line v, Reached s round line v ∧ v.Hides round.2 (s.ready round.1 line)

theorem serve_deceived_iff (s : Session) (round : Round) : Deceived (serve round) s ↔ Hides s round := by
  by_cases hready : ∃ line, ofBuffer (received round.1) = some line ∧ TokenFits line
  · obtain ⟨line, hline, hfit⟩ := hready
    have hrun := serve_apply round.2 s hline hfit
    refine (deceived_after hrun rfl).trans ?_
    cases hverb : verbOf s round.1 with
    | none =>
      refine iff_of_false (honest_reply _ _) ?_
      rintro ⟨line', v, hreached, -⟩
      exact absurd (hverb.symm.trans hreached.2.2) (by simp)
    | some v =>
      refine (runVerb_deceived_iff v (ready_args_length_le hline)).trans ⟨fun h => ?_, fun h => ?_⟩
      · exact ⟨line, v, ⟨hline, hfit, hverb⟩, h⟩
      · obtain ⟨line', v', ⟨hline', -, hverb'⟩, h⟩ := h
        obtain rfl := Option.some.inj (hline.symm.trans hline')
        obtain rfl := Option.some.inj (hverb.symm.trans hverb')
        exact h
  · have hnone : ¬ Hides s round := by
      rintro ⟨line, v, hreached, -⟩
      exact hready ⟨line, hreached.1, hreached.2.1⟩
    refine iff_of_false ?_ hnone
    obtain ⟨f, -, hrun⟩ := serve_fault round.2 s fun line hline hfit => hready ⟨line, hline, hfit⟩
    refine not_deceived_of_msgs [] ?_ (by simp)
    rw [show serve round s = _ from hrun]
    simp

/-- **When the client is deceived.** In every session a reply of success stands behind a failed call of those that count
exactly when the round is one of those. -/
theorem session_deceived_iff (rounds : List Round) (s : Session) :
    Along (fun s round => ¬ Deceived (serve round) s) serve s rounds ↔
      Along (fun s round => ¬ Hides s round) serve s rounds := by
  simp only [serve_deceived_iff]

end VitaConnect.Ftp
