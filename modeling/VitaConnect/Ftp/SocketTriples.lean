import VitaConnect.Ftp.Sockets
import VitaConnect.Program.Triple

/-! # What the commands do with the data sockets

Between two commands the only socket that may be open is `data_sockfd`, and then `data_con_type` is
not NONE (`Idle`); inside a transfer the accepted socket is open too (`InTransfer`). The triples say how
each command leads from one of these states to the next, and that no socket is misused when it ends
abnormally.
-/
namespace VitaConnect.Ftp
open CString Program
set_option autoImplicit false

/-! ## The fields that name the sockets -/

structure DataView where
  dataConType : DataConnectionType
  dataSockfd : ℤ
  pasvSockfd : ℤ
  deriving DecidableEq

def ClientInfo.dataView (client : ClientInfo) : DataView :=
  ⟨client.dataConType, client.dataSockfd, client.pasvSockfd⟩

namespace DataView

/-- A socket is set up for the next transfer. -/
def ready (v : DataView) : Bool := v.dataConType ≠ .none ∧ 0 ≤ v.dataSockfd

/-- The sockets open between two commands. -/
def SetUp (v : DataView) (k : ℤ) : Prop := v.ready ∧ k = v.dataSockfd

/-- The sockets open inside a transfer. -/
def Connected (v : DataView) (k : ℤ) : Prop :=
  k = v.dataSockfd ∨ (v.dataConType = .passive ∧ k = v.pasvSockfd)

def transferFd (v : DataView) : ℤ := if v.dataConType = .active then v.dataSockfd else v.pasvSockfd

theorem connected_transferFd {v : DataView} (h : v.dataConType ≠ .none) : v.Connected v.transferFd := by
  unfold transferFd
  cases htype : v.dataConType with
  | none => exact absurd htype h
  | active => exact Or.inl rfl
  | passive => exact Or.inr ⟨htype, rfl⟩

end DataView

/-- The client has the fields `v`, and the sockets `held` are open. -/
structure At (v : DataView) (held : ℤ → Prop) (pending : Bool) (s : Session) : Prop where
  view : s.client.dataView = v
  sockets : Sockets held pending s.trace

/-- Nothing wrong has happened to a socket so far. -/
structure SocketsSafe (s : Session) : Prop where
  sound : socketLedger.Sound s.trace
  opens : OpensSetUp s.trace

/-- The session between two commands. -/
abbrev Idle (v : DataView) : Session → Prop := At v v.SetUp v.ready

/-- The session inside a transfer. -/
abbrev InTransfer (v : DataView) : Session → Prop := At v v.Connected false

theorem At.safe {v : DataView} {held : ℤ → Prop} {pending : Bool} {s : Session}
    (h : At v held pending s) : SocketsSafe s := ⟨h.sockets.sound, h.sockets.opens⟩

abbrev SocketTriple {α : Type} (P : Session → Prop) (x : FtpM α) (Q : Session → Prop) : Prop :=
  Triple SocketsSafe P x fun _ => Q

/-! ## Elementary steps -/

section Steps
variable {v v' : DataView} {held held' : ℤ → Prop} {pending pending' : Bool} {α : Type}
variable {Q : Session → Prop}

/-- A program that concerns no socket and writes none of the fields. -/
theorem triple_aside (kinds : List EventKind) {x : FtpM α} (hsetUp : .setUp ∉ kinds)
    (hdata : .data ∉ kinds) (hevents : EmitsOf kinds x) (hview : KeepsClient ClientInfo.dataView x) :
    SocketTriple (At v held pending) x (At v held pending) := by
  have hboth : Respects (fun s t => Within (fun e => e.kind ∈ kinds) s t ∧
      t.client.dataView = s.client.dataView) x := fun s => ⟨hevents s, hview s⟩
  have hat : ∀ s t, At v held pending s →
      Within (fun e => e.kind ∈ kinds) s t ∧ t.client.dataView = s.client.dataView →
      At v held pending t := by
    rintro s t hs ⟨⟨⟨es, htrace, hes⟩, -⟩, hkept⟩
    refine ⟨hkept.trans hs.view, ?_⟩
    rw [htrace]
    apply hs.sockets.append_idle
    intro e he
    have hkind : e.kind ∈ kinds := hes e he
    exact idle_of_kind (fun h => hsetUp (h ▸ hkind)) fun h => hdata (h ▸ hkind)
  exact triple_of_respects hboth (fun s t _ => hat s t) fun s t hs ht => (hat s t hs ht).safe

theorem triple_reply (str : String) :
    SocketTriple (At v held pending) (clientReply str) (At v held pending) :=
  triple_aside [.reply] (by decide) (by decide) (emitsOf_reply (by decide) str)
    (keeps_reply str)

theorem triple_emit {e : Event} (h : ∀ trace, Sockets held pending trace →
    Sockets held' pending' (trace ++ [e])) :
    SocketTriple (At v held pending) (emit e) (At v held' pending') :=
  fun s hs => ⟨hs.view, h s.trace hs.sockets⟩

theorem triple_emit_idle {e : Event} (h : e.Idle) :
    SocketTriple (At v held pending) (emit e) (At v held pending) :=
  triple_emit fun _ hsockets => hsockets.idle h

theorem triple_setClient {f : ClientInfo → ClientInfo}
    (h : ∀ c : ClientInfo, c.dataView = v → (f c).dataView = v') :
    SocketTriple (At v held pending) (setClient f) (At v' held pending) :=
  fun s hs => ⟨h s.client hs.view, hs.sockets⟩

theorem triple_getClient {f : ClientInfo → FtpM α}
    (h : ∀ c : ClientInfo, c.dataView = v → SocketTriple (At v held pending) (f c) Q) :
    SocketTriple (At v held pending) (getClient >>= f) Q :=
  fun s hs => h s.client hs.view s hs

theorem triple_setFiles (f : Files → Files) :
    SocketTriple (At v held pending) (setFiles f) (At v held pending) :=
  fun _ hs => ⟨hs.view, hs.sockets⟩

theorem triple_store (buf : Buffer) (str : CStr) :
    SocketTriple (At v held pending) (store buf str) (At v held pending) := by
  refine triple_ite (fun _ => triple_pure fun _ => id) fun _ => ?_
  exact triple_throw fun _ => At.safe

end Steps

/-! ## Inside a transfer -/

section Transfers
variable {v : DataView}

/-- A transfer finds a socket set up, and in passive mode its `sceNetAccept` succeeds with a socket
that was not open. -/
structure Connects (v : DataView) (env : Env) : Prop where
  ready : v.ready
  accept : v.dataConType = .passive → 0 ≤ env.sceNetAccept ∧ env.sceNetAccept ≠ v.dataSockfd

/-- The client inside a transfer that began with `v`. -/
def DataView.opened (v : DataView) (env : Env) : DataView :=
  if v.dataConType = .active then v else { v with pasvSockfd := env.sceNetAccept }

theorem DataView.opened_dataConType (v : DataView) (env : Env) :
    (v.opened env).dataConType = v.dataConType := by
  unfold opened
  split <;> rfl

theorem Connects.dataConType {env : Env} (h : Connects v env) :
    (v.opened env).dataConType ≠ .none := by
  rw [v.opened_dataConType]
  exact (of_decide_eq_true h.ready).1

theorem triple_open {env : Env} (h : Connects v env) :
    SocketTriple (Idle v) (clientOpenDataConnection env) (InTransfer (v.opened env)) := by
  obtain ⟨hready, haccept⟩ := h
  have htype : v.dataConType ≠ .none := (of_decide_eq_true hready).1
  unfold DataView.opened
  apply triple_getClient
  intro c hc
  obtain rfl := hc
  apply triple_ite
  · intro hactive
    have hactive' : c.dataView.dataConType = .active := hactive
    rw [if_pos hactive']
    apply triple_emit
    intro trace hsockets
    rw [hready] at hsockets
    refine (hsockets.connect ⟨hready, rfl⟩).congr fun k => ?_
    simp [DataView.SetUp, DataView.Connected, hready, hactive']
  · intro hactive
    have hactive' : c.dataView.dataConType ≠ .active := hactive
    have hpassive : c.dataView.dataConType = .passive := by
      cases hcases : c.dataView.dataConType with
      | none => exact absurd hcases htype
      | active => exact absurd hcases hactive'
      | passive => rfl
    obtain ⟨hret, hnew⟩ := haccept hpassive
    rw [if_neg hactive']
    refine triple_bind (triple_emit fun trace hsockets => ?_) fun _ => triple_setClient fun d hd => ?_
    · rw [hready] at hsockets
      have hfree : ¬ c.dataView.SetUp env.sceNetAccept := fun h => hnew h.2
      refine (hsockets.accept ⟨hready, rfl⟩ hret hfree).congr fun k => ?_
      simp [DataView.SetUp, DataView.Connected, hready, hpassive, or_comm]
    · rw [← hd]
      rfl

theorem triple_close (hfd : v.dataConType = .passive → v.pasvSockfd ≠ v.dataSockfd) :
    SocketTriple (InTransfer v) clientCloseDataConnection (Idle { v with dataConType := .none }) := by
  have hidle : ∀ k, ¬ ({ v with dataConType := .none } : DataView).SetUp k :=
    fun k h => absurd h.1 (by simp [DataView.ready])
  have hnone : SocketTriple (At v (fun _ => False) false)
      (setClient fun c => { c with dataConType := .none }) (Idle { v with dataConType := .none }) := by
    intro s hs
    refine ⟨?_, hs.sockets.congr fun k => (iff_false_intro (hidle k)).symm⟩
    rw [← hs.view]
    rfl
  apply triple_getClient
  intro c hc
  obtain rfl := hc
  apply triple_bind
  · exact triple_emit fun trace hsockets => hsockets.close (Or.inl rfl)
  intro _
  apply triple_ite
  · intro hpassive
    have hpassive' : c.dataView.dataConType = .passive := hpassive
    refine triple_bind (triple_emit fun trace hsockets => ?_) fun _ => hnone
    refine (hsockets.close ⟨Or.inr ⟨hpassive', rfl⟩, hfd hpassive'⟩).congr fun k => ?_
    simp only [DataView.Connected, hpassive', true_and, iff_false]
    rintro ⟨⟨hk | hk, hdata⟩, hpasv⟩
    · exact hdata hk
    · exact hpasv hk
  · intro hpassive
    have hpassive' : c.dataView.dataConType ≠ .passive := hpassive
    refine triple_conseq hnone (fun s hs => ⟨hs.view, hs.sockets.congr fun k => ?_⟩) fun _ _ => id
    simp only [DataView.Connected, hpassive', false_and, or_false, iff_false]
    exact fun hk => hk.2 hk.1

theorem triple_sendLines (hv : v.dataConType ≠ .none) (env : Env)
    (entries : List (Bool × SceIoStat × CStr)) (i : ℕ) :
    SocketTriple (InTransfer v) (sendLines env i entries) (InTransfer v) := by
  induction entries generalizing i with
  | nil => exact triple_pure fun _ => id
  | cons entry rest ih =>
    obtain ⟨dir, stat, name⟩ := entry
    apply triple_bind (Q := fun _ => InTransfer v)
    · apply triple_getClient
      rintro c rfl
      exact triple_emit fun trace hsockets =>
        hsockets.dataSend (DataView.connected_transferFd hv) _ _
    · exact fun _ => ih (i + 1)

theorem triple_sendLoop (hv : v.dataConType ≠ .none) (env : Env) (fd : ℤ) (content : List Byte)
    (rets : List ℤ) (i pos : ℕ) (buffer : List Byte) :
    SocketTriple (InTransfer v) (sendLoop env fd content rets i pos buffer) (InTransfer v) := by
  induction rets generalizing i pos buffer with
  | nil => exact triple_throw fun _ => At.safe
  | cons ret rets ih =>
    apply triple_bind
    · exact triple_emit_idle (idle_of_kind nofun nofun)
    intro _
    apply triple_ite
    · exact fun _ => triple_pure fun _ => id
    intro _
    apply triple_getClient
    rintro c rfl
    apply triple_bind
    · exact triple_emit fun trace hsockets =>
        hsockets.dataSend (DataView.connected_transferFd hv) _ _
    · exact fun _ => ih _ _ _

theorem triple_receiveLoop (hv : v.dataConType ≠ .none) (env : Env) (fd : ℤ) (path : Option CStr)
    (chunks : List Chunk) (i : ℕ) :
    SocketTriple (InTransfer v) (receiveLoop env fd path i chunks) (InTransfer v) := by
  have hrecv : ∀ got ret, SocketTriple (InTransfer v)
      (emit (.dataRecv v.transferFd got ret)) (InTransfer v) := fun got ret =>
    triple_emit fun trace hsockets => hsockets.dataRecv (DataView.connected_transferFd hv) got
  induction chunks generalizing i with
  | nil =>
    apply triple_getClient
    rintro c rfl
    exact hrecv _ _
  | cons chunk rest ih =>
    apply triple_bind (Q := fun _ => InTransfer v)
    · apply triple_getClient
      rintro c rfl
      refine triple_bind (hrecv _ _) fun _ =>
        triple_bind (triple_emit_idle (idle_of_kind nofun nofun)) fun _ => ?_
      exact triple_setFiles _
    · exact fun _ => ih (i + 1)

end Transfers

/-! ## The commands -/

section Commands
variable {v : DataView}

def SomeIdle (s : Session) : Prop := ∃ v, Idle v s

theorem triple_disconnect {env : Env} (h : Connects v env) :
    SocketTriple (InTransfer (v.opened env)) clientCloseDataConnection SomeIdle := by
  refine triple_conseq (triple_close ?_) (fun _ => id) fun _ s hs => ⟨_, hs⟩
  intro hpassive
  rw [v.opened_dataConType] at hpassive
  have hactive : v.dataConType ≠ .active := by rw [hpassive]; decide
  rw [DataView.opened, if_neg hactive]
  exact (h.accept hpassive).2

theorem triple_notification {held : ℤ → Prop} {pending : Bool} (env : Env) (text : String)
    (path : Option CStr) :
    SocketTriple (At v held pending) (notification env text path) (At v held pending) :=
  triple_aside [.notification] (by decide) (by decide)
    (emitsOf_notification (by decide) env text path) (keeps_notification env text path)

theorem triple_sceIoOpen {held : ℤ → Prop} {pending : Bool} (env : Env) (path : Option CStr)
    (mode : OpenMode) : Triple SocketsSafe (At v held pending) (sceIoOpen env path mode)
      fun fd s => fd = env.sceIoOpen ∧ At v held pending s := by
  intro s hs
  rw [sceIoOpen_apply]
  exact ⟨rfl, hs.view, hs.sockets.idle (idle_of_kind nofun nofun)⟩

theorem triple_sendFile (env : Env) (path : Option CStr)
    (h : 0 ≤ env.sceIoOpen → env.malloc ≠ none → Connects v env) :
    SocketTriple (Idle v) (sendFile env path) SomeIdle := by
  have hreply : ∀ str, SocketTriple (Idle v) (clientReply str) SomeIdle := fun str =>
    triple_conseq (triple_reply str) (fun _ => id) fun _ s hs => ⟨v, hs⟩
  refine triple_bind (triple_sceIoOpen env path _) fun fd => ?_
  rintro s ⟨rfl, hs⟩
  revert s
  show SocketTriple (Idle v) _ SomeIdle
  apply triple_ite
  · intro hopen
    refine triple_bind (Q := fun _ => Idle v) (fun s hs => hs) fun s => ?_
    refine triple_bind (triple_emit_idle (idle_of_kind nofun nofun)) fun _ => ?_
    cases hmalloc : env.malloc with
    | none => exact hreply _
    | some buffer =>
      have hconnects := h hopen (by simp [hmalloc])
      refine triple_bind (triple_open hconnects) fun _ =>
        triple_bind (triple_reply _) fun _ =>
        triple_bind (triple_sendLoop hconnects.dataConType _ _ _ _ _ _ _) fun _ =>
        triple_bind (triple_emit_idle (idle_of_kind nofun nofun)) fun _ =>
        triple_bind (triple_setClient fun c hc => hc) fun _ =>
        triple_bind (triple_notification _ _ _) fun _ =>
        triple_bind (triple_reply _) fun _ => triple_disconnect hconnects
  · exact fun _ => hreply _

theorem triple_receiveFile (env : Env) (path : Option CStr)
    (h : 0 ≤ env.sceIoOpen → env.malloc ≠ none → Connects v env) :
    SocketTriple (Idle v) (receiveFile env path) SomeIdle := by
  have hreply : ∀ str, SocketTriple (Idle v) (clientReply str) SomeIdle := fun str =>
    triple_conseq (triple_reply str) (fun _ => id) fun _ s hs => ⟨v, hs⟩
  apply triple_getClient
  intro c _
  refine triple_bind (triple_sceIoOpen env path _) fun fd => ?_
  rintro s ⟨rfl, hs⟩
  revert s
  show SocketTriple (Idle v) _ SomeIdle
  apply triple_ite
  · intro hopen
    cases hmalloc : env.malloc with
    | none => exact hreply _
    | some buffer =>
      have hconnects := h hopen (by simp [hmalloc])
      have hend : ∀ text str, SocketTriple (InTransfer (v.opened env)) (do
          notification env text path
          clientReply str
          clientCloseDataConnection) SomeIdle := fun text str =>
        triple_bind (triple_notification _ _ _) fun _ =>
          triple_bind (triple_reply _) fun _ => triple_disconnect hconnects
      refine triple_bind (triple_open hconnects) fun _ =>
        triple_bind (triple_reply _) fun _ =>
        triple_bind (triple_receiveLoop hconnects.dataConType _ _ _ _ _) fun _ =>
        triple_bind (triple_emit_idle (idle_of_kind nofun nofun)) fun _ =>
        triple_bind (triple_setClient fun c hc => hc) fun _ => ?_
      apply triple_ite
      · exact fun _ => hend _ _
      intro _
      refine triple_bind (triple_emit_idle (idle_of_kind nofun nofun)) fun _ => ?_
      apply triple_ite
      · exact fun _ => triple_bind (triple_setFiles _) fun _ => hend _ _
      · exact fun _ => hend _ _
  · exact fun _ => hreply _

theorem triple_sendList (env : Env) (path : CStr)
    (h : path = [slash] ∨ 0 ≤ env.sceIoDopen (getVitaPath path) → Connects v env) :
    SocketTriple (Idle v) (sendList env path) SomeIdle := by
  have hreply : ∀ str, SocketTriple (Idle v) (clientReply str) SomeIdle := fun str =>
    triple_conseq (triple_reply str) (fun _ => id) fun _ s hs => ⟨v, hs⟩
  have hdone : SocketTriple SomeIdle (clientReply "226 Transfer complete.") SomeIdle := by
    rintro s ⟨w, hs⟩
    exact ⟨w, triple_reply _ s hs⟩
  apply triple_ite
  · intro hroot
    have hconnects := h (Or.inl hroot)
    exact triple_bind (triple_reply _) fun _ => triple_bind (triple_open hconnects) fun _ =>
      triple_bind (triple_sendLines hconnects.dataConType _ _ _) fun _ =>
      triple_bind (triple_disconnect hconnects) fun _ => hdone
  · intro _
    refine triple_bind (triple_emit_idle (idle_of_kind nofun nofun)) fun _ => ?_
    apply triple_ite
    · exact fun _ => hreply _
    · intro hdir
      have hconnects := h (Or.inr (not_lt.mp hdir))
      exact triple_bind (triple_reply _) fun _ => triple_bind (triple_open hconnects) fun _ =>
        triple_bind (triple_sendLines hconnects.dataConType _ _ _) fun _ =>
        triple_bind (triple_emit_idle (idle_of_kind nofun nofun)) fun _ =>
        triple_bind (triple_disconnect hconnects) fun _ => hdone

/-- The socket that PASV and PORT make when none is set up. -/
theorem triple_socket (fd : ℤ) (h : v.ready = false) :
    SocketTriple (Idle v) (emit (.socket fd))
      (At v (fun k => k = fd ∧ 0 ≤ k) (decide (0 ≤ fd))) := by
  apply triple_emit
  intro trace hsockets
  apply Sockets.socket
  refine hsockets.congr fun k => ?_
  simp [DataView.SetUp, h]

theorem idle_of_socket {s : Session} {w : DataView} (hw : w.dataConType ≠ .none)
    (h : At w (fun k => k = w.dataSockfd ∧ 0 ≤ k) (decide (0 ≤ w.dataSockfd)) s) : Idle w s := by
  have hready : w.ready = decide (0 ≤ w.dataSockfd) := by simp [DataView.ready, hw]
  refine ⟨h.view, ?_⟩
  rw [hready]
  refine h.sockets.congr fun k => ?_
  rw [DataView.SetUp, hready, decide_eq_true_eq]
  constructor
  · rintro ⟨rfl, hk⟩
    exact ⟨hk, rfl⟩
  · rintro ⟨hk, rfl⟩
    exact ⟨rfl, hk⟩

theorem triple_pasv (env : Env) (h : v.ready = false) :
    SocketTriple (Idle v) (cmdPasvFunc env) SomeIdle := by
  have hsockfd : ∀ (held : ℤ → Prop) (pending : Bool), SocketTriple (At v held pending)
      (setClient fun c => { c with dataSockfd := env.sceNetSocket, dataSockaddr := ⟨0, 0⟩ })
      (At { v with dataSockfd := env.sceNetSocket } held pending) := by
    intro held pending
    apply triple_setClient
    rintro c rfl
    rfl
  have hpassive : ∀ (held : ℤ → Prop) (pending : Bool),
      SocketTriple (At { v with dataSockfd := env.sceNetSocket } held pending)
        (setClient fun c => { c with dataConType := .passive })
        (At ⟨.passive, env.sceNetSocket, v.pasvSockfd⟩ held pending) := by
    intro held pending s hs
    have hview := hs.view
    exact ⟨congrArg (fun w : DataView => { w with dataConType := .passive }) hview, hs.sockets⟩
  apply triple_getClient
  intro client _
  refine triple_bind (triple_store _ _) fun _ => triple_bind (triple_socket _ h) fun _ =>
    triple_bind (hsockfd _ _) fun _ =>
    triple_bind (triple_emit_idle ⟨rfl, rfl, rfl, rfl, fun _ => rfl⟩) fun _ =>
    triple_bind (triple_emit_idle ⟨rfl, rfl, rfl, rfl, fun _ => rfl⟩) fun _ =>
    triple_bind (triple_store _ _) fun _ =>
    triple_bind (triple_emit_idle (idle_of_kind nofun nofun)) fun _ => ?_
  exact triple_conseq (hpassive _ _) (fun _ => id) fun _ _ hs =>
    ⟨⟨.passive, env.sceNetSocket, v.pasvSockfd⟩, idle_of_socket nofun hs⟩

theorem triple_port (env : Env) (h : v.ready = false) :
    SocketTriple (Idle v) (cmdPortFunc env) SomeIdle := by
  apply triple_getClient
  intro client _
  refine triple_bind (triple_store _ _) fun _ => triple_bind (triple_store _ _) fun _ =>
    triple_bind (triple_socket _ h) fun _ =>
    triple_bind (Q := fun _ => SomeIdle) ?_ fun _ => ?_
  · intro s hs
    refine ⟨⟨.active, env.sceNetSocket, v.pasvSockfd⟩, idle_of_socket nofun ⟨?_, hs.sockets⟩⟩
    exact congrArg (fun w : DataView => DataView.mk .active env.sceNetSocket w.pasvSockfd) hs.view
  · rintro s ⟨w, hs⟩
    exact ⟨w, triple_reply _ s hs⟩

/-- A command that has nothing to do with the data connection. -/
theorem triple_otherVerb (env : Env) (verb : Verb) (hsetUp : .setUp ∉ verb.kinds)
    (hdata : .data ∉ verb.kinds) (hignores : verb.Ignores ClientInfo.dataView) :
    SocketTriple (Idle v) (runVerb env verb) SomeIdle :=
  triple_conseq (triple_aside verb.kinds hsetUp hdata (runVerb_kinds env verb)
    (keeps_runVerb env verb hignores)) (fun _ => id) fun _ _ hs => ⟨v, hs⟩

end Commands
end VitaConnect.Ftp
