import VitaConnect.Ftp.SocketTriples

/-! # The data sockets over a session

`SocketsRight` is what is to hold of the sockets of a whole client thread. PASV and PORT overwrite
`data_sockfd` without closing what it held, the transfers take NONE for passive mode, and the end of
the thread closes `pasv_sockfd` when no transfer has accepted it. `InOrder` keeps clear of the three.
-/
namespace VitaConnect.Ftp
open CString Program
set_option autoImplicit false

/-! ## Commands in order -/

/-- PASV and PORT come to make a socket. -/
def Verb.SetsUp (env : Env) (client : ClientInfo) : Verb → Prop
  | .pasv => True
  | .port => (portIpStr env client.recvCmdArgs).length < Buffer.ipStr.size
  | _ => False

/-- The command comes to open its data connection. -/
def Verb.Transfers (env : Env) (client : ClientInfo) : Verb → Prop
  | .list =>
    listPath env client.curPath client.recvCmdArgs = [slash] ∨
      0 ≤ env.sceIoDopen (getVitaPath (listPath env client.curPath client.recvCmdArgs))
  | .retr | .stor | .appe =>
    (fullPath client.curPath (ftpName env client.recvCmdArgs)).length < pathMax ∧
      0 ≤ env.sceIoOpen ∧ env.malloc ≠ none
  | _ => False

/-- A socket is set up only while there is none, and a transfer finds one and accepts its peer. -/
structure InOrder (verb : Verb) (env : Env) (s : Session) : Prop where
  setsUp : verb.SetsUp env s.client → s.client.dataView.ready = false
  ready : verb.Transfers env s.client → s.client.dataView.ready
  accept : verb.Transfers env s.client → s.client.dataConType = .passive → 0 ≤ env.sceNetAccept

/-- `sceNetAccept` does not answer a socket that is open. -/
def AcceptsFresh (verb : Verb) (env : Env) (s : Session) : Prop :=
  verb.Transfers env s.client → 0 ≤ env.sceNetAccept →
    socketLedger.net env.sceNetAccept s.trace = 0

/-! ## One command -/

section Commands
variable {env : Env} {s : Session} {Q : PUnit → Session → Prop}

theorem connects_of_inOrder {verb : Verb} (hs : Idle s.client.dataView s) (horder : InOrder verb env s)
    (hfresh : AcceptsFresh verb env s) (htransfers : verb.Transfers env s.client) :
    Connects s.client.dataView env := by
  have hready := horder.ready htransfers
  refine ⟨hready, fun hpassive => ?_⟩
  have hret := horder.accept htransfers hpassive
  refine ⟨hret, fun heq => ?_⟩
  have hopen := (hs.sockets.held_iff env.sceNetAccept).mpr ⟨hready, heq⟩
  have hclosed := hfresh htransfers hret
  omega

theorem ends_genFtpFullpath_bind {f : CStr → FtpM PUnit} (hs : SocketsSafe s)
    (h : (fullPath s.client.curPath (ftpName env s.client.recvCmdArgs)).length < pathMax →
      Ends SocketsSafe Q (f (fullPath s.client.curPath (ftpName env s.client.recvCmdArgs)) s)) :
    Ends SocketsSafe Q ((genFtpFullpath env >>= f) s) := by
  have hstore : ∀ scan, storeScanned .cmdPath scan s = .ok ⟨⟩ s ∨
      ∃ e, storeScanned .cmdPath scan s = .error e s := by
    intro scan
    cases scan with
    | none => exact Or.inl rfl
    | some str =>
      by_cases hlen : str.length < Buffer.cmdPath.size
      · exact Or.inl (store_ok hlen s)
      · exact Or.inr ⟨_, (store_apply _ _ _).trans (if_neg hlen)⟩
  rcases hstore (scanSet argStops s.client.recvCmdArgs) with hok | ⟨e, herror⟩
  · simp only [genFtpFullpath, bind_apply, getClient_apply, hok, ite_run, pure_apply, throw_apply]
    by_cases hfit : (fullPath s.client.curPath (ftpName env s.client.recvCmdArgs)).length < pathMax
    · simp only [hfit, if_true]
      exact h hfit
    · simp only [hfit, if_false]
      exact hs
  · simp only [genFtpFullpath, bind_apply, getClient_apply, herror]
    exact hs

theorem runVerb_sockets {verb : Verb} (hs : Idle s.client.dataView s) (horder : InOrder verb env s)
    (hfresh : AcceptsFresh verb env s) :
    Ends SocketsSafe (fun _ => SomeIdle) (runVerb env verb s) := by
  have hconnects := connects_of_inOrder hs horder hfresh
  have hother := fun h h' h'' => triple_otherVerb env verb h h' h'' s hs
  cases verb with
  | pasv => exact triple_pasv env (horder.setsUp trivial) s hs
  | port =>
    by_cases hfit : (portIpStr env s.client.recvCmdArgs).length < Buffer.ipStr.size
    · exact triple_port env (horder.setsUp hfit) s hs
    · have hrun : runVerb env .port s = .error (.fault (.overflow .ipStr)) s := by
        simp only [runVerb, cmdPortFunc, bind_apply, getClient_apply, store_apply, if_neg hfit]
      rw [hrun]
      exact hs.safe
  | list =>
    have hstored : SocketTriple (Idle s.client.dataView)
        (storeScanned .listPath (scanSet argStops s.client.recvCmdArgs)) (Idle s.client.dataView) :=
      triple_aside [] (by simp) (by simp) (emitsOnly_quiet (quiet_storeScanned _ _))
        (keeps_storeScanned _ _)
    exact triple_bind hstored (fun _ => triple_sendList env _ hconnects) s hs
  | retr =>
    refine ends_genFtpFullpath_bind hs.safe fun hfit => ?_
    exact triple_sendFile env _ (fun hopen hmalloc => hconnects ⟨hfit, hopen, hmalloc⟩) s hs
  | stor =>
    refine ends_genFtpFullpath_bind hs.safe fun hfit => ?_
    exact triple_receiveFile env _ (fun hopen hmalloc => hconnects ⟨hfit, hopen, hmalloc⟩) s hs
  | appe =>
    have hs' : Idle s.client.dataView { s with client := { s.client with restorePoint := -1 } } :=
      ⟨rfl, hs.sockets⟩
    refine ends_genFtpFullpath_bind (s := { s with client := { s.client with restorePoint := -1 } })
      hs'.safe fun hfit => ?_
    exact triple_receiveFile env _ (fun hopen hmalloc => hconnects ⟨hfit, hopen, hmalloc⟩) _ hs'
  | rest | rnfr | cwd | cdup => exact hother (by decide) (by decide) fun _ _ => rfl
  | _ => exact hother (by decide) (by decide) trivial

end Commands

/-! ## Rounds -/

/-- `P` holds of the command of a round in the session in which its handler starts. -/
def AtHandler (P : Verb → Env → Session → Prop) (s : Session) (round : Round) : Prop :=
  ∀ verb line, verbOf s round.1 = some verb → ofBuffer (received round.1) = some line →
    TokenFits line → P verb round.2 (s.ready round.1 line)

theorem serve_sockets (round : Round) :
    SocketTriple (fun s => SomeIdle s ∧ AtHandler InOrder s round ∧ AtHandler AcceptsFresh s round)
      (serve round) SomeIdle := by
  obtain ⟨msg, env⟩ := round
  rintro s ⟨⟨v, hs⟩, horder, hfresh⟩
  obtain rfl : s.client.dataView = v := hs.view
  by_cases hready : ∃ line, ofBuffer (received msg) = some line ∧ TokenFits line
  · obtain ⟨line, hline, hfit⟩ := hready
    have hs' : Idle (s.ready msg line).client.dataView (s.ready msg line) := ⟨rfl, hs.sockets⟩
    rw [serve_apply env s hline hfit]
    cases hverb : verbOf s msg with
    | none => exact ⟨_, triple_reply _ _ hs'⟩
    | some verb =>
      exact runVerb_sockets hs' (horder verb line hverb hline hfit)
        (hfresh verb line hverb hline hfit)
  · obtain ⟨f, -, hrun⟩ := serve_fault env s fun line hline hfit => hready ⟨line, hline, hfit⟩
    rw [hrun]
    exact ⟨hs.sockets.sound, hs.sockets.opens⟩

/-! ## Sessions -/

/-- `client_thread` up to the end of its connections. -/
def clientThreadToEnd (rounds : List Round) : FtpM PUnit := do
  clientThread rounds
  closeDataSockets

/-- No socket is misused at any point, no transfer lacks its set-up, and nothing is open at the end. -/
structure SocketsRight (rounds : List Round) (s : Session) : Prop where
  safe : SocketsSafe (finalState (clientThreadToEnd rounds s))
  closed : ∀ t, clientThreadToEnd rounds s = .ok ⟨⟩ t → ∀ k, socketLedger.net k t.trace = 0

theorem SocketsRight.closed_once {rounds : List Round} {s t : Session} (h : SocketsRight rounds s)
    (ht : clientThreadToEnd rounds s = .ok ⟨⟩ t) {before after : List Event} {e : Event} {k : ℤ}
    (htrace : t.trace = before ++ e :: after) (he : socketLedger.acquires e = some k) :
    ∃ mid e' rest, after = mid ++ e' :: rest ∧ socketLedger.releases e' = some k ∧
      ∀ x ∈ mid, socketLedger.acquires x ≠ some k ∧ socketLedger.releases x ≠ some k := by
  have hsound := h.safe.sound
  have hend := h.closed t ht k
  rw [ht] at hsound
  rw [htrace] at hend
  rw [finalState_ok, htrace] at hsound
  exact hsound.released he hend

def Session.greeted (s : Session) : Session := { s with trace := s.trace ++ [.ctrlSend greeting] }

/-- The end of the thread finds no passive set-up, and an active one with a socket. -/
def EndsInOrder (client : ClientInfo) : Prop :=
  client.dataConType ≠ .passive ∧ (client.dataConType = .active → client.dataView.ready)

structure SessionInOrder (rounds : List Round) (s : Session) : Prop where
  commands : Along (AtHandler InOrder) serve s.greeted rounds
  ends : ∀ t, clientThread rounds s = .ok ⟨⟩ t → EndsInOrder t.client

theorem triple_closeDataSockets :
    SocketTriple (fun s => SomeIdle s ∧ EndsInOrder s.client) closeDataSockets
      (fun t => SocketsSafe t ∧ ∀ k, socketLedger.net k t.trace = 0) := by
  rintro s ⟨⟨v, hs⟩, hpassive, hactive⟩
  obtain rfl : s.client.dataView = v := hs.view
  cases htype : s.client.dataConType with
  | none =>
    have hrun : closeDataSockets s = .ok ⟨⟩ s := by
      simp [closeDataSockets, bind_apply, htype, pure_apply]
    rw [hrun]
    refine ⟨hs.safe, fun k => hs.sockets.net_eq_zero ?_⟩
    exact fun hk => (of_decide_eq_true hk.1).1 htype
  | passive => exact absurd htype hpassive
  | active =>
    have hrun : closeDataSockets s = .ok ⟨⟩ { s with
        trace := s.trace ++ [.socketClose s.client.dataSockfd] } := by
      simp [closeDataSockets, bind_apply, htype, pure_apply]
    have hready := hactive htype
    have hclosed := hs.sockets.close ⟨hready, rfl⟩
    rw [hrun]
    refine ⟨⟨hclosed.sound, hclosed.opens⟩, fun k => hclosed.net_eq_zero ?_⟩
    exact fun hk => hk.2 hk.1.2

theorem fresh_idle {s : Session} (hs : Fresh s) (htrace : s.trace = []) : SomeIdle s.greeted := by
  have hready : s.client.dataView.ready = false := by
    simp [DataView.ready, ClientInfo.dataView, hs.dataConType]
  refine ⟨s.client.dataView, rfl, ?_⟩
  show Sockets s.client.dataView.SetUp s.client.dataView.ready (s.trace ++ [.ctrlSend greeting])
  rw [htrace, hready]
  refine (sockets_nil.idle (e := .ctrlSend greeting) (idle_of_kind (by decide) (by decide))).congr fun k => ?_
  simp [DataView.SetUp, hready]

/-- **When the sockets of a session are used as they should be.** -/
theorem sockets_inOrder (rounds : List Round) (s : Session) (hs : Fresh s) (htrace : s.trace = [])
    (hkernel : Along (AtHandler AcceptsFresh) serve s.greeted rounds)
    (horder : SessionInOrder rounds s) : SocketsRight rounds s := by
  have hthread : Ends SocketsSafe (fun _ => SomeIdle) (clientThread rounds s) :=
    runAll_ends serve_sockets (fresh_idle hs htrace) (horder.commands.and hkernel)
  have hends : Ends SocketsSafe (fun _ t => SocketsSafe t ∧ ∀ k, socketLedger.net k t.trace = 0)
      (clientThreadToEnd rounds s) := by
    rw [clientThreadToEnd, bind_apply]
    cases hrun : clientThread rounds s with
    | ok a t =>
      rw [hrun] at hthread
      exact triple_closeDataSockets t ⟨hthread, horder.ends t hrun⟩
    | error e t =>
      rw [hrun] at hthread
      exact hthread
  constructor
  · exact hends.finalState fun _ _ => And.left
  · intro t ht
    rw [ht] at hends
    exact hends.2

def connectionRounds : List Round :=
  [(bytes "PASV\r\n", calmEnv), (bytes "RETR a\r\n", calmEnv),
    (bytes "PORT 127,0,0,1,4,1\r\n", calmEnv)]

theorem atHandler_of {P : Verb → Env → Session → Prop} {s : Session} {round : Round} (verb : Verb)
    (line : CStr) (hverb : verbOf s round.1 = some verb)
    (hline : ofBuffer (received round.1) = some line) (hP : P verb round.2 (s.ready round.1 line)) :
    AtHandler P s round := by
  intro verb' line' hverb' hline' _
  obtain rfl := Option.some.inj (hverb.symm.trans hverb')
  obtain rfl := Option.some.inj (hline.symm.trans hline')
  exact hP

theorem sockets_inOrder_connections : SocketsRight connectionRounds newSession := by
  apply sockets_inOrder connectionRounds newSession fresh_newSession rfl
  · refine along_cons ?_ (along_cons ?_ (along_cons ?_ trivial))
    · exact atHandler_of .pasv (bytes "PASV\r\n") (by decide) (by decide) fun h => False.elim h
    · exact atHandler_of .retr (bytes "RETR a\r\n") (by decide +kernel) (by decide)
        fun _ _ => by decide +kernel
    · exact atHandler_of .port (bytes "PORT 127,0,0,1,4,1\r\n") (by decide +kernel) (by decide)
        fun h => False.elim h
  · constructor
    · refine along_cons ?_ (along_cons ?_ (along_cons ?_ trivial))
      · exact atHandler_of .pasv (bytes "PASV\r\n") (by decide) (by decide)
          ⟨fun _ => by decide, fun h => False.elim h, fun h => False.elim h⟩
      · exact atHandler_of .retr (bytes "RETR a\r\n") (by decide +kernel) (by decide)
          ⟨fun h => False.elim h, fun _ => by decide +kernel, fun _ _ => by decide⟩
      · exact atHandler_of .port (bytes "PORT 127,0,0,1,4,1\r\n") (by decide +kernel) (by decide)
          ⟨fun _ => by decide +kernel, fun h => False.elim h, fun h => False.elim h⟩
    · intro t ht
      have hend : t = finalState (clientThread connectionRounds newSession) := by rw [ht]; rfl
      rw [hend]
      exact ⟨by decide +kernel, fun _ => by decide +kernel⟩

/-- A second PASV, a transfer without a set-up, and a PASV that no transfer follows. -/
theorem sockets_outOfOrder :
    ¬ SocketsRight [(bytes "PASV\r\n", calmEnv), (bytes "PASV\r\n", { calmEnv with sceNetSocket := 5 })]
        newSession ∧
      ¬ SocketsRight [(bytes "RETR a\r\n", calmEnv)] newSession ∧
      ¬ SocketsRight [(bytes "PASV\r\n", calmEnv)] newSession := by
  refine ⟨fun h => ?_, fun h => ?_, fun h => ?_⟩
  · have hleft := h.closed _ (eq_ok_of_returned (by decide +kernel)) 1
    exact absurd hleft (by decide +kernel)
  · have hopen := h.safe.sound.used 0 [.ctrlSend greeting, .open (some (bytes "/a")) .rdonly 3,
      .lseek 3 0] (.accept 0 2) (by decide +kernel) rfl
    exact absurd hopen (by decide +kernel)
  · have hheld := (h.safe.sound.held 0 _ (List.prefix_refl _)).1
    exact absurd hheld (by decide +kernel)

end VitaConnect.Ftp
