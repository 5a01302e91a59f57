import VitaConnect.Ftp.Events
import VitaConnect.Ftp.Invariant

/-! # Renaming over a session

RNTO renames whatever `rename_path` holds: nothing clears it behind a rename, behind another command,
or behind an RNFR of a path that does not exist.
-/
namespace VitaConnect.Ftp
open CString Program
set_option autoImplicit false

/-! ## The two commands -/

/-- The path that `gen_ftp_fullpath` makes of the name in a message. -/
def namedPath (s : Session) (round : Round) : Option CStr :=
  (ofBuffer (received round.1)).map fun line =>
    fullPath s.client.curPath (ftpName round.2 (cmdArgs line))

section Handlers
variable {env : Env} {s : Session}

theorem cmdRntoFunc_apply (hargs : s.client.recvCmdArgs.length ≤ 511) :
    cmdRntoFunc env s =
      let path := fullPath s.client.curPath (ftpName env s.client.recvCmdArgs)
      if path.length < pathMax then
        renameAnswer env s.client.renamePath (getVitaPath path) { s with
          trace := s.trace ++ [.rename s.client.renamePath (getVitaPath path) env.sceIoRename] }
      else .error (.fault (.unterminated .destPath)) s := by
  dsimp only
  rw [cmdRntoFunc, bind_apply, genFtpFullpath_apply env hargs]
  by_cases hfit : (fullPath s.client.curPath (ftpName env s.client.recvCmdArgs)).length < pathMax
  · rw [if_pos hfit, if_pos hfit]
    rfl
  · rw [if_neg hfit, if_neg hfit]

theorem cmdRntoFunc_renames (hargs : s.client.recvCmdArgs.length ≤ 511)
    (hfit : (fullPath s.client.curPath (ftpName env s.client.recvCmdArgs)).length < pathMax) :
    ∃ es, (finalState (cmdRntoFunc env s)).trace = s.trace ++
        .rename s.client.renamePath
          (getVitaPath (fullPath s.client.curPath (ftpName env s.client.recvCmdArgs)))
          env.sceIoRename :: es ∧
      ∀ e ∈ es, e.kind ≠ .rename := by
  rw [cmdRntoFunc_apply hargs]
  dsimp only
  rw [if_pos hfit]
  have hanswer : ∀ dst, EmitsOf [.reply, .notification] (renameAnswer env s.client.renamePath dst) :=
    emitsOf_renameAnswer (by simp) (by simp) env s.client.renamePath
  obtain ⟨⟨es, htrace, hes⟩, -⟩ := hanswer _ _
  refine ⟨es, htrace.trans (by rw [List.append_assoc]; rfl), ?_⟩
  intro e he hkind
  have hmem : e.kind ∈ [EventKind.reply, .notification] := hes e he
  rw [hkind] at hmem
  exact absurd hmem (by decide)

/-- `file_exists` decides between the two answers of RNFR. -/
theorem cmdRnfrFunc_ok {u : Session} (hargs : s.client.recvCmdArgs.length ≤ 511)
    (h : cmdRnfrFunc env s = .ok ⟨⟩ u) :
    let path := getVitaPath (fullPath s.client.curPath (ftpName env s.client.recvCmdArgs))
    (fileExists env path ∧ ∃ x, path = some x ∧ u = { s with
        client := { s.client with renamePath := x }
        trace := s.trace ++ [.ctrlSend (bytes "350 I need the destination name b0ss." ++ eol)] }) ∨
      (¬ fileExists env path ∧ u = { s with
        trace := s.trace ++ [.ctrlSend (bytes "550 The file doesn't exist." ++ eol)] }) := by
  obtain ⟨path, m, hm, hf⟩ := bind_ok h
  obtain rfl : m = s := (genFtpFullpath_keeps env).ok hm
  rw [genFtpFullpath_apply env hargs] at hm
  split at hm
  case isFalse => cases hm
  case isTrue =>
    obtain ⟨rfl, -⟩ := EStateM.Result.ok.inj hm
    dsimp only
    set path := getVitaPath (fullPath m.client.curPath (ftpName env m.client.recvCmdArgs)) with hpath
    by_cases hexists : fileExists env path
    · left
      refine ⟨hexists, ?_⟩
      cases hsrc : path with
      | none =>
        rw [hsrc] at hexists
        simp only [hsrc, hexists, if_true] at hf
        cases hf
      | some x =>
        rw [hsrc] at hexists
        simp only [hsrc, hexists, if_true] at hf
        obtain ⟨_, m', hstore, hf⟩ := bind_ok hf
        rw [store_apply] at hstore
        split at hstore
        · cases hstore
          cases hf
          exact ⟨x, rfl, rfl⟩
        · cases hstore
    · right
      refine ⟨hexists, ?_⟩
      simp only [hexists] at hf
      cases hf
      rfl

end Handlers

/-! ## Rounds -/

/-- The round calls `sceIoRename(x, y)`. -/
def Renames (s : Session) (round : Round) (x : CStr) (y : Option CStr) : Prop :=
  ∃ es ret, (finalState (serve round s)).trace = s.trace ++ es ∧ .rename x y ret ∈ es

def renameAccepted : Event := .ctrlSend (bytes "350 I need the destination name b0ss." ++ eol)

/-- The round is an RNFR that resolves its name to `x` and is answered 350. -/
def Announces (x : CStr) (s : Session) (round : Round) : Prop :=
  verbOf s round.1 = some .rnfr ∧ (namedPath s round).bind getVitaPath = some x ∧
    ∃ t, serve round s = .ok ⟨⟩ t ∧ t.trace = s.trace ++ [renameAccepted]

/-- The round is an RNTO whose line and path fit their arrays. -/
def RntoReaches (s : Session) (round : Round) : Prop :=
  verbOf s round.1 = some .rnto ∧
    ∃ line, ofBuffer (received round.1) = some line ∧ TokenFits line ∧
      (fullPath s.client.curPath (ftpName round.2 (cmdArgs line))).length < pathMax

/-- The round is an RNFR of a path that exists. -/
def Finds (s : Session) (round : Round) : Prop :=
  verbOf s round.1 = some .rnfr ∧ fileExists round.2 ((namedPath s round).bind getVitaPath)

theorem rename_mem_kinds {v : Verb} (h : .rename ∈ v.kinds) : v = .rnto := by
  cases v <;> first | rfl | exact absurd h (by decide)

section Rounds
variable {s t : Session} {round : Round} {x : CStr} {y : Option CStr}

theorem Renames.rnto (h : Renames s round x y) : verbOf s round.1 = some .rnto := by
  obtain ⟨es, ret, htrace, hmem⟩ := h
  obtain ⟨es', htrace', hkinds⟩ := serve_kinds round s
  obtain rfl : es = es' := List.append_cancel_left (htrace.symm.trans htrace')
  obtain ⟨v, hverb, hkind⟩ := mem_handlerKinds (hkinds _ hmem) EventKind.noConfusion
  rw [hverb, rename_mem_kinds hkind]

theorem Renames.reaches (h : Renames s round x y) : RntoReaches s round := by
  have hverb := h.rnto
  obtain ⟨msg, env⟩ := round
  obtain ⟨es, ret, htrace, hmem⟩ := h
  have hsome : (finalState (serve (msg, env) s)).trace ≠ s.trace := by
    intro hsame
    obtain rfl : es = [] := List.append_right_eq_self.mp (htrace.symm.trans hsame)
    cases hmem
  by_cases hready : ∃ line, ofBuffer (received msg) = some line ∧ TokenFits line
  · obtain ⟨line, hline, hfits⟩ := hready
    refine ⟨hverb, line, hline, hfits, ?_⟩
    by_contra hlong
    apply hsome
    rw [serve_apply env s hline hfits, hverb]
    show (finalState (cmdRntoFunc env (s.ready msg line))).trace = s.trace
    have hlong' : ¬ (fullPath (s.ready msg line).client.curPath
        (ftpName env (s.ready msg line).client.recvCmdArgs)).length < pathMax := hlong
    rw [cmdRntoFunc_apply (ready_args_length_le hline), if_neg hlong']
    rfl
  · obtain ⟨f, -, hrun⟩ := serve_fault env s fun line hline hfits => hready ⟨line, hline, hfits⟩
    rw [hrun] at hsome
    exact absurd rfl hsome

theorem RntoReaches.trace (h : RntoReaches s round) :
    ∃ es y, (finalState (serve round s)).trace
        = s.trace ++ .rename s.client.renamePath y round.2.sceIoRename :: es ∧
      ∀ e ∈ es, e.kind ≠ .rename := by
  obtain ⟨hverb, line, hline, hfits, hpath⟩ := h
  obtain ⟨msg, env⟩ := round
  obtain ⟨es, htrace, hes⟩ :=
    cmdRntoFunc_renames (s := s.ready msg line) (ready_args_length_le hline) hpath
  refine ⟨es, getVitaPath (fullPath s.client.curPath (ftpName env (cmdArgs line))), ?_, hes⟩
  rw [serve_apply env s hline hfits, hverb]
  exact htrace

theorem renames_iff : (∃ y, Renames s round x y) ↔ RntoReaches s round ∧ x = s.client.renamePath := by
  constructor
  · rintro ⟨y, h⟩
    have hreaches := h.reaches
    refine ⟨hreaches, ?_⟩
    obtain ⟨es, ret, htrace, hmem⟩ := h
    obtain ⟨es', y', htrace', hes'⟩ := hreaches.trace
    obtain rfl := List.append_cancel_left (htrace.symm.trans htrace')
    rcases List.mem_cons.mp hmem with heq | hmem
    · exact (Event.rename.inj heq).1
    · exact absurd rfl (hes' _ hmem)
  · rintro ⟨h, rfl⟩
    obtain ⟨es, y, htrace, -⟩ := h.trace
    exact ⟨y, _, _, htrace, List.mem_cons_self⟩

theorem serve_rnfr (hverb : verbOf s round.1 = some .rnfr) (h : serve round s = .ok ⟨⟩ t) :
    (fileExists round.2 ((namedPath s round).bind getVitaPath) ∧
        (namedPath s round).bind getVitaPath = some t.client.renamePath ∧
        t.trace = s.trace ++ [renameAccepted]) ∨
      (¬ fileExists round.2 ((namedPath s round).bind getVitaPath) ∧
        t.trace = s.trace ++ [.ctrlSend (bytes "550 The file doesn't exist." ++ eol)]) := by
  obtain ⟨msg, env⟩ := round
  obtain ⟨line, hline, -, hrun⟩ := serve_ok h
  rw [hverb] at hrun
  have hpath : namedPath s (msg, env) = some (fullPath s.client.curPath (ftpName env (cmdArgs line))) := by
    rw [namedPath, hline]
    rfl
  rw [hpath]
  rcases cmdRnfrFunc_ok (ready_args_length_le hline) hrun with ⟨hexists, x, hx, rfl⟩ | ⟨hexists, rfl⟩
  · exact Or.inl ⟨hexists, hx, rfl⟩
  · exact Or.inr ⟨hexists, rfl⟩

theorem announces_iff (h : serve round s = .ok ⟨⟩ t) :
    Announces x s round ↔ Finds s round ∧ x = t.client.renamePath := by
  constructor
  · rintro ⟨hverb, hpath, t', ht', htrace⟩
    obtain ⟨-, rfl⟩ := EStateM.Result.ok.inj (h.symm.trans ht')
    rcases serve_rnfr hverb h with ⟨hexists, hx, -⟩ | ⟨-, htrace'⟩
    · exact ⟨⟨hverb, hexists⟩, Option.some.inj (hpath.symm.trans hx)⟩
    · have heq := List.append_cancel_left (htrace.symm.trans htrace')
      exact absurd heq (by decide)
  · rintro ⟨⟨hverb, hexists⟩, rfl⟩
    rcases serve_rnfr hverb h with ⟨-, hx, htrace⟩ | ⟨hexists', -⟩
    · exact ⟨hverb, hx, t, h, htrace⟩
    · exact absurd hexists hexists'

end Rounds

/-! ## Sessions -/

/-- The last of the rounds satisfies `Q` in the session it was served in. -/
def LastRound (Q : Session → Round → Prop) (s : Session) (rounds : List Round) : Prop :=
  ∃ before prev u, rounds = before ++ [prev] ∧ runAll serve before s = .ok ⟨⟩ u ∧ Q u prev

/-- Each rename of the session comes directly behind the RNFR that announced it. -/
def RenamesAnnounced (s : Session) (rounds : List Round) : Prop :=
  ∀ before round after t x y, rounds = before ++ round :: after →
    runAll serve before s = .ok ⟨⟩ t → Renames t round x y → LastRound (Announces x) s before

/-- Each RNTO that comes to its rename directly follows an RNFR of a path that exists. -/
def RntoFollowsRnfr (s : Session) (rounds : List Round) : Prop :=
  ∀ before round after t, rounds = before ++ round :: after →
    runAll serve before s = .ok ⟨⟩ t → RntoReaches t round → LastRound Finds s before

/-- **When a session renames only what was announced.** -/
theorem renamesAnnounced_iff (s : Session) (rounds : List Round) :
    RenamesAnnounced s rounds ↔ RntoFollowsRnfr s rounds := by
  constructor
  · intro h before round after t hsplit hrun hreaches
    obtain ⟨y, hrenames⟩ := renames_iff.mpr ⟨hreaches, rfl⟩
    obtain ⟨before', prev, u, hbefore, hu, hprev⟩ := h before round after t _ y hsplit hrun hrenames
    obtain ⟨-, -, t', ht', -⟩ := id hprev
    exact ⟨before', prev, u, hbefore, hu, ((announces_iff ht').mp hprev).1⟩
  · intro h before round after t x y hsplit hrun hrenames
    obtain ⟨hreaches, rfl⟩ := renames_iff.mp ⟨y, hrenames⟩
    obtain ⟨before', prev, u, rfl, hu, hfinds⟩ := h before round after t hsplit hrun hreaches
    obtain ⟨u', hu', hprev⟩ := runAll_snoc_ok hrun
    obtain ⟨-, rfl⟩ := EStateM.Result.ok.inj (hu.symm.trans hu')
    exact ⟨before', prev, u, rfl, hu, (announces_iff hprev).mpr ⟨hfinds, rfl⟩⟩

/-- RNFR finds `a`, a second RNFR finds nothing and answers 550, and RNTO renames `a`. -/
def staleRnfr : List Round :=
  [(bytes "RNFR a\r\n", calmEnv), (bytes "RNFR b\r\n", { calmEnv with sceIoGetstat := fun _ => none })]

theorem staleRnfr_renames :
    Fresh newSession ∧ ¬ RenamesAnnounced newSession (staleRnfr ++ [(bytes "RNTO c\r\n", calmEnv)]) := by
  refine ⟨fresh_newSession, fun h => ?_⟩
  have hrun : runAll serve staleRnfr newSession
      = .ok ⟨⟩ (finalState (runAll serve staleRnfr newSession)) :=
    eq_ok_of_returned (by decide +kernel)
  have hrenames : Renames (finalState (runAll serve staleRnfr newSession)) (bytes "RNTO c\r\n", calmEnv)
      (bytes "/a") (some (bytes "/c")) :=
    ⟨[.rename (bytes "/a") (some (bytes "/c")) 0, .ctrlSend (bytes "226 Rename completed." ++ eol)], 0,
      by decide +kernel, List.mem_cons_self⟩
  obtain ⟨before, prev, u, hsplit, -, hannounces⟩ := h _ _ [] _ _ _ rfl hrun hrenames
  have hsplit' : staleRnfr.take 1 ++ staleRnfr.drop 1 = before ++ [prev] := hsplit
  obtain ⟨-, hprev⟩ := List.append_inj' hsplit' rfl
  obtain rfl := List.head_eq_of_cons_eq hprev
  obtain ⟨-, -, t, ht, -⟩ := id hannounces
  exact Bool.false_ne_true ((announces_iff ht).mp hannounces).1.2

end VitaConnect.Ftp
