import VitaConnect.Ftp.Dispatch
import VitaConnect.Ftp.Emits
import VitaConnect.Ftp.Frame

/-! # The restore point over a session

A transfer that is not opened, or has no memory, leaves `restore_point` as it is, so that a later
transfer resumes where nobody asked it to. As long as no transfer with a pending restore point
ends that way, a nonzero restore point means that REST came after the last transfer.
-/
namespace VitaConnect.Ftp
open CString Program
set_option autoImplicit false

/-! ## The opens and seeks of a transfer -/

def Event.OpensAs (mode : OpenMode) (e : Event) : Prop :=
  ∀ path m ret, e = .open path m ret → m = mode

def Event.SeeksTo (offset : BitVec 32) (e : Event) : Prop := ∀ fd o, e = .lseek fd o → o = offset

theorem allowsTransfer_opensAs (mode : OpenMode) : AllowsTransfer (Event.OpensAs mode) := by
  constructor <;> nofun

theorem allowsTransfer_seeksTo (offset : BitVec 32) : AllowsTransfer (Event.SeeksTo offset) := by
  constructor <;> nofun

theorem receiveFile_opens (env : Env) (path : Option CStr) (s : Session) :
    Emits (Event.OpensAs (receiveMode s.client.restorePoint)) s
      (finalState (receiveFile env path s)) := by
  have hopen : (Event.open path (receiveMode s.client.restorePoint) env.sceIoOpen).OpensAs
      (receiveMode s.client.restorePoint) := by
    rintro _ _ _ ⟨⟩
    rfl
  exact (receiveFile_within (allowsTransfer_opensAs _) env path s hopen nofun).emits

theorem sendFile_seeks (env : Env) (path : Option CStr) (s : Session) :
    Emits (Event.SeeksTo s.client.restorePoint) s (finalState (sendFile env path s)) := by
  have hseek : (Event.lseek env.sceIoOpen s.client.restorePoint).SeeksTo s.client.restorePoint := by
    rintro _ _ ⟨⟩
    rfl
  exact (sendFile_within (allowsTransfer_seeksTo _) env path s nofun hseek).emits

/-! ## The restore point behind a transfer -/

theorem sendFile_restorePoint {env : Env} {path : Option CStr} {s u : Session}
    (h : sendFile env path s = .ok ⟨⟩ u)
    (hclears : (0 ≤ env.sceIoOpen ∧ env.malloc ≠ none) ∨ s.client.restorePoint = 0) :
    u.client.restorePoint = 0 := by
  by_cases hopen : env.sceIoOpen < 0
  · rw [sendFile_notFound path s hopen] at h
    cases h
    exact hclears.resolve_left fun hc => absurd hc.1 (by omega)
  · cases hm : env.malloc with
    | none =>
      rw [sendFile_noMemory path s (by omega) hm] at h
      cases h
      exact hclears.resolve_left fun hc => hc.2 hm
    | some buffer =>
      rw [sendFile_transfer path s (by omega) hm] at h
      dsimp only at h
      split_ifs at h
      cases h
      rfl

theorem receiveFile_restorePoint {env : Env} {path : Option CStr} {s u : Session}
    (h : receiveFile env path s = .ok ⟨⟩ u)
    (hclears : (0 ≤ env.sceIoOpen ∧ env.malloc ≠ none) ∨ s.client.restorePoint = 0) :
    u.client.restorePoint = 0 := by
  by_cases hopen : env.sceIoOpen < 0
  · rw [receiveFile_notFound path s hopen] at h
    cases h
    exact hclears.resolve_left fun hc => absurd hc.1 (by omega)
  · cases hm : env.malloc with
    | none =>
      rw [receiveFile_noMemory path s (by omega) hm] at h
      cases h
      exact hclears.resolve_left fun hc => hc.2 hm
    | some buffer =>
      rw [receiveFile_transfer path s (by omega) hm] at h
      dsimp only at h
      split_ifs at h <;> cases h <;> rfl

theorem genFtpFullpath_bind_ok {env : Env} {f : CStr → FtpM PUnit} {s u : Session}
    (h : (genFtpFullpath env >>= f) s = .ok ⟨⟩ u) : ∃ path, f path s = .ok ⟨⟩ u := by
  obtain ⟨path, m, hm, hf⟩ := bind_ok h
  obtain rfl : m = s := (genFtpFullpath_keeps env).ok hm
  exact ⟨path, hf⟩

theorem genFtpFullpath_bind_emits {P : Event → Prop} {env : Env} {f : CStr → FtpM PUnit}
    (s : Session) (h : ∀ path, Emits P s (finalState (f path s))) :
    Emits P s (finalState ((genFtpFullpath env >>= f) s)) := by
  have hkeeps := genFtpFullpath_keeps env s
  rw [bind_apply]
  cases hg : genFtpFullpath env s with
  | ok path m =>
    obtain rfl : m = s := by simpa [hg] using hkeeps
    exact h path
  | error e m =>
    obtain rfl : m = s := by simpa [hg] using hkeeps
    exact Emits.nil rfl

/-! ## Rounds -/

def Verb.isTransfer : Verb → Bool
  | .retr | .stor | .appe => true
  | _ => false

/-- The round is no transfer, or one that comes to clear the restore point, or one that finds it
clear. -/
def ClearsRestorePoint (s : Session) (round : Round) : Prop :=
  ∀ v, verbOf s round.1 = some v → v.isTransfer →
    (0 ≤ round.2.sceIoOpen ∧ round.2.malloc ≠ none) ∨ (v ≠ .appe ∧ s.client.restorePoint = 0)

def verbsRun : Session → List Round → List (Option Verb)
  | _, [] => []
  | s, round :: rounds =>
    verbOf s round.1 ::
      match serve round s with
      | .ok _ t => verbsRun t rounds
      | .error _ _ => []

/-- Whether a REST is pending behind a verb, given whether one was before it. -/
def pendingAfter (pending : Bool) : Option Verb → Bool
  | some .rest => true
  | some .retr | some .stor | some .appe => false
  | _ => pending

/-- There has been a REST since the last transfer. -/
def restPending (verbs : List (Option Verb)) : Bool := verbs.foldl pendingAfter false

theorem handle_restorePoint {verb : Option Verb} {env : Env} {s u : Session}
    (h : handle verb env s = .ok ⟨⟩ u) (hverb : ∀ v, verb = some v → v ≠ .rest ∧ v.isTransfer = false) :
    u.client.restorePoint = s.client.restorePoint := by
  cases verb with
  | none => exact (keeps_reply (g := ClientInfo.restorePoint) _).ok h
  | some v =>
    obtain ⟨hrest, htransfer⟩ := hverb v rfl
    have hignores : v.Ignores ClientInfo.restorePoint := by
      cases v with
      | rest => exact absurd rfl hrest
      | retr | stor | appe => cases htransfer
      | pasv | port => exact fun _ _ _ _ => rfl
      | list => exact fun _ _ _ => rfl
      | cwd | cdup | rnfr => exact fun _ _ => rfl
      | _ => trivial
    exact (keeps_runVerb env v hignores).ok h

theorem handle_transfer_restorePoint {v : Verb} {env : Env} {s u : Session}
    (h : handle (some v) env s = .ok ⟨⟩ u) (hv : v.isTransfer)
    (hclears : (0 ≤ env.sceIoOpen ∧ env.malloc ≠ none) ∨ (v ≠ .appe ∧ s.client.restorePoint = 0)) :
    u.client.restorePoint = 0 := by
  cases v with
  | retr =>
    obtain ⟨path, hpath⟩ := genFtpFullpath_bind_ok h
    exact sendFile_restorePoint hpath (hclears.imp_right And.right)
  | stor =>
    obtain ⟨path, hpath⟩ := genFtpFullpath_bind_ok h
    exact receiveFile_restorePoint hpath (hclears.imp_right And.right)
  | appe =>
    obtain ⟨_, m, hm, h⟩ := bind_ok h
    obtain ⟨path, hpath⟩ := genFtpFullpath_bind_ok h
    exact receiveFile_restorePoint hpath (Or.inl (hclears.resolve_right fun hc => hc.1 rfl))
  | _ => cases hv

theorem serve_restorePoint {round : Round} {s u : Session} {pending : Bool}
    (h : serve round s = .ok ⟨⟩ u) (hclears : ClearsRestorePoint s round)
    (hs : pending = false → s.client.restorePoint = 0)
    (hpending : pendingAfter pending (verbOf s round.1) = false) : u.client.restorePoint = 0 := by
  obtain ⟨msg, env⟩ := round
  obtain ⟨line, -, -, hrun⟩ := serve_ok h
  cases hverb : verbOf s msg with
  | none =>
    rw [hverb] at hrun hpending
    rw [handle_restorePoint hrun nofun]
    exact hs hpending
  | some v =>
    rw [hverb] at hrun hpending
    by_cases htransfer : v.isTransfer
    · exact handle_transfer_restorePoint hrun htransfer (hclears v hverb htransfer)
    · have hrest : v ≠ .rest := by
        rintro rfl
        cases hpending
      have hkept : pendingAfter pending (some v) = pending := by
        cases v <;> first | rfl | exact absurd rfl hrest | exact absurd rfl htransfer
      rw [handle_restorePoint hrun fun w hw => by cases hw; exact ⟨hrest, by simpa using htransfer⟩]
      exact hs (hkept ▸ hpending)

/-! ## Runs -/

theorem run_restorePoint {before after : List Round} {s t : Session} {pending : Bool}
    (hs : pending = false → s.client.restorePoint = 0)
    (hall : Along ClearsRestorePoint serve s (before ++ after))
    (hrun : runAll serve before s = .ok ⟨⟩ t) :
    ((verbsRun s before).foldl pendingAfter pending = false → t.client.restorePoint = 0) ∧
      Along ClearsRestorePoint serve t after := by
  induction before generalizing s pending with
  | nil =>
    obtain rfl : s = t := by simpa [runAll_nil] using hrun
    exact ⟨hs, hall⟩
  | cons round before ih =>
    obtain ⟨_, m, hm, hrun'⟩ := bind_ok hrun
    have hstep := fun hpending => serve_restorePoint hm hall.1 hs hpending
    rw [verbsRun, hm]
    exact ih hstep (hall.2 m hm) hrun'

theorem serve_emits {P : Event → Prop} (round : Round) (s : Session)
    (h : ∀ line, Emits P (s.ready round.1 line)
      (finalState (handle (verbOf s round.1) round.2 (s.ready round.1 line)))) :
    Emits P s (finalState (serve round s)) := by
  obtain ⟨msg, env⟩ := round
  by_cases hready : ∃ line, ofBuffer (received msg) = some line ∧ TokenFits line
  · obtain ⟨line, hline, hfit⟩ := hready
    rw [serve_apply env s hline hfit]
    exact h line
  · obtain ⟨f, -, hrun⟩ := serve_fault env s fun line hline hfit => hready ⟨line, hline, hfit⟩
    rw [hrun]
    exact Emits.nil rfl

/-- **The restore point over a session.** Behind a transfer it is clear; without a REST since the
last transfer a STOR truncates and a RETR starts at the beginning. -/
theorem session_restorePoint (rounds : List Round) (s : Session) (hs : Fresh s)
    (hall : Along ClearsRestorePoint serve s rounds) (before after : List Round) (round : Round)
    (t : Session) (hsplit : rounds = before ++ round :: after)
    (hrun : runAll serve before s = .ok ⟨⟩ t) :
    (∀ v u, verbOf t round.1 = some v → v.isTransfer → serve round t = .ok ⟨⟩ u →
        u.client.restorePoint = 0) ∧
      (restPending (verbsRun s before) = false →
        (verbOf t round.1 = some .stor →
          Emits (Event.OpensAs .trunc) t (finalState (serve round t))) ∧
        (verbOf t round.1 = some .retr →
          Emits (Event.SeeksTo 0) t (finalState (serve round t)))) := by
  subst hsplit
  obtain ⟨hclear, hrest⟩ := run_restorePoint (fun _ => hs.restorePoint) hall hrun
  refine ⟨?_, ?_⟩
  · intro v u hv htransfer hu
    obtain ⟨msg, env⟩ := round
    obtain ⟨line, -, -, hhandle⟩ := serve_ok hu
    rw [hv] at hhandle
    exact handle_transfer_restorePoint hhandle htransfer (hrest.1 v hv htransfer)
  · intro hpending
    have hzero := hclear hpending
    refine ⟨fun hv => serve_emits round t fun line => ?_, fun hv => serve_emits round t fun line => ?_⟩
    · rw [hv]
      refine genFtpFullpath_bind_emits _ fun path => ?_
      have hopens := receiveFile_opens round.2 (getVitaPath path) (t.ready round.1 line)
      rwa [show (t.ready round.1 line).client.restorePoint = 0 from hzero] at hopens
    · rw [hv]
      refine genFtpFullpath_bind_emits _ fun path => ?_
      have hseeks := sendFile_seeks round.2 (getVitaPath path) (t.ready round.1 line)
      rwa [show (t.ready round.1 line).client.restorePoint = 0 from hzero] at hseeks

def resumedRounds : List Round :=
  [(bytes "REST 5\r\n", calmEnv), (bytes "RETR a\r\n", calmEnv)]

theorem session_restorePoint_resumed :
    Along ClearsRestorePoint serve newSession
        (resumedRounds ++ [(bytes "STOR a\r\n", calmEnv)]) ∧
      Emits (Event.OpensAs .trunc) (finalState (runAll serve resumedRounds newSession))
        (finalState (serve (bytes "STOR a\r\n", calmEnv)
          (finalState (runAll serve resumedRounds newSession)))) := by
  have hall : Along ClearsRestorePoint serve newSession
      (resumedRounds ++ [(bytes "STOR a\r\n", calmEnv)]) := by
    refine along_of_forall ?_
    intro round hround s v _ _
    have henv : round.2 = calmEnv := by
      simp only [resumedRounds, List.cons_append, List.nil_append, List.mem_cons, List.not_mem_nil,
        or_false] at hround
      rcases hround with rfl | rfl | rfl <;> rfl
    rw [henv]
    exact Or.inl ⟨by decide, by decide⟩
  have hrun : runAll serve resumedRounds newSession
      = .ok ⟨⟩ (finalState (runAll serve resumedRounds newSession)) :=
    eq_ok_of_returned (by decide +kernel)
  exact ⟨hall, ((session_restorePoint _ newSession fresh_newSession hall _ [] _ _ rfl hrun).2
    (by decide +kernel)).1 (by decide +kernel)⟩

/-- The RETR finds no file and answers 550, but the restore point of the REST stays. -/
def staleRest : List Round :=
  [(bytes "REST 5\r\n", calmEnv), (bytes "RETR a\r\n", { calmEnv with sceIoOpen := -1 })]

theorem session_restorePoint_stale :
    (finalState (runAll serve staleRest newSession)).client.restorePoint = 5 ∧
      ctrlMsgs (finalState (runAll serve staleRest newSession)).trace
        = [bytes "350 Resuming at 5\r\n", bytes "550 File not found.\r\n"] ∧
      Event.open (some (bytes "/a")) .append 3
        ∈ (finalState (runAll serve (staleRest ++ [(bytes "STOR a\r\n", calmEnv)]) newSession)).trace := by
  decide +kernel

end VitaConnect.Ftp
