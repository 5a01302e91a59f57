import VitaConnect.Ftp.CurPath
import VitaConnect.Ftp.Dispatch
import VitaConnect.Ftp.Frame

/-! # What holds in every reachable session

`Reaches` sessions satisfy `CurPathInv`: CWD and CDUP keep it, and no other command writes the
current path.
-/
namespace VitaConnect.Ftp
open CString Program
set_option autoImplicit false

theorem cmdArgs_length_le (line : CStr) : (cmdArgs line).length ≤ line.length := by
  unfold cmdArgs
  split
  · simp
  · exact le_refl _

theorem ready_args_length_le {s : Session} {msg : List Byte} {line : CStr}
    (h : ofBuffer (received msg) = some line) :
    (s.ready msg line).client.recvCmdArgs.length ≤ 511 := by
  have hbuf : (received msg).length ≤ 512 := by simp [received]
  have hline := ofBuffer_length_lt h
  have hargs := cmdArgs_length_le line
  show (cmdArgs line).length ≤ 511
  omega

theorem runVerb_curPathInv {v : Verb} {env : Env} {s u : Session} (h : runVerb env v s = .ok ⟨⟩ u)
    (hs : CurPathInv s.client.curPath) (hargs : s.client.recvCmdArgs.length ≤ 511) :
    CurPathInv u.client.curPath := by
  have hkept : v.Ignores ClientInfo.curPath → CurPathInv u.client.curPath := by
    intro hignores
    rw [(keeps_runVerb env v hignores).ok h]
    exact hs
  cases v with
  | cwd =>
    obtain ⟨es, hrun, -⟩ := cmdCwdFunc_apply env hs hargs
    obtain ⟨-, rfl⟩ := EStateM.Result.ok.inj (hrun.symm.trans h)
    cases htarget : cwdTarget env s.client.curPath s.client.recvCmdArgs with
    | none => exact hs
    | some q => exact curPathInv_cwdTarget hs hargs htarget
  | cdup =>
    obtain ⟨-, rfl⟩ := EStateM.Result.ok.inj ((cmdCdupFunc_apply hs).symm.trans h)
    exact curPathInv_parent hs
  | pasv | port => exact hkept fun _ _ _ _ => rfl
  | retr | stor | appe => exact hkept fun _ _ _ _ => rfl
  | list => exact hkept fun _ _ _ => rfl
  | rest | rnfr => exact hkept fun _ _ => rfl
  | _ => exact hkept trivial

theorem serve_curPathInv {round : Round} {s u : Session} (hs : CurPathInv s.client.curPath)
    (h : serve round s = .ok ⟨⟩ u) : CurPathInv u.client.curPath := by
  obtain ⟨msg, env⟩ := round
  obtain ⟨line, hline, -, hrun⟩ := serve_ok h
  cases hverb : verbOf s msg with
  | none =>
    rw [hverb] at hrun
    obtain ⟨-, rfl⟩ := EStateM.Result.ok.inj hrun
    exact hs
  | some v =>
    rw [hverb] at hrun
    exact runVerb_curPathInv hrun hs (ready_args_length_le hline)

theorem reaches_curPathInv {rounds : List Round} {t : Session} (h : Reaches rounds t) :
    CurPathInv t.client.curPath := by
  obtain ⟨s, hs, hrun⟩ := h
  obtain ⟨_, m, hm, hrun⟩ := bind_ok hrun
  obtain ⟨-, rfl⟩ := EStateM.Result.ok.inj hm
  refine runAll_invariant (I := fun s : Session => CurPathInv s.client.curPath)
    (fun _ _ _ hi hserve => serve_curPathInv hi hserve) ?_ hrun
  show CurPathInv s.client.curPath
  rw [hs.curPath]
  exact curPathInv_root

/-! ## A session that has left the root -/

def onMemoryCard : Session :=
  finalState (clientThread [(bytes "CWD ux0:\r\n", calmEnv)] newSession)

theorem reaches_onMemoryCard : Reaches [(bytes "CWD ux0:\r\n", calmEnv)] onMemoryCard :=
  ⟨newSession, fresh_newSession, eq_ok_of_returned (by decide +kernel)⟩

theorem onMemoryCard_curPath : onMemoryCard.client.curPath = bytes "/ux0:/" := by decide +kernel

end VitaConnect.Ftp
