import VitaConnect.Ftp.Replies
import VitaConnect.Ftp.Tables

/-! # The listing of the root (`send_LIST`)

A LIST of `/` sends a line for each device that is valid and that `sceIoGetstat` knows, in the order of
the table.
-/
namespace VitaConnect.Ftp
open CString Program Storage
set_option autoImplicit false

/-- The names that the loop of `send_LIST` finds valid, in its order. -/
def Server.deviceNames (s : Server) : List CStr :=
  (List.finRange maxDevices).filterMap fun i =>
    if (s.deviceList i).valid then some (s.deviceList i).name else none

/-! ## Texts sent on the data connection -/

def dataText? : Event → Option CStr
  | .dataSend _ _ passed _ => some passed
  | _ => none

def dataTexts (trace : List Event) : List CStr := trace.filterMap dataText?

def lineOf (env : Env) (entry : Bool × SceIoStat × CStr) : CStr :=
  genListFormat env.currentYear 512 entry.1 entry.2.1 entry.2.2

theorem dataTexts_append (xs ys : List Event) : dataTexts (xs ++ ys) = dataTexts xs ++ dataTexts ys :=
  List.filterMap_append

theorem sendLines_texts (env : Env) (entries : List (Bool × SceIoStat × CStr)) (i : ℕ) (s : Session) :
    ∃ es, sendLines env i entries s = .ok ⟨⟩ { s with trace := s.trace ++ es } ∧
      dataTexts es = entries.map (lineOf env) := by
  induction entries generalizing i s with
  | nil => exact ⟨[], by simp [sendLines, pure_apply], rfl⟩
  | cons entry rest ih =>
    obtain ⟨dir, stat, name⟩ := entry
    set line := genListFormat env.currentYear 512 dir stat name with hline
    set e := Event.dataSend s.client.transferFd line.length line (env.sceNetSend i) with he
    obtain ⟨es, hes, htexts⟩ := ih (i + 1) { s with trace := s.trace ++ [e] }
    refine ⟨e :: es, ?_, ?_⟩
    · rw [sendLines, bind_apply, clientSendDataMsg, bind_apply, getClient_apply, ← hline]
      simp only [emit_apply, ← he, hes]
      simp
    · rw [List.map_cons, ← htexts]
      rfl

theorem dataTexts_openEvents (env : Env) (client : ClientInfo) :
    dataTexts (openEvents env client) = [] := by
  unfold openEvents
  split <;> rfl

theorem dataTexts_closeEvents (client : ClientInfo) : dataTexts (closeEvents client) = [] := by
  unfold closeEvents
  split <;> rfl

theorem sendList_root (env : Env) (s : Session) :
    ∃ u, sendList env [slash] s = .ok ⟨⟩ u ∧
      dataTexts u.trace = dataTexts s.trace ++ (listedDevices env).map (lineOf env) := by
  set opening : Session := { s with
    client := s.client.opened env
    trace := s.trace ++ [.ctrlSend (bytes "150 Opening ASCII mode data transfer for LIST." ++ eol)]
      ++ openEvents env s.client } with hopening
  obtain ⟨lines, hlines, htexts⟩ := sendLines_texts env (listedDevices env) 0 opening
  refine ⟨{ opening with
    client := { opening.client with dataConType := .none }
    trace := opening.trace ++ lines ++ closeEvents opening.client
      ++ [.ctrlSend (bytes "226 Transfer complete." ++ eol)] }, ?_, ?_⟩
  · rw [sendList, if_pos rfl]
    simp only [bind_apply, clientReply_apply, clientOpenDataConnection_apply, ← hopening, hlines,
      clientCloseDataConnection_apply]
  · have hreply : ∀ msg, dataTexts [.ctrlSend msg] = [] := fun _ => rfl
    simp only [hopening, dataTexts_append, dataTexts_openEvents, dataTexts_closeEvents, hreply, htexts,
      List.append_nil]

theorem cmdListFunc_root {env : Env} {s : Session} (hargs : s.client.recvCmdArgs.length ≤ 511)
    (hroot : listPath env s.client.curPath s.client.recvCmdArgs = [slash]) :
    ∃ u, cmdListFunc env s = .ok ⟨⟩ u ∧
      dataTexts u.trace = dataTexts s.trace ++ (listedDevices env).map (lineOf env) := by
  obtain ⟨u, hu, htexts⟩ := sendList_root env s
  refine ⟨u, ?_, htexts⟩
  have hfits : ∀ str ∈ scanSet argStops s.client.recvCmdArgs, str.length < Buffer.listPath.size := by
    intro str hstr
    have hlen := scanSet_length_le hstr
    simp only [Buffer.size, pathMax]
    omega
  simp only [cmdListFunc, bind_apply, getClient_apply, storeScanned_ok hfits, hroot, hu]

theorem deviceNames_eq (s : Server) :
    s.deviceNames = (List.finRange maxDevices).filterMap fun i => (s.devices i).liveName := by
  have hslot : ∀ d : DeviceSlot, d.slot.liveName = if d.valid then some d.name else none := by
    intro d
    unfold DeviceSlot.slot
    cases d.valid <;> rfl
  unfold Server.deviceNames
  congr 1
  funext i
  exact (hslot (s.deviceList i)).symm

end VitaConnect.Ftp
