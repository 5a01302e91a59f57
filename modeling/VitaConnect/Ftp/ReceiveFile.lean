import VitaConnect.Ftp.TransferRun
import VitaConnect.Ftp.Session

/-! # What an upload leaves in the file

The file of an upload starts empty without a restore point and as it was with one; APPE sets the
restore point to `-1`. Each write adds what it takes. An upload whose data connection fails removes
the file, whatever it held before.
-/
namespace VitaConnect.Ftp
open CString Program
set_option autoImplicit false

/-- The bytes that the open leaves in front of the received ones. -/
def uploadBase (s : Session) (path : CStr) : List Byte :=
  if s.client.restorePoint = 0 then [] else s.files.contents (some path)

def receivedBytes (env : Env) : List Byte := (chunkData env.sceNetRecv).flatten

theorem opened_contents (s : Session) (path : CStr) :
    (s.files.opened (some path) (receiveMode s.client.restorePoint)).contents (some path)
      = uploadBase s path := by
  unfold receiveMode uploadBase
  split
  · simp [Files.opened, Files.contents]
  · simp [Files.opened, Files.contents]

theorem written_contents (files : Files) (path : CStr) (buf : List Byte) :
    (files.written (some path) buf) path = some (files.contents (some path) ++ buf) := by
  simp [Files.written]

theorem receivedState_file (env : Env) (path : CStr) (s : Session) :
    (receivedState env (some path) s).files path
      = some (uploadBase s path ++ takenOf env.sceIoWrite 0 (chunkData env.sceNetRecv)) := by
  show (Files.written _ (some path) _) path = _
  rw [written_contents, opened_contents]

/-! ## The reply 226 -/

/-- A 226 sent between `s` and `t` stands for the file that the client has sent. -/
def StoredWhole (env : Env) (path : CStr) (s t : Session) : Prop :=
  ∃ msgs, ctrlMsgs t.trace = ctrlMsgs s.trace ++ msgs ∧
    (bytes "226 Transfer completed." ++ eol ∈ msgs →
      t.files path = some (uploadBase s path ++ receivedBytes env))

theorem storedWhole_iff {env : Env} {path : CStr} {s t : Session} {msgs : List CStr}
    (ht : ctrlMsgs t.trace = ctrlMsgs s.trace ++ msgs) :
    StoredWhole env path s t ↔ (bytes "226 Transfer completed." ++ eol ∈ msgs →
      t.files path = some (uploadBase s path ++ receivedBytes env)) := by
  unfold StoredWhole
  rw [ht]
  simp only [List.append_cancel_left_eq, exists_eq_left']

theorem mem_receiveReplies (env : Env) (path : Option CStr) :
    bytes "226 Transfer completed." ++ eol ∈ receiveReplies env path ↔
      0 ≤ env.sceIoOpen ∧ env.malloc ≠ none ∧ ¬ NotificationFaults env path ∧
        env.sceNetRecvEnd.val = 0 := by
  have h1 : bytes "226 Transfer completed." ≠ bytes "550 File not found." := by decide
  have h2 : bytes "226 Transfer completed." ≠ bytes "550 Could not allocate memory." := by decide
  have h3 : bytes "226 Transfer completed." ≠ bytes "150 Opening Image mode data transfer." := by
    decide
  have h4 : bytes "226 Transfer completed." ≠ bytes "426 Connection closed; transfer aborted." := by
    decide
  unfold receiveReplies
  split_ifs <;> simp_all

/-- **When a 226 stands for the whole file.** The answers of `sceIoWrite` decide it. -/
theorem receiveFile_stored_iff (env : Env) (path : CStr) (s : Session) :
    StoredWhole env path s (finalState (receiveFile env (some path) s)) ↔
      env.sceIoOpen < 0 ∨ env.malloc = none ∨ NotificationFaults env (some path) ∨
        env.sceNetRecvEnd.val < 0 ∨
        ∀ j c, (chunkData env.sceNetRecv)[j]? = some c → c.length ≤ (env.sceIoWrite j).toNat := by
  rw [storedWhole_iff (receiveFile_msgs _ _ _), mem_receiveReplies]
  have hle : env.sceNetRecvEnd.val ≤ 0 := env.sceNetRecvEnd.property
  by_cases hdone : 0 ≤ env.sceIoOpen ∧ env.malloc ≠ none ∧
      ¬ NotificationFaults env (some path) ∧ env.sceNetRecvEnd.val = 0
  · obtain ⟨hopen, hm, hf, hend⟩ := hdone
    obtain ⟨buffer, hm'⟩ := Option.ne_none_iff_exists'.mp hm
    have hfile : (finalState (receiveFile env (some path) s)).files path
        = some (uploadBase s path ++ takenOf env.sceIoWrite 0 (chunkData env.sceNetRecv)) := by
      rw [receiveFile_transfer _ _ hopen hm', ← receivedState_file]
      simp [hend, hf]
    have hwhole := takenOf_eq_flatten_iff env.sceIoWrite 0 (chunkData env.sceNetRecv)
    simp only [Nat.zero_add] at hwhole
    have hopen' : ¬ env.sceIoOpen < 0 := by omega
    rw [hfile, Option.some.injEq, List.append_cancel_left_eq, receivedBytes, hwhole]
    simp only [hopen, hm, hf, hend, hopen', ne_eq, not_false_eq_true, and_self, forall_const, lt_irrefl,
      false_or]
  · refine iff_of_true (fun h => absurd h hdone) ?_
    by_contra hcond
    obtain ⟨hopen, hm, hf, hend, -⟩ : ¬ env.sceIoOpen < 0 ∧ env.malloc ≠ none ∧
        ¬ NotificationFaults env (some path) ∧ ¬ env.sceNetRecvEnd.val < 0 ∧ _ := by
      simpa only [not_or] using hcond
    exact hdone ⟨by omega, hm, hf, by omega⟩

def fullCard : Env := { calmEnv with sceNetRecv := [⟨[65], by decide⟩], sceIoWrite := fun _ => 0 }

theorem receiveFile_fullCard :
    ¬ StoredWhole fullCard (bytes "ux0:/a") newSession
      (finalState (receiveFile fullCard (some (bytes "ux0:/a")) newSession)) := by
  rintro ⟨msgs, hmsgs, hstored⟩
  have h226 : bytes "226 Transfer completed." ++ eol ∈ msgs := by
    rw [show ctrlMsgs newSession.trace ++ msgs = msgs from rfl] at hmsgs
    rw [← hmsgs]
    decide
  exact absurd (hstored h226) (by decide)

/-! ## Uploads that fail -/

/-- **What a failed resume leaves.** The branch that cleans up after a failure removes the file. -/
theorem receiveFile_failed_iff (env : Env) (path : CStr) (s : Session)
    (hresume : s.client.restorePoint ≠ 0) (hfail : env.sceNetRecvEnd.val < 0) :
    s.files.contents (some path)
        <+: (finalState (receiveFile env (some path) s)).files.contents (some path) ↔
      env.sceIoOpen < 0 ∨ env.malloc = none ∨ env.sceIoRemove < 0 ∨
        s.files.contents (some path) = [] := by
  have hbase : uploadBase s path = s.files.contents (some path) := if_neg hresume
  by_cases hopen : env.sceIoOpen < 0
  · rw [receiveFile_notFound _ _ hopen]
    exact iff_of_true (List.prefix_refl _) (Or.inl hopen)
  · have hopen' : 0 ≤ env.sceIoOpen := by omega
    cases hm : env.malloc with
    | none =>
      rw [receiveFile_noMemory _ _ hopen' hm]
      refine iff_of_true ?_ (Or.inr (Or.inl rfl))
      rw [finalState_ok, opened_contents, hbase]
    | some buffer =>
      have hend : env.sceNetRecvEnd.val ≠ 0 := hfail.ne
      have hkept : (receivedState env (some path) s).files.contents (some path)
          = s.files.contents (some path) ++ takenOf env.sceIoWrite 0 (chunkData env.sceNetRecv) := by
        rw [← hbase]
        simp [Files.contents, receivedState_file]
      have hfinal : (finalState (receiveFile env (some path) s)).files.contents (some path)
          = if 0 ≤ env.sceIoRemove then []
            else (receivedState env (some path) s).files.contents (some path) := by
        rw [receiveFile_transfer _ _ hopen' hm]
        by_cases hrm : 0 ≤ env.sceIoRemove
        · by_cases hf : NotificationFaults env (some path)
          · simp [hend, hf, hrm, Files.removed, Files.contents]
          · simp [hend, hf, hrm, Files.removed, Files.contents]
        · by_cases hf : NotificationFaults env (some path)
          · simp [hend, hf, hrm]
          · simp [hend, hf, hrm]
      rw [hfinal]
      by_cases hrm : 0 ≤ env.sceIoRemove
      · have hrm' : ¬ env.sceIoRemove < 0 := by omega
        simp [hrm, hrm', hopen]
      · rw [if_neg hrm, hkept]
        exact iff_of_true (List.prefix_append _ _) (Or.inr (Or.inr (Or.inl (by omega))))

/-- A session in which REST has set a restore point and the file holds one byte. -/
def resumingSession : Session :=
  { newSession with
    client := { newSession.client with restorePoint := 1 }
    files := fun p => if p = bytes "ux0:/a" then some [65] else none }

def brokenConnection : Env := { calmEnv with sceNetRecvEnd := ⟨-1, by decide⟩ }

theorem receiveFile_failed_iff_kept :
    resumingSession.client.restorePoint ≠ 0 ∧
      ({ brokenConnection with sceIoRemove := -1 } : Env).sceNetRecvEnd.val < 0 ∧
      [65] <+: (finalState (receiveFile { brokenConnection with sceIoRemove := -1 }
        (some (bytes "ux0:/a")) resumingSession)).files.contents (some (bytes "ux0:/a")) := by
  refine ⟨by decide, by decide, ?_⟩
  exact (receiveFile_failed_iff { brokenConnection with sceIoRemove := -1 } (bytes "ux0:/a")
    resumingSession (by decide) (by decide)).mpr (Or.inr (Or.inr (Or.inl (by decide))))

theorem receiveFile_brokenConnection :
    resumingSession.client.restorePoint ≠ 0 ∧ brokenConnection.sceNetRecvEnd.val < 0 ∧
      ¬ resumingSession.files.contents (some (bytes "ux0:/a"))
        <+: (finalState (receiveFile brokenConnection (some (bytes "ux0:/a"))
          resumingSession)).files.contents (some (bytes "ux0:/a")) := by
  refine ⟨by decide, by decide, by decide⟩

end VitaConnect.Ftp
