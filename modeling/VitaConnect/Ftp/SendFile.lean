import VitaConnect.Ftp.TransferRun
import VitaConnect.Ftp.Session

/-! # What RETR puts on the data connection

`ReadAnswers` says which sequences `sceIoRead` can answer for a file: counts that the file has,
zero at its end, and errors. Without an error the loop alternates reads and sends of the same
chunks; an error is sent as if it were a count.
-/
namespace VitaConnect.Ftp
open CString Program
set_option autoImplicit false

/-- The answers of `sceIoRead` from the position `pos` of a file with the given content. -/
def ReadAnswers (content : List Byte) (bufSize : ℕ) : List ℤ → ℕ → Prop
  | [], _ => True
  | ret :: rets, pos =>
    (0 < ret ∧ ret < 2147483648 ∧ ret ≤ bufSize ∧ pos + ret.toNat ≤ content.length ∧
      ReadAnswers content bufSize rets (pos + ret.toNat)) ∨
    (ret = 0 ∧ content.length ≤ pos ∧ rets = []) ∨
    (ret < 0 ∧ -2147483648 ≤ ret ∧ ReadAnswers content bufSize rets pos)

/-! ## Views of a trace -/

def passedData (es : List Event) : List (ℕ × List Byte) :=
  es.filterMap fun
    | .dataSend _ len passed _ => some (len, passed)
    | _ => none

def deliveredData (es : List Event) : List (List Byte) :=
  es.filterMap fun
    | .read _ got ret => if 0 < ret then some got else none
    | _ => none

def readRets (es : List Event) : List ℤ :=
  es.filterMap fun
    | .read _ _ ret => some ret
    | _ => none

def acceptedData (es : List Event) : List Byte :=
  (es.filterMap fun
    | .dataSend _ _ passed ret => some (taken passed ret)
    | _ => none).flatten

/-- The trace of `send_file` for a file read from the offset `offset`. -/
structure FaithfulSend (content : List Byte) (offset : ℕ) (es : List Event) : Prop where
  passed : passedData es = (deliveredData es).map fun c => (c.length, c)
  inOrder : (deliveredData es).flatten <+: content.drop offset
  stops : ∀ rets ret rest, readRets es = rets ++ ret :: rest → ret ≤ 0 → rest = []
  complete : bytes "226 Transfer completed." ++ eol ∈ ctrlMsgs es →
    acceptedData es = content.drop offset

/-! ## The chunks of a run without errors -/

theorem unsignedLen_of_nonneg {ret : ℤ} (h : 0 ≤ ret) (h' : ret < 2147483648) :
    unsignedLen ret = ret.toNat := by
  simp only [unsignedLen, BitVec.toNat_ofInt]
  omega

theorem unsignedLen_of_neg {ret : ℤ} (h : ret < 0) (h' : -2147483648 ≤ ret) :
    unsignedLen ret ≠ 0 := by
  simp only [unsignedLen, BitVec.toNat_ofInt]
  omega

/-- What the positive counts of `rets` deliver from the position `pos`. -/
def readChunks (content : List Byte) : List ℤ → ℕ → List (List Byte)
  | [], _ => []
  | ret :: rets, pos =>
    if 0 < ret then taken (content.drop pos) ret :: readChunks content rets (pos + ret.toNat)
    else readChunks content rets pos

theorem taken_drop_length {content : List Byte} {pos : ℕ} {ret : ℤ}
    (h : pos + ret.toNat ≤ content.length) :
    (taken (content.drop pos) ret).length = ret.toNat := by
  simp only [taken, List.length_take, List.length_drop]
  omega

theorem readChunks_isPrefix {content : List Byte} {bufSize : ℕ} (rets : List ℤ) (pos : ℕ)
    (h : ReadAnswers content bufSize rets pos) :
    (readChunks content rets pos).flatten <+: content.drop pos := by
  induction rets generalizing pos with
  | nil => simp [readChunks]
  | cons ret rets ih =>
    rcases h with ⟨hpos, -, -, -, hrest⟩ | ⟨rfl, -, rfl⟩ | ⟨hneg, -, hrest⟩
    · have hsplit : content.drop pos
          = taken (content.drop pos) ret ++ content.drop (pos + ret.toNat) := by
        rw [taken, ← List.drop_drop, List.take_append_drop]
      rw [readChunks, if_pos hpos, List.flatten_cons, hsplit]
      have hcut : taken (taken (content.drop pos) ret ++ content.drop (pos + ret.toNat)) ret
          = taken (content.drop pos) ret := by rw [← hsplit]
      rw [hcut]
      exact (List.prefix_append_right_inj _).mpr (ih _ hrest)
    · simp [readChunks]
    · rw [readChunks, if_neg (by omega)]
      exact ih pos hrest

theorem readChunks_complete {content : List Byte} {bufSize : ℕ} (rets : List ℤ) (pos : ℕ)
    (h : ReadAnswers content bufSize rets pos) (h0 : 0 ∈ rets) :
    (readChunks content rets pos).flatten = content.drop pos := by
  induction rets generalizing pos with
  | nil => cases h0
  | cons ret rets ih =>
    rcases h with ⟨hpos, -, -, -, hrest⟩ | ⟨rfl, hend, rfl⟩ | ⟨hneg, -, hrest⟩
    · have hmem : 0 ∈ rets := (List.mem_cons.mp h0).resolve_left (by omega)
      rw [readChunks, if_pos hpos, List.flatten_cons, ih _ hrest hmem, taken, ← List.drop_drop,
        List.take_append_drop]
    · rw [List.drop_of_length_le hend]
      rfl
    · have hmem : 0 ∈ rets := (List.mem_cons.mp h0).resolve_left (by omega)
      rw [readChunks, if_neg (by omega)]
      exact ih pos hrest hmem

theorem readChunks_bounded_iff {content : List Byte} {bufSize : ℕ} (rets : List ℤ) (pos : ℕ)
    (h : ReadAnswers content bufSize rets pos) (hnn : ∀ ret ∈ rets, 0 ≤ ret) (f : ℕ → ℕ) :
    (∀ j c, (readChunks content rets pos)[j]? = some c → c.length ≤ f j)
      ↔ ∀ j ret, rets[j]? = some ret → ret.toNat ≤ f j := by
  induction rets generalizing pos f with
  | nil => simp [readChunks]
  | cons ret rets ih =>
    have hnn' : ∀ r ∈ rets, 0 ≤ r := fun r hr => hnn r (List.mem_cons_of_mem ret hr)
    rcases h with ⟨hpos, -, -, hfit, hrest⟩ | ⟨rfl, -, rfl⟩ | ⟨hneg, -, -⟩
    · rw [readChunks, if_pos hpos, forall_getElem?_cons, forall_getElem?_cons,
        taken_drop_length hfit, ih _ hrest hnn' fun j => f (j + 1)]
    · rw [forall_getElem?_cons]
      simp [readChunks]
    · have := hnn ret List.mem_cons_self
      omega

/-! ## The trace of the loop -/

section Loop
variable (env : Env) (fd transferFd : ℤ) {content : List Byte} {bufSize : ℕ}

theorem sendEvents_count {ret : ℤ} (rets : List ℤ) (i : ℕ) {pos : ℕ} (buffer : List Byte)
    (hpos : 0 < ret) (hlt : ret < 2147483648) (hfit : pos + ret.toNat ≤ content.length) :
    ∃ buffer', sendEvents env fd transferFd content (ret :: rets) i pos buffer =
      .read fd (taken (content.drop pos) ret) ret ::
      .dataSend transferFd (taken (content.drop pos) ret).length (taken (content.drop pos) ret)
        (env.sceNetSend i) ::
      sendEvents env fd transferFd content rets (i + 1) (pos + ret.toNat) buffer' := by
  have hlen := taken_drop_length hfit
  have hu : unsignedLen ret = (taken (content.drop pos) ret).length := by
    rw [hlen, unsignedLen_of_nonneg hpos.le hlt]
  have hne : (taken (content.drop pos) ret).length ≠ 0 := by omega
  refine ⟨taken (content.drop pos) ret ++ buffer.drop (taken (content.drop pos) ret).length, ?_⟩
  rw [sendEvents]
  simp only [hu, hne, if_false, List.take_left']
  rw [hlen]

/-- An error: nothing is read, and the buffer is sent with the error as its length. -/
theorem sendEvents_error {ret : ℤ} (rets : List ℤ) (i pos : ℕ) (buffer : List Byte)
    (hneg : ret < 0) (hge : -2147483648 ≤ ret) :
    sendEvents env fd transferFd content (ret :: rets) i pos buffer =
      .read fd [] ret ::
      .dataSend transferFd (unsignedLen ret) (buffer.take (unsignedLen ret)) (env.sceNetSend i) ::
      sendEvents env fd transferFd content rets (i + 1) pos buffer := by
  have hgot : taken (content.drop pos) ret = [] := by
    simp [taken, Int.toNat_of_nonpos hneg.le]
  rw [sendEvents]
  simp [hgot, unsignedLen_of_neg hneg hge]

theorem sendEvents_reads (rets : List ℤ) (i pos : ℕ) (buffer : List Byte)
    (h : ReadAnswers content bufSize rets pos) :
    readRets (sendEvents env fd transferFd content rets i pos buffer) = rets ∧
      deliveredData (sendEvents env fd transferFd content rets i pos buffer)
        = readChunks content rets pos := by
  induction rets generalizing i pos buffer with
  | nil => exact ⟨rfl, rfl⟩
  | cons ret rets ih =>
    rcases h with ⟨hpos, hlt, -, hfit, hrest⟩ | ⟨rfl, -, rfl⟩ | ⟨hneg, hge, hrest⟩
    · obtain ⟨buffer', hes⟩ := sendEvents_count env fd transferFd rets i buffer hpos hlt hfit
      obtain ⟨h1, h2⟩ := ih (i + 1) _ buffer' hrest
      rw [hes, readChunks, if_pos hpos, ← h2]
      refine ⟨congrArg (ret :: ·) h1, ?_⟩
      simp [deliveredData, hpos]
    · exact ⟨rfl, rfl⟩
    · obtain ⟨h1, h2⟩ := ih (i + 1) pos buffer hrest
      have hnp : ¬ 0 < ret := by omega
      rw [sendEvents_error env fd transferFd rets i pos buffer hneg hge, readChunks, if_neg hnp, ← h2]
      refine ⟨congrArg (ret :: ·) h1, ?_⟩
      simp [deliveredData, hnp]

theorem sendEvents_sends (rets : List ℤ) (i pos : ℕ) (buffer : List Byte)
    (h : ReadAnswers content bufSize rets pos) (hnn : ∀ ret ∈ rets, 0 ≤ ret) :
    passedData (sendEvents env fd transferFd content rets i pos buffer)
        = (readChunks content rets pos).map (fun c => (c.length, c)) ∧
      acceptedData (sendEvents env fd transferFd content rets i pos buffer)
        = takenOf env.sceNetSend i (readChunks content rets pos) := by
  induction rets generalizing i pos buffer with
  | nil => exact ⟨rfl, rfl⟩
  | cons ret rets ih =>
    have hnn' : ∀ r ∈ rets, 0 ≤ r := fun r hr => hnn r (List.mem_cons_of_mem ret hr)
    rcases h with ⟨hpos, hlt, -, hfit, hrest⟩ | ⟨rfl, -, rfl⟩ | ⟨hneg, -, -⟩
    · obtain ⟨buffer', hes⟩ := sendEvents_count env fd transferFd rets i buffer hpos hlt hfit
      obtain ⟨h1, h2⟩ := ih (i + 1) _ buffer' hrest hnn'
      rw [hes, readChunks, if_pos hpos, List.map_cons, takenOf, ← h1, ← h2]
      exact ⟨rfl, rfl⟩
    · exact ⟨rfl, rfl⟩
    · have := hnn ret List.mem_cons_self
      omega

/-- Every error is one send that no read stands behind. -/
theorem sendEvents_surplus (rets : List ℤ) (i pos : ℕ) (buffer : List Byte)
    (h : ReadAnswers content bufSize rets pos) :
    (passedData (sendEvents env fd transferFd content rets i pos buffer)).length
      = (readChunks content rets pos).length + rets.countP (· < 0) := by
  induction rets generalizing i pos buffer with
  | nil => rfl
  | cons ret rets ih =>
    rcases h with ⟨hpos, hlt, -, hfit, hrest⟩ | ⟨rfl, -, rfl⟩ | ⟨hneg, hge, hrest⟩
    · obtain ⟨buffer', hes⟩ := sendEvents_count env fd transferFd rets i buffer hpos hlt hfit
      have hlen := ih (i + 1) _ buffer' hrest
      have hnn : ¬ ret < 0 := by omega
      rw [hes, readChunks, if_pos hpos, List.length_cons, List.countP_cons_of_neg (by simpa using hnn)]
      show (passedData (sendEvents env fd transferFd content rets (i + 1) _ buffer')).length + 1 = _
      omega
    · rfl
    · have hlen := ih (i + 1) pos buffer hrest
      have hnp : ¬ 0 < ret := by omega
      rw [sendEvents_error env fd transferFd rets i pos buffer hneg hge, readChunks, if_neg hnp,
        List.countP_cons_of_pos (by simpa using hneg)]
      show (passedData (sendEvents env fd transferFd content rets (i + 1) pos buffer)).length + 1 = _
      omega

end Loop

/-! ## The whole of `send_file` -/

/-- The events that neither read nor send data. -/
@[simp] def Event.isQuiet : Event → Bool
  | .dataSend .. => false
  | .read .. => false
  | _ => true

theorem views_quiet {xs : List Event} (h : ∀ e ∈ xs, e.isQuiet) :
    passedData xs = [] ∧ deliveredData xs = [] ∧ readRets xs = [] ∧ acceptedData xs = [] := by
  induction xs with
  | nil => exact ⟨rfl, rfl, rfl, rfl⟩
  | cons x xs ih =>
    obtain ⟨h1, h2, h3, h4⟩ := ih fun e he => h e (List.mem_cons_of_mem x he)
    have hx := h x List.mem_cons_self
    cases x <;> first | exact ⟨h1, h2, h3, h4⟩ | cases hx

theorem views_between {xs ys : List Event} (mid : List Event) (hx : ∀ e ∈ xs, e.isQuiet)
    (hy : ∀ e ∈ ys, e.isQuiet) :
    passedData (xs ++ mid ++ ys) = passedData mid ∧
      deliveredData (xs ++ mid ++ ys) = deliveredData mid ∧
      readRets (xs ++ mid ++ ys) = readRets mid ∧
      acceptedData (xs ++ mid ++ ys) = acceptedData mid := by
  obtain ⟨x1, x2, x3, x4⟩ := views_quiet hx
  obtain ⟨y1, y2, y3, y4⟩ := views_quiet hy
  unfold passedData deliveredData readRets acceptedData at *
  simp only [List.filterMap_append, List.flatten_append, x1, x2, x3, x4, y1, y2, y3, y4,
    List.nil_append, List.append_nil, and_self]

theorem FaithfulSend.of_quiet {content : List Byte} {offset : ℕ} {es : List Event}
    (h : ∀ e ∈ es, e.isQuiet) (h226 : bytes "226 Transfer completed." ++ eol ∉ ctrlMsgs es) :
    FaithfulSend content offset es := by
  obtain ⟨h1, h2, h3, -⟩ := views_quiet h
  refine ⟨by rw [h1, h2]; rfl, by rw [h2]; exact List.nil_prefix, ?_, fun hm => absurd hm h226⟩
  intro rets ret rest heq
  rw [h3] at heq
  simp at heq

theorem readAnswers_stops {content : List Byte} {bufSize : ℕ} (rets : List ℤ) (pos : ℕ)
    (h : ReadAnswers content bufSize rets pos) (hnn : ∀ ret ∈ rets, 0 ≤ ret) :
    ∀ as ret bs, rets = as ++ ret :: bs → ret ≤ 0 → bs = [] := by
  induction rets generalizing pos with
  | nil =>
    intro as ret bs heq
    simp at heq
  | cons r rets ih =>
    intro as ret bs heq hle
    have hnn' : ∀ x ∈ rets, 0 ≤ x := fun x hx => hnn x (List.mem_cons_of_mem r hx)
    rcases h with ⟨hpos, -, -, -, hrest⟩ | ⟨rfl, -, rfl⟩ | ⟨hneg, -, -⟩
    · cases as with
      | nil =>
        obtain ⟨rfl, rfl⟩ : r = ret ∧ rets = bs := by simpa using heq
        omega
      | cons a as =>
        obtain ⟨-, hrets⟩ : r = a ∧ rets = as ++ ret :: bs := by simpa using heq
        exact ih _ hrest hnn' as ret bs hrets hle
    · cases as with
      | nil => exact (List.cons.inj heq).2.symm
      | cons a as => simp at heq
    · have := hnn r List.mem_cons_self
      omega

theorem readAnswers_end_iff {content : List Byte} {bufSize : ℕ} (rets : List ℤ) (pos : ℕ)
    (h : ReadAnswers content bufSize rets pos) :
    (∃ ret ∈ rets, unsignedLen ret = 0) ↔ 0 ∈ rets := by
  induction rets generalizing pos with
  | nil => simp
  | cons ret rets ih =>
    rw [List.exists_mem_cons_iff, List.mem_cons]
    rcases h with ⟨hpos, hlt, -, -, hrest⟩ | ⟨rfl, -, rfl⟩ | ⟨hneg, hge, hrest⟩
    · have hu := unsignedLen_of_nonneg hpos.le hlt
      rw [ih _ hrest]
      exact or_congr_left (by omega)
    · simp [unsignedLen]
    · have hu := unsignedLen_of_neg hneg hge
      rw [ih _ hrest]
      exact or_congr_left (by omega)

theorem faithfulSend_iff (env : Env) (fd transferFd : ℤ) {content : List Byte} {bufSize : ℕ}
    {rets : List ℤ} {pos : ℕ} (buffer : List Byte) {xs ys : List Event}
    (h : ReadAnswers content bufSize rets pos) (hx : ∀ e ∈ xs, e.isQuiet)
    (hy : ∀ e ∈ ys, e.isQuiet) :
    FaithfulSend content pos
        (xs ++ sendEvents env fd transferFd content rets 0 pos buffer ++ ys) ↔
      (∀ ret ∈ rets, 0 ≤ ret) ∧
        (bytes "226 Transfer completed." ++ eol ∈ ctrlMsgs
            (xs ++ sendEvents env fd transferFd content rets 0 pos buffer ++ ys) →
          takenOf env.sceNetSend 0 (readChunks content rets pos) = content.drop pos) := by
  obtain ⟨v1, v2, v3, v4⟩ :=
    views_between (sendEvents env fd transferFd content rets 0 pos buffer) hx hy
  obtain ⟨hr, hd⟩ := sendEvents_reads env fd transferFd rets 0 pos buffer h
  constructor
  · rintro ⟨hpassed, -, -, hcomplete⟩
    have hnn : ∀ ret ∈ rets, 0 ≤ ret := by
      intro ret hret
      have hlen := congrArg List.length hpassed
      rw [v1, v2, hd, List.length_map, sendEvents_surplus env fd transferFd rets 0 pos buffer h] at hlen
      have hcount : rets.countP (· < 0) = 0 := by omega
      have hret' := List.countP_eq_zero.mp hcount ret hret
      simpa using hret'
    obtain ⟨-, ha⟩ := sendEvents_sends env fd transferFd rets 0 pos buffer h hnn
    refine ⟨hnn, fun hm => ?_⟩
    rw [← ha, ← v4]
    exact hcomplete hm
  · rintro ⟨hnn, hcomplete⟩
    obtain ⟨hp, ha⟩ := sendEvents_sends env fd transferFd rets 0 pos buffer h hnn
    refine ⟨?_, ?_, ?_, ?_⟩
    · rw [v1, v2, hd, hp]
    · rw [v2, hd]
      exact readChunks_isPrefix rets pos h
    · rw [v3, hr]
      exact readAnswers_stops rets pos h hnn
    · intro hm
      rw [v4, ha]
      exact hcomplete hm

def beforeSending (env : Env) (path : Option CStr) (client : ClientInfo) : List Event :=
  [.open path .rdonly env.sceIoOpen, .lseek env.sceIoOpen client.restorePoint]
    ++ openEvents env client ++ [.ctrlSend (bytes "150 Opening Image mode data transfer." ++ eol)]

theorem beforeSending_quiet (env : Env) (path : Option CStr) (client : ClientInfo) :
    ∀ e ∈ beforeSending env path client, e.isQuiet := by
  have hopen := forall_openEvents (P := (·.isQuiet)) (fun _ => rfl) (fun _ _ => rfl) env client
  intro e he
  simp only [beforeSending, List.mem_append, List.mem_cons, List.not_mem_nil, or_false] at he
  rcases he with ((rfl | rfl) | he) | rfl
  · rfl
  · rfl
  · exact hopen e he
  · rfl

theorem not_mem_beforeSending (env : Env) (path : Option CStr) (client : ClientInfo) :
    bytes "226 Transfer completed." ++ eol ∉ ctrlMsgs (beforeSending env path client) := by
  have h : ctrlMsgs (beforeSending env path client)
      = [bytes "150 Opening Image mode data transfer." ++ eol] := by
    simp [beforeSending, ctrlMsgs_openEvents]
  rw [h]
  decide

theorem sendFile_trace {env : Env} (path : Option CStr) (s : Session) {buffer : List Byte}
    (hopen : 0 ≤ env.sceIoOpen) (hm : env.malloc = some buffer) :
    ∃ ys, (finalState (sendFile env path s)).trace = s.trace ++
        (beforeSending env path s.client
          ++ sendEvents env env.sceIoOpen (s.client.opened env).transferFd (s.files.contents path)
            env.sceIoRead 0 (env.sceIoLseek32 s.client.restorePoint) buffer ++ ys) ∧
      (∀ e ∈ ys, e.isQuiet) ∧
      (bytes "226 Transfer completed." ++ eol ∈ ctrlMsgs ys ↔
        ReadsEnd env ∧ ¬ NotificationFaults env path) := by
  rw [sendFile_transfer path s hopen hm]
  by_cases hend : ReadsEnd env
  · by_cases hf : NotificationFaults env path
    · refine ⟨[.close env.sceIoOpen], ?_, by simp, ?_⟩
      · simp [hend, hf, sendingState, beforeSending]
      · simp [hf]
    · refine ⟨.close env.sceIoOpen :: (notificationEvents env "Send: " path ++
        .ctrlSend (bytes "226 Transfer completed." ++ eol) ::
        closeEvents (s.client.opened env)), ?_, ?_, ?_⟩
      · simp [hend, hf, sendingState, beforeSending, closeEvents]
      · intro e he
        rcases List.mem_cons.mp he with rfl | he
        · rfl
        rcases List.mem_append.mp he with he | he
        · exact forall_notificationEvents (P := (·.isQuiet)) (fun _ => rfl) _ _ _ e he
        rcases List.mem_cons.mp he with rfl | he
        · rfl
        · exact forall_closeEvents (P := (·.isQuiet)) (fun _ => rfl) _ e he
      · simp [hend, hf, ctrlMsgs_notificationEvents]
  · refine ⟨[], ?_, by simp, ?_⟩
    · simp [hend, sendingState, beforeSending]
    · simp [hend]

def sampleFiles : Files := fun p => if p = bytes "ux0:/a" then some [65] else none

/-- The second read fails with `0x80010005`: the loop sends its buffer and reads on. -/
def failingRead : Env := { calmEnv with sceIoRead := [1, -2147418107, 0] }

end VitaConnect.Ftp
