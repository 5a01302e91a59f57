import VitaConnect.Ftp.Commands
import VitaConnect.CString.Conversion

/-! # Notifications on the screen (`log_func` of `ftpvita.c`, `sendNotification` of `utils.c`)

`module_start` registers `sendNotification` as the callback of `NOTIFICATION`. `log_func` calls it
with the finished text, and the callback takes that text for a format whose arguments are missing.
-/
namespace VitaConnect.Ftp
open CString
set_option autoImplicit false

/-! ## The texts of `NOTIFICATION` -/

inductive Operation
  | send | received | notReceived | fileDeleted | directoryDeleted | directoryCreated
  deriving DecidableEq

def Operation.text : Operation → String
  | .send => "Send: "
  | .received => "Received: "
  | .notReceived => "Not Received: "
  | .fileDeleted => "File(s) Deleted: "
  | .directoryDeleted => "Directory Deleted: "
  | .directoryCreated => "Directory Created: "

inductive Notice
  | single (operation : Operation) (name : CStr)
  | renamed (old new : CStr)
  deriving DecidableEq

def Notice.formatted : Notice → CStr
  | .single operation name => bytes operation.text ++ name
  | .renamed old new => bytes "Renamed: " ++ old ++ bytes " To " ++ new

/-- What `log_func` passes to its callback. -/
def Notice.text (notice : Notice) : CStr := snprintf 256 notice.formatted

/-- What the cut of `log_func` leaves of the names. -/
def Notice.names : Notice → List CStr
  | .single operation name => [name.take (255 - operation.text.length)]
  | .renamed old new => [old.take (255 - 9), new.take (255 - 9 - old.length - 4)]

theorem percent_mem_take_append {pre : CStr} (h : 37 ∉ pre) (n : ℕ) (s : CStr) :
    37 ∈ (pre ++ s).take n ↔ 37 ∈ s.take (n - pre.length) := by
  have hpre : 37 ∉ pre.take n := fun hmem => h (List.mem_of_mem_take hmem)
  rw [List.take_append, List.mem_append]
  exact or_iff_right hpre

theorem percent_notMem_text (notice : Notice) :
    37 ∉ notice.text ↔ ∀ name ∈ notice.names, 37 ∉ name := by
  cases notice with
  | single operation name =>
    have hpre : 37 ∉ bytes operation.text ∧
        (bytes operation.text).length = operation.text.length := by
      cases operation <;> decide
    rw [Notice.text, Notice.formatted, snprintf, percent_mem_take_append hpre.1, hpre.2]
    simp [Notice.names]
  | renamed old new =>
    have hto : 37 ∉ bytes " To " := by decide
    have hpre : 37 ∉ bytes "Renamed: " := by decide
    rw [Notice.text, Notice.formatted, snprintf, List.append_assoc, List.append_assoc,
      percent_mem_take_append hpre, List.take_append, List.mem_append,
      percent_mem_take_append hto]
    simp only [Notice.names, List.forall_mem_cons, List.not_mem_nil, false_imp_iff,
      implies_true, and_true, not_or]
    rfl

theorem notificationEvents_notice (env : Env) (operation : Operation) (path : Option CStr) :
    ∀ e ∈ notificationEvents env operation.text path,
      ∃ name ∈ baseName path, e = .notification (Notice.single operation name).text := by
  intro e he
  unfold notificationEvents at he
  split at he
  · simpa [Notice.text, Notice.formatted, eq_comm] using he
  · cases he

theorem renameNotification_notice {env : Env} {src : CStr} {dst : Option CStr} {s t : Session}
    (h : renameNotification env src dst s = .ok ⟨⟩ t) :
    t = s ∨ ∃ old ∈ baseName (some src), ∃ new ∈ baseName dst,
      t = { s with trace := s.trace ++ [.notification (Notice.renamed old new).text] } := by
  unfold renameNotification at h
  split at h
  · right
    cases hold : baseName (some src) with
    | none =>
      rw [hold] at h
      cases h
    | some old =>
      cases hnew : baseName dst with
      | none =>
        rw [hold, hnew] at h
        cases h
      | some new =>
        rw [hold, hnew] at h
        exact ⟨old, rfl, new, rfl, (EStateM.Result.ok.inj h).2.symm⟩
  · exact Or.inl (EStateM.Result.ok.inj h).2.symm

/-! ## `sendNotification` -/

/-- The array is read from its start. There is no value when a multi-byte sequence leads the reader
past its end. -/
def utf8ToUtf16 : List Byte → Option (List UInt16)
  | [] => none
  | b :: src =>
    if b = 0 then some []
    else if b &&& 0xE0 = 0xE0 then
      match src with
      | c :: d :: rest =>
        (utf8ToUtf16 rest).map fun dst =>
          ((b &&& 0x0F).toUInt16 <<< 12 ||| (c &&& 0x3F).toUInt16 <<< 6 |||
            (d &&& 0x3F).toUInt16) :: dst
      | _ => none
    else if b &&& 0xC0 = 0xC0 then
      match src with
      | c :: rest =>
        (utf8ToUtf16 rest).map fun dst =>
          ((b &&& 0x1F).toUInt16 <<< 6 ||| (c &&& 0x3F).toUInt16) :: dst
      | _ => none
    else (utf8ToUtf16 src).map fun dst => b.toUInt16 :: dst

structure Shown where
  buf : CStr
  notificationText : Option (List UInt16)
  deriving DecidableEq

/-- `textMax` is `SCE_NOTIFICATIONUTIL_TEXT_MAX`, `supply` what conversions find in place of the
missing arguments, and `rest` what the array holds behind the NUL. -/
def sendNotification (textMax : ℕ) (supply : ℕ → CStr → CStr) (rest : List Byte) (text : CStr) :
    Shown :=
  let buf := vsnprintf (textMax * 2) supply text
  { buf, notificationText := utf8ToUtf16 (buf ++ 0 :: rest) }

end VitaConnect.Ftp
