import VitaConnect.CString.Scan

/-! # The reply format of FTP

A reply is a line `nnn text`, or a line `nnn-text` followed by any lines up to one that starts with
the same code and a space. Lines end with CR LF. `replies` reads the codes off the bytes sent, and
has no value when they are not a sequence of complete replies.
-/
namespace VitaConnect.CString
set_option autoImplicit false

def splitLines (current : CStr) : CStr → List CStr × CStr
  | [] => ([], current)
  | [b] => ([], current ++ [b])
  | a :: b :: s =>
    if a = 13 ∧ b = 10 then (current :: (splitLines [] s).1, (splitLines [] s).2)
    else splitLines (current ++ [a]) (b :: s)

/-- The code a line starts with, and whether a space follows it. -/
def replyHead (line : CStr) : Option (ℕ × Bool) :=
  match line with
  | a :: b :: c :: d :: _ =>
    if isDigit a ∧ isDigit b ∧ isDigit c ∧ (d = space ∨ d = 45) then
      some (decValue [a, b, c], d = space)
    else none
  | _ => none

/-- The codes of the replies in `lines`; `opened` is the code of an unfinished reply. -/
def parseReplies (opened : Option ℕ) : List CStr → Option (List ℕ)
  | [] => if opened = none then some [] else none
  | line :: lines =>
    match opened, replyHead line with
    | none, none => none
    | none, some (code, true) => (parseReplies none lines).map (code :: ·)
    | none, some (code, false) => parseReplies (some code) lines
    | some code, head =>
      if head = some (code, true) then (parseReplies none lines).map (code :: ·)
      else parseReplies (some code) lines

def replies (data : CStr) : Option (List ℕ) :=
  if (splitLines [] data).2 = [] then parseReplies none (splitLines [] data).1 else none

def isOneReply : List ℕ → Bool
  | [final] => 200 ≤ final && final < 600
  | [preliminary, final] => 100 ≤ preliminary && preliminary < 200 && 200 ≤ final && final < 600
  | _ => false

def oneFinalReply (data : CStr) : Bool := (replies data).any isOneReply

/-! ## A single line -/

theorem splitLines_line {line : CStr} (h : 13 ∉ line) (current : CStr) :
    splitLines current (line ++ [13, 10]) = ([current ++ line], []) := by
  induction line generalizing current with
  | nil => simp [splitLines]
  | cons a line ih =>
    obtain ⟨ha, hline⟩ : 13 ≠ a ∧ 13 ∉ line := by simpa using h
    obtain ⟨b, s, hs⟩ := List.exists_cons_of_ne_nil (l := line ++ [13, 10]) (by simp)
    rw [List.cons_append, hs, splitLines, if_neg (fun hc => ha hc.1.symm), ← hs, ih hline]
    simp

theorem oneFinalReply_line {line : CStr} {c : ℕ} (h : 13 ∉ line)
    (hhead : replyHead line = some (c, true)) (hcode : 200 ≤ c) (hcode' : c < 600) :
    oneFinalReply (line ++ [13, 10]) = true := by
  rw [oneFinalReply, replies, splitLines_line h]
  simp [parseReplies, hhead, isOneReply, hcode, hcode']

theorem splitLines_of_notMem {s : CStr} (h : 10 ∉ s) (current : CStr) :
    splitLines current s = ([], current ++ s) := by
  induction s generalizing current with
  | nil => simp [splitLines]
  | cons a s ih =>
    obtain ⟨-, hs⟩ : 10 ≠ a ∧ 10 ∉ s := by simpa using h
    cases s with
    | nil => rfl
    | cons b s =>
      have hb : ¬ (a = 13 ∧ b = 10) := fun hc => hs (hc.2 ▸ List.mem_cons_self)
      rw [splitLines, if_neg hb, ih hs]
      simp

theorem oneFinalReply_of_notMem {s : CStr} (h : 10 ∉ s) : oneFinalReply s = false := by
  rw [oneFinalReply, replies, splitLines_of_notMem h]
  split <;> rfl

end VitaConnect.CString
