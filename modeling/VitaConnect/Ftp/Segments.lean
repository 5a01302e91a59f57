import VitaConnect.Ftp.CommandLine
import VitaConnect.Ftp.Events
import VitaConnect.Program.Frames

/-! # Control lines and receives

The loop of `client_thread` takes each receive for one command, while TCP delivers the bytes of the
control lines cut anywhere. `dispatches` is the sequence of handlers and arguments that the receives
lead to.
-/
namespace VitaConnect.Ftp
open CString Program
set_option autoImplicit false

/-! ## What a run dispatches -/

/-- The loop without the handlers, which cannot reach `cmd`. -/
def dispatches : Session → List (List Byte) → List (Option DispatchFunc × CStr)
  | _, [] => []
  | s, msg :: msgs =>
    match receiveCommand msg s with
    | .ok dispatchFunc t => (dispatchFunc, t.client.recvCmdArgs) :: dispatches t msgs
    | .error _ _ => []

/-- The handlers that a run of the command loop enters, with their arguments. -/
def dispatched : Session → List Round → List (Option DispatchFunc × CStr)
  | _, [] => []
  | s, round :: rounds =>
    match receiveCommand round.1 s with
    | .ok dispatchFunc t =>
      (dispatchFunc, t.client.recvCmdArgs) ::
        match serve round s with
        | .ok _ u => dispatched u rounds
        | .error _ _ => []
    | .error _ _ => []

section Steps
variable {s s' : Session} {msg : List Byte} {msgs : List (List Byte)} {line : CStr}

theorem dispatches_ready (hline : ofBuffer (received msg) = some line) (hfit : TokenFits line) :
    dispatches s (msg :: msgs)
      = (getDispatchFunc [] (scannedCmd s.cmd line), cmdArgs line) ::
        dispatches (s.ready msg line) msgs := by
  rw [dispatches, receiveCommand_apply s hline hfit]
  rfl

theorem dispatches_fault (h : ∀ line, ofBuffer (received msg) = some line → ¬ TokenFits line) :
    dispatches s (msg :: msgs) = [] := by
  obtain ⟨f, -, hrun⟩ := receiveCommand_fault s h
  rw [dispatches, hrun]

theorem dispatches_congr (hcmd : s.cmd = s'.cmd) : dispatches s msgs = dispatches s' msgs := by
  induction msgs generalizing s s' with
  | nil => rfl
  | cons msg msgs ih =>
    by_cases hready : ∃ line, ofBuffer (received msg) = some line ∧ TokenFits line
    · obtain ⟨line, hline, hfit⟩ := hready
      have hcmd' : (s.ready msg line).cmd = (s'.ready msg line).cmd :=
        congrArg (scannedCmd · line) hcmd
      rw [dispatches_ready hline hfit, dispatches_ready hline hfit, hcmd, ih hcmd']
    · have hfault : ∀ line, ofBuffer (received msg) = some line → ¬ TokenFits line :=
        fun line hline hfit => hready ⟨line, hline, hfit⟩
      rw [dispatches_fault hfault, dispatches_fault hfault]

end Steps

/-- As long as the handlers return, the receives alone decide what is dispatched. -/
theorem dispatched_eq {rounds : List Round} {s t : Session} (h : runAll serve rounds s = .ok ⟨⟩ t) :
    dispatched s rounds = dispatches s (rounds.map Prod.fst) := by
  induction rounds generalizing s with
  | nil => rfl
  | cons round rounds ih =>
    obtain ⟨_, u, hu, hrest⟩ := bind_ok h
    obtain ⟨msg, env⟩ := round
    obtain ⟨line, hline, hfit, hhandle⟩ := serve_ok hu
    have hcmd : u.cmd = (s.ready msg line).cmd := by
      have hwithin := (handle_kinds (verbOf s msg) env) (s.ready msg line)
      rw [hhandle] at hwithin
      exact hwithin.cmd
    rw [List.map_cons, dispatches_ready hline hfit, dispatched, receiveCommand_apply s hline hfit]
    dsimp only
    rw [hu, ← dispatches_congr hcmd, ← ih hrest]
    rfl

/-! ## Control lines -/

/-- A verb that has room in `cmd`, and an argument that holds no line break. -/
structure ControlLine where
  verb : CStr
  arg : Option CStr
  verb_ne_nil : verb ≠ []
  verb_length : verb.length ≤ 15
  verb_bytes : ∀ b ∈ verb, isSpace b = false ∧ b ≠ 0
  arg_bytes : ∀ text ∈ arg, ∀ b ∈ text, b ≠ 0 ∧ b ≠ 13 ∧ b ≠ 10
  length_le : (verb ++ arg.elim [] (space :: ·) ++ eol).length ≤ 511

namespace ControlLine

def text (line : ControlLine) : List Byte :=
  line.verb ++ line.arg.elim [] (space :: ·) ++ eol

/-- The text behind the space, or the whole line. -/
def argument (line : ControlLine) : CStr :=
  match line.arg with
  | some arg => arg ++ eol
  | none => line.text

def command (line : ControlLine) : Option DispatchFunc × CStr :=
  (getDispatchFunc [] line.verb, line.argument)

theorem body_bytes (line : ControlLine) {b : Byte}
    (hb : b ∈ line.verb ++ line.arg.elim [] (space :: ·)) : b ≠ 0 ∧ b ≠ 13 ∧ b ≠ 10 := by
  rcases List.mem_append.mp hb with hverb | harg
  · obtain ⟨hspace, hzero⟩ := line.verb_bytes b hverb
    refine ⟨hzero, ?_, ?_⟩
    · rintro rfl
      exact absurd hspace (by decide)
    · rintro rfl
      exact absurd hspace (by decide)
  · have hbytes := line.arg_bytes
    cases harg' : line.arg with
    | none =>
      rw [harg'] at harg
      cases harg
    | some arg =>
      rw [harg'] at harg hbytes
      rcases List.mem_cons.mp harg with rfl | hmem
      · decide
      · exact hbytes arg rfl b hmem

theorem notMem_zero (line : ControlLine) : (0 : Byte) ∉ line.text := by
  intro h
  rcases List.mem_append.mp h with hbody | heol
  · exact (line.body_bytes hbody).1 rfl
  · exact absurd heol (by decide)

theorem isFrame (line : ControlLine) : IsFrame 10 line.text := by
  refine ⟨line.verb ++ line.arg.elim [] (space :: ·) ++ [13], ?_, ?_⟩
  · rw [text, List.append_assoc _ [13]]
    rfl
  · intro h
    rcases List.mem_append.mp h with hbody | hcr
    · exact (line.body_bytes hbody).2.2 rfl
    · exact absurd hcr (by decide)

theorem space_notMem_verb (line : ControlLine) : space ∉ line.verb :=
  fun h => absurd (line.verb_bytes space h).1 (by decide)

/-- Behind the verb comes its space or the CR. -/
theorem tail_blank (line : ControlLine) :
    ∃ b rest, line.arg.elim [] (space :: ·) ++ eol = b :: rest ∧ isSpace b := by
  cases line.arg with
  | none => exact ⟨13, [10], rfl, by decide⟩
  | some arg => exact ⟨space, arg ++ eol, rfl, by decide⟩

theorem scanToken_text (line : ControlLine) :
    scanToken line.text = some (line.verb, line.arg.elim [] (space :: ·) ++ eol) := by
  obtain ⟨b, rest, htail, hb⟩ := line.tail_blank
  obtain ⟨v, vs, hverb⟩ := List.exists_cons_of_ne_nil line.verb_ne_nil
  have hv : isSpace v = false := (line.verb_bytes v (hverb ▸ List.mem_cons_self)).1
  have hall : ∀ x ∈ v :: vs, (! isSpace x) = true := by
    intro x hx
    rw [(line.verb_bytes x (hverb ▸ hx)).1]
    rfl
  have hstop : (! isSpace b) = false := by rw [hb]; rfl
  have htext : line.text = v :: vs ++ b :: rest := by rw [text, List.append_assoc, htail, hverb]
  have hfirst : line.text.dropWhile isSpace = v :: (vs ++ b :: rest) := by
    rw [htext, List.cons_append, List.dropWhile_cons_of_neg (by simp [hv])]
  have htake : (v :: (vs ++ b :: rest)).takeWhile (! isSpace ·) = v :: vs := by
    rw [← List.cons_append, List.takeWhile_append_of_pos hall,
      List.takeWhile_cons_of_neg (by simp [hstop]), List.append_nil]
  have hdrop : (v :: (vs ++ b :: rest)).dropWhile (! isSpace ·) = b :: rest := by
    rw [← List.cons_append, List.dropWhile_append_of_pos hall,
      List.dropWhile_cons_of_neg (by simp [hstop])]
  simp only [scanToken, hfirst, htake, hdrop, hverb, htail]

theorem cmdArgs_text (line : ControlLine) : cmdArgs line.text = line.argument := by
  have hspace := line.space_notMem_verb
  unfold argument
  cases harg : line.arg with
  | none =>
    apply cmdArgs_of_notMem
    intro h
    rw [text, harg, Option.elim_none, List.append_nil] at h
    rcases List.mem_append.mp h with hverb | heol
    · exact hspace hverb
    · exact absurd heol (by decide)
  | some arg =>
    rw [text, harg, Option.elim_some, List.append_assoc, List.cons_append]
    exact cmdArgs_append_cons _ hspace

theorem argument_getLast (line : ControlLine) : line.argument.getLast? = some 10 := by
  unfold argument
  cases line.arg with
  | none => rw [text, List.getLast?_append_of_ne_nil _ (by decide)]; rfl
  | some arg => rw [List.getLast?_append_of_ne_nil _ (by decide)]; rfl

theorem commandLine_text (line : ControlLine) : commandLine line.text = line.text := by
  apply List.takeWhile_eq_self_iff.mpr
  intro b hb
  have hne : b ≠ 0 := fun h => line.notMem_zero (h ▸ hb)
  simpa using hne

theorem ready (line : ControlLine) :
    ofBuffer (received line.text) = some line.text ∧ TokenFits line.text := by
  have hlen : line.text.length ≤ 511 := line.length_le
  constructor
  · rw [ofBuffer_received hlen, line.commandLine_text]
  · intro token rest h
    rw [line.scanToken_text] at h
    obtain ⟨rfl, -⟩ := Prod.mk.inj (Option.some.inj h)
    exact Nat.lt_succ_of_le line.verb_length

end ControlLine

/-- Lines that arrive in receives of their own are dispatched one by one. -/
theorem dispatches_lines (lines : List ControlLine) (s : Session) :
    dispatches s (lines.map ControlLine.text) = lines.map ControlLine.command := by
  induction lines generalizing s with
  | nil => rfl
  | cons line lines ih =>
    have hcmd : scannedCmd s.cmd line.text = line.verb := by rw [scannedCmd, line.scanToken_text]
    rw [List.map_cons, List.map_cons, dispatches_ready line.ready.1 line.ready.2, ih, hcmd,
      line.cmdArgs_text, ControlLine.command]

/-! ## Receives of another cut -/

theorem cmdArgs_getLast {line : CStr} {b : Byte} (h : (cmdArgs line).getLast? = some b) :
    line.getLast? = some b := by
  unfold cmdArgs at h
  split at h
  · next i _ =>
    obtain ⟨pre, hpre⟩ := List.drop_suffix (i + 1) line
    rw [← hpre, List.getLast?_append_of_ne_nil]
    · exact h
    · intro hnil
      rw [hnil] at h
      cases h
  · exact h

theorem line_of_received {msg : List Byte} {line : CStr} (hsize : msg.length ≤ 512)
    (hzero : 0 ∉ msg) (h : ofBuffer (received msg) = some line) : line = msg := by
  by_cases hfull : msg.length = 512
  · have hsame : received msg = msg := by
      rw [received, hfull, Nat.sub_self, List.replicate_zero, List.append_nil,
        List.take_of_length_le (Nat.le_of_eq hfull)]
    rw [hsame] at h
    exact absurd (ofBuffer_eq_some h).1 hzero
  · rw [ofBuffer_received (by omega)] at h
    obtain rfl := Option.some.inj h
    apply List.takeWhile_eq_self_iff.mpr
    intro b hb
    have hne : b ≠ 0 := fun h => hzero (h ▸ hb)
    simpa using hne

/-- A receive whose argument ends in LF ends there itself. -/
theorem dispatches_ends {msgs : List (List Byte)} {s : Session}
    (hsize : ∀ msg ∈ msgs, msg.length ≤ 512) (hzero : ∀ msg ∈ msgs, (0 : Byte) ∉ msg)
    (hends : ∀ p ∈ dispatches s msgs, p.2.getLast? = some 10) :
    (dispatches s msgs).length ≤ msgs.length ∧
      ∀ msg ∈ msgs.take (dispatches s msgs).length, msg.getLast? = some 10 := by
  induction msgs generalizing s with
  | nil => exact ⟨le_refl _, List.forall_mem_nil _⟩
  | cons msg msgs ih =>
    rw [List.forall_mem_cons] at hsize hzero
    by_cases hready : ∃ line, ofBuffer (received msg) = some line ∧ TokenFits line
    · obtain ⟨line, hline, hfit⟩ := hready
      obtain rfl := line_of_received hsize.1 hzero.1 hline
      rw [dispatches_ready hline hfit, List.forall_mem_cons] at hends
      obtain ⟨hlen, hrest⟩ := ih hsize.2 hzero.2 hends.2
      rw [dispatches_ready hline hfit, List.length_cons, List.take_succ_cons, List.forall_mem_cons]
      exact ⟨Nat.succ_le_succ hlen, cmdArgs_getLast hends.1, hrest⟩
    · rw [dispatches_fault fun line hline hfit => hready ⟨line, hline, hfit⟩]
      exact ⟨Nat.zero_le _, List.forall_mem_nil _⟩

def noopLine : ControlLine where
  verb := bytes "NOOP"
  arg := none
  verb_ne_nil := by decide
  verb_length := by decide
  verb_bytes := by decide +kernel
  arg_bytes := by simp
  length_le := by decide

end VitaConnect.Ftp
