import VitaConnect.Ftp.Dispatch

/-! # What a message asks for, and what is dispatched

`commandVerb` and `commandArgs` read the verb and the argument off the message alone. The loop scans
them in two independent ways, so it agrees only on messages whose verb directly stands between
nothing but blanks without a space and a space.
-/
namespace VitaConnect.Ftp
open CString Program
set_option autoImplicit false

def commandLine (msg : List Byte) : CStr := msg.takeWhile (· != 0)

def commandVerb (msg : List Byte) : Option Verb :=
  (scanToken (commandLine msg)).bind fun p => lookup p.1

/-- The text behind the space that follows the verb; the handlers that take a name end it at CR, LF
or TAB. -/
def commandArgs (msg : List Byte) : CStr :=
  match scanToken (commandLine msg) with
  | some (_, b :: rest) => if b = space then rest else []
  | _ => []

/-- The commands whose handler makes a path by `gen_ftp_fullpath`. -/
def Verb.takesName : Verb → Bool
  | .retr | .stor | .appe | .dele | .rmd | .mkd | .rnfr | .rnto | .size => true
  | _ => false

/-- The verb stands first and has room in `cmd`, a space follows it (or the only space of the line is
its last byte), and a command that takes a name has one. -/
def PlainCommand (msg : List Byte) : Prop :=
  ∃ token rest, scanToken (commandLine msg) = some (token, rest) ∧ token.length ≤ 15 ∧
    space ∉ (commandLine msg).takeWhile isSpace ∧
    (rest.head? = some space ∨ ∃ w, rest = w ++ [space] ∧ space ∉ w) ∧
    (∀ v, lookup token = some v → v.takesName → scanSet argStops (commandArgs msg) ≠ none)

/-! ## The two scans -/

theorem cmdArgs_append_cons {w : CStr} (r : CStr) (h : space ∉ w) : cmdArgs (w ++ space :: r) = r := by
  have hdrop : (w ++ space :: r).drop (w.length + 1) = r := by
    rw [← List.drop_drop, List.drop_left]
    rfl
  rw [cmdArgs, strchr_append_cons w r space h]
  exact hdrop

theorem cmdArgs_of_notMem {line : CStr} (h : space ∉ line) : cmdArgs line = line := by
  rw [cmdArgs, (strchr_eq_none_iff line space).mpr h]

/-- The text behind the first space is the argument of the verb exactly when that space follows the
verb, or nothing follows the space. -/
theorem cmdArgs_eq_iff {msg : List Byte} {token rest : CStr}
    (h : scanToken (commandLine msg) = some (token, rest)) :
    cmdArgs (commandLine msg) = commandArgs msg ↔
      space ∉ (commandLine msg).takeWhile isSpace ∧
        (rest.head? = some space ∨ ∃ w, rest = w ++ [space] ∧ space ∉ w) := by
  obtain ⟨hsplit, hne, htoken, hhead⟩ := scanToken_eq_some h
  have hspace : space ∉ token := fun hm => absurd (htoken space hm) (by decide)
  have hargs : commandArgs msg = if rest.head? = some space then rest.tail else [] := by
    unfold commandArgs
    rw [h]
    cases rest with
    | nil => rfl
    | cons b rest => simp
  have hshort : (commandArgs msg).length ≤ rest.length := by
    rw [hargs]
    split <;> simp
  set blanks := (commandLine msg).takeWhile isSpace with hblanks
  have hpos : 0 < token.length := List.length_pos_iff.mpr hne
  rw [hsplit]
  by_cases hmem : space ∈ blanks
  · obtain ⟨w, r, hw, hfirst⟩ := List.eq_append_cons_of_mem hmem
    refine iff_of_false ?_ fun hc => hc.1 hmem
    intro heq
    have hlen := congrArg List.length heq
    rw [hw, show w ++ space :: r ++ token ++ rest = w ++ space :: (r ++ token ++ rest) by simp,
      cmdArgs_append_cons _ hfirst] at hlen
    simp only [List.length_append] at hlen
    omega
  · simp only [hmem, not_false_eq_true, true_and]
    by_cases hrest : space ∈ rest
    · obtain ⟨w, r, rfl, hfirst⟩ := List.eq_append_cons_of_mem hrest
      have hbefore : space ∉ blanks ++ token ++ w := by simp [hmem, hspace, hfirst]
      rw [← List.append_assoc, cmdArgs_append_cons r hbefore, hargs]
      cases w with
      | nil => simp
      | cons b w =>
        have hb : b ≠ space := fun hb => hfirst (by simp [hb])
        simp only [List.cons_append, List.head?_cons, Option.some.injEq, hb, if_false, false_or]
        constructor
        · rintro rfl
          exact ⟨b :: w, by simp, hfirst⟩
        · rintro ⟨v, hv, hnot⟩
          have h1 := cmdArgs_append_cons r hfirst
          have h2 := cmdArgs_append_cons [] hnot
          rw [List.cons_append, hv, h2] at h1
          exact h1.symm
    · have hall : space ∉ blanks ++ token ++ rest := by simp [hmem, hspace, hrest]
      have hnothead : rest.head? ≠ some space := fun hh => hrest (List.mem_of_mem_head? hh)
      rw [cmdArgs_of_notMem hall, hargs, if_neg hnothead]
      refine iff_of_false ?_ ?_
      · intro heq
        have hlen := congrArg List.length heq
        simp only [List.length_append, List.length_nil] at hlen
        omega
      · rintro (hh | ⟨w, rfl, -⟩)
        · exact hnothead hh
        · simp at hrest

/-! ## Dispatch -/

def Dispatches (s : Session) (msg : List Byte) (verb : Option Verb) (args : CStr) : Prop :=
  ∃ t, receiveCommand msg s = .ok (verb.map .builtin) t ∧ t.client.recvCmdArgs = args

theorem ofBuffer_received {msg : List Byte} (h : msg.length ≤ 511) :
    ofBuffer (received msg) = some (commandLine msg) := by
  have hfill : received msg = msg ++ List.replicate (512 - msg.length) 0 := by
    rw [received, List.take_of_length_le]
    simp only [List.length_append, List.length_replicate]
    omega
  have hzero : (0 : Byte) ∈ List.replicate (512 - msg.length) (0 : Byte) :=
    List.mem_replicate.mpr ⟨by omega, rfl⟩
  have hstop : (List.replicate (512 - msg.length) (0 : Byte)).takeWhile (· != 0) = [] := by
    rw [List.takeWhile_replicate]
    rfl
  rw [ofBuffer, hfill, if_pos (List.mem_append_right msg hzero), List.takeWhile_append, hstop,
    commandLine]
  split
  · next hall =>
    rw [List.append_nil, (List.takeWhile_prefix _).eq_of_length hall]
  · rfl

/-- A message with a token is dispatched by it, whatever was in `cmd` before. -/
theorem verbOf_eq_commandVerb {msg : List Byte} (hmsg : msg.length ≤ 511) {v : Verb}
    (hverb : commandVerb msg = some v) (s : Session) : verbOf s msg = some v := by
  rw [verbOf, ofBuffer_received hmsg, Option.bind_some, scannedCmd]
  rw [commandVerb] at hverb
  cases htoken : scanToken (commandLine msg) with
  | none =>
    rw [htoken] at hverb
    cases hverb
  | some p =>
    rw [htoken] at hverb
    exact hverb

theorem dispatches_iff {s : Session} {msg : List Byte} (hmsg : msg.length ≤ 511)
    (verb : Option Verb) (args : CStr) :
    Dispatches s msg verb args ↔ TokenFits (commandLine msg) ∧
      verb = lookup (scannedCmd s.cmd (commandLine msg)) ∧ args = cmdArgs (commandLine msg) := by
  have hline := ofBuffer_received hmsg
  have hinj : Function.Injective (Option.map DispatchFunc.builtin) :=
    Option.map_injective fun _ _ h => DispatchFunc.builtin.inj h
  constructor
  · rintro ⟨t, hrun, rfl⟩
    by_cases hfit : TokenFits (commandLine msg)
    · rw [receiveCommand_apply s hline hfit, getDispatchFunc_nil] at hrun
      obtain ⟨hverb, rfl⟩ := EStateM.Result.ok.inj hrun
      exact ⟨hfit, (hinj hverb).symm, rfl⟩
    · obtain ⟨f, -, hfault⟩ := receiveCommand_fault s fun line hl => by
        obtain rfl : commandLine msg = line := Option.some.inj (hline.symm.trans hl)
        exact hfit
      rw [hfault] at hrun
      cases hrun
  · rintro ⟨hfit, rfl, rfl⟩
    refine ⟨s.ready msg (commandLine msg), ?_, rfl⟩
    rw [receiveCommand_apply s hline hfit, getDispatchFunc_nil]

def afterNoop : Session :=
  finalState (clientThread [(bytes "NOOP\r\n", calmEnv)] newSession)

theorem reaches_afterNoop : Reaches [(bytes "NOOP\r\n", calmEnv)] afterNoop :=
  ⟨newSession, fresh_newSession, eq_ok_of_returned (by decide +kernel)⟩

/-- **Which messages are dispatched by themselves.** A handler that takes a name finds the argument of the
message, up to its CR, LF or TAB. -/
theorem dispatch_iff_plain (msg : List Byte) (hmsg : msg.length ≤ 511) :
    (∀ rounds₁ rounds₂ s₁ s₂, Reaches rounds₁ s₁ → Reaches rounds₂ s₂ →
      ∃ verb args, Dispatches s₁ msg verb args ∧ Dispatches s₂ msg verb args ∧
        verb = commandVerb msg ∧ args = commandArgs msg ∧
        ∀ v, verb = some v → v.takesName → ∀ env,
          scanSet argStops (commandArgs msg) = some (ftpName env args)) ↔ PlainCommand msg := by
  constructor
  · intro h
    obtain ⟨verb, args, hd, -, hverb, hargs, hname⟩ :=
      h _ _ _ _ reaches_afterNoop reaches_afterNoop
    obtain ⟨hfit, hlookup, hscan⟩ := (dispatches_iff hmsg verb args).mp hd
    cases htoken : scanToken (commandLine msg) with
    | none =>
      have hcmd : scannedCmd afterNoop.cmd (commandLine msg) = bytes "NOOP" := by
        rw [scannedCmd, htoken]
        decide +kernel
      have hnone : commandVerb msg = none := by rw [commandVerb, htoken, Option.bind_none]
      rw [hverb, hnone, hcmd] at hlookup
      exact absurd hlookup (by decide)
    | some p =>
      obtain ⟨token, rest⟩ := p
      have hsame : cmdArgs (commandLine msg) = commandArgs msg := hscan.symm.trans hargs
      obtain ⟨hblanks, hrest⟩ := (cmdArgs_eq_iff htoken).mp hsame
      have hlen : token.length < 16 := hfit token rest htoken
      refine ⟨token, rest, htoken, by omega, hblanks, hrest, ?_⟩
      intro v hv htakes hnone
      have hv' : verb = some v := by rw [hverb, commandVerb, htoken, Option.bind_some, hv]
      have hscanned := hname v hv' htakes calmEnv
      rw [hnone] at hscanned
      cases hscanned
  · rintro ⟨token, rest, htoken, hlen, hblanks, hrest, hname⟩ rounds₁ rounds₂ s₁ s₂ - -
    have hfit : TokenFits (commandLine msg) := by
      intro token' rest' htoken'
      rw [htoken] at htoken'
      cases htoken'
      exact Nat.lt_succ_of_le hlen
    have hcmd : ∀ s : Session, scannedCmd s.cmd (commandLine msg) = token := fun s => by
      rw [scannedCmd, htoken]
    have hverb : commandVerb msg = lookup token := by rw [commandVerb, htoken, Option.bind_some]
    have hargs := (cmdArgs_eq_iff htoken).mpr ⟨hblanks, hrest⟩
    have hd : ∀ s, Dispatches s msg (commandVerb msg) (commandArgs msg) := fun s =>
      (dispatches_iff hmsg _ _).mpr ⟨hfit, by rw [hcmd, hverb], hargs.symm⟩
    refine ⟨_, _, hd s₁, hd s₂, rfl, rfl, ?_⟩
    intro v hv htakes env
    obtain ⟨name, hscan⟩ := Option.ne_none_iff_exists'.mp (hname v (hverb ▸ hv) htakes)
    rw [ftpName, hscan, Option.getD_some]

theorem dispatch_iff_plain_cwd :
    (bytes "CWD a\r\n").length ≤ 511 ∧
      ∀ rounds₁ rounds₂ s₁ s₂, Reaches rounds₁ s₁ → Reaches rounds₂ s₂ →
        ∃ verb args, Dispatches s₁ (bytes "CWD a\r\n") verb args ∧
          Dispatches s₂ (bytes "CWD a\r\n") verb args ∧ verb = some .cwd ∧ args = bytes "a\r\n" := by
  have hplain : PlainCommand (bytes "CWD a\r\n") :=
    ⟨bytes "CWD", bytes " a\r\n", by decide, by decide, by decide, Or.inl (by decide), by
      intro v hv htakes
      decide⟩
  refine ⟨by decide, fun rounds₁ rounds₂ s₁ s₂ h₁ h₂ => ?_⟩
  obtain ⟨verb, args, hd₁, hd₂, hverb, hargs, -⟩ :=
    (dispatch_iff_plain _ (by decide)).mpr hplain rounds₁ rounds₂ s₁ s₂ h₁ h₂
  exact ⟨verb, args, hd₁, hd₂, hverb.trans (by decide), hargs.trans (by decide)⟩

/-- DELE without an argument: the line itself is the name. -/
theorem dispatch_dele_line :
    Dispatches afterNoop (bytes "DELE\r\n") (some .dele) (bytes "DELE\r\n") ∧
      scanSet argStops (bytes "DELE\r\n") = some (bytes "DELE") ∧
      ¬ ∀ rounds₁ rounds₂ s₁ s₂, Reaches rounds₁ s₁ → Reaches rounds₂ s₂ →
        ∃ verb args, Dispatches s₁ (bytes "DELE\r\n") verb args ∧
          Dispatches s₂ (bytes "DELE\r\n") verb args ∧
          verb = commandVerb (bytes "DELE\r\n") ∧ args = commandArgs (bytes "DELE\r\n") ∧
          ∀ v, verb = some v → v.takesName → ∀ env,
            scanSet argStops (commandArgs (bytes "DELE\r\n")) = some (ftpName env args) := by
  have hlen : (bytes "DELE\r\n").length ≤ 511 := by decide
  have htoken : scanToken (commandLine (bytes "DELE\r\n")) = some (bytes "DELE", bytes "\r\n") := by
    decide
  refine ⟨(dispatches_iff hlen _ _).mpr ⟨?_, ?_, by decide⟩, by decide, ?_⟩
  · intro token rest h
    obtain ⟨rfl, -⟩ := Prod.mk.inj (Option.some.inj (htoken.symm.trans h))
    decide
  · rw [scannedCmd, htoken]
    decide
  · intro h
    obtain ⟨verb, args, hd, -, -, hargs, -⟩ := h _ _ _ _ reaches_afterNoop reaches_afterNoop
    have hscan := ((dispatches_iff hlen verb args).mp hd).2.2
    exact absurd (hargs.symm.trans hscan) (by decide)

end VitaConnect.Ftp
