import VitaConnect.Ftp.Session

/-! # One round of the command loop as a function

`Session.ready` is the session in which the handler of a received line starts, and `verbOf` names
the handler. A message without a NUL among its 512 bytes and a token that does not fit `cmd` stop
the round before that.
-/
namespace VitaConnect.Ftp
open CString Program
set_option autoImplicit false

def scannedCmd (cmd line : CStr) : CStr :=
  match scanToken line with
  | none => cmd
  | some (token, _) => token

def Session.ready (s : Session) (msg : List Byte) (line : CStr) : Session :=
  { s with
    client := { s.client with recvBuffer := received msg, recvCmdArgs := cmdArgs line }
    cmd := scannedCmd s.cmd line }

def TokenFits (line : CStr) : Prop :=
  ∀ token rest, scanToken line = some (token, rest) → token.length < Buffer.cmd.size

def lookup (cmd : CStr) : Option Verb := (cmdDispatchTable.find? (·.1 == cmd)).map (·.2)

theorem getDispatchFunc_nil (cmd : CStr) :
    getDispatchFunc [] cmd = (lookup cmd).map DispatchFunc.builtin := by
  unfold getDispatchFunc lookup
  cases cmdDispatchTable.find? (·.1 == cmd) <;> rfl

def verbOf (s : Session) (msg : List Byte) : Option Verb :=
  (ofBuffer (received msg)).bind fun line => lookup (scannedCmd s.cmd line)

/-! ## The round -/

theorem scanCmd_apply {line : CStr} (s : Session) (hfit : TokenFits line) :
    scanCmd line s = .ok ⟨⟩ { s with cmd := scannedCmd s.cmd line } := by
  unfold scanCmd scannedCmd
  cases htoken : scanToken line with
  | none => rfl
  | some p =>
    have hlen : p.1.length < Buffer.cmd.size := hfit p.1 p.2 htoken
    simp only [bind_apply, store_ok hlen, modify_apply]

theorem receiveCommand_apply {msg : List Byte} {line : CStr} (s : Session)
    (hline : ofBuffer (received msg) = some line) (hfit : TokenFits line) :
    receiveCommand msg s
      = .ok (getDispatchFunc [] (scannedCmd s.cmd line)) (s.ready msg line) := by
  unfold receiveCommand
  simp only [bind_apply, setClient_apply, hline, scanCmd_apply _ hfit, get_apply, pure_apply]
  rfl

theorem receiveCommand_fault {msg : List Byte} (s : Session)
    (h : ∀ line, ofBuffer (received msg) = some line → ¬ TokenFits line) :
    ∃ f, (f = .unterminated .recvBuffer ∨ f = .overflow .cmd) ∧
      receiveCommand msg s = .error (.fault f)
        { s with client := { s.client with recvBuffer := received msg } } := by
  unfold receiveCommand
  cases hline : ofBuffer (received msg) with
  | none => exact ⟨_, Or.inl rfl, by simp [bind_apply, throw_apply]⟩
  | some line =>
    refine ⟨_, Or.inr rfl, ?_⟩
    have hlong := h line hline
    simp only [TokenFits, not_forall] at hlong
    obtain ⟨token, rest, htoken, hlen⟩ := hlong
    simp [bind_apply, scanCmd, htoken, store_apply, hlen]

def handle (verb : Option Verb) (env : Env) : FtpM PUnit :=
  match verb with
  | some v => runVerb env v
  | none => clientReply "502 Sorry, command not implemented. :("

theorem serve_apply {msg : List Byte} {line : CStr} (env : Env) (s : Session)
    (hline : ofBuffer (received msg) = some line) (hfit : TokenFits line) :
    serve (msg, env) s = handle (verbOf s msg) env (s.ready msg line) := by
  have hverb : verbOf s msg = lookup (scannedCmd s.cmd line) := by
    rw [verbOf, hline, Option.bind_some]
  rw [serve, bind_apply, receiveCommand_apply s hline hfit, getDispatchFunc_nil, hverb]
  cases lookup (scannedCmd s.cmd line) <;> rfl

theorem serve_fault {msg : List Byte} (env : Env) (s : Session)
    (h : ∀ line, ofBuffer (received msg) = some line → ¬ TokenFits line) :
    ∃ f, (f = .unterminated .recvBuffer ∨ f = .overflow .cmd) ∧
      serve (msg, env) s = .error (.fault f)
        { s with client := { s.client with recvBuffer := received msg } } := by
  obtain ⟨f, hf, hrun⟩ := receiveCommand_fault s h
  refine ⟨f, hf, ?_⟩
  rw [serve, bind_apply, hrun]

theorem serve_ok {msg : List Byte} {env : Env} {s u : Session}
    (h : serve (msg, env) s = .ok ⟨⟩ u) :
    ∃ line, ofBuffer (received msg) = some line ∧ TokenFits line ∧
      handle (verbOf s msg) env (s.ready msg line) = .ok ⟨⟩ u := by
  by_cases hready : ∃ line, ofBuffer (received msg) = some line ∧ TokenFits line
  · obtain ⟨line, hline, hfit⟩ := hready
    exact ⟨line, hline, hfit, by rw [← serve_apply env s hline hfit, h]⟩
  · obtain ⟨f, -, hrun⟩ := serve_fault env s fun line hline hfit => hready ⟨line, hline, hfit⟩
    rw [hrun] at h
    cases h

end VitaConnect.Ftp
