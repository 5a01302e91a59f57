import VitaConnect.Ftp.Endpoint

/-! # What PORT accepts (`cmd_PORT_func`)

The handler does not look at what `sscanf` answers. Every argument whose numbers fit `ip_str` sets the
data connection up and gets the reply 200.
-/
namespace VitaConnect.Ftp
open CString Program
set_option autoImplicit false

/-- The argument without the end of its line. -/
def portText (args : CStr) : CStr := args.takeWhile (· ∉ eol)

/-- Six decimal numbers of one byte each, with commas between them. -/
structure SixOctets (text : CStr) : Prop where
  six : (text.splitOn 44).length = 6
  octets : ∀ f ∈ text.splitOn 44, IsNumber f ∧ decValue f ≤ 255

instance (text : CStr) : Decidable (SixOctets text) :=
  decidable_of_iff ((text.splitOn 44).length = 6 ∧
      ∀ f ∈ text.splitOn 44, IsNumber f ∧ decValue f ≤ 255)
    ⟨fun h => ⟨h.1, h.2⟩, fun h => ⟨h.six, h.octets⟩⟩

def octetsOf (text : CStr) : List ℕ := (text.splitOn 44).map decValue

/-- The first four numbers are the address and the last two the port, in network order. -/
def endpointOf (ns : List ℕ) : SockaddrIn :=
  ⟨addrOfOctets (ns.take 4), sceNetHtons (UInt16.ofNat (ns.getD 4 0 * 256 + ns.getD 5 0))⟩

def PortAccepted (env : Env) (s u : Session) : Prop :=
  u = { s with
    client := { s.client with
      dataSockfd := env.sceNetSocket
      dataSockaddr := endpointOf (octetsOf (portText s.client.recvCmdArgs))
      dataConType := .active }
    trace := s.trace ++ [.socket env.sceNetSocket,
      .ctrlSend (bytes "200 PORT command successful!" ++ eol)] }

def IsErrorReply (msg : CStr) : Prop := bytes "4" <+: msg ∨ bytes "5" <+: msg

structure PortRefused (s u : Session) : Prop where
  reply : ∃ msg, IsErrorReply msg ∧ ctrlMsgs u.trace = ctrlMsgs s.trace ++ [msg]
  dataSockfd : u.client.dataSockfd = s.client.dataSockfd
  dataSockaddr : u.client.dataSockaddr = s.client.dataSockaddr
  dataConType : u.client.dataConType = s.client.dataConType

/-- PORT sets the connection up as its argument says, or refuses the argument. -/
def PortSound (env : Env) (s : Session) : Prop :=
  ∃ u, cmdPortFunc env s = .ok ⟨⟩ u ∧
    if SixOctets (portText s.client.recvCmdArgs) then PortAccepted env s u else PortRefused s u

/-! ## Six numbers -/

theorem octetsOf_length {text : CStr} (h : SixOctets text) : (octetsOf text).length = 6 := by
  rw [octetsOf, List.length_map, h.six]

theorem octetsOf_lt {text : CStr} (h : SixOctets text) : ∀ n ∈ octetsOf text, n < 256 := by
  intro n hn
  obtain ⟨f, hf, rfl⟩ := List.mem_map.mp hn
  exact Nat.lt_succ_of_le (h.octets f hf).2

theorem endsNumber_lineEnd (args : CStr) : EndsNumber (args.dropWhile (· ∉ eol)) := by
  have hend : ∀ b ∈ eol, isDigit b = false := by decide +kernel
  intro b hb
  have hstop : b ∈ eol := by
    have := List.head?_dropWhile_not (· ∉ eol) args
    rw [Option.mem_def.mp hb] at this
    simpa using this
  exact hend b hstop

theorem scanInts_octets {args : CStr} (h : SixOctets (portText args)) :
    scanInts 6 args = (octetsOf (portText args)).map Int.ofNat := by
  have hscan := scanInts_numbers (endsNumber_lineEnd args) ((portText args).splitOn 44) fun f hf =>
    ⟨(h.octets f hf).1, (h.octets f hf).2.trans_lt (by decide)⟩
  rw [h.six, List.intercalate_splitOn, portText, List.takeWhile_append_dropWhile] at hscan
  rw [hscan, octetsOf, List.map_map]
  rfl

theorem ofInt_natCast (n : ℕ) : UInt16.ofInt n = UInt16.ofNat n := by
  have hmod : ((n : ℤ) % 2 ^ 16).toNat = n % 2 ^ 16 := by omega
  rw [UInt16.ofInt, hmod, UInt16.ofNat_mod_size]

theorem portDataPort_octets {args : CStr} (h : SixOctets (portText args)) (env : Env) :
    portDataPort env args = UInt16.ofNat ((octetsOf (portText args)).getD 4 0 * 256 +
      (octetsOf (portText args)).getD 5 0) := by
  rw [portDataPort_of_scan env (scanInts_octets h) (octetsOf_length h), ← ofInt_natCast]
  push_cast
  rw [Int.add_comm]

/-! ## The handler -/

theorem portAccepted_of_sixOctets (env : Env) {s : Session}
    (h : SixOctets (portText s.client.recvCmdArgs)) :
    ∃ u, cmdPortFunc env s = .ok ⟨⟩ u ∧ PortAccepted env s u := by
  have hscan := scanInts_octets h
  have hlen := octetsOf_length h
  have hlt := octetsOf_lt h
  refine ⟨_, cmdPortFunc_apply env (portIpStr_fits env hscan hlen hlt), ?_⟩
  rw [sceNetInetPton_of_scan env hscan hlen hlt, portDataPort_octets h]
  rfl

/-- A run of PORT that returns has sent the reply 200. -/
theorem not_portRefused {env : Env} {s u : Session} (h : cmdPortFunc env s = .ok ⟨⟩ u) :
    ¬ PortRefused s u := by
  have hip : (portIpStr env s.client.recvCmdArgs).length < Buffer.ipStr.size := by
    by_contra hlong
    rw [cmdPortFunc, bind_apply, getClient_apply] at h
    simp only [bind_apply, store_apply, if_neg hlong] at h
    cases h
  obtain ⟨-, rfl⟩ := EStateM.Result.ok.inj ((cmdPortFunc_apply env hip).symm.trans h)
  rintro ⟨⟨msg, herror, hmsg⟩, -, -, -⟩
  simp only [ctrlMsgs_append, ctrlMsgs_cons, Event.ctrlMsg?, ctrlMsgs_nil, Option.toList_some,
    Option.toList_none, List.nil_append, List.append_nil, List.append_cancel_left_eq,
    List.cons.injEq, and_true] at hmsg
  subst hmsg
  revert herror
  unfold IsErrorReply
  decide

/-- **When PORT does right.** Its argument is six numbers of one byte each; no argument is refused. -/
theorem cmdPortFunc_sound_iff (env : Env) (s : Session) :
    PortSound env s ↔ SixOctets (portText s.client.recvCmdArgs) := by
  constructor
  · rintro ⟨u, hrun, hsound⟩
    by_contra hnot
    rw [if_neg hnot] at hsound
    exact not_portRefused hrun hsound
  · intro h
    obtain ⟨u, hrun, haccepted⟩ := portAccepted_of_sixOctets env h
    exact ⟨u, hrun, (if_pos h).symm ▸ haccepted⟩

/-- `PORT 10,0,0` is answered with 200, and the missing numbers are what the stack held. -/
theorem cmdPortFunc_missing :
    (∃ u, cmdPortFunc { calmEnv with stackInts := fun _ => 7 }
        (newSession.withArgs (bytes "10,0,0\r\n")) = .ok ⟨⟩ u ∧
      u.client.dataConType = .active ∧ u.client.dataSockaddr = endpointOf [10, 0, 0, 7, 7, 7] ∧
      ctrlMsgs u.trace = [bytes "200 PORT command successful!" ++ eol]) ∧
    ¬ ∀ env s, PortSound env s := by
  have hip : (portIpStr { calmEnv with stackInts := fun _ => 7 }
      (newSession.withArgs (bytes "10,0,0\r\n")).client.recvCmdArgs).length < Buffer.ipStr.size := by
    decide
  refine ⟨⟨_, cmdPortFunc_apply _ hip, rfl, by decide +kernel, rfl⟩, fun hall => ?_⟩
  obtain ⟨u, hrun, hsound⟩ := hall calmEnv (newSession.withArgs (bytes "10,0,0\r\n"))
  rw [if_neg (by decide)] at hsound
  exact not_portRefused hrun hsound

end VitaConnect.Ftp
